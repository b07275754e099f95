import Chute.Relay.Traffic
import Mathlib.Algebra.BigOperators.Ring.Finset

/-!
# What the writer pumps have still to read

The bytes that wait in the queues of streams whose writer pump has not finished are
within the budget of their account, and within the cap of their connection, as long as
no stream is torn down while its pump has something to read: `_close_local` gives the
budget back at once, and the queue stays.
-/
namespace Chute

namespace Host

/-! ### The booking of an account -/

/-- Nothing was booked. -/
def Eases (h h' : Host) : Prop := h'.account.buffered ≤ max h.account.buffered 0

theorem Eases.refl (h : Host) : Eases h h := le_max_left _ _

theorem Eases.trans {h₁ h₂ h₃ : Host} (first : Eases h₁ h₂) (second : Eases h₂ h₃) :
    Eases h₁ h₃ := by
  unfold Eases at *
  omega

theorem eases_of_eq {h h' : Host} (same : h'.account = h.account) : Eases h h' := by
  unfold Eases
  rw [same]
  exact le_max_left _ _

theorem eases_releaseBuffer (h : Host) (n : Int) : Eases h (h.releaseBuffer n) := by
  unfold releaseBuffer
  split
  · exact .refl h
  next some_bytes =>
    simp only [not_or] at some_bytes
    unfold Eases Account.release
    simp only
    split
    · exact le_max_right _ _
    · simp only; omega

theorem eases_closeLocal (h : Host) (r : Ref) (terminal : RecvState) :
    Eases h (h.closeLocal r terminal) := by
  cases found : h.mux.heap r with
  | none => rw [closeLocal_none found]; exact .refl h
  | some s =>
    cases closed : s.closed with
    | true => rw [closeLocal_closed found closed]; exact .refl h
    | false =>
      rw [closeLocal_live found closed]
      exact eases_releaseBuffer h s.recvBuffered

theorem eases_finish (h : Host) : Eases h h.finish := by
  have all : ∀ entries (h : Host), Eases h (h.abortAll entries) := by
    intro entries
    induction entries with
    | nil => exact fun h => .refl h
    | cons e entries ih => exact fun h => (eases_closeLocal h _ _).trans (ih _)
  rw [finish_eq]
  exact (all _ h).trans (eases_of_eq rfl)

theorem eases_ignoreFrame (h : Host) : Eases h h.ignoreFrame := by
  unfold ignoreFrame
  simp only
  split
  · exact eases_of_eq rfl
  · exact (eases_of_eq rfl).trans (eases_finish _)

theorem account_resetLocalNow (h : Host) (r : Ref) :
    (h.resetLocalNow r).1.account = (h.closeLocal r .reset).account := by
  unfold resetLocalNow
  split
  next absent => rw [closeLocal_none absent]
  · simp only
    split <;> rfl

theorem eases_reset (h : Host) (r : Ref) (sent : Bool) : Eases h (h.reset r sent).host := by
  have same : (h.reset r sent).host.account = (h.resetLocalNow r).1.account := by
    unfold reset
    split
    next now reset => simp [reset]
    next now reset => simp [reset]
  exact (eases_closeLocal h r .reset).trans (eases_of_eq (same.trans (account_resetLocalNow h r)))

theorem eases_resetMalformed (h : Host) (r : Ref) : Eases h (h.resetMalformed r) := by
  have same : (h.resetMalformed r).account = (h.resetLocalNow r).1.account := by
    unfold resetMalformed
    split
    next now reset => simp [reset]
    next now reset => simp [reset]
  exact (eases_closeLocal h r .reset).trans (eases_of_eq (same.trans (account_resetLocalNow h r)))

/-- A step books nothing, or what it books is within the limit. -/
theorem step_booking {h : Host} (acc : h.mux.Accounted) (budgeted : h.mux.config.budgeted = true)
    {limit : Int} (limited : h.account.maxBufferedBytes = some limit) {a : Action} {e : Effect}
    (moved : h.step a = some e) : Eases h e.host ∨ e.host.account.buffered ≤ limit := by
  cases a with
  | message msg =>
    obtain ⟨-, arrival, -⟩ := step_message acc moved
    generalize msg.frame = f at arrival
    generalize e.host = h' at arrival
    cases arrival with
    | ignored why => exact Or.inl (eases_ignoreFrame h)
    | fed r s payload registered found accepting some_data h' admitted =>
      exact Or.inr (admitted.limit budgeted limit limited)
    | malformed f r sid registered bad => exact Or.inl (eases_resetMalformed h r)
    | aborted r payload registered =>
      exact Or.inl ((eases_of_eq rfl).trans (eases_closeLocal _ r .reset))
    | _ => exact Or.inl (eases_of_eq rfl)
  | connectionLost =>
    simp only [Host.step] at moved
    split at moved
    · cases moved; exact Or.inl (eases_finish h)
    · cases moved
  | openStream sent =>
    simp only [Host.step] at moved
    split at moved
    · cases moved
    · cases moved
      refine Or.inl (eases_of_eq ?_)
      unfold openStream
      simp only
      split <;> rfl
  | openReturn r =>
    simp only [Host.step] at moved
    split at moved
    · cases moved; exact Or.inl (eases_of_eq rfl)
    · cases moved
  | openRaise r =>
    simp only [Host.step] at moved
    split at moved
    · cases moved; exact Or.inl ((eases_of_eq rfl).trans (eases_closeLocal _ r .eof))
    · cases moved
  | read r =>
    obtain ⟨s, held, moved⟩ := Option.bind_eq_some_iff.mp moved
    unfold Host.read at moved
    repeat' split at moved
    · cases moved
    · cases moved; exact Or.inl (eases_of_eq rfl)
    · cases moved; exact Or.inl (eases_of_eq rfl)
    · cases moved; exact Or.inl ((eases_of_eq rfl).trans (eases_releaseBuffer _ _))
  | reset r sent =>
    obtain ⟨s, held, rfl⟩ := Option.map_eq_some_iff.mp moved
    exact Or.inl (eases_reset h r sent)
  | close r =>
    obtain ⟨s, held, rfl⟩ := Option.map_eq_some_iff.mp moved
    exact Or.inl (eases_closeLocal h r .eof)
  | runTask task sent =>
    simp only [Host.step] at moved
    split at moved
    · cases moved
      cases task with
      | reset r => exact Or.inl ((eases_of_eq rfl).trans (eases_reset _ r sent))
      | sendOnce sid => exact Or.inl (eases_of_eq rfl)
      | sendOnceSent sid => exact Or.inl (eases_of_eq rfl)
    · cases moved
  | send r data sent =>
    obtain ⟨s, held, moved⟩ := Option.bind_eq_some_iff.mp moved
    split at moved
    · cases moved; exact Or.inl (eases_of_eq rfl)
    · cases moved
  | sendEof r sent =>
    obtain ⟨s, held, moved⟩ := Option.bind_eq_some_iff.mp moved
    split at moved
    · cases moved
      refine Or.inl (eases_of_eq ?_)
      unfold sendEof
      split <;> rfl
    · cases moved
  | sendResume r sent =>
    obtain ⟨s, held, moved⟩ := Option.bind_eq_some_iff.mp moved
    unfold sendResume at moved
    repeat' split at moved
    all_goals cases moved
    all_goals exact Or.inl (eases_of_eq rfl)
  | sendTimeout r =>
    obtain ⟨s, held, moved⟩ := Option.bind_eq_some_iff.mp moved
    unfold sendTimeout at moved
    split at moved
    · cases moved; exact Or.inl (eases_of_eq rfl)
    · cases moved
  | sendRaise r =>
    obtain ⟨s, held, moved⟩ := Option.bind_eq_some_iff.mp moved
    unfold sendRaise at moved
    split at moved
    · cases moved
    · cases moved; exact Or.inl (eases_of_eq rfl)
  | ack r n sent =>
    obtain ⟨s, held, rfl⟩ := Option.map_eq_some_iff.mp moved
    refine Or.inl (eases_of_eq ?_)
    unfold Host.ack
    repeat' split
    all_goals rfl
  | goaway sent => cases moved; exact Or.inl (eases_of_eq rfl)
  | rearmIdle =>
    simp only [Host.step] at moved
    split at moved
    · cases moved
    · cases moved; exact Or.inl (eases_of_eq rfl)
  | writeStall => cases moved; exact Or.inl (eases_of_eq rfl)
  | closeStall => cases moved; exact Or.inl (eases_of_eq rfl)

end Host

/-! ### The pumps that have not finished -/

/-- The writer pump of the visit runs, or is yet to be started. -/
def Relay.pumping (p : Relay) : Bool :=
  match p.writer with
  | some pump => !pump.isDone
  | none => p.phase.early && p.phase != .refused

theorem RelayPhase.early_of_stopped {phase : RelayPhase} (stopped : phase.stopped = true) :
    phase.early = false := by
  cases phase <;> first | rfl | cases stopped

/-- A stream that was torn down has nothing left for its pump. -/
structure Cleared (s : Stream) (v : Visit) : Prop where
  cleared : v.relay.pumping = true → s.closed = true → s.chunks = []
  dead : s.closed = true → s.recv ≠ .open_
  early : v.relay.phase.early = true → v.relay.writer = none
  stopped : v.relay.phase.stopped = true → v.relay.pumping = false

namespace Cleared

variable {s t : Stream} {v : Visit}

theorem same (clear : Cleared s v) (side : Host.SameSide s t) : Cleared t v := by
  obtain ⟨queue, recv, closed⟩ := side
  have chunks : t.chunks = s.chunks := by rw [Stream.chunks, queue, Stream.chunks]
  exact ⟨by rw [chunks, closed]; exact clear.cleared, by rw [recv, closed]; exact clear.dead,
    clear.early, clear.stopped⟩

/-- Another relay in the same place that pumps no longer than before. -/
theorem relay (clear : Cleared s v) {q : Relay} (pumping : q.pumping = true → v.relay.pumping = true)
    (early : q.phase.early = true → q.writer = none)
    (stopped : q.phase.stopped = true → q.pumping = false) : Cleared s { v with relay := q } :=
  ⟨fun going closed => clear.cleared (pumping going) closed, clear.dead, early, stopped⟩

theorem listens (clear : Cleared s v) {h : Host} {a : Action} (listens : h.Listens v.ref s a t)
    (spared : h.tears v.ref a = true → s.closed = false → v.relay.pumping = true → s.chunks = []) :
    Cleared t (Traffic.hear v.conn a v) := by
  unfold Traffic.hear
  rw [if_pos rfl]
  -- the relay stays where it was, so only the stream matters
  have hears : Cleared t v → Cleared t { v with heard := v.heard.after v.ref.sid a } :=
    fun after => ⟨after.cleared, after.dead, after.early, after.stopped⟩
  refine hears ?_
  cases listens with
  | still queue recv closed silent => exact clear.same ⟨queue, recv, closed⟩
  | fed data brings accepting queue recv closed =>
    have live : s.closed ≠ true := fun dead => clear.dead dead accepting
    exact ⟨fun _ dead => absurd (closed ▸ dead) live, fun dead => absurd (closed ▸ dead) live,
      clear.early, clear.stopped⟩
  | overflow data brings accepting queue recv closed =>
    have live : s.closed ≠ true := fun dead => clear.dead dead accepting
    exact ⟨fun _ dead => absurd (closed ▸ dead) live, fun dead => absurd (closed ▸ dead) live,
      clear.early, clear.stopped⟩
  | ended brings accepting queue recv closed =>
    have live : s.closed ≠ true := fun dead => clear.dead dead accepting
    exact ⟨fun _ dead => absurd (closed ▸ dead) live, fun dead => absurd (closed ▸ dead) live,
      clear.early, clear.stopped⟩
  | torn tears live shut =>
    subst shut
    refine ⟨fun going _ => ?_, fun _ => ?_, clear.early, clear.stopped⟩
    · rw [Stream.chunks_shut]
      exact spared tears live going
    · rw [Stream.recv_shut]
      split
      · simp
      next past => exact past

/-- The last calls of a relay come when no pump runs. -/
theorem shut (clear : Cleared s v) {terminal : RecvState} (past : terminal ≠ .open_) {q : Relay}
    (still : q.pumping = false) (early : q.phase.early = true → q.writer = none)
    (after : t = if s.closed then s else s.shut terminal) : Cleared t { v with relay := q } := by
  refine ⟨fun going => ?_, fun _ => ?_, early, fun _ => still⟩
  · rw [still] at going
    cases going
  · rw [after]
    split
    next closed => exact clear.dead closed
    next live =>
      rw [Stream.recv_shut]
      split
      · exact past
      next past => exact past

/-- A turn of the main coroutine. -/
theorem goes (clear : Cleared s v) {r : Ref} {turn : Turn Relay} (goes : v.relay.Goes r turn)
    (res : Result) : Cleared s { v with relay := turn.next res } := by
  have called : v.relay.phase ≠ .refused := by
    intro refused
    have going := goes.underWay
    simp [Relay.underWay, refused] at going
  have coming : v.relay.phase.early = true → v.relay.pumping = true := fun early => by
    simp [Relay.pumping, clear.early early, early, called]
  rcases goes.next res with ⟨next, early⟩ | ⟨phase, next, finished, refused, early, stopped⟩
  · rw [next]
    exact clear.relay (fun _ => coming early) (by rintro ⟨⟩) (by rintro ⟨⟩)
  · rw [next]
    refine clear.relay (fun pumping => ?_) (fun isEarly => clear.early (early isEarly)) fun isOver => ?_
    · cases pump : v.relay.writer with
      | some w => simpa [Relay.pumping, Relay.go, pump] using pumping
      | none =>
        have isEarly : phase.early = true := by
          simp only [Relay.pumping, Relay.go, pump, Bool.and_eq_true] at pumping
          exact pumping.1
        exact coming (early isEarly)
    · have past : phase.early = false := RelayPhase.early_of_stopped isOver
      rcases stopped isOver with wasEarly | settled
      · simp [Relay.pumping, Relay.go, clear.early wasEarly, past]
      · cases pump : v.relay.writer with
        | some w =>
          have done : w.isDone = true := by
            have both := settled
            simp only [Relay.settled, pump, Option.all_some, Bool.and_eq_true] at both
            exact both.2
          simp [Relay.pumping, Relay.go, pump, done]
        | none => simp [Relay.pumping, Relay.go, pump, past]

/-- `read` leaves less. -/
theorem read (clear : Cleared s v) {c : Option Bytes} (queue : s.incoming = c :: t.incoming)
    (recv : t.recv = s.recv) (closed : t.closed = s.closed) : Cleared t v := by
  refine ⟨fun going dead => ?_, by rw [recv, closed]; exact clear.dead, clear.early, clear.stopped⟩
  have before := clear.cleared going (closed ▸ dead)
  rw [Stream.chunks, queue] at before
  cases c <;> simp_all [Stream.chunks]

/-- A turn of the writer pump. -/
theorem writer (clear : Cleared s v) {w : WriterPump} (running : v.relay.writer = some w)
    (going : w.isDone = false) (k : Socket) (w' : WriterPump) :
    Cleared s { v with relay := { v.relay with socket := k, writer := some w' } } := by
  have pumping : v.relay.pumping = true := by simp [Relay.pumping, running, going]
  refine clear.relay (fun _ => pumping) (fun early => ?_) fun stopped => ?_
  · have absent := clear.early early
    rw [running] at absent
    cases absent
  · have still := clear.stopped stopped
    rw [pumping] at still
    cases still

end Cleared

namespace Traffic

/-- The stream of a visit, if its pump has something to read from it. -/
def waiting (T : Traffic) (v : Visit) : Option Stream :=
  ((T.server.registrations[v.conn]?).bind fun reg => reg.mux.heap v.ref).filter fun s =>
    v.relay.pumping && decide (s.closed = false ∧ s.chunks ≠ [])

/-- The step tears down no stream while its writer pump has something to read. -/
def spares (T : Traffic) : Action → Bool
  | .connection i a =>
    T.visits.all fun v => !(v.conn = i && (T.waiting v).isSome &&
      (T.server.registrations[i]?).any fun reg => (T.server.host reg).tears v.ref a)
  | _ => true

/-- The phases after the pumps differ in nothing that concerns them. -/
private theorem still_of_stopped {s : Stream} {v : Visit} (clear : Cleared s v) {phase : RelayPhase}
    (here : v.relay.phase = phase) (stopped : phase.stopped = true) {q : Relay}
    (same : q.writer = v.relay.writer) (late : q.phase.early = false) : q.pumping = false := by
  have still := clear.stopped (by rw [here]; exact stopped)
  have past : v.relay.phase.early = false := RelayPhase.early_of_stopped (by rw [here]; exact stopped)
  unfold Relay.pumping at still ⊢
  rw [same]
  cases pump : v.relay.writer with
  | some w => simpa [pump] using still
  | none => simp [late]

theorem keeps_cleared : Keeps Cleared fun T a => T.spares a = true where
  start c i r initial canWriteEof watched :=
    ⟨nofun, nofun, fun _ => rfl, nofun⟩
  same clear side := clear.same side
  hears := by
    intro T v reg s t a allowed here serves clear listens
    refine clear.listens listens fun tears live pumping => ?_
    by_contra some_chunks
    obtain ⟨k, here⟩ := here
    have all := List.all_eq_true.mp allowed v (List.mem_of_getElem? here)
    simp [waiting, serves.found, serves.stream, tears, live, pumping, some_chunks] at all
  quiet := by
    intro T k v reg s a turn allowed here serves closed clear turns silent
    cases turns with
    | socket e k event order => exact clear.relay id clear.early clear.stopped
    | reader a pump turn running took => exact clear.relay id clear.early clear.stopped
    | writer a pump turn running took =>
      exact clear.writer running (pump.turn_running took) _ _
    | idle phase => exact clear.relay id clear.early clear.stopped
    | main a turn goes => exact clear.goes goes .returned
    | refused phase => cases silent
    | reset sent phase => cases silent
    | close phase => cases silent
  calls := by
    intro T k v reg s t a turn call res allowed here serves closed clear turns calls answers
    cases turns with
    | socket e k event order => cases calls
    | reader a pump turn running took =>
      have side := answers.plain (Or.inl (pump.turn_target took calls))
      exact (clear.same side).relay id clear.early clear.stopped
    | writer a pump turn running took =>
      have calls : turn.call = some call := calls
      have going := pump.turn_running took
      by_cases reads : call = .read v.ref
      · obtain ⟨c, -, queue, recv, closed'⟩ := answers.read reads
        exact (clear.read queue recv closed').writer running going _ _
      · have side := answers.plain (Or.inl ⟨pump.turn_target took calls, reads⟩)
        exact (clear.same side).writer running going _ _
    | idle phase => cases calls
    | main a turn goes => exact (clear.same (answers.plain (goes.call call calls))).goes goes res
    | refused phase =>
      cases calls
      have early : v.relay.phase.early = true := by rw [phase]; rfl
      have none_running := clear.early early
      exact clear.shut (by decide) (by simp [Relay.pumping, Relay.go, none_running])
        (fun _ => none_running) (answers.close (Or.inr rfl))
    | reset sent phase =>
      cases calls
      exact clear.shut (by decide) (still_of_stopped clear phase rfl rfl rfl) nofun (answers.reset sent rfl)
    | close phase =>
      cases calls
      exact clear.shut (by decide) (still_of_stopped clear phase rfl rfl rfl) nofun
        (answers.close (Or.inl rfl))

/-! ### Adding up -/

/-- The bytes in the receive queue of the stream of a visit. -/
def queuedBytes (T : Traffic) (v : Visit) : Nat :=
  ((T.server.registrations[v.conn]?).bind fun reg => reg.mux.heap v.ref).elim 0 Stream.queuedBytes

/-- The bytes that wait for writer pumps, over the visits that `p` selects. -/
def unread (T : Traffic) (p : Visit → Bool) : Nat :=
  ((T.visits.filter fun v => v.relay.pumping && p v).map T.queuedBytes).sum

/-- The visits of an account. -/
def ofAccount (T : Traffic) (accountId : String) (v : Visit) : Bool :=
  (T.server.registrations[v.conn]?).any fun reg => reg.accountId = accountId

section

variable {T : Traffic}

/-- A sum over a list leaves out what is zero. -/
private theorem sum_filter {f : Visit → Nat} {p : Visit → Bool} {l : List Visit}
    (zero : ∀ v ∈ l, p v = false → f v = 0) : ((l.filter p).map f).sum = (l.map f).sum := by
  induction l with
  | nil => rfl
  | cons v l ih =>
    have rest := ih fun w member => zero w (List.mem_cons_of_mem v member)
    cases here : p v with
    | true => simp [here, rest]
    | false => simp [here, rest, zero v (by simp) here]

/-- Two selections hold together at most what they hold apart. -/
theorem unread_or (p q : Visit → Bool) :
    T.unread (fun v => p v || q v) ≤ T.unread p + T.unread q := by
  unfold unread
  induction T.visits with
  | nil => rfl
  | cons v visits ih =>
    cases going : v.relay.pumping <;> cases first : p v <;> cases second : q v <;>
      simp [going, first, second] at ih ⊢ <;> omega

theorem unread_congr {p q : Visit → Bool} (same : ∀ v ∈ T.visits, p v = q v) :
    T.unread p = T.unread q := by
  have agree : T.visits.filter (fun v => v.relay.pumping && p v) =
      T.visits.filter fun v => v.relay.pumping && q v :=
    List.filter_congr fun v member => by rw [same v member]
  rw [unread, agree, unread]

/-- Visits that are not the same have not the same stream. -/
private theorem apart (intact : T.Intact Cleared) :
    T.visits.Pairwise fun v w => v.conn = w.conn → v.ref ≠ w.ref := by
  rw [List.pairwise_iff_getElem]
  intro j k first second before conn ref
  have same := intact.distinct j k _ _ (List.getElem?_eq_getElem first)
    (List.getElem?_eq_getElem second) conn ref
  omega

/-- What the pumps of one connection have to read is booked there. -/
theorem unread_conn (intact : T.Intact Cleared) {i : Nat} {reg : TunnelRegistration}
    (found : T.server.registrations[i]? = some reg) :
    (T.unread fun v => v.conn = i : Int) ≤ reg.mux.buffered := by
  have acc := intact.sound.muxes reg (List.mem_of_getElem? found)
  let entry : Visit → Sigma fun _ : StreamId => Nat := fun v => ⟨v.ref.sid, v.ref.gen⟩
  let live : Visit → Bool := fun v => (reg.mux.heap v.ref).any fun s => !s.closed
  let here := T.visits.filter fun v => v.relay.pumping && decide (v.conn = i)
  have serves : ∀ v ∈ here, ∃ s, reg.mux.heap v.ref = some s ∧ Cleared s v ∧
      v.relay.pumping = true ∧ v.conn = i := by
    intro v member
    obtain ⟨member, chosen⟩ := List.mem_filter.mp member
    obtain ⟨pumping, conn⟩ : v.relay.pumping = true ∧ v.conn = i := by simpa using chosen
    obtain ⟨k, at_k⟩ := List.getElem?_of_mem member
    obtain ⟨reg', s, ⟨found', stream⟩, clear⟩ := intact.visits k v at_k
    rw [conn, found] at found'
    cases found'
    exact ⟨s, stream, clear, pumping, conn⟩
  -- a stream that was torn down has nothing queued, a live one is registered
  have zero : ∀ v ∈ here, live v = false → T.queuedBytes v = 0 := by
    intro v member dead
    obtain ⟨s, stream, clear, pumping, conn⟩ := serves v member
    have closed : s.closed = true := by simpa [live, stream] using dead
    simp [queuedBytes, conn, found, stream, Stream.queuedBytes, clear.cleared pumping closed]
  have nodup : ((here.filter live).map entry).Nodup := by
    refine List.pairwise_map.mpr (List.Pairwise.imp_of_mem ?_ (((apart intact).filter _).filter _))
    intro v w first second differ same
    obtain ⟨-, -, -, -, conn⟩ := serves v (List.mem_filter.mp first).1
    obtain ⟨-, -, -, -, conn'⟩ := serves w (List.mem_filter.mp second).1
    refine differ (conn.trans conn'.symm) ?_
    have parts : v.ref.sid = w.ref.sid ∧ v.ref.gen = w.ref.gen := by simpa [entry] using same
    calc v.ref = ⟨v.ref.sid, v.ref.gen⟩ := rfl
      _ = w.ref := by rw [parts.1, parts.2]
  have registered : ∀ e ∈ (here.filter live).map entry, reg.mux.streams.lookup e.1 = some e.2 := by
    intro e member
    obtain ⟨v, inside, rfl⟩ := List.mem_map.mp member
    obtain ⟨inside, alive⟩ := List.mem_filter.mp inside
    obtain ⟨s, stream, -⟩ := serves v inside
    exact (acc.registry v.ref).mpr ⟨s, stream, by simpa [live, stream] using alive⟩
  have booked : ∀ v ∈ here.filter live,
      ((T.queuedBytes v : Nat) : Int) = reg.mux.valueOf Stream.recvBuffered v.ref.sid v.ref.gen := by
    intro v member
    obtain ⟨member, alive⟩ := List.mem_filter.mp member
    obtain ⟨s, stream, -, -, conn⟩ := serves v member
    have counts := ((acc.tallied v.ref s stream).live (by simpa [live, stream] using alive)).1
    simp [queuedBytes, conn, found, stream, Mux.valueOf, counts]
  calc ((T.unread fun v => v.conn = i : Nat) : Int)
      = (((here.filter live).map T.queuedBytes).sum : Nat) := by rw [sum_filter zero]; rfl
    _ = (((here.filter live).map entry).map fun e =>
          reg.mux.valueOf Stream.recvBuffered e.1 e.2).sum := by
        rw [Nat.cast_list_sum, List.map_map, List.map_map]
        exact congrArg List.sum (List.map_congr_left booked)
    _ ≤ reg.mux.streams.sumBy (reg.mux.valueOf Stream.recvBuffered) :=
        AList.sum_le_sumBy (fun sid gen _ => (acc.over_nonneg sid gen).1) nodup registered
    _ = reg.mux.buffered := acc.buffered.symm

/-- What the pumps of an account have to read is booked on its connections. -/
theorem unread_ofAccount (intact : T.Intact Cleared)
    (budgeted : ∀ reg ∈ T.server.registrations, reg.mux.config.budgeted = true)
    (accountId : String) : (T.unread (T.ofAccount accountId) : Int) ≤ T.server.owed accountId := by
  -- over the connections, the last first
  have upTo : ∀ regs, (∃ rest, T.server.registrations = regs ++ rest) →
      (T.unread (fun v => (regs[v.conn]?).any fun reg => reg.accountId = accountId) : Int) ≤
        (regs.map (RelayServer.share accountId)).sum := by
    intro regs
    induction regs using List.reverseRecOn with
    | nil => simp [unread]
    | append_singleton regs reg ih =>
      rintro ⟨rest, split⟩
      have before := ih ⟨reg :: rest, by rw [split, List.append_assoc]; rfl⟩
      have found : T.server.registrations[regs.length]? = some reg := by simp [split]
      have charged : reg.mux.config.budgeted = true := budgeted reg (List.mem_of_getElem? found)
      have here : (T.unread fun v =>
          decide (v.conn = regs.length) && decide (reg.accountId = accountId) : Int) ≤
            RelayServer.share accountId reg := by
        by_cases own : reg.accountId = accountId
        · simpa [own, RelayServer.share, Mux.booked, charged] using unread_conn intact found
        · simp [own, RelayServer.share, unread]
      have parts : ∀ v : Visit, (((regs ++ [reg])[v.conn]?).any fun reg => decide (reg.accountId = accountId)) =
          (((regs[v.conn]?).any fun reg => decide (reg.accountId = accountId)) ||
            (decide (v.conn = regs.length) && decide (reg.accountId = accountId))) := by
        intro v
        rcases lt_trichotomy v.conn regs.length with old | last | past
        · have ne : v.conn ≠ regs.length := by omega
          simp [List.getElem?_append_left old, ne]
        · simp [last]
        · have ne : v.conn ≠ regs.length := by omega
          have absent : (regs ++ [reg])[v.conn]? = none := by simp; omega
          have absent' : regs[v.conn]? = none := by simp; omega
          simp [absent, absent', ne]
      have both := unread_or (T := T)
        (fun v => (regs[v.conn]?).any fun reg => decide (reg.accountId = accountId))
        fun v => decide (v.conn = regs.length) && decide (reg.accountId = accountId)
      rw [unread_congr fun v _ => parts v, List.map_append, List.sum_append]
      simp only [List.map_cons, List.map_nil, List.sum_cons, List.sum_nil]
      omega
  exact upTo T.server.registrations ⟨[], by simp⟩

end

/-! ### The budget of an account -/

/-- The step leaves the `max_buffered_bytes` of the account at `limit`. -/
def keepsBudget (accountId : String) (limit : Nat) (T : Traffic) : Action → Bool
  | .register accountId' _ budget => accountId' ≠ accountId || budget = some (limit : Int)
  | .setBudget i budget =>
    (T.server.registrations[i]?).all fun reg =>
      reg.accountId ≠ accountId || budget = some (limit : Int)
  | _ => true

end Traffic

/-- The account is charged on every connection, and within its limit. -/
structure RelayServer.Within (accountId : String) (limit : Nat) (server : RelayServer) : Prop where
  budgeted : ∀ reg ∈ server.registrations, reg.mux.config.budgeted = true
  limited : ∀ reg ∈ server.registrations, reg.accountId = accountId →
    reg.maxBufferedBytes = some (limit : Int)
  booked : server.accountBuffered accountId ≤ limit

theorem RelayServer.Within.act {accountId : String} {limit : Nat} {server server' : RelayServer}
    (within : server.Within accountId limit) (sound : server.Sound) {i : Nat} {a : Chute.Action}
    (acted : server.step (.act i a) = some server') : server'.Within accountId limit := by
  obtain ⟨reg, found, acted⟩ := Option.bind_eq_some_iff.mp acted
  obtain ⟨e, stepped, rfl⟩ := Option.map_eq_some_iff.mp acted
  have member := List.mem_of_getElem? found
  have charged := within.budgeted reg member
  have config : e.host.mux.config = reg.mux.config :=
    Host.config_step (h := server.host reg) stepped
  refine ⟨?_, ?_, ?_⟩
  · intro reg' inside
    rcases List.mem_or_eq_of_mem_set inside with old | rfl
    · exact within.budgeted reg' old
    · exact (congrArg Config.budgeted config).trans charged
  · intro reg' inside own
    rcases List.mem_or_eq_of_mem_set inside with old | rfl
    · exact within.limited reg' old own
    · exact within.limited reg member own
  · by_cases own : reg.accountId = accountId
    · have before : (server.host reg).account.buffered ≤ limit := by rw [← own] at within; exact within.booked
      have limited : (server.host reg).account.maxBufferedBytes = some (limit : Int) :=
        within.limited reg member own
      simp only [own, Function.update_self]
      rcases Host.step_booking (h := server.host reg) (sound.muxes reg member) charged limited stepped with
        eased | fits
      · unfold Host.Eases at eased
        omega
      · exact fits
    · simp only [Function.update_of_ne (Ne.symm own)]
      exact within.booked

namespace Traffic

theorem within_step {accountId : String} {limit : Nat} {T T' : Traffic}
    (within : T.server.Within accountId limit) (sound : T.server.Sound) {a : Action}
    (kept : T.keepsBudget accountId limit a = true) (moved : T.step a = some T') :
    T'.server.Within accountId limit := by
  cases a with
  | register accountId' flowWindow budget =>
    cases moved
    refine ⟨?_, ?_, within.booked⟩
    · intro reg inside
      rcases List.mem_append.mp inside with old | fresh
      · exact within.budgeted reg old
      · rw [List.mem_singleton.mp fresh]
        rfl
    · intro reg inside own
      rcases List.mem_append.mp inside with old | fresh
      · exact within.limited reg old own
      · rw [List.mem_singleton.mp fresh] at own ⊢
        simpa [keepsBudget, show accountId' = accountId from own] using kept
  | setBudget i budget =>
    simp only [Traffic.step] at moved
    obtain ⟨server', acted, rfl⟩ := Option.map_eq_some_iff.mp moved
    obtain ⟨reg, found, rfl⟩ := Option.map_eq_some_iff.mp acted
    have member := List.mem_of_getElem? found
    refine ⟨?_, ?_, within.booked⟩
    · intro reg' inside
      rcases List.mem_or_eq_of_mem_set inside with old | rfl
      · exact within.budgeted reg' old
      · exact within.budgeted reg member
    · intro reg' inside own
      rcases List.mem_or_eq_of_mem_set inside with old | rfl
      · exact within.limited reg' old own
      · simpa [keepsBudget, found, show reg.accountId = accountId from own] using kept
  | connection i a =>
    simp only [Traffic.step] at moved
    split at moved
    · obtain ⟨server', acted, rfl⟩ := Option.map_eq_some_iff.mp moved
      exact within.act sound acted
    · cases moved
  | visit i initial canWriteEof watched sent =>
    obtain ⟨reg, found, moved⟩ := Option.bind_eq_some_iff.mp moved
    obtain ⟨⟨server', res⟩, performed, after⟩ := Option.map_eq_some_iff.mp moved
    obtain ⟨-, -, -, -, acted, -, -⟩ := perform_some performed
    have same : T'.server = server' := by
      simp only at after
      split at after <;> exact after ▸ rfl
    rw [same]
    exact within.act sound acted
  | relay k a =>
    obtain ⟨v, here, moved⟩ := Option.bind_eq_some_iff.mp moved
    obtain ⟨reg, found, moved⟩ := Option.bind_eq_some_iff.mp moved
    obtain ⟨turn, took, moved⟩ := Option.bind_eq_some_iff.mp moved
    split at moved
    · cases moved
      exact within
    · obtain ⟨⟨server', res⟩, performed, rfl⟩ := Option.map_eq_some_iff.mp moved
      obtain ⟨-, -, -, -, acted, -, -⟩ := perform_some performed
      exact within.act sound acted

/-- **The budget covers what the live consumers hold.** In every run in which no stream is
torn down while its writer pump has something to read, the bytes in the queues of streams
whose pump has not finished are within the budget of their account, as long as that is
constant, and within the cap of their connection. -/
theorem backlog_of_run {as : List Action}
    (spared : Transition.Along step (fun T a => T.spares a = true) new as) {T : Traffic}
    (ran : Transition.run step new as = some T) :
    (∀ accountId (limit : Nat),
      Transition.Along step (fun T a => T.keepsBudget accountId limit a = true) new as →
        T.unread (T.ofAccount accountId) ≤ limit) ∧
    ∀ i : Nat, T.unread (fun v => v.conn = i) ≤ 64 * 1024 * 1024 := by
  have intact := intact_of_run keeps_cleared spared ran
  refine ⟨fun accountId limit kept => ?_, fun i => ?_⟩
  · have start : (new : Traffic).server.Within accountId limit :=
      ⟨by simp [new, RelayServer.new], by simp [new, RelayServer.new],
        by simp [new, RelayServer.new]⟩
    have stepped : ∀ (S : Traffic) a S', S.Intact Cleared ∧ S.server.Within accountId limit →
        (S.spares a = true ∧ S.keepsBudget accountId limit a = true) → S.step a = some S' →
        S'.Intact Cleared ∧ S'.server.Within accountId limit :=
      fun _ _ _ held allowed moved => ⟨held.1.step keeps_cleared allowed.1 moved,
        within_step held.2 held.1.sound allowed.2 moved⟩
    obtain ⟨-, within⟩ :=
      Transition.run_invariant stepped ⟨intact_new Cleared, start⟩ (spared.and kept) ran
    have booked := within.booked
    rw [intact.sound.account accountId] at booked
    have covered := unread_ofAccount intact within.budgeted accountId
    omega
  · cases found : T.server.registrations[i]? with
    | some reg =>
      have covered := unread_conn intact found
      have capped := (intact.sound.muxes reg (List.mem_of_getElem? found)).buffered_le
      unfold maxConnBuffered at capped
      omega
    | none =>
      -- no visit is on a connection that there is not
      have nobody : T.visits.filter (fun v => v.relay.pumping && decide (v.conn = i)) = [] := by
        refine List.filter_eq_nil_iff.mpr fun v member chosen => ?_
        obtain ⟨k, here⟩ := List.getElem?_of_mem member
        obtain ⟨reg, s, ⟨there, -⟩, -⟩ := intact.visits k v here
        have conn : v.conn = i := by simpa using (Bool.and_eq_true_iff.mp chosen).2
        rw [conn, found] at there
        cases there
      simp [unread, nobody]

/-- A visitor's handler opens a stream, and its pumps are started. -/
def visiting (k : Nat) : List Action :=
  [.visit 0 [71] true false true, .relay k .opened, .relay k .announced,
    .relay k (.throttled true), .relay k (.start true), .relay k (.resume true)]

def sending (sid : StreamId) (type : FrameType) (payload : Bytes) : Action :=
  .connection 0 (.message (.binary (encode type.code sid payload)))

/-- Two visitors of an account that may hold four bytes; one of them reads slowly. -/
def slowReader : List Action :=
  .register "a" .default (some 4) :: visiting 0 ++ visiting 1 ++
    [sending 1 .data [1], .relay 0 (.writer .read), .relay 0 (.writer (.throttled true)),
      sending 1 .data [2, 3, 4]]

theorem backlog_of_slow_reader : ∃ T, Transition.run step new slowReader = some T ∧
    T.unread (T.ofAccount "a") = 3 ∧ T.unread (T.ofAccount "a") ≤ 4 ∧
    T.unread (fun v => v.conn = 0) ≤ 64 * 1024 * 1024 := by
  have seen : (Transition.run step new slowReader).any (fun T => T.unread (T.ofAccount "a") = 3) :=
    by decide +kernel
  obtain ⟨T, ran, three⟩ := Option.any_eq_true _ _ |>.mp seen
  have spared : Transition.Along step (fun T a => T.spares a = true) new slowReader := by
    decide +kernel
  have kept : Transition.Along step (fun T a => T.keepsBudget "a" 4 a = true) new slowReader := by
    decide +kernel
  obtain ⟨account, connection⟩ := backlog_of_run spared ran
  exact ⟨T, ran, by simpa using three, account "a" 4 kept, connection 0⟩

/-- Then the agent resets the slow visitor's stream, and sends to the other one. -/
def resetWhileWaiting : List Action :=
  slowReader ++ [sending 1 .reset [], sending 2 .data [5, 6, 7]]

/-- Six bytes wait for pumps on the budget of four. -/
theorem reset_frees_what_waits : ∃ T, Transition.run step new resetWhileWaiting = some T ∧
    Transition.Along step (fun T a => T.keepsBudget "a" 4 a = true) new resetWhileWaiting ∧
    T.unread (T.ofAccount "a") = 6 ∧
    ∀ v ∈ T.visits, v.relay.phase = .waiting ∧ v.relay.pumping = true := by
  have seen : (Transition.run step new resetWhileWaiting).any (fun T =>
      T.unread (T.ofAccount "a") = 6 ∧
        ∀ v ∈ T.visits, v.relay.phase = .waiting ∧ v.relay.pumping = true) := by
    decide +kernel
  obtain ⟨T, ran, six⟩ := Option.any_eq_true _ _ |>.mp seen
  have kept : Transition.Along step (fun T a => T.keepsBudget "a" 4 a = true) new
      resetWhileWaiting := by
    decide +kernel
  exact ⟨T, ran, kept, by simpa using six⟩

end Traffic

end Chute
