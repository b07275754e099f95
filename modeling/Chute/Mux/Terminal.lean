import Chute.Lib.Transition
import Chute.Mux.Steps

/-!
# The terminal of the receive direction

Demultiplexer, pumps and teardown all end the receive direction of a stream, in any
order. `Reception` follows one stream object through any number of their calls: what
was put into its queue, what `read` returned, and which terminal was asked for first.
-/
namespace Chute

/-- The calls that feed, end or drain the receive direction of a stream object. -/
inductive Call
  | feed (data : Bytes)
  | feedEof
  | abort
  | reset (sent : Bool)
  | resetLocalNow
  | close
  | read
  deriving DecidableEq, Repr

/-- One call on the object `r`, now `s`; `none` while `read` has nothing to take. -/
def Host.call (h : Host) (r : Ref) (s : Stream) : Call → Option Effect
  | .feed data => some ⟨h.feed r s data, [], .returned⟩
  | .feedEof => some ⟨h.setStream r s.feedEof, [], .returned⟩
  | .abort => some ⟨h.closeLocal r .reset, [], .returned⟩
  | .reset sent => some (h.reset r sent)
  | .resetLocalNow => some ⟨(h.resetLocalNow r).1, [], .returned⟩
  | .close => some ⟨h.closeLocal r .eof, [], .returned⟩
  | .read => h.read r s

/-- The terminal a call asks for. -/
def Call.cause (h : Host) (s : Stream) : Call → Option RecvState
  | .feed data => if data ≠ [] ∧ (h.feedLimit s data).1.isSome then some .reset else none
  | .feedEof => some .eof
  | .abort => some .reset
  | .reset _ => some .reset
  | .resetLocalNow => some .reset
  | .close => some .eof
  | .read => none

/-- A connection, and what happened to the receive direction of one of its streams. -/
structure Reception where
  host : Host
  /-- Everything put into `_incoming` so far. -/
  enqueued : List (Option Bytes)
  /-- What `read` returned so far. -/
  taken : List (Option Bytes)
  /-- The terminal that was asked for first. -/
  cause : Option RecvState

namespace Reception

/-- A call on the stream, or anything that leaves its receive direction alone. -/
inductive Action
  | call (c : Call)
  | elsewhere (h : Host)

/-- What of a stream object the receive direction consists of. -/
def side (s : Stream) : List (Option Bytes) × RecvState × Bool := (s.incoming, s.recv, s.closed)

def start (h : Host) : Reception := ⟨h, [], [], none⟩

/-- Note what a call took from the queue or appended to it. -/
def note (b : Reception) (c : Call) (s t : Stream) (e : Effect) : Reception :=
  match e.result with
  | .chunk x => { b with host := e.host, taken := b.taken ++ [x] }
  | _ =>
    { b with
      host := e.host
      enqueued := b.enqueued ++ t.incoming.drop s.incoming.length
      cause := b.cause <|> c.cause b.host s }

def step (r : Ref) (b : Reception) : Action → Option Reception
  | .call c =>
    (b.host.mux.heap r).bind fun s =>
      (b.host.call r s c).bind fun e => (e.host.mux.heap r).map fun t => b.note c s t e
  | .elsewhere h =>
    if (h.mux.heap r).map side = (b.host.mux.heap r).map side then some { b with host := h }
    else none

end Reception

/-! ### What one call does to the queue -/

/-- The outcomes of a call that asks for the terminal `c`, seen from the queue. -/
inductive Receipt (c : Option RecvState) (s t : Stream) (res : Result) : Prop
  | kept (plain : ∀ x, res ≠ .chunk x) (queue : t.incoming = s.incoming)
      (recv : t.recv = s.recv) (void : s.recv = .open_ → c = none)
  | put (plain : ∀ x, res ≠ .chunk x) (data : Bytes)
      (queue : t.incoming = s.incoming ++ [some data]) (accepting : s.recv = .open_)
      (recv : t.recv = s.recv) (void : c = none)
  | ended (plain : ∀ x, res ≠ .chunk x) (queue : t.incoming = s.incoming ++ [none])
      (accepting : s.recv = .open_) (recv : t.recv ≠ .open_) (why : c = some t.recv)
  | took (x : Option Bytes) (result : res = .chunk x) (queue : s.incoming = x :: t.incoming)
      (recv : t.recv = s.recv) (void : c = none)

namespace Stream

theorem incoming_endRecv (s : Stream) (t : RecvState) :
    (s.endRecv t).incoming = if s.recv = .open_ then s.incoming ++ [none] else s.incoming := by
  unfold endRecv
  split <;> rfl

theorem incoming_shut (s : Stream) (t : RecvState) :
    (s.shut t).incoming = if s.recv = .open_ then s.incoming ++ [none] else s.incoming := by
  rw [shut, incoming_endRecv]

end Stream

section

variable {h : Host} {r : Ref} {s t : Stream}

/-- Ending the receive direction, whether through `_end_recv` or `_close_local`. -/
theorem receipt_of_end {terminal : RecvState} (past : terminal ≠ .open_)
    (queue : t.incoming = if s.recv = .open_ then s.incoming ++ [none] else s.incoming)
    (recv : t.recv = if s.recv = .open_ then terminal else s.recv) {o : Result}
    (plain : ∀ x, o ≠ .chunk x) : Receipt (some terminal) s t o := by
  by_cases accepting : s.recv = .open_
  · rw [if_pos accepting] at queue recv
    exact .ended plain queue accepting (recv ▸ past) (by rw [recv])
  · rw [if_neg accepting] at queue recv
    exact .kept plain queue recv fun open_ => absurd open_ accepting

theorem receipt_of_close (terminal : RecvState) (past : terminal ≠ .open_)
    (found : h.mux.heap r = some s) (shut : s.closed = true → s.recv ≠ .open_)
    {heap : Ref → Option Stream} (same : heap = (h.closeLocal r terminal).mux.heap) {o : Result}
    (plain : ∀ x, o ≠ .chunk x) :
    ∃ t, heap r = some t ∧ Receipt (some terminal) s t o ∧ t.closed = true := by
  rw [same, Host.heap_closeLocal, if_pos rfl, found, Option.map_some]
  cases closed : s.closed with
  | true =>
    refine ⟨s, by simp, .kept plain rfl rfl fun open_ => ?_, closed⟩
    exact absurd open_ (shut closed)
  | false =>
    refine ⟨s.shut terminal, by simp, ?_, by simp⟩
    exact receipt_of_end past (s.incoming_shut terminal) (s.recv_shut terminal) plain

/-- The queue after `_feed`, which may overflow. -/
theorem receipt_feed (found : h.mux.heap r = some s) (data : Bytes) {o : Result}
    (plain : ∀ x, o ≠ .chunk x) :
    ∃ t, (h.feed r s data).mux.heap r = some t ∧
      Receipt ((Call.feed data).cause h s) s t o ∧ t.closed = s.closed := by
  unfold Host.feed
  by_cases accepting : s.recv = .open_
  · rw [if_neg (not_not.mpr accepting)]
    by_cases empty : data = []
    · rw [if_pos empty]
      exact ⟨s, found, .kept plain rfl rfl fun _ => by simp [Call.cause, empty], rfl⟩
    · rw [if_neg empty]
      split
      next why h' limited =>
        -- the overflow marks the lane before the spawned reset runs
        have cause : (Call.feed data).cause h s = some .reset := by
          simp [Call.cause, empty, limited]
        refine ⟨s.endRecv .reset, by simp [Mux.spawn], ?_, by simp⟩
        rw [cause]
        exact receipt_of_end (by decide) (s.incoming_endRecv .reset) (s.recv_endRecv .reset) plain
      next h' passed =>
        have cause : (Call.feed data).cause h s = none := by
          simp [Call.cause, passed]
        refine ⟨_, Mux.heap_setStream_self _ r _, ?_, rfl⟩
        exact .put plain data rfl accepting rfl cause
  · rw [if_pos accepting]
    exact ⟨s, found, .kept plain rfl rfl fun open_ => absurd open_ accepting, rfl⟩

theorem receipt_read {e : Effect} (ran : h.read r s = some e) :
    ∃ t, e.host.mux.heap r = some t ∧ Receipt none s t e.result ∧ t.closed = s.closed := by
  unfold Host.read at ran
  split at ran
  next empty => cases ran
  next rest queue =>
    cases ran
    exact ⟨_, Mux.heap_setStream_self _ r _, .took none rfl queue rfl rfl, rfl⟩
  next chunk rest queue =>
    split at ran
    next closed =>
      cases ran
      exact ⟨_, Mux.heap_setStream_self _ r _, .took (some chunk) rfl queue rfl rfl, rfl⟩
    next live =>
      cases ran
      refine ⟨{ s with
        incoming := rest
        recvBuffered := s.recvBuffered - chunk.length
        recvFrames := s.recvFrames - 1 }, ?_, .took (some chunk) rfl queue rfl rfl, rfl⟩
      rw [Host.mux_releaseBuffer]
      exact Mux.heap_setStream_self _ r _

theorem plain_reset (h : Host) (r : Ref) (sent : Bool) (x : Option Bytes) :
    (h.reset r sent).result ≠ .chunk x := by
  unfold Host.reset
  split <;> simp

/-- **Every call is described.** -/
theorem call_receipt (found : h.mux.heap r = some s) (shut : s.closed = true → s.recv ≠ .open_)
    {c : Call} {e : Effect} (ran : h.call r s c = some e) :
    ∃ t, e.host.mux.heap r = some t ∧ Receipt (c.cause h s) s t e.result ∧
      (t.closed = true → t.closed = s.closed ∨ c.cause h s ≠ none) := by
  cases c with
  | feed data =>
    cases ran
    obtain ⟨t, after, receipt, closed⟩ := receipt_feed found data (o := .returned) (by simp)
    exact ⟨t, after, receipt, fun _ => Or.inl closed⟩
  | feedEof =>
    cases ran
    refine ⟨s.feedEof, by simp, ?_, fun _ => Or.inl (by simp [Stream.feedEof])⟩
    exact receipt_of_end (by decide) (s.incoming_endRecv .eof) (s.recv_endRecv .eof) (by simp)
  | abort =>
    cases ran
    obtain ⟨t, after, receipt, -⟩ :=
      receipt_of_close .reset (by decide) found shut rfl (o := .returned) (by simp)
    exact ⟨t, after, receipt, fun _ => Or.inr (by simp [Call.cause])⟩
  | reset sent =>
    cases ran
    obtain ⟨t, after, receipt, -⟩ :=
      receipt_of_close .reset (by decide) found shut (Host.heap_reset h r sent) (plain_reset h r sent)
    exact ⟨t, after, receipt, fun _ => Or.inr (by simp [Call.cause])⟩
  | resetLocalNow =>
    cases ran
    obtain ⟨t, after, receipt, -⟩ :=
      receipt_of_close .reset (by decide) found shut (Host.heap_resetLocalNow h r) (o := .returned)
        (by simp)
    exact ⟨t, after, receipt, fun _ => Or.inr (by simp [Call.cause])⟩
  | close =>
    cases ran
    obtain ⟨t, after, receipt, -⟩ :=
      receipt_of_close .eof (by decide) found shut rfl (o := .returned) (by simp)
    exact ⟨t, after, receipt, fun _ => Or.inr (by simp [Call.cause])⟩
  | read =>
    obtain ⟨t, after, receipt, closed⟩ := receipt_read ran
    exact ⟨t, after, receipt, fun _ => Or.inl closed⟩

end

/-! ### Whole histories -/

namespace Reception

/-- What holds of the receive direction of a stream after any history of calls. -/
structure Terminal (b : Reception) (s : Stream) : Prop where
  fifo : b.enqueued = b.taken ++ s.incoming
  accepting : s.recv = .open_ → none ∉ b.enqueued ∧ b.cause = none
  ended : s.recv ≠ .open_ →
    (∃ front, none ∉ front ∧ b.enqueued = front ++ [none]) ∧ b.cause = some s.recv
  shut : s.closed = true → s.recv ≠ .open_

/-- What has been decided at `b` is the same at every later `b'`. -/
structure Settled (b : Reception) (s : Stream) (b' : Reception) (s' : Stream) : Prop where
  grows : b.enqueued <+: b'.enqueued
  recv : s.recv ≠ .open_ → s'.recv = s.recv
  queue : s.recv ≠ .open_ → b'.enqueued = b.enqueued

theorem Settled.refl (b : Reception) (s : Stream) : Settled b s b s :=
  ⟨List.prefix_rfl, fun _ => rfl, fun _ => rfl⟩

theorem Settled.trans {b₁ b₂ b₃ : Reception} {s₁ s₂ s₃ : Stream} (first : Settled b₁ s₁ b₂ s₂)
    (second : Settled b₂ s₂ b₃ s₃) : Settled b₁ s₁ b₃ s₃ := by
  refine ⟨first.grows.trans second.grows, fun past => ?_, fun past => ?_⟩
  · exact (second.recv (first.recv past ▸ past)).trans (first.recv past)
  · exact (second.queue (first.recv past ▸ past)).trans (first.queue past)

variable {r : Ref} {b b' : Reception} {s : Stream}

/-- Nothing of the receive direction changed. -/
theorem Terminal.congr (terminal : b.Terminal s) {t : Stream} (same : side t = side s) (h : Host) :
    ({ b with host := h } : Reception).Terminal t ∧ Settled b s { b with host := h } t := by
  simp only [side, Prod.mk.injEq] at same
  obtain ⟨queue, recv, closed⟩ := same
  refine ⟨⟨by rw [queue]; exact terminal.fifo, ?_, ?_, ?_⟩, ⟨List.prefix_rfl, fun _ => recv, fun _ => rfl⟩⟩
  · rw [recv]; exact terminal.accepting
  · rw [recv]; exact terminal.ended
  · rw [recv, closed]; exact terminal.shut

/-- A call keeps what holds of the history, by what it did to the queue. -/
theorem Terminal.note (terminal : b.Terminal s) {c : Call} {t : Stream} {e : Effect}
    (receipt : Receipt (c.cause b.host s) s t e.result)
    (closing : t.closed = true → t.closed = s.closed ∨ c.cause b.host s ≠ none) :
    (b.note c s t e).Terminal t ∧ Settled b s (b.note c s t e) t := by
  obtain ⟨fifo, accepting, ended, shut⟩ := terminal
  -- a call without a chunk notes what it appended and, if it is the first, its cause
  have plain_note : (∀ x, e.result ≠ .chunk x) → b.note c s t e =
      { b with
        host := e.host
        enqueued := b.enqueued ++ t.incoming.drop s.incoming.length
        cause := b.cause <|> c.cause b.host s } := by
    intro plain
    unfold Reception.note
    split
    next x result => exact absurd result (plain x)
    · rfl
  have shut_after : t.recv = s.recv → (s.recv = .open_ → c.cause b.host s = none) →
      t.closed = true → t.recv ≠ .open_ := by
    intro recv void closed
    rw [recv]
    intro open_
    rcases closing closed with same | asked
    · exact shut (same ▸ closed) open_
    · exact asked (void open_)
  cases receipt with
  | kept plain queue recv void =>
    rw [plain_note plain, queue, List.drop_length, List.append_nil]
    refine ⟨⟨queue ▸ fifo, ?_, ?_, shut_after recv void⟩, ⟨List.prefix_rfl, fun _ => recv, fun _ => rfl⟩⟩
    · rw [recv]
      intro open_
      exact ⟨(accepting open_).1, by simp [(accepting open_).2, void open_]⟩
    · rw [recv]
      intro past
      exact ⟨(ended past).1, by simp [(ended past).2]⟩
  | put plain data queue open_ recv void =>
    rw [plain_note plain, queue, List.drop_left]
    obtain ⟨clean, undecided⟩ := accepting open_
    refine ⟨⟨?_, fun _ => ⟨?_, ?_⟩, fun past => ?_, shut_after recv fun _ => void⟩,
      ⟨List.prefix_append _ _, fun past => ?_, fun past => ?_⟩⟩
    · rw [queue, fifo, List.append_assoc]
    · simp [clean]
    · simp [undecided, void]
    · exact absurd (recv.trans open_) past
    · exact absurd open_ past
    · exact absurd open_ past
  | ended plain queue open_ recv why =>
    rw [plain_note plain, queue, List.drop_left]
    obtain ⟨clean, undecided⟩ := accepting open_
    refine ⟨⟨?_, fun again => ?_, fun _ => ⟨⟨b.enqueued, clean, rfl⟩, ?_⟩, fun _ => recv⟩,
      ⟨List.prefix_append _ _, fun past => ?_, fun past => ?_⟩⟩
    · rw [queue, fifo, List.append_assoc]
    · exact absurd again recv
    · simp [undecided, why]
    · exact absurd open_ past
    · exact absurd open_ past
  | took x result queue recv void =>
    have read_note : b.note c s t e = { b with host := e.host, taken := b.taken ++ [x] } := by
      simp only [Reception.note, result]
    rw [read_note]
    refine ⟨⟨?_, ?_, ?_, shut_after recv fun _ => void⟩, ⟨List.prefix_rfl, fun _ => recv, fun _ => rfl⟩⟩
    · rw [fifo, queue]
      simp
    · rw [recv]; exact accepting
    · rw [recv]; exact ended

/-- One step of a history. -/
theorem Terminal.step (terminal : b.Terminal s) (found : b.host.mux.heap r = some s) {a : Action}
    (moved : b.step r a = some b') :
    ∃ t, b'.host.mux.heap r = some t ∧ b'.Terminal t ∧ Settled b s b' t := by
  cases a with
  | call c =>
    simp only [Reception.step, found, Option.bind_some] at moved
    obtain ⟨e, ran, moved⟩ := Option.bind_eq_some_iff.mp moved
    obtain ⟨t, after, receipt, closing⟩ := call_receipt found terminal.shut ran
    rw [after, Option.map_some] at moved
    cases moved
    have same : (b.note c s t e).host = e.host := by
      unfold Reception.note
      split <;> rfl
    exact ⟨t, same ▸ after, terminal.note receipt closing⟩
  | elsewhere h =>
    simp only [Reception.step] at moved
    split at moved
    next same =>
      cases moved
      rw [found, Option.map_some] at same
      obtain ⟨t, after, alike⟩ := Option.map_eq_some_iff.mp same
      exact ⟨t, after, terminal.congr alike h⟩
    · cases moved

/-- A whole history, from any point of it on. -/
theorem Terminal.run (terminal : b.Terminal s) (found : b.host.mux.heap r = some s)
    {as : List Action} (ran : Transition.run (Reception.step r) b as = some b') :
    ∃ t, b'.host.mux.heap r = some t ∧ b'.Terminal t ∧ Settled b s b' t := by
  induction as generalizing b s with
  | nil =>
    cases ran
    exact ⟨s, found, terminal, .refl _ s⟩
  | cons a as ih =>
    obtain ⟨next, moved, rest⟩ := Transition.run_cons_iff.mp ran
    obtain ⟨t, here, after, settled⟩ := terminal.step found moved
    obtain ⟨u, there, last, settled'⟩ := ih after here rest
    exact ⟨u, there, last, settled.trans settled'⟩

theorem terminal_start (h : Host) (c : Config) : (start h).Terminal (Stream.new c) :=
  ⟨rfl, fun _ => ⟨List.not_mem_nil, rfl⟩, fun past => absurd rfl past, fun closed => by cases closed⟩

/-- **The receive terminal is write-once.** After any history of calls on a new stream
the queue has seen at most one `None`, as its last entry and exactly when the receive
state has left OPEN, and that state is the terminal asked for first; it does not change
in any continuation, so whoever reads the `None` finds `reset_by_peer` to tell the
first cause. -/
theorem terminal_of_run {h : Host} {c : Config} (fresh : h.mux.heap r = some (Stream.new c))
    {as bs : List Action} (ran : Transition.run (step r) (start h) as = some b)
    (more : Transition.run (step r) b bs = some b') :
    ∃ s s', b.host.mux.heap r = some s ∧ b'.host.mux.heap r = some s' ∧
      b.Terminal s ∧ b'.Terminal s' ∧ Settled b s b' s' ∧
      (none ∈ b.taken → b'.cause = b.cause ∧ b.cause = some s.recv ∧
        s'.resetByPeer = decide (b.cause = some .reset)) := by
  obtain ⟨s, here, terminal, -⟩ := (terminal_start h c).run fresh ran
  obtain ⟨s', there, terminal', settled⟩ := terminal.run here more
  refine ⟨s, s', here, there, terminal, terminal', settled, fun told => ?_⟩
  -- a `None` was taken, so one was put, and the lane had left OPEN
  have past : s.recv ≠ .open_ := by
    intro open_
    refine (terminal.accepting open_).1 ?_
    rw [terminal.fifo]
    exact List.mem_append_left _ told
  have same := settled.recv past
  have cause := (terminal.ended past).2
  have cause' := (terminal'.ended (same ▸ past)).2
  refine ⟨by rw [cause', cause, same], cause, ?_⟩
  rw [Stream.resetByPeer, same, cause]
  cases s.recv <;> rfl

/-- A stream object on its own, for the histories below. -/
def lone : Host :=
  ⟨{ Mux.new (.agent .default) with heap := fun _ => some (Stream.new (.agent .default)) }, ⟨0, none⟩⟩

/-- A byte and a clean EOF arrive, then the connection dies; the reader still finds the
EOF. -/
theorem terminal_after_eof : ∃ b s, Transition.run (step ⟨1, 0⟩) (start lone)
    [.call (.feed [7]), .call .feedEof, .call .abort, .call .read, .call .read] = some b ∧
      b.host.mux.heap ⟨1, 0⟩ = some s ∧ b.taken = [some [7], none] ∧ s.resetByPeer = false := by
  obtain ⟨b, ran, seen⟩ := Option.map_eq_some_iff.mp
    (show (Transition.run (step ⟨1, 0⟩) (start lone)
      [.call (.feed [7]), .call .feedEof, .call .abort, .call .read, .call .read]).map
        (fun b => (b.taken, b.cause)) = some ([some [7], none], some .eof) by decide)
  obtain ⟨s, s', here, there, -, -, -, told⟩ := terminal_of_run (c := .agent .default) rfl ran
    (show Transition.run (step ⟨1, 0⟩) b [] = some b from rfl)
  simp only [Prod.mk.injEq] at seen
  refine ⟨b, s', ran, there, seen.1, ?_⟩
  simpa [seen.2] using (told (by simp [seen.1])).2.2

/-! ### The multiplexer's own steps -/

/-- Whatever a step of the multiplexer does to a stream object, its receive direction
sees the outcome of one of the calls, with the result the caller gets. -/
theorem touch_receipt {h : Host} {a : Chute.Action} {out : List Frame} {o : Result} {t : Stream}
    (touch : h.Touch r s a out o t) :
    ∃ c p, Receipt c s t p ∧ (a.target = some r → p = o) := by
  have same : ∀ {t : Stream} {o : Result}, t.incoming = s.incoming → t.recv = s.recv →
      (∀ x, o ≠ .chunk x) → ∃ c p, Receipt c s t p ∧ (a.target = some r → p = o) :=
    fun queue recv plain => ⟨none, _, .kept plain queue recv fun _ => rfl, fun _ => rfl⟩
  cases touch with
  | pass other =>
    exact ⟨none, .returned, .kept (by simp) rfl rfl fun _ => rfl, fun here => absurd here other⟩
  | shut other terminal past live =>
    exact ⟨some terminal, .returned, receipt_of_end past (s.incoming_shut terminal)
      (s.recv_shut terminal) (by simp), fun here => absurd here other⟩
  | fed data carries registered accepting some_data h' admitted =>
    exact ⟨none, .returned, .put (by simp) data rfl accepting rfl rfl, fun here => by cases here⟩
  | overflow data carries registered accepting some_data why refused =>
    exact ⟨some .reset, .returned, receipt_of_end (by decide) (s.incoming_endRecv .reset)
      (s.recv_endRecv .reset) (by simp), fun here => by cases here⟩
  | ended carries registered =>
    exact ⟨some .eof, .returned, receipt_of_end (by decide) (s.incoming_endRecv .eof)
      (s.recv_endRecv .eof) (by simp), fun here => by cases here⟩
  | granted payload delta carries registered four unpacked nonzero =>
    exact ⟨none, .returned, .kept (by simp) rfl rfl fun _ => rfl, fun here => by cases here⟩
  | started data sent o free going sends =>
    obtain ⟨incoming, recv, -⟩ := sends.frame
    refine same incoming recv fun x chunk => ?_
    cases sends <;> cases chunk
  | resumed view sent o busy sends =>
    obtain ⟨incoming, recv, -⟩ := sends.frame
    refine same incoming recv fun x chunk => ?_
    cases sends <;> cases chunk
  | readEnd tail first => exact ⟨none, _, .took none rfl first rfl rfl, fun _ => rfl⟩
  | readLate chunk tail first closed =>
    exact ⟨none, _, .took (some chunk) rfl first rfl rfl, fun _ => rfl⟩
  | read chunk tail first live =>
    exact ⟨none, _, .took (some chunk) rfl first rfl rfl, fun _ => rfl⟩
  | _ => exact same rfl rfl (by simp)

end Reception

end Chute
