import Chute.Transit.Endings

/-!
# What an owner does next

A call that has the lock of `send` belongs to a coroutine that will go on with it, the end of a
receive direction is in the queue until it is read, and a task closes its stream last. So an owner
that cannot go on waits for credit, for data or for its socket.
-/
namespace Chute

open Transition

namespace Owner

structure Dutiful (o : Owner) (s : Stream) : Prop where
  holder : s.sender ≠ none → o.reader = .sending ∨ o.reader = .ended ∨ o.ending = true
  /-- What was handed to `_mux._send` gets onto the connection. -/
  data : ∀ view ok, s.sender = some (.data view ok) → ok = true
  eof : ∀ ok, s.sender = some (.eof ok) → ok = true ∧ s.sendEnded = true
  finished : o.reader = .done .returned → s.sendDone = true
  hears : o.writer.isDone = false → s.recv ≠ .open_ → none ∈ s.incoming
  left : o.left = true → s.closed = true

variable {o o' : Owner} {s t : Stream} {r : Ref} {h : Host}

/-- What a step that sends nothing on the stream may do to it. -/
structure Passes (s t : Stream) : Prop where
  sender : t.sender = s.sender
  ended : t.sendEnded = s.sendEnded
  closed : s.closed = true → t.closed = true
  hears : (s.recv ≠ .open_ → none ∈ s.incoming) → t.recv ≠ .open_ → none ∈ t.incoming

theorem Passes.refl (s : Stream) : Passes s s := ⟨rfl, rfl, id, id⟩

private theorem passes_endRecv (s : Stream) (terminal : RecvState) : Passes s (s.endRecv terminal) := by
  unfold Stream.endRecv
  split
  · exact ⟨rfl, rfl, id, fun _ _ => by simp⟩
  · exact .refl s

private theorem passes_shut (s : Stream) (terminal : RecvState) : Passes s (s.shut terminal) := by
  have ends := passes_endRecv
    { s with closed := true, windowWaiter := true, recvBuffered := 0, recvFrames := 0 } terminal
  exact ⟨ends.sender, ends.ended, fun _ => s.closed_shut terminal, ends.hears⟩

theorem passes_of_touch {a : Action} {out : List Frame} {res : Result} (touch : h.Touch r s a out res t)
    (other : a.target ≠ some r) : Passes s t := by
  cases touch with
  | pass => exact .refl s
  | shut other terminal past live => exact passes_shut s terminal
  | fed data carries registered accepting =>
    exact ⟨rfl, rfl, id, fun _ past => absurd accepting past⟩
  | overflow => exact passes_endRecv s _
  | ended => exact passes_endRecv s _
  | granted => exact ⟨rfl, rfl, id, id⟩
  | _ => exact absurd rfl other

private theorem sendDone_mono (closed : s.closed = true → t.closed = true)
    (ended : s.sendEnded = true → t.sendEnded = true) (done : s.sendDone = true) : t.sendDone = true := by
  simp only [Stream.sendDone, Bool.or_eq_true] at done ⊢
  rcases done with shut | over_
  · exact .inl (closed shut)
  · exact .inr (ended over_)

/-- Nothing that the owner has to do changes. -/
theorem Dutiful.aside (dutiful : o.Dutiful s) (passes : Passes s t) (reader : o'.reader = o.reader)
    (ending : o'.ending = o.ending) (writer : o'.writer.isDone = false → o.writer.isDone = false)
    (left : o'.left = true → o.left = true ∨ t.closed = true) : o'.Dutiful t where
  holder busy := by
    rw [reader, ending]
    exact dutiful.holder (passes.sender ▸ busy)
  data view ok calls := dutiful.data view ok (passes.sender ▸ calls)
  eof ok calls := by
    obtain ⟨sent, ended⟩ := dutiful.eof ok (passes.sender ▸ calls)
    exact ⟨sent, passes.ended ▸ ended⟩
  finished done := by
    refine sendDone_mono passes.closed (fun ended => passes.ended ▸ ended) (dutiful.finished ?_)
    rw [← reader, done]
  hears running := passes.hears (dutiful.hears (writer running))
  left gone := by
    rcases left gone with before | shut
    · exact passes.closed (dutiful.left before)
    · exact shut

/-- The lock is given back. -/
private theorem Dutiful.free (dutiful : o.Dutiful s) (side : Host.SameSide s t) (free : t.sender = none)
    (finished : o'.reader = .done .returned → t.sendDone = true) (writer : o'.writer = o.writer)
    (left : o'.left = o.left) : o'.Dutiful t where
  holder busy := absurd free busy
  data view ok calls := by
    rw [free] at calls
    cases calls
  eof ok calls := by
    rw [free] at calls
    cases calls
  finished := finished
  hears running past := by
    rw [side.1]
    exact dutiful.hears (writer ▸ running) (side.2.1 ▸ past)
  left gone := by
    rw [side.2.2]
    exact dutiful.left (left ▸ gone)

/-- The lock is with a call. -/
private theorem Dutiful.busy (dutiful : o.Dutiful s) (side : Host.SameSide s t)
    (holder : o'.reader = .sending ∨ o'.reader = .ended ∨ o'.ending = true)
    (data : ∀ view ok, t.sender = some (.data view ok) → ok = true)
    (eof : ∀ ok, t.sender = some (.eof ok) → ok = true ∧ t.sendEnded = true)
    (finished : o'.reader = .done .returned → t.sendDone = true) (writer : o'.writer = o.writer)
    (left : o'.left = o.left) : o'.Dutiful t where
  holder _ := holder
  data := data
  eof := eof
  finished := finished
  hears running past := by
    rw [side.1]
    exact dutiful.hears (writer ▸ running) (side.2.1 ▸ past)
  left gone := by
    rw [side.2.2]
    exact dutiful.left (left ▸ gone)

/-- A segment of `send`. -/
private theorem Dutiful.sends (dutiful : o.Dutiful s) {view : Bytes} {out : Stream × Option Bytes × Result}
    (sends : Stream.Sends s view true out) {k : Socket} :
    { o with socket := k, reader := ReaderPump.afterSend out.2.2 }.Dutiful out.1 := by
  obtain ⟨incoming, recv, -, -, -, ended, closed⟩ := sends.frame
  have side : Host.SameSide s out.1 := ⟨incoming, recv, closed⟩
  cases sends with
  | returns => exact dutiful.free side rfl (by simp [ReaderPump.afterSend]) rfl rfl
  | raises => exact dutiful.free side rfl (by simp [ReaderPump.afterSend]) rfl rfl
  | parks =>
    exact dutiful.busy side (.inl rfl) (by simp) (by simp) (by simp [ReaderPump.afterSend]) rfl rfl
  | emits =>
    refine dutiful.busy side (.inl rfl) ?_ (by simp) (by simp [ReaderPump.afterSend]) rfl rfl
    intro rest ok calls
    cases calls
    rfl

/-- The call that has the lock is over. -/
private theorem Dutiful.gives (dutiful : o.Dutiful s) {k : Socket} {how : Outcome} (failed : how ≠ .returned)
    (same : t = { s with sender := none }) : { o with socket := k, reader := .done how }.Dutiful t := by
  subst same
  refine dutiful.free ⟨rfl, rfl, rfl⟩ rfl ?_ rfl rfl
  intro done
  cases done
  exact absurd rfl failed

/-- A turn of the reader pump that calls nothing. -/
private theorem Dutiful.silent (dutiful : o.Dutiful s) {k : Socket} {pump : ReaderPump}
    (running : o.reader ≠ .sending ∧ o.reader ≠ .ended) (unfinished : pump ≠ .done .returned) :
    { o with socket := k, reader := pump }.Dutiful s where
  holder busy := by
    rcases dutiful.holder busy with sending | ended | ending
    · exact absurd sending running.1
    · exact absurd ended running.2
    · exact .inr (.inr ending)
  data := dutiful.data
  eof := dutiful.eof
  finished done := absurd done unfinished
  hears := dutiful.hears
  left := dutiful.left

/-- **A turn of the reader pump.** -/
private theorem Dutiful.reader (dutiful : o.Dutiful s) {l l' : Ledger} (fine : o.Fine s.sender l) {throttle : Bool}
    {a : ReaderPump.Action} {u : Turn (Socket × ReaderPump)} (took : o.reader.turn r throttle o.socket a = some u)
    (sent : u.call.all Action.lossless = true) {res : Result} (ran : Ran h r s l u.call res t l') :
    { o with socket := (u.next res).1, reader := (u.next res).2 }.Dutiful t := by
  have locks := fine.locks
  generalize state : o.reader = pump at took locks
  unfold ReaderPump.turn at took
  split at took
  next =>
    -- `reader.read`: no call of the stream
    have running : o.reader ≠ .sending ∧ o.reader ≠ .ended := by simp [state]
    split at took
    · cases took
      obtain ⟨rfl, -⟩ := ran
      exact dutiful.silent running (by simp [Turn.quiet])
    · split at took
      · cases took
        obtain ⟨rfl, -⟩ := ran
        refine dutiful.silent running ?_
        simp only [Turn.quiet]
        split
        · simp
        · simp
      · split at took
        · cases took
          obtain ⟨rfl, -⟩ := ran
          exact dutiful.silent running (by simp [Turn.quiet])
        · cases took
  next data ok =>
    -- the throttle
    cases took
    obtain ⟨rfl, -⟩ := ran
    refine dutiful.silent (by simp [state]) ?_
    simp only [Turn.quiet]
    split
    · simp
    · simp
  next data ok =>
    -- `send` gets the lock, and gives it back at once or keeps it for the next segment
    cases took
    obtain ⟨⟨out, touch⟩, -⟩ := ran
    simp only [Option.all_some, Action.lossless] at sent
    subst sent
    cases touch with
    | refused _ _ free =>
      exact dutiful.free ⟨rfl, rfl, rfl⟩ free (by simp [ReaderPump.afterSend]) rfl rfl
    | started _ _ o' free going sends => exact dutiful.sends sends
    | pass other => exact absurd rfl other
    | shut other => exact absurd rfl other
  next ok =>
    -- the next segment of `send`; the lock is not with a `send_eof`
    cases took
    obtain ⟨⟨out, touch⟩, -⟩ := ran
    simp only [Option.all_some, Action.lossless] at sent
    subst sent
    cases touch with
    | resumed view _ o' busy sends => exact dutiful.sends sends
    | eofSent _ busy =>
      rw [busy] at locks
      cases locks
    | pass other => exact absurd rfl other
    | shut other => exact absurd rfl other
  next =>
    -- no credit for too long
    cases took
    obtain ⟨⟨out, touch⟩, -⟩ := ran
    cases touch with
    | timedOut => exact dutiful.gives (by simp) rfl
    | pass other => exact absurd rfl other
    | shut other => exact absurd rfl other
  next =>
    cases took
    obtain ⟨⟨out, touch⟩, -⟩ := ran
    cases touch with
    | raised => exact dutiful.gives (by simp) rfl
    | pass other => exact absurd rfl other
    | shut other => exact absurd rfl other
  next ok =>
    cases took
    obtain ⟨⟨out, touch⟩, -⟩ := ran
    simp only [Option.all_some, Action.lossless] at sent
    subst sent
    cases touch with
    | eofLate _ free done =>
      -- the direction was over before
      exact dutiful.free ⟨rfl, rfl, rfl⟩ free (fun _ => done) rfl rfl
    | eof _ free going =>
      refine dutiful.busy ⟨rfl, rfl, rfl⟩ (.inr (.inl rfl)) (by simp) ?_ (by simp [ReaderPump.afterEof]) rfl rfl
      intro ok calls
      cases calls
      exact ⟨rfl, rfl⟩
    | pass other => exact absurd rfl other
    | shut other => exact absurd rfl other
  next ok =>
    cases took
    obtain ⟨⟨out, touch⟩, -⟩ := ran
    cases touch with
    | resumed view _ o' busy sends =>
      rcases busy with ⟨busy, -⟩ | busy
      · rw [busy] at locks
        cases locks
      · rw [busy] at locks
        cases locks
    | eofSent _ busy =>
      -- `_send_ended` was set with the EOF frame
      obtain ⟨-, ended⟩ := dutiful.eof _ busy
      refine dutiful.free ⟨rfl, rfl, rfl⟩ rfl (fun _ => ?_) rfl rfl
      simp [Stream.sendDone, ended]
    | pass other => exact absurd rfl other
    | shut other => exact absurd rfl other
  next =>
    cases took
    obtain ⟨⟨out, touch⟩, -⟩ := ran
    cases touch with
    | raised => exact dutiful.gives (by simp) rfl
    | pass other => exact absurd rfl other
    | shut other => exact absurd rfl other
  next =>
    cases took
    obtain ⟨⟨out, touch⟩, -⟩ := ran
    cases touch with
    | raised => exact dutiful.gives (by simp) rfl
    | pass other => exact absurd rfl other
    | shut other => exact absurd rfl other
  next =>
    cases took
    obtain ⟨⟨out, touch⟩, -⟩ := ran
    cases touch with
    | raised => exact dutiful.gives (by simp) rfl
    | pass other => exact absurd rfl other
    | shut other => exact absurd rfl other
  next => cases took
  next sending ended _ =>
    -- a cancelled pump that has no lock
    cases took
    obtain ⟨rfl, -⟩ := ran
    refine dutiful.silent ?_ (by simp [Turn.quiet])
    rw [state]
    exact ⟨sending, ended⟩
  next => cases took

/-- **A turn of the writer pump.** -/
private theorem Dutiful.writer (dutiful : o.Dutiful s) {throttle reset : Bool} {a : WriterPump.Action}
    {u : Turn (Socket × WriterPump)} (took : o.writer.turn r throttle reset o.socket a = some u) {res : Result}
    {l l' : Ledger} (ran : Ran h r s l u.call res t l') :
    { o with socket := (u.next res).1, writer := (u.next res).2 }.Dutiful t := by
  have running := WriterPump.turn_running took
  have kept : ∀ (k : Socket) (pump : WriterPump), { o with socket := k, writer := pump }.Dutiful s := by
    intro k pump
    exact dutiful.aside (.refl s) rfl rfl (fun _ => running) .inl
  unfold WriterPump.turn at took
  split at took
  next =>
    cases took
    obtain ⟨⟨out, touch⟩, -⟩ := ran
    -- the end of the direction stays behind the chunk that is read
    have chunk : ∀ (c : Bytes) (k : Socket) (pump : WriterPump) (u : Stream), s.incoming = some c :: u.incoming →
        u.recv = s.recv → u.closed = s.closed → u.sender = s.sender → u.sendEnded = s.sendEnded →
        { o with socket := k, writer := pump }.Dutiful u := by
      intro c k pump u first recv closed sender ended
      have passes : Passes s u := by
        refine ⟨sender, ended, fun shut => closed ▸ shut, fun hears past => ?_⟩
        have inside := hears (recv ▸ past)
        rw [first] at inside
        simpa using inside
      exact dutiful.aside passes rfl rfl (fun _ => running) .inl
    cases touch with
    | readEnd tail first =>
      -- the pump has heard the end, and is done
      refine ⟨dutiful.holder, dutiful.data, dutiful.eof, dutiful.finished, ?_, dutiful.left⟩
      intro still
      cases still
    | readLate c tail first => exact chunk c _ _ _ first rfl rfl rfl rfl
    | read c tail first => exact chunk c _ _ _ first rfl rfl rfl rfl
    | pass other => exact absurd rfl other
    | shut other => exact absurd rfl other
  next =>
    cases took
    obtain ⟨rfl, -⟩ := ran
    exact kept _ _
  next =>
    cases took
    obtain ⟨⟨out, touch⟩, -⟩ := ran
    cases touch with
    | ackVoid => exact kept _ _
    | ackKept => exact dutiful.aside ⟨rfl, rfl, id, id⟩ rfl rfl (fun _ => running) .inl
    | ackFlush => exact dutiful.aside ⟨rfl, rfl, id, id⟩ rfl rfl (fun _ => running) .inl
    | pass other => exact absurd rfl other
    | shut other => exact absurd rfl other
  next =>
    cases took
    obtain ⟨rfl, -⟩ := ran
    exact kept _ _
  next =>
    cases took
    obtain ⟨rfl, -⟩ := ran
    exact kept _ _
  next =>
    cases took
    obtain ⟨rfl, -⟩ := ran
    exact kept _ _
  next =>
    cases took
    obtain ⟨rfl, -⟩ := ran
    exact kept _ _
  next => cases took

/-- The `send_eof` of the task. -/
private theorem Dutiful.task (dutiful : o.Dutiful s) {l l' : Ledger} (fine : o.Fine s.sender l) {c : Action}
    {res : Result} {ending : Bool}
    (calls : (∃ sent, c = .sendEof r sent) ∧ ending = (res == .suspended) ∨
      o.ending = true ∧ ((∃ sent, c = .sendResume r sent) ∧ ending = (res == .suspended) ∨
        c = .sendRaise r ∧ ending = false))
    (sent : c.lossless = true) (ran : Ran h r s l (some c) res t l') : { o with ending := ending }.Dutiful t := by
  obtain ⟨⟨out, touch⟩, -⟩ := ran
  have finished : ∀ {u : Stream}, (s.closed = true → u.closed = true) → (s.sendEnded = true → u.sendEnded = true) →
      o.reader = .done .returned → u.sendDone = true :=
    fun closed ended done => sendDone_mono closed ended (dutiful.finished done)
  rcases calls with ⟨⟨ok, rfl⟩, rfl⟩ | ⟨busy, ⟨⟨ok, rfl⟩, rfl⟩ | ⟨rfl, rfl⟩⟩
  · simp only [Action.lossless] at sent
    subst sent
    cases touch with
    | eofLate _ free done => exact dutiful.free ⟨rfl, rfl, rfl⟩ free (finished id id) rfl rfl
    | eof _ free going =>
      refine dutiful.busy ⟨rfl, rfl, rfl⟩ (.inr (.inr rfl)) (by simp) ?_ (finished id fun _ => rfl) rfl rfl
      intro ok calls
      cases calls
      exact ⟨rfl, rfl⟩
    | pass other => exact absurd rfl other
    | shut other => exact absurd rfl other
  · -- the lock is with the task's own `send_eof`
    obtain ⟨ends, -⟩ := fine.ending busy
    cases touch with
    | resumed view _ o' holds =>
      rcases holds with ⟨holds, -⟩ | holds
      · rw [holds] at ends
        cases ends
      · rw [holds] at ends
        cases ends
    | eofSent => exact dutiful.free ⟨rfl, rfl, rfl⟩ rfl (finished id id) rfl rfl
    | pass other => exact absurd rfl other
    | shut other => exact absurd rfl other
  · cases touch with
    | raised => exact dutiful.free ⟨rfl, rfl, rfl⟩ rfl (finished id id) rfl rfl
    | pass other => exact absurd rfl other
    | shut other => exact absurd rfl other

/-- The pump forgets how it ended. -/
private theorem Dutiful.forget (dutiful : o.Dutiful s) (over_ : o.reader.isDone = true) :
    { o with reader := .done .raised }.Dutiful s where
  holder busy := by
    rcases dutiful.holder busy with sending | ended | ending
    · rw [sending] at over_
      cases over_
    · rw [ended] at over_
      cases over_
    · exact .inr (.inr ending)
  data := dutiful.data
  eof := dutiful.eof
  finished done := by cases done
  hears := dutiful.hears
  left := dutiful.left

/-- **Every move of an owner does its duty.** -/
theorem Dutiful.moves (dutiful : o.Dutiful s) {l l' : Ledger} (fine : o.Fine s.sender l) {m : Mux}
    {call : Option Action} {res : Result} (moves : o.Moves m r call res o')
    (sent : call.all Action.lossless = true) (ran : Ran h r s l call res t l')
    (closes : call = some (.close r) ∨ call = some (.openRaise r) → t.closed = true) : o'.Dutiful t := by
  have plain : ∀ {a : Action} {p : Owner}, a.target ≠ some r → Ran h r s l (some a) res t l' →
      p.reader = o.reader → p.ending = o.ending → p.writer = o.writer →
      (p.left = true → o.left = true ∨ t.closed = true) → p.Dutiful t := by
    intro a p other ran reader ending writer left
    obtain ⟨⟨out, touch⟩, -⟩ := ran
    exact dutiful.aside (passes_of_touch touch other) reader ending (fun running => writer ▸ running) left
  cases moves with
  | quiet =>
    obtain ⟨rfl, -⟩ := ran
    exact dutiful
  | socket e k event =>
    obtain ⟨rfl, -⟩ := ran
    exact dutiful.aside (.refl _) rfl rfl id .inl
  | reader throttle a u took => exact dutiful.reader fine took sent ran
  | stops throttle a u took res ends => exact (dutiful.reader fine took sent ran).forget ends
  | writer throttle a u here took => exact dutiful.writer took ran
  | endStart ok idle cuts over_ => exact dutiful.task fine (.inl ⟨⟨ok, rfl⟩, rfl⟩) sent ran
  | endResume ok busy => exact dutiful.task fine (.inr ⟨busy, .inl ⟨⟨ok, rfl⟩, rfl⟩⟩) sent ran
  | endRaise busy => exact dutiful.task fine (.inr ⟨busy, .inr ⟨rfl, rfl⟩⟩) sent ran
  | openReturn => exact plain (by simp [Action.target]) ran rfl rfl rfl .inl
  | openRaise => exact plain (by simp [Action.target]) ran rfl rfl rfl fun _ => .inr (closes (.inr rfl))
  | reset => exact plain (by simp [Action.target]) ran rfl rfl rfl .inl
  | close here done => exact plain (by simp [Action.target]) ran rfl rfl rfl fun _ => .inr (closes (.inl rfl))
  | leave => exact plain (by simp [Action.target]) ran rfl rfl rfl fun _ => .inr (closes (.inl rfl))

theorem dutiful_of_fresh (fresh : o.Fresh) (c : Config) : o.Dutiful (Stream.new c) := by
  cases fresh with
  | visit => constructor <;> simp [Stream.new, Relay.owner, Relay.feeder, Relay.new, RelayPhase.gone]
  | handler => constructor <;> simp [Stream.new, Handler.owner, Handler.new]

/-- A writer pump that returned has ended its socket. -/
def Through (o : Owner) : Prop := ∀ dropped, o.writer = .done .returned dropped → o.socket.ended ≠ none

private theorem ended_of_event {k k' : Socket} {e : Socket.Event} (event : k.event e = some k')
    (ended : k.ended ≠ none) : k'.ended ≠ none := by
  have kept : ∀ how, k.ended.or (some how) ≠ none := fun how => by simp
  cases e with
  | arrive data =>
    simp only [Socket.event] at event
    split at event <;> cases event
    exact ended
  | peerEof =>
    simp only [Socket.event] at event
    split at event
    · cases event
    · split at event <;> cases event
      · exact ended
      · exact kept _
  | peerReset =>
    cases event
    exact kept _
  | dropped =>
    simp only [Socket.event] at event
    split at event <;> cases event
    exact ended

theorem Through.moves (through : o.Through) {m : Mux} {call : Option Action} {res : Result}
    (moves : o.Moves m r call res o') : o'.Through := by
  cases moves with
  | socket e k event => exact fun dropped over_ => ended_of_event event (through dropped over_)
  | reader throttle a u took =>
    intro dropped over_
    rw [(ReaderPump.turn_socket took res).2]
    exact through dropped over_
  | stops throttle a u took =>
    intro dropped over_
    rw [(ReaderPump.turn_socket took res).2]
    exact through dropped over_
  | writer throttle a u here took =>
    intro dropped over_
    simp only at over_ ⊢
    have finish : ∀ reset, (o.socket.finish reset).ended ≠ none := by
      intro reset
      unfold Socket.finish
      split
      · simp [Socket.abort]
      · split
        · simp [Socket.writeEof]
        · simp [Socket.close]
    unfold WriterPump.turn at took
    split at took
    next =>
      cases took
      simp only at over_ ⊢
      split at over_
      · split at over_ <;> cases over_
      · exact finish _
      · cases over_
    next =>
      cases took
      simp only [Turn.quiet] at over_
      split at over_ <;> cases over_
    all_goals cases took
    all_goals cases over_
  | close => exact fun _ _ => by simp [Socket.close]
  | quiet | endStart | endResume | endRaise | openReturn | openRaise | reset | leave => exact through

end Owner

/-! ### Runs -/

namespace Pair

variable {p p' : Pair} {x : Side} {r : Ref} {s : Stream}

/-- A stream that its owner does not call. -/
theorem passes_step (acc : (p.mux x).Accounted) (found : (p.mux x).heap r = some s) {b : Pair.Action}
    (moved : p.step b = some p') (other : ∀ env call, b = .act x env call → call.calls r = false) :
    ∃ t, (p'.mux x).heap r = some t ∧ Owner.Passes s t := by
  cases b with
  | act y env call =>
    obtain ⟨e, stepped, -, rfl⟩ := step_act moved
    by_cases same : x = y
    · subst same
      have uncalled := other env call rfl
      obtain ⟨t, after, touch⟩ := Host.step_touch (h := (p.mux x).host env) acc found stepped
      refine ⟨t, by simpa using after, Owner.passes_of_touch touch ?_⟩
      intro own
      cases call <;> simp_all [Chute.Action.calls, Chute.Action.target]
    · exact ⟨s, by simpa [same] using found, .refl s⟩
  | deliver y env =>
    obtain ⟨f, rest, e, -, stepped, rfl⟩ := step_deliver moved
    by_cases same : x = y
    · subst same
      obtain ⟨t, after, touch⟩ := Host.step_touch (h := (p.mux x).host env) acc found stepped
      exact ⟨t, by simpa using after, Owner.passes_of_touch touch (by simp [Chute.Action.target])⟩
    · exact ⟨s, by simpa [same] using found, .refl s⟩

end Pair

namespace Conduit

variable {S : Setup} {c c' : Conduit}

/-- Every owner does its duty. -/
def Diligent (c : Conduit) : Prop :=
  ∀ x r o s, (r, o) ∈ c.owners x → (c.pair.mux x).heap r = some s → o.Dutiful s ∧ o.Through

theorem diligent_start (S : Setup) : (start S).Diligent := by
  intro x r o s owns
  cases x <;> cases owns

/-- A stream that its owner closes is closed. -/
private theorem closed_of_perform {p p' : Pair} {x : Side} {env : Env} {r : Ref} {s t : Stream}
    {call : Option Chute.Action} {res : Result} (acc : (p.mux x).Accounted)
    (found : (p.mux x).heap r = some s) (performed : perform p x env call = some (p', res))
    (after : (p'.mux x).heap r = some t) (closes : call = some (.close r) ∨ call = some (.openRaise r)) :
    t.closed = true := by
  have shut : t = if s.closed then s else s.shut .eof := by
    rcases closes with rfl | rfl
    · obtain ⟨u, after', answers, -⟩ := Pair.answers_of_perform acc found performed
      cases after.symm.trans after'
      exact answers.close (.inl rfl)
    · obtain ⟨u, after', answers, -⟩ := Pair.answers_of_perform acc found performed
      cases after.symm.trans after'
      exact answers.close (.inr rfl)
  rw [shut]
  split
  next closed => exact closed
  next => exact s.closed_shut .eof

theorem Diligent.step (sound : c.Sound S true) (diligent : c.Diligent) {a : Action} (lossless : c.lossless a = true)
    (moved : c.step a = some c') : c'.Diligent := by
  have acc := sound.linked.wired.accounted
  have sound' : c'.Sound S true := Sound.step sound (fun _ => lossless) moved
  intro x r o' t owns found
  cases fate_of_step sound sound' moved owns with
  | idle owned same =>
    rw [same] at found
    exact diligent x r o' t owned found
  | other owned b stepped aside =>
    obtain ⟨s, before, -⟩ := sound.fine owned
    obtain ⟨dutiful, through⟩ := diligent x r o' s owned before
    obtain ⟨t', after, passes⟩ := Pair.passes_step (acc x) before stepped aside
    cases found.symm.trans after
    exact ⟨dutiful.aside passes rfl rfl id .inl, through⟩
  | own o owned env call res moves performed ends sent =>
    obtain ⟨s, before, fine⟩ := sound.fine owned
    obtain ⟨dutiful, through⟩ := diligent x r o s owned before
    obtain ⟨t', after, ran⟩ := Pair.ran_of_perform (acc x) before performed
    cases found.symm.trans after
    exact ⟨dutiful.moves fine moves (sent lossless) ran (closed_of_perform (acc x) before performed found),
      through.moves moves⟩
  | new b stepped unowned fresh =>
    have absent : (c.pair.mux x).heap r = none := by
      cases before : (c.pair.mux x).heap r with
      | none => rfl
      | some s =>
        obtain ⟨o, owned⟩ := sound.owned before
        exact absurd owned (unowned o)
    obtain ⟨cfg, rfl⟩ := Pair.new_of_absent (acc x) absent stepped found
    refine ⟨Owner.dutiful_of_fresh fresh cfg, fun dropped over_ => ?_⟩
    cases fresh with
    | visit => cases over_
    | handler => cases over_

theorem diligent_of_lossless {as : List Action} (all : Along step (fun c a => c.lossless a = true) (start S) as)
    (ran : run step (start S) as = some c) : c.Diligent := by
  have kept : ∀ (c : Conduit) (a : Action) (c' : Conduit), (c.Sound S true ∧ c.Diligent) → c.lossless a = true →
      Conduit.step c a = some c' → (c'.Sound S true ∧ c'.Diligent) := by
    rintro c a c' ⟨sound, diligent⟩ lossless moved
    exact ⟨Sound.step sound (fun _ => lossless) moved, diligent.step sound lossless moved⟩
  exact (run_invariant kept ⟨sound_start S true, diligent_start S⟩ all ran).2

end Conduit

end Chute
