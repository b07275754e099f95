import Chute.Mux.Ready
import Chute.Transit.Duty

/-!
# What the tasks of a visitor wait for

A turn is onward when it needs nothing from outside: no visitor, no local app, no clock, no failure.
A pump whose onward turns are all stuck waits for its socket, for credit, or for the other end.
-/
namespace Chute

/-! ### Onward turns -/

/-- The throttle is over, and what is handed to `_mux._send` gets onto the connection. -/
def ReaderPump.onward : List ReaderPump.Action := [.read, .throttled true, .start true, .resume true]

def WriterPump.onward : List WriterPump.Action := [.read, .throttled true, .drained true]

def Relay.onward : List Relay.Action := .wake :: (ReaderPump.onward.map .reader ++ WriterPump.onward.map .writer)

def Handler.onward : List Handler.Action :=
  .wake :: (ReaderPump.onward.map .reader ++ WriterPump.onward.map .writer)

/-- A call that cannot be made now. -/
def Host.Stuck (h : Host) (call : Option Action) : Prop := ∃ c, call = some c ∧ h.step c = none

theorem Host.not_stuck {h : Host} {c : Action} (ready : ∃ e, h.step c = some e) : ¬h.Stuck (some c) := by
  rintro ⟨c', ⟨⟩, none_⟩
  obtain ⟨e, stepped⟩ := ready
  rw [none_] at stepped
  cases stepped

theorem Host.not_stuck_none {h : Host} : ¬h.Stuck none := by
  rintro ⟨c, ⟨⟩, -⟩

/-! ### Pumps -/

/-- The pump waits for its socket, or for credit, or it has ended. -/
inductive ReaderPump.Waits (k : Socket) (s : Stream) : ReaderPump → Prop
  | socket (whole : k.broken = false) (read : k.unread = []) (going : k.atEof = false) : Waits k s .reading
  | credit (view : Bytes) (busy : s.sender = some (.credit view)) (dry : s.windowWaiter = false) :
      Waits k s .sending
  | done (how : Outcome) : Waits k s (.done how)

/-- The pump waits for the other end, or it has ended. -/
inductive WriterPump.Waits (s : Stream) : WriterPump → Prop
  | data (empty : s.incoming = []) : Waits s .reading
  | done (how : Outcome) (dropped : Bytes) : Waits s (.done how dropped)

/-- The lock of `send`, as the coroutines of one owner see it. -/
structure Stream.Locked (s : Stream) (pump : ReaderPump) (ending : Bool) : Prop where
  holder : s.sender ≠ none → pump = .sending ∨ pump = .ended ∨ ending = true
  sends : pump = .sending → s.sender ≠ none
  ends : pump = .ended ∨ ending = true → ∃ ok, s.sender = some (.eof ok)
  data : ∀ view ok, s.sender = some (.data view ok) → ok = true
  eof : ∀ ok, s.sender = some (.eof ok) → ok = true

theorem Owner.locked {o : Owner} {s : Stream} {l : Ledger} (fine : o.Fine s.sender l) (dutiful : o.Dutiful s) :
    s.Locked o.reader o.ending where
  holder := dutiful.holder
  sends sending free := by
    have locks := fine.locks
    rw [sending, free] at locks
    cases locks
  ends busy := by
    have ends : Sender.ends s.sender = true := by
      rcases busy with ended | ending
      · have locks := fine.locks
        rwa [ended] at locks
      · exact (fine.ending ending).1
    cases sender : s.sender with
    | none =>
      rw [sender] at ends
      cases ends
    | some call =>
      rw [sender] at ends
      cases call with
      | eof ok => exact ⟨ok, rfl⟩
      | credit | data => cases ends
  data := dutiful.data
  eof ok calls := (dutiful.eof ok calls).1

/-- Who has the lock without being in `send` has no data left. -/
theorem Stream.Locked.silent {s : Stream} {pump : ReaderPump} {ending : Bool} (locked : s.Locked pump ending)
    (other : pump ≠ .sending) : Sender.view s.sender = none ∧ Sender.doomed s.sender = false := by
  by_cases free : s.sender = none
  · rw [free]
    exact ⟨rfl, rfl⟩
  · have ends : pump = .ended ∨ ending = true := by
      rcases locked.holder free with sending | ends
      · exact absurd sending other
      · exact ends
    obtain ⟨ok, sender⟩ := locked.ends ends
    rw [sender]
    exact ⟨rfl, rfl⟩

section

variable {h : Host} {r : Ref} {s : Stream} {k : Socket} {throttle : Bool}

/-- `send_eof` does not wait for credit. -/
private theorem ready_ended (held : h.mux.held r = some s) {pump : ReaderPump} {ending : Bool}
    (locked : s.Locked pump ending) (ended : pump = .ended ∨ ending = true) :
    ∃ e, h.step (.sendResume r true) = some e := by
  obtain ⟨ok, sender⟩ := locked.ends ended
  exact Host.ready_sendResume held (by simp [sender]) locked.data locked.eof (by simp [sender]) true

theorem ReaderPump.waits_of_stuck (held : h.mux.held r = some s) {pump : ReaderPump}
    (locked : s.Locked pump false) (stuck : ∀ a ∈ onward, ∀ t,
      pump.turn r throttle k a = some t → h.Stuck t.call) : pump.Waits k s := by
  -- with the pump neither in `send` nor in `send_eof` nobody has the lock
  have free : pump ≠ .sending → pump ≠ .ended → s.sender = none := by
    intro sending ended
    by_contra busy
    rcases locked.holder busy with same | same | ending
    · exact sending same
    · exact ended same
    · cases ending
  cases pump with
  | reading =>
    -- `read` returns data, the end of the socket or its exception at once, if there is one
    have blocked := stuck .read (by simp [onward])
    simp only [ReaderPump.turn] at blocked
    by_cases broken : k.broken = true
    · exact absurd (blocked _ (if_pos broken)) Host.not_stuck_none
    · rw [if_neg broken] at blocked
      by_cases unread : k.unread = []
      · rw [if_neg (not_not.mpr unread)] at blocked
        by_cases eof : k.atEof = true
        · exact absurd (blocked _ (if_pos eof)) Host.not_stuck_none
        · exact .socket (by simpa using broken) unread (by simpa using eof)
      · exact absurd (blocked _ (if_pos unread)) Host.not_stuck_none
  | throttling data => exact absurd (stuck (.throttled true) (by simp [onward]) _ rfl) Host.not_stuck_none
  | queued data =>
    have ready := Host.ready_send held (free (by simp) (by simp)) data true
    exact absurd (stuck (.start true) (by simp [onward]) _ rfl) (Host.not_stuck ready)
  | sending =>
    -- a frame that was handed to the connection gets there, so only credit is waited for
    by_cases awake : ∀ view, s.sender = some (.credit view) → s.windowWaiter = true
    · have ready := Host.ready_sendResume held (locked.sends rfl) locked.data locked.eof awake true
      exact absurd (stuck (.resume true) (by simp [onward]) _ rfl) (Host.not_stuck ready)
    · simp only [not_forall] at awake
      obtain ⟨view, credit, dry⟩ := awake
      exact .credit view credit (by simpa using dry)
  | ending =>
    have ready := Host.ready_sendEof held (free (by simp) (by simp)) true
    exact absurd (stuck (.start true) (by simp [onward]) _ rfl) (Host.not_stuck ready)
  | ended =>
    exact absurd (stuck (.resume true) (by simp [onward]) _ rfl) (Host.not_stuck (ready_ended held locked (.inl rfl)))
  | done how => exact .done how

theorem WriterPump.waits_of_stuck (held : h.mux.held r = some s) {reset : Bool} {pump : WriterPump}
    (stuck : ∀ a ∈ onward, ∀ t, pump.turn r throttle reset k a = some t → h.Stuck t.call) :
    pump.Waits s := by
  cases pump with
  | reading =>
    by_cases empty : s.incoming = []
    · exact .data empty
    · exact absurd (stuck .read (by simp [onward]) _ rfl) (Host.not_stuck (Host.ready_read held empty))
  | throttling chunk => exact absurd (stuck (.throttled true) (by simp [onward]) _ rfl) Host.not_stuck_none
  | draining n =>
    exact absurd (stuck (.drained true) (by simp [onward]) _ rfl) (Host.not_stuck (Host.ready_ack held n true))
  | done how dropped => exact .done how dropped

end

/-! ### The relay of a visitor -/

namespace Relay

/-- The pumps are there while the task waits for them. -/
structure Sane (p : Relay) : Prop where
  pumps : p.phase = .waiting ∨ p.phase = .halfClosed → p.reader ≠ none ∧ p.writer ≠ none
  half : p.phase = .halfClosed → p.reader = some (.done .returned)

theorem sane_new (initial : Bytes) (canWriteEof watched : Bool) : (new initial canWriteEof watched).Sane := by
  constructor <;> simp [new]

private theorem sane_go {p : Relay} {phase : RelayPhase} (other : phase ≠ .waiting ∧ phase ≠ .halfClosed) :
    (p.go phase).Sane where
  pumps waits := by
    rcases waits with waits | waits
    · exact absurd waits other.1
    · exact absurd waits other.2
  half waits := absurd waits other.2

private theorem sane_afterInitial (p : Relay) (res : Result) : (p.afterInitial res).Sane := by
  cases res with
  | returned => constructor <;> simp [afterInitial, startPumps]
  | suspended | raised | chunk => exact sane_go (by simp)

private theorem sane_afterEof (p : Relay) (res : Result) : (p.afterEof res).Sane := by
  cases res with
  | returned | suspended | raised | chunk => exact sane_go (by simp)

private theorem sane_wake {p q : Relay} (sane : p.Sane) (woke : p.wake = some q) : q.Sane := by
  unfold wake at woke
  split at woke
  next phase =>
    obtain ⟨-, writes⟩ := sane.pumps (.inl phase)
    -- only the end of the reader pump leaves the task waiting, for the other one
    split at woke
    · cases woke
      exact sane_go (by simp)
    · split at woke
      · cases woke
        exact sane_go (by simp)
      · cases woke
        exact sane_go (by simp)
      next reading _ _ =>
        cases woke
        exact ⟨fun _ => ⟨by simp [go, reading], writes⟩, fun _ => reading⟩
      · cases woke
        exact sane_go (by simp)
      · cases woke
  next phase =>
    repeat' split at woke
    all_goals cases woke
    all_goals exact sane_go (by simp)
  next phase =>
    repeat' split at woke
    all_goals cases woke
    all_goals exact sane_go (by simp)
  · cases woke

theorem sane_of_turn {m : Mux} {r : Ref} {p : Relay} (sane : p.Sane) {a : Relay.Action} {t : Turn Relay}
    (took : p.turn m r a = some t) (res : Result) : (t.next res).Sane := by
  cases a with
  | socket e =>
    simp only [turn] at took
    split at took
    · cases took
    · obtain ⟨k, -, rfl⟩ := Option.map_eq_some_iff.mp took
      exact ⟨sane.pumps, sane.half⟩
  | reader a =>
    simp only [turn] at took
    split at took
    · cases took
    · obtain ⟨pump, running, took⟩ := Option.bind_eq_some_iff.mp took
      obtain ⟨t', took', rfl⟩ := Option.map_eq_some_iff.mp took
      refine ⟨fun waits => ⟨by simp [Turn.map], (sane.pumps waits).2⟩, fun half => ?_⟩
      -- a pump that has ended takes no turn
      cases running.symm.trans (sane.half half)
      cases ReaderPump.turn_running took'
  | writer a =>
    simp only [turn] at took
    split at took
    · cases took
    · obtain ⟨pump, running, took⟩ := Option.bind_eq_some_iff.mp took
      obtain ⟨t', took', rfl⟩ := Option.map_eq_some_iff.mp took
      exact ⟨fun waits => ⟨(sane.pumps waits).1, by simp [Turn.map]⟩, sane.half⟩
  | opened | openFailed | announced | stall | reset =>
    simp only [turn] at took
    split at took
    · cases took
      exact sane_go (by simp)
    · cases took
  | throttled ok =>
    simp only [turn] at took
    split at took
    · cases took
      cases ok with
      | true => exact sane_go (by simp)
      | false => exact sane_go (by simp)
    · cases took
  | start sent | resume sent =>
    simp only [turn] at took
    split at took
    · cases took
      exact sane_afterInitial p res
    · cases took
      exact sane_afterEof p res
    · cases took
  | fail =>
    simp only [turn] at took
    split at took
    · cases took
      exact sane_go (by simp)
    · cases took
      exact sane_go (by simp)
    · cases took
  | idle =>
    simp only [turn] at took
    split at took
    · cases took
      exact ⟨sane.pumps, sane.half⟩
    · cases took
  | wake =>
    obtain ⟨q, woke, rfl⟩ := Option.map_eq_some_iff.mp took
    exact sane_wake sane woke
  | close =>
    simp only [turn] at took
    split at took
    · cases took
      refine ⟨fun waits => ?_, fun half => by cases half⟩
      rcases waits with waits | waits
      · cases waits
      · cases waits
    · cases took
  | cancel =>
    simp only [turn, cancel] at took
    repeat' split at took
    all_goals cases took
    all_goals exact sane_go (by simp)

/-- Where the task goes on waiting, both pumps are there, and none has failed. -/
theorem running_of_wake {p : Relay} (sane : p.Sane) (waits : p.phase = .waiting ∨ p.phase = .halfClosed)
    (still : p.wake = none) : ∃ feed drain, p.reader = some feed ∧ p.writer = some drain ∧ drain.isDone = false ∧
      ∀ how, feed = .done how → how = .returned := by
  obtain ⟨reads, writes⟩ := sane.pumps waits
  obtain ⟨feed, reader⟩ := Option.ne_none_iff_exists'.mp reads
  obtain ⟨drain, writer⟩ := Option.ne_none_iff_exists'.mp writes
  refine ⟨feed, drain, reader, writer, ?_⟩
  rcases waits with phase | phase
  · simp only [wake, phase, writer, reader] at still
    split at still
    · cases still
    · -- `wake` looks at the writer pump first, and then at the reader pump
      repeat' split at still
      all_goals cases still
      constructor
      · cases drain <;> simp_all [WriterPump.isDone]
      · rintro how rfl
        simp_all
  · -- the reader pump has returned, so only the writer pump could wake the task
    have half := sane.half phase
    rw [reader] at half
    cases half
    simp only [wake, phase, writer] at still
    split at still
    · cases still
    · constructor
      · cases drain with
        | done how dropped => cases how <;> cases still
        | _ => rfl
      · rintro how ⟨⟩
        rfl

/-- A pump takes its onward turns as turns of the task. -/
theorem reader_onward {m : Mux} {r : Ref} {p : Relay} {feed : ReaderPump} (running : p.reader = some feed)
    {a : ReaderPump.Action} (member : a ∈ ReaderPump.onward) {t : Turn (Socket × ReaderPump)}
    (took : feed.turn r true p.socket a = some t) :
    .reader a ∈ onward ∧ ∃ u, p.turn m r (.reader a) = some u ∧ u.call = t.call := by
  have other : a ≠ .cancel := by
    rintro rfl
    simp [ReaderPump.onward] at member
  refine ⟨by simp [onward, member], t.map fun out => { p with socket := out.1, reader := some out.2 }, ?_, rfl⟩
  simp only [turn, other, false_and, if_false, running, Option.bind_some, took, Option.map_some]

theorem writer_onward {m : Mux} {r : Ref} {p : Relay} {drain : WriterPump} (running : p.writer = some drain)
    {a : WriterPump.Action} (member : a ∈ WriterPump.onward) {t : Turn (Socket × WriterPump)}
    (took : drain.turn r true ((m.heap r).any Stream.resetByPeer) p.socket a = some t) :
    .writer a ∈ onward ∧ ∃ u, p.turn m r (.writer a) = some u ∧ u.call = t.call := by
  have other : a ≠ .cancel := by
    rintro rfl
    simp [WriterPump.onward] at member
  refine ⟨by simp [onward, member], t.map fun out => { p with socket := out.1, writer := some out.2 }, ?_, rfl⟩
  simp only [turn, other, false_and, if_false, running, Option.bind_some, took, Option.map_some]

/-- A turn is one of `open`, or has nothing to do with it. -/
theorem opens_of_turn {m : Mux} {r : Ref} {p : Relay} (formed : p.Formed) {a : Relay.Action} {t : Turn Relay}
    (took : p.turn m r a = some t) :
    p.phase = .opening ∧ (t.call = some (.openReturn r) ∨ t.call = some (.openRaise r)) ∨
      (∀ call, t.call = some call → call.opens = false) ∧ (p.phase = .opening → ∀ res, (t.next res).phase = .opening) := by
  cases a with
  | socket e =>
    simp only [turn] at took
    split at took
    · cases took
    · obtain ⟨k, -, rfl⟩ := Option.map_eq_some_iff.mp took
      exact .inr ⟨by simp [Turn.quiet], fun opening res => opening⟩
  | reader a =>
    simp only [turn] at took
    split at took
    · cases took
    · obtain ⟨pump, running, took⟩ := Option.bind_eq_some_iff.mp took
      obtain ⟨t', took', rfl⟩ := Option.map_eq_some_iff.mp took
      refine .inr ⟨fun call calls => Action.opens_of_target (ReaderPump.turn_target took' calls).1, fun opening => ?_⟩
      -- there are no pumps yet
      rw [(formed.early (by rw [opening]; rfl)).1] at running
      cases running
  | writer a =>
    simp only [turn] at took
    split at took
    · cases took
    · obtain ⟨pump, running, took⟩ := Option.bind_eq_some_iff.mp took
      obtain ⟨t', took', rfl⟩ := Option.map_eq_some_iff.mp took
      refine .inr ⟨fun call calls => Action.opens_of_target (WriterPump.turn_target took' calls), fun opening => ?_⟩
      rw [(formed.early (by rw [opening]; rfl)).2] at running
      cases running
  | opened =>
    simp only [turn] at took
    split at took
    next opening =>
      cases took
      exact .inl ⟨opening, .inl rfl⟩
    · cases took
  | openFailed =>
    simp only [turn] at took
    split at took
    next opening =>
      cases took
      exact .inl ⟨opening, .inr rfl⟩
    · cases took
  | announced | throttled | stall | reset | close =>
    simp only [turn] at took
    split at took
    next phase =>
      cases took
      exact .inr ⟨by simp [Turn.quiet, Chute.Action.opens], by simp [phase]⟩
    · cases took
  | start | resume | fail =>
    simp only [turn] at took
    split at took
    next phase =>
      cases took
      exact .inr ⟨by simp [Chute.Action.opens], by simp [phase]⟩
    next phase =>
      cases took
      exact .inr ⟨by simp [Chute.Action.opens], by simp [phase]⟩
    · cases took
  | idle =>
    simp only [turn] at took
    split at took
    · cases took
      exact .inr ⟨by simp [Turn.quiet], fun opening res => opening⟩
    · cases took
  | wake =>
    obtain ⟨q, woke, rfl⟩ := Option.map_eq_some_iff.mp took
    refine .inr ⟨by simp [Turn.quiet], fun opening => ?_⟩
    simp [wake, opening] at woke
  | cancel =>
    simp only [turn, cancel] at took
    repeat' split at took
    all_goals cases took
    all_goals exact .inr ⟨by simp [Turn.quiet, Chute.Action.opens], by simp [*]⟩

end Relay

/-! ### The handler of a stream -/

namespace ReaderPump

/-- Only a cancelled pump ends as one. -/
theorem turn_uncancelled {r : Ref} {throttle : Bool} {k : Socket} {pump : ReaderPump} {a : ReaderPump.Action}
    {t : Turn (Socket × ReaderPump)} (took : pump.turn r throttle k a = some t) (other : a ≠ .cancel)
    (res : Result) : (t.next res).2 ≠ .done .cancelled := by
  unfold turn at took
  split at took
  all_goals (repeat' split at took)
  all_goals cases took
  all_goals simp_all [Turn.quiet]
  all_goals cases res <;> simp [afterSend, afterEof]

end ReaderPump

namespace WriterPump

theorem turn_uncancelled {r : Ref} {throttle reset : Bool} {k : Socket} {pump : WriterPump} {a : WriterPump.Action}
    {t : Turn (Socket × WriterPump)} (took : pump.turn r throttle reset k a = some t) (other : a ≠ .cancel)
    (res : Result) (dropped : Bytes) : (t.next res).2 ≠ .done .cancelled dropped := by
  unfold turn at took
  split at took
  all_goals cases took
  all_goals simp_all [Turn.quiet]
  · repeat' split
    all_goals simp
  · split
    all_goals simp

end WriterPump

namespace Handler

/-- In the task group there are both pumps, and nobody has cancelled them. -/
structure Sane (p : Handler) : Prop where
  pumps : p.phase = .pumping → p.socket ≠ none ∧ p.reader ≠ none ∧ p.writer ≠ none
  reader : p.phase = .pumping → p.reader ≠ some (.done .cancelled)
  writer : p.phase = .pumping → ∀ dropped, p.writer ≠ some (.done .cancelled dropped)

theorem sane_new : new.Sane := by
  constructor <;> simp [new]

private theorem sane_elsewhere {p : Handler} (other : p.phase ≠ .pumping) : p.Sane :=
  ⟨fun here => absurd here other, fun here => absurd here other, fun here => absurd here other⟩

theorem sane_of_turn {m : Mux} {r : Ref} {p : Handler} (sane : p.Sane) {a : Handler.Action} {t : Turn Handler}
    (took : p.turn m r a = some t) (res : Result) : (t.next res).Sane := by
  cases a with
  | connected =>
    simp only [turn] at took
    split at took
    · cases took
      constructor <;> simp [Turn.quiet, connect]
    · cases took
  | unreachable | failed =>
    simp only [turn] at took
    split at took
    · cases took
      exact sane_elsewhere (by simp [Turn.quiet, go])
    · cases took
  | socket e =>
    simp only [turn] at took
    split at took
    · cases took
    · obtain ⟨k, -, took⟩ := Option.bind_eq_some_iff.mp took
      obtain ⟨k', -, rfl⟩ := Option.map_eq_some_iff.mp took
      exact ⟨fun here => ⟨by simp [Turn.quiet], (sane.pumps here).2⟩, sane.reader, sane.writer⟩
  | reader a =>
    simp only [turn] at took
    split at took
    · cases took
    next allowed =>
      obtain ⟨k, -, took⟩ := Option.bind_eq_some_iff.mp took
      obtain ⟨pump, -, took⟩ := Option.bind_eq_some_iff.mp took
      obtain ⟨t', took', rfl⟩ := Option.map_eq_some_iff.mp took
      refine ⟨fun here => ⟨by simp [Turn.map], by simp [Turn.map], (sane.pumps here).2.2⟩, fun here => ?_, sane.writer⟩
      have other : a ≠ .cancel := fun cancels => allowed ⟨cancels, by rw [show p.phase = .pumping from here]; simp⟩
      have ends := ReaderPump.turn_uncancelled took' other res
      simpa [Turn.map] using ends
  | writer a =>
    simp only [turn] at took
    split at took
    · cases took
    next allowed =>
      obtain ⟨k, -, took⟩ := Option.bind_eq_some_iff.mp took
      obtain ⟨pump, -, took⟩ := Option.bind_eq_some_iff.mp took
      obtain ⟨t', took', rfl⟩ := Option.map_eq_some_iff.mp took
      refine ⟨fun here => ⟨by simp [Turn.map], (sane.pumps here).2.1, by simp [Turn.map]⟩, sane.reader, fun here => ?_⟩
      have other : a ≠ .cancel := fun cancels => allowed ⟨cancels, by rw [show p.phase = .pumping from here]; simp⟩
      intro dropped
      have ends := WriterPump.turn_uncancelled took' other res dropped
      simpa [Turn.map] using ends
  | wake =>
    obtain ⟨q, woke, rfl⟩ := Option.map_eq_some_iff.mp took
    unfold wake at woke
    repeat' split at woke
    all_goals cases woke
    all_goals exact sane_elsewhere (by simp [Turn.quiet, go])
  | reset sent =>
    simp only [turn] at took
    split at took
    · cases took
      exact sane_elsewhere (by simp [go])
    · cases took
  | close =>
    simp only [turn] at took
    split at took
    · cases took
      exact sane_elsewhere (by simp [go])
    · cases took
  | cancel =>
    obtain ⟨q, cancelled, rfl⟩ := Option.map_eq_some_iff.mp took
    unfold cancel at cancelled
    split at cancelled
    all_goals cases cancelled
    all_goals exact sane_elsewhere (by simp [Turn.quiet, go])

/-- Where the task group goes on, both pumps are there, and none has failed. -/
theorem running_of_wake {p : Handler} (sane : p.Sane) (pumping : p.phase = .pumping) (still : p.wake = none) :
    ∃ app feed drain, p.socket = some app ∧ p.reader = some feed ∧ p.writer = some drain ∧ drain.broke = false ∧
      ∀ how, feed = .done how → how = .returned := by
  obtain ⟨connected, reads, writes⟩ := sane.pumps pumping
  obtain ⟨app, socket⟩ := Option.ne_none_iff_exists'.mp connected
  obtain ⟨feed, reader⟩ := Option.ne_none_iff_exists'.mp reads
  obtain ⟨drain, writer⟩ := Option.ne_none_iff_exists'.mp writes
  have whole : p.broken = false := by
    simp only [wake, pumping] at still
    repeat' split at still
    all_goals simp_all
  have read := sane.reader pumping
  have written := sane.writer pumping
  simp only [broken, reader, writer, Option.any_some, Bool.or_eq_false_iff] at whole
  rw [reader] at read
  rw [writer] at written
  refine ⟨app, feed, drain, socket, reader, writer, ?_, ?_⟩
  · cases drain with
    | done how dropped =>
      cases how with
      | returned => rfl
      | raised => exact absurd whole.2 (by simp [WriterPump.raised])
      | cancelled => exact absurd rfl (written dropped)
    | _ => rfl
  · rintro how rfl
    cases how with
    | returned => rfl
    | raised => exact absurd whole.1 (by simp [ReaderPump.raised])
    | cancelled => exact absurd rfl read

theorem reader_onward {m : Mux} {r : Ref} {p : Handler} {app : Socket} {feed : ReaderPump}
    (connected : p.socket = some app) (running : p.reader = some feed) {a : ReaderPump.Action}
    (member : a ∈ ReaderPump.onward) {t : Turn (Socket × ReaderPump)} (took : feed.turn r false app a = some t) :
    .reader a ∈ onward ∧ ∃ u, p.turn m r (.reader a) = some u ∧ u.call = t.call := by
  have other : a ≠ .cancel := by
    rintro rfl
    simp [ReaderPump.onward] at member
  refine ⟨by simp [onward, member], t.map fun out => { p with socket := some out.1, reader := some out.2 }, ?_, rfl⟩
  simp only [turn, other, false_and, if_false, connected, running, Option.bind_some, took, Option.map_some]

theorem writer_onward {m : Mux} {r : Ref} {p : Handler} {app : Socket} {drain : WriterPump}
    (connected : p.socket = some app) (running : p.writer = some drain) {a : WriterPump.Action}
    (member : a ∈ WriterPump.onward) {t : Turn (Socket × WriterPump)}
    (took : drain.turn r false ((m.heap r).any Stream.resetByPeer) app a = some t) :
    .writer a ∈ onward ∧ ∃ u, p.turn m r (.writer a) = some u ∧ u.call = t.call := by
  have other : a ≠ .cancel := by
    rintro rfl
    simp [WriterPump.onward] at member
  refine ⟨by simp [onward, member], t.map fun out => { p with socket := some out.1, writer := some out.2 }, ?_, rfl⟩
  simp only [turn, other, false_and, if_false, connected, running, Option.bind_some, took, Option.map_some]

/-- A handler opens no stream. -/
theorem opens_of_turn {m : Mux} {r : Ref} {p : Handler} {a : Handler.Action} {t : Turn Handler}
    (took : p.turn m r a = some t) {call : Chute.Action} (calls : t.call = some call) : call.opens = false := by
  cases a with
  | connected | unreachable | failed | reset | close =>
    simp only [turn] at took
    split at took
    · cases took
      cases calls <;> rfl
    · cases took
  | socket e =>
    simp only [turn] at took
    split at took
    · cases took
    · obtain ⟨k, -, took⟩ := Option.bind_eq_some_iff.mp took
      obtain ⟨k', -, rfl⟩ := Option.map_eq_some_iff.mp took
      cases calls
  | reader a =>
    simp only [turn] at took
    split at took
    · cases took
    · obtain ⟨k, -, took⟩ := Option.bind_eq_some_iff.mp took
      obtain ⟨pump, -, took⟩ := Option.bind_eq_some_iff.mp took
      obtain ⟨t', took', rfl⟩ := Option.map_eq_some_iff.mp took
      exact Action.opens_of_target (ReaderPump.turn_target took' calls).1
  | writer a =>
    simp only [turn] at took
    split at took
    · cases took
    · obtain ⟨k, -, took⟩ := Option.bind_eq_some_iff.mp took
      obtain ⟨pump, -, took⟩ := Option.bind_eq_some_iff.mp took
      obtain ⟨t', took', rfl⟩ := Option.map_eq_some_iff.mp took
      exact Action.opens_of_target (WriterPump.turn_target took' calls)
  | wake | cancel =>
    obtain ⟨q, -, rfl⟩ := Option.map_eq_some_iff.mp took
    cases calls

end Handler

end Chute
