import Chute.Pair.Basic
import Chute.Relay.Traffic
import Chute.Transit.Handler

/-!
# The owner of a stream

At both ends of a stream one task owns it: it runs the two pumps, and it alone calls the stream.
`Owner` is what its promises depend on, and `Owner.Moves` is everything that an owner does to it;
the relay of a visitor and the handler of the agent are both owners.
-/
namespace Chute

structure Owner where
  /-- What is sent ahead of the bytes of the socket. -/
  lead : Bytes
  socket : Socket
  reader : ReaderPump
  writer : WriterPump
  /-- The task itself is in `send_eof`. -/
  ending : Bool
  /-- The task ends its direction itself once the other one is over. -/
  cuts : Bool
  /-- The task has closed the stream. -/
  left : Bool

theorem ReaderPump.turn_running {r : Ref} {throttle : Bool} {k : Socket} {pump : ReaderPump}
    {a : ReaderPump.Action} {t : Turn (Socket × ReaderPump)} (took : pump.turn r throttle k a = some t) :
    pump.isDone = false := by
  cases pump with
  | done o => cases a <;> cases took
  | _ => rfl

namespace Owner

/-- One turn of an owner of the stream `r`, with the call it makes and the result of the call. -/
inductive Moves (m : Mux) (r : Ref) (o : Owner) : Option Action → Result → Owner → Prop
  | quiet (res : Result) : Moves m r o none res o
  | socket (e : Socket.Event) (k : Socket) (event : o.socket.event e = some k)
      (order : e = .dropped → Task.reset r ∉ m.tasks) (res : Result) :
      Moves m r o none res { o with socket := k }
  | reader (throttle : Bool) (a : ReaderPump.Action) (t : Turn (Socket × ReaderPump))
      (took : o.reader.turn r throttle o.socket a = some t) (res : Result) :
      Moves m r o t.call res { o with socket := (t.next res).1, reader := (t.next res).2 }
  /-- The pump ends, and the task does not remember how. -/
  | stops (throttle : Bool) (a : ReaderPump.Action) (t : Turn (Socket × ReaderPump))
      (took : o.reader.turn r throttle o.socket a = some t) (res : Result)
      (ends : (t.next res).2.isDone = true) :
      Moves m r o t.call res { o with socket := (t.next res).1, reader := .done .raised }
  | writer (throttle : Bool) (a : WriterPump.Action) (t : Turn (Socket × WriterPump)) (here : o.left = false)
      (took : o.writer.turn r throttle ((m.heap r).any Stream.resetByPeer) o.socket a = some t) (res : Result) :
      Moves m r o t.call res { o with socket := (t.next res).1, writer := (t.next res).2 }
  | endStart (sent : Bool) (idle : o.ending = false) (cuts : o.cuts = true)
      (over_ : ∃ dropped, o.writer = .done .returned dropped) (res : Result) :
      Moves m r o (some (.sendEof r sent)) res { o with ending := res == .suspended }
  | endResume (sent : Bool) (busy : o.ending = true) (res : Result) :
      Moves m r o (some (.sendResume r sent)) res { o with ending := res == .suspended }
  | endRaise (busy : o.ending = true) (res : Result) :
      Moves m r o (some (.sendRaise r)) res { o with ending := false }
  | openReturn (res : Result) : Moves m r o (some (.openReturn r)) res o
  | openRaise (res : Result) : Moves m r o (some (.openRaise r)) res { o with left := true }
  | reset (sent : Bool) (res : Result) : Moves m r o (some (.reset r sent)) res o
  | close (here : o.left = false) (done : o.reader.isDone = true) (res : Result) :
      Moves m r o (some (.close r)) res { o with socket := o.socket.close, left := true }
  /-- The task never had a connection. -/
  | leave (res : Result) : Moves m r o (some (.close r)) res { o with left := true }

end Owner

/-! ### The relay of a visitor -/

/-- The task has closed its stream. -/
def RelayPhase.gone (phase : RelayPhase) : Bool := phase == .finished || phase == .refused

namespace Relay

/-- Until the pumps are started, the task sends `initial` as a pump would. -/
def feeder (p : Relay) : ReaderPump :=
  match p.reader with
  | some pump => pump
  | none =>
    match p.phase with
    | .opening | .refused | .announcing | .throttling | .queued => .queued p.initial
    | .sending => .sending
    | _ => .done .raised

def owner (p : Relay) : Owner where
  lead := p.initial
  socket := p.socket
  reader := p.feeder
  writer := p.writer.getD .reading
  ending := p.phase == .ended
  cuts := true
  left := p.phase.gone

structure Formed (p : Relay) : Prop where
  /-- The pumps are not there before they are started. -/
  early : p.phase.early = true → p.reader = none ∧ p.writer = none
  /-- The task ends the request itself only when the response is over. -/
  over_ : p.phase = .ending → ∃ dropped, p.writer = some (.done .returned dropped)
  /-- The task outlives its pumps. -/
  late : p.phase.stopped = true → p.settled = true

theorem formed_new (initial : Bytes) (canWriteEof watched : Bool) :
    (new initial canWriteEof watched).Formed where
  early _ := ⟨rfl, rfl⟩
  over_ ending := by cases ending
  late stopped := by cases stopped

variable {m : Mux} {r : Ref} {p q : Relay}

/-- Once they would be there, the reader pump is itself or was never started. -/
private theorem feeder_late (late : p.phase.early = false) : p.feeder = p.reader.getD (.done .raised) := by
  unfold feeder
  cases p.reader with
  | some pump => rfl
  | none => cases phase : p.phase <;> simp_all [RelayPhase.early]

private theorem feeder_waiting (formed : p.Formed)
    (waits : p.phase = .opening ∨ p.phase = .refused ∨ p.phase = .announcing ∨ p.phase = .throttling ∨
      p.phase = .queued) : p.feeder = .queued p.initial := by
  have none_ : p.reader = none := by
    refine (formed.early ?_).1
    rcases waits with waits | waits | waits | waits | waits <;> rw [waits] <;> rfl
  unfold feeder
  rw [none_]
  rcases waits with waits | waits | waits | waits | waits <;> rw [waits]

private theorem feeder_sending (formed : p.Formed) (sends : p.phase = .sending) : p.feeder = .sending := by
  unfold feeder
  rw [(formed.early (by rw [sends]; rfl)).1, sends]

/-- The task goes on, and nothing that it holds changes. -/
private theorem moves_go {phase : RelayPhase} (feeder : (p.go phase).feeder = p.feeder)
    (before : p.phase ≠ .ended) (after : phase ≠ .ended) (gone : phase.gone = p.phase.gone) (res : Result) :
    p.owner.Moves m r none res (p.go phase).owner := by
  have same : (p.go phase).owner = p.owner := by
    simp only [owner, feeder]
    simp [go, before, after, gone]
  rw [same]
  exact .quiet res

/-- Past the pumps' start nothing that the task holds depends on its phase. -/
private theorem moves_late {phase : RelayPhase} (late : p.phase.early = false) (later : phase.early = false)
    (before : p.phase ≠ .ended) (after : phase ≠ .ended) (gone : phase.gone = p.phase.gone) (res : Result) :
    p.owner.Moves m r none res (p.go phase).owner := by
  refine moves_go ?_ before after gone res
  rw [feeder_late late]
  exact feeder_late later

private theorem formed_late {phase : RelayPhase} (late : phase.early = false)
    (over_ : phase = .ending → ∃ dropped, p.writer = some (.done .returned dropped))
    (settled : phase.stopped = true → p.settled = true) : (p.go phase).Formed where
  early early := by
    rw [show (p.go phase).phase = phase from rfl, late] at early
    cases early
  over_ := over_
  late := settled

/-- Nothing is left of pumps that were never started. -/
private theorem settled_of_early (formed : p.Formed) (early : p.phase.early = true) : p.settled = true := by
  obtain ⟨noReader, noWriter⟩ := formed.early early
  simp [settled, noReader, noWriter]

/-- The pumps are still to be started. -/
private theorem formed_early (formed : p.Formed) (early : p.phase.early = true) {phase : RelayPhase}
    (going : phase ≠ .ending) : (p.go phase).Formed where
  early _ := formed.early early
  over_ ending := absurd ending going
  late _ := (settled_of_early formed early : p.settled = true)

/-- The first send, as a turn of the pump that the task stands for. -/
private theorem moves_send {a : ReaderPump.Action} {call : Chute.Action} (formed : p.Formed)
    (early : p.phase.early = true) (going : p.phase.gone = false)
    (took : ∀ k : Socket, p.feeder.turn r true k a = some ⟨some call, fun res => (k, ReaderPump.afterSend res)⟩)
    (res : Result) : p.owner.Moves m r (some call) res (p.afterInitial res).owner ∧
      (p.afterInitial res).Formed := by
  obtain ⟨noReader, noWriter⟩ := formed.early early
  have unended : p.phase ≠ .ended := by
    intro phase
    rw [phase] at early
    cases early
  have feeder : ∀ q : Relay, q.reader = none → q.phase = .resetting → q.feeder = .done .raised := by
    intro q none_ phase
    rw [feeder_late (by rw [phase]; rfl), none_]
    rfl
  have goes : ∀ res, (p.afterInitial res).owner = { p.owner with reader := ReaderPump.afterSend res } := by
    intro res
    cases res with
    | returned =>
      have stays : RelayPhase.waiting.gone = false := rfl
      simp [afterInitial, startPumps, owner, Relay.feeder, ReaderPump.afterSend, noWriter, unended, going, stays]
    | suspended =>
      have stays : RelayPhase.sending.gone = false := rfl
      simp [afterInitial, go, owner, Relay.feeder, ReaderPump.afterSend, noReader, unended, going, stays]
    | raised | chunk =>
      have stays : RelayPhase.resetting.gone = false := rfl
      simp [afterInitial, go, owner, Relay.feeder, ReaderPump.afterSend, noReader, unended, going, stays]
  refine ⟨?_, ?_⟩
  · rw [goes]
    exact .reader true a ⟨some call, fun res => (p.socket, ReaderPump.afterSend res)⟩ (took p.socket) res
  · cases res with
    | returned => exact ⟨fun late => (by cases late), fun ending => (by cases ending), fun late => (by cases late)⟩
    | suspended => exact formed_early formed early (by simp)
    | raised | chunk => exact formed_late rfl (by simp) fun _ => settled_of_early formed early

/-- The first send is given up. -/
private theorem moves_giveUp {a : ReaderPump.Action} {call : Option Chute.Action} {o : Outcome}
    (formed : p.Formed) (early : p.phase.early = true)
    (took : ∀ k : Socket, p.feeder.turn r true k a = some ⟨call, fun _ => (k, .done o)⟩)
    {phase : RelayPhase} (stopped : phase.stopped = true) (gone : phase.gone = p.phase.gone) (res : Result) :
    p.owner.Moves m r call res (p.go phase).owner ∧ (p.go phase).Formed := by
  obtain ⟨noReader, noWriter⟩ := formed.early early
  have late : phase.early = false := by
    cases phase with
    | resetting | closing | finished => rfl
    | _ => cases stopped
  have unended : p.phase ≠ .ended := by
    intro phase
    rw [phase] at early
    cases early
  have going : phase ≠ .ended := by
    rintro rfl
    cases stopped
  have goes : (p.go phase).owner = { p.owner with reader := .done .raised } := by
    simp only [owner]
    rw [feeder_late (p := p.go phase) late]
    simp [go, noReader, unended, going, gone]
  refine ⟨?_, ?_⟩
  · rw [goes]
    exact .stops true a ⟨call, fun _ => (p.socket, .done o)⟩ (took p.socket) res rfl
  · refine formed_late late ?_ fun _ => settled_of_early formed early
    rintro rfl
    cases stopped

/-- A segment of the `send_eof` of the task. -/
private theorem afterEof_owner (late : p.phase.early = false) (here : p.phase.gone = false) (res : Result) :
    (p.afterEof res).owner = { p.owner with ending := res == .suspended } ∧ (p.afterEof res).Formed := by
  have goes : ∀ phase : RelayPhase, phase.early = false → phase.gone = false →
      (p.go phase).owner = { p.owner with ending := phase == .ended } := by
    intro phase later stays
    simp only [owner]
    rw [feeder_late (p := p.go phase) later, feeder_late late]
    simp [go, here, stays]
  cases res with
  | suspended => exact ⟨goes .ended rfl rfl, formed_late rfl (by simp) fun late => (by cases late)⟩
  | _ => exact ⟨goes (.stopping .returned) rfl rfl, formed_late rfl (by simp) fun late => (by cases late)⟩

/-- What the task does when it wakes up: it goes from one late phase to another. -/
private theorem wake_goes (woke : p.wake = some q) : ∃ phase, phase.early = false ∧ phase ≠ .ended ∧
    p.phase.early = false ∧ p.phase ≠ .ended ∧ phase.gone = p.phase.gone ∧ q = p.go phase ∧
      (phase = .ending → ∃ dropped, p.writer = some (.done .returned dropped)) ∧
        (phase.stopped = true → p.settled = true) := by
  unfold wake at woke
  split at woke
  next phase =>
    have late : p.phase.early = false := by rw [phase]; rfl
    repeat' split at woke
    all_goals cases woke
    all_goals exact ⟨_, rfl, by simp, late, by simp [phase], by rw [phase]; rfl, rfl, by simp_all, by simp_all [RelayPhase.stopped]⟩
  next phase =>
    have late : p.phase.early = false := by rw [phase]; rfl
    repeat' split at woke
    all_goals cases woke
    all_goals exact ⟨_, rfl, by simp, late, by simp [phase], by rw [phase]; rfl, rfl, by simp_all, by simp_all [RelayPhase.stopped]⟩
  next o phase =>
    have late : p.phase.early = false := by rw [phase]; rfl
    repeat' split at woke
    all_goals cases woke
    all_goals exact ⟨_, rfl, by simp, late, by simp [phase], by rw [phase]; rfl, rfl, by simp_all, by simp_all [RelayPhase.stopped]⟩
  · cases woke

/-- **A turn of the relay is a move of an owner.** -/
theorem moves_of_turn {a : Relay.Action} {t : Turn Relay} (formed : p.Formed)
    (took : p.turn m r a = some t) (res : Result) :
    p.owner.Moves m r t.call res (t.next res).owner ∧
      (t.next res).Formed := by
  cases a with
  | socket e =>
    simp only [turn] at took
    split at took
    · cases took
    next order =>
      obtain ⟨k, event, rfl⟩ := Option.map_eq_some_iff.mp took
      refine ⟨.socket e k event ?_ res, formed.early, formed.over_, formed.late⟩
      exact fun dropped pending => order ⟨dropped, pending⟩
  | reader a =>
    simp only [turn] at took
    split at took
    · cases took
    · obtain ⟨pump, running, took⟩ := Option.bind_eq_some_iff.mp took
      obtain ⟨t', took', rfl⟩ := Option.map_eq_some_iff.mp took
      constructor
      · refine .reader true a t' ?_ res
        simp only [owner, feeder, running]
        exact took'
      · refine ⟨fun early => ?_, formed.over_, fun stopped => ?_⟩
        · rw [(formed.early early).1] at running
          cases running
        · -- a pump that has ended takes no turn
          have settled := formed.late stopped
          simp only [Relay.settled, running, Option.all_some, Bool.and_eq_true] at settled
          rw [ReaderPump.turn_running took'] at settled
          cases settled.1
  | writer a =>
    simp only [turn] at took
    split at took
    · cases took
    · obtain ⟨pump, running, took⟩ := Option.bind_eq_some_iff.mp took
      obtain ⟨t', took', rfl⟩ := Option.map_eq_some_iff.mp took
      -- a pump that has ended takes no turn
      have going : p.phase.stopped ≠ true := by
        intro stopped
        have settled := formed.late stopped
        simp only [Relay.settled, running, Option.all_some, Bool.and_eq_true] at settled
        rw [WriterPump.turn_running took'] at settled
        cases settled.2
      constructor
      · refine .writer true a t' ?_ ?_ res
        · simp only [owner]
          cases phase : p.phase with
          | finished => exact absurd (by rw [phase]; rfl) going
          | refused =>
            rw [(formed.early (by rw [phase]; rfl)).2] at running
            cases running
          | _ => rfl
        · simp only [owner, running, Option.getD_some]
          exact took'
      · refine ⟨fun early => ?_, fun ending => ?_, fun stopped => absurd stopped going⟩
        · rw [(formed.early early).2] at running
          cases running
        · obtain ⟨dropped, ended⟩ := formed.over_ ending
          cases running.symm.trans ended
          cases WriterPump.turn_running took'
  -- until the pumps are started the relay feeds the lane itself, as a reader pump does
  | opened =>
    simp only [turn] at took
    split at took
    next phase =>
      cases took
      have early : p.phase.early = true := by rw [phase]; rfl
      refine ⟨?_, formed_early formed early (by simp)⟩
      have same : (p.go .announcing).owner = p.owner := by
        simp only [owner, feeder_waiting formed (.inl phase)]
        rw [feeder_waiting (formed_early formed early (by simp)) (by simp [go])]
        simp only [go, phase]
        rfl
      rw [same]
      exact .openReturn res
    · cases took
  | openFailed =>
    simp only [turn] at took
    split at took
    next phase =>
      cases took
      have early : p.phase.early = true := by rw [phase]; rfl
      refine ⟨?_, formed_early formed early (by simp)⟩
      have same : (p.go .refused).owner = { p.owner with left := true } := by
        simp only [owner, feeder_waiting formed (.inl phase)]
        rw [feeder_waiting (formed_early formed early (by simp)) (by simp [go])]
        simp [go, phase, RelayPhase.gone]
      rw [same]
      exact .openRaise res
    · cases took
  | announced =>
    simp only [turn] at took
    split at took
    next phase =>
      cases took
      have early : p.phase.early = true := by rw [phase]; rfl
      refine ⟨moves_go ?_ (by simp [phase]) (by simp) (by rw [phase]; rfl) res, formed_early formed early (by simp)⟩
      rw [feeder_waiting formed (by simp [phase])]
      exact feeder_waiting (formed_early formed early (by simp)) (by simp [go])
    · cases took
  | throttled ok =>
    simp only [turn] at took
    split at took
    next phase =>
      cases took
      have early : p.phase.early = true := by rw [phase]; rfl
      have waiting : p.feeder = .queued p.initial := feeder_waiting formed (by simp [phase])
      cases ok with
      | true =>
        refine ⟨moves_go ?_ (by simp [phase]) (by simp) (by rw [phase]; rfl) res, formed_early formed early (by simp)⟩
        rw [waiting]
        exact feeder_waiting (formed_early formed early (by simp)) (by simp [go])
      | false =>
        refine moves_giveUp (a := .cancel) (o := .cancelled) formed early ?_ rfl (by rw [phase]; rfl) res
        intro k
        rw [waiting]
        rfl
    · cases took
  | start sent =>
    simp only [turn] at took
    split at took
    -- the initial bytes of the visitor
    next phase =>
      cases took
      refine moves_send (a := .start sent) formed (by rw [phase]; rfl) (by rw [phase]; rfl) ?_ res
      intro k
      rw [feeder_waiting formed (by simp [phase])]
      rfl
    -- the end of the lane, sent when the writer pump has returned
    next phase =>
      cases took
      have late : p.phase.early = false := by rw [phase]; rfl
      obtain ⟨same, formed'⟩ := afterEof_owner late (by rw [phase]; rfl) res
      refine ⟨?_, formed'⟩
      rw [same]
      obtain ⟨dropped, over_⟩ := formed.over_ phase
      exact .endStart sent (by simp [owner, phase]) rfl ⟨dropped, by simp [owner, over_]⟩ res
    · cases took
  | resume sent =>
    simp only [turn] at took
    split at took
    next phase =>
      cases took
      refine moves_send (a := .resume sent) formed (by rw [phase]; rfl) (by rw [phase]; rfl) ?_ res
      intro k
      rw [feeder_sending formed phase]
      rfl
    next phase =>
      cases took
      have late : p.phase.early = false := by rw [phase]; rfl
      obtain ⟨same, formed'⟩ := afterEof_owner late (by rw [phase]; rfl) res
      refine ⟨?_, formed'⟩
      rw [same]
      exact .endResume sent (by simp [owner, phase]) res
    · cases took
  | stall =>
    simp only [turn] at took
    split at took
    next phase =>
      cases took
      refine moves_giveUp (a := .stall) (o := .raised) formed (by rw [phase]; rfl) ?_ rfl (by rw [phase]; rfl) res
      intro k
      rw [feeder_sending formed phase]
      rfl
    · cases took
  | fail =>
    simp only [turn] at took
    split at took
    next phase =>
      cases took
      refine moves_giveUp (a := .fail) (o := .raised) formed (by rw [phase]; rfl) ?_ rfl (by rw [phase]; rfl) res
      intro k
      rw [feeder_sending formed phase]
      rfl
    next phase =>
      cases took
      have late : p.phase.early = false := by rw [phase]; rfl
      obtain ⟨same, formed'⟩ := afterEof_owner late (by rw [phase]; rfl) .raised
      refine ⟨?_, formed'⟩
      rw [show p.go (.stopping .returned) = p.afterEof .raised from rfl, same]
      exact .endRaise (by simp [owner, phase]) res
    · cases took
  | idle =>
    simp only [turn] at took
    split at took
    · cases took
      exact ⟨.quiet res, formed.early, formed.over_, formed.late⟩
    · cases took
  | wake =>
    obtain ⟨q, woke, rfl⟩ := Option.map_eq_some_iff.mp took
    obtain ⟨phase, later, unended, late, before, gone, rfl, over_, settled⟩ := wake_goes woke
    exact ⟨moves_late late later before unended gone res, formed_late later over_ settled⟩
  -- the pumps have ended, and a reset moves nothing of the owner
  | reset sent =>
    simp only [turn] at took
    split at took
    next phase =>
      cases took
      refine ⟨?_, formed_late rfl (by simp) fun _ => formed.late (by rw [phase]; rfl)⟩
      have same : (p.go .closing).owner = p.owner := by
        simp only [owner]
        rw [feeder_late (p := p.go .closing) rfl, feeder_late (p := p) (by rw [phase]; rfl)]
        simp only [go, phase]
        rfl
      rw [same]
      exact .reset sent res
    · cases took
  | close =>
    simp only [turn] at took
    split at took
    next phase =>
      cases took
      have settled : p.settled = true := formed.late (by rw [phase]; rfl)
      refine ⟨?_, fun early => (by cases early), fun ending => (by cases ending), fun _ => settled⟩
      have same : ({ p.go .finished with socket := p.socket.close } : Relay).owner =
          { p.owner with socket := p.socket.close, left := true } := by
        simp only [owner]
        rw [feeder_late (p := { p.go .finished with socket := p.socket.close }) rfl,
          feeder_late (p := p) (by rw [phase]; rfl)]
        simp [go, phase, RelayPhase.gone]
      rw [same]
      refine .close (by rw [owner, phase]; rfl) ?_ res
      simp only [owner]
      rw [feeder_late (by rw [phase]; rfl)]
      simp only [Relay.settled, Bool.and_eq_true] at settled
      cases reader : p.reader with
      | none => rfl
      | some pump => simpa [reader] using settled.1
    · cases took
  | cancel =>
    simp only [turn, cancel] at took
    split at took
    -- before the pumps the feeder gives up
    next phase =>
      cases took
      refine moves_giveUp (a := .cancel) (o := .cancelled) formed (by rw [phase]; rfl) ?_ rfl (by rw [phase]; rfl) res
      intro k
      rw [feeder_waiting formed (by simp [phase])]
      rfl
    next phase =>
      cases took
      refine moves_giveUp (a := .cancel) (o := .cancelled) formed (by rw [phase]; rfl) ?_ rfl (by rw [phase]; rfl) res
      intro k
      rw [feeder_waiting formed (by simp [phase])]
      rfl
    next phase =>
      cases took
      refine moves_giveUp (a := .cancel) (o := .cancelled) formed (by rw [phase]; rfl) ?_ rfl (by rw [phase]; rfl) res
      intro k
      rw [feeder_sending formed phase]
      rfl
    -- from the pumps on only the phase changes
    next phase =>
      cases took
      exact ⟨moves_late (by rw [phase]; rfl) rfl (by simp [phase]) (by simp) (by rw [phase]; rfl) res,
        formed_late rfl (by simp) fun late => (by cases late)⟩
    next phase =>
      cases took
      exact ⟨moves_late (by rw [phase]; rfl) rfl (by simp [phase]) (by simp) (by rw [phase]; rfl) res,
        formed_late rfl (by simp) fun late => (by cases late)⟩
    next phase =>
      cases took
      exact ⟨moves_late (by rw [phase]; rfl) rfl (by simp [phase]) (by simp) (by rw [phase]; rfl) res,
        formed_late rfl (by simp) fun late => (by cases late)⟩
    -- a cancelled end of the lane gives the lock back
    next phase =>
      cases took
      refine ⟨?_, formed_late rfl (by simp) fun late => (by cases late)⟩
      have same : (p.go (.stopping .cancelled)).owner = { p.owner with ending := false } := by
        simp only [owner]
        rw [feeder_late (p := p.go (.stopping .cancelled)) rfl, feeder_late (p := p) (by rw [phase]; rfl)]
        simp only [go, phase]
        rfl
      rw [same]
      exact .endRaise (by simp [owner, phase]) res
    · cases took

end Relay

/-- Both pumps have ended. -/
def HandlerPhase.stopped : HandlerPhase → Bool
  | .resetting | .closing | .finished => true
  | .connecting | .pumping | .aborting => false

namespace Handler

/-- Before it is connected there is nothing for the pumps to do. -/
def owner (p : Handler) : Owner where
  lead := []
  socket := p.socket.getD (.new true)
  reader := p.reader.getD .reading
  writer := p.writer.getD .reading
  ending := false
  cuts := false
  left := p.phase == .finished

structure Formed (p : Handler) : Prop where
  early : p.phase = .connecting → p.socket = none ∧ p.reader = none ∧ p.writer = none
  /-- The pumps come with the connection. -/
  pumps : p.socket ≠ none → p.reader ≠ none
  /-- The task outlives its pumps. -/
  late : p.phase.stopped = true → p.settled = true

theorem formed_new : new.Formed := ⟨fun _ => ⟨rfl, rfl, rfl⟩, fun none_ => absurd rfl none_, fun _ => rfl⟩

variable {m : Mux} {r : Ref} {p : Handler}

/-- The handler goes on, and nothing that it holds changes. -/
private theorem moves_go (formed : p.Formed) (here : p.phase ≠ .finished) {phase : HandlerPhase}
    (begun : phase ≠ .connecting) (stays : phase ≠ .finished)
    (settled : phase.stopped = true → p.settled = true) (res : Result) :
    p.owner.Moves m r none res (p.go phase).owner ∧ (p.go phase).Formed := by
  have same : (p.go phase).owner = p.owner := by simp [owner, go, here, stays]
  refine ⟨?_, fun connecting => absurd connecting begun, formed.pumps, settled⟩
  rw [same]
  exact .quiet res

/-- Nothing is left of pumps that were never started. -/
private theorem settled_of_early (formed : p.Formed) (connecting : p.phase = .connecting) : p.settled = true := by
  obtain ⟨-, noReader, noWriter⟩ := formed.early connecting
  simp [settled, noReader, noWriter]

/-- **A turn of the handler is a move of an owner.** -/
theorem moves_of_turn {a : Handler.Action} {t : Turn Handler} (formed : p.Formed)
    (took : p.turn m r a = some t) (res : Result) :
    p.owner.Moves m r t.call res (t.next res).owner ∧ (t.next res).Formed := by
  cases a with
  | connected =>
    simp only [turn] at took
    split at took
    next phase =>
      cases took
      obtain ⟨noSocket, noReader, noWriter⟩ := formed.early phase
      have same : p.connect.owner = p.owner := by
        simp [owner, connect, noSocket, noReader, noWriter, phase]
      refine ⟨?_, ?_⟩
      · show p.owner.Moves m r none res p.connect.owner
        rw [same]
        exact .quiet res
      · refine ⟨?_, ?_, ?_⟩ <;> simp [Turn.quiet, connect, HandlerPhase.stopped]
    · cases took
  | unreachable | failed =>
    simp only [turn] at took
    split at took
    next phase =>
      cases took
      exact moves_go formed (by simp [phase]) (by simp) (by simp) (fun _ => settled_of_early formed phase) res
    · cases took
  | socket e =>
    simp only [turn] at took
    split at took
    · cases took
    next order =>
      obtain ⟨k, here, took⟩ := Option.bind_eq_some_iff.mp took
      obtain ⟨k', event, rfl⟩ := Option.map_eq_some_iff.mp took
      constructor
      · refine .socket e k' ?_ (fun dropped pending => order ⟨dropped, pending⟩) res
        simp only [owner, here, Option.getD_some]
        exact event
      · refine ⟨fun connecting => ?_, fun _ => formed.pumps (by simp [here]), formed.late⟩
        rw [(formed.early connecting).1] at here
        cases here
  | reader a =>
    simp only [turn] at took
    split at took
    · cases took
    · obtain ⟨k, here, took⟩ := Option.bind_eq_some_iff.mp took
      obtain ⟨pump, running, took⟩ := Option.bind_eq_some_iff.mp took
      obtain ⟨t', took', rfl⟩ := Option.map_eq_some_iff.mp took
      constructor
      · refine .reader false a t' ?_ res
        simp only [owner, here, running, Option.getD_some]
        exact took'
      · refine ⟨fun connecting => ?_, fun _ => by simp [Turn.map], fun stopped => ?_⟩
        · rw [(formed.early connecting).1] at here
          cases here
        · -- a pump that has ended takes no turn
          have settled := formed.late stopped
          simp only [Handler.settled, running, Option.all_some, Bool.and_eq_true] at settled
          rw [ReaderPump.turn_running took'] at settled
          cases settled.1
  | writer a =>
    simp only [turn] at took
    split at took
    · cases took
    · obtain ⟨k, here, took⟩ := Option.bind_eq_some_iff.mp took
      obtain ⟨pump, running, took⟩ := Option.bind_eq_some_iff.mp took
      obtain ⟨t', took', rfl⟩ := Option.map_eq_some_iff.mp took
      -- a pump that has ended takes no turn
      have going : p.phase.stopped ≠ true := by
        intro stopped
        have settled := formed.late stopped
        simp only [Handler.settled, running, Option.all_some, Bool.and_eq_true] at settled
        rw [WriterPump.turn_running took'] at settled
        cases settled.2
      constructor
      · refine .writer false a t' ?_ ?_ res
        · simp only [owner]
          cases phase : p.phase with
          | finished => exact absurd (by rw [phase]; rfl) going
          | _ => rfl
        · simp only [owner, here, running, Option.getD_some]
          exact took'
      · refine ⟨fun connecting => ?_, fun _ => formed.pumps (by simp [here]), fun stopped => absurd stopped going⟩
        rw [(formed.early connecting).1] at here
        cases here
  | wake =>
    obtain ⟨q, woke, rfl⟩ := Option.map_eq_some_iff.mp took
    unfold wake at woke
    split at woke
    next phase =>
      split at woke
      next settled =>
        cases woke
        split
        · exact moves_go formed (by simp [phase]) (by simp) (by simp) (fun _ => settled) res
        · exact moves_go formed (by simp [phase]) (by simp) (by simp) (fun _ => settled) res
      · split at woke
        · cases woke
          exact moves_go formed (by simp [phase]) (by simp) (by simp) (fun late => (by cases late)) res
        · cases woke
    next phase =>
      split at woke
      next settled =>
        cases woke
        split
        · exact moves_go formed (by simp [phase]) (by simp) (by simp) (fun _ => settled) res
        · exact moves_go formed (by simp [phase]) (by simp) (by simp) (fun _ => settled) res
      · cases woke
    · cases woke
  | reset sent =>
    simp only [turn] at took
    split at took
    next phase =>
      cases took
      have same : (p.go .closing).owner = p.owner := by simp [owner, go, phase]
      refine ⟨?_, fun connecting => (by cases connecting), formed.pumps, fun _ => formed.late (by rw [phase]; rfl)⟩
      rw [same]
      exact .reset sent res
    · cases took
  | close =>
    simp only [turn] at took
    split at took
    next phase =>
      cases took
      have settled : p.settled = true := formed.late (by rw [phase]; rfl)
      refine ⟨?_, fun connecting => (by cases connecting), fun there => formed.pumps (by simpa using there),
        fun _ => settled⟩
      cases here : p.socket with
      | none =>
        have same : ({ p.go .finished with socket := none } : Handler).owner = { p.owner with left := true } := by
          simp [owner, go, here]
        simp only [Option.map_none, same]
        exact .leave res
      | some k =>
        have same : ({ p.go .finished with socket := some k.close } : Handler).owner =
            { p.owner with socket := p.owner.socket.close, left := true } := by
          simp [owner, go, here]
        simp only [Option.map_some, same]
        refine .close (by simp [owner, phase]) ?_ res
        simp only [Handler.settled, Bool.and_eq_true] at settled
        cases reader : p.reader with
        | none => exact absurd reader (formed.pumps (by simp [here]))
        | some pump => simpa [owner, reader] using settled.1
    · cases took
  | cancel =>
    obtain ⟨q, cancelled, rfl⟩ := Option.map_eq_some_iff.mp took
    unfold cancel at cancelled
    split at cancelled
    next phase =>
      cases cancelled
      exact moves_go formed (by simp [phase]) (by simp) (by simp) (fun _ => settled_of_early formed phase) res
    next phase =>
      cases cancelled
      exact moves_go formed (by simp [phase]) (by simp) (by simp) (fun late => (by cases late)) res
    · cases cancelled

end Handler

end Chute
