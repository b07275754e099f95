import Chute.Relay.Traffic

/-!
# Complete responses

A clean end of the visitor's socket should mean that the response is complete. It does
as long as `_relay` reaches its last `_safe_close` with a socket that its writer pump has
ended, or with a response of which nothing is missing; `_safe_close` sends the same FIN
in every other case.
-/
namespace Chute

namespace Heard

variable {l : Heard} {sid : StreamId} {a : Action}

theorem after_of_ended (ended : l.ended = true) (sid : StreamId) (a : Action) :
    (l.after sid a).ended = true ∧ (l.after sid a).data = l.data := by
  unfold after
  split
  · unfold hear
    split
    · simp [ended]
    · split
      · exact ⟨rfl, rfl⟩
      · exact ⟨ended, rfl⟩
    · exact ⟨ended, rfl⟩
  · exact ⟨ended, rfl⟩

theorem after_of_silent (data : ∀ data, a.Brings ⟨.data, sid, data⟩ → data = [])
    (eof : ∀ payload, ¬a.Brings ⟨.eof, sid, payload⟩) : l.after sid a = l := by
  unfold after
  split
  next msg =>
    unfold hear
    split
    next sid' payload carries =>
      split
      next here =>
        obtain ⟨rfl, -⟩ := here
        rw [data payload ⟨msg, rfl, carries⟩, List.append_nil]
      · rfl
    next sid' payload carries =>
      split
      next here =>
        subst here
        exact absurd ⟨msg, rfl, carries⟩ (eof payload)
      · rfl
    · rfl
  · rfl

theorem after_of_data {data : Bytes} (brings : a.Brings ⟨.data, sid, data⟩)
    (open_ : l.ended = false) : l.after sid a = { l with data := l.data ++ data } := by
  obtain ⟨msg, rfl, carries⟩ := brings
  simp [after, hear, carries, open_]

theorem after_of_eof {payload : Bytes} (brings : a.Brings ⟨.eof, sid, payload⟩) :
    l.after sid a = { l with ended := true } := by
  obtain ⟨msg, rfl, carries⟩ := brings
  simp [after, hear, carries]

end Heard

/-- What was taken from a stream and what waits in it, beside what the agent has sent. -/
structure Told (s : Stream) (got : Bytes) (l : Heard) : Prop where
  accepting : s.recv = .open_ → l.ended = false
  ended : s.recv = .eof → l.ended = true
  whole : s.recv ≠ .reset → got ++ s.chunks.flatten = l.data

namespace Told

variable {s t : Stream} {got : Bytes} {l : Heard}

theorem new (c : Config) : Told (Stream.new c) [] .new :=
  ⟨fun _ => rfl, nofun, fun _ => rfl⟩

theorem same (told : Told s got l) (side : Host.SameSide s t) : Told t got l := by
  obtain ⟨queue, recv, -⟩ := side
  have chunks : t.chunks = s.chunks := by rw [Stream.chunks, queue, Stream.chunks]
  exact ⟨recv ▸ told.accepting, recv ▸ told.ended, by rw [recv, chunks]; exact told.whole⟩

/-- A stream that aborts promises nothing any more. -/
theorem aborted (recv : t.recv = .reset) : Told t got l :=
  ⟨fun accepting => by simp [recv] at accepting, fun ended => by simp [recv] at ended,
    fun whole => absurd recv whole⟩

theorem shut_reset (told : Told s got l) : Told (s.shut .reset) got l := by
  by_cases accepting : s.recv = .open_
  · exact aborted (by simp [Stream.recv_shut, accepting])
  · have recv : (s.shut .reset).recv = s.recv := by simp [Stream.recv_shut, accepting]
    exact ⟨recv ▸ told.accepting, recv ▸ told.ended, by
      rw [recv, Stream.chunks_shut]; exact told.whole⟩

/-- What arrives on the connection is heard and queued alike. -/
theorem listens {h : Host} {r : Ref} {a : Action} (told : Told s got l)
    (listens : h.Listens r s a t) : Told t got (l.after r.sid a) := by
  -- once the direction has ended, nothing more is recorded
  have past : s.recv ≠ .open_ → t.recv = s.recv → t.chunks = s.chunks →
      Told t got (l.after r.sid a) := by
    intro past recv chunks
    cases state : s.recv with
    | open_ => exact absurd state past
    | reset => exact aborted (recv.trans state)
    | eof =>
      obtain ⟨ended, data⟩ := Heard.after_of_ended (told.ended state) r.sid a
      refine ⟨fun open_ => by simp [recv, state] at open_, fun _ => ended, fun whole => ?_⟩
      rw [data, chunks]
      exact told.whole (recv ▸ whole)
  cases listens with
  | still queue recv closed silent =>
    have chunks : t.chunks = s.chunks := by rw [Stream.chunks, queue, Stream.chunks]
    by_cases accepting : s.recv = .open_
    · obtain ⟨data, eof⟩ := silent accepting
      rw [Heard.after_of_silent data eof]
      exact told.same ⟨queue, recv, closed⟩
    · exact past accepting recv chunks
  | fed data brings accepting queue recv closed =>
    have open_ := told.accepting accepting
    rw [Heard.after_of_data brings open_]
    refine ⟨fun _ => open_, fun ended => by simp [recv, accepting] at ended, fun _ => ?_⟩
    have before := told.whole (by simp [accepting])
    simp only [Stream.chunks, queue, List.reduceOption_append, List.flatten_append] at before ⊢
    rw [← List.append_assoc, before]
    simp
  | overflow data brings accepting queue recv closed => exact aborted recv
  | ended brings accepting queue recv closed =>
    rw [Heard.after_of_eof brings]
    refine ⟨fun open_ => by simp [recv] at open_, fun _ => rfl, fun _ => ?_⟩
    have before := told.whole (by simp [accepting])
    simpa [Stream.chunks, queue, List.reduceOption_append] using before
  | torn tears live shut =>
    subst shut
    by_cases accepting : s.recv = .open_
    · exact aborted (by simp [Stream.recv_shut, accepting])
    · exact past accepting (by simp [Stream.recv_shut, accepting]) (by simp)

/-- `read` moves a chunk from the queue to its caller. -/
theorem read (told : Told s got l) {c : Option Bytes} (queue : s.incoming = c :: t.incoming)
    (recv : t.recv = s.recv) : Told t (got ++ c.getD []) l := by
  refine ⟨recv ▸ told.accepting, recv ▸ told.ended, fun whole => ?_⟩
  have before := told.whole (recv ▸ whole)
  rw [← before, Stream.chunks, Stream.chunks, queue]
  cases c <;> simp

/-- The end of the queue comes after everything that was sent. -/
theorem complete (told : Told s got l) (closed : s.Sealed) {tail : List (Option Bytes)}
    (queue : s.incoming = none :: tail) (clean : s.recv ≠ .reset) :
    l.ended = true ∧ got = l.data := by
  have last : tail = [] := closed.last [] tail queue
  have past : s.recv ≠ .open_ := closed.past (by simp [queue])
  have eof : s.recv = .eof := by
    cases state : s.recv with
    | open_ => exact absurd state past
    | eof => rfl
    | reset => exact absurd state clean
  refine ⟨told.ended eof, ?_⟩
  rw [← told.whole clean, Stream.chunks, queue, last]
  simp

end Told

/-! ### The relay of a visit -/

/-- The socket of a visitor tells the truth about the response, and will. -/
structure Honest (s : Stream) (v : Visit) : Prop where
  told : v.relay.underWay = true → v.relay.socket.ended = none →
    Told s (v.relay.socket.written ++ v.relay.held) v.heard
  fin : v.relay.socket.ended = some .fin →
    v.heard.ended = true ∧ v.relay.socket.written = v.heard.data
  stopped : v.relay.phase = .finished → v.relay.socket.ended ≠ none
  early : v.relay.phase.early = true → v.relay.writer = none

namespace Honest

variable {s t : Stream} {v : Visit}

theorem same (honest : Honest s v) (side : Host.SameSide s t) : Honest t v :=
  ⟨fun going open_ => (honest.told going open_).same side, honest.fin, honest.stopped, honest.early⟩

theorem listens (honest : Honest s v) {h : Host} {a : Action} (listens : h.Listens v.ref s a t) :
    Honest t (Traffic.hear v.conn a v) := by
  unfold Traffic.hear
  rw [if_pos rfl]
  refine ⟨fun going open_ => (honest.told going open_).listens listens, fun fin => ?_,
    honest.stopped, honest.early⟩
  obtain ⟨ended, written⟩ := honest.fin fin
  obtain ⟨ended', data⟩ := Heard.after_of_ended ended v.ref.sid a
  exact ⟨ended', written.trans data.symm⟩

/-- A turn that leaves the writing side of the socket alone. -/
theorem keeps (honest : Honest s v) {q : Relay} (side : Host.SameSide s t)
    (written : q.socket.written = v.relay.socket.written)
    (ended : q.socket.ended = v.relay.socket.ended) (held : q.held = v.relay.held)
    (going : q.underWay = true → v.relay.underWay = true)
    (stopped : q.phase = .finished → v.relay.phase = .finished)
    (early : q.phase.early = true → q.writer = none) : Honest t { v with relay := q } := by
  refine ⟨fun going' open_ => ?_, fun fin => ?_, fun finished => ?_, early⟩
  · rw [written, held]
    exact (honest.told (going going') (ended ▸ open_)).same side
  · rw [written]
    exact honest.fin (ended ▸ fin)
  · rw [ended]
    exact honest.stopped (stopped finished)

/-- A change of phase alone. -/
theorem go (honest : Honest s v) (side : Host.SameSide s t) {phase : RelayPhase}
    (going : v.relay.underWay = true) (stopped : phase ≠ .finished)
    (early : phase.early = true → v.relay.phase.early = true) :
    Honest t { v with relay := v.relay.go phase } :=
  honest.keeps side rfl rfl rfl (fun _ => going) (fun finished => absurd finished stopped)
    fun isEarly => honest.early (early isEarly)

/-- A turn of the main coroutine, or of the reader pump. -/
theorem goes (honest : Honest s v) (side : Host.SameSide s t) {r : Ref} {turn : Turn Relay}
    (goes : v.relay.Goes r turn) (res : Result) : Honest t { v with relay := turn.next res } := by
  rcases goes.next res with ⟨next, early⟩ | ⟨phase, next, finished, -, early, -⟩
  · rw [next]
    have none_held : v.relay.held = [] := by simp [Relay.held, honest.early early]
    exact honest.keeps side rfl rfl none_held.symm (fun _ => goes.underWay) nofun nofun
  · rw [next]
    exact honest.go side goes.underWay finished early

theorem reader (honest : Honest s v) (side : Host.SameSide s t) {r : Ref} {a : ReaderPump.Action}
    {pump : ReaderPump} {turn : Turn (Socket × ReaderPump)}
    (took : pump.turn r true v.relay.socket a = some turn) (res : Result) :
    Honest t { v with relay := { v.relay with
      socket := (turn.next res).1, reader := some (turn.next res).2 } } := by
  obtain ⟨written, ended⟩ := pump.turn_socket took res
  exact honest.keeps side written ended rfl id id honest.early

/-- The visitor, or its connection, is gone. -/
theorem gone (honest : Honest s v) {k : Socket} (written : k.written = v.relay.socket.written)
    (ended : k.ended = v.relay.socket.ended.or (some .lost)) :
    Honest s { v with relay := { v.relay with socket := k } } := by
  refine ⟨fun _ open_ => ?_, fun fin => ?_, fun finished => ?_, honest.early⟩
  · rw [ended] at open_
    cases state : v.relay.socket.ended <;> simp [state] at open_
  · rw [written]
    rw [ended] at fin
    cases state : v.relay.socket.ended with
    | none => simp [state] at fin
    | some how => exact honest.fin (by simpa [state] using fin)
  · rw [ended]
    cases v.relay.socket.ended <;> simp

/-- A turn of the writer pump between two reads of `None`. -/
theorem wrote (honest : Honest s v) {k : Socket} {w w' : WriterPump} {extra : Bytes}
    (pump : v.relay.writer = some w) (wrote : v.relay.socket.Wrote w.held extra k w'.held)
    (took : ∀ got, Told s got v.heard → Told t (got ++ extra) v.heard) :
    Honest t { v with relay := { v.relay with socket := k, writer := some w' } } := by
  have held : v.relay.held = w.held := by simp [Relay.held, pump]
  refine ⟨fun going open_ => ?_, fun fin => ?_, fun finished => ?_, fun early => ?_⟩
  · have open_ : v.relay.socket.ended = none := wrote.ended ▸ open_
    have all := wrote.going open_
    rw [show Relay.held { v.relay with socket := k, writer := some w' } = w'.held from rfl, all,
      ← held]
    exact took _ (honest.told going open_)
  · have fin' : v.relay.socket.ended = some .fin := wrote.ended ▸ fin
    obtain ⟨ended, whole⟩ := honest.fin fin'
    exact ⟨ended, (wrote.still (by simp [fin'])).trans whole⟩
  · rw [show k.ended = v.relay.socket.ended from wrote.ended]
    exact honest.stopped finished
  · have absent := honest.early early
    rw [pump] at absent
    cases absent

/-- The writer pump reads the end and passes it on. -/
theorem finishes (honest : Honest s v) (closed : s.Sealed) (pump : v.relay.writer = some .reading)
    {tail : List (Option Bytes)} (queue : s.incoming = none :: tail) {reset : Bool}
    (resets : reset = s.resetByPeer) :
    Honest t { v with relay := { v.relay with
      socket := v.relay.socket.finish reset, writer := some (.done .returned []) } } := by
  have finish : (v.relay.socket.finish reset).written = v.relay.socket.written ∧
      (v.relay.socket.finish reset).ended =
        v.relay.socket.ended.or (some (if reset then .rst else .fin)) := by
    unfold Socket.finish
    split
    · exact ⟨rfl, rfl⟩
    · split <;> exact ⟨rfl, rfl⟩
  obtain ⟨written, ended⟩ := finish
  have started : v.relay.phase.early ≠ true := by
    intro early
    rw [honest.early early] at pump
    cases pump
  refine ⟨fun _ open_ => ?_, fun fin => ?_, fun _ => ?_, fun early => absurd early started⟩
  · rw [ended] at open_
    cases state : v.relay.socket.ended <;> simp [state] at open_
  · rw [written]
    rw [ended] at fin
    cases state : v.relay.socket.ended with
    | some how => exact honest.fin (by simpa [state] using fin)
    | none =>
      -- the pump chose FIN, so the agent's EOF was read
      have clean : s.recv ≠ .reset := by
        intro aborted
        simp [state, resets, Stream.resetByPeer, aborted] at fin
      have going : v.relay.underWay = true := by
        have unfinished : v.relay.phase ≠ .finished := fun finished => honest.stopped finished state
        have called : v.relay.phase ≠ .refused := fun refused => started (by simp [refused, RelayPhase.early])
        simp [Relay.underWay, unfinished, called]
      have told := honest.told going state
      rw [show v.relay.held = [] by simp [Relay.held, pump, WriterPump.held], List.append_nil] at told
      exact told.complete closed queue clean
  · rw [ended]
    cases v.relay.socket.ended <;> simp

end Honest

namespace Traffic

/-- Nothing of the response is missing: the agent's EOF has arrived, and everything
before it was written. -/
def spent (T : Traffic) (v : Visit) : Bool :=
  (T.server.registrations[v.conn]?).any fun reg =>
    (reg.mux.heap v.ref).any fun s => decide (s.recv = .eof ∧ s.chunks = [] ∧ v.relay.held = [])

/-- The step does not close a socket that nobody has ended in the middle of a response. -/
def endsWell (T : Traffic) : Action → Bool
  | .relay k .close =>
    (T.visits[k]?).all fun v => v.relay.socket.ended.isSome || T.spent v
  | _ => true

/-- The two ways in which a socket event bears on the writing side. -/
private theorem event_cases {k k' : Socket} {e : Socket.Event} (event : k.event e = some k') :
    k'.written = k.written ∧ (k'.ended = k.ended ∨ k'.ended = k.ended.or (some .lost)) := by
  unfold Socket.event at event
  repeat' split at event
  all_goals cases event
  all_goals simp

theorem keeps_honest : Keeps Honest fun T a => T.endsWell a = true where
  start c i r initial canWriteEof watched :=
    ⟨fun _ _ => .new c, by rintro ⟨⟩, by rintro ⟨⟩, fun _ => rfl⟩
  same honest side := honest.same side
  hears _ _ _ honest listens := honest.listens listens
  quiet := by
    intro T k v reg s a turn allowed here serves closed honest turns silent
    have side : Host.SameSide s s := ⟨rfl, rfl, rfl⟩
    cases turns with
    | socket e k event order =>
      obtain ⟨written, same | lost⟩ := event_cases event
      · exact honest.keeps side written same rfl id id honest.early
      · exact honest.gone written lost
    | reader a pump turn running took => exact honest.reader side took .returned
    | writer a pump turn running took =>
      rcases pump.turn_cases took with ⟨-, reads, -⟩ | ⟨-, wrote⟩
      · rw [show turn.call = none from silent] at reads
        cases reads
      · exact honest.wrote running (wrote .returned) fun got told => by simpa using told
    | idle phase => exact honest.keeps side rfl rfl rfl id id honest.early
    | main a turn goes => exact honest.goes side goes .returned
    | refused phase => cases silent
    | reset sent phase => cases silent
    | close phase => cases silent
  calls := by
    intro T k v reg s t a turn call res allowed here serves closed honest turns calls answers
    cases turns with
    | socket e k event order => cases calls
    | reader a pump turn running took =>
      exact honest.reader (answers.plain (Or.inl (pump.turn_target took calls))) took res
    | writer a pump turn running took =>
      have calls : turn.call = some call := calls
      rcases pump.turn_cases took with ⟨rfl, reads, chunks, ends⟩ | ⟨other, wrote⟩
      · obtain ⟨c, rfl, queue, recv, -⟩ := answers.read (Option.some.inj (calls.symm.trans reads))
        cases c with
        | some chunk =>
          exact honest.wrote running (chunks chunk) fun got told => told.read queue recv
        | none =>
          have resets : (reg.mux.heap v.ref).any Stream.resetByPeer = s.resetByPeer := by
            rw [serves.stream, Option.any_some]
          simp only [Turn.map, ends]
          exact honest.finishes closed running queue resets
      · have side := answers.plain (Or.inl ⟨pump.turn_target took calls, fun reads =>
          other (calls.trans (congrArg some reads))⟩)
        exact honest.wrote running (wrote res) fun got told => by simpa using told.same side
    | idle phase => cases calls
    | main a turn goes => exact honest.goes (answers.plain (goes.call call calls)) goes res
    | refused phase =>
      cases calls
      have open_ : v.relay.phase.early = true := by rw [phase]; rfl
      refine ⟨by rintro ⟨⟩, honest.fin, by rintro ⟨⟩, fun _ => honest.early open_⟩
    | reset sent phase =>
      cases calls
      have going : v.relay.underWay = true := by simp [Relay.underWay, phase]
      refine ⟨fun _ open_ => ?_, honest.fin, by rintro ⟨⟩, by rintro ⟨⟩⟩
      have told := honest.told going open_
      rw [answers.reset sent rfl]
      split
      · exact told
      · exact told.shut_reset
    | close phase =>
      cases calls
      refine ⟨by rintro ⟨⟩, fun fin => ?_, fun _ => ?_, by rintro ⟨⟩⟩
      · cases state : v.relay.socket.ended with
        | some how => exact honest.fin (by simpa [Socket.close, state] using fin)
        | none =>
          -- `_safe_close` is the first to end the socket, so nothing may be missing
          have spent : T.spent v = true := by simpa [endsWell, here, state] using allowed
          simp only [Traffic.spent, serves.found, serves.stream, Option.any_some,
            decide_eq_true_eq] at spent
          obtain ⟨eof, chunks, held⟩ := spent
          have told := honest.told (by simp [Relay.underWay, phase]) state
          refine ⟨told.ended eof, ?_⟩
          have whole := told.whole (by simp [eof])
          rw [held, chunks] at whole
          simpa [Relay.go, Socket.close] using whole
      · simp only [Socket.close]
        cases v.relay.socket.ended <;> simp

end Traffic

/-- What a visitor can tell from the end of his socket. -/
structure Visit.Answered (v : Visit) : Prop where
  /-- A clean end: he has every byte that the agent sent before its EOF, and no other. -/
  fin : v.relay.socket.ended = some .fin →
    v.heard.ended = true ∧ v.relay.socket.written = v.heard.data
  /-- In the end his socket has ended cleanly or was aborted, unless he took it away. -/
  stopped : v.relay.phase = .finished → v.relay.socket.ended = some .fin ∨
    v.relay.socket.ended = some .rst ∨ v.relay.socket.ended = some .lost

namespace Traffic

/-- A visitor whose request is on its way to the agent. -/
def admitted : List Action :=
  [.register "a" .default none, .visit 0 [71] true false true, .relay 0 .opened,
    .relay 0 .announced, .relay 0 (.throttled true), .relay 0 (.start true), .relay 0 (.resume true)]

def arriving (type : FrameType) (payload : Bytes) : Action :=
  .connection 0 (.message (.binary (encode type.code 1 payload)))

/-- Two bytes and the end of the response, and the relay to its end. -/
def served : List Action :=
  admitted ++ [arriving .data [7, 8], .relay 0 (.writer .read), .relay 0 (.writer (.throttled true)),
    arriving .eof [], .relay 0 (.writer (.drained true)), .relay 0 (.writer .read), .relay 0 .wake,
    .relay 0 (.reader .cancel), .relay 0 (.start true), .relay 0 (.resume true), .relay 0 .wake,
    .relay 0 .close]

/-- The agent resets the stream while the writer pump waits in `drain`, and the visitor
reads no further. -/
def cutShort : List Action :=
  admitted ++ [arriving .data [7, 8], .relay 0 (.writer .read), .relay 0 (.writer (.throttled true)),
    arriving .reset [], .relay 0 (.writer .stuck), .relay 0 .wake, .relay 0 (.reader .cancel),
    .relay 0 .wake, .relay 0 (.reset true), .relay 0 .close]

end Traffic

end Chute
