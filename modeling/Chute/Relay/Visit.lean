import Chute.Relay.Accounts
import Chute.Relay.Pumps

/-!
# A visitor's relay

`RelayServer._relay`, from the `open` of its stream to the end: the first bytes, the two
pumps, the idle watcher and the teardown. The relay server of `Relay.Accounts` runs any
number of them.
-/
namespace Chute

/-- Where the coroutine that runs `_relay` is suspended. -/
inductive RelayPhase
  /-- In `mux.open`. -/
  | opening
  /-- `open` raised; `_relay` is not called. -/
  | refused
  /-- In the `visitor_opened` event. -/
  | announcing
  /-- `throttle(len(initial))` -/
  | throttling
  /-- `stream.send(initial)` waits for `_send_lock`. -/
  | queued
  | sending
  /-- The first `asyncio.wait`. -/
  | waiting
  /-- The visitor's half-close was forwarded; the writer pump goes on. -/
  | halfClosed
  /-- The response is over: the reader pump was cancelled, `send_eof` waits for the lock. -/
  | ending
  | ended
  /-- The `finally` around the pumps, entered as `o` tells. -/
  | stopping (o : Outcome)
  | resetting
  /-- The `finally` of `_relay`. -/
  | closing
  | finished
  deriving DecidableEq, Repr

namespace RelayPhase

/-- The pumps have not been started. -/
def early : RelayPhase → Bool
  | opening | refused | announcing | throttling | queued | sending => true
  | _ => false

/-- No pump runs any more. -/
def stopped : RelayPhase → Bool
  | resetting | closing | finished => true
  | _ => false

end RelayPhase

structure Relay where
  initial : Bytes
  socket : Socket
  /-- `relay_idle_timeout` is set. -/
  watched : Bool
  /-- `watch_relay_idle` has raised. -/
  idle : Bool
  phase : RelayPhase
  reader : Option ReaderPump
  writer : Option WriterPump
  deriving DecidableEq, Repr

namespace Relay

def new (initial : Bytes) (canWriteEof watched : Bool) : Relay :=
  ⟨initial, .new canWriteEof, watched, false, .opening, none, none⟩

inductive Action
  | socket (e : Socket.Event)
  | reader (a : ReaderPump.Action)
  | writer (a : WriterPump.Action)
  | opened
  | openFailed
  | announced
  | throttled (ok : Bool)
  | start (sent : Bool)
  | resume (sent : Bool)
  | stall
  | fail
  | idle
  /-- The tasks that are waited for are done. -/
  | wake
  | reset (sent : Bool)
  | close
  | cancel
  deriving DecidableEq, Repr

def go (p : Relay) (phase : RelayPhase) : Relay := { p with phase := phase }

/-- The pumps are started when `initial` is sent. -/
def startPumps (p : Relay) : Relay :=
  { p with phase := .waiting, reader := some .reading, writer := some .reading }

/-- After a segment of `stream.send(initial)`. -/
def afterInitial (p : Relay) : Result → Relay
  | .returned => p.startPumps
  | .suspended => p.go .sending
  | _ => p.go .resetting

/-- After a segment of the `send_eof` that ends the request, with exceptions suppressed. -/
def afterEof (p : Relay) : Result → Relay
  | .suspended => p.go .ended
  | _ => p.go (.stopping .returned)

/-- Both pumps have ended. -/
def settled (p : Relay) : Bool :=
  p.reader.all ReaderPump.isDone && p.writer.all WriterPump.isDone

/-- The tasks that were told to stop: the reader pump once the response is over, every
task in the `finally`, where the writer pump comes second. -/
def stopsReader (p : Relay) : Bool :=
  match p.phase with
  | .ending | .ended | .stopping _ => true
  | _ => false

def stopsWriter (p : Relay) : Bool :=
  match p.phase with
  | .stopping _ => p.reader.all ReaderPump.isDone
  | _ => false

/-- What `asyncio.wait` has found, in the order the tasks are looked at. -/
def wake (p : Relay) : Option Relay :=
  match p.phase with
  | .waiting =>
    if p.idle then some (p.go (.stopping .raised))
    else
      match p.writer, p.reader with
      | some (.done .returned _), _ => some (p.go .ending)
      | some (.done _ _), _ => some (p.go (.stopping .raised))
      | _, some (.done .returned) => some (p.go .halfClosed)
      | _, some (.done _) => some (p.go (.stopping .raised))
      | _, _ => none
  | .halfClosed =>
    if p.idle then some (p.go (.stopping .raised))
    else
      match p.writer with
      | some (.done .returned _) => some (p.go (.stopping .returned))
      | some (.done _ _) => some (p.go (.stopping .raised))
      | _ => none
  | .stopping o =>
    if p.settled then
      match o with
      | .raised => some (p.go .resetting)
      | _ => some (p.go .closing)
    else none
  | _ => none

/-- A cancellation of the task that runs `_relay`. -/
def cancel (r : Ref) (p : Relay) : Option (Turn Relay) :=
  match p.phase with
  | .throttling | .queued => some (.quiet (p.go .closing))
  | .sending => some ⟨some (.sendRaise r), fun _ => p.go .closing⟩
  | .waiting | .halfClosed | .ending => some (.quiet (p.go (.stopping .cancelled)))
  | .ended => some ⟨some (.sendRaise r), fun _ => p.go (.stopping .cancelled)⟩
  | _ => none

/-- One turn of `_relay` or of one of its pumps on the stream `r` of `m`. -/
def turn (m : Mux) (r : Ref) (p : Relay) : Action → Option (Turn Relay)
  | .socket e =>
    -- the `reset` that an overflow spawned was queued before any `connection_lost`
    if e = .dropped ∧ Task.reset r ∈ m.tasks then none
    else (p.socket.event e).map fun k => .quiet { p with socket := k }
  | .reader a =>
    if a = .cancel ∧ p.stopsReader = false then none
    else p.reader.bind fun pump =>
      (pump.turn r true p.socket a).map fun t =>
        t.map fun out => { p with socket := out.1, reader := some out.2 }
  | .writer a =>
    if a = .cancel ∧ p.stopsWriter = false then none
    else p.writer.bind fun pump =>
      (pump.turn r true ((m.heap r).any Stream.resetByPeer) p.socket a).map fun t =>
        t.map fun out => { p with socket := out.1, writer := some out.2 }
  | .opened =>
    if p.phase = .opening then some ⟨some (.openReturn r), fun _ => p.go .announcing⟩ else none
  | .openFailed =>
    if p.phase = .opening then some ⟨some (.openRaise r), fun _ => p.go .refused⟩ else none
  | .announced => if p.phase = .announcing then some (.quiet (p.go .throttling)) else none
  | .throttled ok =>
    if p.phase = .throttling then some (.quiet (p.go (if ok then .queued else .resetting)))
    else none
  | .start sent =>
    match p.phase with
    | .queued => some ⟨some (.send r p.initial sent), p.afterInitial⟩
    | .ending => some ⟨some (.sendEof r sent), p.afterEof⟩
    | _ => none
  | .resume sent =>
    match p.phase with
    | .sending => some ⟨some (.sendResume r sent), p.afterInitial⟩
    | .ended => some ⟨some (.sendResume r sent), p.afterEof⟩
    | _ => none
  | .stall =>
    if p.phase = .sending then some ⟨some (.sendTimeout r), fun _ => p.go .resetting⟩ else none
  | .fail =>
    match p.phase with
    | .sending => some ⟨some (.sendRaise r), fun _ => p.go .resetting⟩
    | .ended => some ⟨some (.sendRaise r), fun _ => p.go (.stopping .returned)⟩
    | _ => none
  | .idle =>
    if p.watched ∧ (p.phase = .waiting ∨ p.phase = .halfClosed) then
      some (.quiet { p with idle := true })
    else none
  | .wake => p.wake.map .quiet
  | .reset sent =>
    if p.phase = .resetting then some ⟨some (.reset r sent), fun _ => p.go .closing⟩ else none
  | .close =>
    if p.phase = .closing then
      some ⟨some (.close r), fun _ => { p.go .finished with socket := p.socket.close }⟩
    else none
  | .cancel => p.cancel r

end Relay

/-! ### The relay at work -/

/-- What an agent has sent on a stream: the bytes before its EOF frame. -/
structure Heard where
  data : Bytes
  ended : Bool
  deriving DecidableEq, Repr

namespace Heard

def new : Heard := ⟨[], false⟩

def hear (l : Heard) (sid : StreamId) : Option Frame → Heard
  | some ⟨.data, sid', payload⟩ =>
    if sid' = sid ∧ l.ended = false then { l with data := l.data ++ payload } else l
  | some ⟨.eof, sid', _⟩ => if sid' = sid then { l with ended := true } else l
  | _ => l

/-- What an action on the connection adds. -/
def after (l : Heard) (sid : StreamId) : Action → Heard
  | .message msg => l.hear sid msg.frame
  | _ => l

end Heard

/-- A visitor's stream: its connection, its object, its relay, and what the agent has
sent on it, which is history. -/
structure Visit where
  conn : Nat
  ref : Ref
  relay : Relay
  heard : Heard

/-- A relay server with the visitors it serves. -/
structure Traffic where
  server : RelayServer
  visits : List Visit

namespace Traffic

inductive Action
  | register (accountId : String) (flowWindow : FlowWindow) (maxBufferedBytes : Option Int)
  | setBudget (i : Nat) (maxBufferedBytes : Option Int)
  /-- Something happens to a connection that no caller of it does. -/
  | connection (i : Nat) (a : Chute.Action)
  /-- A visitor's handler calls `mux.open`. -/
  | visit (i : Nat) (initial : Bytes) (canWriteEof watched : Bool) (sent : Bool)
  | relay (k : Nat) (a : Relay.Action)

def new : Traffic := ⟨.new, []⟩

/-- No coroutine of a visitor takes the step. -/
def unattended : Chute.Action → Bool
  | .message _ | .connectionLost | .runTask _ _ | .goaway _ | .rearmIdle | .writeStall
  | .closeStall => true
  | _ => false

/-- The visits of a connection hear what arrives on it. -/
def hear (i : Nat) (a : Chute.Action) (v : Visit) : Visit :=
  if v.conn = i then { v with heard := v.heard.after v.ref.sid a } else v

/-- A call on a connection, with the result its caller gets. -/
def perform (server : RelayServer) (i : Nat) (a : Chute.Action) : Option (RelayServer × Result) :=
  (server.registrations[i]?).bind fun reg =>
    ((server.host reg).step a).bind fun e =>
      (server.step (.act i a)).map fun server => (server, e.result)

def step (s : Traffic) : Action → Option Traffic
  | .register accountId flowWindow limit =>
    (s.server.step (.register accountId (.server flowWindow) limit)).map fun server =>
      { s with server := server }
  | .setBudget i limit =>
    (s.server.step (.setBudget i limit)).map fun server => { s with server := server }
  | .connection i a =>
    if unattended a then
      (s.server.step (.act i a)).map fun server => ⟨server, s.visits.map (hear i a)⟩
    else none
  | .visit i initial canWriteEof watched sent =>
    (s.server.registrations[i]?).bind fun reg =>
      (perform s.server i (.openStream sent)).map fun (server, res) =>
        if res = .suspended then
          let sid := UInt32.ofNat reg.mux.nextId
          let v : Visit :=
            ⟨i, ⟨sid, reg.mux.made sid⟩, .new initial canWriteEof watched, .new⟩
          ⟨server, s.visits ++ [v]⟩
        else { s with server := server }
  | .relay k a =>
    (s.visits[k]?).bind fun v =>
      (s.server.registrations[v.conn]?).bind fun reg =>
        (v.relay.turn reg.mux v.ref a).bind fun t =>
          match t.call with
          | none => some { s with visits := s.visits.set k { v with relay := t.next .returned } }
          | some call =>
            (perform s.server v.conn call).map fun (server, res) =>
              ⟨server, s.visits.set k { v with relay := t.next res }⟩

end Traffic

end Chute
