import Chute.Relay.Visit

/-!
# The agent's end of a stream

`Tunnel._handle_stream`: for each stream that the relay opens, a connection to the local app and
the two pumps between them, in one task group. `_run_on_open` has spawned it, and cancels it when
the connection to the relay is lost.
-/
namespace Chute

/-- Where `_handle_stream` is suspended. -/
inductive HandlerPhase
  /-- In `open_connection`. -/
  | connecting
  /-- In the task group. -/
  | pumping
  /-- The group cancels the pump that is left, or both. -/
  | aborting
  | resetting
  /-- The `finally`. -/
  | closing
  | finished
  deriving DecidableEq, Repr

structure Handler where
  phase : HandlerPhase
  /-- The connection to the local app. -/
  socket : Option Socket
  reader : Option ReaderPump
  writer : Option WriterPump
  deriving DecidableEq, Repr

namespace ReaderPump

def raised : ReaderPump → Bool
  | .done .raised => true
  | _ => false

end ReaderPump

namespace WriterPump

def raised : WriterPump → Bool
  | .done .raised _ => true
  | _ => false

end WriterPump

namespace Handler

def new : Handler := ⟨.connecting, none, none, none⟩

inductive Action
  | connected
  /-- `open_connection` raised an `OSError`, or `_LOCAL_CONNECT_TIMEOUT` ran out. -/
  | unreachable
  /-- It raised something else. -/
  | failed
  | socket (e : Socket.Event)
  | reader (a : ReaderPump.Action)
  | writer (a : WriterPump.Action)
  /-- The task group sees a pump that raised, or that both have ended. -/
  | wake
  | reset (sent : Bool)
  | close
  | cancel
  deriving DecidableEq, Repr

def go (p : Handler) (phase : HandlerPhase) : Handler := { p with phase := phase }

/-- The local app has accepted; a plain socket can be closed by halves. -/
def connect (p : Handler) : Handler :=
  { p with
    phase := .pumping
    socket := some (.new true)
    reader := some .reading
    writer := some .reading }

def settled (p : Handler) : Bool :=
  p.reader.all ReaderPump.isDone && p.writer.all WriterPump.isDone

/-- A pump raised, so the group raises and the stream is reset. -/
def broken (p : Handler) : Bool :=
  p.reader.any ReaderPump.raised || p.writer.any WriterPump.raised

def wake (p : Handler) : Option Handler :=
  match p.phase with
  | .pumping =>
    if p.settled then some (p.go (if p.broken then .resetting else .closing))
    else if p.broken then some (p.go .aborting)
    else none
  | .aborting => if p.settled then some (p.go (if p.broken then .resetting else .closing)) else none
  | _ => none

def cancel (p : Handler) : Option Handler :=
  match p.phase with
  | .connecting => some (p.go .closing)
  | .pumping => some (p.go .aborting)
  | _ => none

/-- One turn of `_handle_stream` or of one of its pumps on the stream `r` of `m`. -/
def turn (m : Mux) (r : Ref) (p : Handler) : Action → Option (Turn Handler)
  | .connected => if p.phase = .connecting then some (.quiet p.connect) else none
  | .unreachable => if p.phase = .connecting then some (.quiet (p.go .resetting)) else none
  | .failed => if p.phase = .connecting then some (.quiet (p.go .closing)) else none
  | .socket e =>
    -- the `reset` that an overflow spawned was queued before any `connection_lost`
    if e = .dropped ∧ Task.reset r ∈ m.tasks then none
    else p.socket.bind fun k =>
      (k.event e).map fun k => .quiet { p with socket := some k }
  | .reader a =>
    if a = .cancel ∧ p.phase ≠ .aborting then none
    else p.socket.bind fun k => p.reader.bind fun pump =>
      (pump.turn r false k a).map fun t =>
        t.map fun out => { p with socket := some out.1, reader := some out.2 }
  | .writer a =>
    if a = .cancel ∧ p.phase ≠ .aborting then none
    else p.socket.bind fun k => p.writer.bind fun pump =>
      (pump.turn r false ((m.heap r).any Stream.resetByPeer) k a).map fun t =>
        t.map fun out => { p with socket := some out.1, writer := some out.2 }
  | .wake => p.wake.map .quiet
  | .reset sent =>
    if p.phase = .resetting then some ⟨some (.reset r sent), fun _ => p.go .closing⟩ else none
  | .close =>
    if p.phase = .closing then
      some ⟨some (.close r), fun _ => { p.go .finished with socket := p.socket.map Socket.close }⟩
    else none
  | .cancel => p.cancel.map .quiet

end Handler

end Chute
