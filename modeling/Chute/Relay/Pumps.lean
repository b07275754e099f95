import Chute.Mux.Steps

/-!
# The pumps between a socket and a stream

`_relay.py`. Both programs copy what a socket reads into a stream with one coroutine and
what the stream reads into the socket with another. A `Turn` is what a coroutine does
from one `await` to the next: at most one call on its stream, and what becomes of it by
the result of the call.
-/
namespace Chute

/-- `_PUMP_CHUNK_SIZE` -/
def pumpChunkSize : Nat := 64 * 1024

/-! ### Sockets -/

/-- How our direction of a socket came to its end. -/
inductive SocketEnd
  /-- `write_eof` or `close`: the peer reads an end of file. -/
  | fin
  /-- `abort`: the peer sees a reset. -/
  | rst
  /-- The peer took the connection away. -/
  | lost
  deriving DecidableEq, Repr

/-- A `StreamReader` and a `StreamWriter` over one transport. -/
structure Socket where
  /-- Everything the peer has sent so far. -/
  arrived : Bytes
  /-- The part of it that is still in the reader. -/
  unread : Bytes
  /-- The peer has ended its direction. -/
  peerEnded : Bool
  /-- `feed_eof` was called on the reader. -/
  atEof : Bool
  /-- `set_exception` was called on the reader. -/
  broken : Bool
  /-- `can_write_eof()`; false with TLS. -/
  canWriteEof : Bool
  written : Bytes
  ended : Option SocketEnd
  /-- The transport is closing. -/
  closing : Bool
  deriving DecidableEq, Repr

namespace Socket

def new (canWriteEof : Bool) : Socket :=
  ⟨[], [], false, false, false, canWriteEof, [], none, false⟩

/-- `writer.write`; a transport that is closing drops the data. -/
def write (k : Socket) (data : Bytes) : Socket :=
  if k.ended = none then { k with written := k.written ++ data } else k

/-- `writer.write_eof`, with its exceptions suppressed. -/
def writeEof (k : Socket) : Socket := { k with ended := k.ended.or (some .fin) }

/-- `_safe_close` -/
def close (k : Socket) : Socket := { k with ended := k.ended.or (some .fin), closing := true }

/-- `_safe_abort` -/
def abort (k : Socket) : Socket := { k with ended := k.ended.or (some .rst), closing := true }

/-- What `_pump_stream_to_writer` does when `read` has returned `None`. -/
def finish (k : Socket) (resetByPeer : Bool) : Socket :=
  if resetByPeer then k.abort else if k.canWriteEof then k.writeEof else k.close

/-- What the event loop does to a socket. -/
inductive Event
  | arrive (data : Bytes)
  | peerEof
  | peerReset
  /-- `connection_lost` after our own `close` or `abort`. -/
  | dropped
  deriving DecidableEq, Repr

def event (k : Socket) : Event → Option Socket
  | .arrive data =>
    if k.atEof || k.broken || k.closing then none
    else some { k with arrived := k.arrived ++ data, unread := k.unread ++ data }
  | .peerEof =>
    if k.atEof || k.broken || k.closing then none
    -- a TLS transport closes itself when its peer is done
    else if k.canWriteEof then some { k with peerEnded := true, atEof := true }
    else
      some { k with
        peerEnded := true
        atEof := true
        ended := k.ended.or (some .lost)
        closing := true }
  | .peerReset => some { k with broken := true, ended := k.ended.or (some .lost), closing := true }
  | .dropped => if k.closing && !k.broken then some { k with atEof := true } else none

end Socket

/-! ### Coroutines -/

/-- What a coroutine does between two `await`s. -/
structure Turn (σ : Type) where
  call : Option Action
  next : Result → σ

namespace Turn

variable {σ τ : Type}

/-- A turn without a call. -/
def quiet (next : σ) : Turn σ := ⟨none, fun _ => next⟩

def map (f : σ → τ) (t : Turn σ) : Turn τ := ⟨t.call, fun res => f (t.next res)⟩

end Turn

/-- How a task ended. -/
inductive Outcome
  | returned
  | raised
  | cancelled
  deriving DecidableEq, Repr

/-! ### `_pump_reader_to_stream` -/

/-- Where `_pump_reader_to_stream` is suspended. -/
inductive ReaderPump
  | reading
  | throttling (data : Bytes)
  /-- `send` waits for `_send_lock`. -/
  | queued (data : Bytes)
  /-- `send` has the lock. -/
  | sending
  /-- `send_eof` waits for the lock. -/
  | ending
  /-- `send_eof` has the lock. -/
  | ended
  | done (o : Outcome)
  deriving DecidableEq, Repr

namespace ReaderPump

inductive Action
  | read
  | throttled (ok : Bool)
  /-- The lock is taken. -/
  | start (sent : Bool)
  | resume (sent : Bool)
  /-- The peer grants no credit for `_CREDIT_STALL_TIMEOUT`. -/
  | stall
  /-- `_mux._send` raises. -/
  | fail
  | cancel
  deriving DecidableEq, Repr

/-- After a segment of `send`. -/
def afterSend : Result → ReaderPump
  | .returned => .reading
  | .suspended => .sending
  | _ => .done .raised

/-- After a segment of `send_eof`. -/
def afterEof : Result → ReaderPump
  | .returned => .done .returned
  | .suspended => .ended
  | _ => .done .raised

def turn (r : Ref) (throttle : Bool) (k : Socket) :
    ReaderPump → Action → Option (Turn (Socket × ReaderPump))
  | .reading, .read =>
    if k.broken then some (.quiet (k, .done .raised))
    else if k.unread ≠ [] then
      let data := k.unread.take pumpChunkSize
      some (.quiet ({ k with unread := k.unread.drop pumpChunkSize },
        if throttle then .throttling data else .queued data))
    else if k.atEof then some (.quiet (k, .ending))
    else none
  | .throttling data, .throttled ok =>
    some (.quiet (k, if ok then .queued data else .done .raised))
  | .queued data, .start sent => some ⟨some (.send r data sent), fun res => (k, afterSend res)⟩
  | .sending, .resume sent => some ⟨some (.sendResume r sent), fun res => (k, afterSend res)⟩
  | .sending, .stall => some ⟨some (.sendTimeout r), fun _ => (k, .done .raised)⟩
  | .sending, .fail => some ⟨some (.sendRaise r), fun _ => (k, .done .raised)⟩
  | .ending, .start sent => some ⟨some (.sendEof r sent), fun res => (k, afterEof res)⟩
  | .ended, .resume sent => some ⟨some (.sendResume r sent), fun res => (k, afterEof res)⟩
  | .ended, .fail => some ⟨some (.sendRaise r), fun _ => (k, .done .raised)⟩
  -- a cancelled call gives the lock back
  | .sending, .cancel => some ⟨some (.sendRaise r), fun _ => (k, .done .cancelled)⟩
  | .ended, .cancel => some ⟨some (.sendRaise r), fun _ => (k, .done .cancelled)⟩
  | .done _, .cancel => none
  | _, .cancel => some (.quiet (k, .done .cancelled))
  | _, _ => none

def isDone : ReaderPump → Bool
  | .done _ => true
  | _ => false

theorem turn_target {r : Ref} {throttle : Bool} {k : Socket} {pump : ReaderPump}
    {a : ReaderPump.Action} {t : Turn (Socket × ReaderPump)}
    (took : pump.turn r throttle k a = some t) {call : Chute.Action} (calls : t.call = some call) :
    call.target = some r ∧ call ≠ .read r := by
  unfold ReaderPump.turn at took
  split at took
  all_goals (repeat' split at took)
  all_goals cases took
  all_goals cases calls
  all_goals exact ⟨rfl, by simp⟩

/-- The reader pump writes nothing to the socket. -/
theorem turn_socket {r : Ref} {throttle : Bool} {k : Socket} {pump : ReaderPump}
    {a : ReaderPump.Action} {t : Turn (Socket × ReaderPump)}
    (took : pump.turn r throttle k a = some t) (res : Result) :
    (t.next res).1.written = k.written ∧ (t.next res).1.ended = k.ended := by
  unfold ReaderPump.turn at took
  split at took
  all_goals (repeat' split at took)
  all_goals cases took
  all_goals exact ⟨rfl, rfl⟩

end ReaderPump

/-! ### `_pump_stream_to_writer` -/

/-- Where `_pump_stream_to_writer` is suspended. -/
inductive WriterPump
  | reading
  | throttling (chunk : Bytes)
  /-- A chunk of this length was written and is being drained. -/
  | draining (n : Nat)
  /-- The pump has ended; `dropped` was read and never written. -/
  | done (o : Outcome) (dropped : Bytes)
  deriving DecidableEq, Repr

namespace WriterPump

inductive Action
  | read
  | throttled (ok : Bool)
  /-- `drain` returned; the `ack` that follows may hand a frame to `_mux._send`. -/
  | drained (sent : Bool)
  /-- `drain` raised, or `_DRAIN_TIMEOUT` ran out. -/
  | stuck
  | cancel
  deriving DecidableEq, Repr

def turn (r : Ref) (throttle resetByPeer : Bool) (k : Socket) :
    WriterPump → Action → Option (Turn (Socket × WriterPump))
  | .reading, .read =>
    some ⟨some (.read r), fun res =>
      match res with
      | .chunk (some chunk) =>
        if throttle then (k, .throttling chunk) else (k.write chunk, .draining chunk.length)
      | .chunk none => (k.finish resetByPeer, .done .returned [])
      | _ => (k, .reading)⟩
  | .throttling chunk, .throttled ok =>
    some (.quiet (if ok then (k.write chunk, .draining chunk.length) else (k, .done .raised chunk)))
  | .draining n, .drained sent => some ⟨some (.ack r n sent), fun _ => (k, .reading)⟩
  | .draining _, .stuck => some (.quiet (k, .done .raised []))
  | .reading, .cancel => some (.quiet (k, .done .cancelled []))
  | .throttling chunk, .cancel => some (.quiet (k, .done .cancelled chunk))
  | .draining _, .cancel => some (.quiet (k, .done .cancelled []))
  | _, _ => none

def isDone : WriterPump → Bool
  | .done _ _ => true
  | _ => false

/-- What was read from the stream and not written to the socket. -/
def held : WriterPump → Bytes
  | .throttling chunk => chunk
  | .done _ dropped => dropped
  | _ => []

theorem turn_target {r : Ref} {throttle reset : Bool} {k : Socket} {pump : WriterPump}
    {a : WriterPump.Action} {t : Turn (Socket × WriterPump)}
    (took : pump.turn r throttle reset k a = some t) {call : Chute.Action} (calls : t.call = some call) :
    call.target = some r := by
  unfold WriterPump.turn at took
  split at took
  all_goals cases took
  all_goals cases calls
  all_goals rfl

theorem turn_running {r : Ref} {throttle reset : Bool} {k : Socket} {pump : WriterPump}
    {a : WriterPump.Action} {t : Turn (Socket × WriterPump)}
    (took : pump.turn r throttle reset k a = some t) : pump.isDone = false := by
  cases pump with
  | done o dropped => cases a <;> cases took
  | _ => rfl

end WriterPump

/-- What a turn adds to the bytes that were taken for a socket: nothing is dropped or
reordered while the socket is open, and nothing is written once it is not. -/
structure Socket.Wrote (k : Socket) (before extra : Bytes) (k' : Socket) (after : Bytes) : Prop where
  ended : k'.ended = k.ended
  going : k.ended = none → k'.written ++ after = k.written ++ before ++ extra
  still : k.ended ≠ none → k'.written = k.written

theorem Socket.wrote_write (k : Socket) (chunk : Bytes) : k.Wrote chunk [] (k.write chunk) [] := by
  unfold Socket.write
  split
  next open_ => exact ⟨rfl, fun _ => by simp, fun shut => absurd open_ shut⟩
  next shut => exact ⟨rfl, fun open_ => absurd open_ shut, fun _ => rfl⟩

namespace WriterPump

/-- The turns of the writer pump, by what they do to the socket. -/
theorem turn_cases {r : Ref} {throttle reset : Bool} {k : Socket} {pump : WriterPump}
    {a : WriterPump.Action} {t : Turn (Socket × WriterPump)}
    (took : pump.turn r throttle reset k a = some t) :
    (pump = .reading ∧ t.call = some (.read r) ∧
      (∀ chunk, k.Wrote [] chunk (t.next (.chunk (some chunk))).1 (t.next (.chunk (some chunk))).2.held) ∧
      t.next (.chunk none) = (k.finish reset, .done .returned [])) ∨
    (t.call ≠ some (.read r) ∧
      ∀ res, k.Wrote pump.held [] (t.next res).1 (t.next res).2.held) := by
  have still : ∀ held, k.Wrote held [] k held := fun held =>
    ⟨rfl, fun _ => by simp, fun _ => rfl⟩
  unfold WriterPump.turn at took
  split at took
  all_goals cases took
  · -- the chunk goes to the throttle, or to the socket at once
    refine Or.inl ⟨rfl, rfl, fun chunk => ?_, rfl⟩
    simp only
    split
    · exact ⟨rfl, fun _ => by simp [held], fun _ => rfl⟩
    · have wrote := k.wrote_write chunk
      exact ⟨wrote.ended, fun open_ => by simpa [held] using wrote.going open_, wrote.still⟩
  · refine Or.inr ⟨by simp [Turn.quiet], fun res => ?_⟩
    simp only [Turn.quiet]
    split
    · exact k.wrote_write _
    · exact still _
  · exact Or.inr ⟨by simp, fun res => still _⟩
  all_goals exact Or.inr ⟨by simp [Turn.quiet], fun res => still _⟩

end WriterPump

end Chute
