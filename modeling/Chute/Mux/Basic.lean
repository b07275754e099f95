import Mathlib.Data.List.AList
import Mathlib.Data.Finset.Basic
import Mathlib.Data.Finset.Card
import Chute.Protocol

/-!
# Streams and the multiplexer

The data model of `mux.py`. A coroutine runs without interruption from one
`await` to the next, so a method is modelled as one function for each such
segment; what a suspended call keeps on its stack is a value of `Sender` or
`Task`.

A `Stream` object outlives its entry in the registry (a pump may still hold it),
so objects live in a heap and the registry maps a stream id to one of them.
-/
namespace Chute

/-! ### Limits -/

/-- `_MAX_FLOW_WINDOW` -/
def maxFlowWindow : Nat := 16 * 1024 * 1024

/-- `_FLOW_WINDOW` -/
def defaultFlowWindow : Nat := 256 * 1024

/-- `_MAX_FRAME_PAYLOAD` -/
def maxFramePayload : Nat := 256 * 1024 - 5

/-- `_MAX_SEND_WINDOW` -/
def maxSendWindow : Int := 2 ^ 31 - 1

/-- `_MAX_STREAMS` -/
def maxStreams : Nat := 4096

/-- `_MAX_CONN_BUFFERED` -/
def maxConnBuffered : Int := 64 * 1024 * 1024

/-- `_MAX_CONN_FRAMES` -/
def maxConnFrames : Int := 1048576

/-- `_MAX_IGNORED_FRAMES` -/
def maxIgnoredFrames : Nat := 65536

/-- A flow window that `validate_flow_window` lets through. -/
structure FlowWindow where
  val : Nat
  one_le : 1 ≤ val
  le_max : val ≤ maxFlowWindow

def FlowWindow.default : FlowWindow := ⟨defaultFlowWindow, by decide, by decide⟩

/-- The Python values that reach the checks modelled here. -/
inductive PyValue
  | none
  | bool (b : Bool)
  | int (n : Int)
  | str (s : String)
  | other
  deriving DecidableEq, Repr

/-- `validate_flow_window`; the error is the text of the `ValueError`. -/
def validateFlowWindow (value : PyValue) (name : String) : Except String FlowWindow :=
  match value with
  | .int n =>
    if low : n < 1 then .error (name ++ " must be >= 1 byte")
    else if high : n > maxFlowWindow then
      .error (name ++ " must be <= " ++ toString maxFlowWindow ++ " bytes")
    else .ok ⟨n.toNat, by omega, by omega⟩
  | _ => .error (name ++ " must be an integer byte count")

/-- What the `Mux` constructor fixes for the life of the connection. -/
structure Config where
  flowWindow : FlowWindow
  maxStreams : Nat
  /-- `on_open is not None`: the responder side, which accepts OPEN. -/
  acceptsOpen : Bool
  /-- `buffer_reserve` and `buffer_release` were given. -/
  budgeted : Bool

namespace Config

def window (c : Config) : Nat := c.flowWindow.val

def windowUpdateThreshold (c : Config) : Nat := max 1 (c.window / 2)

def streamHardMax (c : Config) : Nat := 2 * c.window

def maxQueuedFrames (c : Config) : Nat := c.window

/-- The multiplexer that the relay builds for an agent's connection. -/
def server (w : FlowWindow) : Config := ⟨w, Chute.maxStreams, false, true⟩

/-- The multiplexer that the agent builds. -/
def agent (w : FlowWindow) : Config := ⟨w, Chute.maxStreams, true, false⟩

end Config

/-! ### Streams -/

/-- `_RecvState` -/
inductive RecvState
  | open_
  | eof
  | reset
  deriving DecidableEq, Repr

/-- A `send` or `send_eof` call that holds `_send_lock` and is suspended. `sent`
tells whether the frame it handed to `_mux._send` gets onto the connection: a
call that is cancelled or raises may have left its frame behind or not. -/
inductive Sender
  | credit (view : Bytes)
  | data (rest : Bytes) (sent : Bool)
  | eof (sent : Bool)
  deriving DecidableEq, Repr

structure Stream where
  incoming : List (Option Bytes)
  recv : RecvState
  recvBuffered : Int
  recvFrames : Int
  unacked : Nat
  sendWindow : Int
  sendEnded : Bool
  /-- The holder of `_send_lock`, if the lock is taken. -/
  sender : Option Sender
  windowWaiter : Bool
  closed : Bool
  deriving DecidableEq, Repr

/-- What a call hands back to its caller when it stops running. -/
inductive Result
  | suspended
  | returned
  | raised
  | chunk (c : Option Bytes)
  deriving DecidableEq, Repr

namespace Stream

/-- `Stream.__init__` -/
def new (c : Config) : Stream where
  incoming := []
  recv := .open_
  recvBuffered := 0
  recvFrames := 0
  unacked := 0
  sendWindow := c.window
  sendEnded := false
  sender := none
  windowWaiter := false
  closed := false

def resetByPeer (s : Stream) : Bool := s.recv == .reset

def sendDone (s : Stream) : Bool := s.closed || s.sendEnded

/-- The tail of the loop body of `send`: cut one chunk and hand it to `_send`. -/
def sendChunk (s : Stream) (view : Bytes) (sent : Bool) : Stream × Option Bytes × Result :=
  if s.sendDone then ({ s with sender := none }, none, .raised)
  else
    let n := min (min view.length s.sendWindow.toNat) maxFramePayload
    ({ s with sendWindow := s.sendWindow - n, sender := some (.data (view.drop n) sent) },
      some (view.take n), .suspended)

/-- `send` from the head of its `while len(view)` loop to the next `await`. The
middle component is the DATA payload handed to `_send`. -/
def sendLoop (s : Stream) (view : Bytes) (sent : Bool) : Stream × Option Bytes × Result :=
  if view = [] then ({ s with sender := none }, none, .returned)
  else if s.sendWindow ≤ 0 then
    if s.sendDone then ({ s with sender := none }, none, .raised)
    else
      let s := { s with windowWaiter := false }
      -- nothing can run between the clear and this recheck, so it never breaks
      if s.sendWindow > 0 || s.sendDone then s.sendChunk view sent
      else ({ s with sender := some (.credit view) }, none, .suspended)
  else s.sendChunk view sent

/-- `send`, once it has the lock. -/
def sendStart (s : Stream) (data : Bytes) (sent : Bool) : Stream × Option Bytes × Result :=
  if s.sendDone then (s, none, .raised) else s.sendLoop data sent

/-- `_grant` -/
def grant (s : Stream) (delta : Nat) : Stream :=
  { s with sendWindow := min (s.sendWindow + delta) maxSendWindow, windowWaiter := true }

/-- `_end_recv` -/
def endRecv (s : Stream) (state : RecvState) : Stream :=
  if s.recv = .open_ then { s with recv := state, incoming := s.incoming ++ [none] } else s

/-- `_feed_eof` -/
def feedEof (s : Stream) : Stream := s.endRecv .eof

end Stream

/-! ### The multiplexer -/

/-- A `Stream` object: its id, and how many objects with this id the connection
had before it. -/
structure Ref where
  sid : StreamId
  gen : Nat
  deriving DecidableEq, Repr

/-- Coroutines started by `_spawn`: a `Stream.reset` and the `_send_once` of
`_send_reset`, before and after its RESET went out. -/
inductive Task
  | reset (r : Ref)
  | sendOnce (sid : StreamId)
  | sendOnceSent (sid : StreamId)
  deriving DecidableEq, Repr

structure Stats where
  opened : Nat
  resetLocal : Nat
  resetPeer : Nat
  creditStall : Nat
  writeStall : Nat
  closeStall : Nat
  goawayIn : Nat
  ignoredFrames : Nat
  ignoredFrameLimit : Nat
  deriving DecidableEq, Repr

structure Mux where
  config : Config
  heap : Ref → Option Stream
  /-- How many objects with a given id were built so far. -/
  made : StreamId → Nat
  /-- `_streams`: the id of a registered stream and the number of its object. -/
  streams : AList (fun _ : StreamId => Nat)
  nextId : Nat
  /-- `open` calls whose OPEN is still with `_send`. -/
  opening : List (Ref × Bool)
  tasks : List Task
  resetSends : Finset StreamId
  buffered : Int
  frames : Int
  goingAway : Bool
  peerGoingAway : Bool
  idle : Bool
  stats : Stats
  /-- `run` has not reached its `finally`. -/
  running : Bool
  /-- `_ws.transport.abort()` was called. -/
  transportAborted : Bool

namespace Mux

/-- `Mux.__init__` -/
def new (c : Config) : Mux where
  config := c
  heap := fun _ => none
  made := fun _ => 0
  streams := ∅
  nextId := 1
  opening := []
  tasks := []
  resetSends := ∅
  buffered := 0
  frames := 0
  goingAway := false
  peerGoingAway := false
  idle := false
  stats := ⟨0, 0, 0, 0, 0, 0, 0, 0, 0⟩
  running := true
  transportAborted := false

def setStream (m : Mux) (r : Ref) (s : Stream) : Mux :=
  { m with heap := Function.update m.heap r (some s) }

/-- `len(self._streams)` -/
def activeStreams (m : Mux) : Nat := m.streams.entries.length

/-- `self._streams.get(sid)` -/
def registered (m : Mux) (sid : StreamId) : Option Ref :=
  (m.streams.lookup sid).map (Ref.mk sid)

/-- `stream = Stream(self, sid); self._streams[sid] = stream` -/
def register (m : Mux) (sid : StreamId) : Mux :=
  { m.setStream ⟨sid, m.made sid⟩ (Stream.new m.config) with
    made := Function.update m.made sid (m.made sid + 1)
    streams := m.streams.insert sid (m.made sid) }

/-- `_remove` -/
def remove (m : Mux) (sid : StreamId) : Mux :=
  { m with
    streams := m.streams.erase sid
    idle := m.idle || (m.streams.erase sid).entries.isEmpty }

def spawn (m : Mux) (t : Task) : Mux := { m with tasks := m.tasks ++ [t] }

/-- `_send_reset` -/
def sendReset (m : Mux) (sid : StreamId) : Mux :=
  if sid = 0 ∨ sid ∈ m.resetSends then m
  else if m.resetSends.card ≥ m.config.maxStreams then m
  else { m with resetSends := insert sid m.resetSends }.spawn (.sendOnce sid)

/-- A stream object a caller can hold: `open` has handed it out, or a peer's OPEN
made it. -/
def held (m : Mux) (r : Ref) : Option Stream :=
  if m.opening.any (fun e => e.1 == r) then none else m.heap r

def draining (m : Mux) : Bool := m.goingAway || m.peerGoingAway

end Mux

/-! ### The account slot behind the buffer callbacks -/

/-- What the buffer callbacks of a relay mux see of its account: the bytes booked
in `_account_buffered` and the `max_buffered_bytes` in force. -/
structure Account where
  buffered : Int
  maxBufferedBytes : Option Int
  deriving DecidableEq, Repr

namespace Account

/-- `_try_reserve_account_buffer`, for a positive `n`. -/
def tryReserve (a : Account) (n : Int) : Bool × Account :=
  match a.maxBufferedBytes with
  | some limit =>
    if limit < 0 ∨ a.buffered + n > limit then (false, a)
    else (true, { a with buffered := a.buffered + n })
  | none => (true, { a with buffered := a.buffered + n })

/-- `_release_account_buffer`, for a positive `n`; the entry is dropped from the
map, and so reads as 0, once nothing is left. -/
def release (a : Account) (n : Int) : Account :=
  if a.buffered ≤ n then { a with buffered := 0 } else { a with buffered := a.buffered - n }

end Account

/-- A multiplexer with the account slot its callbacks work on. -/
structure Host where
  mux : Mux
  account : Account

namespace Host

def setStream (h : Host) (r : Ref) (s : Stream) : Host :=
  { h with mux := h.mux.setStream r s }

/-- `_reserve_buffer` -/
def reserveBuffer (h : Host) (n : Int) : Bool × Host :=
  if n ≤ 0 ∨ h.mux.config.budgeted = false then (true, h)
  else ((h.account.tryReserve n).1, { h with account := (h.account.tryReserve n).2 })

/-- `_release_buffer` -/
def releaseBuffer (h : Host) (n : Int) : Host :=
  if n ≤ 0 ∨ h.mux.config.budgeted = false then h
  else { h with account := h.account.release n }

/-- `_close_local` -/
def closeLocal (h : Host) (r : Ref) (terminal : RecvState) : Host :=
  match h.mux.heap r with
  | none => h
  | some s =>
    if s.closed then h
    else
      let mux :=
        { h.mux with
          buffered := h.mux.buffered - s.recvBuffered
          frames := h.mux.frames - s.recvFrames }
      let h := { h with mux := mux }.releaseBuffer s.recvBuffered
      let s :=
        { s with closed := true, windowWaiter := true, recvBuffered := 0, recvFrames := 0 }
      let h := h.setStream r (s.endRecv terminal)
      { h with mux := h.mux.remove r.sid }

/-- `_reset_local_now`; the flag is its return value. -/
def resetLocalNow (h : Host) (r : Ref) : Host × Bool :=
  match h.mux.heap r with
  | none => (h, false)
  | some s =>
    let closed := h.closeLocal r .reset
    if s.closed then (closed, false)
    else
      let stats := { closed.mux.stats with resetLocal := closed.mux.stats.resetLocal + 1 }
      ({ closed with mux := { closed.mux with stats := stats } }, true)

/-- The `detail` of a `stream_buffer_limit` event. -/
inductive Limit
  | streamBytes
  | streamFrames
  | connectionBytes
  | connectionFrames
  | accountBuffer
  deriving DecidableEq, Repr

/-- The backstop chain of `_feed`; the last test books the bytes. -/
def feedLimit (h : Host) (s : Stream) (data : Bytes) : Option Limit × Host :=
  if s.recvBuffered + data.length > h.mux.config.streamHardMax then (some .streamBytes, h)
  else if s.recvFrames + 1 > h.mux.config.maxQueuedFrames then (some .streamFrames, h)
  else if h.mux.buffered + data.length > maxConnBuffered then (some .connectionBytes, h)
  else if h.mux.frames + 1 > maxConnFrames then (some .connectionFrames, h)
  else
    match h.reserveBuffer data.length with
    | (true, h) => (none, h)
    | (false, h) => (some .accountBuffer, h)

/-- `_feed` -/
def feed (h : Host) (r : Ref) (s : Stream) (data : Bytes) : Host :=
  if s.recv ≠ .open_ then h
  else if data = [] then h
  else
    match h.feedLimit s data with
    | (some _, h) =>
      let h := h.setStream r (s.endRecv .reset)
      { h with mux := h.mux.spawn (.reset r) }
    | (none, h) =>
      let s :=
        { s with
          incoming := s.incoming ++ [some data]
          recvBuffered := s.recvBuffered + data.length
          recvFrames := s.recvFrames + 1 }
      let h := h.setStream r s
      { h with mux := { h.mux with
          buffered := h.mux.buffered + data.length
          frames := h.mux.frames + 1 } }

end Host

end Chute
