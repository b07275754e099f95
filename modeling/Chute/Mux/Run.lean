import Chute.Mux.Basic

/-!
# The demultiplexer loop and the steps of a connection

`Host.onMessage` is one turn of the loop in `Mux.run`. `Host.step` lists what can
happen to one end of a connection: a message arrives, the connection is lost, one
of the coroutines runs from an `await` to the next, or a caller makes a call.
Every local call is open to every caller at any time.
-/
namespace Chute

/-- What `async for message in self._ws` yields. -/
inductive Message
  | text (s : String)
  | binary (bytes : Bytes)
  deriving DecidableEq, Repr

namespace Host

def updateMux (h : Host) (f : Mux → Mux) : Host := { h with mux := f h.mux }

/-- The `finally` of `Mux.run`: abort what is still registered, cancel the spawned
coroutines. A `_send_once` that was past its first step still gets to forget its id. -/
def finish (h : Host) : Host :=
  let h := h.mux.streams.entries.foldl (fun h e => h.closeLocal ⟨e.1, e.2⟩ .reset) h
  h.updateMux fun m =>
    { m with
      streams := ∅
      resetSends := m.resetSends.filter fun sid => Task.sendOnceSent sid ∉ m.tasks
      tasks := []
      running := false }

/-- `_ignore_frame`, and the `break` out of the loop when it returns true. -/
def ignoreFrame (h : Host) : Host :=
  let stats := { h.mux.stats with ignoredFrames := h.mux.stats.ignoredFrames + 1 }
  if stats.ignoredFrames < maxIgnoredFrames then h.updateMux fun m => { m with stats := stats }
  else
    let stats := { stats with ignoredFrameLimit := stats.ignoredFrameLimit + 1 }
    (h.updateMux fun m => { m with stats := stats, transportAborted := true }).finish

/-- `if s._reset_local_now(): self._send_reset(sid)` -/
def resetMalformed (h : Host) (r : Ref) : Host :=
  match h.resetLocalNow r with
  | (h, true) => h.updateMux fun m => m.sendReset r.sid
  | (h, false) => h

def onOpen (h : Host) (sid : StreamId) (payload : Bytes) : Host :=
  if sid = 0 then h.ignoreFrame
  else if payload ≠ [] then
    if h.mux.config.acceptsOpen then h.updateMux fun m => m.sendReset sid
    else h.ignoreFrame
  else if h.mux.config.acceptsOpen = false then h.ignoreFrame
  else if h.mux.draining then h.updateMux fun m => m.sendReset sid
  else if (h.mux.registered sid).isSome then h.updateMux fun m => m.sendReset sid
  else if h.mux.activeStreams ≥ h.mux.config.maxStreams then
    h.updateMux fun m => m.sendReset sid
  else
    h.updateMux fun m =>
      { m.register sid with stats := { m.stats with opened := m.stats.opened + 1 } }

def onData (h : Host) (sid : StreamId) (payload : Bytes) : Host :=
  if sid = 0 then h.ignoreFrame
  else
    match h.mux.registered sid with
    | none => h.ignoreFrame
    | some r =>
      match h.mux.heap r with
      | none => h
      | some s => h.feed r s payload

def onEof (h : Host) (sid : StreamId) (payload : Bytes) : Host :=
  if sid = 0 then h.ignoreFrame
  else
    match h.mux.registered sid with
    | none => h.ignoreFrame
    | some r =>
      match h.mux.heap r with
      | none => h
      | some s => if payload ≠ [] then h.resetMalformed r else h.setStream r s.feedEof

/-- The only branch in which a message could make `run` raise: `unpack_from` on a
short buffer. -/
def onWindowUpdate (h : Host) (sid : StreamId) (payload : Bytes) : Except String Host :=
  if sid = 0 then .ok h.ignoreFrame
  else
    match h.mux.registered sid with
    | none => .ok h.ignoreFrame
    | some r =>
      match h.mux.heap r with
      | none => .ok h
      | some s =>
        if payload.length ≠ 4 then .ok (h.resetMalformed r)
        else
          match unpackU32 payload with
          | none => .error "struct.error"
          | some delta =>
            if delta ≠ 0 then .ok (h.setStream r (s.grant delta.toNat)) else .ok h.ignoreFrame

def onReset (h : Host) (sid : StreamId) : Host :=
  if sid = 0 then h.ignoreFrame
  else
    match h.mux.registered sid with
    | none => h.ignoreFrame
    | some r =>
      (h.updateMux fun m =>
        { m with stats := { m.stats with resetPeer := m.stats.resetPeer + 1 } }).closeLocal r .reset

def onGoaway (h : Host) (sid : StreamId) (payload : Bytes) : Host :=
  if sid ≠ 0 ∨ payload ≠ [] then h.ignoreFrame
  else if h.mux.peerGoingAway then h.ignoreFrame
  else
    h.updateMux fun m =>
      { m with
        peerGoingAway := true
        stats := { m.stats with goawayIn := m.stats.goawayIn + 1 } }

/-- The dispatch on the frame type. -/
def onFrame (h : Host) (code : UInt8) (sid : StreamId) (payload : Bytes) : Except String Host :=
  match FrameType.ofCode code with
  | some .open_ => .ok (h.onOpen sid payload)
  | some .data => .ok (h.onData sid payload)
  | some .eof => .ok (h.onEof sid payload)
  | some .windowUpdate => h.onWindowUpdate sid payload
  | some .reset => .ok (h.onReset sid)
  | some .goaway => .ok (h.onGoaway sid payload)
  | none => .ok h.ignoreFrame

/-- One turn of the loop in `Mux.run`; an error is an exception leaving `run`. -/
def onMessage (h : Host) (msg : Message) : Except String Host :=
  match msg with
  | .text _ => .ok h.ignoreFrame
  | .binary bytes =>
    match decode bytes with
    | none => .ok h.ignoreFrame
    | some (code, sid, payload) => h.onFrame code sid payload

end Host

/-! ### Steps -/

/-- One scheduling step at one end. `sent` says whether the frame a call hands to
`_mux._send` gets onto the connection. -/
inductive Action
  | message (msg : Message)
  | connectionLost
  | openStream (sent : Bool)
  | openReturn (r : Ref)
  | openRaise (r : Ref)
  | send (r : Ref) (data : Bytes) (sent : Bool)
  | sendEof (r : Ref) (sent : Bool)
  | sendResume (r : Ref) (sent : Bool)
  | sendTimeout (r : Ref)
  | sendRaise (r : Ref)
  | read (r : Ref)
  | ack (r : Ref) (n : Nat) (sent : Bool)
  | reset (r : Ref) (sent : Bool)
  | close (r : Ref)
  | runTask (t : Task) (sent : Bool)
  | goaway (sent : Bool)
  | rearmIdle
  | writeStall
  | closeStall
  deriving DecidableEq, Repr

structure Effect where
  host : Host
  out : List Frame
  result : Result

/-- A frame handed to `_mux._send`. -/
def emit (sent : Bool) (ftype : FrameType) (sid : StreamId) (payload : Bytes) : List Frame :=
  if sent then [⟨ftype, sid, payload⟩] else []

namespace Host

/-- Store what a segment of `send` left behind and emit its chunk. -/
def afterSend (h : Host) (r : Ref) (sent : Bool) (out : Stream × Option Bytes × Result) : Effect :=
  { host := h.setStream r out.1
    out := match out.2.1 with
      | some chunk => emit sent .data r.sid chunk
      | none => []
    result := out.2.2 }

/-- `Mux.open` up to the `await` of the OPEN. -/
def openStream (h : Host) (sent : Bool) : Effect :=
  let m := h.mux
  if m.draining ∨ m.activeStreams ≥ m.config.maxStreams ∨ m.nextId > 0xFFFFFFFF then
    ⟨h, [], .raised⟩
  else
    let sid := UInt32.ofNat m.nextId
    let m' := { m.register sid with
      nextId := m.nextId + 1
      opening := m.opening ++ [(⟨sid, m.made sid⟩, sent)] }
    ⟨{ h with mux := m' }, emit sent .open_ sid [], .suspended⟩

/-- `send_eof`, once it has the lock. -/
def sendEof (h : Host) (r : Ref) (s : Stream) (sent : Bool) : Effect :=
  if s.sendDone then ⟨h, [], .returned⟩
  else
    ⟨h.setStream r { s with sendEnded := true, sender := some (.eof sent) },
      emit sent .eof r.sid [], .suspended⟩

/-- What the holder of `_send_lock` does when it is resumed. A frame that never
reaches the connection is never acknowledged to the call that sent it. -/
def sendResume (h : Host) (r : Ref) (s : Stream) (sent : Bool) : Option Effect :=
  match s.sender with
  | none => none
  | some (.credit view) =>
    if s.windowWaiter then some (h.afterSend r sent (s.sendLoop view sent)) else none
  | some (.data rest true) => some (h.afterSend r sent (s.sendLoop rest sent))
  | some (.eof true) => some ⟨h.setStream r { s with sender := none }, [], .returned⟩
  | some (.data _ false) => none
  | some (.eof false) => none

/-- `Stream.read`, when the queue has an entry to take. -/
def read (h : Host) (r : Ref) (s : Stream) : Option Effect :=
  match s.incoming with
  | [] => none
  | none :: rest => some ⟨h.setStream r { s with incoming := rest }, [], .chunk none⟩
  | some chunk :: rest =>
    if s.closed then some ⟨h.setStream r { s with incoming := rest }, [], .chunk (some chunk)⟩
    else
      let s :=
        { s with
          incoming := rest
          recvBuffered := s.recvBuffered - chunk.length
          recvFrames := s.recvFrames - 1 }
      let h := (h.setStream r s).updateMux fun m =>
        { m with buffered := m.buffered - chunk.length, frames := m.frames - 1 }
      some ⟨h.releaseBuffer chunk.length, [], .chunk (some chunk)⟩

/-- `Stream.ack`; packing a delta over `2^32 - 1` raises, and the exception is
suppressed. -/
def ack (h : Host) (r : Ref) (s : Stream) (n : Nat) (sent : Bool) : Effect :=
  if s.closed ∨ s.resetByPeer ∨ n = 0 then ⟨h, [], .returned⟩
  else if s.unacked + n ≥ h.mux.config.windowUpdateThreshold then
    let delta := s.unacked + n
    ⟨h.setStream r { s with unacked := 0 },
      emit (sent && decide (delta < 2 ^ 32)) .windowUpdate r.sid (packU32 (UInt32.ofNat delta)),
      .returned⟩
  else ⟨h.setStream r { s with unacked := s.unacked + n }, [], .returned⟩

/-- `Stream.reset` -/
def reset (h : Host) (r : Ref) (sent : Bool) : Effect :=
  match h.resetLocalNow r with
  | (h, true) => ⟨h, emit sent .reset r.sid [], .returned⟩
  | (h, false) => ⟨h, [], .returned⟩

/-- `_send_lock` is released by an exception or a cancellation inside the call. -/
def sendRaise (h : Host) (r : Ref) (s : Stream) : Option Effect :=
  match s.sender with
  | none => none
  | some _ => some ⟨h.setStream r { s with sender := none }, [], .raised⟩

/-- `_CREDIT_STALL_TIMEOUT` ran out. -/
def sendTimeout (h : Host) (r : Ref) (s : Stream) : Option Effect :=
  match s.sender with
  | some (.credit _) =>
    some ⟨(h.setStream r { s with sender := none }).updateMux fun m =>
      { m with stats := { m.stats with creditStall := m.stats.creditStall + 1 } }, [], .raised⟩
  | _ => none

def runTask (h : Host) (t : Task) (sent : Bool) : Effect :=
  let h := h.updateMux fun m => { m with tasks := m.tasks.erase t }
  match t with
  | .reset r => h.reset r sent
  | .sendOnce sid =>
    ⟨h.updateMux fun m => m.spawn (.sendOnceSent sid), emit sent .reset sid [], .suspended⟩
  | .sendOnceSent sid =>
    ⟨h.updateMux fun m => { m with resetSends := m.resetSends.erase sid }, [], .returned⟩

/-- One step of one end; `none` when the step is not possible. -/
def step (h : Host) : Action → Option Effect
  | .message msg =>
    if h.mux.running then
      match h.onMessage msg with
      | .ok h => some ⟨h, [], .returned⟩
      | .error _ => none
    else none
  | .connectionLost => if h.mux.running then some ⟨h.finish, [], .returned⟩ else none
  | .openStream sent => if h.mux.config.acceptsOpen then none else some (h.openStream sent)
  | .openReturn r =>
    if (r, true) ∈ h.mux.opening then
      some ⟨h.updateMux fun m =>
        { m with
          opening := m.opening.erase (r, true)
          stats := { m.stats with opened := m.stats.opened + 1 } }, [], .returned⟩
    else none
  | .openRaise r =>
    if h.mux.opening.any (fun e => e.1 == r) then
      some ⟨(h.updateMux fun m =>
        { m with opening := m.opening.filter fun e => e.1 != r }).closeLocal r .eof, [], .raised⟩
    else none
  | .send r data sent =>
    (h.mux.held r).bind fun s =>
      if s.sender = none then some (h.afterSend r sent (s.sendStart data sent)) else none
  | .sendEof r sent =>
    (h.mux.held r).bind fun s => if s.sender = none then some (h.sendEof r s sent) else none
  | .sendResume r sent => (h.mux.held r).bind fun s => h.sendResume r s sent
  | .sendTimeout r => (h.mux.held r).bind fun s => h.sendTimeout r s
  | .sendRaise r => (h.mux.held r).bind fun s => h.sendRaise r s
  | .read r => (h.mux.held r).bind fun s => h.read r s
  | .ack r n sent => (h.mux.held r).map fun s => h.ack r s n sent
  | .reset r sent => (h.mux.held r).map fun _ => h.reset r sent
  | .close r => (h.mux.held r).map fun _ => ⟨h.closeLocal r .eof, [], .returned⟩
  | .runTask t sent => if t ∈ h.mux.tasks then some (h.runTask t sent) else none
  | .goaway sent =>
    some ⟨h.updateMux fun m => { m with goingAway := true }, emit sent .goaway 0 [], .returned⟩
  | .rearmIdle =>
    if h.mux.activeStreams = 0 then none
    else some ⟨h.updateMux fun m => { m with idle := false }, [], .returned⟩
  | .writeStall =>
    some ⟨h.updateMux fun m =>
      { m with
        stats := { m.stats with writeStall := m.stats.writeStall + 1 }
        transportAborted := true }, [], .raised⟩
  | .closeStall =>
    some ⟨h.updateMux fun m =>
      { m with
        stats := { m.stats with closeStall := m.stats.closeStall + 1 }
        transportAborted := true }, [], .returned⟩

end Host

end Chute
