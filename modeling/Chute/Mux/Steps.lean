import Chute.Mux.Accounting
import Chute.Mux.Sending

/-!
# What one step does

`Arrival` lists the outcomes of a message, `Touch` everything a step of a connection
can do to a stream object that already exists. Both lists are complete
(`onMessage_arrival`, `step_touch`), and whatever is proved of connections over
whole runs goes through them.
-/
namespace Chute

/-- The frame a message carries, if it has a full prefix and a known type. -/
def Message.frame : Message → Option Frame
  | .text _ => none
  | .binary bytes =>
    match decode bytes with
    | none => none
    | some (code, sid, payload) => (FrameType.ofCode code).map fun t => ⟨t, sid, payload⟩

@[simp] theorem Message.frame_message (f : Frame) : (Message.binary f.message).frame = some f := by
  simp [Message.frame, Frame.message]

/-- The stream object whose `send`, `send_eof`, `read` or `ack` an action runs. -/
def Action.target : Action → Option Ref
  | .send r _ _ => some r
  | .sendEof r _ => some r
  | .sendResume r _ => some r
  | .sendTimeout r => some r
  | .sendRaise r => some r
  | .read r => some r
  | .ack r _ _ => some r
  | _ => none

def Action.isMessage : Action → Bool
  | .message _ => true
  | _ => false

namespace Host

/-- One turn of the loop, by the frame the message carries. -/
theorem onMessage_eq (h : Host) (msg : Message) :
    h.onMessage msg =
      match msg.frame with
      | none => .ok h.ignoreFrame
      | some f =>
        match f.ftype with
        | .open_ => .ok (h.onOpen f.sid f.payload)
        | .data => .ok (h.onData f.sid f.payload)
        | .eof => .ok (h.onEof f.sid f.payload)
        | .windowUpdate => h.onWindowUpdate f.sid f.payload
        | .reset => .ok (h.onReset f.sid)
        | .goaway => .ok (h.onGoaway f.sid f.payload) := by
  cases msg with
  | text s => rfl
  | binary bytes =>
    simp only [onMessage, Message.frame]
    cases decode bytes with
    | none => rfl
    | some parts =>
      obtain ⟨code, sid, payload⟩ := parts
      simp only [onFrame]
      cases FrameType.ofCode code with
      | none => rfl
      | some t => cases t <;> rfl

/-! ### Arrivals -/

/-- The messages that end in `_ignore_frame`. -/
inductive Ignorable (h : Host) : Option Frame → Prop
  | malformed : Ignorable h none
  | zeroSid (f : Frame) (zero : f.sid = 0) (type : f.ftype ≠ .goaway) : Ignorable h (some f)
  | openNotAccepted (f : Frame) (type : f.ftype = .open_)
      (server : h.mux.config.acceptsOpen = false) : Ignorable h (some f)
  | unknown (f : Frame) (type : f.ftype ≠ .open_ ∧ f.ftype ≠ .goaway)
      (absent : h.mux.registered f.sid = none) : Ignorable h (some f)
  | zeroGrant (f : Frame) (type : f.ftype = .windowUpdate)
      (unpacked : unpackU32 f.payload = some 0) : Ignorable h (some f)
  | badGoaway (f : Frame) (type : f.ftype = .goaway) (bad : f.sid ≠ 0 ∨ f.payload ≠ []) :
      Ignorable h (some f)
  | duplicateGoaway (f : Frame) (type : f.ftype = .goaway)
      (twice : h.mux.peerGoingAway = true) : Ignorable h (some f)

/-- The outcomes of one turn of the loop, by the frame that arrived. -/
inductive Arrival (h : Host) : Option Frame → Host → Prop
  | ignored {f : Option Frame} (why : Ignorable h f) : Arrival h f h.ignoreFrame
  | refused (sid : StreamId) (payload : Bytes) (nonzero : sid ≠ 0)
      (responder : h.mux.config.acceptsOpen = true)
      (why : payload ≠ [] ∨ h.mux.draining = true ∨ (h.mux.registered sid).isSome = true ∨
        h.mux.config.maxStreams ≤ h.mux.activeStreams) :
      Arrival h (some ⟨.open_, sid, payload⟩) (h.updateMux fun m => m.sendReset sid)
  | accepted (sid : StreamId) (nonzero : sid ≠ 0) (responder : h.mux.config.acceptsOpen = true)
      (steady : h.mux.draining = false) (new : h.mux.registered sid = none)
      (room : h.mux.activeStreams < h.mux.config.maxStreams) :
      Arrival h (some ⟨.open_, sid, []⟩) (h.updateMux fun m =>
        { m.register sid with stats := { m.stats with opened := m.stats.opened + 1 } })
  | dropped (r : Ref) (s : Stream) (payload : Bytes) (registered : h.mux.registered r.sid = some r)
      (found : h.mux.heap r = some s) (why : s.recv ≠ .open_ ∨ payload = []) :
      Arrival h (some ⟨.data, r.sid, payload⟩) h
  | overflow (r : Ref) (s : Stream) (payload : Bytes)
      (registered : h.mux.registered r.sid = some r) (found : h.mux.heap r = some s)
      (accepting : s.recv = .open_) (some_data : payload ≠ []) (why : Limit)
      (refused : h.feedLimit s payload = (some why, h)) :
      Arrival h (some ⟨.data, r.sid, payload⟩)
        ((h.setStream r (s.endRecv .reset)).updateMux fun m => m.spawn (.reset r))
  | fed (r : Ref) (s : Stream) (payload : Bytes) (registered : h.mux.registered r.sid = some r)
      (found : h.mux.heap r = some s) (accepting : s.recv = .open_) (some_data : payload ≠ [])
      (h' : Host) (admitted : Admitted h s payload h') :
      Arrival h (some ⟨.data, r.sid, payload⟩)
        ((h'.setStream r { s with
          incoming := s.incoming ++ [some payload]
          recvBuffered := s.recvBuffered + payload.length
          recvFrames := s.recvFrames + 1 }).updateMux fun m =>
            { m with buffered := m.buffered + payload.length, frames := m.frames + 1 })
  | ended (r : Ref) (s : Stream) (registered : h.mux.registered r.sid = some r)
      (found : h.mux.heap r = some s) :
      Arrival h (some ⟨.eof, r.sid, []⟩) (h.setStream r s.feedEof)
  | malformed (f : Frame) (r : Ref) (sid : f.sid = r.sid)
      (registered : h.mux.registered r.sid = some r)
      (bad : f.ftype = .eof ∧ f.payload ≠ [] ∨ f.ftype = .windowUpdate ∧ f.payload.length ≠ 4) :
      Arrival h (some f) (h.resetMalformed r)
  | granted (r : Ref) (s : Stream) (payload : Bytes) (delta : UInt32)
      (registered : h.mux.registered r.sid = some r) (found : h.mux.heap r = some s)
      (four : payload.length = 4) (unpacked : unpackU32 payload = some delta) (nonzero : delta ≠ 0) :
      Arrival h (some ⟨.windowUpdate, r.sid, payload⟩) (h.setStream r (s.grant delta.toNat))
  | aborted (r : Ref) (payload : Bytes) (registered : h.mux.registered r.sid = some r) :
      Arrival h (some ⟨.reset, r.sid, payload⟩) ((h.updateMux fun m =>
        { m with stats := { m.stats with resetPeer := m.stats.resetPeer + 1 } }).closeLocal r .reset)
  | goaway (first : h.mux.peerGoingAway = false) :
      Arrival h (some ⟨.goaway, 0, []⟩) (h.updateMux fun m =>
        { m with
          peerGoingAway := true
          stats := { m.stats with goawayIn := m.stats.goawayIn + 1 } })

section

variable {h : Host}

private theorem arrival_onOpen (h : Host) (sid : StreamId) (payload : Bytes) :
    Arrival h (some ⟨.open_, sid, payload⟩) (h.onOpen sid payload) := by
  unfold onOpen
  split
  next zero => exact .ignored (.zeroSid _ zero (by simp))
  next nonzero =>
    split
    next some_payload =>
      split
      next responder => exact .refused sid payload nonzero responder (Or.inl some_payload)
      next server => exact .ignored (.openNotAccepted _ rfl (by simpa using server))
    next empty =>
      split
      next server => exact .ignored (.openNotAccepted _ rfl server)
      next responder =>
        have accepts : h.mux.config.acceptsOpen = true := by simpa using responder
        split
        next draining => exact .refused sid payload nonzero accepts (Or.inr (Or.inl draining))
        next steady =>
          split
          next twice =>
            exact .refused sid payload nonzero accepts (Or.inr (Or.inr (Or.inl twice)))
          next new =>
            split
            next full =>
              exact .refused sid payload nonzero accepts (Or.inr (Or.inr (Or.inr full)))
            next room =>
              rw [not_not.mp empty]
              exact .accepted sid nonzero accepts (by simpa using steady) (by simpa using new)
                (by omega)

private theorem arrival_onData (acc : h.mux.Accounted) (sid : StreamId) (payload : Bytes) :
    Arrival h (some ⟨.data, sid, payload⟩) (h.onData sid payload) := by
  unfold onData
  split
  next zero => exact .ignored (.zeroSid _ zero (by simp))
  · split
    next absent => exact .ignored (.unknown _ (by simp) absent)
    next r registered =>
      obtain ⟨rfl, s, found, live⟩ := acc.registered registered
      simp only [found]
      unfold feed
      split
      next past => exact .dropped r s payload registered found (Or.inl past)
      next accepting =>
        split
        next empty => exact .dropped r s payload registered found (Or.inr empty)
        next some_data =>
          split
          next why h' refused =>
            have same := refused_of_feedLimit refused
            subst same
            exact .overflow r s payload registered found (not_not.mp accepting) some_data why refused
          next h' passed =>
            exact .fed r s payload registered found (not_not.mp accepting) some_data h'
              (admitted_of_feedLimit some_data passed)

private theorem arrival_onEof (acc : h.mux.Accounted) (sid : StreamId) (payload : Bytes) :
    Arrival h (some ⟨.eof, sid, payload⟩) (h.onEof sid payload) := by
  unfold onEof
  split
  next zero => exact .ignored (.zeroSid _ zero (by simp))
  · split
    next absent => exact .ignored (.unknown _ (by simp) absent)
    next r registered =>
      obtain ⟨rfl, s, found, live⟩ := acc.registered registered
      simp only [found]
      split
      next bad => exact .malformed _ r rfl registered (Or.inl ⟨rfl, bad⟩)
      next empty =>
        rw [not_not.mp empty]
        exact .ended r s registered found

private theorem arrival_onWindowUpdate (acc : h.mux.Accounted) (sid : StreamId) (payload : Bytes) :
    ∃ h', h.onWindowUpdate sid payload = .ok h' ∧
      Arrival h (some ⟨.windowUpdate, sid, payload⟩) h' := by
  unfold onWindowUpdate
  split
  next zero => exact ⟨_, rfl, .ignored (.zeroSid _ zero (by simp))⟩
  · split
    next absent => exact ⟨_, rfl, .ignored (.unknown _ (by simp) absent)⟩
    next r registered =>
      obtain ⟨rfl, s, found, live⟩ := acc.registered registered
      simp only [found]
      split
      next bad => exact ⟨_, rfl, .malformed _ r rfl registered (Or.inr ⟨rfl, bad⟩)⟩
      next four =>
        -- only four bytes are unpacked, so `unpack_from` cannot raise
        obtain ⟨delta, unpacked⟩ := unpackU32_of_length (not_not.mp four)
        simp only [unpacked]
        split
        next nonzero =>
          exact ⟨_, rfl, .granted r s payload delta registered found (not_not.mp four) unpacked
            nonzero⟩
        next zero =>
          rw [not_not.mp zero] at unpacked
          exact ⟨_, rfl, .ignored (.zeroGrant _ rfl unpacked)⟩

private theorem arrival_onReset (h : Host) (sid : StreamId) (payload : Bytes) :
    Arrival h (some ⟨.reset, sid, payload⟩) (h.onReset sid) := by
  unfold onReset
  split
  next zero => exact .ignored (.zeroSid _ zero (by simp))
  · split
    next absent => exact .ignored (.unknown _ (by simp) absent)
    next r registered =>
      obtain ⟨rfl, -⟩ := Mux.registered_eq_some.mp registered
      exact .aborted r payload registered

private theorem arrival_onGoaway (h : Host) (sid : StreamId) (payload : Bytes) :
    Arrival h (some ⟨.goaway, sid, payload⟩) (h.onGoaway sid payload) := by
  unfold onGoaway
  split
  next bad => exact .ignored (.badGoaway _ rfl bad)
  next fine =>
    simp only [not_or, not_not] at fine
    obtain ⟨rfl, rfl⟩ := fine
    split
    next twice => exact .ignored (.duplicateGoaway _ rfl twice)
    next first => exact .goaway (by simpa using first)

/-- **No message makes `run` raise**, and `Arrival` lists all outcomes. -/
theorem onMessage_arrival (acc : h.mux.Accounted) (msg : Message) :
    ∃ h', h.onMessage msg = .ok h' ∧ Arrival h msg.frame h' := by
  rw [onMessage_eq]
  split
  next malformed =>
    rw [malformed]
    exact ⟨_, rfl, .ignored .malformed⟩
  next f carries =>
    rw [carries]
    obtain ⟨ftype, sid, payload⟩ := f
    cases ftype with
    | open_ => exact ⟨_, rfl, arrival_onOpen h sid payload⟩
    | data => exact ⟨_, rfl, arrival_onData acc sid payload⟩
    | eof => exact ⟨_, rfl, arrival_onEof acc sid payload⟩
    | windowUpdate => exact arrival_onWindowUpdate acc sid payload
    | reset => exact ⟨_, rfl, arrival_onReset h sid payload⟩
    | goaway => exact ⟨_, rfl, arrival_onGoaway h sid payload⟩

/-- The step that a message takes. -/
theorem step_message (acc : h.mux.Accounted) {msg : Message} {e : Effect}
    (moved : h.step (.message msg) = some e) :
    h.mux.running = true ∧ Arrival h msg.frame e.host ∧ e.out = [] := by
  obtain ⟨h', ok, arrival⟩ := onMessage_arrival acc msg
  simp only [Host.step, ok] at moved
  split at moved
  next running =>
    cases moved
    exact ⟨running, arrival, rfl⟩
  · cases moved

end

/-! ### Teardown, seen from one object -/

/-- A stream object after a step that can at most tear it down. -/
def Shuts (s t : Stream) : Prop :=
  t = s ∨ s.closed = false ∧ ∃ terminal, terminal ≠ .open_ ∧ t = s.shut terminal

theorem Shuts.refl (s : Stream) : Shuts s s := Or.inl rfl

section

variable {h : Host} {r : Ref} {s : Stream}

theorem shuts_map {terminal : RecvState} (past : terminal ≠ .open_) :
    Shuts s (if s.closed then s else s.shut terminal) := by
  split
  · exact Or.inl rfl
  next live => exact Or.inr ⟨by simpa using live, terminal, past, rfl⟩

theorem shuts_closeLocal (found : h.mux.heap r = some s) (r' : Ref) (terminal : RecvState)
    (past : terminal ≠ .open_) :
    ∃ t, (h.closeLocal r' terminal).mux.heap r = some t ∧ Shuts s t := by
  rw [heap_closeLocal]
  split
  next same =>
    subst same
    rw [found]
    exact ⟨_, rfl, shuts_map past⟩
  · exact ⟨s, found, .refl s⟩

theorem shuts_finish (found : h.mux.heap r = some s) :
    ∃ t, h.finish.mux.heap r = some t ∧ Shuts s t := by
  rw [heap_finish]
  split
  · rw [found]
    exact ⟨_, rfl, shuts_map (by decide)⟩
  · exact ⟨s, found, .refl s⟩

theorem shuts_ignoreFrame (found : h.mux.heap r = some s) :
    ∃ t, h.ignoreFrame.mux.heap r = some t ∧ Shuts s t := by
  unfold ignoreFrame
  simp only
  split
  · exact ⟨s, found, .refl s⟩
  · exact shuts_finish found

theorem heap_resetLocalNow (h : Host) (r : Ref) :
    (h.resetLocalNow r).1.mux.heap = (h.closeLocal r .reset).mux.heap := by
  unfold resetLocalNow
  split
  next absent => rw [closeLocal_none absent]
  · simp only
    split <;> rfl

@[simp] theorem heap_sendReset (m : Mux) (sid : StreamId) : (m.sendReset sid).heap = m.heap := by
  unfold Mux.sendReset
  split
  · rfl
  · split <;> rfl

theorem heap_resetMalformed (h : Host) (r : Ref) :
    (h.resetMalformed r).mux.heap = (h.closeLocal r .reset).mux.heap := by
  rw [← heap_resetLocalNow]
  unfold resetMalformed
  split
  next now reset => simp [reset]
  next now reset => simp [reset]

theorem heap_reset (h : Host) (r : Ref) (sent : Bool) :
    (h.reset r sent).host.mux.heap = (h.closeLocal r .reset).mux.heap := by
  rw [← heap_resetLocalNow]
  unfold reset
  split
  next now reset => simp [reset]
  next now reset => simp [reset]

end

/-! ### All steps -/

/-- What a step can do to the stream object `r`, now `s`. -/
inductive Touch (h : Host) (r : Ref) (s : Stream) : Action → List Frame → Result → Stream → Prop
  | pass {a out res} (other : a.target ≠ some r) : Touch h r s a out res s
  | shut {a out res} (other : a.target ≠ some r) (terminal : RecvState)
      (past : terminal ≠ .open_) (live : s.closed = false) :
      Touch h r s a out res (s.shut terminal)
  | fed {msg out res} (data : Bytes) (carries : msg.frame = some ⟨.data, r.sid, data⟩)
      (registered : h.mux.registered r.sid = some r) (accepting : s.recv = .open_)
      (some_data : data ≠ []) (h' : Host) (admitted : Admitted h s data h') :
      Touch h r s (.message msg) out res { s with
        incoming := s.incoming ++ [some data]
        recvBuffered := s.recvBuffered + data.length
        recvFrames := s.recvFrames + 1 }
  | overflow {msg out res} (data : Bytes) (carries : msg.frame = some ⟨.data, r.sid, data⟩)
      (registered : h.mux.registered r.sid = some r) (accepting : s.recv = .open_)
      (some_data : data ≠ []) (why : Limit) (refused : h.feedLimit s data = (some why, h)) :
      Touch h r s (.message msg) out res (s.endRecv .reset)
  | ended {msg out res} (carries : msg.frame = some ⟨.eof, r.sid, []⟩)
      (registered : h.mux.registered r.sid = some r) :
      Touch h r s (.message msg) out res s.feedEof
  | granted {msg out res} (payload : Bytes) (delta : UInt32)
      (carries : msg.frame = some ⟨.windowUpdate, r.sid, payload⟩)
      (registered : h.mux.registered r.sid = some r) (four : payload.length = 4)
      (unpacked : unpackU32 payload = some delta) (nonzero : delta ≠ 0) :
      Touch h r s (.message msg) out res (s.grant delta.toNat)
  | refused (data : Bytes) (sent : Bool) (free : s.sender = none) (done : s.sendDone = true) :
      Touch h r s (.send r data sent) [] .raised s
  | started (data : Bytes) (sent : Bool) (o : Stream × Option Bytes × Result)
      (free : s.sender = none) (going : s.sendDone = false) (sends : Stream.Sends s data sent o) :
      Touch h r s (.send r data sent) (h.afterSend r sent o).out o.2.2 o.1
  | resumed (view : Bytes) (sent : Bool) (o : Stream × Option Bytes × Result)
      (busy : s.sender = some (.credit view) ∧ s.windowWaiter = true ∨
        s.sender = some (.data view true))
      (sends : Stream.Sends s view sent o) :
      Touch h r s (.sendResume r sent) (h.afterSend r sent o).out o.2.2 o.1
  | eofSent (sent : Bool) (busy : s.sender = some (.eof true)) :
      Touch h r s (.sendResume r sent) [] .returned { s with sender := none }
  | timedOut (view : Bytes) (busy : s.sender = some (.credit view)) :
      Touch h r s (.sendTimeout r) [] .raised { s with sender := none }
  | raised (sender : Sender) (busy : s.sender = some sender) :
      Touch h r s (.sendRaise r) [] .raised { s with sender := none }
  | eofLate (sent : Bool) (free : s.sender = none) (done : s.sendDone = true) :
      Touch h r s (.sendEof r sent) [] .returned s
  | eof (sent : Bool) (free : s.sender = none) (going : s.sendDone = false) :
      Touch h r s (.sendEof r sent) (emit sent .eof r.sid []) .suspended
        { s with sendEnded := true, sender := some (.eof sent) }
  | readEnd (tail : List (Option Bytes)) (first : s.incoming = none :: tail) :
      Touch h r s (.read r) [] (.chunk none) { s with incoming := tail }
  | readLate (chunk : Bytes) (tail : List (Option Bytes)) (first : s.incoming = some chunk :: tail)
      (closed : s.closed = true) :
      Touch h r s (.read r) [] (.chunk (some chunk)) { s with incoming := tail }
  | read (chunk : Bytes) (tail : List (Option Bytes)) (first : s.incoming = some chunk :: tail)
      (live : s.closed = false) :
      Touch h r s (.read r) [] (.chunk (some chunk)) { s with
        incoming := tail
        recvBuffered := s.recvBuffered - chunk.length
        recvFrames := s.recvFrames - 1 }
  | ackVoid (n : Nat) (sent : Bool) (why : s.closed = true ∨ s.recv = .reset ∨ n = 0) :
      Touch h r s (.ack r n sent) [] .returned s
  | ackKept (n : Nat) (sent : Bool) (live : s.closed = false) (whole : s.recv ≠ .reset)
      (pos : 0 < n) (small : s.unacked + n < h.mux.config.windowUpdateThreshold) :
      Touch h r s (.ack r n sent) [] .returned { s with unacked := s.unacked + n }
  | ackFlush (n : Nat) (sent : Bool) (live : s.closed = false) (whole : s.recv ≠ .reset)
      (pos : 0 < n) (large : h.mux.config.windowUpdateThreshold ≤ s.unacked + n) :
      Touch h r s (.ack r n sent)
        (emit (sent && decide (s.unacked + n < 2 ^ 32)) .windowUpdate r.sid
          (packU32 (UInt32.ofNat (s.unacked + n)))) .returned { s with unacked := 0 }

section

variable {h : Host} {r : Ref} {s : Stream}

/-- A step that can at most tear a stream down is in the list. -/
theorem Shuts.touch {t : Stream} (shuts : Shuts s t) {a : Action} (other : a.target ≠ some r)
    (out : List Frame) (res : Result) : Touch h r s a out res t := by
  rcases shuts with rfl | ⟨live, terminal, past, rfl⟩
  · exact .pass other
  · exact .shut other terminal past live

private theorem touch_shut (found : h.mux.heap r = some s) (r' : Ref) {a : Action}
    (other : a.target ≠ some r) (out : List Frame) (res : Result) {terminal : RecvState}
    (past : terminal ≠ .open_) :
    ∃ t, (h.closeLocal r' terminal).mux.heap r = some t ∧ Touch h r s a out res t := by
  obtain ⟨t, after, shuts⟩ := shuts_closeLocal found r' terminal past
  exact ⟨t, after, shuts.touch other out res⟩

/-- A change of one object, seen from any object. -/
private theorem touch_setStream (found : h.mux.heap r = some s) {r' : Ref} {s' t' : Stream}
    (there : h.mux.heap r' = some s') {a : Action} {out : List Frame} {res : Result}
    (touched : Touch h r' s' a out res t') (other : r' ≠ r → a.target ≠ some r) :
    ∃ t, (h.setStream r' t').mux.heap r = some t ∧ Touch h r s a out res t := by
  by_cases same : r' = r
  · subst same
    rw [found] at there
    cases there
    exact ⟨t', by simp, touched⟩
  · refine ⟨s, ?_, .pass (other same)⟩
    rw [mux_setStream, Mux.heap_setStream_ne _ _ (Ne.symm same)]
    exact found

private theorem touch_arrival (acc : h.mux.Accounted) (found : h.mux.heap r = some s)
    {msg : Message} {h' : Host} (arrival : Arrival h msg.frame h') (out : List Frame)
    (res : Result) : ∃ t, h'.mux.heap r = some t ∧ Touch h r s (.message msg) out res t := by
  have away : (Action.message msg).target ≠ some r := by simp [Action.target]
  generalize carries : msg.frame = f at arrival
  cases arrival with
  | ignored why =>
    obtain ⟨t, after, shuts⟩ := shuts_ignoreFrame found
    exact ⟨t, after, shuts.touch away out res⟩
  | refused sid payload nonzero responder why => exact ⟨s, by simpa using found, .pass away⟩
  | accepted sid nonzero responder steady new room =>
    refine ⟨s, ?_, .pass away⟩
    have apart : r ≠ ⟨sid, h.mux.made sid⟩ := by
      rintro rfl
      exact lt_irrefl _ (acc.fresh _ s found).1
    simp [Mux.register, Mux.setStream, apart, found]
  | dropped r' s' payload registered there why => exact ⟨s, found, .pass away⟩
  | overflow r' s' payload registered there accepting some_data why refused =>
    exact touch_setStream found there
      (.overflow payload carries registered accepting some_data why refused) (fun _ => away)
  | fed r' s' payload registered there accepting some_data h' admitted =>
    have touched : Touch h r' s' (.message msg) out res _ :=
      .fed payload carries registered accepting some_data h' admitted
    obtain ⟨t, after, touched⟩ := touch_setStream found there touched (fun _ => away)
    refine ⟨t, ?_, touched⟩
    simpa [Mux.setStream, admitted.mux] using after
  | ended r' s' registered there =>
    exact touch_setStream found there (.ended carries registered) (fun _ => away)
  | malformed f r' sid registered bad =>
    rw [heap_resetMalformed]
    exact touch_shut found r' away out res (by decide)
  | granted r' s' payload delta registered there four unpacked nonzero =>
    exact touch_setStream found there (.granted payload delta carries registered four unpacked nonzero)
      (fun _ => away)
  | aborted r' payload registered =>
    obtain ⟨t, after, shuts⟩ := shuts_closeLocal (h := h.updateMux fun m =>
      { m with stats := { m.stats with resetPeer := m.stats.resetPeer + 1 } })
      (r := r) found r' .reset (by decide)
    exact ⟨t, after, shuts.touch away out res⟩
  | goaway first => exact ⟨s, found, .pass away⟩

/-- **`Touch` is complete.** A stream object that exists before a step exists after it,
changed in one of the ways listed. -/
theorem step_touch (acc : h.mux.Accounted) (found : h.mux.heap r = some s) {a : Action} {e : Effect} (moved : h.step a = some e) :
    ∃ t, e.host.mux.heap r = some t ∧ Touch h r s a e.out e.result t := by
  cases a with
  | message msg => exact touch_arrival acc found (step_message acc moved).2.1 _ _
  | connectionLost =>
    simp only [Host.step] at moved
    split at moved
    · cases moved
      obtain ⟨t, after, shuts⟩ := shuts_finish found
      exact ⟨t, after, shuts.touch (by simp [Action.target]) _ _⟩
    · cases moved
  | openStream sent =>
    simp only [Host.step] at moved
    split at moved
    · cases moved
    · cases moved
      refine ⟨s, ?_, .pass (by simp [Action.target])⟩
      unfold openStream
      simp only
      split
      · exact found
      · have apart : r ≠ ⟨UInt32.ofNat h.mux.nextId, h.mux.made (UInt32.ofNat h.mux.nextId)⟩ := by
          rintro rfl
          exact lt_irrefl _ (acc.fresh _ s found).1
        simp only [Mux.register, Mux.setStream, Function.update_of_ne apart]
        exact found
  | openReturn r' =>
    simp only [Host.step] at moved
    split at moved
    · cases moved
      exact ⟨s, found, .pass (by simp [Action.target])⟩
    · cases moved
  | openRaise r' =>
    simp only [Host.step] at moved
    split at moved
    · cases moved
      obtain ⟨t, after, shuts⟩ := shuts_closeLocal (h := h.updateMux fun m =>
        { m with opening := m.opening.filter fun e => e.1 != r' }) (r := r) found r' .eof (by decide)
      exact ⟨t, after, shuts.touch (by simp [Action.target]) _ _⟩
    · cases moved
  | send r' data sent =>
    obtain ⟨s', held, moved⟩ := Option.bind_eq_some_iff.mp moved
    split at moved
    next free =>
      cases moved
      rcases s'.sendStart_eq data sent with ⟨refused, done⟩ | ⟨started, going⟩
      · rw [refused]
        exact touch_setStream found (Mux.held_heap held) (.refused data sent free done)
          (by simp [Action.target])
      · rw [started]
        exact touch_setStream found (Mux.held_heap held)
          (.started data sent _ free going (Stream.sends_sendLoop s' data sent))
          (by simp [Action.target])
    · cases moved
  | sendEof r' sent =>
    obtain ⟨s', held, moved⟩ := Option.bind_eq_some_iff.mp moved
    split at moved
    next free =>
      cases moved
      unfold sendEof
      split
      next done =>
        by_cases same : r' = r
        · subst same
          cases (Mux.held_heap held).symm.trans found
          exact ⟨s, found, .eofLate sent free done⟩
        · exact ⟨s, found, .pass (by simp [Action.target, same])⟩
      next going =>
        exact touch_setStream found (Mux.held_heap held)
          (.eof sent free (by simpa using going)) (by simp [Action.target])
    · cases moved
  | sendResume r' sent =>
    obtain ⟨s', held, moved⟩ := Option.bind_eq_some_iff.mp moved
    unfold sendResume at moved
    split at moved
    · cases moved
    next view busy =>
      split at moved
      next woken =>
        cases moved
        exact touch_setStream found (Mux.held_heap held)
          (.resumed view sent _ (Or.inl ⟨busy, woken⟩) (Stream.sends_sendLoop s' view sent))
          (by simp [Action.target])
      · cases moved
    next view busy =>
      cases moved
      exact touch_setStream found (Mux.held_heap held)
        (.resumed view sent _ (Or.inr busy) (Stream.sends_sendLoop s' view sent))
        (by simp [Action.target])
    next busy =>
      cases moved
      exact touch_setStream found (Mux.held_heap held) (.eofSent sent busy) (by simp [Action.target])
    · cases moved
    · cases moved
  | sendTimeout r' =>
    obtain ⟨s', held, moved⟩ := Option.bind_eq_some_iff.mp moved
    unfold sendTimeout at moved
    split at moved
    next view busy =>
      cases moved
      exact touch_setStream found (Mux.held_heap held) (.timedOut view busy) (by simp [Action.target])
    · cases moved
  | sendRaise r' =>
    obtain ⟨s', held, moved⟩ := Option.bind_eq_some_iff.mp moved
    unfold sendRaise at moved
    split at moved
    · cases moved
    next sender busy =>
      cases moved
      exact touch_setStream found (Mux.held_heap held) (.raised sender busy) (by simp [Action.target])
  | read r' =>
    obtain ⟨s', held, moved⟩ := Option.bind_eq_some_iff.mp moved
    unfold Host.read at moved
    split at moved
    · cases moved
    next tail first =>
      cases moved
      exact touch_setStream found (Mux.held_heap held) (.readEnd tail first) (by simp [Action.target])
    next chunk tail first =>
      split at moved
      next closed =>
        cases moved
        exact touch_setStream found (Mux.held_heap held) (.readLate chunk tail first closed)
          (by simp [Action.target])
      next live =>
        cases moved
        rw [mux_releaseBuffer]
        exact touch_setStream found (Mux.held_heap held)
          (.read chunk tail first (by simpa using live)) (by simp [Action.target])
  | ack r' n sent =>
    obtain ⟨s', held, rfl⟩ := Option.map_eq_some_iff.mp moved
    unfold Host.ack
    split
    next void =>
      by_cases same : r' = r
      · subst same
        cases (Mux.held_heap held).symm.trans found
        refine ⟨s, found, .ackVoid n sent ?_⟩
        simpa [Stream.resetByPeer] using void
      · exact ⟨s, found, .pass (by simp [Action.target, same])⟩
    next going =>
      simp only [not_or] at going
      obtain ⟨live, whole, pos⟩ := going
      have live' : s'.closed = false := by simpa using live
      have whole' : s'.recv ≠ .reset := by simpa [Stream.resetByPeer] using whole
      split
      next large =>
        exact touch_setStream found (Mux.held_heap held)
          (.ackFlush n sent live' whole' (by omega) large) (by simp [Action.target])
      next small =>
        exact touch_setStream found (Mux.held_heap held)
          (.ackKept n sent live' whole' (by omega) (by omega)) (by simp [Action.target])
  | reset r' sent =>
    obtain ⟨s', held, rfl⟩ := Option.map_eq_some_iff.mp moved
    rw [heap_reset]
    exact touch_shut found r' (by simp [Action.target]) _ _ (by decide)
  | close r' =>
    obtain ⟨s', held, rfl⟩ := Option.map_eq_some_iff.mp moved
    exact touch_shut found r' (by simp [Action.target]) _ _ (by decide)
  | runTask task sent =>
    simp only [Host.step] at moved
    split at moved
    · cases moved
      unfold runTask
      cases task with
      | reset r' =>
        rw [heap_reset]
        obtain ⟨t, after, shuts⟩ := shuts_closeLocal (h := h.updateMux fun m =>
          { m with tasks := m.tasks.erase (.reset r') }) (r := r) found r' .reset (by decide)
        exact ⟨t, after, shuts.touch (by simp [Action.target]) _ _⟩
      | sendOnce sid => exact ⟨s, found, .pass (by simp [Action.target])⟩
      | sendOnceSent sid => exact ⟨s, found, .pass (by simp [Action.target])⟩
    · cases moved
  | goaway sent =>
    cases moved
    exact ⟨s, found, .pass (by simp [Action.target])⟩
  | rearmIdle =>
    simp only [Host.step] at moved
    split at moved
    · cases moved
    · cases moved
      exact ⟨s, found, .pass (by simp [Action.target])⟩
  | writeStall =>
    cases moved
    exact ⟨s, found, .pass (by simp [Action.target])⟩
  | closeStall =>
    cases moved
    exact ⟨s, found, .pass (by simp [Action.target])⟩

end

/-! ### Where stream objects come from -/

/-- The action makes a stream object under this id. -/
inductive Opens (h : Host) (sid : StreamId) : Action → Prop
  | local_ (sent : Bool) (id : sid = UInt32.ofNat h.mux.nextId) : Opens h sid (.openStream sent)
  | peer (msg : Message) (carries : msg.frame = some ⟨.open_, sid, []⟩) :
      Opens h sid (.message msg)

section

variable {h : Host} {r : Ref}

theorem absent_closeLocal (absent : h.mux.heap r = none) (r' : Ref) (terminal : RecvState) :
    (h.closeLocal r' terminal).mux.heap r = none := by
  rw [heap_closeLocal]
  split
  next same => rw [← same, absent]; rfl
  · exact absent

theorem absent_finish (absent : h.mux.heap r = none) : h.finish.mux.heap r = none := by
  rw [heap_finish, absent]
  simp

theorem absent_ignoreFrame (absent : h.mux.heap r = none) : h.ignoreFrame.mux.heap r = none := by
  unfold ignoreFrame
  simp only
  split
  · exact absent
  · exact absent_finish absent

theorem absent_setStream (absent : h.mux.heap r = none) {r' : Ref} {s t : Stream}
    (there : h.mux.heap r' = some s) : (h.setStream r' t).mux.heap r = none := by
  have apart : r ≠ r' := by
    rintro rfl
    rw [absent] at there
    cases there
  rw [mux_setStream, Mux.heap_setStream_ne _ _ apart]
  exact absent

private theorem absent_arrival (absent : h.mux.heap r = none) {msg : Message} {h' : Host}
    (arrival : Arrival h msg.frame h') :
    h'.mux.heap r = none ∨
      h'.mux.heap r = some (Stream.new h.mux.config) ∧ r.gen = h.mux.made r.sid ∧
        Opens h r.sid (.message msg) := by
  generalize carries : msg.frame = f at arrival
  cases arrival with
  | ignored why => exact Or.inl (absent_ignoreFrame absent)
  | refused sid payload nonzero responder why => exact Or.inl (by simpa using absent)
  | accepted sid nonzero responder steady new room =>
    by_cases same : r = ⟨sid, h.mux.made sid⟩
    · subst same
      exact Or.inr ⟨by simp [Mux.register, Mux.setStream], rfl, .peer msg carries⟩
    · exact Or.inl (by simp [Mux.register, Mux.setStream, same, absent])
  | dropped r' s' payload registered there why => exact Or.inl absent
  | overflow r' s' payload registered there accepting some_data why refused =>
    exact Or.inl (absent_setStream absent there)
  | fed r' s' payload registered there accepting some_data h' admitted =>
    have absent' : h'.mux.heap r = none := by rw [admitted.mux]; exact absent
    have there' : h'.mux.heap r' = some s' := by rw [admitted.mux]; exact there
    exact Or.inl (absent_setStream absent' there')
  | ended r' s' registered there => exact Or.inl (absent_setStream absent there)
  | malformed f r' sid registered bad =>
    rw [heap_resetMalformed]
    exact Or.inl (absent_closeLocal absent _ _)
  | granted r' s' payload delta registered there four unpacked nonzero =>
    exact Or.inl (absent_setStream absent there)
  | aborted r' payload registered => exact Or.inl (absent_closeLocal (by simpa using absent) _ _)
  | goaway first => exact Or.inl absent

/-- A new object appears only where an OPEN is made or accepted. -/
theorem step_absent (acc : h.mux.Accounted) (absent : h.mux.heap r = none) {a : Action}
    {e : Effect} (moved : h.step a = some e) :
    e.host.mux.heap r = none ∨
      e.host.mux.heap r = some (Stream.new h.mux.config) ∧ r.gen = h.mux.made r.sid ∧
        Opens h r.sid a := by
  cases a with
  | message msg => exact absent_arrival absent (step_message acc moved).2.1
  | connectionLost =>
    simp only [Host.step] at moved
    split at moved
    · cases moved; exact Or.inl (absent_finish absent)
    · cases moved
  | openStream sent =>
    simp only [Host.step] at moved
    split at moved
    · cases moved
    · cases moved
      unfold openStream
      simp only
      split
      · exact Or.inl absent
      · by_cases same : r = ⟨UInt32.ofNat h.mux.nextId, h.mux.made (UInt32.ofNat h.mux.nextId)⟩
        · subst same
          exact Or.inr ⟨by simp [Mux.register, Mux.setStream], rfl, .local_ sent rfl⟩
        · refine Or.inl ?_
          simp only [Mux.register, Mux.setStream, Function.update_of_ne same]
          exact absent
  | openReturn r' =>
    simp only [Host.step] at moved
    split at moved
    · cases moved; exact Or.inl absent
    · cases moved
  | openRaise r' =>
    simp only [Host.step] at moved
    split at moved
    · cases moved
      exact Or.inl (absent_closeLocal (by simpa using absent) _ _)
    · cases moved
  | send r' data sent =>
    obtain ⟨s, held, moved⟩ := Option.bind_eq_some_iff.mp moved
    split at moved
    · cases moved; exact Or.inl (absent_setStream absent (Mux.held_heap held))
    · cases moved
  | sendEof r' sent =>
    obtain ⟨s, held, moved⟩ := Option.bind_eq_some_iff.mp moved
    split at moved
    · cases moved
      unfold sendEof
      split
      · exact Or.inl absent
      · exact Or.inl (absent_setStream absent (Mux.held_heap held))
    · cases moved
  | sendResume r' sent =>
    obtain ⟨s, held, moved⟩ := Option.bind_eq_some_iff.mp moved
    unfold sendResume at moved
    repeat' split at moved
    all_goals cases moved
    all_goals exact Or.inl (absent_setStream absent (Mux.held_heap held))
  | sendTimeout r' =>
    obtain ⟨s, held, moved⟩ := Option.bind_eq_some_iff.mp moved
    unfold sendTimeout at moved
    split at moved
    · cases moved; exact Or.inl (absent_setStream absent (Mux.held_heap held))
    · cases moved
  | sendRaise r' =>
    obtain ⟨s, held, moved⟩ := Option.bind_eq_some_iff.mp moved
    unfold sendRaise at moved
    split at moved
    · cases moved
    · cases moved; exact Or.inl (absent_setStream absent (Mux.held_heap held))
  | read r' =>
    obtain ⟨s, held, moved⟩ := Option.bind_eq_some_iff.mp moved
    unfold Host.read at moved
    repeat' split at moved
    all_goals cases moved
    all_goals try rw [mux_releaseBuffer]
    all_goals exact Or.inl (absent_setStream absent (Mux.held_heap held))
  | ack r' n sent =>
    obtain ⟨s, held, rfl⟩ := Option.map_eq_some_iff.mp moved
    unfold Host.ack
    repeat' split
    all_goals first
      | exact Or.inl absent
      | exact Or.inl (absent_setStream absent (Mux.held_heap held))
  | reset r' sent =>
    obtain ⟨s, held, rfl⟩ := Option.map_eq_some_iff.mp moved
    exact Or.inl (by rw [heap_reset]; exact absent_closeLocal absent _ _)
  | close r' =>
    obtain ⟨s, held, rfl⟩ := Option.map_eq_some_iff.mp moved
    exact Or.inl (absent_closeLocal absent _ _)
  | runTask task sent =>
    simp only [Host.step] at moved
    split at moved
    · cases moved
      unfold runTask
      cases task with
      | reset r' =>
        refine Or.inl ?_
        rw [heap_reset]
        exact absent_closeLocal (by simpa using absent) _ _
      | sendOnce sid => exact Or.inl absent
      | sendOnceSent sid => exact Or.inl absent
    · cases moved
  | goaway sent => cases moved; exact Or.inl absent
  | rearmIdle =>
    simp only [Host.step] at moved
    split at moved
    · cases moved
    · cases moved; exact Or.inl absent
  | writeStall => cases moved; exact Or.inl absent
  | closeStall => cases moved; exact Or.inl absent

end

end Host
end Chute
