import Chute.Mux.Emits

/-!
# Steps that go through

What the steps of a connection come to when nothing stands in their way: a stream is
opened, a byte is sent and arrives. Runs that show a defect are put together from these.
-/
namespace Chute

namespace Host

variable {h : Host}

/-- `open` has a free id and a free slot. -/
theorem step_openStream_of_room (initiator : h.mux.config.acceptsOpen = false)
    (steady : h.mux.draining = false) (room : h.mux.activeStreams < h.mux.config.maxStreams)
    (small : h.mux.nextId ≤ 0xFFFFFFFF) :
    h.step (.openStream true) = some ⟨⟨opened h.mux true, h.account⟩,
      [⟨.open_, UInt32.ofNat h.mux.nextId, []⟩], .suspended⟩ := by
  have able : ¬(h.mux.draining = true ∨ h.mux.activeStreams ≥ h.mux.config.maxStreams ∨
      h.mux.nextId > 0xFFFFFFFF) := by
    rintro (draining | full | large)
    · rw [steady] at draining
      cases draining
    · omega
    · omega
  simp only [Host.step, initiator, Bool.false_eq_true, if_false, openStream, able, emit, if_true]
  rfl

/-- The only `open` in progress returns. -/
theorem step_openReturn_of_opening {r : Ref} (opening : h.mux.opening = [(r, true)]) :
    h.step (.openReturn r) = some ⟨h.updateMux fun m =>
      { m with
        opening := []
        stats := { m.stats with opened := m.stats.opened + 1 } }, [], .returned⟩ := by
  simp [Host.step, opening, updateMux]

theorem held_of_heap {m : Mux} {r : Ref} {s : Stream} (settled : m.opening = [])
    (found : m.heap r = some s) : m.held r = some s := by
  simp [Mux.held, settled, found]

/-- `send` puts a byte on the connection. -/
theorem step_send_of_credit {r : Ref} {s : Stream} {b : UInt8} (settled : h.mux.opening = [])
    (found : h.mux.heap r = some s) (free : s.sender = none) (going : s.sendDone = false)
    (credit : 0 < s.sendWindow) :
    h.step (.send r [b] true) = some ⟨h.setStream r
      { s with sendWindow := s.sendWindow - 1, sender := some (.data [] true) },
      [⟨.data, r.sid, [b]⟩], .suspended⟩ := by
  have one : min (min 1 s.sendWindow.toNat) maxFramePayload = 1 := by
    simp only [maxFramePayload]
    omega
  simp only [Host.step, held_of_heap settled found, Option.bind_some, free, if_true,
    Stream.sendStart, going, Bool.false_eq_true, if_false, Stream.sendLoop, Stream.sendChunk,
    List.cons_ne_nil, not_le.mpr credit, List.length_singleton, one, afterSend, emit,
    List.take_one, List.head?_cons, Option.toList_some, List.drop_one, List.tail_cons]
  rfl

/-- `send` returns once its last chunk is out. -/
theorem step_sendResume_of_sent {r : Ref} {s : Stream} (settled : h.mux.opening = [])
    (found : h.mux.heap r = some s) (busy : s.sender = some (.data [] true)) :
    h.step (.sendResume r true) =
      some ⟨h.setStream r { s with sender := none }, [], .returned⟩ := by
  simp only [Host.step, held_of_heap settled found, Option.bind_some, sendResume, busy,
    Stream.sendLoop, if_true, afterSend]

/-- The turn of the loop in `run` for a frame. -/
theorem step_frame {f : Frame} (running : h.mux.running = true) {h' : Host}
    (handled : h.onFrame f.ftype.code f.sid f.payload = .ok h') :
    h.step (.message (.binary f.message)) = some ⟨h', [], .returned⟩ := by
  simp only [Host.step, running, if_true, onMessage, Frame.message, decode_encode, handled]

/-- An OPEN is accepted. -/
theorem step_open_of_room {sid : StreamId} (running : h.mux.running = true) (nonzero : sid ≠ 0)
    (responder : h.mux.config.acceptsOpen = true) (steady : h.mux.draining = false)
    (new : h.mux.registered sid = none) (room : h.mux.activeStreams < h.mux.config.maxStreams) :
    h.step (.message (.binary (Frame.message ⟨.open_, sid, []⟩))) = some ⟨h.updateMux fun m =>
      { m.register sid with stats := { m.stats with opened := m.stats.opened + 1 } },
      [], .returned⟩ := by
  apply step_frame running
  simp [onFrame, onOpen, nonzero, responder, steady, new, not_le.mpr room]

/-- A piece of data is queued. -/
theorem step_data_of_room {r : Ref} {s : Stream} {payload : Bytes} (running : h.mux.running = true)
    (nonzero : r.sid ≠ 0) (registered : h.mux.registered r.sid = some r)
    (found : h.mux.heap r = some s) (accepting : s.recv = .open_) (some_data : payload ≠ [])
    {g : Host} (fits : h.feedLimit s payload = (none, g)) :
    h.step (.message (.binary (Frame.message ⟨.data, r.sid, payload⟩))) = some ⟨g.updateMux fun m =>
      { m.setStream r { s with
          incoming := s.incoming ++ [some payload]
          recvBuffered := s.recvBuffered + payload.length
          recvFrames := s.recvFrames + 1 } with
        buffered := m.buffered + payload.length
        frames := m.frames + 1 }, [], .returned⟩ := by
  apply step_frame running
  simp only [onFrame, FrameType.ofCode_code, onData, nonzero, if_false, registered, found, feed,
    accepting, ne_eq, not_true_eq_false, some_data, fits]
  rfl

/-- A frame about a stream that is not registered is ignored. -/
theorem step_unknown {sid : StreamId} {payload : Bytes} (running : h.mux.running = true)
    (absent : h.mux.registered sid = none) :
    h.step (.message (.binary (Frame.message ⟨.data, sid, payload⟩))) =
      some ⟨h.ignoreFrame, [], .returned⟩ := by
  apply step_frame running
  simp only [onFrame, FrameType.ofCode_code, onData, absent]
  split <;> rfl

/-- `reset` on a live stream. -/
theorem step_reset_of_live {r : Ref} {s : Stream} (settled : h.mux.opening = [])
    (found : h.mux.heap r = some s) (live : s.closed = false) :
    h.step (.reset r true) = some ⟨(h.closeLocal r .reset).updateMux fun m =>
      { m with stats := { m.stats with resetLocal := m.stats.resetLocal + 1 } },
      [⟨.reset, r.sid, []⟩], .returned⟩ := by
  simp only [Host.step, held_of_heap settled found, Option.map_some, reset, resetLocalNow, found,
    live, Bool.false_eq_true, if_false, emit, if_true]
  rfl

/-- The peer's RESET tears a stream down. -/
theorem step_reset_arrives {r : Ref} (running : h.mux.running = true) (nonzero : r.sid ≠ 0)
    (registered : h.mux.registered r.sid = some r) :
    h.step (.message (.binary (Frame.message ⟨.reset, r.sid, []⟩))) = some ⟨(h.updateMux fun m =>
      { m with stats := { m.stats with resetPeer := m.stats.resetPeer + 1 } }).closeLocal r .reset,
      [], .returned⟩ := by
  apply step_frame running
  simp only [onFrame, FrameType.ofCode_code, onReset, nonzero, if_false, registered]

/-- The backstops let a piece through. -/
theorem feedLimit_of_room {s : Stream} {data : Bytes}
    (bytes : s.recvBuffered + data.length ≤ h.mux.config.streamHardMax)
    (frames : s.recvFrames + 1 ≤ h.mux.config.maxQueuedFrames)
    (connBytes : h.mux.buffered + data.length ≤ maxConnBuffered)
    (connFrames : h.mux.frames + 1 ≤ maxConnFrames)
    (unlimited : h.account.maxBufferedBytes = none) :
    ∃ g, h.feedLimit s data = (none, g) ∧ g.mux = h.mux := by
  have reserved : ∃ g, h.reserveBuffer data.length = (true, g) ∧ g.mux = h.mux := by
    unfold reserveBuffer
    split
    · exact ⟨h, rfl, rfl⟩
    · simp only [Account.tryReserve, unlimited]
      exact ⟨_, rfl, rfl⟩
  obtain ⟨g, reserved, same⟩ := reserved
  refine ⟨g, ?_, same⟩
  simp only [feedLimit, not_lt.mpr bytes, not_lt.mpr frames, not_lt.mpr connBytes,
    not_lt.mpr connFrames, if_false, reserved]

end Host

end Chute
