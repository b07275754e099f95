import Mathlib.Data.List.ReduceOption
import Chute.Mux.Run

/-!
# What teardown does to a connection

`_close_local` in one equation, and the loop over the registry in the `finally`
of `Mux.run`.
-/
namespace Chute

namespace Stream

/-- What `_close_local` leaves of a live stream. -/
def shut (s : Stream) (terminal : RecvState) : Stream :=
  { s with closed := true, windowWaiter := true, recvBuffered := 0, recvFrames := 0 }.endRecv
    terminal

/-- The data waiting in `_incoming`. -/
def chunks (s : Stream) : List Bytes := s.incoming.reduceOption

def queuedBytes (s : Stream) : Nat := (s.chunks.map List.length).sum

@[simp] theorem chunks_endRecv (s : Stream) (t : RecvState) : (s.endRecv t).chunks = s.chunks := by
  unfold endRecv chunks
  split
  · simp [List.reduceOption_append]
  · rfl

theorem recv_endRecv (s : Stream) (t : RecvState) :
    (s.endRecv t).recv = if s.recv = .open_ then t else s.recv := by
  unfold endRecv
  split <;> simp_all

@[simp] theorem closed_endRecv (s : Stream) (t : RecvState) : (s.endRecv t).closed = s.closed := by
  unfold endRecv; split <;> rfl

@[simp] theorem recvBuffered_endRecv (s : Stream) (t : RecvState) :
    (s.endRecv t).recvBuffered = s.recvBuffered := by
  unfold endRecv; split <;> rfl

@[simp] theorem recvFrames_endRecv (s : Stream) (t : RecvState) :
    (s.endRecv t).recvFrames = s.recvFrames := by
  unfold endRecv; split <;> rfl

@[simp] theorem sendWindow_endRecv (s : Stream) (t : RecvState) :
    (s.endRecv t).sendWindow = s.sendWindow := by
  unfold endRecv; split <;> rfl

@[simp] theorem sender_endRecv (s : Stream) (t : RecvState) : (s.endRecv t).sender = s.sender := by
  unfold endRecv; split <;> rfl

@[simp] theorem sendEnded_endRecv (s : Stream) (t : RecvState) :
    (s.endRecv t).sendEnded = s.sendEnded := by
  unfold endRecv; split <;> rfl

@[simp] theorem windowWaiter_endRecv (s : Stream) (t : RecvState) :
    (s.endRecv t).windowWaiter = s.windowWaiter := by
  unfold endRecv; split <;> rfl

@[simp] theorem unacked_endRecv (s : Stream) (t : RecvState) :
    (s.endRecv t).unacked = s.unacked := by
  unfold endRecv; split <;> rfl

@[simp] theorem closed_shut (s : Stream) (t : RecvState) : (s.shut t).closed = true := by
  simp [shut]

@[simp] theorem chunks_shut (s : Stream) (t : RecvState) : (s.shut t).chunks = s.chunks := by
  rw [shut, chunks_endRecv]
  rfl

@[simp] theorem sendWindow_shut (s : Stream) (t : RecvState) :
    (s.shut t).sendWindow = s.sendWindow := by
  simp [shut]

@[simp] theorem sender_shut (s : Stream) (t : RecvState) : (s.shut t).sender = s.sender := by
  simp [shut]

@[simp] theorem sendEnded_shut (s : Stream) (t : RecvState) :
    (s.shut t).sendEnded = s.sendEnded := by
  simp [shut]

@[simp] theorem windowWaiter_shut (s : Stream) (t : RecvState) :
    (s.shut t).windowWaiter = true := by
  simp [shut]

@[simp] theorem unacked_shut (s : Stream) (t : RecvState) : (s.shut t).unacked = s.unacked := by
  simp [shut]

theorem recv_shut (s : Stream) (t : RecvState) :
    (s.shut t).recv = if s.recv = .open_ then t else s.recv := by
  rw [shut, recv_endRecv]

end Stream

namespace Mux

@[simp] theorem heap_setStream_self (m : Mux) (r : Ref) (s : Stream) :
    (m.setStream r s).heap r = some s := by
  simp [setStream]

theorem heap_setStream_ne (m : Mux) {r r' : Ref} (s : Stream) (ne : r' ≠ r) :
    (m.setStream r s).heap r' = m.heap r' := by
  simp [setStream, ne]

theorem registered_eq_some {m : Mux} {sid : StreamId} {r : Ref} :
    m.registered sid = some r ↔ r.sid = sid ∧ m.streams.lookup sid = some r.gen := by
  unfold registered
  constructor
  · intro found
    obtain ⟨gen, lookup, rfl⟩ := Option.map_eq_some_iff.mp found
    exact ⟨rfl, lookup⟩
  · rintro ⟨rfl, lookup⟩
    simp [lookup]

theorem held_heap {m : Mux} {r : Ref} {s : Stream} (held : m.held r = some s) :
    m.heap r = some s := by
  unfold Mux.held at held
  split at held
  · cases held
  · exact held

end Mux

namespace Host

@[simp] theorem mux_releaseBuffer (h : Host) (n : Int) : (h.releaseBuffer n).mux = h.mux := by
  unfold releaseBuffer; split <;> rfl

@[simp] theorem mux_reserveBuffer (h : Host) (n : Int) : (h.reserveBuffer n).2.mux = h.mux := by
  unfold reserveBuffer; split <;> rfl

@[simp] theorem mux_updateMux (h : Host) (f : Mux → Mux) : (h.updateMux f).mux = f h.mux := rfl

@[simp] theorem account_updateMux (h : Host) (f : Mux → Mux) :
    (h.updateMux f).account = h.account := rfl

@[simp] theorem mux_setStream (h : Host) (r : Ref) (s : Stream) :
    (h.setStream r s).mux = h.mux.setStream r s := rfl

@[simp] theorem account_setStream (h : Host) (r : Ref) (s : Stream) :
    (h.setStream r s).account = h.account := rfl

theorem mux_feedLimit (h : Host) (s : Stream) (data : Bytes) :
    (h.feedLimit s data).2.mux = h.mux := by
  unfold feedLimit
  repeat' split
  all_goals first | rfl | skip
  all_goals
    rename_i booked
    have := h.mux_reserveBuffer data.length
    rw [booked] at this
    exact this

theorem closeLocal_closed {h : Host} {r : Ref} {s : Stream} {t : RecvState}
    (found : h.mux.heap r = some s) (closed : s.closed = true) : h.closeLocal r t = h := by
  simp [closeLocal, found, closed]

theorem closeLocal_none {h : Host} {r : Ref} {t : RecvState} (absent : h.mux.heap r = none) :
    h.closeLocal r t = h := by
  simp [closeLocal, absent]

/-- The one equation of `_close_local` on a live stream. -/
theorem closeLocal_live {h : Host} {r : Ref} {s : Stream} {t : RecvState}
    (found : h.mux.heap r = some s) (live : s.closed = false) :
    h.closeLocal r t =
      { mux :=
          { h.mux with
            heap := Function.update h.mux.heap r (some (s.shut t))
            streams := h.mux.streams.erase r.sid
            buffered := h.mux.buffered - s.recvBuffered
            frames := h.mux.frames - s.recvFrames
            idle := h.mux.idle || (h.mux.streams.erase r.sid).entries.isEmpty }
        account := (h.releaseBuffer s.recvBuffered).account } := by
  simp only [closeLocal, found, live, Bool.false_eq_true, if_false]
  simp only [setStream, releaseBuffer, Mux.setStream, Mux.remove, Stream.shut]
  split <;> rfl

/-- The heap after `_close_local`. -/
theorem heap_closeLocal (h : Host) (r r' : Ref) (t : RecvState) :
    (h.closeLocal r t).mux.heap r' =
      if r' = r then (h.mux.heap r).map (fun s => if s.closed then s else s.shut t)
      else h.mux.heap r' := by
  cases found : h.mux.heap r with
  | none =>
    rw [closeLocal_none found]
    split
    · simp_all
    · rfl
  | some s =>
    cases closed : s.closed with
    | true =>
      rw [closeLocal_closed found closed]
      split
      · simp_all
      · rfl
    | false =>
      rw [closeLocal_live found closed]
      by_cases same : r' = r <;> simp [same, closed]

/-- What teardown never touches. -/
structure Kept (m m' : Mux) : Prop where
  config : m'.config = m.config
  made : m'.made = m.made
  nextId : m'.nextId = m.nextId
  opening : m'.opening = m.opening
  tasks : m'.tasks = m.tasks
  resetSends : m'.resetSends = m.resetSends
  goingAway : m'.goingAway = m.goingAway
  peerGoingAway : m'.peerGoingAway = m.peerGoingAway
  stats : m'.stats = m.stats
  running : m'.running = m.running
  transportAborted : m'.transportAborted = m.transportAborted

theorem Kept.refl (m : Mux) : Kept m m := ⟨rfl, rfl, rfl, rfl, rfl, rfl, rfl, rfl, rfl, rfl, rfl⟩

theorem Kept.trans {m₁ m₂ m₃ : Mux} (first : Kept m₁ m₂) (second : Kept m₂ m₃) : Kept m₁ m₃ :=
  ⟨second.config.trans first.config, second.made.trans first.made,
    second.nextId.trans first.nextId, second.opening.trans first.opening,
    second.tasks.trans first.tasks, second.resetSends.trans first.resetSends,
    second.goingAway.trans first.goingAway, second.peerGoingAway.trans first.peerGoingAway,
    second.stats.trans first.stats, second.running.trans first.running,
    second.transportAborted.trans first.transportAborted⟩

theorem kept_closeLocal (h : Host) (r : Ref) (t : RecvState) :
    Kept h.mux (h.closeLocal r t).mux := by
  cases found : h.mux.heap r with
  | none => rw [closeLocal_none found]; exact Kept.refl _
  | some s =>
    cases closed : s.closed with
    | true => rw [closeLocal_closed found closed]; exact Kept.refl _
    | false =>
      rw [closeLocal_live found closed]
      exact ⟨rfl, rfl, rfl, rfl, rfl, rfl, rfl, rfl, rfl, rfl, rfl⟩

/-! ### The loop of the `finally` -/

/-- Abort a list of stream objects one after the other. -/
def abortAll (h : Host) (entries : List (Sigma fun _ : StreamId => Nat)) : Host :=
  entries.foldl (fun h e => h.closeLocal ⟨e.1, e.2⟩ .reset) h

theorem finish_eq (h : Host) :
    h.finish = (h.abortAll h.mux.streams.entries).updateMux fun m =>
      { m with
        streams := ∅
        resetSends := m.resetSends.filter fun sid => Task.sendOnceSent sid ∉ m.tasks
        tasks := []
        running := false } := rfl

theorem abortAll_cons (h : Host) (e : Sigma fun _ : StreamId => Nat)
    (entries : List (Sigma fun _ : StreamId => Nat)) :
    h.abortAll (e :: entries) = (h.closeLocal ⟨e.1, e.2⟩ .reset).abortAll entries := rfl

theorem kept_abortAll (h : Host) (entries : List (Sigma fun _ : StreamId => Nat)) :
    Kept h.mux (h.abortAll entries).mux := by
  induction entries generalizing h with
  | nil => exact Kept.refl _
  | cons e entries ih =>
    rw [abortAll_cons]
    exact (kept_closeLocal h ⟨e.1, e.2⟩ .reset).trans (ih _)

theorem heap_abortAll (h : Host) (entries : List (Sigma fun _ : StreamId => Nat)) (r : Ref) :
    (h.abortAll entries).mux.heap r =
      if (⟨r.sid, r.gen⟩ : Sigma fun _ : StreamId => Nat) ∈ entries then
        (h.mux.heap r).map (fun s => if s.closed then s else s.shut .reset)
      else h.mux.heap r := by
  induction entries generalizing h with
  | nil => simp [abortAll]
  | cons e entries ih =>
    rw [abortAll_cons, ih, heap_closeLocal]
    by_cases same : r = ⟨e.1, e.2⟩
    · subst same
      cases h.mux.heap ⟨e.1, e.2⟩ with
      | none => simp
      | some s =>
        by_cases closed : s.closed = true <;> simp [closed]
    · have apart : (⟨r.sid, r.gen⟩ : Sigma fun _ : StreamId => Nat) ≠ e := by
        rintro rfl
        exact same rfl
      simp [same, apart]

/-- After the `finally` every stream that was registered is shut with an abort. -/
theorem heap_finish (h : Host) (r : Ref) :
    h.finish.mux.heap r =
      if h.mux.streams.lookup r.sid = some r.gen then
        (h.mux.heap r).map (fun s => if s.closed then s else s.shut .reset)
      else h.mux.heap r := by
  rw [finish_eq, mux_updateMux]
  change (h.abortAll h.mux.streams.entries).mux.heap r = _
  rw [heap_abortAll]
  simp only [AList.mem_lookup_iff.symm, Option.mem_def]

end Host

end Chute
