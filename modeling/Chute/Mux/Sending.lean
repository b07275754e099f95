import Chute.Mux.Run

/-!
# What a segment of `send` can do

The loops of `Stream.send` between two `await`s, as a list of outcomes.
-/
namespace Chute

namespace Stream

/-- The outcomes of `send` from the head of its loop to the next `await`. -/
inductive Sends (s : Stream) (view : Bytes) (sent : Bool) : Stream × Option Bytes × Result → Prop
  | returns (empty : view = []) : Sends s view sent ({ s with sender := none }, none, .returned)
  | raises (left : view ≠ []) (done : s.sendDone = true) :
      Sends s view sent ({ s with sender := none }, none, .raised)
  | parks (left : view ≠ []) (going : s.sendDone = false) (dry : s.sendWindow ≤ 0) :
      Sends s view sent
        ({ s with windowWaiter := false, sender := some (.credit view) }, none, .suspended)
  | emits (n : Nat) (going : s.sendDone = false) (pos : 0 < n) (fits : n ≤ view.length)
      (credit : (n : Int) ≤ s.sendWindow) (frame : n ≤ maxFramePayload) :
      Sends s view sent
        ({ s with sendWindow := s.sendWindow - n, sender := some (.data (view.drop n) sent) },
          some (view.take n), .suspended)

theorem sends_sendChunk {s : Stream} {view : Bytes} (sent : Bool) (left : view ≠ [])
    (credit : 0 < s.sendWindow) : Sends s view sent (s.sendChunk view sent) := by
  unfold sendChunk
  split
  next done => exact .raises left done
  next going =>
    have some_view := List.length_pos_iff.mpr left
    refine .emits _ (by simpa using going) ?_ ?_ ?_ ?_ <;> simp only [maxFramePayload] <;> omega

theorem sends_sendLoop (s : Stream) (view : Bytes) (sent : Bool) :
    Sends s view sent (s.sendLoop view sent) := by
  unfold sendLoop
  split
  next empty => exact .returns empty
  next left =>
    split
    next dry =>
      split
      next done => exact .raises left done
      next going =>
        have still : ¬((decide (s.sendWindow > 0) || s.sendDone) = true) := by
          simp only [Bool.or_eq_true, decide_eq_true_eq, not_or]
          exact ⟨by omega, by simpa using going⟩
        have recheck : ¬((decide ({ s with windowWaiter := false }.sendWindow > 0) ||
            { s with windowWaiter := false }.sendDone) = true) := still
        simp only [if_neg recheck]
        exact .parks left (by simpa using going) dry
    next credit => exact sends_sendChunk sent left (by omega)

/-- The outcomes of `send` once it has the lock: those of its loop, or a refusal. -/
theorem sendStart_eq (s : Stream) (data : Bytes) (sent : Bool) :
    s.sendStart data sent = (s, none, .raised) ∧ s.sendDone = true ∨
      s.sendStart data sent = s.sendLoop data sent ∧ s.sendDone = false := by
  unfold sendStart
  cases s.sendDone <;> simp

/-- A segment of `send` touches the window, the waiter and the lock, nothing else. -/
theorem Sends.frame {s : Stream} {view : Bytes} {sent : Bool} {out : Stream × Option Bytes × Result}
    (sends : Sends s view sent out) :
    out.1.incoming = s.incoming ∧ out.1.recv = s.recv ∧ out.1.recvBuffered = s.recvBuffered ∧
      out.1.recvFrames = s.recvFrames ∧ out.1.unacked = s.unacked ∧
      out.1.sendEnded = s.sendEnded ∧ out.1.closed = s.closed := by
  cases sends <;> exact ⟨rfl, rfl, rfl, rfl, rfl, rfl, rfl⟩

/-- A segment of `send` never overdraws the window. -/
theorem Sends.window {s : Stream} {view : Bytes} {sent : Bool} {out : Stream × Option Bytes × Result}
    (sends : Sends s view sent out) :
    out.1.sendWindow ≤ s.sendWindow ∧ (0 ≤ s.sendWindow → 0 ≤ out.1.sendWindow) := by
  cases sends with
  | returns empty => exact ⟨le_refl _, id⟩
  | raises left done => exact ⟨le_refl _, id⟩
  | parks left going dry => exact ⟨le_refl _, id⟩
  | emits n going pos fits credit frame => simp only; omega

/-- The payload of an emitted chunk is not empty and fits a frame. -/
theorem Sends.chunk {s : Stream} {view : Bytes} {sent : Bool} {out : Stream × Option Bytes × Result}
    (sends : Sends s view sent out) {chunk : Bytes} (emitted : out.2.1 = some chunk) :
    chunk ≠ [] ∧ chunk.length ≤ maxFramePayload := by
  cases sends with
  | returns empty => cases emitted
  | raises left done => cases emitted
  | parks left going dry => cases emitted
  | emits n going pos fits credit frame =>
    cases emitted
    have length : (view.take n).length = n := by simp; omega
    refine ⟨?_, by omega⟩
    intro empty
    rw [empty] at length
    simp at length
    omega

end Stream

end Chute
