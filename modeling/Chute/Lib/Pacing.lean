import Mathlib.Algebra.Order.Field.Basic
import Mathlib.Tactic.Linarith

/-!
# Pacing

A sender that starts no chunk before the one before it would have been sent at a fixed rate
keeps to the rate over every interval, up to one chunk: an idle time earns it nothing.
-/
namespace Pacing

variable {α : Type*} [LinearOrder α]

/-- A chunk: when it was asked for, its bytes, and when it was released. -/
structure Chunk (α : Type*) where
  request : α
  bytes : Nat
  release : α
  deriving DecidableEq

/-- The bytes released from one time to another, both included. -/
def bytesWithin (first last : α) (chunks : List (Chunk α)) : Nat :=
  ((chunks.filter fun c => first ≤ c.release ∧ c.release ≤ last).map (·.bytes)).sum

theorem bytesWithin_cons (first last : α) (c : Chunk α) (rest : List (Chunk α)) :
    bytesWithin first last (c :: rest) =
      (if first ≤ c.release ∧ c.release ≤ last then c.bytes else 0) +
        bytesWithin first last rest := by
  unfold bytesWithin
  by_cases inside : first ≤ c.release ∧ c.release ≤ last
  · rw [List.filter_cons_of_pos (by simpa using inside), if_pos inside, List.map_cons, List.sum_cons]
  · rw [List.filter_cons_of_neg (by simpa using inside), if_neg inside, Nat.zero_add]

variable [Field α]

/-- No chunk is released before the sender is free, and each takes its bytes' time. -/
def Paced (rate : α) : α → List (Chunk α) → Prop
  | _, [] => True
  | free, c :: rest => free ≤ c.release ∧ Paced rate (c.release + c.bytes / rate) rest

variable {rate free : α} {chunks : List (Chunk α)}

theorem Paced.earlier {sooner : α} (paced : Paced rate free chunks) (ordered : sooner ≤ free) :
    Paced rate sooner chunks := by
  cases chunks with
  | nil => trivial
  | cons c rest => exact ⟨ordered.trans paced.1, paced.2⟩

variable [IsStrictOrderedRing α]

theorem le_free {c : Chunk α} (positive : 0 < rate) : c.release ≤ c.release + c.bytes / rate :=
  le_add_of_nonneg_right (div_nonneg (Nat.cast_nonneg _) positive.le)

theorem Paced.free_le (positive : 0 < rate) (paced : Paced rate free chunks) :
    ∀ c ∈ chunks, free ≤ c.release := by
  induction chunks generalizing free with
  | nil => exact fun _ member => absurd member List.not_mem_nil
  | cons c rest ih =>
    intro d member
    rcases List.mem_cons.mp member with rfl | later
    · exact paced.1
    · exact (paced.1.trans (le_free positive)).trans (ih paced.2 d later)

theorem Paced.ordered (positive : 0 < rate) (paced : Paced rate free chunks) :
    chunks.Pairwise fun c d => c.release ≤ d.release := by
  induction chunks generalizing free with
  | nil => exact .nil
  | cons c rest ih =>
    exact .cons (fun d later => (le_free positive).trans (paced.2.free_le positive d later))
      (ih paced.2)

/-- After the end of the interval nothing counts. -/
theorem bytesWithin_eq_zero {first last : α} (positive : 0 < rate)
    (paced : Paced rate free chunks) (past : last < free) : bytesWithin first last chunks = 0 := by
  unfold bytesWithin
  rw [List.filter_eq_nil_iff.mpr]
  · rfl
  · intro c member inside
    have released := paced.free_le positive c member
    exact absurd (past.trans_le released) (not_lt.mpr (of_decide_eq_true inside).2)

/-- The bytes of an interval, counted from where the sender is free in it: its time at the
rate, and the last chunk. -/
private theorem bytesWithin_le_from {first last : α} {largest : Nat} (positive : 0 < rate)
    (paced : Paced rate free chunks) (bounded : ∀ c ∈ chunks, c.bytes ≤ largest)
    (reached : max free first ≤ last) :
    (bytesWithin first last chunks : α) ≤ rate * (last - max free first) + largest := by
  induction chunks generalizing free with
  | nil =>
    have spent := mul_nonneg positive.le (sub_nonneg.mpr reached)
    have nothing : bytesWithin first last ([] : List (Chunk α)) = 0 := rfl
    rw [nothing, Nat.cast_zero]
    exact add_nonneg spent (Nat.cast_nonneg _)
  | cons c rest ih =>
    obtain ⟨started, paced⟩ := paced
    have later := started.trans (le_free (c := c) positive)
    have small : (c.bytes : α) ≤ largest := Nat.cast_le.mpr (bounded c List.mem_cons_self)
    have nonneg := mul_nonneg positive.le (sub_nonneg.mpr reached)
    have room : (0 : α) ≤ largest := Nat.cast_nonneg _
    have bounded := fun d (member : d ∈ rest) => bounded d (List.mem_cons_of_mem c member)
    have work : rate * (c.bytes / rate) = c.bytes := mul_div_cancel₀ _ positive.ne'
    rw [bytesWithin_cons]
    push_cast
    rcases le_or_gt (max (c.release + c.bytes / rate) first) last with again | past
    · have tail := ih paced bounded again
      by_cases inside : first ≤ c.release ∧ c.release ≤ last
      · -- the chunk's own bytes are the time it takes
        have from_here : max free first ≤ c.release := max_le started inside.1
        have ahead : c.release + c.bytes / rate ≤ max (c.release + c.bytes / rate) first :=
          le_max_left _ _
        rw [if_pos inside]
        have spent := mul_le_mul_of_nonneg_left (sub_le_sub_left ahead last) positive.le
        have before := mul_le_mul_of_nonneg_left (sub_le_sub_left from_here last) positive.le
        linarith [mul_sub rate last (c.release + c.bytes / rate), mul_sub rate last c.release,
          mul_add rate c.release (c.bytes / rate)]
      · rw [if_neg inside]
        have ahead : max free first ≤ max (c.release + c.bytes / rate) first :=
          max_le_max_right first later
        have spent := mul_le_mul_of_nonneg_left (sub_le_sub_left ahead last) positive.le
        linarith
    · have gone : bytesWithin first last rest = 0 := by
        rcases lt_max_iff.mp past with free_late | empty
        · exact bytesWithin_eq_zero positive paced free_late
        · exact absurd ((le_max_right free first).trans reached) (not_le.mpr empty)
      rw [gone]
      split <;> push_cast <;> linarith

/-- **Over every interval** the bytes are at most the rate for its length, and one chunk. -/
theorem Paced.bytesWithin_le {first length : α} {largest : Nat} (positive : 0 < rate)
    (paced : Paced rate free chunks) (bounded : ∀ c ∈ chunks, c.bytes ≤ largest)
    (forward : 0 ≤ length) :
    (bytesWithin first (first + length) chunks : α) ≤ rate * length + largest := by
  have early := paced.earlier (min_le_left free first)
  have here : max (min free first) first = first := max_eq_right (min_le_right _ _)
  have counted := bytesWithin_le_from positive early bounded
    (here.trans_le (le_add_of_nonneg_right forward))
  rwa [here, add_sub_cancel_left] at counted

end Pacing
