import Mathlib.Data.List.Basic
import Mathlib.Logic.Function.Basic

/-!
# Shelves

Numbered places, each of which is empty or holds a list. The oldest entries stand in the
highest place and the newest at the end of place 0. Entries grow old by moving up.
-/
namespace Shelf

variable {α : Type*} {shelf other : Nat → Option (List α)} {n i : Nat}

/-- All entries up to a place, the oldest first. -/
def gather (shelf : Nat → Option (List α)) : Nat → List α
  | 0 => (shelf 0).getD []
  | n + 1 => (shelf (n + 1)).getD [] ++ gather shelf n

/-- What stood in one place stands in another. -/
def move {β : Type*} (shelf : Nat → Option β) (i j : Nat) : Nat → Option β :=
  Function.update (Function.update shelf j (shelf i)) i none

theorem move_eq {β : Type*} (shelf : Nat → Option β) (i j k : Nat) :
    move shelf i j k = if k = i then none else if k = j then shelf i else shelf k := by
  unfold move
  split
  next same => rw [same, Function.update_self]
  next apart =>
    rw [Function.update_of_ne apart]
    split
    next same => rw [same, Function.update_self]
    next different => rw [Function.update_of_ne different]

theorem gather_congr (same : ∀ i ≤ n, shelf i = other i) : gather shelf n = gather other n := by
  induction n with
  | zero => rw [gather, gather, same 0 (Nat.le_refl _)]
  | succ n ih =>
    rw [gather, gather, same (n + 1) (Nat.le_refl _), ih fun i inside => same i (Nat.le_succ_of_le inside)]

theorem gather_update_of_lt (above : n < i) (block : Option (List α)) :
    gather (Function.update shelf i block) n = gather shelf n :=
  gather_congr fun _ inside => Function.update_of_ne (by omega) ..

/-- The oldest entries are those of the highest place. -/
theorem gather_remove (shelf : Nat → Option (List α)) (n : Nat) :
    gather shelf n = (shelf n).getD [] ++ gather (Function.update shelf n none) n := by
  cases n with
  | zero => simp [gather]
  | succ n =>
    rw [gather, gather, gather_update_of_lt (Nat.lt_succ_self n), Function.update_self]
    rfl

/-- A move to the empty place above keeps all entries and their order. -/
theorem gather_move (inside : i + 1 ≤ n) (empty : shelf (i + 1) = none) :
    gather (move shelf i (i + 1)) n = gather shelf n := by
  induction n with
  | zero => omega
  | succ n ih =>
    rw [gather, gather]
    rcases Nat.lt_or_eq_of_le inside with below | here
    · have kept : move shelf i (i + 1) (n + 1) = shelf (n + 1) := by
        rw [move_eq, if_neg (by omega), if_neg (by omega)]
      rw [kept, ih (by omega)]
    · cases here
      have moved : move shelf i (i + 1) (i + 1) = shelf i := by
        rw [move_eq, if_neg (by omega), if_pos rfl]
      have left : gather (move shelf i (i + 1)) i = gather (Function.update shelf i none) i := by
        refine gather_congr fun j below => ?_
        rw [move_eq]
        by_cases same : j = i
        · rw [if_pos same, same, Function.update_self]
        · rw [if_neg same, if_neg (by omega), Function.update_of_ne same]
      rw [moved, left, empty, ← gather_remove]
      rfl

/-- What comes to place 0 is the newest. -/
theorem gather_append {block : List α} (held : shelf 0 = some block) (new : List α) :
    gather (Function.update shelf 0 (some (block ++ new))) n = gather shelf n ++ new := by
  induction n with
  | zero =>
    rw [gather, gather, Function.update_self, held]
    rfl
  | succ n ih =>
    rw [gather, gather, ih, Function.update_of_ne (Nat.succ_ne_zero n), List.append_assoc]

/-- An empty list in an empty place adds nothing. -/
theorem gather_open (empty : shelf i = none) :
    gather (Function.update shelf i (some [])) n = gather shelf n := by
  induction n with
  | zero =>
    rw [gather, gather]
    by_cases same : i = 0
    · cases same
      rw [Function.update_self, empty]
      rfl
    · rw [Function.update_of_ne (Ne.symm same)]
  | succ n ih =>
    rw [gather, gather, ih]
    by_cases same : n + 1 = i
    · cases same
      rw [Function.update_self, empty]
      rfl
    · rw [Function.update_of_ne same]

/-- The entries of a place are among all. -/
theorem mem_gather {block : List α} (inside : i ≤ n) (held : shelf i = some block) {a : α}
    (member : a ∈ block) : a ∈ gather shelf n := by
  induction n with
  | zero =>
    cases Nat.le_zero.mp inside
    rw [gather, held]
    exact member
  | succ n ih =>
    rw [gather]
    rcases Nat.lt_or_eq_of_le inside with below | here
    · exact List.mem_append_right _ (ih (Nat.le_of_lt_succ below))
    · rw [← here, held]
      exact List.mem_append_left _ member

/-- Entries may be lists themselves, to be put together. -/
theorem gather_flatten (shelf : Nat → Option (List (List α))) (n : Nat) :
    gather (fun i => (shelf i).map List.flatten) n = (gather shelf n).flatten := by
  have place : ∀ i, ((shelf i).map List.flatten).getD [] = ((shelf i).getD []).flatten := by
    intro i
    cases shelf i <;> rfl
  induction n with
  | zero => rw [gather, gather, place]
  | succ n ih => rw [gather, gather, ih, place, List.flatten_append]

/-! ### Growing old -/

variable {β : Type*} {places : Nat → Option β}

/-- What stands in the places from 1 up to one moves up by one place, the highest first. -/
def shiftUp : Nat → (Nat → Option β) → Nat → Option β
  | 0, places => places
  | i + 1, places =>
    shiftUp i (if (places (i + 1)).isSome then move places (i + 1) (i + 2) else places)

/-- With room above, every place has then what was below it, and place 1 is free. -/
theorem shiftUp_spec (i : Nat) (empty : places (i + 1) = none) :
    shiftUp i places 0 = places 0 ∧ shiftUp i places 1 = none ∧
      (∀ k, 1 ≤ k → k ≤ i → shiftUp i places (k + 1) = places k) ∧
      ∀ k, i + 1 < k → shiftUp i places k = places k := by
  induction i generalizing places with
  | zero => exact ⟨rfl, empty, fun _ _ _ => by omega, fun _ _ => rfl⟩
  | succ i ih =>
    rw [shiftUp]
    cases held : places (i + 1) with
    | none =>
      obtain ⟨zero, one, moved, above⟩ := ih held
      refine ⟨zero, one, fun k low high => ?_, fun k past => above k (by omega)⟩
      rcases Nat.lt_or_eq_of_le high with below | here
      · exact moved k low (by omega)
      · rw [here, held]
        exact (above (i + 2) (by omega)).trans empty
    | some entry =>
      have apart : ∀ k, k ≠ i + 1 → k ≠ i + 2 → move places (i + 1) (i + 2) k = places k := by
        intro k other next
        rw [move_eq, if_neg other, if_neg next]
      have freed : move places (i + 1) (i + 2) (i + 1) = none := by
        rw [move_eq, if_pos rfl]
      obtain ⟨zero, one, moved, above⟩ := ih freed
      simp only [Option.isSome_some, if_true]
      refine ⟨?_, one, fun k low high => ?_, fun k past => ?_⟩
      · rw [zero, apart 0 (by omega) (by omega)]
      · rcases Nat.lt_or_eq_of_le high with below | here
        · rw [moved k low (by omega), apart k (by omega) (by omega)]
        · rw [here, above _ (by omega), move_eq, if_neg (by omega), if_pos rfl, held]
      · rw [above k (by omega), apart k (by omega) (by omega)]

end Shelf
