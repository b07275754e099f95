import Mathlib.Data.List.AList

/-!
# Counters by key

A table with a counter for each key in use. Taking counts one up, giving back counts one
down, and the entry goes with the last one. Such a table counts the holders of its keys when
every holder takes once and gives back once.
-/
namespace Tally

variable {κ α : Type} [DecidableEq κ]

/-- The counter of a key; a key without an entry counts nothing. -/
def count (table : AList fun _ : κ => Nat) (k : κ) : Nat := (table.lookup k).getD 0

def take (table : AList fun _ : κ => Nat) (k : κ) : AList fun _ : κ => Nat :=
  table.insert k (count table k + 1)

def give (table : AList fun _ : κ => Nat) (k : κ) : AList fun _ : κ => Nat :=
  if count table k ≤ 1 then table.erase k else table.insert k (count table k - 1)

/-- No entry counts nothing. -/
def Proper (table : AList fun _ : κ => Nat) : Prop := ∀ k, table.lookup k ≠ some 0

variable {table : AList fun _ : κ => Nat} {k : κ}

theorem count_insert (k other : κ) (n : Nat) :
    count (table.insert k n) other = if other = k then n else count table other := by
  unfold count
  split
  next same =>
    subst same
    simp
  next apart => simp [AList.lookup_insert_ne apart]

theorem count_erase (k other : κ) :
    count (table.erase k) other = if other = k then 0 else count table other := by
  unfold count
  split
  next same =>
    subst same
    simp
  next apart => simp [AList.lookup_erase_ne apart]

theorem count_take (k other : κ) :
    count (take table k) other = count table other + if other = k then 1 else 0 := by
  rw [take, count_insert]
  split
  next same => rw [same]
  · rfl

theorem count_give (k other : κ) :
    count (give table k) other = count table other - if other = k then 1 else 0 := by
  unfold give
  split
  next last =>
    rw [count_erase]
    split
    next same =>
      subst same
      omega
    · rfl
  · rw [count_insert]
    split
    next same => rw [same]
    · rfl

theorem count_give_take (k other : κ) : count (give (take table k) k) other = count table other := by
  rw [count_give, count_take]
  omega

theorem Proper.insert (proper : Proper table) {n : Nat} (positive : n ≠ 0) :
    Proper (table.insert k n) := by
  intro other
  by_cases same : other = k
  · subst same
    simpa using positive
  · rw [AList.lookup_insert_ne same]
    exact proper other

theorem Proper.take (proper : Proper table) : Proper (take table k) :=
  proper.insert (Nat.succ_ne_zero _)

theorem Proper.give (proper : Proper table) : Proper (give table k) := by
  unfold Tally.give
  split
  · intro other
    by_cases same : other = k
    · subst same
      simp
    · rw [AList.lookup_erase_ne same]
      exact proper other
  · exact proper.insert (by omega)

/-- A key is in use exactly when it counts something. -/
theorem Proper.mem_iff (proper : Proper table) : k ∈ table ↔ 0 < count table k := by
  rw [← AList.lookup_isSome, count]
  cases found : table.lookup k with
  | none => simp
  | some n =>
    have positive : n ≠ 0 := fun zero => proper k (by rw [found, zero])
    simp only [Option.isSome_some, Option.getD_some, true_iff]
    omega

/-- One key more at most, and none where the key is in use already. -/
theorem Proper.keys_take (proper : Proper table) {limit : Nat} (within : table.keys.length ≤ limit)
    (room : count table k = 0 → table.keys.length < limit) :
    (Tally.take table k).keys.length ≤ limit := by
  unfold Tally.take
  rw [AList.keys_insert, List.length_cons]
  by_cases used : k ∈ table
  · have shorter := List.length_erase_of_mem (AList.mem_keys.mp used)
    have positive := List.length_pos_of_mem (AList.mem_keys.mp used)
    omega
  · have unused : count table k = 0 := by
      by_contra counts
      exact used (proper.mem_iff.mpr (Nat.pos_of_ne_zero counts))
    rw [List.erase_of_not_mem (fun member => used (AList.mem_keys.mpr member))]
    exact room unused

theorem keys_give : (give table k).keys.length ≤ table.keys.length := by
  unfold give
  split
  · rw [AList.keys_erase]
    exact List.length_erase_le
  next more =>
    have used : k ∈ table.keys := by
      rw [← AList.mem_keys, ← AList.lookup_isSome]
      cases found : table.lookup k with
      | none => simp [count, found] at more
      | some n => rfl
    rw [AList.keys_insert, List.length_cons, List.length_erase_of_mem used]
    have positive := List.length_pos_of_mem used
    omega

/-! ### Holders -/

/-- Counting a list of which one element has changed. -/
theorem countP_modify (p : α → Bool) {l : List α} {k : Nat} {a : α} (f : α → α)
    (here : l[k]? = some a) :
    (l.modify k f).countP p + (p a).toNat = l.countP p + (p (f a)).toNat := by
  induction l generalizing k with
  | nil => simp at here
  | cons b rest ih =>
    cases k with
    | zero =>
      simp only [List.getElem?_cons_zero, Option.some.injEq] at here
      subst here
      simp only [List.modify_zero_cons, List.countP_cons]
      cases p b <;> cases p (f b) <;> simp
    | succ k =>
      have later := ih (by simpa using here)
      simp only [List.modify_succ_cons, List.countP_cons]
      omega

end Tally
