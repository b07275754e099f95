import Mathlib.Data.List.AList
import Mathlib.Algebra.BigOperators.Group.List.Basic
import Mathlib.Algebra.Order.BigOperators.Group.List
import Mathlib.Algebra.Order.Group.Nat
import Mathlib.Tactic.Abel

/-!
# Totals over association lists

`sumBy f s` adds up `f` over the entries of a finite map.
-/
namespace AList

variable {α : Type*} {β : α → Type*} {M : Type*}

def sumBy [AddMonoid M] (f : ∀ a, β a → M) (s : AList β) : M :=
  (s.entries.map fun e => f e.1 e.2).sum

@[simp] theorem sumBy_empty [AddMonoid M] (f : ∀ a, β a → M) : sumBy f (∅ : AList β) = 0 := rfl

variable [DecidableEq α]

theorem mem_entries_iff {s : AList β} {a : α} {b : β a} :
    (⟨a, b⟩ : Sigma β) ∈ s.entries ↔ s.lookup a = some b :=
  (mem_lookup_iff (s := s)).symm

theorem sumBy_insert [AddMonoid M] (f : ∀ a, β a → M) {s : AList β} {a : α} (b : β a) (new : a ∉ s) :
    sumBy f (s.insert a b) = f a b + sumBy f s := by
  rw [sumBy, entries_insert_of_notMem new, List.map_cons, List.sum_cons, sumBy]

/-- Two functions that agree on the entries have the same total. -/
theorem sumBy_congr [AddMonoid M] {f g : ∀ a, β a → M} {s : AList β}
    (agree : ∀ a b, s.lookup a = some b → f a b = g a b) : sumBy f s = sumBy g s := by
  have pointwise : ∀ e ∈ s.entries, f e.1 e.2 = g e.1 e.2 :=
    fun e member => agree e.1 e.2 (mem_entries_iff.mp member)
  simp only [sumBy, List.map_congr_left pointwise]

theorem entries_perm_erase {s : AList β} {a : α} {b : β a} (found : s.lookup a = some b) :
    s.entries.Perm (⟨a, b⟩ :: (s.erase a).entries) := by
  have member : a ∈ s.entries.keys := lookup_isSome.mp (by simp [found])
  obtain ⟨b', front, back, absent, split, erased⟩ := List.exists_of_kerase member
  have same : b' = b := by
    have entry : (⟨a, b'⟩ : Sigma β) ∈ s.entries := by rw [split]; simp
    exact Option.some.inj ((mem_entries_iff.mp entry).symm.trans found)
  subst same
  have shrunk : (s.erase a).entries = front ++ back := erased
  rw [shrunk, split]
  exact List.perm_middle

theorem sumBy_erase [AddCommMonoid M] (f : ∀ a, β a → M) {s : AList β} {a : α} {b : β a}
    (found : s.lookup a = some b) : sumBy f s = f a b + sumBy f (s.erase a) := by
  have permuted := (entries_perm_erase found).map fun e => f e.1 e.2
  simp only [sumBy, permuted.sum_eq, List.map_cons, List.sum_cons]

/-- Changing the function at one entry changes the total by the difference there. -/
theorem sumBy_update [AddCommGroup M] {f g : ∀ a, β a → M} {s : AList β} {a : α} {b : β a}
    (found : s.lookup a = some b)
    (agree : ∀ a' b', a' ≠ a → s.lookup a' = some b' → g a' b' = f a' b') :
    sumBy g s = sumBy f s + (g a b - f a b) := by
  have others : sumBy g (s.erase a) = sumBy f (s.erase a) := by
    apply sumBy_congr
    intro a' b' entry
    have ne : a' ≠ a := by
      rintro rfl
      simp at entry
    rw [lookup_erase_ne ne] at entry
    exact agree a' b' ne entry
  rw [sumBy_erase g found, sumBy_erase f found, others]
  abel

theorem length_erase {s : AList β} {a : α} {b : β a} (found : s.lookup a = some b) :
    (s.erase a).entries.length + 1 = s.entries.length := by
  simpa using (entries_perm_erase found).length_eq.symm

theorem length_erase_le (s : AList β) (a : α) : (s.erase a).entries.length ≤ s.entries.length := by
  cases found : s.lookup a with
  | some b => have := length_erase found; omega
  | none =>
    have absent : a ∉ s.entries.keys := lookup_eq_none.mp found
    have same : (s.erase a).entries = s.entries := List.kerase_of_notMem_keys absent
    rw [same]

theorem length_insert {s : AList β} {a : α} (b : β a) (new : a ∉ s) :
    (s.insert a b).entries.length = s.entries.length + 1 := by
  rw [entries_insert_of_notMem new, List.length_cons]

/-- A total of non-negative terms bounds each of them. -/
theorem le_sumBy {f : ∀ a, β a → Int} {s : AList β} (nonneg : ∀ a b, s.lookup a = some b → 0 ≤ f a b)
    {a : α} {b : β a} (found : s.lookup a = some b) : f a b ≤ sumBy f s := by
  have terms : ∀ x ∈ (s.erase a).entries.map (fun e => f e.1 e.2), 0 ≤ x := by
    intro x member
    obtain ⟨⟨a', b'⟩, entry, rfl⟩ := List.mem_map.mp member
    have kept := mem_entries_iff.mp entry
    have ne : a' ≠ a := by
      rintro rfl
      simp at kept
    rw [lookup_erase_ne ne] at kept
    exact nonneg a' b' kept
  have rest : 0 ≤ sumBy f (s.erase a) := List.sum_nonneg terms
  rw [sumBy_erase f found]
  omega

/-- The terms of some of the entries add up to no more than the total. -/
theorem sum_le_sumBy {f : ∀ a, β a → Int} {s : AList β}
    (nonneg : ∀ a b, s.lookup a = some b → 0 ≤ f a b) {part : List (Sigma β)} (nodup : part.Nodup)
    (found : ∀ e ∈ part, s.lookup e.1 = some e.2) :
    (part.map fun e => f e.1 e.2).sum ≤ sumBy f s := by
  have inside : part ⊆ s.entries := fun e member => mem_entries_iff.mpr (found e member)
  obtain ⟨order, permuted, sublist⟩ := List.subperm_of_subset nodup inside
  have terms : ∀ x ∈ s.entries.map (fun e => f e.1 e.2), 0 ≤ x := by
    intro x member
    obtain ⟨e, entry, rfl⟩ := List.mem_map.mp member
    exact nonneg e.1 e.2 (mem_entries_iff.mp entry)
  calc (part.map fun e => f e.1 e.2).sum
      = (order.map fun e => f e.1 e.2).sum := (permuted.map _).sum_eq.symm
    _ ≤ sumBy f s := (sublist.map _).sum_le_sum terms

/-- A total of bounded terms. -/
theorem sumBy_le {f : ∀ a, β a → Int} {s : AList β} {bound : Int}
    (each : ∀ a b, s.lookup a = some b → f a b ≤ bound) :
    sumBy f s ≤ s.entries.length * bound := by
  have terms : ∀ x ∈ s.entries.map (fun e => f e.1 e.2), x ≤ bound := by
    intro x member
    obtain ⟨e, entry, rfl⟩ := List.mem_map.mp member
    exact each e.1 e.2 (mem_entries_iff.mp entry)
  simpa [sumBy] using List.sum_le_card_nsmul _ bound terms

omit [DecidableEq α] in
/-- The terms that are zero do not count. -/
theorem sum_filter_ne_zero (f : Sigma β → Nat) (entries : List (Sigma β)) :
    ((entries.filter fun e => f e ≠ 0).map f).sum = (entries.map f).sum := by
  induction entries with
  | nil => rfl
  | cons e rest ih =>
    by_cases zero : f e = 0
    · rw [List.filter_cons_of_neg (by simpa using zero), ih, List.map_cons, List.sum_cons, zero, Nat.zero_add]
    · rw [List.filter_cons_of_pos (by simpa using zero), List.map_cons, List.sum_cons, ih, List.map_cons,
        List.sum_cons]

/-- A total grows with its map and its terms; only entries that count nothing may be lost. -/
theorem sumBy_mono {f g : ∀ a, β a → Nat} {s t : AList β}
    (each : ∀ a b, s.lookup a = some b → f a b = 0 ∨ t.lookup a = some b ∧ f a b ≤ g a b) :
    sumBy f s ≤ sumBy g t := by
  let part := s.entries.filter fun e => f e.1 e.2 ≠ 0
  have kept : ∀ e ∈ part, e ∈ t.entries ∧ f e.1 e.2 ≤ g e.1 e.2 := by
    intro e member
    obtain ⟨entry, counts⟩ := List.mem_filter.mp member
    rcases each e.1 e.2 (mem_entries_iff.mp entry) with zero | ⟨found, le⟩
    · simp [zero] at counts
    · exact ⟨mem_entries_iff.mpr found, le⟩
  have nodup : part.Nodup := (List.NodupKeys.nodup s.nodupKeys).filter _
  obtain ⟨order, permuted, sublist⟩ := List.subperm_of_subset nodup fun e member => (kept e member).1
  calc sumBy f s
      = (part.map fun e => f e.1 e.2).sum := (sum_filter_ne_zero (fun e => f e.1 e.2) s.entries).symm
    _ ≤ (part.map fun e => g e.1 e.2).sum := List.sum_le_sum fun e member => (kept e member).2
    _ = (order.map fun e => g e.1 e.2).sum := (permuted.map _).sum_eq.symm
    _ ≤ sumBy g t := (sublist.map _).sum_le_sum fun _ _ => Nat.zero_le _

end AList
