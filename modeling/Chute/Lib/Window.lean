import Mathlib.Algebra.Order.Group.Defs
import Mathlib.Data.List.Nodup

/-!
# Sliding windows

A limiter that allows so many events within a width of time keeps the times of the events it has
accepted. It may forget a time that has left the window, since no later window reaches it.
-/
namespace Window

variable {α : Type*} [AddCommGroup α] [LinearOrder α]

/-- The times that lie less than a width before now. -/
def recent (width now : α) (times : List α) : List α := times.filter fun t => now - t < width

/-- The plain rule of a limiter: there is room for one more event. -/
def accepts (width : α) (limit : Nat) (accepted : List α) (now : α) : Bool :=
  decide ((recent width now accepted).length < limit)

variable {width now later : α} {times : List α}

theorem recent_append (times more : List α) :
    recent width now (times ++ more) = recent width now times ++ recent width now more :=
  List.filter_append _ _

theorem perm_recent {others : List α} (perm : times.Perm others) :
    (recent width now times).Perm (recent width now others) :=
  perm.filter _

theorem recent_self (positive : 0 < width) : recent width now [now] = [now] := by
  simp [recent, positive]

variable [IsOrderedAddMonoid α]

/-- What has left the window now is in no later one. -/
theorem recent_recent (ordered : now ≤ later) :
    recent width later (recent width now times) = recent width later times := by
  unfold recent
  rw [List.filter_filter]
  apply List.filter_congr
  intro t _
  apply Bool.eq_iff_iff.mpr
  simp only [Bool.and_eq_true, decide_eq_true_eq]
  constructor
  · exact And.left
  · intro inside
    exact ⟨inside, lt_of_le_of_lt (sub_le_sub_right ordered t) inside⟩

/-- A window only loses what it has. -/
theorem length_recent_le (width : α) (times : List α) (ordered : now ≤ later) :
    (recent width later times).length ≤ (recent width now times).length := by
  rw [← recent_recent ordered]
  exact List.length_filter_le _ _

/-- A window that now has not left holds recent times only. -/
theorem length_window_le {first : α} (times : List α) (reaches : now < first + width) :
    (times.filter fun t => first ≤ t ∧ t < first + width).length ≤ (recent width now times).length := by
  apply List.Sublist.length_le
  apply List.monotone_filter_right
  intro t inside
  have inside := of_decide_eq_true inside
  apply decide_eq_true
  rw [sub_lt_iff_lt_add']
  exact lt_of_lt_of_le reaches (add_le_add_left inside.1 width)

/-! ### Tables with one row for each key -/

variable {κ β : Type*} [BEq κ] [LawfulBEq κ] {table : List (κ × β)} {k : κ} {b : β}

theorem mem_of_lookup (found : table.lookup k = some b) : (k, b) ∈ table := by
  obtain ⟨before, after, rfl, -⟩ := List.lookup_eq_some_iff.mp found
  exact List.mem_append_right before List.mem_cons_self

/-- With one row for each key, a lookup finds the row. -/
theorem lookup_eq_some_iff_mem (keys : (table.map Prod.fst).Nodup) :
    table.lookup k = some b ↔ (k, b) ∈ table := by
  refine ⟨mem_of_lookup, fun row => ?_⟩
  obtain ⟨before, after, rfl⟩ := List.append_of_mem row
  refine List.lookup_eq_some_iff.mpr ⟨before, after, rfl, fun other member => ?_⟩
  rw [bne_iff_ne]
  intro same
  rw [List.map_append, List.map_cons] at keys
  have apart := List.disjoint_of_nodup_append keys
  exact apart (List.mem_map_of_mem member) (by rw [← same]; exact List.mem_cons_self)

/-- Rows that go take their lookup with them, and change no other. -/
theorem lookup_sublist {rest : List (κ × β)} (keys : (table.map Prod.fst).Nodup)
    (kept : rest.Sublist table) (k : κ) :
    rest.lookup k = table.lookup k ∨ rest.lookup k = none := by
  cases found : rest.lookup k with
  | none => exact .inr rfl
  | some b =>
    left
    exact ((lookup_eq_some_iff_mem keys).mpr (kept.subset (mem_of_lookup found))).symm

/-! ### Writing a row -/

/-- Assignment to a key of a table in order of insertion. -/
def put (table : List (κ × β)) (k : κ) (b : β) : List (κ × β) :=
  if table.any (·.1 == k) then table.map fun row => if row.1 == k then (k, b) else row
  else table ++ [(k, b)]

theorem keys_put (keys : (table.map Prod.fst).Nodup) : ((put table k b).map Prod.fst).Nodup := by
  unfold put
  split
  · rw [List.map_map]
    have same : (Prod.fst ∘ fun row : κ × β => if row.1 == k then (k, b) else row) = Prod.fst := by
      funext row
      by_cases own : row.1 = k
      · simp [own]
      · simp [own]
    rw [same]
    exact keys
  next absent =>
    rw [List.map_append]
    apply keys.append (List.nodup_singleton _)
    intro other inside own
    obtain ⟨row, member, rfl⟩ := List.mem_map.mp inside
    have own := List.mem_singleton.mp own
    exact absent (List.any_eq_true.mpr ⟨row, member, beq_iff_eq.mpr own⟩)

theorem lookup_put (keys : (table.map Prod.fst).Nodup) (other : κ) :
    (put table k b).lookup other = if other == k then some b else table.lookup other := by
  apply Option.ext
  intro value
  rw [lookup_eq_some_iff_mem (keys_put keys)]
  by_cases own : other = k
  · subst own
    simp only [beq_self_eq_true, if_true, Option.some.injEq]
    constructor
    · intro member
      unfold put at member
      split at member
      · obtain ⟨row, -, same⟩ := List.mem_map.mp member
        split at same
        · cases same
          rfl
        next apart =>
          subst same
          exact absurd (beq_self_eq_true other) apart
      next absent =>
        rcases List.mem_append.mp member with inside | inside
        · exact absurd (List.any_eq_true.mpr ⟨_, inside, beq_self_eq_true other⟩) absent
        · cases List.mem_singleton.mp inside
          rfl
    · rintro rfl
      unfold put
      split
      next present =>
        obtain ⟨row, member, same⟩ := List.any_eq_true.mp present
        exact List.mem_map.mpr ⟨row, member, if_pos same⟩
      · exact List.mem_append_right _ (List.mem_singleton_self _)
  · simp only [beq_iff_eq, own, if_false]
    rw [lookup_eq_some_iff_mem keys]
    unfold put
    split
    · rw [List.mem_map]
      constructor
      · rintro ⟨row, member, same⟩
        split at same
        · cases same
          exact absurd rfl own
        · exact same ▸ member
      · intro member
        exact ⟨_, member, if_neg (by simpa using own)⟩
    · rw [List.mem_append, List.mem_singleton, Prod.mk.injEq]
      exact ⟨fun member => member.resolve_right fun same => own same.1, Or.inl⟩

/-- Deletion of a key. -/
def erase (table : List (κ × β)) (k : κ) : List (κ × β) := table.filter fun row => row.1 != k

theorem lookup_erase (keys : (table.map Prod.fst).Nodup) (other : κ) :
    (erase table k).lookup other = if other == k then none else table.lookup other := by
  apply Option.ext
  intro value
  unfold erase
  rw [lookup_eq_some_iff_mem (keys.sublist (List.filter_sublist.map Prod.fst)), List.mem_filter]
  by_cases own : other = k
  · simp [own]
  · simp [own, lookup_eq_some_iff_mem keys]

end Window
