import Mathlib.Data.List.AList

/-!
# Reverse indexes

A partial function `f : ν → Option κ` says to which key each value belongs. Its reverse
index keeps, for each key in use, the values that belong to it; a key without values has
no entry.
-/
universe u v

/-- For each key a duplicate-free list of values. -/
abbrev ReverseIndex (κ : Type u) (ν : Type v) := AList fun _ : κ => List ν

namespace ReverseIndex

variable {κ : Type u} {ν : Type v} [DecidableEq κ]

/-- The values of a key, none where it has no entry. -/
def members (index : ReverseIndex κ ν) (k : κ) : List ν := (index.lookup k).getD []

section

variable [DecidableEq ν]

def add (index : ReverseIndex κ ν) (k : κ) (v : ν) : ReverseIndex κ ν :=
  index.insert k ((index.members k).insert v)

/-- Take a value out, and the key with its last value. -/
def discard (index : ReverseIndex κ ν) (k : κ) (v : ν) : ReverseIndex κ ν :=
  match index.lookup k with
  | none => index
  | some values =>
    if values.erase v = [] then index.erase k else index.insert k (values.erase v)

end

/-- The index is exactly the reverse of `f`. -/
structure Inverts (index : ReverseIndex κ ν) (f : ν → Option κ) : Prop where
  mem : ∀ k v, v ∈ index.members k ↔ f v = some k
  proper : ∀ k values, index.lookup k = some values → values ≠ [] ∧ values.Nodup

variable {index : ReverseIndex κ ν} {f : ν → Option κ}

theorem inverts_empty : Inverts (∅ : ReverseIndex κ ν) fun _ => none :=
  ⟨by simp [members], by simp⟩

theorem Inverts.congr {g : ν → Option κ} (inverts : index.Inverts f) (same : ∀ v, g v = f v) :
    index.Inverts g :=
  ⟨fun k v => by rw [same v]; exact inverts.mem k v, inverts.proper⟩

theorem Inverts.nodup_members (inverts : index.Inverts f) (k : κ) : (index.members k).Nodup := by
  unfold members
  cases found : index.lookup k with
  | none => exact List.nodup_nil
  | some values => exact (inverts.proper k values found).2

/-- The keys with an entry are those some value belongs to. -/
theorem Inverts.mem_iff (inverts : index.Inverts f) {k : κ} : k ∈ index ↔ ∃ v, f v = some k := by
  constructor
  · intro member
    obtain ⟨values, found⟩ := Option.isSome_iff_exists.mp (AList.lookup_isSome.mpr member)
    obtain ⟨v, rest, shape⟩ := List.exists_cons_of_ne_nil (inverts.proper k values found).1
    exact ⟨v, (inverts.mem k v).mp (by simp [members, found, shape])⟩
  · rintro ⟨v, belongs⟩
    have member := (inverts.mem k v).mpr belongs
    apply AList.lookup_isSome.mp
    cases found : index.lookup k with
    | none => simp [members, found] at member
    | some values => rfl

variable [DecidableEq ν]

theorem members_add (k k' : κ) (v : ν) :
    (index.add k v).members k' =
      if k' = k then (index.members k).insert v else index.members k' := by
  unfold members add
  split
  next same => subst same; simp [members]
  next other => rw [AList.lookup_insert_ne other]

theorem members_discard (k k' : κ) (v : ν) :
    (index.discard k v).members k' =
      if k' = k then (index.members k).erase v else index.members k' := by
  unfold discard
  cases found : index.lookup k with
  | none =>
    simp only
    split
    next same => subst same; simp [members, found]
    · rfl
  | some values =>
    simp only
    split
    next last =>
      split
      next same => subst same; simp [members, found, last]
      next other => simp [members, AList.lookup_erase_ne other]
    · split
      next same => subst same; simp [members, found]
      next other => simp [members, AList.lookup_insert_ne other]

/-- Taking a value out brings no key in. -/
theorem mem_of_mem_discard {k k' : κ} {v : ν} (member : k' ∈ index.discard k v) : k' ∈ index := by
  unfold discard at member
  split at member
  · exact member
  next values found =>
    have here : k ∈ index := AList.lookup_isSome.mp (by simp [found])
    split at member
    · exact (AList.mem_erase.mp member).2
    · rcases (AList.mem_insert index).mp member with rfl | old
      · exact here
      · exact old

/-- A value that belonged nowhere gets a key, or one that has it already is added again. -/
theorem Inverts.add (inverts : index.Inverts f) {k : κ} {v : ν} (free : f v = none ∨ f v = some k) :
    (index.add k v).Inverts (Function.update f v (some k)) := by
  constructor
  · intro k' v'
    rw [members_add]
    by_cases here : v' = v
    · subst here
      rw [Function.update_self]
      split
      next same => simp [same]
      next other =>
        rw [inverts.mem]
        rcases free with none | some
        · simp [none, Ne.symm other]
        · simp [some]
    · rw [Function.update_of_ne here]
      split
      next same => simp [same, here, inverts.mem]
      · exact inverts.mem k' v'
  · intro k' values found
    unfold ReverseIndex.add at found
    by_cases same : k' = k
    · subst same
      rw [AList.lookup_insert] at found
      cases found
      exact ⟨fun empty => by simpa [empty] using List.mem_insert_self (a := v) (l := index.members k'),
        (inverts.nodup_members k').insert⟩
    · rw [AList.lookup_insert_ne same] at found
      exact inverts.proper k' values found

/-- A value is taken from the key it belongs to. -/
theorem Inverts.discard (inverts : index.Inverts f) {k : κ} {v : ν} (belongs : f v = some k) :
    (index.discard k v).Inverts (Function.update f v none) := by
  constructor
  · intro k' v'
    rw [members_discard]
    by_cases here : v' = v
    · subst here
      rw [Function.update_self]
      split
      next same =>
        have gone := (inverts.nodup_members k).not_mem_erase (a := v')
        simp [gone]
      next other =>
        rw [inverts.mem, belongs]
        simp [Ne.symm other]
    · rw [Function.update_of_ne here]
      split
      next same => rw [List.mem_erase_of_ne here, same, inverts.mem]
      · exact inverts.mem k' v'
  · intro k' values found
    unfold ReverseIndex.discard at found
    cases there : index.lookup k with
    | none =>
      simp only [there] at found
      exact inverts.proper k' values found
    | some old =>
      simp only [there] at found
      split at found
      · by_cases same : k' = k
        · subst same
          rw [AList.lookup_erase] at found
          cases found
        · rw [AList.lookup_erase_ne same] at found
          exact inverts.proper k' values found
      next left =>
        by_cases same : k' = k
        · subst same
          rw [AList.lookup_insert] at found
          cases found
          exact ⟨left, (inverts.proper k' old there).2.erase v⟩
        · rw [AList.lookup_insert_ne same] at found
          exact inverts.proper k' values found

/-! ### Where the partial function reads a table -/

omit [DecidableEq ν] [DecidableEq κ] in
/-- Erasing a row of the table makes the function undefined there. -/
theorem bind_lookup_erase {β : Type*} [DecidableEq ν] (table : AList fun _ : ν => β) (v : ν)
    (key : β → Option κ) :
    (fun w => ((table.erase v).lookup w).bind key) =
      Function.update (fun w => (table.lookup w).bind key) v none := by
  funext w
  by_cases same : w = v
  · subst same
    simp
  · rw [AList.lookup_erase_ne same, Function.update_of_ne same]

omit [DecidableEq ν] [DecidableEq κ] in
theorem bind_lookup_insert {β : Type*} [DecidableEq ν] (table : AList fun _ : ν => β) (v : ν) (b : β)
    (key : β → Option κ) :
    (fun w => ((table.insert v b).lookup w).bind key) =
      Function.update (fun w => (table.lookup w).bind key) v (key b) := by
  funext w
  by_cases same : w = v
  · subst same
    simp
  · rw [AList.lookup_insert_ne same, Function.update_of_ne same]

end ReverseIndex
