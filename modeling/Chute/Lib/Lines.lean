import Mathlib.Data.List.Basic

/-!
# Lines that end at a pair of letters

A strict reader ends a line at the pair alone; a loose one takes either letter by itself for a
line end too. Both read the same lines from a text with neither letter outside a pair.
-/
namespace Lines

variable {α : Type*} [DecidableEq α] {r n : α} {text line rest : List α}

/-- Split at every pair, from left to right. -/
def splitPair (r n : α) : List α → List (List α)
  | a :: b :: rest =>
    if a = r ∧ b = n then [] :: splitPair r n rest
    else (splitPair r n (b :: rest)).modifyHead (a :: ·)
  | [a] => [[a]]
  | [] => [[]]

/-- Remove every pair, from left to right, in one pass. -/
def removePair (r n : α) : List α → List α
  | a :: b :: rest =>
    if a = r ∧ b = n then removePair r n rest else a :: removePair r n (b :: rest)
  | [a] => [a]
  | [] => []

/-- Split at every `n` together with an `r` before it, and at every other `r`. -/
def splitLoose (r n : α) : List α → List (List α)
  | a :: b :: rest =>
    if a = r ∧ b = n then [] :: splitLoose r n rest
    else if a = r ∨ a = n then [] :: splitLoose r n (b :: rest)
    else (splitLoose r n (b :: rest)).modifyHead (a :: ·)
  | [a] => if a = r ∨ a = n then [[], []] else [[a]]
  | [] => [[]]

/-- A line holds neither letter. -/
def Plain (r n : α) (line : List α) : Prop := r ∉ line ∧ n ∉ line

/-- Every `r` and every `n` belongs to a pair. -/
def Paired (r n : α) (text : List α) : Prop :=
  (∀ pre post, text = pre ++ r :: post → ∃ post', post = n :: post') ∧
    ∀ pre post, text = pre ++ n :: post → ∃ pre', pre = pre' ++ [r]

theorem splitPair_ne_nil (text : List α) : splitPair r n text ≠ [] := by
  induction text using splitPair.induct r n with
  | case1 a b rest pair ih => simp [splitPair, pair]
  | case2 a b rest lone ih => simpa [splitPair, lone] using ih
  | case3 a => simp [splitPair]
  | case4 => simp [splitPair]

/-- The lines with the pair between them are the text. -/
theorem intercalate_splitPair (text : List α) : [r, n].intercalate (splitPair r n text) = text := by
  induction text using splitPair.induct r n with
  | case1 a b rest pair ih =>
    rw [splitPair, if_pos pair, List.intercalate_cons_of_ne_nil (splitPair_ne_nil rest), ih,
      pair.1, pair.2]
    rfl
  | case2 a b rest lone ih =>
    rw [splitPair, if_neg lone]
    obtain ⟨first, more, split⟩ := List.exists_cons_of_ne_nil (splitPair_ne_nil (r := r) (n := n)
      (b :: rest))
    rw [split] at ih ⊢
    rw [List.modifyHead_cons, List.intercalate_cons_cons_left, ih]
  | case3 a => exact List.intercalate_singleton
  | case4 => exact List.intercalate_singleton

theorem splitPair_line (plain : Plain r n line) :
    splitPair r n (line ++ r :: n :: rest) = line :: splitPair r n rest := by
  induction line with
  | nil => simp [splitPair]
  | cons a line ih =>
    simp only [Plain, List.mem_cons, not_or] at plain
    have lone : ¬ a = r := fun same => plain.1.1 same.symm
    cases line with
    | nil => simp [splitPair, lone]
    | cons b line =>
      have ih := ih ⟨by simpa using plain.1.2, by simpa using plain.2.2⟩
      simp only [List.cons_append, splitPair, lone, false_and, if_false] at ih ⊢
      rw [ih, List.modifyHead_cons]

theorem splitLoose_line (plain : Plain r n line) :
    splitLoose r n (line ++ r :: n :: rest) = line :: splitLoose r n rest := by
  induction line with
  | nil => simp [splitLoose]
  | cons a line ih =>
    simp only [Plain, List.mem_cons, not_or] at plain
    have lone : ¬ a = r := fun same => plain.1.1 same.symm
    have open_ : ¬ (a = r ∨ a = n) := not_or.mpr ⟨lone, fun same => plain.2.1 same.symm⟩
    cases line with
    | nil => simp [splitLoose, lone, (not_or.mp open_).2]
    | cons b line =>
      have ih := ih ⟨plain.1.2, plain.2.2⟩
      rw [List.cons_append, List.cons_append] at *
      rw [splitLoose, if_neg (fun pair => lone pair.1), if_neg open_, ih, List.modifyHead_cons]

theorem splitLoose_plain (plain : Plain r n line) : splitLoose r n line = [line] := by
  induction line with
  | nil => rfl
  | cons a line ih =>
    simp only [Plain, List.mem_cons, not_or] at plain
    have lone : ¬ a = r := fun same => plain.1.1 same.symm
    have open_ : ¬ (a = r ∨ a = n) := not_or.mpr ⟨lone, fun same => plain.2.1 same.symm⟩
    cases line with
    | nil => rw [splitLoose, if_neg open_]
    | cons b line =>
      rw [splitLoose, if_neg (fun pair => lone pair.1), if_neg open_, ih ⟨plain.1.2, plain.2.2⟩,
        List.modifyHead_cons]

theorem splitLoose_intercalate {lines : List (List α)} (some_ : lines ≠ [])
    (plain : ∀ line ∈ lines, Plain r n line) :
    splitLoose r n ([r, n].intercalate lines) = lines := by
  induction lines with
  | nil => exact absurd rfl some_
  | cons line lines ih =>
    have first := plain line List.mem_cons_self
    cases lines with
    | nil => rw [List.intercalate_singleton, splitLoose_plain first]
    | cons next lines =>
      rw [List.intercalate_cons_cons, List.append_assoc, List.cons_append, List.cons_append,
        List.nil_append, splitLoose_line first,
        ih (List.cons_ne_nil _ _) fun line here => plain line (List.mem_cons_of_mem _ here)]

/-- What is left without the pairs is what the lines hold. -/
theorem removePair_eq_flatten (text : List α) : removePair r n text = (splitPair r n text).flatten := by
  induction text using splitPair.induct r n with
  | case1 a b rest pair ih => rw [removePair, splitPair, if_pos pair, if_pos pair, ih]; rfl
  | case2 a b rest lone ih =>
    rw [removePair, splitPair, if_neg lone, if_neg lone, ih]
    obtain ⟨first, more, split⟩ := List.exists_cons_of_ne_nil (splitPair_ne_nil (r := r) (n := n)
      (b :: rest))
    rw [split]
    rfl
  | case3 a => rfl
  | case4 => rfl

theorem plain_removePair_iff :
    Plain r n (removePair r n text) ↔ ∀ line ∈ splitPair r n text, Plain r n line := by
  simp only [Plain, removePair_eq_flatten, List.mem_flatten, not_exists, not_and]
  exact ⟨fun none line here => ⟨none.1 line here, none.2 line here⟩,
    fun none => ⟨fun line here => (none line here).1, fun line here => (none line here).2⟩⟩

/-- With nothing left of the pair, both readers see the same lines. -/
theorem splitLoose_eq_splitPair (plain : Plain r n (removePair r n text)) :
    splitLoose r n text = splitPair r n text := by
  conv_lhs => rw [← intercalate_splitPair (r := r) (n := n) text]
  exact splitLoose_intercalate (splitPair_ne_nil text) (plain_removePair_iff.mp plain)

theorem paired_of_plain (distinct : r ≠ n) (plain : Plain r n (removePair r n text)) :
    Paired r n text := by
  induction text using splitPair.induct r n with
  | case1 a b rest pair ih =>
    obtain ⟨rfl, rfl⟩ := pair
    rw [removePair, if_pos ⟨rfl, rfl⟩] at plain
    obtain ⟨after, before⟩ := ih plain
    constructor
    · intro pre post split
      match pre, split with
      | [], split => exact ⟨rest, ((List.cons.inj split).2).symm⟩
      | [c], split => exact absurd (List.cons.inj (List.cons.inj split).2).1 distinct.symm
      | c :: d :: pre, split => exact after pre post (List.cons.inj (List.cons.inj split).2).2
    · intro pre post split
      match pre, split with
      | [], split => exact absurd (List.cons.inj split).1 distinct
      | [c], split => exact ⟨[], by rw [← (List.cons.inj split).1]; rfl⟩
      | c :: d :: pre, split =>
        obtain ⟨pre', rfl⟩ := before pre post (List.cons.inj (List.cons.inj split).2).2
        exact ⟨c :: d :: pre', rfl⟩
  | case2 a b rest lone ih =>
    rw [removePair, if_neg lone] at plain
    simp only [Plain, List.mem_cons, not_or] at plain
    obtain ⟨after, before⟩ := ih ⟨plain.1.2, plain.2.2⟩
    constructor
    · intro pre post split
      match pre, split with
      | [], split => exact absurd (List.cons.inj split).1.symm plain.1.1
      | c :: pre, split => exact after pre post (List.cons.inj split).2
    · intro pre post split
      match pre, split with
      | [], split => exact absurd (List.cons.inj split).1.symm plain.2.1
      | c :: pre, split =>
        obtain ⟨pre', rfl⟩ := before pre post (List.cons.inj split).2
        exact ⟨c :: pre', rfl⟩
  | case3 a =>
    simp only [removePair, Plain, List.mem_singleton] at plain
    constructor
    · intro pre post split
      match pre, split with
      | [], split => exact absurd (List.cons.inj split).1.symm plain.1
      | c :: pre, split => exact absurd (List.cons.inj split).2 (by simp)
    · intro pre post split
      match pre, split with
      | [], split => exact absurd (List.cons.inj split).1.symm plain.2
      | c :: pre, split => exact absurd (List.cons.inj split).2 (by simp)
  | case4 => exact ⟨fun pre post split => by simp at split, fun pre post split => by simp at split⟩

/-! ### Splitting once -/

/-- Split at the first `sep`. -/
def partition (sep : α) : List α → Option (List α × List α)
  | [] => none
  | a :: rest =>
    if a = sep then some ([], rest) else (partition sep rest).map fun split => (a :: split.1, split.2)

/-- Split at the last `sep`. -/
def rpartition (sep : α) (text : List α) : Option (List α × List α) :=
  (partition sep text.reverse).map fun split => (split.2.reverse, split.1.reverse)

variable {sep : α} {before after : List α}

theorem partition_eq_none_iff : partition sep text = none ↔ sep ∉ text := by
  induction text with
  | nil => simp [partition]
  | cons a rest ih =>
    rw [partition, List.mem_cons, not_or]
    split
    next same => exact iff_of_false nofun fun absent => absent.1 same.symm
    next other =>
      rw [Option.map_eq_none_iff, ih]
      exact ⟨fun absent => ⟨Ne.symm other, absent⟩, fun absent => absent.2⟩

theorem partition_eq_some_iff :
    partition sep text = some (before, after) ↔ text = before ++ sep :: after ∧ sep ∉ before := by
  induction text generalizing before with
  | nil => simp [partition]
  | cons a rest ih =>
    rw [partition]
    split
    next same =>
      subst same
      constructor
      · intro split
        cases split
        exact ⟨rfl, List.not_mem_nil⟩
      · rintro ⟨split, absent⟩
        cases before with
        | nil => rw [(List.cons.inj split).2]
        | cons b before => exact absurd ((List.cons.inj split).1 ▸ List.mem_cons_self) absent
    next other =>
      constructor
      · intro split
        obtain ⟨⟨before', after'⟩, found, same⟩ := Option.map_eq_some_iff.mp split
        cases same
        obtain ⟨rfl, absent⟩ := ih.mp found
        exact ⟨rfl, by simpa using ⟨Ne.symm other, absent⟩⟩
      · rintro ⟨split, absent⟩
        cases before with
        | nil => exact absurd (List.cons.inj split).1 other
        | cons b before =>
          obtain ⟨rfl, rest'⟩ := List.cons.inj split
          rw [ih.mpr ⟨rest', fun here => absent (List.mem_cons_of_mem _ here)⟩]
          rfl

theorem rpartition_eq_none_iff : rpartition sep text = none ↔ sep ∉ text := by
  rw [rpartition, Option.map_eq_none_iff, partition_eq_none_iff, List.mem_reverse]

theorem rpartition_eq_some_iff :
    rpartition sep text = some (before, after) ↔ text = before ++ sep :: after ∧ sep ∉ after := by
  constructor
  · intro split
    obtain ⟨⟨after', before'⟩, found, same⟩ := Option.map_eq_some_iff.mp split
    cases same
    obtain ⟨reversed, absent⟩ := partition_eq_some_iff.mp found
    refine ⟨?_, by rwa [List.mem_reverse]⟩
    rw [← List.reverse_reverse text, reversed]
    simp
  · rintro ⟨rfl, absent⟩
    have found : partition sep (before ++ sep :: after).reverse = some (after.reverse, before.reverse) :=
      partition_eq_some_iff.mpr ⟨by simp, by rwa [List.mem_reverse]⟩
    rw [rpartition, found]
    simp

end Lines
