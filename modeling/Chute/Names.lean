import Chute.Server.Values

/-!
# Names

The labels that `names.py` makes up for agents which ask for none: two adjectives and a noun.
-/
namespace Chute

/-- `_ADJECTIVES` -/
def adjectives : List String :=
  ["amber", "ancient", "autumn", "azure", "bold", "brave", "bright", "brisk", "calm", "clever",
   "cobalt", "cosmic", "cozy", "crimson", "crisp", "curious", "daring", "deft", "eager", "early",
   "easy", "electric", "emerald", "fancy", "fleet", "fluffy", "fresh", "gentle", "giddy",
   "golden", "grand", "happy", "hazel", "humble", "indigo", "ivory", "jade", "jolly", "keen",
   "kind", "lively", "lucky", "lunar", "mellow", "merry", "mighty", "misty", "neat", "nimble",
   "noble", "olive", "plucky", "polar", "proud", "quick", "quiet", "rapid", "ruby", "rustic",
   "sandy", "scarlet", "shiny", "silent", "silver", "sleek", "snappy", "snowy", "solar", "spry",
   "stellar", "sunny", "swift", "teal", "tidy", "tiny", "vivid", "witty", "zany", "zesty"]

/-- `_NOUNS` -/
def nouns : List String :=
  ["acorn", "anchor", "aspen", "badger", "beacon", "birch", "bison", "bloom", "brook", "cedar",
   "cobra", "comet", "coral", "cove", "crane", "delta", "dune", "eagle", "ember", "falcon",
   "fern", "finch", "fjord", "flint", "fox", "gecko", "glade", "harbor", "hawk", "heron", "ivy",
   "koala", "lark", "lemur", "lichen", "lotus", "lynx", "maple", "marsh", "meadow", "moose",
   "moth", "otter", "owl", "panda", "peak", "pebble", "pine", "prairie", "quail", "quartz",
   "raven", "reef", "ridge", "river", "robin", "sage", "sparrow", "spruce", "stork", "stream",
   "summit", "swan", "thorn", "tiger", "topaz", "vale", "willow", "wolf", "wren", "yak", "zephyr"]

/-- The text of `random_phrase`, with what it chose. -/
def phrase (first second noun : String) : String := first ++ "-" ++ second ++ "-" ++ noun

/-- What `random_phrase` may return; it draws the second adjective until it is another one. -/
def RandomPhrase (label : String) : Prop :=
  ∃ first ∈ adjectives, ∃ second ∈ adjectives, ∃ noun ∈ nouns,
    second ≠ first ∧ label = phrase first second noun

/-- A word of the lists: not empty, short, and of lower-case letters. -/
def Word (word : String) : Prop :=
  word.toList ≠ [] ∧ word.toList.length ≤ 20 ∧ word.toList.all labelChar = true

instance (word : String) : Decidable (Word word) := inferInstanceAs (Decidable (_ ∧ _ ∧ _))

theorem word_of_mem : (∀ word ∈ adjectives, Word word) ∧ ∀ word ∈ nouns, Word word := by
  decide +kernel

/-- Any two words and a third make a label. -/
theorem validLabel_phrase {first second noun : String} (one : Word first) (other : Word second)
    (last : Word noun) : validLabel (phrase first second noun) = true := by
  have whole : (phrase first second noun).toList =
      first.toList ++ '-' :: (second.toList ++ '-' :: noun.toList) := by
    simp [phrase, String.toList_append]
  obtain ⟨begins, short, letters⟩ := one
  obtain ⟨-, short', letters'⟩ := other
  obtain ⟨ends, short'', letters''⟩ := last
  rw [List.all_eq_true] at letters letters' letters''
  simp only [validLabel, whole, Bool.and_eq_true, decide_eq_true_eq]
  refine ⟨⟨⟨?_, ?_⟩, ?_⟩, ?_⟩
  · rw [List.length_append, List.length_cons, List.length_append, List.length_cons]
    omega
  · rw [List.all_eq_true]
    intro c here
    simp only [List.mem_append, List.mem_cons, Bool.or_eq_true, beq_iff_eq] at here ⊢
    rcases here with here | rfl | here | rfl | here
    · exact Or.inl (letters c here)
    · exact Or.inr rfl
    · exact Or.inl (letters' c here)
    · exact Or.inr rfl
    · exact Or.inl (letters'' c here)
  · obtain ⟨c, rest, shape⟩ := List.exists_cons_of_ne_nil begins
    rw [shape]
    exact letters c (shape ▸ List.mem_cons_self)
  · have behind : first.toList ++ '-' :: (second.toList ++ '-' :: noun.toList) =
        (first.toList ++ '-' :: second.toList ++ ['-']) ++ noun.toList := by simp
    rw [behind, List.getLast?_append, List.getLast?_eq_some_getLast ends]
    exact letters'' _ (List.getLast_mem ends)

theorem RandomPhrase.valid {label : String} (drawn : RandomPhrase label) :
    validLabel label = true := by
  obtain ⟨first, one, second, other, noun, last, -, rfl⟩ := drawn
  exact validLabel_phrase (word_of_mem.1 first one) (word_of_mem.1 second other) (word_of_mem.2 noun last)

end Chute
