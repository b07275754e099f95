import Mathlib.Algebra.Order.Field.Rat

/-!
# JSON values and Python strings

What `json.loads` gives, over the type of its strings. A string that comes from a peer
may hold surrogate code points, so it is a list of code points; where no surrogate is
let in, `String` serves.
-/
namespace Chute

inductive Json (σ : Type)
  | null
  | bool (b : Bool)
  | int (n : Int)
  /-- A number with a fraction or an exponent; `none` is infinite or no number. -/
  | float (x : Option ℚ)
  | str (s : σ)
  | array (items : List (Json σ))
  | object (members : List (σ × Json σ))

namespace Json

variable {σ : Type} [BEq σ]

/-- `dict.get` with a default, for a key that is absent. -/
def getOr (members : List (σ × Json σ)) (key : σ) (default : Json σ) : Json σ :=
  (members.lookup key).getD default

/-- `dict.get`, where an absent key reads as `None`. -/
def get (members : List (σ × Json σ)) (key : σ) : Json σ := getOr members key .null

/-- `==` against an `int`: a float of the same value is equal, and a `bool` is 0 or 1. -/
def equalsInt : Json σ → Int → Bool
  | .int m, n => m == n
  | .float (some x), n => x == n
  | .bool b, n => (if b then 1 else 0) == n
  | _, _ => false

end Json

/-! ### Python strings -/

/-- The code points of a `str`. -/
abbrev PyStr := List (Fin 0x110000)

namespace PyStr

instance codePoints : NeZero (0x110000 : Nat) := ⟨by decide⟩

def ofString (s : String) : PyStr :=
  s.toList.map fun c => Fin.ofNat _ c.toNat

def isSurrogate (c : Fin 0x110000) : Bool := 0xD800 ≤ c.val && c.val ≤ 0xDFFF

/-- `str.encode`, as the text whose UTF-8 it is: there is none for a surrogate. -/
def encode (s : PyStr) : Option String :=
  if s.any isSurrogate then none else some (String.ofList (s.map fun c => Char.ofNat c.val))

theorem encode_isSome_iff (s : PyStr) :
    s.encode.isSome = true ↔ ∀ c ∈ s, isSurrogate c = false := by
  unfold encode
  split
  next surrogate =>
    obtain ⟨c, member, is⟩ := List.any_eq_true.mp surrogate
    refine iff_of_false (by simp) fun none => ?_
    rw [none c member] at is
    cases is
  next clean =>
    refine iff_of_true rfl fun c member => ?_
    by_contra is
    exact clean (List.any_eq_true.mpr ⟨c, member, by simpa using is⟩)

theorem val_ofNat_toNat (c : Char) : (Fin.ofNat 0x110000 c.toNat).val = c.toNat := by
  rw [Fin.val_ofNat]
  apply Nat.mod_eq_of_lt
  rcases c.valid with low | high
  · have bound : c.toNat < 0xD800 := low
    omega
  · exact high.2

/-- No character of a text is a surrogate. -/
theorem isSurrogate_ofString {s : String} {c : Fin 0x110000} (member : c ∈ ofString s) :
    isSurrogate c = false := by
  obtain ⟨d, -, rfl⟩ := List.mem_map.mp member
  simp only [isSurrogate, val_ofNat_toNat, Bool.and_eq_false_iff, decide_eq_false_iff_not]
  rcases d.valid with low | high
  · have bound : d.toNat < 0xD800 := low
    omega
  · have bound : 0xDFFF < d.toNat := high.1
    omega

theorem encode_ofString (s : String) : (ofString s).encode = some s := by
  have clean : (ofString s).any isSurrogate = false := by
    rw [List.any_eq_false]
    intro c member
    simp [isSurrogate_ofString member]
  unfold encode
  rw [clean, if_neg (by simp)]
  simp only [ofString, List.map_map, Option.some.injEq]
  have same : ((fun c : Fin 0x110000 => Char.ofNat c.val) ∘
      fun c : Char => Fin.ofNat 0x110000 c.toNat) = id := by
    funext c
    rw [Function.comp_apply, val_ofNat_toNat, Char.ofNat_toNat, id_eq]
  rw [same, List.map_id, String.ofList_toList]

end PyStr

end Chute
