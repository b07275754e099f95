import Mathlib.Data.List.Basic
import Mathlib.Logic.Function.Basic

/-!
# Paired calls

A log of calls about keys, where each key is opened at most once, and is closed once and
afterwards if its opening was accepted. Where a key stands says which calls the log has
about it, so a log can be followed call by call.
-/
namespace Pairing

inductive Mark
  | opened (accepted : Bool)
  | closed
  deriving DecidableEq, Repr

inductive Status
  | unopened
  | refused
  /-- Opened, and to be closed. -/
  | owed
  | settled
  deriving DecidableEq, Repr

/-- What a call makes of a key; `none` where the call pairs with nothing. -/
def Status.after : Status → Mark → Option Status
  | unopened, .opened true => some owed
  | unopened, .opened false => some refused
  | owed, .closed => some settled
  | _, _ => none

/-- The calls that lead to a status. -/
def Status.history : Status → List Mark
  | unopened => []
  | refused => [.opened false]
  | owed => [.opened true]
  | settled => [.opened true, .closed]

variable {κ : Type*} [DecidableEq κ]

/-- The calls about a key, in their order. -/
def calls (log : List (κ × Mark)) (k : κ) : List Mark :=
  log.filterMap fun e => if e.1 = k then some e.2 else none

/-- The log has the calls that each status needs. -/
def Tracks (log : List (κ × Mark)) (status : κ → Status) : Prop :=
  ∀ k, calls log k = (status k).history

variable {log : List (κ × Mark)} {status : κ → Status} {k : κ} {c : Mark} {st : Status}

theorem Status.history_after {later : Status} (next : st.after c = some later) :
    later.history = st.history ++ [c] := by
  unfold Status.after at next
  split at next
  all_goals cases next
  all_goals rfl

@[simp] theorem calls_nil : calls ([] : List (κ × Mark)) k = [] := rfl

theorem calls_snoc (log : List (κ × Mark)) (k j : κ) (c : Mark) :
    calls (log ++ [(k, c)]) j = if k = j then calls log j ++ [c] else calls log j := by
  simp only [calls, List.filterMap_append, List.filterMap_cons, List.filterMap_nil]
  split <;> simp_all

theorem tracks_nil : Tracks ([] : List (κ × Mark)) fun _ => .unopened := fun _ => rfl

/-- A call that pairs moves its key and no other. -/
theorem Tracks.snoc (tracks : Tracks log status) (next : (status k).after c = some st) :
    Tracks (log ++ [(k, c)]) (Function.update status k st) := by
  intro j
  rw [calls_snoc]
  split
  next here =>
    subst here
    rw [Function.update_self, tracks k, Status.history_after next]
  next apart => rw [Function.update_of_ne fun same => apart same.symm, tracks j]

/-- The log pairs: what each key has in it is nothing, a refused opening, an accepted opening,
or an accepted opening and one closing after it. -/
theorem Tracks.shape (tracks : Tracks log status) (k : κ) :
    calls log k = [] ∨ calls log k = [.opened false] ∨ calls log k = [.opened true] ∨
      calls log k = [.opened true, .closed] := by
  rw [tracks k]
  cases status k <;> simp [Status.history]

theorem Tracks.closed_iff (tracks : Tracks log status) : .closed ∈ calls log k ↔ status k = .settled := by
  rw [tracks k]
  cases status k <;> simp [Status.history]

theorem Tracks.owed_iff (tracks : Tracks log status) : calls log k = [.opened true] ↔ status k = .owed := by
  rw [tracks k]
  cases status k <;> simp [Status.history]

end Pairing
