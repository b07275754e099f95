import Mathlib.Logic.Relation

/-!
# Runs of a partial step function

A system is a partial function `step : σ → α → Option σ`: what taking an action
leads to, `none` when the action is not possible.
-/
namespace Transition

variable {σ τ α : Type*}

/-- Take the actions of a list one after the other. -/
def run (step : σ → α → Option σ) : σ → List α → Option σ
  | s, [] => some s
  | s, a :: as => (step s a).bind fun s' => run step s' as

/-- Every action of the run is taken in a state where `P` allows it. -/
def Along (step : σ → α → Option σ) (P : σ → α → Prop) : σ → List α → Prop
  | _, [] => True
  | s, a :: as => P s a ∧ ∀ s', step s a = some s' → Along step P s' as

instance Along.decidable (step : σ → α → Option σ) (P : σ → α → Prop) [∀ s a, Decidable (P s a)] :
    ∀ s as, Decidable (Along step P s as)
  | _, [] => isTrue trivial
  | s, a :: as =>
    match moved : step s a with
    | some s' =>
      have := Along.decidable step P s' as
      decidable_of_iff (P s a ∧ Along step P s' as) (by simp [Along, moved])
    | none => decidable_of_iff (P s a) (by simp [Along, moved])

/-- How many actions of the run are taken in a state where `p` holds of them. -/
def tally (step : σ → α → Option σ) (p : σ → α → Bool) : σ → List α → Nat
  | _, [] => 0
  | s, a :: as =>
    (p s a).toNat + match step s a with
      | some s' => tally step p s' as
      | none => 0

variable {step : σ → α → Option σ} {P : σ → α → Prop}

theorem run_cons_iff {s t : σ} {a : α} {as : List α} :
    run step s (a :: as) = some t ↔ ∃ s', step s a = some s' ∧ run step s' as = some t := by
  simp [run, Option.bind_eq_some_iff]

theorem run_append {s t : σ} {as bs : List α} (first : run step s as = some t) :
    run step s (as ++ bs) = run step t bs := by
  induction as generalizing s with
  | nil => cases first; rfl
  | cons a as ih =>
    obtain ⟨s', moved, rest⟩ := run_cons_iff.mp first
    simp only [List.cons_append, run, moved, Option.bind_some]
    exact ih rest

/-- A property of the initial state that every allowed step keeps holds at the end
of every allowed run. -/
theorem run_invariant {inv : σ → Prop}
    (kept : ∀ s a s', inv s → P s a → step s a = some s' → inv s')
    {s t : σ} {as : List α} (start : inv s) (allowed : Along step P s as)
    (ran : run step s as = some t) : inv t := by
  induction as generalizing s with
  | nil => cases ran; exact start
  | cons a as ih =>
    obtain ⟨s', moved, rest⟩ := run_cons_iff.mp ran
    exact ih (kept s a s' start allowed.1 moved) (allowed.2 s' moved) rest

/-- Actions that are allowed in every state. -/
theorem along_of_forall {as : List α} (allowed : ∀ a ∈ as, ∀ s, P s a) (s : σ) :
    Along step P s as := by
  induction as generalizing s with
  | nil => trivial
  | cons a as ih =>
    exact ⟨allowed a (by simp) s, fun s' _ => ih (fun b member => allowed b (by simp [member])) s'⟩

/-- The unconditional form of `run_invariant`. -/
theorem run_invariant' {inv : σ → Prop} (kept : ∀ s a s', inv s → step s a = some s' → inv s')
    {s t : σ} {as : List α} (start : inv s) (ran : run step s as = some t) : inv t :=
  run_invariant (P := fun _ _ => True) (fun s a s' held _ moved => kept s a s' held moved) start
    (along_of_forall (by simp) s) ran

theorem along_append {s t : σ} {as bs : List α} (ran : run step s as = some t) :
    Along step P s (as ++ bs) ↔ Along step P s as ∧ Along step P t bs := by
  induction as generalizing s with
  | nil => cases ran; simp [Along]
  | cons a as ih =>
    obtain ⟨s', moved, rest⟩ := run_cons_iff.mp ran
    simp only [List.cons_append, Along, moved, Option.some.injEq, forall_eq', ih rest, and_assoc]

theorem Along.mono {Q : σ → α → Prop} (weaker : ∀ s a, P s a → Q s a) {s : σ} {as : List α}
    (allowed : Along step P s as) : Along step Q s as := by
  induction as generalizing s with
  | nil => trivial
  | cons a as ih => exact ⟨weaker s a allowed.1, fun s' moved => ih (allowed.2 s' moved)⟩

theorem Along.and {Q : σ → α → Prop} {s : σ} {as : List α} (first : Along step P s as)
    (second : Along step Q s as) : Along step (fun s a => P s a ∧ Q s a) s as := by
  induction as generalizing s with
  | nil => trivial
  | cons a as ih =>
    exact ⟨⟨first.1, second.1⟩, fun s' moved => ih (first.2 s' moved) (second.2 s' moved)⟩

/-- Some allowed run leads from one state to the other. -/
def Reaches (step : σ → α → Option σ) (P : σ → α → Prop) (s t : σ) : Prop :=
  ∃ as, Along step P s as ∧ run step s as = some t

theorem Reaches.refl (s : σ) : Reaches step P s s := ⟨[], trivial, rfl⟩

theorem reaches_step {s t : σ} {a : α} (allowed : P s a) (moved : step s a = some t) : Reaches step P s t := by
  refine ⟨[a], ⟨allowed, fun _ _ => trivial⟩, ?_⟩
  simp [run, moved]

theorem Reaches.trans {s t u : σ} (first : Reaches step P s t) (second : Reaches step P t u) :
    Reaches step P s u := by
  obtain ⟨as, allowed, ran⟩ := first
  obtain ⟨bs, after, later⟩ := second
  exact ⟨as ++ bs, (along_append ran).mpr ⟨allowed, after⟩, (run_append ran).trans later⟩

/-- Repeating an action that changes nothing. -/
theorem run_replicate {s : σ} {a : α} (fixed : step s a = some s) (n : Nat) :
    run step s (List.replicate n a) = some s := by
  induction n with
  | zero => rfl
  | succ n ih => simp only [List.replicate_succ, run, fixed, Option.bind_some, ih]

theorem tally_replicate {p : σ → α → Bool} {s : σ} {a : α} (fixed : step s a = some s)
    (counts : p s a = true) (n : Nat) : tally step p s (List.replicate n a) = n := by
  induction n with
  | zero => rfl
  | succ n ih =>
    simp only [List.replicate_succ, tally, fixed, counts, ih, Bool.toNat_true]
    omega

/-- What goes in has come out or is still there: a measure that each step raises by what `p`
counts and lowers by what `q` counts. -/
theorem tally_balance {p q : σ → α → Bool} {held : σ → Nat}
    (each : ∀ s a s', step s a = some s' → held s' + (q s a).toNat = held s + (p s a).toNat)
    {s t : σ} {as : List α} (ran : run step s as = some t) :
    held t + tally step q s as = held s + tally step p s as := by
  induction as generalizing s with
  | nil =>
    cases ran
    rfl
  | cons a as ih =>
    obtain ⟨s', moved, rest⟩ := run_cons_iff.mp ran
    have first := each s a s' moved
    have later := ih rest
    simp only [tally, moved]
    omega

/-- A supply that each counted step draws on. -/
theorem tally_le {p : σ → α → Bool} {supply : σ → Nat}
    (each : ∀ s a s', step s a = some s' → supply s' + (p s a).toNat ≤ supply s)
    {s t : σ} {as : List α} (ran : run step s as = some t) :
    supply t + tally step p s as ≤ supply s := by
  induction as generalizing s with
  | nil =>
    cases ran
    exact Nat.le_refl _
  | cons a as ih =>
    obtain ⟨s', moved, rest⟩ := run_cons_iff.mp ran
    have first := each s a s' moved
    have later := ih rest
    simp only [tally, moved]
    omega

/-- Where a step keeps `Q` exactly when `P` allows it, a run keeps it all along exactly when `P`
allows each of its steps. The actions of the run satisfy `ok`. -/
theorem along_iff_of_forall {inv Q : σ → Prop} {ok : α → Prop}
    (kept : ∀ s a s', ok a → inv s → step s a = some s' → inv s')
    (exact_ : ∀ s a s', ok a → inv s → Q s → step s a = some s' → (Q s' ↔ P s a)) {s t : σ}
    {as : List α} (fine : ∀ a ∈ as, ok a) (start : inv s) (holds : Q s)
    (ran : run step s as = some t) :
    Along step P s as ↔ ∀ bs cs u, as = bs ++ cs → run step s bs = some u → Q u := by
  induction as generalizing s with
  | nil =>
    refine ⟨fun _ bs cs u split ran => ?_, fun _ => trivial⟩
    obtain ⟨rfl, -⟩ := List.append_eq_nil_iff.mp split.symm
    cases ran
    exact holds
  | cons a as ih =>
    obtain ⟨s', moved, rest⟩ := run_cons_iff.mp ran
    have fit := fine a List.mem_cons_self
    have here := exact_ s a s' fit start holds moved
    have later := fun holds' => ih (fun b member => fine b (List.mem_cons_of_mem a member))
      (kept s a s' fit start moved) holds' rest
    constructor
    · rintro ⟨allowed, along⟩ bs cs u split ran'
      have holds' := here.mpr allowed
      cases bs with
      | nil =>
        cases ran'
        exact holds
      | cons b bs =>
        cases split
        obtain ⟨s₁, moved₁, rest₁⟩ := run_cons_iff.mp ran'
        rw [moved] at moved₁
        cases moved₁
        exact (later holds').mp (along s' moved) bs cs u rfl rest₁
    · intro everywhere
      have holds' := everywhere [a] as s' rfl (run_cons_iff.mpr ⟨s', moved, rfl⟩)
      refine ⟨here.mp holds', fun s₁ moved₁ => ?_⟩
      rw [moved] at moved₁
      cases moved₁
      refine (later holds').mpr fun bs cs u split ran' => ?_
      exact everywhere (a :: bs) cs u (congrArg (a :: ·) split) (run_cons_iff.mpr ⟨s', moved, ran'⟩)

theorem along_iff {inv Q : σ → Prop} (kept : ∀ s a s', inv s → step s a = some s' → inv s')
    (exact_ : ∀ s a s', inv s → Q s → step s a = some s' → (Q s' ↔ P s a)) {s t : σ} {as : List α}
    (start : inv s) (holds : Q s) (ran : run step s as = some t) :
    Along step P s as ↔ ∀ bs cs u, as = bs ++ cs → run step s bs = some u → Q u :=
  have fine : ∀ a ∈ as, (fun _ : α => True) a := fun _ _ => trivial
  along_iff_of_forall (fun s a s' _ => kept s a s') (fun s a s' _ => exact_ s a s') fine start
    holds ran

end Transition
