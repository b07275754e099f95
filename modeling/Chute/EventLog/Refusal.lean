import Chute.EventLog.Rotation

/-!
# A rotation that is refused

A rotation raises where a file does not pass its checks. The first loop checks the backups
before anything is moved, but it removes the last one on its way, and the active file is
checked after the backups have moved.
-/
namespace Chute

open Shelf (shiftUp)

variable {d : Disk} {backupCount : Nat} {files : Files}

/-- The file at the place does not pass. -/
def Fails (files : Files) (place : Nat) : Prop :=
  ∃ file error, files place = some file ∧ validateLogFile place file = some error

/-- A backup from 1 to a place does not pass. -/
def FailsUpTo (files : Files) (index : Nat) : Prop :=
  ∃ place, 1 ≤ place ∧ place ≤ index ∧ Fails files place

/-- Nothing has been changed when a rotation raises: no file fails; or the last backup does;
or there is no last backup, and a lower one fails or there is none. -/
def RefusalSafe (files : Files) (backupCount : Nat) : Prop :=
  ¬ FailsUpTo files backupCount ∧ ¬ Fails files 0 ∨
    Fails files backupCount ∨
    files backupCount = none ∧ (FailsUpTo files backupCount ∨
      ∀ place, 1 ≤ place → place ≤ backupCount → files place = none)

/-! ### The first loop -/

theorem failsUpTo_succ {index : Nat} :
    FailsUpTo files (index + 1) ↔ FailsUpTo files index ∨ Fails files (index + 1) := by
  constructor
  · rintro ⟨place, low, high, fails⟩
    rcases Nat.lt_or_eq_of_le high with below | rfl
    · exact .inl ⟨place, low, Nat.le_of_lt_succ below, fails⟩
    · exact .inr fails
  · rintro (⟨place, low, high, fails⟩ | fails)
    · exact ⟨place, low, Nat.le_succ_of_le high, fails⟩
    · exact ⟨index + 1, Nat.succ_pos index, Nat.le_refl _, fails⟩

/-- Below the last backup the first loop changes nothing, and it raises for a backup that
fails. -/
theorem validateBackups_checks {index : Nat} (below : index < backupCount) :
    (Disk.validateBackups backupCount index d).2 = d ∧
      ((Disk.validateBackups backupCount index d).1 ≠ none ↔ FailsUpTo d.files index) := by
  induction index with
  | zero =>
    refine ⟨rfl, fun raised => absurd rfl raised, ?_⟩
    rintro ⟨place, low, high, -⟩
    omega
  | succ index ih =>
    obtain ⟨same, raises⟩ := ih (by omega)
    unfold Disk.validateBackups
    rw [failsUpTo_succ]
    cases found : d.files (index + 1) with
    | none =>
      have passes : ¬ Fails d.files (index + 1) := by
        rintro ⟨file, error, held, -⟩
        rw [found] at held
        cases held
      refine ⟨same, raises.trans ?_⟩
      exact (or_iff_left passes).symm
    | some file =>
      cases checked : validateLogFile (index + 1) file with
      | some error =>
        simp only [checked]
        exact ⟨trivial, fun _ => .inr ⟨file, error, found, checked⟩, fun _ => by simp⟩
      | none =>
        have passes : ¬ Fails d.files (index + 1) := by
          rintro ⟨other, error, held, fails⟩
          rw [found] at held
          cases held
          rw [checked] at fails
          cases fails
        simp only [checked, if_neg (Nat.ne_of_lt below)]
        exact ⟨same, raises.trans (or_iff_left passes).symm⟩

/-! ### After the first loop -/

theorem not_fails_of_none {place : Nat} (absent : files place = none) : ¬ Fails files place := by
  rintro ⟨file, error, held, -⟩
  rw [absent] at held
  cases held

theorem validate_of_passes {place : Nat} {file : LogFile} (passes : ¬ Fails files place)
    (found : files place = some file) : validateLogFile place file = none := by
  cases checked : validateLogFile place file with
  | none => rfl
  | some error => exact absurd ⟨file, error, found, checked⟩ passes

/-- The second loop does not raise when the first has passed. -/
theorem shiftBackups_passes {index : Nat} (passes : ¬ FailsUpTo d.files index) :
    (Disk.shiftBackups index d).1 = none ∧
      (Disk.shiftBackups index d).2.files = shiftUp index d.files := by
  induction index generalizing d with
  | zero => exact ⟨rfl, rfl⟩
  | succ index ih =>
    rw [failsUpTo_succ, not_or] at passes
    obtain ⟨lower, here⟩ := passes
    unfold Disk.shiftBackups
    rw [shiftUp]
    cases found : d.files (index + 1) with
    | none =>
      simp only [Option.isSome_none, Bool.false_eq_true, if_false]
      exact ih lower
    | some file =>
      simp only [validate_of_passes here found, Option.isSome_some, if_true]
      refine ih ?_
      rintro ⟨place, low, high, fails⟩
      refine lower ⟨place, low, high, ?_⟩
      have kept : (d.replace (index + 1) (index + 2)).files place = d.files place := by
        rw [Disk.files_replace, Shelf.move_eq, if_neg (by omega), if_neg (by omega)]
      unfold Fails at fails ⊢
      rwa [kept] at fails

/-- The steps of a rotation after its first loop. -/
def Disk.afterChecks (last : Nat) (d : Disk) : Option LogError × Disk :=
  andThen (shiftBackups last d) fun d => andThen d.shiftActive createLogFile

theorem rotateLocked_succ (d : Disk) (last : Nat) : d.rotateLocked (last + 1) =
    Disk.andThen (Disk.validateBackups (last + 1) (last + 1) d) (Disk.afterChecks last) := rfl

/-- They raise just where the active file fails, and the backups have moved by then. -/
theorem rotation_after_checks {last : Nat} (passes : ¬ FailsUpTo d.files last)
    (free : d.files (last + 1) = none) :
    (Fails d.files 0 → ∃ error d', d.afterChecks last = (some error, d') ∧
      d'.files = shiftUp last d.files) ∧
    (¬ Fails d.files 0 → (d.afterChecks last).1 = none) := by
  obtain ⟨done, moved⟩ := shiftBackups_passes passes
  obtain ⟨active, -⟩ := Shelf.shiftUp_spec last free
  cases shifted : Disk.shiftBackups last d with
  | mk raised d₁ =>
    rw [shifted] at done moved
    cases done
    have same : d₁.files 0 = d.files 0 := (congrFun moved 0).trans active
    simp only [Disk.afterChecks, shifted, Disk.andThen, Disk.shiftActive]
    cases found : d₁.files 0 with
    | none =>
      refine ⟨fun fails => absurd fails (not_fails_of_none (same.symm.trans found)), fun _ => ?_⟩
      simp only [Disk.createLogFile, found, Option.isSome_none, Bool.false_eq_true, if_false]
    | some file =>
      rw [found] at same
      cases checked : validateLogFile 0 file with
      | some error =>
        simp only [checked]
        exact ⟨fun _ => ⟨error, d₁, rfl, moved⟩, fun passes =>
          absurd ⟨file, error, same.symm, checked⟩ passes⟩
      | none =>
        simp only [checked]
        constructor
        · rintro ⟨other, error, held, fails⟩
          rw [← same] at held
          cases held
          rw [checked] at fails
          cases fails
        · intro _
          have left : (d₁.replace 0 1).files 0 = none := by
            rw [Disk.files_replace, Shelf.move_eq, if_pos rfl]
          simp only [Disk.createLogFile, left, Option.isSome_none, Bool.false_eq_true, if_false]

/-- Moving up changes nothing only where there is nothing to move. -/
theorem none_of_shiftUp_eq {last : Nat} {before : Files} (free : before (last + 1) = none)
    (agree : ∀ place, 1 ≤ place → place ≤ last → files place = before place)
    (same : shiftUp last before = files) :
    ∀ place, 1 ≤ place → place ≤ last + 1 → files place = none := by
  obtain ⟨-, first, moved, -⟩ := Shelf.shiftUp_spec last free
  intro place low high
  induction place with
  | zero => omega
  | succ place ih =>
    rw [← same]
    rcases Nat.eq_zero_or_pos place with rfl | later
    · exact first
    · rw [moved place later (by omega), ← agree place later (by omega)]
      exact ih later (by omega)

theorem shiftUp_eq_of_none {last : Nat}
    (absent : ∀ place, 1 ≤ place → place ≤ last + 1 → files place = none) :
    shiftUp last files = files := by
  obtain ⟨active, first, moved, above⟩ :=
    Shelf.shiftUp_spec last (absent (last + 1) (by omega) (Nat.le_refl _))
  funext place
  rcases Nat.eq_zero_or_pos place with rfl | low
  · exact active
  · rcases Nat.lt_or_ge (last + 1) place with past | inside
    · exact above place past
    · rw [absent place low inside]
      rcases Nat.lt_or_eq_of_le low with later | here
      · obtain ⟨below, rfl⟩ : ∃ below, place = below + 1 := ⟨place - 1, by omega⟩
        rw [moved below (by omega) (by omega), absent below (by omega) (by omega)]
      · rw [← here]
        exact first

/-! ### The whole rotation -/

/-- The first loop by what it finds in the last place. -/
theorem validateBackups_last (last : Nat) :
    (Fails d.files (last + 1) → ∃ error, Disk.validateBackups (last + 1) (last + 1) d = (some error, d)) ∧
      (d.files (last + 1) = none → Disk.validateBackups (last + 1) (last + 1) d =
        Disk.validateBackups (last + 1) last d) ∧
      ((d.files (last + 1)).isSome → ¬ Fails d.files (last + 1) →
        Disk.validateBackups (last + 1) (last + 1) d =
          Disk.validateBackups (last + 1) last (d.unlink (last + 1))) := by
  refine ⟨?_, ?_, ?_⟩
  · rintro ⟨file, error, found, fails⟩
    rw [Disk.validateBackups]
    simp only [found, fails]
    exact ⟨error, rfl⟩
  · intro absent
    rw [Disk.validateBackups]
    simp only [absent]
  · intro held passes
    obtain ⟨file, found⟩ := Option.isSome_iff_exists.mp held
    rw [Disk.validateBackups]
    simp only [found, validate_of_passes passes found, if_true]

/-- What the lower backups and the active file decide, once the last place is free. -/
theorem rotation_from_free {last : Nat} {start : Disk} (free : start.files (last + 1) = none) :
    (FailsUpTo start.files last → ∃ error,
      Disk.andThen (Disk.validateBackups (last + 1) last start) (Disk.afterChecks last) =
        (some error, start)) ∧
    (¬ FailsUpTo start.files last → Fails start.files 0 → ∃ error d',
      Disk.andThen (Disk.validateBackups (last + 1) last start) (Disk.afterChecks last) =
        (some error, d') ∧ d'.files = shiftUp last start.files) ∧
    (¬ FailsUpTo start.files last → ¬ Fails start.files 0 →
      (Disk.andThen (Disk.validateBackups (last + 1) last start) (Disk.afterChecks last)).1 = none) := by
  obtain ⟨same, raises⟩ := @validateBackups_checks start (last + 1) last (Nat.lt_succ_self last)
  cases checked : Disk.validateBackups (last + 1) last start with
  | mk raised left =>
    rw [checked] at same raises
    cases same
    cases raised with
    | some error =>
      have fails := raises.mp nofun
      exact ⟨fun _ => ⟨error, rfl⟩, fun passes => absurd fails passes, fun passes => absurd fails passes⟩
    | none =>
      refine ⟨fun fails => absurd rfl (raises.mpr fails), fun passes => ?_, fun passes => ?_⟩
      · exact (rotation_after_checks passes free).1
      · exact (rotation_after_checks passes free).2

/-- A rotation that raises leaves the files as they were. -/
def RefusalUnchanged (d : Disk) (result : Option LogError × Disk) : Prop :=
  ∀ error d', result = (some error, d') → d'.files = d.files

/-- Without a last backup the lower ones are checked before anything is moved, and the active
file after they were. -/
private theorem refused_absent {last : Nat} (free : d.files (last + 1) = none) :
    RefusalUnchanged d
        (Disk.andThen (Disk.validateBackups (last + 1) last d) (Disk.afterChecks last)) ↔
      RefusalSafe d.files (last + 1) := by
  obtain ⟨lower, active, fine⟩ := rotation_from_free free
  have last_passes : ¬ Fails d.files (last + 1) := not_fails_of_none free
  have upto : FailsUpTo d.files (last + 1) ↔ FailsUpTo d.files last :=
    failsUpTo_succ.trans (or_iff_left last_passes)
  unfold RefusalSafe
  rw [upto]
  by_cases checked : FailsUpTo d.files last
  · obtain ⟨error, refused⟩ := lower checked
    rw [refused]
    refine ⟨fun _ => .inr (.inr ⟨free, .inl checked⟩), fun _ => ?_⟩
    rintro _ _ ⟨⟩
    rfl
  · by_cases passes : Fails d.files 0
    · obtain ⟨error, d', refused, moved⟩ := active checked passes
      rw [refused]
      constructor
      · intro unchanged
        have same := moved.symm.trans (unchanged error d' rfl)
        exact .inr (.inr ⟨free, .inr (none_of_shiftUp_eq free (fun _ _ _ => rfl) same)⟩)
      · rintro (⟨-, fine⟩ | fails | ⟨-, fails | nothing⟩)
        · exact absurd passes fine
        · exact absurd fails last_passes
        · exact absurd fails checked
        · rintro _ _ ⟨⟩
          rw [moved]
          exact shiftUp_eq_of_none nothing
    · have quiet := fine checked passes
      refine ⟨fun _ => .inl ⟨checked, passes⟩, fun _ error d' raised => ?_⟩
      rw [raised] at quiet
      cases quiet

/-- A last backup that passes is gone when anything else fails. -/
private theorem refused_present {last : Nat} (held : (d.files (last + 1)).isSome)
    (last_passes : ¬ Fails d.files (last + 1)) :
    RefusalUnchanged d (Disk.andThen
        (Disk.validateBackups (last + 1) last (d.unlink (last + 1))) (Disk.afterChecks last)) ↔
      RefusalSafe d.files (last + 1) := by
  have free : (d.unlink (last + 1)).files (last + 1) = none := by
    rw [Disk.files_unlink, Function.update_self]
  have kept : ∀ place, place ≤ last → (d.unlink (last + 1)).files place = d.files place := by
    intro place inside
    rw [Disk.files_unlink, Function.update_of_ne (by omega)]
  have same_fails : ∀ place, place ≤ last →
      (Fails (d.unlink (last + 1)).files place ↔ Fails d.files place) := by
    intro place inside
    unfold Fails
    rw [kept place inside]
  have upto : FailsUpTo d.files (last + 1) ↔ FailsUpTo (d.unlink (last + 1)).files last := by
    rw [failsUpTo_succ, or_iff_left last_passes]
    constructor
    · rintro ⟨place, low, high, fails⟩
      exact ⟨place, low, high, (same_fails place high).mpr fails⟩
    · rintro ⟨place, low, high, fails⟩
      exact ⟨place, low, high, (same_fails place high).mp fails⟩
  obtain ⟨lower, active, fine⟩ := rotation_from_free free
  have safe : RefusalSafe d.files (last + 1) ↔
      ¬ FailsUpTo (d.unlink (last + 1)).files last ∧ ¬ Fails d.files 0 := by
    unfold RefusalSafe
    rw [upto]
    refine ⟨fun safe => ?_, .inl⟩
    rcases safe with fine | fails | ⟨gone, -⟩
    · exact fine
    · exact absurd fails last_passes
    · rw [gone] at held
      cases held
  rw [safe, ← same_fails 0 (Nat.zero_le last)]
  by_cases checked : FailsUpTo (d.unlink (last + 1)).files last
  · obtain ⟨error, refused⟩ := lower checked
    rw [refused]
    refine ⟨fun unchanged => ?_, fun fine => absurd checked fine.1⟩
    have same := unchanged error _ rfl
    rw [← same, free] at held
    cases held
  · by_cases passes : Fails (d.unlink (last + 1)).files 0
    · obtain ⟨error, d', refused, moved⟩ := active checked passes
      rw [refused]
      refine ⟨fun unchanged => ?_, fun fine => absurd passes fine.2⟩
      have same := moved.symm.trans (unchanged error d' rfl)
      have nothing := none_of_shiftUp_eq free (fun place _ high => (kept place high).symm) same
      rw [nothing (last + 1) (by omega) (Nat.le_refl _)] at held
      cases held
    · have quiet := fine checked passes
      refine ⟨fun _ => ⟨checked, passes⟩, fun _ error d' raised => ?_⟩
      rw [raised] at quiet
      cases quiet

theorem rotateLocked_refused_iff (d : Disk) (last : Nat) :
    RefusalUnchanged d (d.rotateLocked (last + 1)) ↔ RefusalSafe d.files (last + 1) := by
  obtain ⟨failing, absent, present⟩ := @validateBackups_last d last
  rw [rotateLocked_succ]
  by_cases fails : Fails d.files (last + 1)
  · obtain ⟨error, refused⟩ := failing fails
    rw [refused]
    refine ⟨fun _ => .inr (.inl fails), fun _ => ?_⟩
    rintro _ _ ⟨⟩
    rfl
  · cases held : (d.files (last + 1)).isSome with
    | false =>
      have free := Option.not_isSome_iff_eq_none.mp (ne_true_of_eq_false held)
      rw [absent free]
      exact refused_absent free
    | true =>
      rw [present held fails]
      exact refused_present held fails

/-- **When a refused rotation changes nothing.** For an event that needs a rotation: the files
are as before, if the rotation raises, just where no file fails; or the last backup fails; or
there is no last backup, and a lower one fails or there is none at all. -/
theorem refused_rotation_unchanged_iff {sink : JsonlEventSink} {json : List UInt8}
    (needs : d.needsRotation sink (json ++ [10]).length = true) :
    (∀ error d', d.rotateIfNeeded sink (json ++ [10]).length = (some error, d') →
      d'.files = d.files) ↔ RefusalSafe d.files sink.backupCount := by
  have some_backup : sink.backupCount ≠ 0 := by
    intro none
    unfold Disk.needsRotation at needs
    simp [none] at needs
  obtain ⟨last, count⟩ : ∃ last, sink.backupCount = last + 1 :=
    ⟨sink.backupCount - 1, by omega⟩
  unfold Disk.rotateIfNeeded
  rw [if_pos needs, count]
  exact rotateLocked_refused_iff d last

/-- Three files, of which the first backup can be read by others. -/
def exposedBackup : Disk where
  files := fun place => match place with
    | 0 => some (ownFile [67, 10])
    | 1 => some ⟨.regular, true, false, [66, 10]⟩
    | 2 => some (ownFile [65, 10])
    | _ => none
  parent := none
  written := []
  seen := []

/-- The rotation is refused for it, and the last backup is gone. -/
theorem refused_rotation_loses_last :
    exposedBackup.needsRotation ⟨some 2, 2⟩ ([68] ++ [10]).length = true ∧
      ¬ (∀ error d', exposedBackup.rotateIfNeeded ⟨some 2, 2⟩ ([68] ++ [10]).length = (some error, d') →
        d'.files = exposedBackup.files) := by
  refine ⟨by decide, fun unchanged => ?_⟩
  have same := unchanged (.invalid 1 .notOwnerOnly) (exposedBackup.unlink 2) rfl
  have gone := congrFun same 2
  cases gone

/-- The condition holds for the same files without the last backup. -/
theorem refused_rotation_unchanged_exposed :
    ∃ error d', (exposedBackup.unlink 2).rotateIfNeeded ⟨some 2, 2⟩ ([68] ++ [10]).length =
      (some error, d') ∧ d'.files = (exposedBackup.unlink 2).files := by
  have refused : (exposedBackup.unlink 2).rotateIfNeeded ⟨some 2, 2⟩ ([68] ++ [10]).length =
      (some (.invalid 1 .notOwnerOnly),
        ((exposedBackup.unlink 2).rotateIfNeeded ⟨some 2, 2⟩ ([68] ++ [10]).length).2) :=
    Prod.ext rfl rfl
  have when := @refused_rotation_unchanged_iff (exposedBackup.unlink 2) ⟨some 2, 2⟩ [68] (by decide)
  refine ⟨_, _, refused, when.mpr (.inr (.inr ⟨rfl, .inl ?_⟩)) _ _ refused⟩
  exact ⟨1, by decide, by decide, _, .invalid 1 .notOwnerOnly, rfl, rfl⟩

end Chute
