import Mathlib.Data.List.Chain
import Chute.EventLog.Basic

/-!
# Rotation loses the oldest lines only

The files of the log are a shelf of blocks of whole lines. Whatever the sink does, at every
moment the blocks together are the last lines written.
-/
namespace Chute

open Shelf (gather move shiftUp)

/-- The bytes of all files, the oldest first. -/
def logBytes (backupCount : Nat) (files : Files) : List UInt8 :=
  gather (fun place => (files place).map LogFile.content) backupCount

/-- Blocks of lines stand behind the files: each file has the bytes of its block, the blocks
together are the last lines written, no place is past the backups, and a block is no larger
than the limit unless it is one line that is. -/
structure Shelved (maxBytes backupCount : Nat) (files : Files) (written : List LogLine)
    (shelf : Nat → Option (List LogLine)) : Prop where
  files : ∀ place, files place = (shelf place).map fun block => ownFile block.flatten
  suffix : gather shelf backupCount <:+ written
  beyond : ∀ place, backupCount < place → shelf place = none
  sizes : ∀ place block, shelf place = some block →
    block.flatten.length ≤ maxBytes ∨ ∃ line, block = [line] ∧ maxBytes < line.length

/-- From one state to the next the files keep all their bytes, or a line is appended, or the
last backup goes, when all backups are there. -/
inductive LogStep (backupCount : Nat) (files : Files) (written : List LogLine) :
    Files → List LogLine → Prop
  | kept {files' : Files} (same : logBytes backupCount files' = logBytes backupCount files) :
    LogStep backupCount files written files' written
  | appended {files' : Files} (line : LogLine)
    (more : logBytes backupCount files' = logBytes backupCount files ++ line) :
    LogStep backupCount files written files' (written ++ [line])
  | dropped (full : ∀ place, 1 ≤ place → place ≤ backupCount → (files place).isSome) :
    LogStep backupCount files written (Function.update files backupCount none) written

variable {maxBytes backupCount place : Nat} {files files' : Files} {written : List LogLine}
  {shelf : Nat → Option (List LogLine)} {block : List LogLine} {line : LogLine}

/-! ### The operations -/

/-- The files have the bytes of the blocks. -/
theorem Shelved.logBytes_eq (shelved : Shelved maxBytes backupCount files written shelf) :
    logBytes backupCount files = (gather shelf backupCount).flatten := by
  unfold logBytes
  rw [← Shelf.gather_flatten]
  refine Shelf.gather_congr fun place _ => ?_
  rw [shelved.files place, Option.map_map]
  rfl

/-- One place is filled anew. -/
theorem Shelved.put {file : Option LogFile} {written' : List LogLine} {new : Option (List LogLine)}
    (shelved : Shelved maxBytes backupCount files written shelf) (inside : place ≤ backupCount)
    (same : file = new.map fun block => ownFile block.flatten)
    (suffix : gather (Function.update shelf place new) backupCount <:+ written')
    (sizes : ∀ block, new = some block →
      block.flatten.length ≤ maxBytes ∨ ∃ line, block = [line] ∧ maxBytes < line.length) :
    Shelved maxBytes backupCount (Function.update files place file) written'
      (Function.update shelf place new) where
  files other := by
    by_cases here : other = place
    · rw [here, Function.update_self, Function.update_self, same]
    · rw [Function.update_of_ne here, Function.update_of_ne here]
      exact shelved.files other
  suffix := suffix
  beyond other past := by
    rw [Function.update_of_ne (by omega)]
    exact shelved.beyond other past
  sizes other block held := by
    by_cases here : other = place
    · rw [here, Function.update_self] at held
      exact sizes block held
    · rw [Function.update_of_ne here] at held
      exact shelved.sizes other block held

theorem Shelved.unlink (shelved : Shelved maxBytes backupCount files written shelf) :
    Shelved maxBytes backupCount (Function.update files backupCount none) written
      (Function.update shelf backupCount none) := by
  refine shelved.put (Nat.le_refl _) rfl ?_ nofun
  have all := shelved.suffix
  rw [Shelf.gather_remove] at all
  exact (List.suffix_append _ _).trans all

theorem Shelved.replace (shelved : Shelved maxBytes backupCount files written shelf)
    (inside : place + 1 ≤ backupCount) (empty : shelf (place + 1) = none) :
    Shelved maxBytes backupCount (move files place (place + 1)) written
      (move shelf place (place + 1)) := by
  constructor
  · intro other
    rw [Shelf.move_eq, Shelf.move_eq]
    split
    · rfl
    · split
      · exact shelved.files place
      · exact shelved.files other
  · rw [Shelf.gather_move inside empty]
    exact shelved.suffix
  · intro other past
    rw [Shelf.move_eq, if_neg (by omega), if_neg (by omega)]
    exact shelved.beyond other past
  · intro other block held
    rw [Shelf.move_eq] at held
    split at held
    · cases held
    · split at held
      · exact shelved.sizes place block held
      · exact shelved.sizes other block held

theorem Shelved.create (shelved : Shelved maxBytes backupCount files written shelf)
    (empty : shelf 0 = none) :
    Shelved maxBytes backupCount (Function.update files 0 (some (ownFile []))) written
      (Function.update shelf 0 (some [])) := by
  refine shelved.put (Nat.zero_le _) rfl ?_ ?_
  · rw [Shelf.gather_open empty]
    exact shelved.suffix
  · rintro _ ⟨⟩
    exact .inl (Nat.zero_le _)

/-- A line is appended to an empty file, or where there is room for it. -/
theorem Shelved.append (shelved : Shelved maxBytes backupCount files written shelf)
    (active : shelf 0 = some block)
    (room : block = [] ∨ block.flatten.length + line.length ≤ maxBytes) :
    Shelved maxBytes backupCount
      (Function.update files 0 ((files 0).map fun file => { file with content := file.content ++ line }))
      (written ++ [line]) (Function.update shelf 0 (some (block ++ [line]))) := by
  refine shelved.put (Nat.zero_le _) ?_ ?_ ?_
  · rw [shelved.files 0, active]
    simp [ownFile]
  · rw [Shelf.gather_append active]
    obtain ⟨lost, all⟩ := shelved.suffix
    exact ⟨lost, by rw [← List.append_assoc, all]⟩
  · rintro _ ⟨⟩
    rcases room with rfl | room
    · by_cases fits : line.length ≤ maxBytes
      · left
        simpa using fits
      · right
        exact ⟨line, rfl, Nat.lt_of_not_le fits⟩
    · left
      simpa using room

/-! ### The disk and its history -/

/-- Every state so far has its blocks, and each is a step from the one before it. -/
structure Disk.Kept (maxBytes backupCount : Nat) (d : Disk) (shelf : Nat → Option (List LogLine)) :
    Prop where
  shelved : Shelved maxBytes backupCount d.files d.written shelf
  history : ∀ p ∈ d.seen, ∃ shelf, Shelved maxBytes backupCount p.1 p.2 shelf
  steps : d.seen.IsChain fun p q => LogStep backupCount p.1 p.2 q.1 q.2
  last : d.seen.getLast? = some (d.files, d.written)
  parent : d.parent = none

variable {d : Disk}

/-- One more state. -/
private theorem kept_next {d' : Disk} {shelf' : Nat → Option (List LogLine)}
    (kept : d.Kept maxBytes backupCount shelf)
    (shelved : Shelved maxBytes backupCount d'.files d'.written shelf')
    (step : LogStep backupCount d.files d.written d'.files d'.written)
    (seen : d'.seen = d.seen ++ [(d'.files, d'.written)]) (parent : d'.parent = d.parent) :
    d'.Kept maxBytes backupCount shelf' := by
  constructor
  · exact shelved
  · intro p member
    rw [seen] at member
    rcases List.mem_append.mp member with before | now
    · exact kept.history p before
    · cases List.mem_singleton.mp now
      exact ⟨shelf', shelved⟩
  · rw [seen, List.isChain_append]
    refine ⟨kept.steps, List.isChain_singleton _, ?_⟩
    intro p before q after
    rw [kept.last, Option.mem_some_iff] at before
    cases before
    cases Option.mem_some_iff.mp after
    exact step
  · rw [seen, List.getLast?_concat]
  · rw [parent]
    exact kept.parent

/-- The last backup is removed when all backups are there. -/
theorem Disk.Kept.unlink (kept : d.Kept maxBytes backupCount shelf)
    (full : ∀ place, 1 ≤ place → place ≤ backupCount → (d.files place).isSome) :
    (d.unlink backupCount).Kept maxBytes backupCount (Function.update shelf backupCount none) :=
  kept_next kept kept.shelved.unlink (.dropped full) rfl rfl

theorem Disk.Kept.replace (kept : d.Kept maxBytes backupCount shelf)
    (inside : place + 1 ≤ backupCount) (empty : shelf (place + 1) = none) :
    (d.replace place (place + 1)).Kept maxBytes backupCount (move shelf place (place + 1)) := by
  have shelved := kept.shelved.replace inside empty
  refine kept_next kept shelved (.kept ?_) rfl rfl
  rw [kept.shelved.logBytes_eq, ← Shelf.gather_move inside empty]
  exact shelved.logBytes_eq

theorem Disk.Kept.create (kept : d.Kept maxBytes backupCount shelf) (empty : shelf 0 = none) :
    ∃ d', d.createLogFile = (none, d') ∧
      d'.Kept maxBytes backupCount (Function.update shelf 0 (some [])) ∧ d'.written = d.written := by
  have absent : d.files 0 = none := by
    rw [kept.shelved.files 0, empty]
    rfl
  have shelved := kept.shelved.create empty
  unfold createLogFile
  rw [absent]
  refine ⟨_, rfl, kept_next kept shelved (.kept ?_) rfl rfl, rfl⟩
  rw [kept.shelved.logBytes_eq, ← Shelf.gather_open empty]
  exact shelved.logBytes_eq

theorem Disk.Kept.append (kept : d.Kept maxBytes backupCount shelf) (active : shelf 0 = some block)
    (room : block = [] ∨ block.flatten.length + line.length ≤ maxBytes) :
    (d.append line).Kept maxBytes backupCount (Function.update shelf 0 (some (block ++ [line]))) := by
  have shelved := kept.shelved.append active room
  refine kept_next kept shelved (.appended line ?_) rfl rfl
  rw [kept.shelved.logBytes_eq]
  refine shelved.logBytes_eq.trans ?_
  rw [Shelf.gather_append active, List.flatten_append]
  simp

/-! ### A rotation -/

theorem validate_ownFile (place : Nat) (content : List UInt8) :
    validateLogFile place (ownFile content) = none := rfl

/-- Every file that is there passes. -/
def AllValid (files : Files) : Prop :=
  ∀ place file, files place = some file → validateLogFile place file = none

theorem Shelved.allValid (shelved : Shelved maxBytes backupCount files written shelf) :
    AllValid files := by
  intro place file found
  rw [shelved.files place, Option.map_eq_some_iff] at found
  obtain ⟨block, -, rfl⟩ := found
  rfl

/-- Below the last backup the first loop only looks. -/
theorem validateBackups_below {index : Nat} (below : index < backupCount) (valid : AllValid d.files) :
    Disk.validateBackups backupCount index d = (none, d) := by
  induction index with
  | zero => rfl
  | succ index ih =>
    unfold Disk.validateBackups
    cases found : d.files (index + 1) with
    | none => exact ih (by omega)
    | some file =>
      simp only [valid _ _ found, if_neg (Nat.ne_of_lt below)]
      exact ih (by omega)

/-- The first loop removes the last backup, if it is there, and nothing else. -/
theorem validateBackups_valid (some_backup : 0 < backupCount) (valid : AllValid d.files) :
    Disk.validateBackups backupCount backupCount d =
      (none, if (d.files backupCount).isSome then d.unlink backupCount else d) := by
  cases backupCount with
  | zero => omega
  | succ last =>
    unfold Disk.validateBackups
    cases found : d.files (last + 1) with
    | none => exact validateBackups_below (Nat.lt_succ_self last) valid
    | some file =>
      have left : AllValid (d.unlink (last + 1)).files := by
        intro place file found
        rw [Disk.files_unlink] at found
        by_cases here : place = last + 1
        · simp [here] at found
        · rw [Function.update_of_ne here] at found
          exact valid place file found
      simp only [valid _ _ found, if_true, Option.isSome_some]
      exact validateBackups_below (Nat.lt_succ_self last) left

/-- The second loop moves each backup up into the place that was made free. -/
theorem Disk.Kept.shiftBackups {index : Nat} (kept : d.Kept maxBytes backupCount shelf)
    (inside : index + 1 ≤ backupCount) (empty : shelf (index + 1) = none) :
    ∃ d', Disk.shiftBackups index d = (none, d') ∧
      d'.Kept maxBytes backupCount (shiftUp index shelf) ∧ d'.written = d.written := by
  induction index generalizing d shelf with
  | zero => exact ⟨d, rfl, kept, rfl⟩
  | succ index ih =>
    have behind := kept.shelved.files (index + 1)
    unfold Disk.shiftBackups
    rw [shiftUp]
    cases held : shelf (index + 1) with
    | none =>
      rw [held] at behind
      simp only [behind, Option.map_none, Option.isSome_none, Bool.false_eq_true, if_false]
      exact ih kept (by omega) held
    | some block =>
      rw [held] at behind
      simp only [behind, Option.map_some, validate_ownFile, Option.isSome_some, if_true]
      refine ih (kept.replace inside empty) (by omega) ?_
      rw [Shelf.move_eq, if_pos rfl]

/-- Where a place is filled, all places below it are. -/
def Contiguous (shelf : Nat → Option (List LogLine)) : Prop :=
  ∀ place, (shelf (place + 1)).isSome → (shelf place).isSome

theorem Contiguous.below (contiguous : Contiguous shelf) {high low : Nat}
    (filled : (shelf high).isSome) (ordered : low ≤ high) : (shelf low).isSome := by
  induction high with
  | zero =>
    cases Nat.le_zero.mp ordered
    exact filled
  | succ high ih =>
    rcases Nat.lt_or_eq_of_le ordered with below | here
    · exact ih (contiguous high filled) (Nat.le_of_lt_succ below)
    · rw [here]
      exact filled

/-- A rotation leaves an empty active file before the backups. -/
theorem Disk.Kept.rotateLocked (kept : d.Kept maxBytes backupCount shelf)
    (some_backup : 0 < backupCount) (active : (shelf 0).isSome) (contiguous : Contiguous shelf) :
    ∃ d' shelf', d.rotateLocked backupCount = (none, d') ∧ d'.Kept maxBytes backupCount shelf' ∧
      d'.written = d.written ∧ shelf' 0 = some [] ∧ Contiguous shelf' := by
  have valid := kept.shelved.allValid
  have present : ∀ place, (d.files place).isSome = (shelf place).isSome := by
    intro place
    rw [kept.shelved.files place, Option.isSome_map]
  -- the last backup goes
  obtain ⟨d₁, first, kept₁, written₁⟩ : ∃ d₁, Disk.validateBackups backupCount backupCount d = (none, d₁) ∧
      d₁.Kept maxBytes backupCount (Function.update shelf backupCount none) ∧
      d₁.written = d.written := by
    refine ⟨_, validateBackups_valid some_backup valid, ?_⟩
    split
    next held =>
      refine ⟨kept.unlink fun place _ inside => ?_, rfl⟩
      rw [present] at held ⊢
      exact contiguous.below held inside
    next missing =>
      rw [present, Option.not_isSome_iff_eq_none] at missing
      rw [← missing, Function.update_eq_self]
      exact ⟨kept, rfl⟩
  -- the others move up
  obtain ⟨last, rfl⟩ : ∃ last, backupCount = last + 1 := ⟨backupCount - 1, by omega⟩
  obtain ⟨d₂, second, kept₂, written₂⟩ :=
    kept₁.shiftBackups (Nat.le_refl _) (Function.update_self ..)
  obtain ⟨active₂, free₂, moved₂, -⟩ :=
    @Shelf.shiftUp_spec _ (Function.update shelf (last + 1) none) last (Function.update_self ..)
  generalize shiftUp last (Function.update shelf (last + 1) none) = shelf₂ at kept₂ active₂ free₂ moved₂
  rw [Function.update_of_ne (Nat.succ_ne_zero last).symm] at active₂
  -- the active file becomes the first backup
  obtain ⟨block, held⟩ := Option.isSome_iff_exists.mp active
  have third : d₂.shiftActive = (none, d₂.replace 0 1) := by
    unfold Disk.shiftActive
    rw [kept₂.shelved.files 0, active₂, held]
    rfl
  have kept₃ := kept₂.replace (Nat.succ_le_succ (Nat.zero_le last)) free₂
  have opened : move shelf₂ 0 (0 + 1) 0 = none := by
    rw [Shelf.move_eq, if_pos rfl]
  obtain ⟨d₄, fourth, kept₄, written₄⟩ := kept₃.create opened
  refine ⟨d₄, _, ?_, kept₄, ?_, Function.update_self .., ?_⟩
  · unfold Disk.rotateLocked Disk.andThen
    simp only [first, Nat.add_sub_cancel, second, third]
    exact fourth
  · exact written₄.trans (written₂.trans written₁)
  · -- each block has gone up by one place
    have up : ∀ place, place ≤ last → Function.update (move shelf₂ 0 (0 + 1)) 0 (some []) (place + 1) =
        shelf place := by
      intro place inside
      rw [Function.update_of_ne (Nat.succ_ne_zero place), Shelf.move_eq, if_neg (by omega)]
      rcases Nat.eq_zero_or_pos place with rfl | low
      · rw [if_pos rfl, active₂]
      · rw [if_neg (by omega), moved₂ place low inside, Function.update_of_ne (by omega)]
    have past : ∀ place, last < place →
        Function.update (move shelf₂ 0 (0 + 1)) 0 (some []) (place + 1) = none := by
      intro place high
      exact kept₄.shelved.beyond (place + 1) (by omega)
    intro place filled
    rcases Nat.lt_or_ge last place with high | inside
    · rw [past place high] at filled
      cases filled
    · rw [up place inside] at filled
      cases place with
      | zero =>
        rw [Function.update_self]
        rfl
      | succ place =>
        rw [up place (by omega)]
        exact contiguous place filled

/-! ### A whole run -/

/-- The disk between two events. -/
structure Disk.Rests (maxBytes backupCount : Nat) (d : Disk) (shelf : Nat → Option (List LogLine)) :
    Prop extends d.Kept maxBytes backupCount shelf where
  active : (shelf 0).isSome
  contiguous : Contiguous shelf
  lines : ∀ line ∈ d.written, line ≠ []

/-- An active file without bytes has no lines. -/
theorem Disk.Rests.eq_nil (rests : d.Rests maxBytes backupCount shelf) (held : shelf 0 = some block)
    (none_left : block.flatten.length = 0) : block = [] := by
  cases block with
  | nil => rfl
  | cons line rest =>
    have member := rests.shelved.suffix.subset
      (Shelf.mem_gather (Nat.zero_le backupCount) held List.mem_cons_self)
    have empty : line = [] := by
      rw [List.flatten_cons, List.length_append] at none_left
      exact List.length_eq_zero_iff.mp (by omega)
    exact absurd empty (rests.lines line member)

/-- Writing an event where there is room, or after a rotation. -/
private theorem Disk.Rests.write (rests : d.Rests maxBytes backupCount shelf)
    (held : shelf 0 = some block) (json : List UInt8)
    (room : block = [] ∨ block.flatten.length + (json ++ [10]).length ≤ maxBytes) :
    ∃ shelf', (d.append (json ++ [10])).Rests maxBytes backupCount shelf' := by
  refine ⟨_, rests.toKept.append held room, ?_, ?_, ?_⟩
  · rw [Function.update_self]
    rfl
  · intro place filled
    rw [Function.update_of_ne (Nat.succ_ne_zero place)] at filled
    by_cases here : place = 0
    · rw [here, Function.update_self]
      rfl
    · rw [Function.update_of_ne here]
      exact rests.contiguous place filled
  · intro line member
    rcases List.mem_append.mp member with before | new
    · exact rests.lines line before
    · rw [List.mem_singleton.mp new]
      exact List.append_ne_nil_of_right_ne_nil json (List.cons_ne_nil _ _)

/-- The active file opens. -/
theorem Disk.Rests.openAppendFile (rests : d.Rests maxBytes backupCount shelf) :
    d.openAppendFile = (none, d) := by
  obtain ⟨block, held⟩ := Option.isSome_iff_exists.mp rests.active
  have found := rests.shelved.files 0
  rw [held] at found
  unfold Disk.openAppendFile Disk.ensureLogFile
  rw [rests.parent, found]
  rfl

theorem Disk.Rests.writeEventSync (rests : d.Rests maxBytes backupCount shelf)
    (some_backup : 0 < backupCount) (json : List UInt8) :
    ∃ d' shelf', d.writeEventSync ⟨some maxBytes, backupCount⟩ json = (none, d') ∧
      d'.Rests maxBytes backupCount shelf' ∧ d'.written = d.written ++ [json ++ [10]] := by
  obtain ⟨block, held⟩ := Option.isSome_iff_exists.mp rests.active
  have size : (d.files 0).bind LogFile.size = some block.flatten.length := by
    rw [rests.shelved.files 0, held]
    rfl
  have needs : d.needsRotation ⟨some maxBytes, backupCount⟩ (json ++ [10]).length = true ↔
      block.flatten.length ≠ 0 ∧ maxBytes < block.flatten.length + (json ++ [10]).length := by
    unfold Disk.needsRotation Disk.full
    simp only [size, Option.any_some, Bool.and_eq_true, decide_eq_true_eq, ne_eq]
    exact and_iff_right some_backup.ne'
  unfold Disk.writeEventSync Disk.rotateIfNeeded
  by_cases full : d.needsRotation ⟨some maxBytes, backupCount⟩ (json ++ [10]).length = true
  · obtain ⟨d', shelf', rotated, kept', written, opened, contiguous⟩ :=
      rests.rotateLocked some_backup rests.active rests.contiguous
    have rests' : d'.Rests maxBytes backupCount shelf' := by
      refine ⟨kept', ?_, contiguous, ?_⟩
      · rw [opened]
        rfl
      · rw [written]
        exact rests.lines
    obtain ⟨shelf'', done⟩ := rests'.write opened json (.inl rfl)
    refine ⟨_, shelf'', ?_, done, ?_⟩
    · simp only [full, if_true, rotated, Disk.andThen, rests'.openAppendFile]
    · rw [← written]
      rfl
  · have room : block = [] ∨ block.flatten.length + (json ++ [10]).length ≤ maxBytes := by
      rw [needs] at full
      by_cases none_left : block.flatten.length = 0
      · exact .inl (rests.eq_nil held none_left)
      · right
        have fits := not_and.mp full none_left
        omega
    obtain ⟨shelf', done⟩ := rests.write held json room
    refine ⟨_, shelf', ?_, done, rfl⟩
    simp only [if_neg full, Disk.andThen, rests.openAppendFile]

/-- A new sink on an empty directory has one file, without lines. -/
theorem rests_new (maxBytes backupCount : Nat) : ∃ d shelf, Disk.empty.ensureLogFile = (none, d) ∧
    d.Rests maxBytes backupCount shelf ∧ d.written = [] := by
  have shelved : Shelved maxBytes backupCount (fun _ => none) [] (fun _ => none) := by
    refine ⟨fun _ => rfl, ?_, fun _ _ => rfl, nofun⟩
    have nothing : gather (fun _ : Nat => (none : Option (List LogLine))) backupCount = [] := by
      induction backupCount with
      | zero => rfl
      | succ last ih => rw [gather, ih]; rfl
    exact ⟨[], nothing⟩
  have kept : Disk.empty.Kept maxBytes backupCount (fun _ => none) := by
    refine ⟨shelved, ?_, List.isChain_singleton _, rfl, rfl⟩
    intro p member
    cases List.mem_singleton.mp member
    exact ⟨_, shelved⟩
  obtain ⟨d, done, kept', written⟩ := kept.create rfl
  refine ⟨d, _, done, ⟨kept', ?_, ?_, ?_⟩, written⟩
  · rw [Function.update_self]
    rfl
  · intro place filled
    rw [Function.update_of_ne (Nat.succ_ne_zero place)] at filled
    cases filled
  · rw [written]
    exact fun _ member => absurd member List.not_mem_nil

theorem rests_of_events {sink : JsonlEventSink} (limited : sink.maxBytes = some maxBytes)
    (some_backup : 0 < sink.backupCount) (events : List (List UInt8)) :
    ∃ d shelf, Disk.writeEvents sink events = (none, d) ∧ d.Rests maxBytes sink.backupCount shelf ∧
      d.written = events.map (· ++ [10]) := by
  induction events using List.reverseRecOn with
  | nil => exact rests_new maxBytes sink.backupCount
  | append_singleton events json ih =>
    obtain ⟨d, shelf, done, rests, written⟩ := ih
    obtain ⟨d', shelf', wrote, rests', more⟩ := rests.writeEventSync some_backup json
    refine ⟨d', shelf', ?_, rests', ?_⟩
    · unfold Disk.writeEvents at done ⊢
      rw [List.foldl_append, done]
      rw [← limited] at wrote
      exact wrote
    · rw [more, written, List.map_append]
      rfl

/-- **Rotation loses the oldest records only.** A sink with a limit and with backups that
starts on an empty directory writes every event. In every state on the way the backups and the
active file are blocks of whole lines that together are the last lines written, there is no
file past the backups, and no file is larger than the limit unless it is one line that is. From
one state to the next nothing is lost but the last backup, and only when all are there. -/
theorem rotation_keeps_last {sink : JsonlEventSink} (limited : sink.maxBytes = some maxBytes)
    (some_backup : 0 < sink.backupCount) (events : List (List UInt8)) :
    ∃ d, Disk.writeEvents sink events = (none, d) ∧ d.written = events.map (· ++ [10]) ∧
      d.seen.getLast? = some (d.files, d.written) ∧
      (∀ p ∈ d.seen, ∃ shelf, Shelved maxBytes sink.backupCount p.1 p.2 shelf) ∧
      d.seen.IsChain fun p q => LogStep sink.backupCount p.1 p.2 q.1 q.2 := by
  obtain ⟨d, shelf, done, rests, written⟩ := rests_of_events limited some_backup events
  exact ⟨d, done, written, rests.last, rests.history, rests.steps⟩

/-- Four records of one byte more than the limit, and two backups: the first one is gone. -/
theorem rotation_keeps_last_four :
    (Disk.writeEvents ⟨some 1, 2⟩ [[65], [66], [67], [68]]).2.files 2 = some (ownFile [66, 10]) ∧
      logBytes 2 (Disk.writeEvents ⟨some 1, 2⟩ [[65], [66], [67], [68]]).2.files =
        [66, 10, 67, 10, 68, 10] ∧
      ∀ p ∈ (Disk.writeEvents ⟨some 1, 2⟩ [[65], [66], [67], [68]]).2.seen, p.1 3 = none := by
  obtain ⟨d, done, -, -, states, -⟩ :=
    @rotation_keeps_last 1 ⟨some 1, 2⟩ rfl (by decide) [[65], [66], [67], [68]]
  refine ⟨by decide +kernel, by decide +kernel, fun p member => ?_⟩
  rw [done] at member
  obtain ⟨shelf, shelved⟩ := states p member
  rw [shelved.files 3, shelved.beyond 3 (by decide)]
  rfl

end Chute
