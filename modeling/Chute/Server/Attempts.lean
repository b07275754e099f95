import Chute.Lib.Window
import Chute.Server.Coherence

/-!
# The reconnect limiter

`_account_reconnects` is pruned, swept and capped along the way. As long as the cap takes
nothing from an account, the limiter still decides as if it kept every attempt.
-/
namespace Chute
namespace Server

/-- One call of `_account_reconnect_budget_ok`, and the time it reads. -/
structure Attempt where
  accountId : String
  budget : Budget
  time : ℚ
  deriving DecidableEq

def attempt (s : Server) (x : Attempt) : Bool × Server :=
  { s with monotonic := x.time }.accountReconnectBudgetOk x.accountId x.budget

def attempts (s : Server) (xs : List Attempt) : Server :=
  xs.foldl (fun s x => (s.attempt x).2) s

/-- The calls for an account that are accepted, in order. -/
def acceptedFor (accountId : String) : Server → List Attempt → List Attempt
  | _, [] => []
  | s, x :: xs =>
    (if x.accountId = accountId ∧ (s.attempt x).1 = true then [x] else []) ++
      acceptedFor accountId (s.attempt x).2 xs

/-- The attempts noted for an account. -/
def noted (s : Server) (accountId : String) : List ℚ :=
  (s.accountReconnects.lookup accountId).getD []

/-- The call takes out the account's entry while an attempt of the last minute is in it, or
its own attempt. A sweep leaves such an entry; only the cap on the accounts takes it. -/
def Evicts (s : Server) (accountId : String) (x : Attempt) : Prop :=
  (s.attempt x).2.accountReconnects.lookup accountId = none ∧
    (Window.recent reconnectWindow x.time (s.noted accountId) ≠ [] ∨
      x.accountId = accountId ∧ (s.attempt x).1 = true)

/-- No call of the sequence takes out the account's entry. -/
def Unevicted (accountId : String) : Server → List Attempt → Prop
  | _, [] => True
  | s, x :: xs => ¬ s.Evicts accountId x ∧ Unevicted accountId (s.attempt x).2 xs

/-! ### The dictionary -/

section Dictionary

variable {reconnects : List (String × List ℚ)} {accountId other : String} {times : List ℚ}

private theorem keys_put_of_mem (present : reconnects.any (·.1 == accountId) = true) :
    (putReconnects reconnects accountId times).map Prod.fst = reconnects.map Prod.fst := by
  unfold putReconnects
  rw [if_pos present, List.map_map]
  apply List.map_congr_left
  intro e _
  by_cases same : e.1 = accountId
  · rw [Function.comp_apply, if_pos same, same]
  · rw [Function.comp_apply, if_neg same]

theorem keys_putReconnects (keys : (reconnects.map Prod.fst).Nodup) :
    ((putReconnects reconnects accountId times).map Prod.fst).Nodup := by
  by_cases present : reconnects.any (·.1 == accountId) = true
  · rw [keys_put_of_mem present]
    exact keys
  · unfold putReconnects
    rw [if_neg present, List.map_append]
    have absent : accountId ∉ reconnects.map Prod.fst := by
      intro member
      obtain ⟨e, inside, same⟩ := List.mem_map.mp member
      exact present (List.any_eq_true.mpr ⟨e, inside, by simp [same]⟩)
    exact keys.append (List.nodup_singleton _) (by simpa using absent)

theorem mem_putReconnects {e : String × List ℚ}
    (member : e ∈ putReconnects reconnects accountId times) :
    e = (accountId, times) ∨ e.1 ≠ accountId ∧ e ∈ reconnects := by
  unfold putReconnects at member
  split at member
  · obtain ⟨old, inside, rfl⟩ := List.mem_map.mp member
    by_cases same : old.1 = accountId
    · exact .inl (if_pos same)
    · rw [if_neg same]
      exact .inr ⟨same, inside⟩
  next absent =>
    rcases List.mem_append.mp member with inside | inside
    · refine .inr ⟨fun same => ?_, inside⟩
      exact absent (List.any_eq_true.mpr ⟨e, inside, by simp [same]⟩)
    · exact .inl (List.mem_singleton.mp inside)

theorem putReconnects_self : (accountId, times) ∈ putReconnects reconnects accountId times := by
  unfold putReconnects
  split
  next present =>
    obtain ⟨old, inside, same⟩ := List.any_eq_true.mp present
    exact List.mem_map.mpr ⟨old, inside, if_pos (by simpa using same)⟩
  · exact List.mem_append_right _ (List.mem_singleton_self _)

theorem putReconnects_other {e : String × List ℚ} (member : e ∈ reconnects)
    (apart : e.1 ≠ accountId) : e ∈ putReconnects reconnects accountId times := by
  unfold putReconnects
  split
  · exact List.mem_map.mpr ⟨e, member, if_neg apart⟩
  · exact List.mem_append_left _ member

theorem length_putReconnects_le :
    (putReconnects reconnects accountId times).length ≤ reconnects.length + 1 := by
  unfold putReconnects
  split
  · rw [List.length_map]
    omega
  · rw [List.length_append, List.length_singleton]

theorem length_putReconnects (present : (reconnects.lookup accountId).isSome = true) :
    (putReconnects reconnects accountId times).length = reconnects.length := by
  obtain ⟨old, found⟩ := Option.isSome_iff_exists.mp present
  have present : reconnects.any (·.1 == accountId) = true :=
    List.any_eq_true.mpr ⟨_, Window.mem_of_lookup found, beq_self_eq_true accountId⟩
  have keys := congrArg List.length (@keys_put_of_mem reconnects accountId times present)
  rwa [List.length_map, List.length_map] at keys

end Dictionary

/-! ### One call -/

variable {s : Server} {accountId : String} {x : Attempt} {limit : Nat}

/-- A call for an account without a limit touches nothing. -/
theorem attempt_unlimited (unlimited : x.budget.maxReconnectsPerMin = none) :
    (s.attempt x).1 = true ∧ (s.attempt x).2.accountReconnects = s.accountReconnects := by
  unfold attempt accountReconnectBudgetOk
  rw [unlimited]
  exact ⟨rfl, rfl⟩

theorem attempt_accepted (limited : x.budget.maxReconnectsPerMin = some limit) :
    (s.attempt x).1 = true ↔
      (Window.recent reconnectWindow x.time (s.noted x.accountId)).length < limit := by
  unfold attempt accountReconnectBudgetOk
  rw [limited]
  simp only
  split
  next full => exact ⟨nofun, fun room => absurd room (Nat.not_lt.mpr full)⟩
  next room => exact ⟨fun _ => Nat.lt_of_not_le room, fun _ => rfl⟩

/-- What a row of an account holds after a call for it. -/
def notedAfter (s : Server) (x : Attempt) : List ℚ :=
  Window.recent reconnectWindow x.time (s.noted x.accountId) ++
    if (s.attempt x).1 = true then [x.time] else []

/-- One row for each account; the row of one account is the given one, and the others are from
an earlier dictionary. -/
structure Rows (before : List (String × List ℚ)) (accountId : String) (times : List ℚ)
    (after : List (String × List ℚ)) : Prop where
  keys : (after.map Prod.fst).Nodup
  row : ∀ e ∈ after, e = (accountId, times) ∨ e.1 ≠ accountId ∧ e ∈ before

variable {before after rest : List (String × List ℚ)} {times : List ℚ}

theorem Rows.sublist (rows : Rows before accountId times after) (kept : rest.Sublist after) :
    Rows before accountId times rest where
  keys := rows.keys.sublist (kept.map Prod.fst)
  row e member := rows.row e (kept.subset member)

theorem rows_put (keys : (before.map Prod.fst).Nodup) :
    Rows before accountId times (putReconnects before accountId times) where
  keys := keys_putReconnects keys
  row _ member := mem_putReconnects member

theorem rows_pruned (keys : (before.map Prod.fst).Nodup) :
    Rows before accountId times (before.filter (·.1 != accountId)) where
  keys := keys.sublist ((List.filter_sublist).map Prod.fst)
  row e member := by
    have kept := List.mem_filter.mp member
    exact .inr ⟨by simpa using kept.2, kept.1⟩

/-- A row that was taken out comes back at the end. -/
theorem rows_returned (keys : (before.map Prod.fst).Nodup) :
    Rows before accountId times (before.filter (·.1 != accountId) ++ [(accountId, times)]) := by
  have pruned : Rows before accountId times (before.filter (·.1 != accountId)) := rows_pruned keys
  constructor
  · rw [List.map_append]
    refine pruned.keys.append (List.nodup_singleton _) fun k inside same => ?_
    obtain ⟨e, member, rfl⟩ := List.mem_map.mp inside
    have kept := (List.mem_filter.mp member).2
    simp only [List.map_cons, List.map_nil, List.mem_singleton] at same
    simp [same] at kept
  · intro e member
    rcases List.mem_append.mp member with inside | inside
    · exact pruned.row e inside
    · exact .inl (List.mem_singleton.mp inside)

theorem Rows.swept (rows : Rows before accountId times after) (now : ℚ) :
    Rows before accountId times (if after.length > reconnectSweepAt then
      after.filter fun e => !e.2.all fun t => reconnectWindow ≤ now - t else after) := by
  split
  · exact rows.sublist List.filter_sublist
  · exact rows

/-- What a call with a limit leaves in the dictionary. -/
theorem attempt_rows (keys : (s.accountReconnects.map Prod.fst).Nodup)
    (limited : x.budget.maxReconnectsPerMin = some limit) :
    Rows s.accountReconnects x.accountId (s.notedAfter x) (s.attempt x).2.accountReconnects := by
  unfold notedAfter attempt accountReconnectBudgetOk
  rw [limited]
  simp only
  split
  · simp only [Bool.false_eq_true, if_false, List.append_nil]
    split
    · exact rows_pruned keys
    · exact rows_put keys
  · simp only [if_true]
    refine (Rows.swept ?_ x.time).sublist (List.drop_sublist _ _)
    split
    next empty =>
      have empty : Window.recent reconnectWindow x.time (s.noted x.accountId) = [] := empty
      rw [empty]
      exact rows_returned keys
    · exact rows_put keys

/-- The cap on the accounts holds after the call. -/
theorem attempt_length (bounded : s.accountReconnects.length ≤ reconnectMaxAccounts) :
    (s.attempt x).2.accountReconnects.length ≤ reconnectMaxAccounts := by
  unfold attempt accountReconnectBudgetOk
  cases x.budget.maxReconnectsPerMin with
  | none => exact bounded
  | some limit =>
    simp only
    split
    · split
      · exact (List.length_filter_le _ _).trans bounded
      next held =>
        rw [length_putReconnects]
        · exact bounded
        · -- an entry that is not empty was found
          cases found : s.accountReconnects.lookup x.accountId with
          | none => simp [found] at held
          | some times => rfl
    · rw [List.length_drop]
      omega

/-! ### A sequence of calls -/

/-- The limiter still knows of an account what a later window can ask for. -/
structure Recalls (s : Server) (accountId : String) (accepted : List ℚ) (now : ℚ) : Prop where
  keys : (s.accountReconnects.map Prod.fst).Nodup
  recent : ∀ later, now ≤ later → Window.recent reconnectWindow later (s.noted accountId) =
    Window.recent reconnectWindow later accepted

variable {accepted : List ℚ} {now : ℚ}

/-- The entry of an account that the call is not for stays, or is gone with old attempts only. -/
private theorem noted_other (rows : Rows s.accountReconnects x.accountId (s.notedAfter x)
      (s.attempt x).2.accountReconnects)
    (keys : (s.accountReconnects.map Prod.fst).Nodup) (other : x.accountId ≠ accountId)
    (kept : ¬ s.Evicts accountId x) :
    (s.attempt x).2.noted accountId = s.noted accountId ∨
      (s.attempt x).2.noted accountId = [] ∧
        Window.recent reconnectWindow x.time (s.noted accountId) = [] := by
  cases found : (s.attempt x).2.accountReconnects.lookup accountId with
  | some times =>
    left
    rcases rows.row _ (Window.mem_of_lookup found) with own | ⟨-, before⟩
    · exact absurd (congrArg Prod.fst own).symm other
    · unfold noted
      rw [found, (Window.lookup_eq_some_iff_mem keys).mpr before]
  | none =>
    right
    refine ⟨by unfold noted; rw [found]; rfl, ?_⟩
    by_contra fresh
    exact kept ⟨found, .inl fresh⟩

/-- The entry of the account that the call is for. -/
private theorem noted_own (rows : Rows s.accountReconnects x.accountId (s.notedAfter x)
      (s.attempt x).2.accountReconnects) (kept : ¬ s.Evicts x.accountId x) :
    (s.attempt x).2.noted x.accountId = s.notedAfter x := by
  cases found : (s.attempt x).2.accountReconnects.lookup x.accountId with
  | some times =>
    rcases rows.row _ (Window.mem_of_lookup found) with own | ⟨other, -⟩
    · unfold noted
      rw [found]
      exact congrArg Prod.snd own
    · exact absurd rfl other
  | none =>
    have empty : Window.recent reconnectWindow x.time (s.noted x.accountId) = [] := by
      by_contra fresh
      exact kept ⟨found, .inl fresh⟩
    have rejected : ¬ (s.attempt x).1 = true := fun accepted => kept ⟨found, .inr ⟨rfl, accepted⟩⟩
    unfold notedAfter
    rw [empty, if_neg rejected]
    unfold noted
    rw [found]
    rfl

/-- One call keeps it, if it does not take the entry out. -/
theorem Recalls.attempt (recalls : s.Recalls accountId accepted now)
    (ordered : now ≤ x.time)
    (limited : x.accountId = accountId → x.budget.maxReconnectsPerMin = some limit)
    (kept : ¬ s.Evicts accountId x) :
    (s.attempt x).2.Recalls accountId
      (accepted ++ if x.accountId = accountId ∧ (s.attempt x).1 = true then [x.time] else [])
      x.time := by
  cases asked : x.budget.maxReconnectsPerMin with
  | none =>
    have other : ¬ x.accountId = accountId := by
      intro own
      rw [limited own] at asked
      cases asked
    obtain ⟨-, same⟩ := attempt_unlimited (s := s) asked
    rw [if_neg fun own => other own.1, List.append_nil]
    refine ⟨same ▸ recalls.keys, fun later after => ?_⟩
    unfold noted
    rw [same]
    exact recalls.recent later (ordered.trans after)
  | some limit =>
    have rows := attempt_rows recalls.keys asked
    refine ⟨rows.keys, fun later after => ?_⟩
    have before := recalls.recent later (ordered.trans after)
    by_cases own : x.accountId = accountId
    · subst own
      rw [noted_own rows kept, notedAfter, Window.recent_append, Window.recent_append,
        Window.recent_recent after, before]
      simp only [true_and]
    · rw [if_neg fun both => own both.1, List.append_nil]
      rcases noted_other rows recalls.keys own kept with same | ⟨gone, old⟩
      · rw [same]
        exact before
      · have left : Window.recent reconnectWindow later (s.noted accountId) = [] := by
          rw [← Window.recent_recent after, old]
          rfl
        rw [gone, ← before, left]
        rfl

theorem Recalls.later (recalls : s.Recalls accountId accepted now) {later : ℚ}
    (ordered : now ≤ later) : s.Recalls accountId accepted later where
  keys := recalls.keys
  recent _ after := recalls.recent _ (ordered.trans after)

/-- A call that is next is decided by the accepted ones. -/
theorem Recalls.accepts (recalls : s.Recalls x.accountId accepted now)
    (ordered : now ≤ x.time) (limited : x.budget.maxReconnectsPerMin = some limit) :
    (s.attempt x).1 = true ↔
      (Window.recent reconnectWindow x.time accepted).length < limit := by
  rw [attempt_accepted limited, recalls.recent x.time ordered]

theorem Recalls.attempts {xs : List Attempt} (recalls : s.Recalls accountId accepted now)
    (ordered : xs.Pairwise fun y z => y.time ≤ z.time) {later : ℚ} (started : now ≤ later)
    (from_now : ∀ x ∈ xs, now ≤ x.time) (ended : ∀ x ∈ xs, x.time ≤ later)
    (limited : ∀ x ∈ xs, x.accountId = accountId → x.budget.maxReconnectsPerMin = some limit)
    (kept : Unevicted accountId s xs) :
    (s.attempts xs).Recalls accountId
      (accepted ++ (acceptedFor accountId s xs).map Attempt.time) later := by
  induction xs generalizing s accepted now with
  | nil =>
    rw [acceptedFor, List.map_nil, List.append_nil]
    exact recalls.later started
  | cons x xs ih =>
    obtain ⟨first, rest⟩ := List.pairwise_cons.mp ordered
    obtain ⟨here, kept⟩ := kept
    have next := recalls.attempt (from_now x List.mem_cons_self)
      (limited x List.mem_cons_self) here
    have run := ih next rest (ended x List.mem_cons_self) first
      (fun y member => ended y (List.mem_cons_of_mem x member))
      (fun y member => limited y (List.mem_cons_of_mem x member)) kept
    rw [List.append_assoc] at run
    rw [acceptedFor, List.map_append, apply_ite (List.map Attempt.time)]
    exact run

theorem recalls_start (config : ServerConfig) (now monotonic later : ℚ) :
    (start config now monotonic).Recalls accountId [] later where
  keys := List.nodup_nil
  recent _ _ := rfl

/-! ### When the cap cannot bite -/

private theorem mem_swept {e : String × List ℚ} {now : ℚ} (member : e ∈ after)
    (fresh : Window.recent reconnectWindow now e.2 ≠ []) :
    e ∈ if after.length > reconnectSweepAt then
      after.filter fun e => !e.2.all fun t => reconnectWindow ≤ now - t else after := by
  split
  · refine List.mem_filter.mpr ⟨member, ?_⟩
    obtain ⟨t, inside⟩ := List.exists_mem_of_ne_nil _ fresh
    obtain ⟨listed, young⟩ := List.mem_filter.mp inside
    rw [Bool.not_eq_true', List.all_eq_false]
    exact ⟨t, listed, by simpa using young⟩
  · exact member

private theorem mem_capped {e : String × List ℚ} (member : e ∈ after)
    (bounded : after.length ≤ reconnectMaxAccounts) :
    e ∈ after.drop (after.length - reconnectMaxAccounts) := by
  rw [Nat.sub_eq_zero_of_le bounded, List.drop_zero]
  exact member

/-- With room for one more account a call leaves every entry that is not stale. -/
theorem attempt_keeps (limited : x.budget.maxReconnectsPerMin = some limit)
    (room : s.accountReconnects.length < reconnectMaxAccounts) :
    (s.notedAfter x ≠ [] → (x.accountId, s.notedAfter x) ∈ (s.attempt x).2.accountReconnects) ∧
      ∀ e ∈ s.accountReconnects, e.1 ≠ x.accountId →
        Window.recent reconnectWindow x.time e.2 ≠ [] →
          e ∈ (s.attempt x).2.accountReconnects := by
  have pruned : ∀ e ∈ s.accountReconnects, e.1 ≠ x.accountId →
      e ∈ s.accountReconnects.filter (·.1 != x.accountId) :=
    fun e member other => List.mem_filter.mpr ⟨member, by simpa using other⟩
  unfold notedAfter Server.attempt accountReconnectBudgetOk
  rw [limited]
  simp only
  split
  · simp only [Bool.false_eq_true, if_false, List.append_nil]
    split
    next empty => exact ⟨fun held => absurd empty held, fun e member other _ => pruned e member other⟩
    · exact ⟨fun _ => putReconnects_self, fun e member other _ => putReconnects_other member other⟩
  · simp only [if_true]
    -- the attempt itself is less than a window old
    have young : Window.recent reconnectWindow x.time
        (Window.recent reconnectWindow x.time (s.noted x.accountId) ++ [x.time]) ≠ [] := by
      rw [Window.recent_append]
      apply List.append_ne_nil_of_right_ne_nil
      simp [Window.recent, reconnectWindow]
    have capped : ∀ after : List (String × List ℚ), after.length ≤ reconnectMaxAccounts →
        ∀ e ∈ after, Window.recent reconnectWindow x.time e.2 ≠ [] →
        e ∈ (if after.length > reconnectSweepAt then
          after.filter fun e => !e.2.all fun t => reconnectWindow ≤ x.time - t else after).drop
          ((if after.length > reconnectSweepAt then
            after.filter fun e => !e.2.all fun t => reconnectWindow ≤ x.time - t
            else after).length - reconnectMaxAccounts) := by
      intro after bounded e member fresh
      refine mem_capped (mem_swept member fresh) ?_
      split
      · exact (List.length_filter_le _ _).trans bounded
      · exact bounded
    split
    next empty =>
      have empty : Window.recent reconnectWindow x.time (s.noted x.accountId) = [] := empty
      have bounded : (s.accountReconnects.filter (·.1 != x.accountId) ++
          [(x.accountId, [x.time])]).length ≤ reconnectMaxAccounts := by
        have shrunk := List.length_filter_le (·.1 != x.accountId) s.accountReconnects
        rw [List.length_append, List.length_singleton]
        omega
      rw [empty, List.nil_append] at young ⊢
      exact ⟨fun _ => capped _ bounded _ (List.mem_append_right _ (List.mem_singleton_self _)) young,
        fun e member other fresh =>
          capped _ bounded e (List.mem_append_left _ (pruned e member other)) fresh⟩
    · have bounded := Nat.le_trans (@length_putReconnects_le s.accountReconnects x.accountId
        (Window.recent reconnectWindow x.time (s.noted x.accountId) ++ [x.time])) room
      exact ⟨fun _ => capped _ bounded _ putReconnects_self young,
        fun e member other fresh =>
          capped _ bounded e (putReconnects_other member other) fresh⟩

private theorem lookup_ne_none {e : String × List ℚ} (member : e ∈ after) :
    after.lookup e.1 ≠ none := by
  intro missing
  have differs := List.lookup_eq_none_iff.mp missing e member
  simp at differs

/-- So nothing is taken out. -/
theorem not_evicts_of_room (limited : x.budget.maxReconnectsPerMin = some limit)
    (room : s.accountReconnects.length < reconnectMaxAccounts) : ¬ s.Evicts accountId x := by
  rintro ⟨gone, held⟩
  obtain ⟨own, others⟩ := attempt_keeps limited room
  by_cases same : x.accountId = accountId
  · subst same
    refine lookup_ne_none (own ?_) gone
    unfold notedAfter
    rcases held with fresh | ⟨-, accepted⟩
    · exact List.append_ne_nil_of_left_ne_nil fresh _
    · rw [if_pos accepted]
      exact List.append_ne_nil_of_right_ne_nil _ (List.cons_ne_nil _ _)
  · have fresh := held.resolve_right fun own => same own.1
    cases found : s.accountReconnects.lookup accountId with
    | none =>
      unfold noted at fresh
      rw [found] at fresh
      exact fresh rfl
    | some times =>
      have entry : s.noted accountId = times := by
        unfold noted
        rw [found]
        rfl
      rw [entry] at fresh
      exact lookup_ne_none (others _ (Window.mem_of_lookup found) (Ne.symm same) fresh) gone

/-- A dictionary of one account has one row at most. -/
private theorem length_alone (keys : (after.map Prod.fst).Nodup)
    (alone : ∀ e ∈ after, e.1 = accountId) : after.length ≤ 1 := by
  have same : after.map Prod.fst = List.replicate after.length accountId := by
    rw [List.eq_replicate_iff, List.length_map]
    refine ⟨rfl, fun k member => ?_⟩
    obtain ⟨e, inside, rfl⟩ := List.mem_map.mp member
    exact alone e inside
  rw [same] at keys
  exact List.nodup_replicate.mp keys

/-- Only the accepted calls of the account need to be made to have the same remembered. -/
private theorem recalls_alone {xs : List Attempt} {alone : Server} {later : ℚ}
    (recalls : s.Recalls accountId accepted now)
    (remembered : alone.Recalls accountId accepted now)
    (only : ∀ e ∈ alone.accountReconnects, e.1 = accountId)
    (ordered : xs.Pairwise fun y z => y.time ≤ z.time) (started : now ≤ later)
    (from_now : ∀ x ∈ xs, now ≤ x.time) (ended : ∀ x ∈ xs, x.time ≤ later)
    (limited : ∀ x ∈ xs, x.accountId = accountId → x.budget.maxReconnectsPerMin = some limit)
    (kept : Unevicted accountId s xs) :
    (alone.attempts (acceptedFor accountId s xs)).Recalls accountId
      (accepted ++ (acceptedFor accountId s xs).map Attempt.time) later := by
  induction xs generalizing s alone accepted now with
  | nil =>
    rw [acceptedFor, List.map_nil, List.append_nil]
    exact remembered.later started
  | cons x xs ih =>
    obtain ⟨first, rest⟩ := List.pairwise_cons.mp ordered
    obtain ⟨here, kept⟩ := kept
    have begun := from_now x List.mem_cons_self
    have next := recalls.attempt begun (limited x List.mem_cons_self) here
    have ended' := fun y member => ended y (List.mem_cons_of_mem x member)
    have limited' := fun y member => limited y (List.mem_cons_of_mem x member)
    have closed := ended x List.mem_cons_self
    by_cases both : x.accountId = accountId ∧ (s.attempt x).1 = true
    · obtain ⟨rfl, passed⟩ := both
      have asked := limited x List.mem_cons_self rfl
      -- the accepted call is accepted here, too
      have also := (remembered.accepts begun asked).mpr ((recalls.accepts begun asked).mp passed)
      have room : alone.accountReconnects.length < reconnectMaxAccounts := by
        have few := length_alone remembered.keys only
        unfold reconnectMaxAccounts
        omega
      have step := remembered.attempt begun (fun _ => asked) (not_evicts_of_room asked room)
      rw [if_pos ⟨rfl, passed⟩] at next
      rw [if_pos ⟨rfl, also⟩] at step
      have rows := attempt_rows remembered.keys asked
      have run := ih next step (fun e member => (rows.row e member).elim (congrArg Prod.fst)
        fun other => only e other.2) rest closed first ended' limited' kept
      rw [List.append_assoc] at run
      rw [acceptedFor, if_pos ⟨rfl, passed⟩]
      exact run
    · rw [if_neg both, List.append_nil] at next
      have run := ih next (remembered.later begun) only rest closed first ended' limited' kept
      rw [acceptedFor, if_neg both]
      exact run

/-- The dictionary after any sequence of calls: one row for each account, and no more rows
than the cap. -/
theorem attempts_bounded {xs : List Attempt} (keys : (s.accountReconnects.map Prod.fst).Nodup)
    (bounded : s.accountReconnects.length ≤ reconnectMaxAccounts) :
    ((s.attempts xs).accountReconnects.map Prod.fst).Nodup ∧
      (s.attempts xs).accountReconnects.length ≤ reconnectMaxAccounts := by
  induction xs generalizing s with
  | nil => exact ⟨keys, bounded⟩
  | cons x xs ih =>
    refine ih ?_ (attempt_length bounded)
    cases limited : x.budget.maxReconnectsPerMin with
    | none =>
      rw [(attempt_unlimited limited).2]
      exact keys
    | some limit => exact (attempt_rows keys limited).keys

/-- The limiter is a sliding window. After any calls in order of time, of which none took out
the entry of the account, one more call is accepted just if fewer than its limit were accepted
for the account in the minute before. It is decided as if only these had been made, and the
dictionary never has more accounts than the cap allows. -/
theorem reconnect_window {config : ServerConfig} {now monotonic : ℚ} {xs : List Attempt}
    (ordered : (xs ++ [x]).Pairwise fun y z => y.time ≤ z.time)
    (limited : ∀ y ∈ xs ++ [x], y.accountId = x.accountId →
      y.budget.maxReconnectsPerMin = some limit)
    (kept : Unevicted x.accountId (start config now monotonic) xs) :
    ((((start config now monotonic).attempts xs).attempt x).1 = true ↔
      ((acceptedFor x.accountId (start config now monotonic) xs).filter
        fun y => x.time - y.time < 60).length < limit) ∧
    (((start config now monotonic).attempts xs).attempt x).1 =
      (((start config now monotonic).attempts
        (acceptedFor x.accountId (start config now monotonic) xs)).attempt x).1 ∧
    ∀ ys, (((start config now monotonic).attempts ys).accountReconnects.map Prod.fst).Nodup ∧
      ((start config now monotonic).attempts ys).accountReconnects.length ≤ reconnectMaxAccounts := by
  obtain ⟨ordered, -, ended⟩ := List.pairwise_append.mp ordered
  have ended : ∀ y ∈ xs, y.time ≤ x.time := fun y member =>
    ended y member x (List.mem_singleton_self x)
  have asked := limited x (List.mem_append_right _ (List.mem_singleton_self x)) rfl
  have limited := fun y (member : y ∈ xs) => limited y (List.mem_append_left _ member)
  -- no call is earlier than the first
  obtain ⟨first, from_first, begun⟩ : ∃ first, (∀ y ∈ xs, first ≤ y.time) ∧ first ≤ x.time := by
    cases xs with
    | nil => exact ⟨x.time, fun _ member => absurd member List.not_mem_nil, le_refl _⟩
    | cons y ys =>
      refine ⟨y.time, fun z member => ?_, ended y List.mem_cons_self⟩
      rcases List.mem_cons.mp member with rfl | later
      · exact le_refl _
      · exact (List.pairwise_cons.mp ordered).1 z later
  have fresh := @recalls_start x.accountId config now monotonic first
  have all := fresh.attempts ordered begun from_first ended limited kept
  have alone := recalls_alone fresh fresh (fun e member => absurd member List.not_mem_nil)
    ordered begun from_first ended limited kept
  have decided := all.accepts (le_refl _) asked
  refine ⟨?_, ?_, fun ys => attempts_bounded List.nodup_nil (Nat.zero_le _)⟩
  · rw [decided, List.nil_append]
    unfold Window.recent
    rw [List.filter_map, List.length_map]
    rfl
  · exact Bool.eq_iff_iff.mpr (decided.trans (alone.accepts (le_refl _) asked).symm)

/-- An account with two attempts a minute makes three within ten seconds, beside another
account. -/
def eagerCalls : List Attempt :=
  [⟨"a", ⟨none, none, some 2, none⟩, 0⟩, ⟨"b", ⟨none, none, some 1, none⟩, 5⟩,
    ⟨"a", ⟨none, none, some 2, none⟩, 8⟩, ⟨"a", ⟨none, none, some 2, none⟩, 10⟩]

/-- A minute after its first attempt there is room again. -/
theorem reconnect_window_eager :
    (((start smallRelay 0 0).attempts eagerCalls).attempt
      ⟨"a", ⟨none, none, some 2, none⟩, 60⟩).1 = true := by
  have window := @reconnect_window ⟨"a", ⟨none, none, some 2, none⟩, 60⟩ 2 smallRelay 0 0 eagerCalls
    (by decide +kernel) (by decide +kernel)
    ⟨not_evicts_of_room rfl (by decide +kernel), not_evicts_of_room rfl (by decide +kernel),
      not_evicts_of_room rfl (by decide +kernel), not_evicts_of_room rfl (by decide +kernel), trivial⟩
  exact window.1.mpr (by decide +kernel)

end Server
end Chute
