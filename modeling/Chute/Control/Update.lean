import Chute.Control.Credentials

/-!
# Updates of a policy file at the relay

A policy update is checked twice: by the parser of the policy file, and by the relay before it
applies the update. The two checks were written apart; what passes the first passes the second.
-/
namespace Chute

namespace Control

/-! ### Lists of a parser -/

theorem mapM_parsed {α β : Type} {f : α → Parsed β} {xs : List α} {ys : List β}
    (parsed : xs.mapM f = .ok ys) : ys.length = xs.length ∧ ∀ y ∈ ys, ∃ x, f x = .ok y := by
  induction xs generalizing ys with
  | nil =>
    cases parsed
    exact ⟨rfl, nofun⟩
  | cons x xs ih =>
    rw [List.mapM_cons] at parsed
    obtain ⟨y, first, parsed⟩ := parsed_bind.mp parsed
    obtain ⟨rest, later, built⟩ := parsed_bind.mp parsed
    cases built
    obtain ⟨long, each⟩ := ih later
    refine ⟨congrArg Nat.succ long, fun z here => ?_⟩
    rcases List.mem_cons.mp here with rfl | here
    · exact ⟨x, first⟩
    · exact each z here

theorem parseArray_ok {α : Type} {name : String} {limit : Nat} {parse : String → Json String → Parsed α}
    {raw : Json String} {items : List α} (parsed : parseArray name limit parse raw = .ok items) :
    items.length ≤ limit ∧ ∀ item ∈ items, ∃ name raw, parse name raw = .ok item := by
  unfold parseArray at parsed
  split at parsed
  next raw =>
    split at parsed
    · cases parsed
    next short =>
      obtain ⟨long, each⟩ := mapM_parsed parsed
      rw [List.length_zipIdx] at long
      refine ⟨by omega, fun item here => ?_⟩
      obtain ⟨⟨json, index⟩, built⟩ := each item here
      exact ⟨_, json, built⟩
  · cases parsed

/-- One round of `_duplicates`. -/
private def duplicatesStep (state : List String × List String) (value : String) :
    List String × List String :=
  (value :: state.1,
    if value ∈ state.1 ∧ value ∉ state.2 then state.2 ++ [value] else state.2)

private theorem duplicates_fold {values seen found : List String}
    (none_ : (values.foldl duplicatesStep (seen, found)).2 = []) :
    found = [] ∧ values.Nodup ∧ ∀ value ∈ values, value ∉ seen := by
  induction values generalizing seen found with
  | nil => exact ⟨none_, List.nodup_nil, nofun⟩
  | cons value values ih =>
    obtain ⟨kept, rest, fresh⟩ := ih none_
    have new : found = [] ∧ value ∉ seen := by
      simp only at kept
      split at kept
      · exact absurd kept (List.append_ne_nil_of_right_ne_nil _ (List.cons_ne_nil _ _))
      next unseen =>
        subst kept
        exact ⟨rfl, fun here => unseen ⟨here, List.not_mem_nil⟩⟩
    refine ⟨new.1, List.nodup_cons.mpr ⟨fun here => fresh value here List.mem_cons_self, rest⟩, ?_⟩
    intro other here
    rcases List.mem_cons.mp here with rfl | here
    · exact new.2
    · exact fun there => fresh other here (List.mem_cons_of_mem _ there)

theorem rejectDuplicates_ok {values : List String} {complaint : String} {done : Unit}
    (parsed : rejectDuplicates values complaint = .ok done) : values.Nodup := by
  unfold rejectDuplicates at parsed
  split at parsed
  next none_ => exact (@duplicates_fold values [] [] none_).2.1
  · cases parsed

/-! ### The relay's sections -/

theorem validLeaseIds_str (seen : List String) {ids : List String} (named : ∀ id ∈ ids, id ≠ "") (unique : ids.Nodup)
    (fresh : ∀ id ∈ ids, id ∉ seen) : validLeaseIds seen (ids.map .str) = some ids := by
  induction ids generalizing seen with
  | nil => rfl
  | cons id ids ih =>
    rw [List.nodup_cons] at unique
    have rest : validLeaseIds (id :: seen) (ids.map .str) = some ids := by
      refine ih (id :: seen) (fun other here => named other (List.mem_cons_of_mem _ here)) unique.2 ?_
      intro other here again
      rcases List.mem_cons.mp again with rfl | again
      · exact unique.1 here
      · exact fresh other (List.mem_cons_of_mem _ here) again
    have first : nonemptyStr (.str id) = some id := if_neg (named id List.mem_cons_self)
    rw [List.map_cons, validLeaseIds, first, Option.bind_eq_bind, Option.bind_some,
      if_neg (fresh id List.mem_cons_self), rest]
    rfl

theorem revocationAction_actionObject (action : RevocationAction) :
    revocationAction (actionObject action) = some action := by
  cases action <;> rfl

theorem validLeaseRevocations_object (seen : List String)
    {revocations : List (String × RevocationAction)} (named : ∀ r ∈ revocations, r.1 ≠ "")
    (unique : (revocations.map Prod.fst).Nodup) (fresh : ∀ r ∈ revocations, r.1 ∉ seen) :
    validLeaseRevocations seen
      (revocations.map fun r => .leaseRevocation (.str r.1) (actionObject r.2)) = some revocations := by
  induction revocations generalizing seen with
  | nil => rfl
  | cons r revocations ih =>
    rw [List.map_cons, List.nodup_cons] at unique
    have rest := ih (r.1 :: seen) (fun other here => named other (List.mem_cons_of_mem _ here))
      unique.2 fun other here again => by
        rcases List.mem_cons.mp again with same | again
        · exact unique.1 (same ▸ List.mem_map_of_mem here)
        · exact fresh other (List.mem_cons_of_mem _ here) again
    have first : nonemptyStr (.str r.1) = some r.1 := if_neg (named r List.mem_cons_self)
    rw [List.map_cons, validLeaseRevocations, first, revocationAction_actionObject]
    simp only [Option.bind_eq_bind, Option.bind_some]
    rw [if_neg (fresh r List.mem_cons_self), rest]
    rfl

theorem validAccountBudgets_object (seen : List String) {budgets : List (String × Budget)}
    (named : ∀ b ∈ budgets, b.1 ≠ "") (unique : (budgets.map Prod.fst).Nodup)
    (fresh : ∀ b ∈ budgets, b.1 ∉ seen) :
    validAccountBudgets seen
      (budgets.map fun b => .accountBudgetUpdate (.str b.1) (budgetObject b.2)) = some budgets := by
  induction budgets generalizing seen with
  | nil => rfl
  | cons b budgets ih =>
    rw [List.map_cons, List.nodup_cons] at unique
    have rest := ih (b.1 :: seen) (fun other here => named other (List.mem_cons_of_mem _ here))
      unique.2 fun other here again => by
        rcases List.mem_cons.mp again with same | again
        · exact unique.1 (same ▸ List.mem_map_of_mem here)
        · exact fresh other (List.mem_cons_of_mem _ here) again
    have first : nonemptyStr (.str b.1) = some b.1 := if_neg (named b List.mem_cons_self)
    rw [List.map_cons, validAccountBudgets, first]
    simp only [Option.bind_eq_bind, Option.bind_some]
    rw [if_neg (fresh b List.mem_cons_self), validBudget_budgetObject, rest]
    rfl

/-! ### The update as a whole -/

/-- What both checks ask of an update: keys that are not empty, no key twice, bounded sections. -/
structure WellFormedUpdate (u : PolicyUpdate) : Prop where
  named : ∀ leaseId ∈ u.leaseIds, leaseId ≠ ""
  unique : u.leaseIds.Nodup
  fewIds : u.revokeLeaseIds.length ≤ maxPolicyUpdateRevokeLeaseIds
  fewRevocations : u.leaseRevocations.length ≤ maxPolicyUpdateLeaseRevocations
  accounts : ∀ b ∈ u.accountBudgets, b.1 ≠ ""
  oneEach : (u.accountBudgets.map Prod.fst).Nodup
  fewBudgets : u.accountBudgets.length ≤ maxPolicyUpdateAccountBudgets

theorem parseLeaseRevocation_ok {name : String} {item : Json String} {r : String × RevocationAction}
    (parsed : parseLeaseRevocation name item = .ok r) : r.1 ≠ "" := by
  unfold parseLeaseRevocation at parsed
  split at parsed
  · obtain ⟨-, -, parsed⟩ := parsed_bind.mp parsed
    obtain ⟨leaseId, named, parsed⟩ := parsed_bind.mp parsed
    obtain ⟨action, -, built⟩ := parsed_bind.mp parsed
    cases built
    exact requiredStr_ok named
  · cases parsed

theorem parseAccountBudgetUpdate_ok {name : String} {item : Json String} {b : String × Budget}
    (parsed : parseAccountBudgetUpdate name item = .ok b) : b.1 ≠ "" := by
  unfold parseAccountBudgetUpdate at parsed
  split at parsed
  · obtain ⟨-, -, parsed⟩ := parsed_bind.mp parsed
    obtain ⟨accountId, named, parsed⟩ := parsed_bind.mp parsed
    obtain ⟨budget, -, built⟩ := parsed_bind.mp parsed
    cases built
    exact requiredStr_ok named
  · cases parsed

theorem parsePolicyUpdate_wellFormed {data : List (String × Json String)} {u : PolicyUpdate}
    (parsed : parsePolicyUpdate data = .ok (some u)) : WellFormedUpdate u := by
  unfold parsePolicyUpdate at parsed
  split at parsed
  · obtain ⟨version, -, parsed⟩ := parsed_bind.mp parsed
    obtain ⟨ids, first, parsed⟩ := parsed_bind.mp parsed
    obtain ⟨revocations, second, parsed⟩ := parsed_bind.mp parsed
    obtain ⟨budgets, third, parsed⟩ := parsed_bind.mp parsed
    obtain ⟨_, across, parsed⟩ := parsed_bind.mp parsed
    obtain ⟨ids', array, first⟩ := parsed_bind.mp first
    obtain ⟨_, -, first⟩ := parsed_bind.mp first
    cases first
    obtain ⟨revocations', array', second⟩ := parsed_bind.mp second
    obtain ⟨_, -, second⟩ := parsed_bind.mp second
    cases second
    obtain ⟨budgets', array'', third⟩ := parsed_bind.mp third
    obtain ⟨_, oneEach, third⟩ := parsed_bind.mp third
    cases third
    split at parsed
    · cases parsed
    · cases parsed
      obtain ⟨fewIds, ids⟩ := parseArray_ok array
      obtain ⟨fewRevocations, revocations⟩ := parseArray_ok array'
      obtain ⟨fewBudgets, budgets⟩ := parseArray_ok array''
      refine ⟨?_, rejectDuplicates_ok across, fewIds, fewRevocations, ?_, rejectDuplicates_ok oneEach,
        fewBudgets⟩
      · intro leaseId here
        rcases List.mem_append.mp here with here | here
        · obtain ⟨name, raw, item⟩ := ids leaseId here
          exact requiredStr_ok item
        · obtain ⟨r, member, rfl⟩ := List.mem_map.mp here
          obtain ⟨name, raw, item⟩ := revocations r member
          exact parseLeaseRevocation_ok item
      · intro b here
        obtain ⟨name, raw, item⟩ := budgets b here
        exact parseAccountBudgetUpdate_ok item
  · cases parsed

theorem parseStaticPolicyText_update {text : PolicyText} {policy : StaticPolicy} {u : PolicyUpdate}
    (parsed : parseStaticPolicyText text = .ok policy) (has : policy.policyUpdate = some u) :
    WellFormedUpdate u := by
  obtain ⟨data, -, updates⟩ := parseStaticPolicyText_ok parsed
  rw [has] at updates
  exact parsePolicyUpdate_wellFormed updates

/-- The relay reads the update that the parser built. -/
theorem validPolicyUpdate_object {u : PolicyUpdate} (wellFormed : WellFormedUpdate u) {version : Int}
    (newer : version < u.version) : validPolicyUpdate version (policyUpdateObject u) = some u := by
  have unique := wellFormed.unique
  rw [PolicyUpdate.leaseIds, List.nodup_append] at unique
  have named := fun leaseId here => wellFormed.named leaseId (List.mem_append_left _ here)
  have named' : ∀ r ∈ u.leaseRevocations, r.1 ≠ "" := fun r here =>
    wellFormed.named r.1 (List.mem_append_right _ (List.mem_map_of_mem here))
  have ids := validLeaseIds_str [] named unique.1 fun _ _ => List.not_mem_nil
  have revocations := validLeaseRevocations_object u.revokeLeaseIds.reverse named' unique.2.1
    fun r here again => unique.2.2 r.1 (List.mem_reverse.mp again) r.1 (List.mem_map_of_mem here) rfl
  have budgets := validAccountBudgets_object [] wellFormed.accounts wellFormed.oneEach
    fun _ _ => List.not_mem_nil
  have few : ∀ {limit : Nat} {items : List PyObject}, items.length ≤ limit →
      boundedTuple limit (.tuple items) = some items := fun short => if_pos short
  simp only [policyUpdateObject, validPolicyUpdate, Option.bind_eq_bind]
  rw [if_neg (by omega), few (by rw [List.length_map]; exact wellFormed.fewIds), Option.bind_some, ids,
    Option.bind_some, few (by rw [List.length_map]; exact wellFormed.fewRevocations), Option.bind_some,
    revocations, Option.bind_some, few (by rw [List.length_map]; exact wellFormed.fewBudgets),
    Option.bind_some, budgets]
  rfl

/-- **Every update that a policy file can express is accepted by a relay with an older version.** -/
theorem update_accepted {text : PolicyText} {policy : StaticPolicy} {u : PolicyUpdate}
    (parsed : parseStaticPolicyText text = .ok policy) (has : policy.policyUpdate = some u)
    {s : Server} (older : s.policyVersion < u.version) :
    (s.applyPolicyUpdate (policyUpdateObject u)).1 = true := by
  rw [Server.applyPolicyUpdate,
    validPolicyUpdate_object (parseStaticPolicyText_update parsed has) older]

/-- A file with an update that closes one lease and sets one budget. -/
def updatingText : PolicyText :=
  .json (.object [("schema_version", .int 1), ("policy_version", .int 7),
    ("lease_revocations", .array [.object [("lease_id", .str "l"), ("action", .str "close")]]),
    ("account_budgets", .array [.object [("account_id", .str "a"),
      ("budget", .object [("max_visitors", .int 16)])]]),
    ("credentials", .array [.object [("credential_id", .str "cred-a"), ("account_id", .str "a"),
      ("token_sha256", .str "8ed3f6ad685b959ead7022518e1af76cd816f8e8ec7ccdda1ed4018e8f2223f8")]])])

theorem updatingText_accepted :
    ∃ u, u.version = 7 ∧ u.leaseRevocations = [("l", .close)] ∧
      ((Server.start Server.smallRelay 0 0).applyPolicyUpdate (policyUpdateObject u)).1 = true := by
  have parsed : (parseStaticPolicyText updatingText).toOption.bind StaticPolicy.policyUpdate =
      some ⟨7, [], [("a", ⟨some 16, none, none, none⟩)], [("l", .close)]⟩ := by
    decide
  obtain ⟨policy, text, has⟩ := Option.bind_eq_some_iff.mp parsed
  have text' : parseStaticPolicyText updatingText = .ok policy := by
    cases outcome : parseStaticPolicyText updatingText with
    | error e => rw [outcome] at text; cases text
    | ok other =>
      rw [outcome] at text
      cases text
      rfl
  exact ⟨_, rfl, rfl, update_accepted text' has (by decide)⟩

end Control

end Chute
