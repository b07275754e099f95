import Chute.Server.Overrides
import Chute.Server.Permanence

/-!
# Policy updates

An update is checked as a whole before any of it is applied. Applied, it ends the
registrations of the leases it names and sets the budgets of the accounts it names, and
nothing else.
-/
namespace Chute

open Roster (Move Stage)

/-! ### The check -/

/-- No account is named twice. -/
theorem validAccountBudgets_nodup {seen : List String} {items : List PyObject}
    {budgets : List (String × Budget)} (valid : validAccountBudgets seen items = some budgets) :
    (budgets.map Prod.fst).Nodup ∧ ∀ accountId ∈ budgets.map Prod.fst, accountId ∉ seen := by
  induction items generalizing seen budgets with
  | nil =>
    cases valid
    simp
  | cons item items ih =>
    unfold validAccountBudgets at valid
    split at valid
    next heq => cases heq
    next named budget items' heq =>
      cases heq
      simp only [Option.bind_eq_bind, Option.bind_eq_some_iff] at valid
      obtain ⟨accountId, -, valid⟩ := valid
      split at valid
      · cases valid
      next fresh =>
        simp only [Option.bind_eq_some_iff, Option.pure_def, Option.some.injEq] at valid
        obtain ⟨budget', -, rest, later, rfl⟩ := valid
        obtain ⟨nodup, apart⟩ := ih later
        refine ⟨?_, ?_⟩
        · exact List.nodup_cons.mpr ⟨fun again => apart accountId again List.mem_cons_self, nodup⟩
        · intro other member
          rcases List.mem_cons.mp member with rfl | inside
          · exact fresh
          · exact fun before => apart other inside (List.mem_cons_of_mem _ before)
    · cases valid

/-- What an update that passes looks like. -/
theorem validPolicyUpdate_some {policyVersion : Int} {update : PyObject} {u : PolicyUpdate}
    (valid : validPolicyUpdate policyVersion update = some u) :
    policyVersion < u.version ∧ (u.accountBudgets.map Prod.fst).Nodup ∧
      ∃ ids budgets revocations, update = .policyUpdate (.int u.version) ids budgets revocations := by
  unfold validPolicyUpdate at valid
  split at valid
  next version ids budgets revocations =>
    split at valid
    · cases valid
    next newer =>
      simp only [Option.bind_eq_bind, Option.bind_eq_some_iff, Option.pure_def, Option.some.injEq] at valid
      obtain ⟨_, -, _, -, _, -, _, -, items, -, accountBudgets, checked, rfl⟩ := valid
      exact ⟨not_le.mp newer, (validAccountBudgets_nodup checked).1, ids, budgets, revocations, rfl⟩
  · cases valid

/-- A version that is not newer never passes. -/
theorem validPolicyUpdate_older {policyVersion version : Int} (older : version ≤ policyVersion)
    (ids budgets revocations : PyObject) :
    validPolicyUpdate policyVersion (.policyUpdate (.int version) ids budgets revocations) = none := by
  simp [validPolicyUpdate, older]

namespace Server

variable {s s' : Server} {accountId : String} {budget : Budget} {i : Nat}

/-! ### Budgets -/

/-- The registration under a label gets a new budget. -/
def rebudget (budget : Budget) (s : Server) (label : String) : Server :=
  match s.agents.lookup label with
  | none => s
  | some i => s.modifyRegistration i fun reg => { reg with budget := budget }

theorem agents_rebudget (budget : Budget) (s : Server) (label : String) :
    (rebudget budget s label).agents = s.agents := by
  unfold rebudget
  split <;> rfl

theorem sameWork_rebudget (budget : Budget) (labels : List String) (s : Server) :
    SameWork s (labels.foldl (rebudget budget) s) ∧
      (labels.foldl (rebudget budget) s).policyVersion = s.policyVersion ∧
      (labels.foldl (rebudget budget) s).accountBudgetOverrides = s.accountBudgetOverrides := by
  induction labels generalizing s with
  | nil => exact ⟨.refl s, rfl, rfl⟩
  | cons label rest ih =>
    have first : SameWork s (rebudget budget s label) ∧
        (rebudget budget s label).policyVersion = s.policyVersion ∧
        (rebudget budget s label).accountBudgetOverrides = s.accountBudgetOverrides := by
      unfold rebudget
      split
      · exact ⟨.refl s, rfl, rfl⟩
      · refine ⟨⟨sameAccounts_modifyConnection fun c _ => ?_, rfl, rfl, rfl, rfl⟩, rfl, rfl⟩
        cases c.registration <;> rfl
    obtain ⟨later, version, overrides⟩ := ih (rebudget budget s label)
    exact ⟨first.1.trans later, version.trans first.2.1, overrides.trans first.2.2⟩

/-- A registration that is active under none of the labels keeps its budget. -/
theorem registration_rebudget (budget : Budget) {labels : List String}
    (apart : ∀ label ∈ labels, s.agents.lookup label ≠ some i) :
    (labels.foldl (rebudget budget) s).registration? i = s.registration? i := by
  induction labels generalizing s with
  | nil => rfl
  | cons label rest ih =>
    have first : (rebudget budget s label).registration? i = s.registration? i := by
      unfold rebudget
      split
      · rfl
      next j serves =>
        rw [registration?_modifyRegistration, if_neg]
        rintro rfl
        exact apart label List.mem_cons_self serves
    rw [List.foldl_cons, ih, first]
    intro other member
    rw [agents_rebudget]
    exact apart other (by simp [member])

/-- `_set_account_budget` overrides the budget of an account with local work and looks at no
other account. -/
theorem setAccountBudget_overrides (s : Server) (accountId : String) (budget : Budget) :
    SameWork s (s.setAccountBudget accountId budget) ∧
      (s.setAccountBudget accountId budget).policyVersion = s.policyVersion ∧
      (s.accountHasLocalWork accountId = true →
        (s.setAccountBudget accountId budget).accountBudgetOverrides.lookup accountId = some budget) ∧
      ∀ other, other ≠ accountId →
        (s.setAccountBudget accountId budget).accountBudgetOverrides.lookup other =
          s.accountBudgetOverrides.lookup other := by
  unfold setAccountBudget
  split
  next busy =>
    let t : Server := { s with
      accountBudgetOverrides := s.accountBudgetOverrides.insert accountId budget }
    obtain ⟨same, version, overrides⟩ := sameWork_rebudget budget (t.accountLabels.members accountId) t
    have set : SameWork s t := ⟨fun _ => rfl, rfl, rfl, rfl, rfl⟩
    refine ⟨set.trans same, version, fun _ => ?_, fun other apart => ?_⟩
    · exact (congrArg (AList.lookup accountId) overrides).trans (AList.lookup_insert _)
    · exact (congrArg (AList.lookup other) overrides).trans (AList.lookup_insert_ne apart)
  next idle =>
    refine ⟨⟨fun _ => rfl, rfl, rfl, rfl, rfl⟩, rfl, fun busy => absurd busy idle, fun other apart => ?_⟩
    exact AList.lookup_erase_ne apart

/-- The budgets of an update: each account it names with local work gets its budget. -/
theorem budgets_overrides {budgets : List (String × Budget)} (nodup : (budgets.map Prod.fst).Nodup)
    (s : Server) :
    SameWork s (budgets.foldl (fun s b => s.setAccountBudget b.1 b.2) s) ∧
      (∀ accountId budget, (accountId, budget) ∈ budgets → s.accountHasLocalWork accountId = true →
        (budgets.foldl (fun s b => s.setAccountBudget b.1 b.2) s).accountBudgetOverrides.lookup
          accountId = some budget) ∧
      ∀ accountId, accountId ∉ budgets.map Prod.fst →
        (budgets.foldl (fun s b => s.setAccountBudget b.1 b.2) s).accountBudgetOverrides.lookup
          accountId = s.accountBudgetOverrides.lookup accountId := by
  induction budgets generalizing s with
  | nil => exact ⟨.refl s, by simp, fun _ _ => rfl⟩
  | cons b rest ih =>
    obtain ⟨fresh, nodup'⟩ := List.nodup_cons.mp nodup
    obtain ⟨same, -, set, others⟩ := setAccountBudget_overrides s b.1 b.2
    obtain ⟨same', set', others'⟩ := ih nodup' (s.setAccountBudget b.1 b.2)
    refine ⟨same.trans same', fun accountId budget member busy => ?_, fun accountId absent => ?_⟩
    · rcases List.mem_cons.mp member with rfl | inside
      · exact (others' accountId fresh).trans (set busy)
      · exact set' accountId budget inside ((same.eq accountId).trans busy)
    · simp only [List.map_cons, List.mem_cons, not_or] at absent
      exact (others' accountId absent.2).trans (others accountId absent.1)

/-- The registrations of another account stay as they are. -/
theorem Coherent.registration_setAccountBudget (coherent : s.Coherent) {reg : TunnelRegistration}
    (found : s.registration? i = some reg) (other : reg.accountId ≠ accountId) (budget : Budget) :
    (s.setAccountBudget accountId budget).registration? i = some reg := by
  unfold setAccountBudget
  split
  · refine (registration_rebudget budget fun label member serves => ?_).trans found
    -- a label of the account that is named belongs to it
    have owner := (coherent.accounts.mem accountId label).mp member
    obtain ⟨reg', found', account, -⟩ := coherent.active serves
    rw [found] at found'
    cases found'
    exact other (Option.some.inj (account.symm.trans owner))
  · exact found

theorem Coherent.registration_budgets (coherent : s.Coherent) {budgets : List (String × Budget)}
    {reg : TunnelRegistration} (found : s.registration? i = some reg)
    (absent : reg.accountId ∉ budgets.map Prod.fst) :
    (budgets.foldl (fun s b => s.setAccountBudget b.1 b.2) s).registration? i = some reg := by
  induction budgets generalizing s with
  | nil => exact found
  | cons b rest ih =>
    simp only [List.map_cons, List.mem_cons, not_or] at absent
    exact ih (coherent.quiet (quiet_setAccountBudget s b.1 b.2))
      (coherent.registration_setAccountBudget found absent.1 b.2) absent.2

/-! ### Revocations and the budgets of other accounts -/

/-- The override of an account and the budgets of all registrations are as they were. -/
structure Spares (accountId : String) (s s' : Server) : Prop where
  override : s'.accountBudgetOverrides.lookup accountId = s.accountBudgetOverrides.lookup accountId
  budgets : ∀ i, (s'.registration? i).map (fun reg => (reg.accountId, reg.budget)) =
    (s.registration? i).map fun reg => (reg.accountId, reg.budget)

theorem Spares.refl (accountId : String) (s : Server) : Spares accountId s s := ⟨rfl, fun _ => rfl⟩

theorem Spares.trans {s'' : Server} (first : Spares accountId s s') (second : Spares accountId s' s'') :
    Spares accountId s s'' :=
  ⟨second.override.trans first.override, fun i => (second.budgets i).trans (first.budgets i)⟩

/-- A registration of another account stays one. -/
theorem Spares.account_ne (spares : Spares accountId s s')
    (other : ∀ reg, s.registration? i = some reg → reg.accountId ≠ accountId) :
    ∀ reg, s'.registration? i = some reg → reg.accountId ≠ accountId := by
  intro reg found
  have same := spares.budgets i
  rw [found] at same
  obtain ⟨old, before, equal⟩ := Option.map_eq_some_iff.mp same.symm
  have account : old.accountId = reg.accountId := congrArg Prod.fst equal
  rw [← account]
  exact other old before

theorem spares_modifyRegistration (accountId : String) (s : Server) (i : Nat) :
    Spares accountId s (s.modifyRegistration i fun reg => { reg with acceptingVisitors := false }) := by
  refine ⟨rfl, fun j => ?_⟩
  rw [registration?_modifyRegistration]
  split
  · cases s.registration? j <;> rfl
  · rfl

/-- Only the account of the registration can lose its override. -/
theorem spares_deregisterIfCurrent (label : String)
    (other : ∀ reg, s.registration? i = some reg → reg.accountId ≠ accountId) :
    Spares accountId s (s.deregisterIfCurrent label i) := by
  refine ⟨?_, fun j => by simp only [registration?, connections_deregisterIfCurrent]⟩
  unfold deregisterIfCurrent
  split
  next current reg serves found =>
    split
    · unfold dropAccountBandwidthIfIdle
      split
      · rfl
      · exact AList.lookup_erase_ne (other reg found).symm
    · rfl
  · rfl

theorem spares_retireRegistration (label : String) (reason : RetireReason) (timeout : ℚ)
    (other : ∀ reg, s.registration? i = some reg → reg.accountId ≠ accountId) :
    Spares accountId s (s.retireRegistration label i reason timeout) := by
  unfold retireRegistration
  split
  · have disabled := spares_modifyRegistration accountId s i
    have removed := disabled.trans (spares_deregisterIfCurrent label (disabled.account_ne other))
    refine removed.trans ?_
    cases reason <;> exact ⟨rfl, fun _ => rfl⟩
  · exact .refl accountId s

theorem spares_retireAll (timeout : ℚ) {candidates : List (String × Nat)}
    (other : ∀ e ∈ candidates, ∀ reg, s.registration? e.2 = some reg → reg.accountId ≠ accountId) :
    Spares accountId s
      (candidates.foldl (fun s e => s.retireRegistration e.1 e.2 .leaseRevoked timeout) s) := by
  induction candidates generalizing s with
  | nil => exact .refl accountId s
  | cons e rest ih =>
    have first := spares_retireRegistration e.1 .leaseRevoked timeout (other e List.mem_cons_self)
    exact first.trans (ih fun e' member => first.account_ne (other e' (by simp [member])))

theorem spares_retirePending (accountId : String) (s : Server) (revoked : Nat)
    (candidates : List (String × Nat)) :
    Spares accountId s (s.retirePending revoked candidates).2 := by
  induction candidates generalizing s revoked with
  | nil => exact .refl accountId s
  | cons e rest ih =>
    obtain ⟨label, i⟩ := e
    have first : Spares accountId s (s.retirePendingRegistration label i).2 := by
      unfold retirePendingRegistration
      split
      · refine (spares_modifyRegistration accountId s i).trans ?_
        refine ⟨?_, fun j => by simp only [registration?, connections_dropPendingIfCurrent]⟩
        show AList.lookup _ (Server.dropPendingIfCurrent _ label i).accountBudgetOverrides = _
        unfold dropPendingIfCurrent
        split
        · split <;> rfl
        · rfl
      · exact .refl accountId s
    rw [retirePending.eq_def]
    cases ended : s.retirePendingRegistration label i with
    | mk dropped t =>
      rw [ended] at first
      simp only [ended]
      cases dropped with
      | true => exact first.trans (ih t _)
      | false => exact first.trans (ih t _)

/-- No active registration of the account has one of the leases. -/
def Unaffected (s : Server) (accountId : String) (leases : List String) : Prop :=
  ∀ label i, s.agents.lookup label = some i → s.roster.account i = some accountId →
    ∀ leaseId ∈ leases, s.roster.lease i ≠ some leaseId

theorem Coherent.spares_revokeLease (coherent : s.Coherent) {leaseId : String}
    (unaffected : s.Unaffected accountId [leaseId]) (action : RevocationAction) :
    Spares accountId s (s.revokeLease leaseId action).2 := by
  unfold revokeLease
  split
  · exact .refl accountId s
  · obtain ⟨unchanged, candidates⟩ := coherent.registrationsForLease leaseId
    simp only [unchanged]
    have others : ∀ e ∈ (s.registrationsForLeaseIndex leaseId s.leaseLabels s.agents).1,
        ∀ reg, s.registration? e.2 = some reg → reg.accountId ≠ accountId := by
      intro e member reg found same
      obtain ⟨serves, lease⟩ := (candidates e.1 e.2).mp member
      have account := (coherent.linked e.2 reg found).1
      rw [same] at account
      exact unaffected e.1 e.2 serves account leaseId (by simp) lease
    have retired := spares_retireAll (RevocationAction.drainTimeout action) others
    generalize List.foldl _ s _ = t at retired
    cases t.registrationsForLeaseIndex leaseId t.pendingLeaseLabels t.pendingAgents with
    | mk pending pendingLeaseLabels =>
      have unindexed : Spares accountId t { t with pendingLeaseLabels := pendingLeaseLabels } :=
        ⟨rfl, fun _ => rfl⟩
      exact retired.trans (unindexed.trans (spares_retirePending accountId _ _ _))

/-- Ending registrations affects no more accounts. -/
theorem Unaffected.shrinks {leases : List String} (unaffected : s.Unaffected accountId leases)
    (shrinks : Roster.Shrinks s.roster s'.roster) : s'.Unaffected accountId leases := by
  intro label i serves account leaseId member lease
  simp only [Roster.account, shrinks.entries] at account
  simp only [Roster.lease, shrinks.entries] at lease
  exact unaffected label i (shrinks.agents label i serves) account leaseId member lease

theorem Coherent.spares_revocations (coherent : s.Coherent)
    {revocations : List (String × RevocationAction)}
    (unaffected : s.Unaffected accountId (revocations.map Prod.fst)) :
    Spares accountId s (revocations.foldl (fun s r => (s.revokeLease r.1 r.2).2) s) := by
  induction revocations generalizing s with
  | nil => exact .refl accountId s
  | cons r rest ih =>
    obtain ⟨first, -⟩ := follows_revokeLease coherent r.1 r.2
    have here : s.Unaffected accountId [r.1] := fun label i serves account leaseId member =>
      unaffected label i serves account leaseId (by simp_all)
    have later : s.Unaffected accountId (rest.map Prod.fst) := fun label i serves account leaseId member =>
      unaffected label i serves account leaseId (List.mem_cons_of_mem _ member)
    exact (coherent.spares_revokeLease here r.2).trans
      (ih first.coherent (later.shrinks first.shrinks))

/-! ### Later steps -/

/-- The step applies an update that gives the account a budget. -/
def Names (s : Server) (accountId : String) (a : Action) : Prop :=
  ∃ update u, a = .applyPolicyUpdate update ∧
    validPolicyUpdate s.policyVersion update = some u ∧ accountId ∈ u.accountBudgets.map Prod.fst

/-- An override lasts through a step that does not replace it and leaves the account with
local work. -/
theorem Coherent.override_step (coherent : s.Coherent) {a : Action}
    (held : s.accountBudgetOverrides.lookup accountId = some budget) (moved : s.step a = some s')
    (unnamed : ¬ s.Names accountId a) (busy : s'.accountHasLocalWork accountId = true) :
    s'.accountBudgetOverrides.lookup accountId = some budget := by
  have kept : ∀ {t : Server}, Settles s t → t.accountHasLocalWork accountId = true →
      t.accountBudgetOverrides.lookup accountId = some budget := by
    intro t settles working
    rcases settles.overrides accountId with same | ⟨-, idle⟩
    · exact same.trans held
    · rw [working] at idle
      cases idle
  by_cases policy : ∃ update, a = .applyPolicyUpdate update
  · obtain ⟨update, rfl⟩ := policy
    cases moved
    unfold applyPolicyUpdate at busy ⊢
    split at busy
    · exact held
    next u valid =>
      have absent : accountId ∉ u.accountBudgets.map Prod.fst := fun inside =>
        unnamed ⟨update, u, rfl, valid, inside⟩
      -- the revocations may make the account idle, the budgets of the others do not
      have revoked : Settles s (u.revocations.foldl (fun s r => (s.revokeLease r.1 r.2).2) s) :=
        (clears_foldl (fun t (r : String × RevocationAction) => clears_revokeLease t r.1 r.2)
          u.revocations s).toSettles
      obtain ⟨same, -, others⟩ := budgets_overrides (validPolicyUpdate_some valid).2.1
        (u.revocations.foldl (fun s r => (s.revokeLease r.1 r.2).2) s)
      refine (others accountId absent).trans (kept revoked ?_)
      rw [← same.eq accountId]
      exact busy
  · exact kept (coherent.settles_step moved fun update same => policy ⟨update, same⟩) busy

/-- The policy version never goes back. -/
theorem Coherent.version_step (coherent : s.Coherent) {a : Action} (moved : s.step a = some s') :
    s.policyVersion ≤ s'.policyVersion := by
  by_cases policy : ∃ update, a = .applyPolicyUpdate update
  · obtain ⟨update, rfl⟩ := policy
    cases moved
    unfold applyPolicyUpdate
    split
    · exact le_rfl
    next u valid => exact (validPolicyUpdate_some valid).1.le
  · exact (coherent.settles_step moved fun update same => policy ⟨update, same⟩).version.ge

theorem Coherent.version_run (coherent : s.Coherent) {as : List Action}
    (ran : Transition.run Server.step s as = some s') : s.policyVersion ≤ s'.policyVersion := by
  induction as generalizing s with
  | nil =>
    cases ran
    exact le_rfl
  | cons a as ih =>
    obtain ⟨t, moved, rest⟩ := Transition.run_cons_iff.mp ran
    exact (coherent.version_step moved).trans (ih (coherent.step moved) rest)

/-- Through the step the account keeps local work and gets no other budget. -/
def Carries (accountId : String) (t : Server) (a : Action) : Prop :=
  ¬ t.Names accountId a ∧ ∀ t', t.step a = some t' → t'.accountHasLocalWork accountId = true

theorem Coherent.override_run (coherent : s.Coherent)
    (held : s.accountBudgetOverrides.lookup accountId = some budget) {as : List Action}
    (carries : Transition.Along Server.step (Carries accountId) s as)
    (ran : Transition.run Server.step s as = some s') :
    s'.accountBudgetOverrides.lookup accountId = some budget := by
  induction as generalizing s with
  | nil =>
    cases ran
    exact held
  | cons a as ih =>
    obtain ⟨t, moved, rest⟩ := Transition.run_cons_iff.mp ran
    obtain ⟨⟨unnamed, busy⟩, later⟩ := carries
    exact ih (coherent.step moved) (coherent.override_step held moved unnamed (busy t moved))
      (later t moved) rest

/-! ### The update as a whole -/

/-- What an update has done when it was applied. -/
structure Applied (s : Server) (update : PyObject) (u : PolicyUpdate) (s₁ : Server) : Prop where
  newer : s.policyVersion < u.version
  version : s₁.policyVersion = u.version
  /-- Replays and older updates are rejected ever after. -/
  replayed : ∀ bs s₂, Transition.run step s₁ bs = some s₂ → (s₂.applyPolicyUpdate update).1 = false
  older : ∀ bs s₂, Transition.run step s₁ bs = some s₂ → ∀ version ids budgets revocations,
    version ≤ u.version →
      (s₂.applyPolicyUpdate (.policyUpdate (.int version) ids budgets revocations)).1 = false
  revoked : ∀ leaseId ∈ u.leaseIds, ∀ label,
    ¬ s₁.Maps s₁.agents label (fun reg => reg.leaseId = some leaseId) ∧
      ¬ s₁.Maps s₁.pendingAgents label (fun reg => reg.leaseId = some leaseId)
  untouched : ∀ label i,
    (∀ reg, s.registration? i = some reg → ∀ leaseId ∈ u.leaseIds, reg.leaseId ≠ some leaseId) →
      (s₁.agents.lookup label = some i ↔ s.agents.lookup label = some i) ∧
        (s₁.pendingAgents.lookup label = some i ↔ s.pendingAgents.lookup label = some i)
  /-- A budget is in force while the account has local work and no update replaces it. -/
  budgets : ∀ accountId budget, (accountId, budget) ∈ u.accountBudgets →
    s₁.accountHasLocalWork accountId = true → ∀ bs s₂, Transition.run step s₁ bs = some s₂ →
      Transition.Along step (Carries accountId) s₁ bs →
        ∀ i reg, s₂.registration? i = some reg → reg.accountId = accountId →
          s₂.accountBudget reg = budget
  others : ∀ accountId, accountId ∉ u.accountBudgets.map Prod.fst →
    (∀ label i reg, s.agents.lookup label = some i ∨ s.pendingAgents.lookup label = some i →
      s.registration? i = some reg → reg.accountId = accountId →
        ∀ leaseId ∈ u.leaseIds, reg.leaseId ≠ some leaseId) →
    ∀ i reg, s.registration? i = some reg → reg.accountId = accountId →
      ∃ reg', s₁.registration? i = some reg' ∧ reg'.accountId = accountId ∧
        s₁.accountBudget reg' = s.accountBudget reg

section

variable {update : PyObject} {u : PolicyUpdate} (valid : validPolicyUpdate s.policyVersion update = some u)

include valid

/-- The three parts of an update in the order they are applied. -/
theorem applyPolicyUpdate_eq :
    s.applyPolicyUpdate update =
      let t := u.accountBudgets.foldl (fun s b => s.setAccountBudget b.1 b.2)
        (u.revocations.foldl (fun s r => (s.revokeLease r.1 r.2).2) s)
      (true, { t with
        policyVersion := u.version
        policyUpdatesApplied := t.policyUpdatesApplied + 1 }) := by
  unfold applyPolicyUpdate
  rw [valid]

/-- Registrations without a lease of the update stay where they are. -/
theorem Coherent.untouched (coherent : s.Coherent) {label : String}
    (unnamed : ∀ reg, s.registration? i = some reg → ∀ leaseId ∈ u.leaseIds,
      reg.leaseId ≠ some leaseId) :
    ((s.applyPolicyUpdate update).2.agents.lookup label = some i ↔ s.agents.lookup label = some i) ∧
      ((s.applyPolicyUpdate update).2.pendingAgents.lookup label = some i ↔
        s.pendingAgents.lookup label = some i) := by
  have follows : Follows s (EndsLease s u.leaseIds) (s.applyPolicyUpdate update).2 := by
    refine (follows_applyPolicyUpdate coherent update).mono ?_
    rintro m ⟨u', valid', ends⟩
    rw [valid] at valid'
    cases valid'
    exact ends
  obtain ⟨ms, runs, all⟩ := follows.runs
  have spared : (∃ reg, s.registration? i = some reg) → ∀ m ∈ ms, ¬ m.Ends i label := by
    rintro ⟨reg, found⟩ m member ends
    obtain ⟨j, other, leaseId, ends', lease, named⟩ := all m member
    have same : j = i := by
      rcases ends with rfl | rfl <;> rcases ends' with same | same <;> cases same <;> rfl
    subst same
    exact unnamed reg found leaseId named ((coherent.linked j reg found).2.symm.trans lease)
  have uninstalled : ∀ m ∈ ms, ∀ j other, m ≠ .install j other := by
    rintro m member j other rfl
    obtain ⟨_, _, _, same | same, -⟩ := all _ member <;> cases same
  refine ⟨⟨follows.shrinks.agents label i, fun serves => ?_⟩,
    ⟨follows.shrinks.pending label i, fun holds => ?_⟩⟩
  · obtain ⟨reg, found, -⟩ := coherent.active serves
    refine runs.agents_eq (fun m member => ⟨fun removes => ?_, fun j => uninstalled m member j label⟩) serves
    exact spared ⟨reg, found⟩ m member (Or.inl removes)
  · obtain ⟨reg, found, -⟩ := coherent.pending holds
    refine runs.pending_eq (fun m member => ⟨fun drops => ?_, uninstalled m member i label⟩) holds
    exact spared ⟨reg, found⟩ m member (Or.inr drops)

/-- The override of an account that the update names. -/
theorem override_applied (named : (accountId, budget) ∈ u.accountBudgets)
    (busy : (s.applyPolicyUpdate update).2.accountHasLocalWork accountId = true) :
    (s.applyPolicyUpdate update).2.accountBudgetOverrides.lookup accountId = some budget := by
  rw [applyPolicyUpdate_eq valid] at busy ⊢
  obtain ⟨same, set, -⟩ := budgets_overrides (validPolicyUpdate_some valid).2.1
    (u.revocations.foldl (fun s r => (s.revokeLease r.1 r.2).2) s)
  refine set accountId budget named ?_
  rw [← same.eq accountId]
  exact busy

/-- The budget of an account that the update neither names nor affects. -/
theorem Coherent.others (coherent : s.Coherent) {reg : TunnelRegistration}
    (found : s.registration? i = some reg) (absent : reg.accountId ∉ u.accountBudgets.map Prod.fst)
    (unaffected : s.Unaffected reg.accountId u.leaseIds) :
    ∃ reg', (s.applyPolicyUpdate update).2.registration? i = some reg' ∧
      reg'.accountId = reg.accountId ∧
      (s.applyPolicyUpdate update).2.accountBudget reg' = s.accountBudget reg := by
  rw [applyPolicyUpdate_eq valid]
  have spares := coherent.spares_revocations (u.map_revocations ▸ unaffected)
  have coherent' : (u.revocations.foldl (fun s r => (s.revokeLease r.1 r.2).2) s).Coherent :=
    (follows_revocations s u.revocations (fun r member => List.mem_map_of_mem member) coherent
      rfl).coherent
  generalize u.revocations.foldl (fun s r => (s.revokeLease r.1 r.2).2) s = t at spares coherent'
  have same := spares.budgets i
  rw [found] at same
  obtain ⟨reg', found', equal⟩ := Option.map_eq_some_iff.mp same
  simp only [Prod.mk.injEq] at equal
  obtain ⟨account, budget⟩ := equal
  obtain ⟨-, -, others⟩ := budgets_overrides (validPolicyUpdate_some valid).2.1 t
  refine ⟨reg', coherent'.registration_budgets found' (account ▸ absent), account, ?_⟩
  unfold accountBudget accountBudgetFor
  rw [account, budget]
  show (AList.lookup reg.accountId (u.accountBudgets.foldl _ t).accountBudgetOverrides).getD _ = _
  rw [others reg.accountId absent, spares.override]

end

/-- **Policy updates are atomic, versioned and exact.** In every reachable state and for every
object: an update that is rejected changes nothing but the counter of rejections, and an
update that is applied does what it says. -/
theorem policy_update_exact {config : ServerConfig} {now monotonic : ℚ} {as : List Action}
    (ran : Transition.run step (start config now monotonic) as = some s) (update : PyObject) :
    ((s.applyPolicyUpdate update).1 = false → (s.applyPolicyUpdate update).2 =
      { s with policyUpdatesRejected := s.policyUpdatesRejected + 1 }) ∧
    ((s.applyPolicyUpdate update).1 = true → ∃ u, validPolicyUpdate s.policyVersion update = some u ∧
      s.Applied update u (s.applyPolicyUpdate update).2) := by
  have coherent := coherent_of_run ran
  cases valid : validPolicyUpdate s.policyVersion update with
  | none =>
    unfold applyPolicyUpdate
    rw [valid]
    exact ⟨fun _ => rfl, fun applied => by cases applied⟩
  | some u =>
    obtain ⟨newer, -, ids, budgets, revocations, shape⟩ := validPolicyUpdate_some valid
    have version : (s.applyPolicyUpdate update).2.policyVersion = u.version := by
      rw [applyPolicyUpdate_eq valid]
    have moved : s.step (.applyPolicyUpdate update) = some (s.applyPolicyUpdate update).2 := rfl
    have ran₁ : Transition.run step (start config now monotonic) (as ++ [.applyPolicyUpdate update]) =
        some (s.applyPolicyUpdate update).2 := by
      rw [Transition.run_append ran]
      exact Transition.run_cons_iff.mpr ⟨_, moved, rfl⟩
    have coherent₁ := coherent.step moved
    have older : ∀ bs s₂, Transition.run step (s.applyPolicyUpdate update).2 bs = some s₂ →
        ∀ version ids budgets revocations, version ≤ u.version →
          (s₂.applyPolicyUpdate (.policyUpdate (.int version) ids budgets revocations)).1 = false := by
      intro bs s₂ later other ids budgets revocations below
      have reached := coherent₁.version_run later
      rw [version] at reached
      unfold applyPolicyUpdate
      rw [validPolicyUpdate_older (below.trans reached)]
    have without : ∀ leaseId ∈ u.leaseIds, ∀ j,
        (s.applyPolicyUpdate update).2.roster.lease j = some leaseId →
          (s.applyPolicyUpdate update).2.roster.Without leaseId := fun leaseId named j has =>
      applyPolicyUpdate_without coherent valid named (lease_ne_empty ran₁ has)
    refine ⟨fun rejected => ?_, fun _ => ⟨u, rfl, newer, version, ?_, older, ?_, ?_, ?_, ?_⟩⟩
    · rw [applyPolicyUpdate_eq valid] at rejected
      cases rejected
    · intro bs s₂ later
      rw [shape]
      exact older bs s₂ (shape ▸ later) u.version ids budgets revocations le_rfl
    · intro leaseId named label
      refine ⟨?_, ?_⟩
      · rintro ⟨j, reg, serves, found, lease⟩
        have has := (coherent₁.linked j reg found).2.trans lease
        obtain ⟨reg', found', -, active⟩ := coherent₁.active serves
        rw [found] at found'
        cases found'
        exact (without leaseId named j has label).1 (active.trans lease)
      · rintro ⟨j, reg, holds, found, lease⟩
        have has := (coherent₁.linked j reg found).2.trans lease
        obtain ⟨reg', found', -, pending⟩ := coherent₁.pending holds
        rw [found] at found'
        cases found'
        exact (without leaseId named j has label).2 (pending.trans lease)
    · exact fun label i unnamed => coherent.untouched valid unnamed
    · intro accountId budget named busy bs s₂ later carries i reg found account
      have held := coherent₁.override_run (override_applied valid named busy) carries later
      unfold accountBudget accountBudgetFor
      rw [account, held]
      rfl
    · intro accountId absent spared i reg found account
      subst account
      refine coherent.others valid found absent fun label j serves owner leaseId named lease => ?_
      obtain ⟨reg', found', -, -⟩ := coherent.active serves
      obtain ⟨account', lease'⟩ := coherent.linked j reg' found'
      exact spared label j reg' (Or.inl serves) found'
        (Option.some.inj (account'.symm.trans owner)) leaseId named (lease'.symm.trans lease)

/-- An update that revokes one lease and gives another account a budget. -/
def twofoldUpdate : PyObject :=
  .policyUpdate (.int 1) (.tuple [.str "first"])
    (.tuple [.accountBudgetUpdate (.str "b") (.budget (.int 3) .none .none .none)]) (.tuple [])

/-- Two connections of two accounts, each with a label. -/
def twoTenants : List Action :=
  .admitTunnel (plainAdmission "a" "first" 1 .none) (some "x") .http .default :: setUp 0 ++
    .admitTunnel (plainAdmission "b" "second" 1 .none) (some "y") .http .default :: setUp 1

/-- The update retires the tunnel of one tenant and keeps that of the other, with its new
budget. -/
theorem policy_update_exact_twofold : ∃ s u,
    Transition.run step (start smallRelay 0 0) twoTenants = some s ∧
    s.agents.lookup "x" = some 0 ∧ s.agents.lookup "y" = some 1 ∧
    (s.applyPolicyUpdate twofoldUpdate).1 = true ∧
    s.Applied twofoldUpdate u (s.applyPolicyUpdate twofoldUpdate).2 ∧
    (s.applyPolicyUpdate twofoldUpdate).2.agents.lookup "x" = none ∧
    ∃ reg, (s.applyPolicyUpdate twofoldUpdate).2.registration? 1 = some reg ∧
      (s.applyPolicyUpdate twofoldUpdate).2.accountBudget reg = ⟨some 3, none, none, none⟩ := by
  have before : ((Transition.run step (start smallRelay 0 0) twoTenants).map fun s =>
      (s.agents.lookup "x", s.agents.lookup "y", (s.applyPolicyUpdate twofoldUpdate).1)) =
      some (some 0, some 1, true) := by
    decide
  have listed : ((Transition.run step (start smallRelay 0 0) twoTenants).bind fun s =>
      (validPolicyUpdate s.policyVersion twofoldUpdate).map fun u => u.accountBudgets) =
      some [("b", ⟨some 3, none, none, none⟩)] := by
    decide
  have after : ((Transition.run step (start smallRelay 0 0) twoTenants).map fun s =>
      ((s.applyPolicyUpdate twofoldUpdate).2.agents.lookup "x",
        (s.applyPolicyUpdate twofoldUpdate).2.accountHasLocalWork "b",
        ((s.applyPolicyUpdate twofoldUpdate).2.registration? 1).map fun reg => reg.accountId)) =
      some (none, true, some "b") := by
    decide
  obtain ⟨s, ran, facts⟩ := Option.map_eq_some_iff.mp before
  rw [ran, Option.map_some] at after
  rw [ran, Option.bind_some] at listed
  simp only [Prod.mk.injEq, Option.some.injEq] at facts after
  obtain ⟨first, second, accepted⟩ := facts
  obtain ⟨gone, busy, owner⟩ := after
  obtain ⟨u, valid, applied⟩ := (policy_update_exact ran twofoldUpdate).2 accepted
  obtain ⟨reg, found, account⟩ := Option.map_eq_some_iff.mp owner
  have named : ("b", (⟨some 3, none, none, none⟩ : Budget)) ∈ u.accountBudgets := by
    rw [valid, Option.map_some, Option.some.injEq] at listed
    rw [listed]
    exact List.mem_cons_self
  exact ⟨s, u, ran, first, second, accepted, applied, gone, reg, found,
    applied.budgets "b" _ named busy [] _ rfl trivial 1 reg found account⟩

end Server

end Chute
