import Chute.Server.Scope

/-!
# Budgets without work

Which steps leave an override or a byte schedule behind for an account that has nothing to do
any more: those that drop the last work of the account while it is pending. Every other step
keeps what is kept for an account to the time of its local work.
-/
namespace Chute

namespace Server

variable {s s' : Server} {accountId : String} {i : Nat}

theorem validLeaseIds_ne {seen ids : List String} {items : List PyObject}
    (valid : validLeaseIds seen items = some ids) : ∀ leaseId ∈ ids, leaseId ≠ "" := by
  induction items generalizing seen ids with
  | nil =>
    cases valid
    nofun
  | cons item rest ih =>
    simp only [validLeaseIds, Option.bind_eq_bind, Option.bind_eq_some_iff] at valid
    obtain ⟨leaseId, named, valid⟩ := valid
    split at valid
    · cases valid
    · obtain ⟨later, checked, same⟩ := Option.bind_eq_some_iff.mp valid
      cases same
      intro other member
      rcases List.mem_cons.mp member with rfl | inside
      · exact nonemptyStr_ne named
      · exact ih checked other inside

theorem validLeaseRevocations_ne {seen : List String} {items : List PyObject}
    {revocations : List (String × RevocationAction)}
    (valid : validLeaseRevocations seen items = some revocations) : ∀ r ∈ revocations, r.1 ≠ "" := by
  induction items generalizing seen revocations with
  | nil =>
    cases valid
    nofun
  | cons item rest ih =>
    cases item with
    | leaseRevocation leaseId action =>
      simp only [validLeaseRevocations, Option.bind_eq_bind, Option.bind_eq_some_iff] at valid
      obtain ⟨name, named, how, -, valid⟩ := valid
      split at valid
      · cases valid
      · obtain ⟨later, checked, same⟩ := Option.bind_eq_some_iff.mp valid
        cases same
        intro other member
        rcases List.mem_cons.mp member with rfl | inside
        · exact nonemptyStr_ne named
        · exact ih checked other inside
    | _ => cases valid

/-- A valid update revokes leases that have a name. -/
theorem revocations_ne {update : PyObject} {u : PolicyUpdate} {policyVersion : Int}
    (valid : validPolicyUpdate policyVersion update = some u) : ∀ r ∈ u.revocations, r.1 ≠ "" := by
  unfold validPolicyUpdate at valid
  split at valid
  · split at valid
    · cases valid
    · simp only [Option.bind_eq_bind, Option.bind_eq_some_iff, Option.pure_def, Option.some.injEq] at valid
      obtain ⟨_, -, ids, idsValid, _, -, revocations, revocationsValid, _, -, budgets, -, rfl⟩ := valid
      intro r member
      rcases List.mem_append.mp member with drains | revokes
      · obtain ⟨leaseId, inside, rfl⟩ := List.mem_map.mp drains
        exact validLeaseIds_ne idsValid leaseId inside
      · exact validLeaseRevocations_ne revocationsValid r revokes
  · cases valid

/-- The step drops the last work of the account while it is pending, and something is kept for
the account, which the step does not forget. -/
def Strands (s : Server) (accountId : String) : Action → Prop
  | .drop i => s.Remembers accountId ∧ s.roster.account i = some accountId ∧
      (∃ c, s.connections[i]? = some c ∧ s.pendingAgents.lookup c.label = some i) ∧
      ¬ s.BusyBesides accountId (· = i)
  | .revokeLease leaseId _ => s.Remembers accountId ∧ leaseId ≠ "" ∧ s.EndsPending accountId [leaseId]
  | .applyPolicyUpdate update => ∃ u, validPolicyUpdate s.policyVersion update = some u ∧
      (accountId ∈ s.accountBudgetOverrides ∧ accountId ∉ u.accountBudgets.map Prod.fst ∨
        accountId ∈ s.accountBandwidth) ∧
      s.EndsPending accountId u.leaseIds
  | _ => False

/-- Steps that are no drop of a connection and no revocation. -/
theorem tidy_step (coherent : s.Coherent) (slots : s.Slots) {a : Action} (moved : s.step a = some s')
    (drops : ∀ i, a ≠ .drop i) (revokes : ∀ leaseId action, a ≠ .revokeLease leaseId action)
    (updates : ∀ update, a ≠ .applyPolicyUpdate update) : Tidy s s' := by
  cases a with
  | clock now monotonic =>
    cases moved
    exact .of_same rfl rfl ⟨fun _ => rfl, rfl, rfl, rfl, rfl⟩
  | admitTunnel admission requested scheme window =>
    obtain ⟨valid, -, rfl⟩ := Option.map_eq_some_iff.mp moved
    refine .of_busy rfl rfl fun accountId => busy_of_more (s := s) id id id fun label waits => ?_
    obtain ⟨j, reg, holds, found, account⟩ := waits
    obtain ⟨c, there, registered⟩ := Option.bind_eq_some_iff.mp found
    refine ⟨j, reg, holds, ?_, account⟩
    simp only [registration?]
    rw [List.getElem?_append_left (List.getElem?_eq_some_iff.mp there).1, there]
    exact registered
  | claim i phrases =>
    obtain ⟨c, found, moved⟩ := Option.bind_eq_some_iff.mp moved
    split at moved
    next waiting =>
      cases moved
      exact tidy_claim coherent found waiting phrases
    · cases moved
  | check i | recheck i | ready i =>
    obtain ⟨c, found, moved⟩ := Option.bind_eq_some_iff.mp moved
    split at moved <;> cases moved
    exact tidy_setPhase s i _
  | opened i result =>
    obtain ⟨c, found, moved⟩ := Option.bind_eq_some_iff.mp moved
    split at moved
    · cases moved
      exact tidy_setPhase s i _
    · cases moved
      exact tidy_setPhase s i _
    · cases moved
  | drop i => exact absurd rfl (drops i)
  | install i =>
    obtain ⟨c, found, moved⟩ := Option.bind_eq_some_iff.mp moved
    split at moved <;> cases moved
    exact coherent.tidy_install found _
  | ended i =>
    obtain ⟨c, found, moved⟩ := Option.bind_eq_some_iff.mp moved
    split at moved
    · split at moved <;> cases moved
      exact tidy_setPhase s i _
    · cases moved
  | renewalCancelled i =>
    obtain ⟨c, found, moved⟩ := Option.bind_eq_some_iff.mp moved
    split at moved <;> cases moved
    exact tidy_setRenewal s i _
  | deregister i =>
    obtain ⟨c, found, moved⟩ := Option.bind_eq_some_iff.mp moved
    split at moved <;> cases moved
    exact (tidy_deregisterIfCurrent s c.label i).trans (tidy_setPhase _ i _)
  | renewHead i =>
    obtain ⟨c, found, moved⟩ := Option.bind_eq_some_iff.mp moved
    split at moved
    · obtain ⟨reg, registered, rfl⟩ := Option.map_eq_some_iff.mp moved
      exact tidy_renewHead s i c reg
    · cases moved
  | renewWake i =>
    obtain ⟨c, found, moved⟩ := Option.bind_eq_some_iff.mp moved
    split at moved
    · obtain ⟨reg, registered, rfl⟩ := Option.map_eq_some_iff.mp moved
      exact tidy_renewWake s i c reg
    · cases moved
  | renewAcquired i acquired =>
    obtain ⟨c, found, moved⟩ := Option.bind_eq_some_iff.mp moved
    split at moved
    · split at moved
      · cases moved
        exact tidy_setRenewal s i _
      · cases moved
        exact .of_same rfl rfl ⟨sameAccounts_modifyConnection fun _ _ => rfl, rfl, rfl, rfl, rfl⟩
    · cases moved
  | renewResult i renewed =>
    obtain ⟨c, found, moved⟩ := Option.bind_eq_some_iff.mp moved
    split at moved
    · obtain ⟨reg, registered, rfl⟩ := Option.map_eq_some_iff.mp moved
      have known : s.registration? i = some reg := by simp [registration?, found, registered]
      exact tidy_renewResult c known renewed
    · cases moved
  | revokeLease leaseId action => exact absurd rfl (revokes leaseId action)
  | applyPolicyUpdate update => exact absurd rfl (updates update)
  | visit label sent =>
    cases moved
    exact tidy_visit s label sent
  | visitorOpened v =>
    obtain ⟨visitor, -, moved⟩ := Option.bind_eq_some_iff.mp moved
    split at moved
    · obtain ⟨t, stepped, rfl⟩ := Option.map_eq_some_iff.mp moved
      exact (tidy_muxStep stepped).trans (.of_same rfl rfl ⟨fun _ => rfl, rfl, rfl, rfl, rfl⟩)
    · cases moved
  | visitorFailed v =>
    obtain ⟨visitor, -, moved⟩ := Option.bind_eq_some_iff.mp moved
    split at moved
    · obtain ⟨t, stepped, left⟩ := Option.bind_eq_some_iff.mp moved
      exact (tidy_muxStep stepped).trans (tidy_leave left)
    · cases moved
  | visitorLeft v =>
    obtain ⟨visitor, -, moved⟩ := Option.bind_eq_some_iff.mp moved
    split at moved
    · exact tidy_leave moved
    · cases moved
  | throttle i n =>
    simp only [Server.step] at moved
    split at moved
    next relays =>
      obtain ⟨reg, known, rfl⟩ := Option.map_eq_some_iff.mp moved
      refine tidy_throttleAccountBytes n ?_
      -- the visitor whose bytes these are holds a slot of the account
      obtain ⟨visitor, member, relaying⟩ := List.any_eq_true.mp relays
      simp only [Bool.and_eq_true, beq_iff_eq] at relaying
      rw [accountHasLocalWork_iff]
      refine Or.inr (Or.inl ?_)
      rw [slots.counted, List.countP_pos_iff]
      refine ⟨visitor, member, ?_⟩
      have account := (coherent.linked i reg known).1
      simp only [holdsSlot, visitorAccount, relaying.1, relaying.2, account, beq_self_eq_true,
        Bool.and_true]
      rfl
    · cases moved
  | mux i a =>
    simp only [Server.step] at moved
    split at moved
    · cases moved
    · exact tidy_muxStep moved

theorem strands_drop (coherent : s.Coherent) (within : s.ScopedTo accountId)
    (moved : s.step (.drop i) = some s') : s'.ScopedTo accountId ↔ ¬ s.Strands accountId (.drop i) := by
  obtain ⟨c, found, moved⟩ := Option.bind_eq_some_iff.mp moved
  split at moved <;> cases moved
  next opened why dropping =>
    have after := (SameWork.mk (sameAccounts_modifyConnection fun _ _ => rfl) rfl rfl rfl rfl :
      SameWork (s.dropPendingIfCurrent c.label i)
        ((s.dropPendingIfCurrent c.label i).setPhase i (.over_ opened why))).eq accountId
    by_cases holds : s.pendingAgents.lookup c.label = some i
    · obtain ⟨-, -, overrides, bandwidth⟩ := kept_dropPendingIfCurrent s c.label i
      have remembers : ((s.dropPendingIfCurrent c.label i).setPhase i (.over_ opened why)).Remembers
          accountId ↔ s.Remembers accountId := by
        refine remembers_congr ?_
        show (AList.lookup accountId (s.dropPendingIfCurrent c.label i).accountBudgetOverrides,
          AList.lookup accountId (s.dropPendingIfCurrent c.label i).accountBandwidth) = _
        rw [overrides, bandwidth]
        rfl
      rw [ScopedTo, remembers, after, (coherent.ends_drop holds).work]
      constructor
      · rintro stays ⟨remembered, -, -, idle⟩
        exact idle (stays remembered)
      · intro spared remembered
        by_cases mine : s.roster.account i = some accountId
        · by_contra idle
          exact spared ⟨remembered, mine, ⟨c, found, holds⟩, idle⟩
        · -- the registrations of the account are others than the one that goes
          rcases coherent.busy_iff.mp (within remembered) with visited | bytes | ⟨j, held, account, -⟩
          · exact Or.inl visited
          · exact Or.inr (Or.inl bytes)
          · refine Or.inr (Or.inr ⟨j, held, account, ?_⟩)
            rintro rfl
            exact mine account
    · have unchanged : s.dropPendingIfCurrent c.label i = s := by
        unfold dropPendingIfCurrent
        split
        next current reg there known =>
          rw [if_neg]
          rintro rfl
          exact holds there
        · rfl
      rw [unchanged]
      refine iff_of_true (tidy_setPhase s i _ accountId within) ?_
      rintro ⟨-, -, ⟨c', found', holds'⟩, -⟩
      rw [found] at found'
      cases found'
      exact holds holds'

/-- An account is out of its scope after the revocations exactly if the last of its work was
pending and something was kept for it. -/
theorem scoped_revocations (coherent : s.Coherent) (revocations : List (String × RevocationAction))
    (named : ∀ r ∈ revocations, r.1 ≠ "") (within : s.ScopedTo accountId) :
    (revocations.foldl (fun s r => (s.revokeLease r.1 r.2).2) s).ScopedTo accountId ↔
      ¬ (s.Remembers accountId ∧ s.EndsPending accountId (revocations.map Prod.fst)) := by
  obtain ⟨ends, spares⟩ := scope_revocations coherent named within
  by_cases ending : s.EndsPending accountId (revocations.map Prod.fst)
  · obtain ⟨idle, same⟩ := ends ending
    rw [ScopedTo, remembers_congr same, idle]
    simp [ending]
  · exact iff_of_true (spares ending) fun both => ending both.2

theorem strands_revokeLease (coherent : s.Coherent) (within : s.ScopedTo accountId) (leaseId : String)
    (action : RevocationAction) : (s.revokeLease leaseId action).2.ScopedTo accountId ↔
      ¬ s.Strands accountId (.revokeLease leaseId action) := by
  by_cases named : leaseId = ""
  · subst named
    exact iff_of_true within fun strands => strands.2.1 rfl
  · have one := scoped_revocations coherent [(leaseId, action)] (by simpa using named) within
    refine one.trans (not_congr ?_)
    simp [Strands, named]

theorem strands_applyPolicyUpdate (coherent : s.Coherent) (within : s.ScopedTo accountId)
    (update : PyObject) : (s.applyPolicyUpdate update).2.ScopedTo accountId ↔
      ¬ s.Strands accountId (.applyPolicyUpdate update) := by
  cases valid : validPolicyUpdate s.policyVersion update with
  | none =>
    have rejected : (s.applyPolicyUpdate update).2 =
        { s with policyUpdatesRejected := s.policyUpdatesRejected + 1 } := by
      rw [applyPolicyUpdate, valid]
    rw [rejected]
    refine iff_of_true within ?_
    rintro ⟨u, accepted, -⟩
    rw [valid] at accepted
    cases accepted
  | some u =>
    obtain ⟨ends, spares⟩ := scope_revocations coherent (revocations_ne valid) within
    rw [PolicyUpdate.map_revocations] at ends spares
    rw [applyPolicyUpdate_eq valid]
    generalize u.revocations.foldl (fun s r => (s.revokeLease r.1 r.2).2) s = t at ends spares
    show (u.accountBudgets.foldl (fun s b => s.setAccountBudget b.1 b.2) t).ScopedTo accountId ↔ _
    by_cases ending : s.EndsPending accountId u.leaseIds
    · obtain ⟨idle, same⟩ := ends ending
      obtain ⟨still, remembers⟩ := idle_budgets u.accountBudgets idle
      have override : accountId ∈ t.accountBudgetOverrides ↔ accountId ∈ s.accountBudgetOverrides := by
        rw [← AList.lookup_isSome, ← AList.lookup_isSome]
        exact iff_of_eq (congrArg (fun kept : Option Budget × Option ℚ => kept.1.isSome = true) same)
      have schedule : accountId ∈ t.accountBandwidth ↔ accountId ∈ s.accountBandwidth := by
        rw [← AList.lookup_isSome, ← AList.lookup_isSome]
        exact iff_of_eq (congrArg (fun kept : Option Budget × Option ℚ => kept.2.isSome = true) same)
      rw [override, schedule] at remembers
      rw [ScopedTo, remembers, still]
      constructor
      · rintro forgotten ⟨u', accepted, kept, -⟩
        rw [valid] at accepted
        cases accepted
        cases forgotten kept
      · exact fun spared kept => absurd ⟨u, valid, kept, ending⟩ spared
    · refine iff_of_true (tidy_foldl (fun s (b : String × Budget) => tidy_setAccountBudget s b.1 b.2)
        u.accountBudgets t accountId (spares ending)) ?_
      rintro ⟨u', accepted, -, ending'⟩
      rw [valid] at accepted
      cases accepted
      exact ending ending'

/-- A step puts an account out of its scope exactly if it strands what is kept for it. -/
theorem scoped_step (coherent : s.Coherent) (slots : s.Slots) {a : Action}
    (moved : s.step a = some s') (within : s.ScopedTo accountId) :
    s'.ScopedTo accountId ↔ ¬ s.Strands accountId a := by
  by_cases drops : ∃ i, a = .drop i
  · obtain ⟨i, rfl⟩ := drops
    exact strands_drop coherent within moved
  by_cases revokes : ∃ leaseId action, a = .revokeLease leaseId action
  · obtain ⟨leaseId, action, rfl⟩ := revokes
    cases moved
    exact strands_revokeLease coherent within leaseId action
  by_cases updates : ∃ update, a = .applyPolicyUpdate update
  · obtain ⟨update, rfl⟩ := updates
    cases moved
    exact strands_applyPolicyUpdate coherent within update
  · refine iff_of_true (tidy_step coherent slots moved (fun i same => drops ⟨i, same⟩)
      (fun leaseId action same => revokes ⟨leaseId, action, same⟩)
      (fun update same => updates ⟨update, same⟩) accountId within) ?_
    cases a with
    | drop i => exact absurd ⟨i, rfl⟩ drops
    | revokeLease leaseId action => exact absurd ⟨leaseId, action, rfl⟩ revokes
    | applyPolicyUpdate update => exact absurd ⟨update, rfl⟩ updates
    | _ => exact id

/-- What is kept is kept for local work, and who has none is admitted on its own terms. -/
structure Scoped (s : Server) : Prop where
  overrides : ∀ accountId ∈ s.accountBudgetOverrides, s.accountHasLocalWork accountId = true
  bandwidth : ∀ accountId ∈ s.accountBandwidth, s.accountHasLocalWork accountId = true
  admission : ∀ (c : Connection) (url : String),
    s.accountHasLocalWork c.admission.lease.accountId = false →
      (s.newRegistration c url).budget = c.admission.budget ∧
        s.accountBudget (s.newRegistration c url) = c.admission.budget

theorem scoped_iff_forall : s.Scoped ↔ ∀ accountId, s.ScopedTo accountId := by
  constructor
  · intro all accountId remembered
    rcases remembered with override | schedule
    · exact all.overrides accountId override
    · exact all.bandwidth accountId schedule
  · refine fun all => ⟨fun a member => all a (Or.inl member), fun a member => all a (Or.inr member), ?_⟩
    intro c url idle
    have absent : s.accountBudgetOverrides.lookup c.admission.lease.accountId = none := by
      rw [AList.lookup_eq_none]
      intro member
      rw [all _ (Or.inl member)] at idle
      cases idle
    constructor
    · simp [newRegistration, accountBudgetFor, absent]
    · simp [newRegistration, accountBudget, accountBudgetFor, absent]

/-- **Overrides and byte schedules are for local work, as long as no pending claim is dropped as
the last work of its account.** -/
theorem scoped_iff {config : ServerConfig} {now monotonic : ℚ} {as : List Action}
    (ran : Transition.run step (start config now monotonic) as = some s) :
    (∀ bs cs t, as = bs ++ cs → Transition.run step (start config now monotonic) bs = some t →
      t.Scoped) ↔
    Transition.Along step (fun t a => ∀ accountId, ¬ t.Strands accountId a)
      (start config now monotonic) as := by
  have kept : ∀ (t : Server) a (t' : Server), (t.Coherent ∧ t.Slots) → t.step a = some t' →
      t'.Coherent ∧ t'.Slots :=
    fun _ _ _ held moved => ⟨held.1.step moved, held.2.step held.1 moved⟩
  have exact_ : ∀ (t : Server) a (t' : Server), (t.Coherent ∧ t.Slots) → t.Scoped →
      t.step a = some t' → (t'.Scoped ↔ ∀ accountId, ¬ t.Strands accountId a) := by
    intro t a t' held within moved
    rw [scoped_iff_forall] at within ⊢
    exact forall_congr' fun accountId => scoped_step held.1 held.2 moved (within accountId)
  have empty : (start config now monotonic).Scoped := by
    rw [scoped_iff_forall]
    rintro accountId (override | schedule)
    · exact absurd override (AList.notMem_empty accountId)
    · exact absurd schedule (AList.notMem_empty accountId)
  exact (Transition.along_iff kept exact_
    ⟨coherent_start config now monotonic, slots_start config now monotonic⟩ empty ran).symm

/-- An update that gives account `a` a budget of one visitor. -/
def oneVisitor : PyObject :=
  .policyUpdate (.int 1) (.tuple [])
    (.tuple [.accountBudgetUpdate (.str "a") (.budget (.int 1) .none .none .none)]) (.tuple [])

/-- An update that names no lease revokes none. -/
theorem leaseIds_of_empty {policyVersion version : Int} {budgets : PyObject} {u : PolicyUpdate}
    (valid : validPolicyUpdate policyVersion
      (.policyUpdate (.int version) (.tuple []) budgets (.tuple [])) = some u) : u.leaseIds = [] := by
  simp only [validPolicyUpdate] at valid
  split at valid
  · cases valid
  · simp only [boundedTuple, Option.bind_eq_bind, Option.bind_eq_some_iff, Option.pure_def,
      Option.some.injEq] at valid
    obtain ⟨_, bounded, ids, listed, _, bounded', revocations, listed', _, -, _, -, rfl⟩ := valid
    split at bounded
    · split at bounded'
      · cases bounded
        cases bounded'
        cases listed
        cases listed'
        rfl
      · cases bounded'
    · cases bounded

/-- It is applied while the account serves a label. -/
def served : List Action :=
  .admitTunnel (plainAdmission "a" "first" 1 .none) (some "x") .http .default :: setUp 0 ++
    [.applyPolicyUpdate oneVisitor]

theorem scoped_of_served : ∃ s, Transition.run step (start smallRelay 0 0) served = some s ∧
    s.accountBudgetOverrides.lookup "a" = some ⟨some 1, none, none, none⟩ ∧ s.Scoped := by
  have done : ((Transition.run step (start smallRelay 0 0) served).map fun s =>
      s.accountBudgetOverrides.lookup "a") = some (some ⟨some 1, none, none, none⟩) := by
    decide
  obtain ⟨s, ran, override⟩ := Option.map_eq_some_iff.mp done
  -- the update revokes nothing, and the other steps neither drop nor revoke
  have harmless : ∀ a ∈ served, ∀ t : Server, ∀ accountId, ¬ t.Strands accountId a := by
    intro a member t accountId
    simp only [served, setUp, List.cons_append, List.nil_append, List.mem_cons, List.not_mem_nil,
      or_false] at member
    rcases member with rfl | rfl | rfl | rfl | rfl | rfl | rfl | rfl
    case inr.inr.inr.inr.inr.inr.inr =>
      rintro ⟨u, valid, -, early, leaseId, late, split, -⟩
      rw [leaseIds_of_empty valid] at split
      cases early <;> cases split
    all_goals exact id
  refine ⟨s, ran, override, (scoped_iff ran).mpr ?_ served [] s (List.append_nil _).symm ran⟩
  exact Transition.along_of_forall harmless _

/-- It is applied while the account has a pending claim only, and the event of that claim fails. -/
def stranded : List Action :=
  [.admitTunnel (plainAdmission "a" "first" 1 .none) (some "x") .http .default, .claim 0 fun _ => "",
    .applyPolicyUpdate oneVisitor, .check 0, .opened 0 none, .drop 0,
    .admitTunnel (plainAdmission "a" "second" 1 .none) (some "x") .http .default]

/-- The account has no work left, its override is still there, and the next admission, which
carries no limit, gets it. -/
theorem not_scoped_of_stranded : ∃ s c, Transition.run step (start smallRelay 0 0) stranded = some s ∧
    s.accountHasLocalWork "a" = false ∧ "a" ∈ s.accountBudgetOverrides ∧
    s.connections[1]? = some c ∧ c.admission.lease.accountId = "a" ∧
    c.admission.budget.maxVisitors = none ∧
    (s.newRegistration c "").budget.maxVisitors = some 1 ∧ ¬ s.Scoped := by
  have done : ((Transition.run step (start smallRelay 0 0) stranded).bind fun s =>
      (s.connections[1]?).map fun c => (s.accountHasLocalWork "a",
        s.accountBudgetOverrides.lookup "a", c.admission.lease.accountId, c.admission.budget.maxVisitors,
        (s.newRegistration c "").budget.maxVisitors)) =
      some (false, some ⟨some 1, none, none, none⟩, "a", none, some 1) := by
    decide
  obtain ⟨s, ran, done⟩ := Option.bind_eq_some_iff.mp done
  obtain ⟨c, found, facts⟩ := Option.map_eq_some_iff.mp done
  simp only [Prod.mk.injEq] at facts
  obtain ⟨idle, override, account, unlimited, limited⟩ := facts
  have member : "a" ∈ s.accountBudgetOverrides := by
    rw [← AList.lookup_isSome, override]
    rfl
  refine ⟨s, c, ran, idle, member, found, account, unlimited, limited, fun within => ?_⟩
  have busy := within.overrides "a" member
  rw [idle] at busy
  cases busy

end Server

end Chute
