import Chute.Server.Courses
import Chute.Server.Scope

/-!
# The budget that a registration was given

A claim gives its registration the override of its account or, without one, the budget it was
admitted with. Only a policy update changes the budget of a registration afterwards, and it
leaves an override. So while an account has no override, each registration that is pending or
active has the budget of its admission.
-/
namespace Chute

namespace Server

variable {s s' s'' : Server} {i : Nat}

/-- What a registration is granted by its claim. -/
def TunnelRegistration.grant (reg : TunnelRegistration) : String × Budget × Config :=
  (reg.accountId, reg.budget, reg.mux.config)

/-- What a connection came with, and what its registration was granted. -/
def Connection.grant (c : Connection) :
    (Option String × Scheme × TunnelAdmission × FlowWindow) × Option (String × Budget × Config) :=
  (c.hello, c.registration.map TunnelRegistration.grant)

/-- No registration gets another account, budget or flow window. -/
def Grants (s s' : Server) : Prop :=
  s'.connections.map Connection.grant = s.connections.map Connection.grant

/-- What is granted does not depend on the label. -/
theorem Keeps.grants (keeps : Keeps TunnelRegistration.grant s s') : Grants s s' := by
  have same := congrArg (List.map fun b : ((Option String × Scheme × TunnelAdmission × FlowWindow) ×
    String) × Option (String × Budget × Config) => (b.1.1, b.2)) keeps
  have parts : Connection.grant = fun c => (c.hello, c.registration.map TunnelRegistration.grant) := rfl
  rw [Grants, parts]
  simpa [Function.comp_def, Connection.part] using same

theorem steady_grant : Steady TunnelRegistration.grant :=
  ⟨fun _ _ => rfl, fun _ _ same => by simp only [TunnelRegistration.grant, same]⟩

/-- A registration after the step was there before, with the same budget. -/
theorem Grants.found (grants : Grants s s') {c' : Connection} {reg' : TunnelRegistration}
    (here : s'.connections[i]? = some c') (registered : c'.registration = some reg') :
    ∃ c reg, s.connections[i]? = some c ∧ c.registration = some reg ∧ c.hello = c'.hello ∧
      reg.grant = reg'.grant := by
  have same := congrArg (·[i]?) grants
  simp only [List.getElem?_map, here, Option.map_some] at same
  obtain ⟨c, before, equal⟩ := Option.map_eq_some_iff.mp same.symm
  have granted := congrArg Prod.snd equal
  simp only [Connection.grant, registered, Option.map_some] at granted
  obtain ⟨reg, registered, parts⟩ := Option.map_eq_some_iff.mp granted
  exact ⟨c, reg, before, registered, congrArg Prod.fst equal, parts⟩

/-- **Only a claim gives a registration its budget, and only a policy update another one.** -/
theorem step_grants {a : Action} (moved : s.step a = some s')
    (unclaimed : ∀ i phrases, a ≠ .claim i phrases)
    (admits : ∀ admission requested scheme window, a ≠ .admitTunnel admission requested scheme window)
    (other : ∀ update, a ≠ .applyPolicyUpdate update) : Grants s s' :=
  (step_keeps steady_grant moved unclaimed admits (fun _ _ _ _ _ _ _ => rfl)
    fun update same => absurd same (other update)).grants

/-! ### The invariant -/

/-- Without an override, a registration that is pending or active has the budget that its
connection was admitted with. -/
def OwnBudgets (s : Server) : Prop :=
  ∀ i c reg, s.Held i → s.connections[i]? = some c → c.registration = some reg →
    s.accountBudgetOverrides.lookup reg.accountId = none → reg.budget = c.admission.budget

theorem ownBudgets_start (config : ServerConfig) (now monotonic : ℚ) :
    (start config now monotonic).OwnBudgets := by
  intro i c reg held found
  simp [start] at found

theorem Coherent.busy_of_held (coherent : s.Coherent) (held : s.Held i) {reg : TunnelRegistration}
    (known : s.registration? i = some reg) : s.accountHasLocalWork reg.accountId = true :=
  coherent.busy_iff.mpr (Or.inr (Or.inr ⟨i, held, (coherent.linked i reg known).1, id⟩))

/-- A registration that is pending or active was so before, or its connection was claimed. -/
theorem Coherent.held_step (coherent : s.Coherent) {a : Action} (moved : s.step a = some s') {c : Connection}
    (found : s.connections[i]? = some c) (claimed : c.phase ≠ .admitted) (held : s'.Held i) : s.Held i := by
  by_contra out
  obtain ⟨-, ms, runs, -⟩ := step_follows coherent moved
  have gone : s.roster.Gone i := by
    constructor
    · refine ⟨c.phase.stage c.label, by simp [Roster.stage, roster, found, Connection.entry], fun waiting => ?_⟩
      exact claimed (stage_eq_waiting_iff.mp waiting)
    · exact fun label serves => out ⟨label, Or.inl serves⟩
    · exact fun label holds => out ⟨label, Or.inr holds⟩
  obtain ⟨label, serves | holds⟩ := held
  · exact (gone.runs runs).inactive label serves
  · exact (gone.runs runs).dropped label holds

/-- A change that grants nothing, brings no registration in and drops no override of a registration. -/
theorem OwnBudgets.grants (own : s.OwnBudgets) (grants : Grants s s')
    (before : ∀ i c reg, s'.Held i → s.connections[i]? = some c → c.registration = some reg →
      s'.accountBudgetOverrides.lookup reg.accountId = none →
        s.Held i ∧ s.accountBudgetOverrides.lookup reg.accountId = none) : s'.OwnBudgets := by
  intro i c' reg' held here registered' free
  obtain ⟨c, reg, found, registered, hello, grant⟩ := grants.found here registered'
  have account : reg.accountId = reg'.accountId := congrArg Prod.fst grant
  have budget : reg.budget = reg'.budget := congrArg (fun grant => grant.2.1) grant
  rw [← account] at free
  obtain ⟨held, free⟩ := before i c reg held found registered free
  rw [← budget, own i c reg held found registered free]
  exact congrArg (fun hello => hello.2.2.1.budget) hello

/-- The registration that a claim builds has the budget of its admission, unless there is an override. -/
theorem OwnBudgets.enterPending (own : s.OwnBudgets) {c : Connection} (found : s.connections[i]? = some c)
    (label url : String) : (s.enterPending i label (s.newRegistration c url)).OwnBudgets := by
  intro j c' reg held here registered free
  simp only [Server.enterPending, modifyConnection, List.getElem?_modify] at here
  obtain ⟨old, there, rfl⟩ := Option.map_eq_some_iff.mp here
  by_cases same : i = j
  · subst same
    rw [found] at there
    cases there
    simp only [if_true] at registered ⊢
    cases registered
    have absent : s.accountBudgetOverrides.lookup c.admission.lease.accountId = none := free
    simp only [newRegistration, accountBudgetFor, absent, Option.getD_none]
  · simp only [if_neg same] at registered ⊢
    refine own j old reg ?_ there registered free
    obtain ⟨label', serves | holds⟩ := held
    · exact ⟨label', Or.inl serves⟩
    · refine ⟨label', Or.inr ?_⟩
      by_cases entered : label' = label
      · subst entered
        have holds : some i = some j := (AList.lookup_insert _).symm.trans holds
        exact absurd (Option.some.inj holds) same
      · exact (AList.lookup_insert_ne entered).symm.trans holds

theorem OwnBudgets.claim (own : s.OwnBudgets) {c : Connection} (found : s.connections[i]? = some c)
    (phrases : Fin 100 → String) : (s.claim i c phrases).OwnBudgets := by
  obtain ⟨reconnects, ends⟩ := claim_cases s i c phrases
  have noted : ({ s with accountReconnects := reconnects } : Server).OwnBudgets := own
  rcases ends with ⟨r, -, same⟩ | ⟨label, url, -, same⟩
  · rw [same]
    exact noted.grants (keeps_setPhase _ i _).grants fun _ _ _ held _ _ free => ⟨held, free⟩
  · rw [same]
    exact OwnBudgets.enterPending noted found label url

theorem OwnBudgets.applyPolicyUpdate (own : s.OwnBudgets) (coherent : s.Coherent) (fresh : s.Fresh)
    (update : PyObject) : (s.applyPolicyUpdate update).2.OwnBudgets := by
  cases valid : validPolicyUpdate s.policyVersion update with
  | none =>
    unfold Server.applyPolicyUpdate
    rw [valid]
    exact own
  | some u =>
    intro i c' reg' held here registered' free
    have moved : s.step (.applyPolicyUpdate update) = some (s.applyPolicyUpdate update).2 := rfl
    have known' : (s.applyPolicyUpdate update).2.registration? i = some reg' := by
      simp [registration?, here, registered']
    have busy := (coherent.step moved).busy_of_held held known'
    have hellos := congrArg (·[i]?) (hellos_step moved (by simp))
    simp only [List.getElem?_map, here, Option.map_some] at hellos
    obtain ⟨c, found, hello⟩ := Option.map_eq_some_iff.mp hellos.symm
    rw [applyPolicyUpdate_eq valid] at free busy known'
    have coherent₁ : (u.revocations.foldl (fun s r => (s.revokeLease r.1 r.2).2) s).Coherent :=
      (follows_revocations s u.revocations (fun r member => List.mem_map_of_mem member) coherent
        rfl).coherent
    have settles : Settles s (u.revocations.foldl (fun s r => (s.revokeLease r.1 r.2).2) s) :=
      (clears_foldl (fun t (r : String × RevocationAction) => clears_revokeLease t r.1 r.2)
        u.revocations s).toSettles
    have revoked : Grants s (u.revocations.foldl (fun s r => (s.revokeLease r.1 r.2).2) s) :=
      (Keeps.foldl (fun t (r : String × RevocationAction) => keeps_revokeLease steady_grant t r.1 r.2)
        u.revocations s).grants
    generalize u.revocations.foldl (fun s r => (s.revokeLease r.1 r.2).2) s = t at *
    obtain ⟨same, set, others⟩ := budgets_overrides (validPolicyUpdate_some valid).2.1 t
    have working : t.accountHasLocalWork reg'.accountId = true := (same.eq _).symm.trans busy
    -- the update overrides the budgets of the accounts it names, so this account is not one of them
    have absent : reg'.accountId ∉ u.accountBudgets.map Prod.fst := by
      intro named
      obtain ⟨b, member, account⟩ := List.mem_map.mp named
      have overridden := set b.1 b.2 member (account ▸ working)
      rw [account] at overridden
      cases free.symm.trans overridden
    have quiet := (quiet_budgets t u).identity i
    obtain ⟨reg, known, identity⟩ := Option.map_eq_some_iff.mp
      (quiet.symm.trans (congrArg (Option.map TunnelRegistration.identity) known'))
    have account : reg.accountId = reg'.accountId := congrArg Prod.fst identity
    cases (coherent₁.registration_budgets known (account ▸ absent)).symm.trans known'
    obtain ⟨d, between, registered⟩ := Option.bind_eq_some_iff.mp known
    obtain ⟨c₀, reg₀, found₀, registered₀, -, grant₀⟩ := revoked.found between registered
    have account₀ : reg₀.accountId = reg'.accountId := congrArg Prod.fst grant₀
    have budget₀ : reg₀.budget = reg'.budget := congrArg (fun grant => grant.2.1) grant₀
    rw [found] at found₀
    cases found₀
    have kept : s.accountBudgetOverrides.lookup reg'.accountId = none := by
      rcases settles.overrides reg'.accountId with kept | ⟨-, idle⟩
      · exact kept.symm.trans ((others reg'.accountId absent).symm.trans free)
      · rw [working] at idle
        cases idle
    have stayed := coherent.held_step moved found (fresh.claimed found registered₀) held
    rw [← budget₀, own i c reg₀ stayed found registered₀ (account₀ ▸ kept)]
    exact congrArg (fun hello => hello.2.2.1.budget) hello

/-- **While an account has no override, its registrations have the budgets they were admitted
with.** -/
theorem OwnBudgets.step (own : s.OwnBudgets) (coherent : s.Coherent) (fresh : s.Fresh) {a : Action}
    (moved : s.step a = some s') : s'.OwnBudgets := by
  by_cases policy : ∃ update, a = .applyPolicyUpdate update
  · obtain ⟨update, rfl⟩ := policy
    cases moved
    exact own.applyPolicyUpdate coherent fresh update
  by_cases claims : ∃ i phrases, a = .claim i phrases
  · obtain ⟨i, phrases, rfl⟩ := claims
    obtain ⟨c, found, moved⟩ := Option.bind_eq_some_iff.mp moved
    split at moved <;> cases moved
    exact own.claim found phrases
  by_cases admits : ∃ admission requested scheme window, a = .admitTunnel admission requested scheme window
  · obtain ⟨admission, requested, scheme, window, rfl⟩ := admits
    obtain ⟨valid, -, rfl⟩ := Option.map_eq_some_iff.mp moved
    intro i c reg held found registered free
    simp only [List.getElem?_append] at found
    split at found
    · exact own i c reg held found registered free
    · have last := List.mem_of_getElem? found
      rw [List.mem_singleton] at last
      subst last
      cases registered
  · have coherent' := coherent.step moved
    have grants := step_grants moved (fun i phrases same => claims ⟨i, phrases, same⟩)
      (fun admission requested scheme window same => admits ⟨_, _, _, _, same⟩)
      fun update same => policy ⟨update, same⟩
    have settles := coherent.settles_step moved fun update same => policy ⟨update, same⟩
    refine own.grants grants fun i c reg held found registered free => ?_
    refine ⟨coherent.held_step moved found (fresh.claimed found registered) held, ?_⟩
    obtain ⟨c', reg', here, registered', -, grant⟩ := Grants.found grants.symm found registered
    have account : reg'.accountId = reg.accountId := congrArg Prod.fst grant
    have busy := coherent'.busy_of_held held (show s'.registration? i = some reg' by
      simp [registration?, here, registered'])
    rcases settles.overrides reg.accountId with kept | ⟨-, idle⟩
    · rw [← kept]
      exact free
    · rw [← account, busy] at idle
      cases idle

end Server

end Chute
