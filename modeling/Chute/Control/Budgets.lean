import Chute.Control.Leases
import Chute.Control.Update
import Chute.Server.Grants

/-!
# The account budgets of the policy file

A policy file can give an account a budget. The relay applies it once, with the version of the
file, and keeps it as an override that belongs to the account's local work: it is set where the
account has some, and dropped where the account is found without. What connects after that has
the budget of its credential.
-/
namespace Chute

namespace Server

variable {s s' : Server} {i : Nat} {c : Connection} {accountId : String}

/-- An update leaves no override to an account that it names and that has nothing to do. -/
theorem override_idle {update : PyObject} {u : PolicyUpdate}
    (valid : validPolicyUpdate s.policyVersion update = some u)
    (named : accountId ∈ u.accountBudgets.map Prod.fst)
    (idle : (s.applyPolicyUpdate update).2.accountHasLocalWork accountId = false) :
    (s.applyPolicyUpdate update).2.accountBudgetOverrides.lookup accountId = none := by
  rw [applyPolicyUpdate_eq valid] at idle ⊢
  have unique := (validPolicyUpdate_some valid).2.1
  generalize u.revocations.foldl (fun s r => (s.revokeLease r.1 r.2).2) s = t at idle ⊢
  have erased : ∀ (budgets : List (String × Budget)) (t : Server), (budgets.map Prod.fst).Nodup →
      accountId ∈ budgets.map Prod.fst → t.accountHasLocalWork accountId = false →
      (budgets.foldl (fun s b => s.setAccountBudget b.1 b.2) t).accountBudgetOverrides.lookup accountId =
        none := by
    intro budgets
    -- the update names the account once, so what it does there stays
    induction budgets with
    | nil => simp
    | cons b rest ih =>
      intro t unique named idle
      obtain ⟨fresh, unique⟩ := List.nodup_cons.mp unique
      obtain ⟨same, -⟩ := setAccountBudget_overrides t b.1 b.2
      rcases List.mem_cons.mp named with rfl | later
      · obtain ⟨-, -, others⟩ := budgets_overrides unique (t.setAccountBudget b.1 b.2)
        refine (others b.1 fresh).trans ?_
        simp only [setAccountBudget, idle, Bool.false_eq_true, if_false]
        exact AList.lookup_erase b.1 t.accountBudgetOverrides
      · exact ih _ unique later ((same.eq accountId).trans idle)
  obtain ⟨same, -⟩ := budgets_overrides unique t
  exact erased u.accountBudgets t unique named ((same.eq accountId).symm.trans idle)

/-- The last registration of an account that leaves takes its override along. -/
theorem override_deregister {reg : TunnelRegistration} (found : s.connections[i]? = some c)
    (registered : c.registration = some reg) (serves : s.agents.lookup c.label = some i)
    (moved : s.step (.deregister i) = some s') (idle : s'.accountHasLocalWork reg.accountId = false) :
    s'.accountBudgetOverrides.lookup reg.accountId = none := by
  obtain ⟨c', found', moved⟩ := Option.bind_eq_some_iff.mp moved
  rw [found] at found'
  cases found'
  have known : s.registration? i = some reg := by simp [registration?, found, registered]
  split at moved <;> cases moved
  unfold deregisterIfCurrent at idle ⊢
  simp only [serves, known, if_true] at idle ⊢
  generalize ({ s with
    agents := s.agents.erase c.label
    leaseLabels := unindexLeaseLabel s.leaseLabels c.label reg
    accountLabels := s.accountLabels.discard reg.accountId c.label } : Server) = t at idle ⊢
  have same : ∀ phase, SameWork t ((t.dropAccountBandwidthIfIdle reg.accountId).setPhase i phase) := fun phase =>
    (sameWork_dropAccountBandwidthIfIdle t reg.accountId).trans
      ⟨sameAccounts_modifyConnection fun _ _ => rfl, rfl, rfl, rfl, rfl⟩
  rw [(same _).eq] at idle
  show (t.dropAccountBandwidthIfIdle reg.accountId).accountBudgetOverrides.lookup reg.accountId = none
  rw [dropAccountBandwidthIfIdle, idle]
  exact AList.lookup_erase reg.accountId t.accountBudgetOverrides

end Server

open Control

namespace PolicyRelay

variable {sha256 : String → String} {s s' s₁ s₂ : PolicyRelay} {a : Action} {policy : StaticPolicy}
  {accountId : String} {budget : Budget} {u : PolicyUpdate}

/-! ### What the relay is told -/

/-- The answers of a poll are the update of the policy in use, or none. -/
theorem pollPolicyUpdates_answer {plane : StaticPolicyControlPlane} {file : PolicyFile}
    {request : StaticPolicyControlPlane.PolicyUpdateRequest} {update : PyObject} (held : plane.policy = policy)
    (gives : file.Gives (· = policy)) (answered : (plane.pollPolicyUpdates file request).1 = some update) :
    update = .none ∨ ∃ u, policy.policyUpdate = some u ∧ update = policyUpdateObject u := by
  have pruned : (if request.prunes then plane.pruneInactiveLeases request.activeLeaseIds
      else plane).policy = policy := by
    split
    · exact held
    · exact held
  unfold StaticPolicyControlPlane.pollPolicyUpdates at answered
  simp only at answered
  generalize (if request.prunes then plane.pruneInactiveLeases request.activeLeaseIds else plane) = plane'
    at pruned answered
  have loaded := StaticPolicyControlPlane.loadPolicy_gives (P := (· = policy)) pruned gives
  split at answered
  · cases answered
  next used plane'' read =>
    have same : plane''.policy = used := by
      have kept := StaticPolicyControlPlane.loadPolicy_policy (congrArg Prod.fst read)
      rwa [read] at kept
    rw [read] at loaded
    cases same.symm.trans loaded
    split at answered
    · cases answered
      exact Or.inl rfl
    next u updates =>
      split at answered <;> cases answered
      · exact Or.inl rfl
      · exact Or.inr ⟨u, updates, rfl⟩

/-- An answer to a poll was there before, or is that of the call. -/
theorem poll_step (moved : s.step sha256 a = some s') {update : PyObject}
    (answered : s'.poll = .returned (some update)) :
    s.poll = .returned (some update) ∨ ∃ file request, a = .polled file ∧
      (s.plane.pollPolicyUpdates file request).1 = some update := by
  have same : s'.poll = s.poll → s.poll = .returned (some update) := fun same => same.symm.trans answered
  cases a with
  | hello token requestedSubdomain scheme flowWindow =>
    cases moved
    exact Or.inl answered
  | admitTunnel k file leaseId =>
    obtain ⟨h, -, moved⟩ := Option.bind_eq_some_iff.mp moved
    split at moved
    · split at moved <;> cases moved
      exact Or.inl answered
    · cases moved
  | admitted k =>
    obtain ⟨h, -, moved⟩ := Option.bind_eq_some_iff.mp moved
    split at moved <;> cases moved
    refine Or.inl (same ?_)
    unfold resume
    split
    · rfl
    · simp only
      split <;> rfl
  | admitLost k =>
    obtain ⟨h, -, moved⟩ := Option.bind_eq_some_iff.mp moved
    split at moved <;> cases moved
    exact Or.inl answered
  | poll =>
    simp only [step] at moved
    split at moved <;> cases moved
    cases answered
  | polled file =>
    simp only [step] at moved
    split at moved <;> cases moved
    next request asked =>
      simp only [PollPhase.returned.injEq] at answered
      exact Or.inr ⟨file, request, rfl, answered⟩
  | pollApplied =>
    simp only [step] at moved
    split at moved <;> cases moved <;> cases answered
  | pollLost =>
    simp only [step] at moved
    split at moved <;> cases moved
    cases answered
  | renew i file =>
    simp only [step] at moved
    split at moved <;> cases moved
    exact Or.inl answered
  | renewed i =>
    obtain ⟨answer, -, moved⟩ := Option.bind_eq_some_iff.mp moved
    obtain ⟨server, -, rfl⟩ := Option.map_eq_some_iff.mp moved
    exact Or.inl answered
  | renewLost i =>
    obtain ⟨server, -, rfl⟩ := Option.map_eq_some_iff.mp moved
    exact Or.inl answered
  | server b =>
    simp only [step] at moved
    split at moved
    · cases moved
    · obtain ⟨server, -, rfl⟩ := Option.map_eq_some_iff.mp moved
      exact Or.inl answered

/-- What holds all along a run with one policy. -/
structure Fixed (s : PolicyRelay) (policy : StaticPolicy) : Prop where
  coherent : s.server.Coherent
  fresh : s.server.Fresh
  own : s.server.OwnBudgets
  titled : s.server.Titled
  backed : s.Backed (· ∈ policy.credentials)
  used : s.plane.policy = policy
  polled : ∀ update, s.poll = .returned (some update) →
    update = .none ∨ ∃ u, policy.policyUpdate = some u ∧ update = policyUpdateObject u

theorem fixed_start (config : ServerConfig) (now monotonic : ℚ) (plane : StaticPolicyControlPlane) :
    (start config now monotonic plane).Fixed plane.policy where
  coherent := Server.coherent_start config now monotonic
  fresh := Server.fresh_start config now monotonic
  own := Server.ownBudgets_start config now monotonic
  titled := Server.titled_start config now monotonic
  backed := backed_start config now monotonic fun _ => id
  used := rfl
  polled := nofun

theorem Fixed.step (fixed : s.Fixed policy) (unchanged : ∀ file, a.file = some file → file.Gives (· = policy))
    (moved : s.step sha256 a = some s') : s'.Fixed policy where
  coherent := by
    rcases step_server moved with alone | ⟨b, -, stepped⟩
    · exact alone ▸ fixed.coherent
    · exact fixed.coherent.step stepped
  fresh := by
    rcases step_server moved with alone | ⟨b, -, stepped⟩
    · exact alone ▸ fixed.fresh
    · exact fixed.fresh.step stepped
  own := by
    rcases step_server moved with alone | ⟨b, -, stepped⟩
    · exact alone ▸ fixed.own
    · exact fixed.own.step fixed.coherent fixed.fresh stepped
  titled := by
    rcases step_server moved with alone | ⟨b, -, stepped⟩
    · exact alone ▸ fixed.titled
    · exact fixed.titled.step stepped
  backed := fixed.backed.step moved fun file reads fingerprint text policy' snapshot parsed => by
    rw [unchanged file reads fingerprint text policy' snapshot parsed]
    exact fun _ => id
  used := by
    have called := step_plane moved
    generalize s'.plane = plane at called
    cases called with
    | admitTunnel k file leaseId h found waiting named fresh =>
      exact StaticPolicyControlPlane.admitTunnel_gives (P := (· = policy)) fixed.used (unchanged file rfl)
        sha256 h.token leaseId _
    | polled file request asked =>
      exact StaticPolicyControlPlane.pollPolicyUpdates_gives (P := (· = policy)) fixed.used
        (unchanged file rfl) request
    | renew i file reg request renewing asked =>
      exact StaticPolicyControlPlane.renewLease_gives (P := (· = policy)) fixed.used
        (unchanged file rfl) request _
    | idle unread => exact fixed.used
  polled := by
    intro update answered
    rcases poll_step moved answered with before | ⟨file, request, rfl, own⟩
    · exact fixed.polled update before
    · exact pollPolicyUpdates_answer fixed.used (unchanged file rfl) own

theorem fixed_run (fixed : s.Fixed policy) {as : List Action}
    (unchanged : ∀ a ∈ as, ∀ file, a.file = some file → file.Gives (· = policy))
    (ran : Transition.run (step sha256) s as = some s') : s'.Fixed policy :=
  have steps : ∀ (t : PolicyRelay) a t', t.Fixed policy → (∀ file, Action.file a = some file → file.Gives (· = policy)) →
      t.step sha256 a = some t' → t'.Fixed policy := fun _ _ _ fixed unchanged moved => fixed.step unchanged moved
  Transition.run_invariant steps fixed (Transition.along_of_forall (fun a member _ => unchanged a member) s) ran

/-! ### After the version of the file has been applied -/

/-- The version is applied once: every later step leaves the overrides, or drops those of idle accounts. -/
theorem Fixed.settles_step (fixed : s.Fixed policy) (updates : policy.policyUpdate = some u)
    (applied : s.server.policyVersion = u.version) (moved : s.step sha256 a = some s') :
    Server.Settles s.server s'.server := by
  rcases step_server moved with alone | ⟨b, carries, stepped⟩
  · rw [alone]
    exact .refl _
  · by_cases again : ∃ update, b = .applyPolicyUpdate update
    · obtain ⟨update, rfl⟩ := again
      have rejected : validPolicyUpdate s.server.policyVersion update = none := by
        cases carries with
        | pollApplied update answered =>
          rcases fixed.polled update answered with rfl | ⟨u', same, rfl⟩
          · rfl
          · cases updates.symm.trans same
            exact validPolicyUpdate_older applied.ge _ _ _
        | server b own => cases own
      have same : (s.server.applyPolicyUpdate update).2 = s'.server := Option.some.inj stepped
      rw [← same, Server.applyPolicyUpdate, rejected]
      exact .of_eq rfl rfl
    · exact fixed.coherent.settles_step stepped fun update same => again ⟨update, same⟩

/-- The policy of the file is in use, and its version has been applied. -/
structure InForce (s : PolicyRelay) (policy : StaticPolicy) (u : PolicyUpdate) : Prop extends s.Fixed policy where
  updates : policy.policyUpdate = some u
  version : s.server.policyVersion = u.version

theorem InForce.settles (inForce : s.InForce policy u) (moved : s.step sha256 a = some s') :
    Server.Settles s.server s'.server :=
  inForce.toFixed.settles_step inForce.updates inForce.version moved

theorem InForce.step (inForce : s.InForce policy u)
    (unchanged : ∀ file, a.file = some file → file.Gives (· = policy))
    (moved : s.step sha256 a = some s') : s'.InForce policy u :=
  ⟨inForce.toFixed.step unchanged moved, inForce.updates,
    (inForce.settles moved).version.trans inForce.version⟩

theorem InForce.run (inForce : s.InForce policy u) {as : List Action}
    (unchanged : ∀ a ∈ as, ∀ file, a.file = some file → file.Gives (· = policy))
    (ran : Transition.run (PolicyRelay.step sha256) s as = some s') : s'.InForce policy u := by
  induction as generalizing s with
  | nil =>
    cases ran
    exact inForce
  | cons a as ih =>
    obtain ⟨t, moved, rest⟩ := Transition.run_cons_iff.mp ran
    have later := inForce.step (unchanged a List.mem_cons_self) moved
    exact ih later (fun b member => unchanged b (List.mem_cons_of_mem _ member)) rest

/-- The account has local work after the step. -/
def KeepsBusy (sha256 : String → String) (accountId : String) (t : PolicyRelay) (a : Action) : Prop :=
  ∀ t', t.step sha256 a = some t' → t'.server.accountHasLocalWork accountId = true

/-- An override stays while the account has local work. -/
theorem InForce.overridden_run (inForce : s.InForce policy u) {as : List Action}
    (unchanged : ∀ a ∈ as, ∀ file, a.file = some file → file.Gives (· = policy))
    (busy : Transition.Along (PolicyRelay.step sha256) (KeepsBusy sha256 accountId) s as)
    (held : s.server.accountBudgetOverrides.lookup accountId = some budget)
    (ran : Transition.run (PolicyRelay.step sha256) s as = some s') :
    s'.server.accountBudgetOverrides.lookup accountId = some budget := by
  induction as generalizing s with
  | nil =>
    cases ran
    exact held
  | cons a as ih =>
    obtain ⟨t, moved, rest⟩ := Transition.run_cons_iff.mp ran
    have later := inForce.step (unchanged a List.mem_cons_self) moved
    refine ih later (fun b member => unchanged b (List.mem_cons_of_mem _ member)) (busy.2 t moved) ?_ rest
    rcases (inForce.settles moved).overrides accountId with same | ⟨-, idle⟩
    · exact same.trans held
    · rw [busy.1 t moved] at idle
      cases idle

/-- An override that is not there does not come back. -/
theorem InForce.free_run (inForce : s.InForce policy u) {as : List Action}
    (unchanged : ∀ a ∈ as, ∀ file, a.file = some file → file.Gives (· = policy))
    (free : s.server.accountBudgetOverrides.lookup accountId = none)
    (ran : Transition.run (PolicyRelay.step sha256) s as = some s') :
    s'.server.accountBudgetOverrides.lookup accountId = none := by
  induction as generalizing s with
  | nil =>
    cases ran
    exact free
  | cons a as ih =>
    obtain ⟨t, moved, rest⟩ := Transition.run_cons_iff.mp ran
    have later := inForce.step (unchanged a List.mem_cons_self) moved
    refine ih later (fun b member => unchanged b (List.mem_cons_of_mem _ member)) ?_ rest
    rcases (inForce.settles moved).overrides accountId with same | ⟨dropped, -⟩
    · exact same.trans free
    · exact dropped

/-- Without an override, a registration that is pending or active has the budget of its credential. -/
theorem Fixed.credential_budget (fixed : s.Fixed policy) {i : Nat} {reg : Server.TunnelRegistration}
    (held : s.server.Held i) (known : s.server.registration? i = some reg)
    (free : s.server.accountBudgetOverrides.lookup reg.accountId = none) :
    ∃ c ∈ policy.credentials, reg.credentialId = some c.credentialId ∧ s.server.accountBudget reg = c.budget := by
  obtain ⟨conn, found, registered⟩ := Option.bind_eq_some_iff.mp known
  obtain ⟨-, credential, -⟩ := fixed.titled i conn reg found registered
  obtain ⟨c, leaseId, expires, backs, same⟩ := fixed.backed.connections conn.hello
    (List.mem_map_of_mem (List.mem_of_getElem? found))
  have admission : conn.admission = c.admission leaseId expires := same
  refine ⟨c, backs.has, by rw [credential, admission]; rfl, ?_⟩
  rw [Server.accountBudget, Server.accountBudgetFor, free, fixed.own i conn reg held found registered free,
    admission]
  rfl

/-- The step that applies the version of the file. -/
theorem Fixed.applies (fixed : s.Fixed policy) (updates : policy.policyUpdate = some u)
    (wellFormed : WellFormedUpdate u) (moved : s.step sha256 .pollApplied = some s₁)
    (applied : s₁.server.policyVersion ≠ s.server.policyVersion) :
    validPolicyUpdate s.server.policyVersion (policyUpdateObject u) = some u ∧
      s₁.server = (s.server.applyPolicyUpdate (policyUpdateObject u)).2 := by
  simp only [PolicyRelay.step] at moved
  split at moved <;> cases moved
  · exact absurd rfl applied
  · exact absurd rfl applied
  next update _ answered =>
    rcases fixed.polled update answered with rfl | ⟨u', same, rfl⟩
    · exact absurd rfl applied
    · cases updates.symm.trans same
      refine ⟨?_, rfl⟩
      by_cases newer : s.server.policyVersion < u.version
      · exact validPolicyUpdate_object wellFormed newer
      · have rejected : validPolicyUpdate s.server.policyVersion (policyUpdateObject u) = none :=
          validPolicyUpdate_older (not_lt.mp newer) _ _ _
        simp only [Server.applyPolicyUpdate, rejected] at applied
        exact absurd rfl applied

/-- **The budget of the file is in force while the account has local work without a break, and the
budgets of the credentials once the relay has no override for it.** -/
theorem account_budget_of_run {config : ServerConfig} {now monotonic : ℚ} {file : PolicyFile}
    {plane : StaticPolicyControlPlane} (created : StaticPolicyControlPlane.create file = some plane)
    (updates : plane.policy.policyUpdate = some u) (named : (accountId, budget) ∈ u.accountBudgets)
    {as bs : List Action}
    (unchanged : ∀ a ∈ as ++ .pollApplied :: bs, ∀ file', a.file = some file' → file'.Gives (· = plane.policy))
    (ran : Transition.run (step sha256) (start config now monotonic plane) as = some s)
    (moved : s.step sha256 .pollApplied = some s₁)
    (applied : s₁.server.policyVersion ≠ s.server.policyVersion)
    (later : Transition.run (step sha256) s₁ bs = some s₂) :
    s₁.server.policyVersion = u.version ∧ s₂.server.policyVersion = u.version ∧
    (s₁.server.accountHasLocalWork accountId = true →
      Transition.Along (step sha256) (KeepsBusy sha256 accountId) s₁ bs →
        ∀ i reg, s₂.server.registration? i = some reg → reg.accountId = accountId →
          s₂.server.accountBudget reg = budget) ∧
    (∀ cs ds t, bs = cs ++ ds → Transition.run (step sha256) s₁ cs = some t →
      t.server.accountBudgetOverrides.lookup accountId = none →
        ∀ i reg, s₂.server.Held i → s₂.server.registration? i = some reg → reg.accountId = accountId →
          ∃ c ∈ plane.policy.credentials, reg.credentialId = some c.credentialId ∧
            s₂.server.accountBudget reg = c.budget) ∧
    (s₁.server.accountHasLocalWork accountId = false →
      s₁.server.accountBudgetOverrides.lookup accountId = none) ∧
    ∀ (t t' : PolicyRelay) i c reg, t.step sha256 (.server (.deregister i)) = some t' →
      t.server.connections[i]? = some c → c.registration = some reg → reg.accountId = accountId →
        t.server.agents.lookup c.label = some i → t'.server.accountHasLocalWork accountId = false →
          t'.server.accountBudgetOverrides.lookup accountId = none := by
  obtain ⟨_, text, -, parsed, -⟩ := StaticPolicyControlPlane.create_snapshot created
  have wellFormed := parseStaticPolicyText_update parsed updates
  have early : ∀ a ∈ as, ∀ file', a.file = some file' → file'.Gives (· = plane.policy) :=
    fun a member => unchanged a (List.mem_append_left _ member)
  have late : ∀ a ∈ bs, ∀ file', a.file = some file' → file'.Gives (· = plane.policy) :=
    fun a member => unchanged a (List.mem_append_right _ (List.mem_cons_of_mem _ member))
  have fixed : s.Fixed plane.policy := fixed_run (fixed_start config now monotonic plane) early ran
  obtain ⟨valid, same⟩ := fixed.applies updates wellFormed moved applied
  have fixed₁ : s₁.Fixed plane.policy := fixed.step (fun _ reads => by cases reads) moved
  have inForce : s₁.InForce plane.policy u :=
    ⟨fixed₁, updates, by rw [same, Server.applyPolicyUpdate_eq valid]⟩
  have inForce₂ := inForce.run late later
  refine ⟨inForce.version, inForce₂.version, ?_, ?_, ?_, ?_⟩
  · intro busy along i reg known account
    have held := Server.override_applied valid named (same ▸ busy)
    rw [← same] at held
    have held₂ := inForce.overridden_run late along held later
    rw [Server.accountBudget, Server.accountBudgetFor, account, held₂]
    rfl
  · rintro cs ds t rfl middle free i reg held known account
    rw [Transition.run_append middle] at later
    have inForceₜ := inForce.run (fun a member => late a (List.mem_append_left _ member)) middle
    have free₂ := inForceₜ.free_run (fun a member => late a (List.mem_append_right _ member)) free later
    exact inForce₂.toFixed.credential_budget held known (account ▸ free₂)
  · intro idle
    rw [same] at idle ⊢
    exact Server.override_idle valid (List.mem_map_of_mem named) idle
  · rintro t t' i c reg moved found registered rfl serves idle
    simp only [step, fromPlane, Bool.false_eq_true, if_false] at moved
    obtain ⟨server, stepped, rfl⟩ := Option.map_eq_some_iff.mp moved
    exact Server.override_deregister found registered serves stepped idle

/-- A policy with a budget for the account of its only credential. -/
def budgetedFile : PolicyFile := .snapshot (1, 2, 3, 4, 5) updatingText

/-- An agent of the account is admitted and claims a label. -/
def connects : List Action :=
  [.hello (PyStr.ofString "alpha") (some "x") .http .default, .admitTunnel 0 budgetedFile "first",
    .admitted 0, .server (.claim 0 fun _ => "")]

private theorem budgetedFile_gives {plane : StaticPolicyControlPlane}
    (created : StaticPolicyControlPlane.create budgetedFile = some plane) {as : List Action}
    (reads : ∀ a ∈ as, a.file = none ∨ a.file = some budgetedFile) :
    ∀ a ∈ as, ∀ file, a.file = some file → file.Gives (· = plane.policy) := by
  intro a member file read
  rcases reads a member with none_ | same
  · rw [none_] at read
    cases read
  · rw [same] at read
    cases read
    exact StaticPolicyControlPlane.create_gives created

private theorem connects_reads : ∀ a ∈ connects ++ [.poll, .polled budgetedFile, .pollApplied],
    a.file = none ∨ a.file = some budgetedFile := by
  intro a member
  simp only [connects, List.cons_append, List.nil_append, List.mem_cons, List.not_mem_nil, or_false] at member
  rcases member with rfl | rfl | rfl | rfl | rfl | rfl | rfl
  all_goals first | exact Or.inl rfl | exact Or.inr rfl

/-- The update finds the account at work. -/
theorem account_budget_of_connected : ∃ plane s s₁ reg,
    StaticPolicyControlPlane.create budgetedFile = some plane ∧
      Transition.run (step leasingDigest) (start Server.smallRelay 0 0 plane)
        (connects ++ [.poll, .polled budgetedFile]) = some s ∧
      s.step leasingDigest .pollApplied = some s₁ ∧ s₁.server.policyVersion = 7 ∧
      s₁.server.registration? 0 = some reg ∧ reg.accountId = "a" ∧
      s₁.server.accountBudget reg = ⟨some 16, none, none, none⟩ := by
  have done : ((StaticPolicyControlPlane.create budgetedFile).bind fun plane =>
      (Transition.run (step leasingDigest) (start Server.smallRelay 0 0 plane)
        (connects ++ [.poll, .polled budgetedFile])).bind fun s =>
          (s.step leasingDigest .pollApplied).map fun s₁ => (plane.policy.policyUpdate,
            s.server.policyVersion, s₁.server.policyVersion, s₁.server.accountHasLocalWork "a",
            (s₁.server.registration? 0).map (·.accountId))) =
      some (some ⟨7, [], [("a", ⟨some 16, none, none, none⟩)], [("l", .close)]⟩, 0, 7, true, some "a") := by
    decide
  obtain ⟨plane, created, done⟩ := Option.bind_eq_some_iff.mp done
  obtain ⟨s, ran, done⟩ := Option.bind_eq_some_iff.mp done
  obtain ⟨s₁, moved, facts⟩ := Option.map_eq_some_iff.mp done
  simp only [Prod.mk.injEq] at facts
  obtain ⟨updates, older, version, busy, owner⟩ := facts
  obtain ⟨reg, known, account⟩ := Option.map_eq_some_iff.mp owner
  have applied : s₁.server.policyVersion ≠ s.server.policyVersion := by
    rw [older, version]
    decide
  have unchanged : ∀ a ∈ connects ++ [.poll, .polled budgetedFile] ++ .pollApplied :: [], ∀ file',
      a.file = some file' → file'.Gives (· = plane.policy) := by
    rw [List.append_assoc]
    exact budgetedFile_gives created connects_reads
  have nothing : Transition.run (step leasingDigest) s₁ [] = some s₁ := rfl
  obtain ⟨-, -, inForce, -⟩ := account_budget_of_run created updates List.mem_cons_self unchanged ran moved
    applied nothing
  exact ⟨plane, s, s₁, reg, created, ran, moved, version, known, account, inForce busy trivial 0 reg known account⟩

/-- The update finds the account without work, and what connects afterwards has the budget of its
credential. -/
theorem not_account_budget_of_idle : ∃ plane u s₁ s₂ reg,
    StaticPolicyControlPlane.create budgetedFile = some plane ∧ plane.policy.policyUpdate = some u ∧
      ("a", (⟨some 16, none, none, none⟩ : Budget)) ∈ u.accountBudgets ∧
      (∀ a ∈ [Action.poll, .polled budgetedFile, .pollApplied] ++ connects, ∀ file,
        a.file = some file → file.Gives (· = plane.policy)) ∧
      Transition.run (step leasingDigest) (start Server.smallRelay 0 0 plane)
        [.poll, .polled budgetedFile, .pollApplied] = some s₁ ∧ s₁.server.policyVersion = u.version ∧
      Transition.run (step leasingDigest) s₁ connects = some s₂ ∧ s₂.server.Held 0 ∧
      s₂.server.registration? 0 = some reg ∧ reg.accountId = "a" ∧
      s₂.server.accountBudget reg = ⟨none, none, none, none⟩ := by
  have done : ((StaticPolicyControlPlane.create budgetedFile).bind fun plane =>
      (Transition.run (step leasingDigest) (start Server.smallRelay 0 0 plane)
        [.poll, .polled budgetedFile, .pollApplied]).bind fun s₁ =>
          (Transition.run (step leasingDigest) s₁ connects).map fun s₂ => (plane.policy.policyUpdate,
            s₁.server.policyVersion, decide (s₂.server.pendingAgents.lookup "x" = some 0),
            (s₂.server.registration? 0).map fun reg => (reg.accountId, s₂.server.accountBudget reg))) =
      some (some ⟨7, [], [("a", ⟨some 16, none, none, none⟩)], [("l", .close)]⟩, 7, true,
        some ("a", ⟨none, none, none, none⟩)) := by
    decide
  obtain ⟨plane, created, done⟩ := Option.bind_eq_some_iff.mp done
  obtain ⟨s₁, ran, done⟩ := Option.bind_eq_some_iff.mp done
  obtain ⟨s₂, later, facts⟩ := Option.map_eq_some_iff.mp done
  simp only [Prod.mk.injEq, decide_eq_true_eq] at facts
  obtain ⟨updates, version, pending, owner⟩ := facts
  obtain ⟨reg, known, parts⟩ := Option.map_eq_some_iff.mp owner
  simp only [Prod.mk.injEq] at parts
  refine ⟨plane, _, s₁, s₂, reg, created, updates, List.mem_cons_self, ?_, ran, version, later,
    ⟨"x", Or.inr pending⟩, known, parts.1, parts.2⟩
  apply budgetedFile_gives created
  intro a member
  apply connects_reads a
  rcases List.mem_append.mp member with first | second
  · exact List.mem_append_right _ first
  · exact List.mem_append_left _ second

end PolicyRelay

end Chute
