import Chute.Server.Coherence

/-!
# Budget overrides

A policy update overrides the budget of an account, and the override goes when the account
is found without local work. Between two updates a step can therefore only drop overrides,
and only of accounts that are idle when the step is over.
-/
namespace Chute

namespace Server

variable {s s' s'' : Server} {i : Nat}

/-! ### Local work -/

theorem accountHasLocalWork_iff {accountId : String} :
    s.accountHasLocalWork accountId = true ↔
      accountId ∈ s.accountLabels ∨ 0 < s.accountActiveStreams accountId ∨
        0 < s.accountBuffered accountId ∨
        ∃ label, s.Maps s.pendingAgents label fun reg => reg.accountId = accountId := by
  unfold accountHasLocalWork
  simp only [Bool.or_eq_true, decide_eq_true_eq, List.any_eq_true, Option.any_eq_true, beq_iff_eq,
    or_assoc]
  refine or_congr_right (or_congr_right (or_congr_right ⟨?_, ?_⟩))
  · rintro ⟨e, member, reg, found, account⟩
    exact ⟨e.1, e.2, reg, AList.mem_lookup_iff.mpr member, found, account⟩
  · rintro ⟨label, i, reg, holds, found, account⟩
    exact ⟨⟨label, i⟩, AList.mem_lookup_iff.mp holds, reg, found, account⟩

/-- Registrations are the same up to what does not count as local work. -/
def SameAccounts (s s' : Server) : Prop :=
  ∀ i, (s'.registration? i).map (·.accountId) = (s.registration? i).map (·.accountId)

theorem sameAccounts_modifyConnection {f : Connection → Connection}
    (same : ∀ c, s.connections[i]? = some c →
      (f c).registration.map (·.accountId) = c.registration.map (·.accountId)) :
    SameAccounts s (s.modifyConnection i f) := by
  intro j
  rw [registration?_modifyConnection]
  split
  next here =>
    subst here
    unfold registration?
    cases found : s.connections[i]? with
    | none => rfl
    | some c => exact same c found
  · rfl

/-- Nothing that counts as local work has changed. -/
structure SameWork (s s' : Server) : Prop where
  accounts : SameAccounts s s'
  labels : s'.accountLabels = s.accountLabels
  visitors : s'.accountActiveVisitors = s.accountActiveVisitors
  buffered : s'.accountBuffered = s.accountBuffered
  pending : s'.pendingAgents = s.pendingAgents

theorem SameWork.refl (s : Server) : SameWork s s := ⟨fun _ => rfl, rfl, rfl, rfl, rfl⟩

theorem SameWork.trans (first : SameWork s s') (second : SameWork s' s'') : SameWork s s'' :=
  ⟨fun i => (second.accounts i).trans (first.accounts i), second.labels.trans first.labels,
    second.visitors.trans first.visitors, second.buffered.trans first.buffered,
    second.pending.trans first.pending⟩

theorem SameWork.eq (same : SameWork s s') (accountId : String) :
    s'.accountHasLocalWork accountId = s.accountHasLocalWork accountId := by
  have each : ∀ i, (s'.registration? i).any (·.accountId == accountId) =
      (s.registration? i).any (·.accountId == accountId) := by
    intro i
    have here := same.accounts i
    cases after : s'.registration? i <;> cases before : s.registration? i <;> simp_all
  unfold accountHasLocalWork accountActiveStreams
  simp only [same.labels, same.visitors, same.buffered, same.pending, each]

/-! ### What a step does to the overrides and the schedules -/

/-- The policy is the same, and only idle accounts have lost their override. -/
structure Settles (s s' : Server) : Prop where
  version : s'.policyVersion = s.policyVersion
  overrides : ∀ accountId,
    s'.accountBudgetOverrides.lookup accountId = s.accountBudgetOverrides.lookup accountId ∨
      s'.accountBudgetOverrides.lookup accountId = none ∧ s'.accountHasLocalWork accountId = false

/-- And no account has more to do than before. -/
structure Sheds (s s' : Server) : Prop extends Settles s s' where
  work : ∀ accountId, s'.accountHasLocalWork accountId = true → s.accountHasLocalWork accountId = true

/-- Only idle accounts have lost their byte schedule, either. -/
structure Frees (s s' : Server) : Prop extends Settles s s' where
  schedules : ∀ accountId,
    s'.accountBandwidth.lookup accountId = s.accountBandwidth.lookup accountId ∨
      s'.accountBandwidth.lookup accountId = none ∧ s'.accountHasLocalWork accountId = false

/-- And no account has more to do than before. -/
structure Clears (s s' : Server) : Prop extends Frees s s' where
  work : ∀ accountId, s'.accountHasLocalWork accountId = true → s.accountHasLocalWork accountId = true

theorem Clears.sheds (clears : Clears s s') : Sheds s s' := ⟨clears.toSettles, clears.work⟩

theorem Settles.of_eq (version : s'.policyVersion = s.policyVersion)
    (overrides : s'.accountBudgetOverrides = s.accountBudgetOverrides) : Settles s s' :=
  ⟨version, fun _ => Or.inl (by rw [overrides])⟩

theorem Frees.of_eq (version : s'.policyVersion = s.policyVersion)
    (overrides : s'.accountBudgetOverrides = s.accountBudgetOverrides)
    (bandwidth : s'.accountBandwidth = s.accountBandwidth) : Frees s s' :=
  ⟨.of_eq version overrides, fun _ => Or.inl (by rw [bandwidth])⟩

theorem Settles.refl (s : Server) : Settles s s := .of_eq rfl rfl

theorem Frees.refl (s : Server) : Frees s s := .of_eq rfl rfl rfl

/-- What an idle account has lost stays so while it gets nothing new to do. -/
private theorem lost_later {β : Type} {book book' book'' : Option β} {accountId : String}
    (work : s''.accountHasLocalWork accountId = true → s'.accountHasLocalWork accountId = true)
    (first : book' = book ∨ book' = none ∧ s'.accountHasLocalWork accountId = false)
    (second : book'' = book' ∨ book'' = none ∧ s''.accountHasLocalWork accountId = false) :
    book'' = book ∨ book'' = none ∧ s''.accountHasLocalWork accountId = false := by
  rcases second with same | dropped
  · rw [same]
    rcases first with kept | ⟨dropped, idle⟩
    · exact Or.inl kept
    · refine Or.inr ⟨dropped, ?_⟩
      by_contra busy
      rw [work (by simpa using busy)] at idle
      cases idle
  · exact Or.inr dropped

theorem Settles.sheds (first : Settles s s') (second : Sheds s' s'') : Settles s s'' :=
  ⟨second.version.trans first.version, fun accountId =>
    lost_later (second.work accountId) (first.overrides accountId) (second.overrides accountId)⟩

theorem Frees.clears (first : Frees s s') (second : Clears s' s'') : Frees s s'' :=
  ⟨first.toSettles.sheds second.sheds, fun accountId =>
    lost_later (second.work accountId) (first.schedules accountId) (second.schedules accountId)⟩

/-- The step before may bring in new work, if it leaves what is kept alone. -/
theorem Frees.after (second : Frees s' s'') (version : s'.policyVersion = s.policyVersion)
    (overrides : s'.accountBudgetOverrides = s.accountBudgetOverrides)
    (bandwidth : s'.accountBandwidth = s.accountBandwidth) : Frees s s'' :=
  ⟨⟨second.version.trans version, fun accountId => overrides ▸ second.overrides accountId⟩,
    fun accountId => bandwidth ▸ second.schedules accountId⟩

theorem Sheds.refl (s : Server) : Sheds s s := ⟨.refl s, fun _ => id⟩

theorem Sheds.trans (first : Sheds s s') (second : Sheds s' s'') : Sheds s s'' :=
  ⟨first.toSettles.sheds second, fun accountId busy => first.work accountId (second.work accountId busy)⟩

theorem Clears.refl (s : Server) : Clears s s := ⟨.refl s, fun _ => id⟩

theorem Clears.trans (first : Clears s s') (second : Clears s' s'') : Clears s s'' :=
  ⟨first.toFrees.clears second, fun accountId busy => first.work accountId (second.work accountId busy)⟩

/-- With fewer labels, visitors, bytes and pending registrations there is no new work. -/
theorem Clears.of_fewer (version : s'.policyVersion = s.policyVersion)
    (overrides : s'.accountBudgetOverrides = s.accountBudgetOverrides)
    (bandwidth : s'.accountBandwidth = s.accountBandwidth) (accounts : SameAccounts s s')
    (labels : ∀ accountId, accountId ∈ s'.accountLabels → accountId ∈ s.accountLabels)
    (streams : ∀ accountId, s'.accountActiveStreams accountId ≤ s.accountActiveStreams accountId)
    (buffered : ∀ accountId, s'.accountBuffered accountId ≤ s.accountBuffered accountId)
    (pending : ∀ label i, s'.pendingAgents.lookup label = some i →
      s.pendingAgents.lookup label = some i) : Clears s s' := by
  refine ⟨.of_eq version overrides bandwidth, fun accountId work => ?_⟩
  rw [accountHasLocalWork_iff] at work ⊢
  rcases work with labelled | visited | held | ⟨label, i, reg, holds, found, account⟩
  · exact Or.inl (labels accountId labelled)
  · exact Or.inr (Or.inl (lt_of_lt_of_le visited (streams accountId)))
  · exact Or.inr (Or.inr (Or.inl (lt_of_lt_of_le held (buffered accountId))))
  · have same := accounts i
    rw [found] at same
    obtain ⟨old, before, equal⟩ := Option.map_eq_some_iff.mp same.symm
    exact Or.inr (Or.inr (Or.inr ⟨label, i, old, pending label i holds, before, equal.trans account⟩))

theorem Clears.of_eq (version : s'.policyVersion = s.policyVersion)
    (overrides : s'.accountBudgetOverrides = s.accountBudgetOverrides)
    (bandwidth : s'.accountBandwidth = s.accountBandwidth) (same : SameWork s s') : Clears s s' :=
  ⟨.of_eq version overrides bandwidth, fun accountId busy => (same.eq accountId).symm.trans busy⟩

theorem clears_foldl {α : Type} {f : Server → α → Server} (each : ∀ s a, Clears s (f s a))
    (list : List α) (s : Server) : Clears s (list.foldl f s) := by
  induction list generalizing s with
  | nil => exact .refl s
  | cons a rest ih => exact (each s a).trans (ih _)

/-- A change of a connection that keeps the account of its registration. -/
theorem clears_modifyConnection {f : Connection → Connection}
    (same : ∀ c, s.connections[i]? = some c →
      (f c).registration.map (·.accountId) = c.registration.map (·.accountId)) :
    Clears s (s.modifyConnection i f) :=
  .of_eq rfl rfl rfl ⟨sameAccounts_modifyConnection same, rfl, rfl, rfl, rfl⟩

theorem clears_modifyRegistration {f : TunnelRegistration → TunnelRegistration}
    (same : ∀ reg, s.registration? i = some reg → (f reg).accountId = reg.accountId) :
    Clears s (s.modifyRegistration i f) :=
  clears_modifyConnection fun c found => by
    cases registered : c.registration with
    | none => rfl
    | some reg =>
      exact congrArg some (same reg (by simp [registration?, found, registered]))

theorem clears_setPhase (s : Server) (i : Nat) (phase : Phase) : Clears s (s.setPhase i phase) :=
  clears_modifyConnection fun _ _ => rfl

theorem clears_setRenewal (s : Server) (i : Nat) (renewal : RenewalPhase) :
    Clears s (s.setRenewal i renewal) :=
  clears_modifyConnection fun _ _ => rfl

theorem clears_dropAccountBandwidthIfIdle (s : Server) (accountId : String) :
    Clears s (s.dropAccountBandwidthIfIdle accountId) := by
  unfold dropAccountBandwidthIfIdle
  split
  · exact .refl s
  next idle =>
    have lost : ∀ {β : Type} (book : AList fun _ : String => β) other,
        (book.erase accountId).lookup other = book.lookup other ∨
          (book.erase accountId).lookup other = none ∧ s.accountHasLocalWork other = false := by
      intro β book other
      by_cases here : other = accountId
      · subst here
        exact Or.inr ⟨AList.lookup_erase .., (Bool.not_eq_true _).mp idle⟩
      · exact Or.inl (AList.lookup_erase_ne here)
    exact ⟨⟨⟨rfl, lost s.accountBudgetOverrides⟩, lost s.accountBandwidth⟩, fun _ busy => busy⟩

theorem clears_deregisterIfCurrent (s : Server) (label : String) (i : Nat) :
    Clears s (s.deregisterIfCurrent label i) := by
  unfold deregisterIfCurrent
  split
  next current reg serves found =>
    split
    · refine Clears.trans ?_ (clears_dropAccountBandwidthIfIdle _ _)
      exact .of_fewer rfl rfl rfl (fun _ => rfl) (fun _ => ReverseIndex.mem_of_mem_discard)
        (fun _ => le_rfl) (fun _ => le_rfl) (fun _ _ => id)
    · exact .refl s
  · exact .refl s

theorem clears_dropPendingIfCurrent (s : Server) (label : String) (i : Nat) :
    Clears s (s.dropPendingIfCurrent label i) := by
  unfold dropPendingIfCurrent
  split
  next current reg holds found =>
    split
    · refine .of_fewer rfl rfl rfl (fun _ => rfl) (fun _ => id) (fun _ => le_rfl) (fun _ => le_rfl) ?_
      intro other j still
      by_cases same : other = label
      · subst same
        simp at still
      · rwa [AList.lookup_erase_ne same] at still
    · exact .refl s
  · exact .refl s

theorem clears_retireRegistration (s : Server) (label : String) (i : Nat) (reason : RetireReason)
    (timeout : ℚ) : Clears s (s.retireRegistration label i reason timeout) := by
  unfold retireRegistration
  split
  · have removed := (clears_modifyRegistration (s := s) (i := i)
      (f := fun reg => { reg with acceptingVisitors := false }) fun _ _ => rfl).trans (clears_deregisterIfCurrent _ label i)
    refine removed.trans ?_
    cases reason <;> exact .of_eq rfl rfl rfl ⟨fun _ => rfl, rfl, rfl, rfl, rfl⟩
  · exact .refl s

theorem clears_retirePendingRegistration (s : Server) (label : String) (i : Nat) :
    Clears s (s.retirePendingRegistration label i).2 := by
  unfold retirePendingRegistration
  split
  · have dropped := (clears_modifyRegistration (s := s) (i := i)
      (f := fun reg => { reg with acceptingVisitors := false }) fun _ _ => rfl).trans (clears_dropPendingIfCurrent _ label i)
    refine dropped.trans ?_
    exact .of_eq rfl rfl rfl ⟨fun _ => rfl, rfl, rfl, rfl, rfl⟩
  · exact .refl s

theorem clears_retirePending (s : Server) (revoked : Nat) (candidates : List (String × Nat)) :
    Clears s (s.retirePending revoked candidates).2 := by
  induction candidates generalizing s revoked with
  | nil => exact .refl s
  | cons e rest ih =>
    obtain ⟨label, i⟩ := e
    have first := clears_retirePendingRegistration s label i
    rw [retirePending.eq_def]
    cases ended : s.retirePendingRegistration label i with
    | mk dropped t =>
      rw [ended] at first
      simp only [ended]
      cases dropped with
      | true => exact first.trans (ih t _)
      | false => exact first.trans (ih t _)

theorem clears_revokeLease (s : Server) (leaseId : String) (action : RevocationAction) :
    Clears s (s.revokeLease leaseId action).2 := by
  unfold revokeLease
  split
  · exact .refl s
  · cases s.registrationsForLeaseIndex leaseId s.leaseLabels s.agents with
    | mk candidates leaseLabels =>
      simp only
      have indexed : Clears s { s with leaseLabels := leaseLabels } :=
        .of_eq rfl rfl rfl ⟨fun _ => rfl, rfl, rfl, rfl, rfl⟩
      have retired := indexed.trans (clears_foldl (fun t (e : String × Nat) =>
        clears_retireRegistration t e.1 e.2 .leaseRevoked (RevocationAction.drainTimeout action))
        candidates _)
      generalize candidates.foldl _ _ = t at retired ⊢
      cases t.registrationsForLeaseIndex leaseId t.pendingLeaseLabels t.pendingAgents with
      | mk pending pendingLeaseLabels =>
        have unindexed : Clears t { t with pendingLeaseLabels := pendingLeaseLabels } :=
          .of_eq rfl rfl rfl ⟨fun _ => rfl, rfl, rfl, rfl, rfl⟩
        exact retired.trans (unindexed.trans (clears_retirePending _ _ _))

/-! ### Visitors and bytes -/

theorem clears_releaseVisitorBudget (s : Server) (accountId : String) :
    Clears s (s.releaseVisitorBudget accountId) := by
  unfold releaseVisitorBudget
  split
  · refine Clears.trans ?_ (clears_dropAccountBandwidthIfIdle _ _)
    refine .of_fewer rfl rfl rfl (fun _ => rfl) (fun _ => id) (fun other => ?_) (fun _ => le_rfl) fun _ _ => id
    by_cases here : other = accountId
    · subst here
      simp [accountActiveStreams]
    · simp [accountActiveStreams, AList.lookup_erase_ne here]
  · refine .of_fewer rfl rfl rfl (fun _ => rfl) (fun _ => id) (fun other => ?_) (fun _ => le_rfl) fun _ _ => id
    by_cases here : other = accountId
    · subst here
      simp [accountActiveStreams]
    · simp [accountActiveStreams, AList.lookup_insert_ne here]

theorem clears_leave {v : Nat} {visitor : Visitor} (moved : s.leave v visitor = some s') :
    Clears s s' := by
  obtain ⟨reg, -, rfl⟩ := Option.map_eq_some_iff.mp moved
  refine Clears.trans ?_ (clears_releaseVisitorBudget _ _)
  exact .of_eq rfl rfl rfl ⟨fun _ => rfl, rfl, rfl, rfl, rfl⟩

/-- The bytes of an account may grow, and when the last one is released the account is looked
at again. -/
theorem frees_afterMux (s : Server) (i : Nat) (reg : TunnelRegistration) (h : Host) :
    Frees s (s.afterMux i reg h) := by
  unfold afterMux
  simp only
  split
  · refine (clears_dropAccountBandwidthIfIdle _ _).toFrees.after ?_ ?_ ?_
    · rfl
    · rfl
    · rfl
  · exact .of_eq rfl rfl rfl

theorem frees_muxStep {a : Chute.Action} (moved : s.muxStep i a = some s') : Frees s s' := by
  obtain ⟨reg, -, moved⟩ := Option.bind_eq_some_iff.mp moved
  obtain ⟨e, -, rfl⟩ := Option.map_eq_some_iff.mp moved
  exact frees_afterMux s i reg e.host

theorem clears_selectAgentForVisitor (s : Server) (label : String) :
    Clears s (s.selectAgentForVisitor label).2 := by
  unfold selectAgentForVisitor
  split
  · exact .refl s
  · split
    · exact .refl s
    · split
      · exact .refl s
      · split
        · exact clears_retireRegistration s label _ .leaseExpired leaseExpiryDrainTimeout
        · exact .refl s

/-- The slot of a visitor is new work, and it is held until the visitor is turned away. -/
theorem frees_visit (s : Server) (label : String) (sent : Bool) : Frees s (s.visit label sent) := by
  have selected := clears_selectAgentForVisitor s label
  unfold visit
  cases chosen : s.selectAgentForVisitor label with
  | mk agent t =>
    rw [chosen] at selected
    cases agent with
    | none => exact selected.toFrees
    | some agent =>
      have same : t = s := by
        unfold selectAgentForVisitor at chosen
        split at chosen
        · cases chosen
        · split at chosen
          · cases chosen
          · split at chosen
            · cases chosen
            · split at chosen
              · cases chosen
              · cases chosen
                rfl
      subst same
      simp only
      split
      · exact .refl t
      next u acquired =>
        have taken : u.policyVersion = t.policyVersion ∧
            u.accountBudgetOverrides = t.accountBudgetOverrides ∧
            u.accountBandwidth = t.accountBandwidth := by
          unfold tryAcquireVisitorBudget at acquired
          split at acquired
          · cases acquired
          · cases acquired
            exact ⟨rfl, rfl, rfl⟩
        have opened := (frees_afterMux u agent.1 agent.2
          ((u.host agent.2).openStream sent).host).after taken.1 taken.2.1
          taken.2.2
        split
        · refine opened.clears ?_
          exact .of_eq rfl rfl rfl ⟨fun _ => rfl, rfl, rfl, rfl, rfl⟩
        · exact opened.clears (clears_releaseVisitorBudget _ _)

theorem clears_sweepIdleBandwidth (s : Server) : Clears s s.sweepIdleBandwidth :=
  clears_foldl (fun s a => clears_dropAccountBandwidthIfIdle s a) _ s

/-- A chunk takes its place in a schedule; the overrides go with the idle accounts alone. -/
theorem sheds_throttleAccountBytes (s : Server) (reg : TunnelRegistration) (n : Nat) :
    Sheds s (s.throttleAccountBytes reg n).2 := by
  have scheduled : ∀ (t : Server) accountId limit nextAt,
      Sheds t (t.scheduleBytes accountId limit n nextAt).2 := by
    intro t accountId limit nextAt
    have same : SameWork t (t.scheduleBytes accountId limit n nextAt).2 :=
      ⟨fun _ => rfl, rfl, rfl, rfl, rfl⟩
    exact ⟨.of_eq rfl rfl, fun other busy => (same.eq other).symm.trans busy⟩
  unfold throttleAccountBytes
  split
  · exact .refl s
  · split
    · exact .refl s
    · split
      · exact .refl s
      · split
        · exact scheduled s _ _ _
        · simp only
          have swept : Sheds s (if bandwidthMaxAccounts ≤ s.accountBandwidth.keys.length then
              s.sweepIdleBandwidth else s) := by
            split
            · exact (clears_sweepIdleBandwidth s).sheds
            · exact .refl s
          generalize (if bandwidthMaxAccounts ≤ s.accountBandwidth.keys.length then
            s.sweepIdleBandwidth else s) = t at swept
          split
          · exact swept
          · exact swept.trans (scheduled t _ _ _)

/-! ### Connections -/

/-- A claim reads the override of its account and leaves it. -/
theorem frees_claim (s : Server) (i : Nat) (c : Connection) (phrases : Fin 100 → String) :
    Frees s (s.claim i c phrases) := by
  obtain ⟨reconnects, ⟨r, -, same⟩ | ⟨label, url, -, same⟩⟩ := claim_cases s i c phrases
  · rw [same]
    exact .of_eq rfl rfl rfl
  · rw [same]
    exact .of_eq rfl rfl rfl

theorem Coherent.frees_install (coherent : s.Coherent) {c : Connection}
    (found : s.connections[i]? = some c) (opened : Bool) : Frees s (s.install i c opened) := by
  cases ready : s.isPending i c with
  | false =>
    unfold install
    split
    · exact .refl s
    · simp only [ready, Bool.false_eq_true, if_false]
      exact (clears_setPhase s i _).toFrees
  | true =>
    have pending : s.pendingAgents.lookup c.label = some i := by simpa [isPending] using ready
    obtain ⟨reg, registered, -, -, apart, agree⟩ := coherent.installable found pending
    obtain ⟨closes, result⟩ := install_eq opened found registered pending apart agree
    rw [result]
    exact .of_eq rfl rfl rfl

theorem clears_renewHead (s : Server) (i : Nat) (c : Connection) (reg : TunnelRegistration) :
    Clears s (s.renewHead i c reg) := by
  unfold renewHead
  split
  · exact clears_setRenewal s i _
  · split
    · exact clears_setRenewal s i _
    · split
      · exact (clears_retireRegistration s c.label i _ _).trans (clears_setRenewal _ i _)
      · exact clears_setRenewal s i _

theorem clears_renewWake (s : Server) (i : Nat) (c : Connection) (reg : TunnelRegistration) :
    Clears s (s.renewWake i c reg) := by
  unfold renewWake
  split
  · exact clears_setRenewal s i _
  · split
    · exact (clears_retireRegistration s c.label i _ _).trans (clears_setRenewal _ i _)
    · split
      · exact clears_setRenewal s i _
      · exact clears_setRenewal s i _

theorem clears_renewResult {reg : TunnelRegistration} (c : Connection)
    (known : s.registration? i = some reg) (renewed : Option PyObject) :
    Clears s (s.renewResult i c reg renewed) := by
  unfold renewResult
  split
  · refine (clears_setRenewal s i .head).trans ?_
    exact .of_eq rfl rfl rfl ⟨fun _ => rfl, rfl, rfl, rfl, rfl⟩
  · split
    · exact clears_setRenewal s i _
    · split
      · refine Clears.trans ?_ (clears_setRenewal _ i _)
        refine Clears.trans ?_ (clears_retireRegistration _ c.label i _ _)
        exact .of_eq rfl rfl rfl ⟨fun _ => rfl, rfl, rfl, rfl, rfl⟩
      · split
        · refine (clears_setRenewal s i .head).trans ?_
          exact .of_eq rfl rfl rfl ⟨fun _ => rfl, rfl, rfl, rfl, rfl⟩
        next expires generation valid =>
          have stored : Clears s (s.modifyRegistration i fun _ => { reg with
              leaseExpiresAt := some expires
              leaseObservedAt := some s.now
              leaseGeneration := generation }) :=
            clears_modifyRegistration fun old found => by
              rw [known] at found
              cases found
              rfl
          simp only
          split
          · exact stored.trans ((clears_retireRegistration _ c.label i _ _).trans (clears_setRenewal _ i _))
          · refine (stored.trans (clears_setRenewal _ i .head)).trans ?_
            exact .of_eq rfl rfl rfl ⟨fun _ => rfl, rfl, rfl, rfl, rfl⟩

/-- Between two policy updates nothing is dropped but of idle accounts, and only a chunk that
takes its place changes a schedule. -/
theorem Coherent.frees_step (coherent : s.Coherent) {a : Action} (moved : s.step a = some s')
    (other : ∀ update, a ≠ .applyPolicyUpdate update) (unthrottled : ∀ i n, a ≠ .throttle i n) :
    Frees s s' := by
  cases a with
  | clock now monotonic =>
    cases moved
    exact .of_eq rfl rfl rfl
  | admitTunnel admission requested scheme window =>
    obtain ⟨valid, -, rfl⟩ := Option.map_eq_some_iff.mp moved
    exact .of_eq rfl rfl rfl
  | claim i phrases =>
    obtain ⟨c, found, moved⟩ := Option.bind_eq_some_iff.mp moved
    split at moved <;> cases moved
    exact frees_claim s i c phrases
  | check i | recheck i | ready i | renewalCancelled i =>
    obtain ⟨c, found, moved⟩ := Option.bind_eq_some_iff.mp moved
    split at moved <;> cases moved
    exact .of_eq rfl rfl rfl
  | opened i result =>
    obtain ⟨c, found, moved⟩ := Option.bind_eq_some_iff.mp moved
    split at moved
    · cases moved
      exact .of_eq rfl rfl rfl
    · cases moved
      exact .of_eq rfl rfl rfl
    · cases moved
  | drop i =>
    obtain ⟨c, found, moved⟩ := Option.bind_eq_some_iff.mp moved
    split at moved <;> cases moved
    exact ((clears_dropPendingIfCurrent s c.label i).trans (clears_setPhase _ i _)).toFrees
  | install i =>
    obtain ⟨c, found, moved⟩ := Option.bind_eq_some_iff.mp moved
    split at moved <;> cases moved
    exact coherent.frees_install found _
  | ended i =>
    obtain ⟨c, found, moved⟩ := Option.bind_eq_some_iff.mp moved
    split at moved
    · split at moved <;> cases moved
      exact .of_eq rfl rfl rfl
    · cases moved
  | deregister i =>
    obtain ⟨c, found, moved⟩ := Option.bind_eq_some_iff.mp moved
    split at moved <;> cases moved
    exact ((clears_deregisterIfCurrent s c.label i).trans (clears_setPhase _ i _)).toFrees
  | renewHead i =>
    obtain ⟨c, found, moved⟩ := Option.bind_eq_some_iff.mp moved
    split at moved
    · obtain ⟨reg, registered, rfl⟩ := Option.map_eq_some_iff.mp moved
      exact (clears_renewHead s i c reg).toFrees
    · cases moved
  | renewWake i =>
    obtain ⟨c, found, moved⟩ := Option.bind_eq_some_iff.mp moved
    split at moved
    · obtain ⟨reg, registered, rfl⟩ := Option.map_eq_some_iff.mp moved
      exact (clears_renewWake s i c reg).toFrees
    · cases moved
  | renewAcquired i acquired =>
    obtain ⟨c, found, moved⟩ := Option.bind_eq_some_iff.mp moved
    split at moved
    · split at moved <;> cases moved <;> exact .of_eq rfl rfl rfl
    · cases moved
  | renewResult i renewed =>
    obtain ⟨c, found, moved⟩ := Option.bind_eq_some_iff.mp moved
    split at moved
    · obtain ⟨reg, registered, rfl⟩ := Option.map_eq_some_iff.mp moved
      have known : s.registration? i = some reg := by simp [registration?, found, registered]
      exact (clears_renewResult c known renewed).toFrees
    · cases moved
  | revokeLease leaseId action =>
    cases moved
    exact (clears_revokeLease s leaseId action).toFrees
  | applyPolicyUpdate update => exact absurd rfl (other update)
  | visit label sent =>
    cases moved
    exact frees_visit s label sent
  | visitorOpened v =>
    obtain ⟨visitor, -, moved⟩ := Option.bind_eq_some_iff.mp moved
    split at moved
    · obtain ⟨t, stepped, rfl⟩ := Option.map_eq_some_iff.mp moved
      refine (frees_muxStep stepped).clears ?_
      exact .of_eq rfl rfl rfl ⟨fun _ => rfl, rfl, rfl, rfl, rfl⟩
    · cases moved
  | visitorFailed v =>
    obtain ⟨visitor, -, moved⟩ := Option.bind_eq_some_iff.mp moved
    split at moved
    · obtain ⟨t, stepped, left⟩ := Option.bind_eq_some_iff.mp moved
      exact (frees_muxStep stepped).clears (clears_leave left)
    · cases moved
  | visitorLeft v =>
    obtain ⟨visitor, -, moved⟩ := Option.bind_eq_some_iff.mp moved
    split at moved
    · exact (clears_leave moved).toFrees
    · cases moved
  | throttle i n => exact absurd rfl (unthrottled i n)
  | mux i a =>
    simp only [Server.step] at moved
    split at moved
    · cases moved
    · exact frees_muxStep moved

/-- **Between two policy updates overrides are only dropped, and only of idle accounts.** -/
theorem Coherent.settles_step (coherent : s.Coherent) {a : Action} (moved : s.step a = some s')
    (other : ∀ update, a ≠ .applyPolicyUpdate update) : Settles s s' := by
  by_cases throttled : ∃ i n, a = .throttle i n
  · obtain ⟨i, n, rfl⟩ := throttled
    simp only [Server.step] at moved
    split at moved
    · obtain ⟨reg, -, rfl⟩ := Option.map_eq_some_iff.mp moved
      exact (sheds_throttleAccountBytes s reg n).toSettles
    · cases moved
  · refine (coherent.frees_step moved other fun i n same => ?_).toSettles
    exact throttled ⟨i, n, same⟩

end Server

end Chute
