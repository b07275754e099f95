import Chute.Server.Takeover

/-!
# What the tasks of a connection own

The lease, the label, the phase and the renewal task of a connection change in steps of its
own tasks only. What the others do to a registration is confined to its multiplexer, its
budget and whether it accepts visitors.
-/
namespace Chute

namespace Server

variable {s s' s'' : Server} {i : Nat} {p : Nat → Prop}

/-- What a registration keeps from its claim on, until it is renewed. -/
structure Terms where
  accountId : String
  credentialId : Option String
  publicUrl : String
  leaseId : Option String
  leaseExpiresAt : Option Datetime
  leaseObservedAt : Option ℚ
  leaseGeneration : Int

def TunnelRegistration.terms (reg : TunnelRegistration) : Terms :=
  ⟨reg.accountId, reg.credentialId, reg.publicUrl, reg.leaseId, reg.leaseExpiresAt,
    reg.leaseObservedAt, reg.leaseGeneration⟩

/-- What a connection keeps while other tasks take steps. -/
def Connection.kept (c : Connection) : Connection × Option Terms :=
  ({ c with registration := none }, c.registration.map TunnelRegistration.terms)

/-- What a connection came with. -/
def Connection.hello (c : Connection) : Option String × Scheme × TunnelAdmission × FlowWindow :=
  (c.requestedSubdomain, c.scheme, c.admission, c.flowWindow)

/-- The clocks stand still, no connection changes what it came with, and only the connections
in `p` have changed otherwise. -/
structure Undisturbed (p : Nat → Prop) (s s' : Server) : Prop where
  connections : ∀ j, ¬ p j →
    (s'.connections[j]?).map Connection.kept = (s.connections[j]?).map Connection.kept
  hellos : s.connections.map Connection.hello <+: s'.connections.map Connection.hello
  now : s'.now = s.now
  monotonic : s'.monotonic = s.monotonic
  config : s'.config = s.config

namespace Undisturbed

theorem refl (s : Server) : Undisturbed p s s :=
  ⟨fun _ _ => rfl, List.prefix_refl _, rfl, rfl, rfl⟩

theorem trans (first : Undisturbed p s s') (second : Undisturbed p s' s'') :
    Undisturbed p s s'' :=
  ⟨fun j apart => (second.connections j apart).trans (first.connections j apart),
    first.hellos.trans second.hellos, second.now.trans first.now, second.monotonic.trans first.monotonic,
    second.config.trans first.config⟩

theorem mono (undisturbed : Undisturbed p s s') {q : Nat → Prop}
    (weaker : ∀ j, p j → q j) : Undisturbed q s s' :=
  ⟨fun j apart => undisturbed.connections j fun inside => apart (weaker j inside),
    undisturbed.hellos, undisturbed.now, undisturbed.monotonic, undisturbed.config⟩

theorem of_eq (connections : s'.connections = s.connections) (now : s'.now = s.now)
    (monotonic : s'.monotonic = s.monotonic) (config : s'.config = s.config) :
    Undisturbed p s s' :=
  ⟨fun _ _ => by rw [connections], by rw [connections], now, monotonic, config⟩

/-- A connection that is not disturbed is still there, with all it keeps. -/
theorem found (undisturbed : Undisturbed p s s') {j : Nat} (apart : ¬ p j) {c : Connection}
    (here : s.connections[j]? = some c) :
    ∃ c', s'.connections[j]? = some c' ∧ c'.kept = c.kept := by
  have same := undisturbed.connections j apart
  rw [here] at same
  exact Option.map_eq_some_iff.mp same

theorem foldl {α : Type} {f : Server → α → Server} (each : ∀ s a, Undisturbed p s (f s a))
    (list : List α) (s : Server) : Undisturbed p s (list.foldl f s) := by
  induction list generalizing s with
  | nil => exact .refl s
  | cons a rest ih => exact (each s a).trans (ih _)

end Undisturbed

/-- What the parts of two connections that keep the same say. -/
theorem Connection.kept_eq {c c' : Connection} (same : c'.kept = c.kept) :
    c'.phase = c.phase ∧ c'.label = c.label ∧ c'.renewal = c.renewal ∧
      c'.admission = c.admission ∧ c'.registration.map TunnelRegistration.terms =
        c.registration.map TunnelRegistration.terms := by
  have fields : ({ c' with registration := none } : Connection) = { c with registration := none } :=
    congrArg Prod.fst same
  exact ⟨congrArg (·.phase) fields, congrArg (·.label) fields, congrArg (·.renewal) fields,
    congrArg (·.admission) fields, congrArg Prod.snd same⟩

/-! ### The parts of a step -/

/-- A change of a connection that keeps what is asked for. -/
theorem map_modifyConnection {α : Type} (g : Connection → α) {f : Connection → Connection}
    (same : ∀ c, s.connections[i]? = some c → g (f c) = g c) :
    (s.modifyConnection i f).connections.map g = s.connections.map g := by
  refine List.ext_getElem? fun j => ?_
  simp only [modifyConnection, List.getElem?_map, List.getElem?_modify]
  cases found : s.connections[j]? with
  | none => rfl
  | some c =>
    by_cases here : i = j
    · subst here
      simp [same c found]
    · simp [here]

theorem undisturbed_modifyConnection (s : Server) (i : Nat) {f : Connection → Connection}
    (same : ∀ c, (f c).hello = c.hello) : Undisturbed (· = i) s (s.modifyConnection i f) := by
  refine ⟨fun j apart => ?_, ?_, rfl, rfl, rfl⟩
  · have other : i ≠ j := fun same => apart same.symm
    simp [modifyConnection, other]
  · rw [map_modifyConnection Connection.hello fun c _ => same c]

theorem undisturbed_setPhase (s : Server) (i : Nat) (phase : Phase) :
    Undisturbed (· = i) s (s.setPhase i phase) :=
  undisturbed_modifyConnection s i fun _ => rfl

theorem undisturbed_setRenewal (s : Server) (i : Nat) (renewal : RenewalPhase) :
    Undisturbed (· = i) s (s.setRenewal i renewal) :=
  undisturbed_modifyConnection s i fun _ => rfl

/-- A change of a connection that touches nothing it keeps. -/
theorem undisturbed_of_kept {f : Connection → Connection}
    (same : ∀ c, s.connections[i]? = some c → (f c).kept = c.kept) :
    Undisturbed p s (s.modifyConnection i f) := by
  have hello : ∀ c, s.connections[i]? = some c → (f c).hello = c.hello := fun c found =>
    congrArg (fun kept : Connection × Option Terms => kept.1.hello) (same c found)
  refine ⟨fun j _ => ?_, by rw [map_modifyConnection Connection.hello hello], rfl, rfl, rfl⟩
  simp only [modifyConnection, List.getElem?_modify]
  cases found : s.connections[j]? with
  | none => rfl
  | some c =>
    by_cases here : i = j
    · subst here
      simp [same c found]
    · simp [here]

theorem undisturbed_modifyRegistration {f : TunnelRegistration → TunnelRegistration}
    (same : ∀ reg, s.registration? i = some reg → (f reg).terms = reg.terms) :
    Undisturbed p s (s.modifyRegistration i f) := by
  refine undisturbed_of_kept fun c found => Prod.ext rfl ?_
  cases registered : c.registration with
  | none => simp [Connection.kept, registered]
  | some reg =>
    have kept := same reg (by simp [registration?, found, registered])
    simp [Connection.kept, registered, kept]

theorem undisturbed_dropAccountBandwidthIfIdle (s : Server) (accountId : String) :
    Undisturbed p s (s.dropAccountBandwidthIfIdle accountId) := by
  unfold dropAccountBandwidthIfIdle
  split
  · exact .refl s
  · exact .of_eq rfl rfl rfl rfl

theorem undisturbed_deregisterIfCurrent (s : Server) (label : String) (i : Nat) :
    Undisturbed p s (s.deregisterIfCurrent label i) := by
  unfold deregisterIfCurrent
  split
  · split
    · refine Undisturbed.trans ?_ (undisturbed_dropAccountBandwidthIfIdle _ _)
      exact .of_eq rfl rfl rfl rfl
    · exact .refl s
  · exact .refl s

theorem undisturbed_dropPendingIfCurrent (s : Server) (label : String) (i : Nat) :
    Undisturbed p s (s.dropPendingIfCurrent label i) := by
  unfold dropPendingIfCurrent
  split
  · split
    · exact .of_eq rfl rfl rfl rfl
    · exact .refl s
  · exact .refl s

theorem undisturbed_retireRegistration (s : Server) (label : String) (i : Nat)
    (reason : RetireReason) (timeout : ℚ) :
    Undisturbed p s (s.retireRegistration label i reason timeout) := by
  unfold retireRegistration
  split
  · have disabled : Undisturbed p s (s.modifyRegistration i fun reg =>
        { reg with acceptingVisitors := false }) := undisturbed_modifyRegistration fun _ _ => rfl
    refine (disabled.trans (undisturbed_deregisterIfCurrent _ label i)).trans ?_
    cases reason <;> exact .of_eq rfl rfl rfl rfl
  · exact .refl s

theorem undisturbed_retirePending (s : Server) (revoked : Nat) (candidates : List (String × Nat)) :
    Undisturbed p s (s.retirePending revoked candidates).2 := by
  have first : ∀ (s : Server) label i,
      Undisturbed p s (s.retirePendingRegistration label i).2 := by
    intro s label i
    unfold retirePendingRegistration
    split
    · have disabled : Undisturbed p s (s.modifyRegistration i fun reg =>
          { reg with acceptingVisitors := false }) := undisturbed_modifyRegistration fun _ _ => rfl
      refine (disabled.trans (undisturbed_dropPendingIfCurrent _ label i)).trans ?_
      exact .of_eq rfl rfl rfl rfl
    · exact .refl s
  induction candidates generalizing s revoked with
  | nil => exact .refl s
  | cons e rest ih =>
    obtain ⟨label, i⟩ := e
    have here := first s label i
    rw [retirePending.eq_def]
    cases ended : s.retirePendingRegistration label i with
    | mk dropped t =>
      rw [ended] at here
      simp only [ended]
      cases dropped with
      | true => exact here.trans (ih t _)
      | false => exact here.trans (ih t _)

theorem undisturbed_revokeLease (s : Server) (leaseId : String) (action : RevocationAction) :
    Undisturbed p s (s.revokeLease leaseId action).2 := by
  unfold revokeLease
  split
  · exact .refl s
  · cases s.registrationsForLeaseIndex leaseId s.leaseLabels s.agents with
    | mk candidates leaseLabels =>
      simp only
      have indexed : Undisturbed p s { s with leaseLabels := leaseLabels } := .of_eq rfl rfl rfl rfl
      have retired := indexed.trans (Undisturbed.foldl (fun t (e : String × Nat) =>
        undisturbed_retireRegistration t e.1 e.2 .leaseRevoked (RevocationAction.drainTimeout action))
        candidates _)
      generalize candidates.foldl _ _ = t at retired ⊢
      cases t.registrationsForLeaseIndex leaseId t.pendingLeaseLabels t.pendingAgents with
      | mk pending pendingLeaseLabels =>
        have unindexed : Undisturbed p t { t with pendingLeaseLabels := pendingLeaseLabels } :=
          .of_eq rfl rfl rfl rfl
        exact retired.trans (unindexed.trans (undisturbed_retirePending _ _ _))

theorem undisturbed_setAccountBudget (s : Server) (accountId : String) (budget : Budget) :
    Undisturbed p s (s.setAccountBudget accountId budget) := by
  unfold setAccountBudget
  split
  · simp only
    have overridden : Undisturbed p s { s with
        accountBudgetOverrides := s.accountBudgetOverrides.insert accountId budget } :=
      .of_eq rfl rfl rfl rfl
    refine overridden.trans (Undisturbed.foldl (fun s label => ?_) _ _)
    split
    · exact .refl s
    · exact undisturbed_modifyRegistration fun _ _ => rfl
  · exact .of_eq rfl rfl rfl rfl

theorem undisturbed_applyPolicyUpdate (s : Server) (update : PyObject) :
    Undisturbed p s (s.applyPolicyUpdate update).2 := by
  unfold applyPolicyUpdate
  split
  · exact .of_eq rfl rfl rfl rfl
  next u valid =>
    have revoked := Undisturbed.foldl (p := p) (fun s (r : String × RevocationAction) =>
      undisturbed_revokeLease s r.1 r.2) u.revocations s
    have budgeted := Undisturbed.foldl (p := p) (fun s (b : String × Budget) =>
      undisturbed_setAccountBudget s b.1 b.2) u.accountBudgets
      (u.revocations.foldl (fun s r => (s.revokeLease r.1 r.2).2) s)
    refine (revoked.trans budgeted).trans ?_
    exact .of_eq rfl rfl rfl rfl

theorem undisturbed_afterMux (s : Server) (i : Nat) (reg : TunnelRegistration) (h : Host) :
    Undisturbed p s (s.afterMux i reg h) := by
  have stored : Undisturbed p s { s.modifyRegistration i (fun reg => { reg with mux := h.mux }) with
      accountBuffered := Function.update s.accountBuffered reg.accountId h.account.buffered } := by
    have muxed : Undisturbed p s (s.modifyRegistration i fun reg => { reg with mux := h.mux }) :=
      undisturbed_modifyRegistration fun _ _ => rfl
    exact muxed.trans (.of_eq rfl rfl rfl rfl)
  unfold afterMux
  simp only
  split
  · exact stored.trans (undisturbed_dropAccountBandwidthIfIdle _ _)
  · exact stored

theorem undisturbed_muxStep {a : Chute.Action} (moved : s.muxStep i a = some s') :
    Undisturbed p s s' := by
  obtain ⟨reg, -, moved⟩ := Option.bind_eq_some_iff.mp moved
  obtain ⟨e, -, rfl⟩ := Option.map_eq_some_iff.mp moved
  exact undisturbed_afterMux s i reg e.host

theorem undisturbed_releaseVisitorBudget (s : Server) (accountId : String) :
    Undisturbed p s (s.releaseVisitorBudget accountId) := by
  unfold releaseVisitorBudget
  split
  · refine Undisturbed.trans ?_ (undisturbed_dropAccountBandwidthIfIdle _ _)
    exact .of_eq rfl rfl rfl rfl
  · exact .of_eq rfl rfl rfl rfl

theorem undisturbed_leave {v : Nat} {visitor : Visitor} (moved : s.leave v visitor = some s') :
    Undisturbed p s s' := by
  obtain ⟨reg, -, rfl⟩ := Option.map_eq_some_iff.mp moved
  refine Undisturbed.trans ?_ (undisturbed_releaseVisitorBudget _ _)
  exact .of_eq rfl rfl rfl rfl

theorem undisturbed_visit (s : Server) (label : String) (sent : Bool) :
    Undisturbed p s (s.visit label sent) := by
  have selected : Undisturbed p s (s.selectAgentForVisitor label).2 := by
    unfold selectAgentForVisitor
    split
    · exact .refl s
    · split
      · exact .refl s
      · split
        · exact .refl s
        · split
          · exact undisturbed_retireRegistration s label _ .leaseExpired leaseExpiryDrainTimeout
          · exact .refl s
  unfold visit
  cases chosen : s.selectAgentForVisitor label with
  | mk agent t =>
    rw [chosen] at selected
    cases agent with
    | none => exact selected
    | some agent =>
      simp only
      split
      · exact selected
      next u acquired =>
        have taken : Undisturbed p t u := by
          unfold tryAcquireVisitorBudget at acquired
          split at acquired
          · cases acquired
          · cases acquired
            exact .of_eq rfl rfl rfl rfl
        have opened := (selected.trans taken).trans
          (undisturbed_afterMux u agent.1 agent.2 ((u.host agent.2).openStream sent).host)
        split
        · exact opened.trans (.of_eq rfl rfl rfl rfl)
        · exact opened.trans (undisturbed_releaseVisitorBudget _ _)

theorem undisturbed_throttleAccountBytes (s : Server) (reg : TunnelRegistration) (n : Nat) :
    Undisturbed p s (s.throttleAccountBytes reg n).2 := by
  have scheduled : ∀ (t : Server) accountId limit nextAt,
      Undisturbed p t (t.scheduleBytes accountId limit n nextAt).2 := fun t _ _ _ =>
    .of_eq rfl rfl rfl rfl
  have swept : ∀ t : Server, Undisturbed p t t.sweepIdleBandwidth := fun t =>
    Undisturbed.foldl undisturbed_dropAccountBandwidthIfIdle _ t
  unfold throttleAccountBytes
  split
  · exact .refl s
  · split
    · exact .refl s
    · split
      · exact .refl s
      · split
        · exact scheduled s _ _ _
        · simp only
          have first : Undisturbed p s (if bandwidthMaxAccounts ≤ s.accountBandwidth.keys.length then
              s.sweepIdleBandwidth else s) := by
            split
            · exact swept s
            · exact .refl s
          generalize (if bandwidthMaxAccounts ≤ s.accountBandwidth.keys.length then
            s.sweepIdleBandwidth else s) = t at first
          split
          · exact first
          · exact first.trans (scheduled t _ _ _)

/-! ### The steps -/

/-- Whose `_serve_agent` call or renewal task takes the step. -/
def Action.task : Action → Option Nat
  | .throttle _ _ => none
  | .mux _ _ => none
  | a => a.actor

/-- The step is about the connection, or it adds it. -/
def Action.Touches (a : Action) (s : Server) (j : Nat) : Prop :=
  a.task = some j ∨
    (∃ admission requested scheme window, a = .admitTunnel admission requested scheme window) ∧
      j = s.connections.length

theorem undisturbed_enterPending (s : Server) (i : Nat) (label : String) (reg : TunnelRegistration) :
    Undisturbed (· = i) s (s.enterPending i label reg) := by
  have entered : Undisturbed (· = i) s (s.modifyConnection i fun c =>
      { c with phase := .claimed, label := label, registration := some reg }) :=
    undisturbed_modifyConnection s i fun _ => rfl
  exact entered.trans (.of_eq rfl rfl rfl rfl)

theorem undisturbed_claim (s : Server) (i : Nat) (c : Connection) (phrases : Fin 100 → String) :
    Undisturbed (· = i) s (s.claim i c phrases) := by
  obtain ⟨reconnects, ends⟩ := claim_cases s i c phrases
  have noted : Undisturbed (· = i) s { s with accountReconnects := reconnects } := .of_eq rfl rfl rfl rfl
  rcases ends with ⟨r, -, same⟩ | ⟨label, url, -, same⟩
  · rw [same]
    exact noted.trans (undisturbed_setPhase _ i _)
  · rw [same]
    exact noted.trans (undisturbed_enterPending _ i _ _)

theorem undisturbed_installRegistration (s : Server) (label : String) (i : Nat)
    (reg : TunnelRegistration) : Undisturbed p s (s.installRegistration label i reg) := by
  have unindexed : Undisturbed p s (s.unindexPrevious label reg) := by
    unfold unindexPrevious
    split
    · exact .refl s
    · simp only
      split
      · exact .of_eq rfl rfl rfl rfl
      · refine Undisturbed.trans ?_ (undisturbed_dropAccountBandwidthIfIdle _ _)
        exact .of_eq rfl rfl rfl rfl
  exact unindexed.trans (.of_eq rfl rfl rfl rfl)

theorem undisturbed_install (s : Server) (i : Nat) (c : Connection) (opened : Bool) :
    Undisturbed (· = i) s (s.install i c opened) := by
  unfold install
  split
  · exact .refl s
  next reg known =>
    split
    · have dropped : Undisturbed (· = i) s { s with
          pendingLeaseLabels := unindexLeaseLabel s.pendingLeaseLabels c.label reg
          pendingAgents := s.pendingAgents.erase c.label } := .of_eq rfl rfl rfl rfl
      simp only
      generalize { s with
        pendingLeaseLabels := unindexLeaseLabel s.pendingLeaseLabels c.label reg
        pendingAgents := s.pendingAgents.erase c.label } = t at dropped ⊢
      have accepting : Undisturbed (· = i) t (t.modifyRegistration i fun reg =>
          { reg with acceptingVisitors := true }) := undisturbed_modifyRegistration fun _ _ => rfl
      have installed := (((dropped.trans accepting).trans
        (undisturbed_installRegistration _ c.label i { reg with acceptingVisitors := true })).trans
        (undisturbed_setPhase _ i (.running opened))).trans
        (undisturbed_setRenewal _ i (if reg.leaseExpiresAt.isSome then .head else .off))
      split
      · exact installed
      · exact installed.trans (.of_eq rfl rfl rfl rfl)
    · exact undisturbed_setPhase s i _

theorem undisturbed_renewHead (s : Server) (i : Nat) (c : Connection) (reg : TunnelRegistration) :
    Undisturbed (· = i) s (s.renewHead i c reg) := by
  unfold renewHead
  split
  · exact undisturbed_setRenewal s i _
  · split
    · exact undisturbed_setRenewal s i _
    · split
      · exact (undisturbed_retireRegistration s c.label i _ _).trans (undisturbed_setRenewal _ i _)
      · exact undisturbed_setRenewal s i _

theorem undisturbed_renewWake (s : Server) (i : Nat) (c : Connection) (reg : TunnelRegistration) :
    Undisturbed (· = i) s (s.renewWake i c reg) := by
  unfold renewWake
  split
  · exact undisturbed_setRenewal s i _
  · split
    · exact (undisturbed_retireRegistration s c.label i _ _).trans (undisturbed_setRenewal _ i _)
    · split
      · exact undisturbed_setRenewal s i _
      · exact undisturbed_setRenewal s i _

theorem undisturbed_renewResult (s : Server) (i : Nat) (c : Connection) (reg : TunnelRegistration)
    (renewed : Option PyObject) : Undisturbed (· = i) s (s.renewResult i c reg renewed) := by
  unfold renewResult
  split
  · exact (undisturbed_setRenewal s i .head).trans (.of_eq rfl rfl rfl rfl)
  · split
    · exact undisturbed_setRenewal s i _
    · split
      · refine Undisturbed.trans ?_ (undisturbed_setRenewal _ i _)
        refine Undisturbed.trans ?_ (undisturbed_retireRegistration _ c.label i _ _)
        exact .of_eq rfl rfl rfl rfl
      · split
        · exact (undisturbed_setRenewal s i .head).trans (.of_eq rfl rfl rfl rfl)
        next expires generation valid =>
          have stored : Undisturbed (· = i) s (s.modifyRegistration i fun _ => { reg with
              leaseExpiresAt := some expires
              leaseObservedAt := some s.now
              leaseGeneration := generation }) := undisturbed_modifyConnection s i fun _ => rfl
          simp only
          split
          · exact stored.trans ((undisturbed_retireRegistration _ c.label i _ _).trans
              (undisturbed_setRenewal _ i _))
          · exact (stored.trans (undisturbed_setRenewal _ i .head)).trans (.of_eq rfl rfl rfl rfl)

/-- A step of no clock disturbs the connections it touches. -/
theorem step_undisturbed {a : Action} (moved : s.step a = some s')
    (timeless : ∀ now monotonic, a ≠ .clock now monotonic) : Undisturbed (a.Touches s) s s' := by
  have own : ∀ {i : Nat} {t : Server}, a.task = some i → Undisturbed (· = i) s t →
      Undisturbed (a.Touches s) s t :=
    fun task undisturbed => undisturbed.mono fun j same => Or.inl (by rw [same, task])
  cases a with
  | clock now monotonic => exact absurd rfl (timeless now monotonic)
  | admitTunnel admission requested scheme window =>
    obtain ⟨valid, -, rfl⟩ := Option.map_eq_some_iff.mp moved
    refine ⟨fun j apart => ?_, ⟨_, List.map_append.symm⟩, rfl, rfl, rfl⟩
    have other : j ≠ s.connections.length := fun same => apart (Or.inr ⟨⟨_, _, _, _, rfl⟩, same⟩)
    simp only [List.getElem?_append]
    split
    · rfl
    · rw [List.getElem?_eq_none (by omega : s.connections.length ≤ j),
        List.getElem?_eq_none (by simp only [List.length_singleton]; omega)]
  | claim i phrases =>
    obtain ⟨c, found, moved⟩ := Option.bind_eq_some_iff.mp moved
    split at moved <;> cases moved
    exact own rfl (undisturbed_claim s i c phrases)
  | check i | recheck i | ready i =>
    obtain ⟨c, found, moved⟩ := Option.bind_eq_some_iff.mp moved
    split at moved <;> cases moved
    exact own rfl (undisturbed_setPhase s i _)
  | opened i result =>
    obtain ⟨c, found, moved⟩ := Option.bind_eq_some_iff.mp moved
    split at moved
    · cases moved
      exact own rfl (undisturbed_setPhase s i _)
    · cases moved
      exact own rfl (undisturbed_setPhase s i _)
    · cases moved
  | drop i =>
    obtain ⟨c, found, moved⟩ := Option.bind_eq_some_iff.mp moved
    split at moved <;> cases moved
    exact own rfl ((undisturbed_dropPendingIfCurrent s c.label i).trans (undisturbed_setPhase _ i _))
  | install i =>
    obtain ⟨c, found, moved⟩ := Option.bind_eq_some_iff.mp moved
    split at moved <;> cases moved
    exact own rfl (undisturbed_install s i c _)
  | ended i =>
    obtain ⟨c, found, moved⟩ := Option.bind_eq_some_iff.mp moved
    split at moved
    · split at moved <;> cases moved
      exact own rfl (undisturbed_setPhase s i _)
    · cases moved
  | renewalCancelled i =>
    obtain ⟨c, found, moved⟩ := Option.bind_eq_some_iff.mp moved
    split at moved <;> cases moved
    exact own rfl (undisturbed_setRenewal s i _)
  | deregister i =>
    obtain ⟨c, found, moved⟩ := Option.bind_eq_some_iff.mp moved
    split at moved <;> cases moved
    exact own rfl ((undisturbed_deregisterIfCurrent s c.label i).trans (undisturbed_setPhase _ i _))
  | renewHead i =>
    obtain ⟨c, found, moved⟩ := Option.bind_eq_some_iff.mp moved
    split at moved
    · obtain ⟨reg, -, rfl⟩ := Option.map_eq_some_iff.mp moved
      exact own rfl (undisturbed_renewHead s i c reg)
    · cases moved
  | renewWake i =>
    obtain ⟨c, found, moved⟩ := Option.bind_eq_some_iff.mp moved
    split at moved
    · obtain ⟨reg, -, rfl⟩ := Option.map_eq_some_iff.mp moved
      exact own rfl (undisturbed_renewWake s i c reg)
    · cases moved
  | renewAcquired i acquired =>
    obtain ⟨c, found, moved⟩ := Option.bind_eq_some_iff.mp moved
    split at moved
    · split at moved
      · cases moved
        exact own rfl (undisturbed_setRenewal s i _)
      · cases moved
        exact own rfl ((undisturbed_setRenewal s i .head).trans (.of_eq rfl rfl rfl rfl))
    · cases moved
  | renewResult i renewed =>
    obtain ⟨c, found, moved⟩ := Option.bind_eq_some_iff.mp moved
    split at moved
    · obtain ⟨reg, -, rfl⟩ := Option.map_eq_some_iff.mp moved
      exact own rfl (undisturbed_renewResult s i c reg renewed)
    · cases moved
  | revokeLease leaseId action =>
    cases moved
    exact undisturbed_revokeLease s leaseId action
  | applyPolicyUpdate update =>
    cases moved
    exact undisturbed_applyPolicyUpdate s update
  | visit label sent =>
    cases moved
    exact undisturbed_visit s label sent
  | visitorOpened v =>
    obtain ⟨visitor, -, moved⟩ := Option.bind_eq_some_iff.mp moved
    split at moved
    · obtain ⟨t, stepped, rfl⟩ := Option.map_eq_some_iff.mp moved
      exact (undisturbed_muxStep stepped).trans (.of_eq rfl rfl rfl rfl)
    · cases moved
  | visitorFailed v =>
    obtain ⟨visitor, -, moved⟩ := Option.bind_eq_some_iff.mp moved
    split at moved
    · obtain ⟨t, stepped, left⟩ := Option.bind_eq_some_iff.mp moved
      exact (undisturbed_muxStep stepped).trans (undisturbed_leave left)
    · cases moved
  | visitorLeft v =>
    obtain ⟨visitor, -, moved⟩ := Option.bind_eq_some_iff.mp moved
    split at moved
    · exact undisturbed_leave moved
    · cases moved
  | throttle i n =>
    simp only [Server.step] at moved
    split at moved
    · obtain ⟨reg, -, rfl⟩ := Option.map_eq_some_iff.mp moved
      exact undisturbed_throttleAccountBytes s reg n
    · cases moved
  | mux i a =>
    simp only [Server.step] at moved
    split at moved
    · cases moved
    · exact undisturbed_muxStep moved

/-- The configuration is set once. -/
theorem config_step {a : Action} (moved : s.step a = some s') : s'.config = s.config := by
  by_cases ticks : ∃ now monotonic, a = .clock now monotonic
  · obtain ⟨now, monotonic, rfl⟩ := ticks
    cases moved
    rfl
  · exact (step_undisturbed moved fun now monotonic same => ticks ⟨now, monotonic, same⟩).config

theorem config_of_run {as : List Action} (ran : Transition.run step s as = some s') :
    s'.config = s.config :=
  Transition.run_invariant' (fun _ _ _ same moved => (config_step moved).trans same) rfl ran

end Server

end Chute
