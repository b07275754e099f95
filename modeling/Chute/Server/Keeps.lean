import Chute.Mux.Emits
import Chute.Server.Tasks
import Chute.Server.Visitors

/-!
# What the steps leave of a registration

A part of a registration that neither its multiplexer nor the gate for visitors has a share in
stays as its claim made it, up to policy updates and renewals. The part is a parameter here.
-/
namespace Chute

namespace Server

variable {α : Type} {p : TunnelRegistration → α} {s s' s'' : Server} {i : Nat}

/-- What a connection came with, its label, and a part of its registration. -/
def Connection.part (p : TunnelRegistration → α) (c : Connection) :
    ((Option String × Scheme × TunnelAdmission × FlowWindow) × String) × Option α :=
  ((c.hello, c.label), c.registration.map p)

/-- The connections are the same up to the other parts of their registrations. -/
def Keeps (p : TunnelRegistration → α) (s s' : Server) : Prop :=
  s'.connections.map (Connection.part p) = s.connections.map (Connection.part p)

/-- Renewals have no share in the part. -/
def Leaseless (p : TunnelRegistration → α) : Prop :=
  ∀ reg expires observed generation, p { reg with
    leaseExpiresAt := expires, leaseObservedAt := observed, leaseGeneration := generation } = p reg

/-- Policy updates have no share in the part. -/
def Budgetless (p : TunnelRegistration → α) : Prop := ∀ reg budget, p { reg with budget := budget } = p reg

/-- The gate for visitors and the traffic have no share in the part. -/
structure Steady (p : TunnelRegistration → α) : Prop where
  gate : ∀ reg accepting, p { reg with acceptingVisitors := accepting } = p reg
  traffic : ∀ (reg : TunnelRegistration) mux, mux.config = reg.mux.config → p { reg with mux := mux } = p reg

namespace Keeps

theorem of_eq (same : s'.connections = s.connections) : Keeps p s s' := by
  rw [Keeps, same]

theorem refl (s : Server) : Keeps p s s := of_eq rfl

theorem trans (first : Keeps p s s') (second : Keeps p s' s'') : Keeps p s s'' :=
  Eq.trans second first

theorem foldl {β : Type} {f : Server → β → Server} (each : ∀ s a, Keeps p s (f s a)) (list : List β)
    (s : Server) : Keeps p s (list.foldl f s) := by
  induction list generalizing s with
  | nil => exact .refl s
  | cons a rest ih => exact (each s a).trans (ih _)

/-- A registration after the change was there before, with the same part. -/
theorem found (keeps : Keeps p s s') {c' : Connection} {reg' : TunnelRegistration}
    (here : s'.connections[i]? = some c') (registered : c'.registration = some reg') :
    ∃ c reg, s.connections[i]? = some c ∧ c.registration = some reg ∧ c.hello = c'.hello ∧
      c.label = c'.label ∧ p reg = p reg' := by
  have same := congrArg (·[i]?) keeps
  simp only [List.getElem?_map, here, Option.map_some] at same
  obtain ⟨c, before, equal⟩ := Option.map_eq_some_iff.mp same.symm
  have granted := congrArg Prod.snd equal
  simp only [Connection.part, registered, Option.map_some] at granted
  obtain ⟨reg, registered, parts⟩ := Option.map_eq_some_iff.mp granted
  exact ⟨c, reg, before, registered, congrArg (·.1.1) equal, congrArg (·.1.2) equal, parts⟩

/-- A registration before the change is there after it, with the same part. -/
theorem registration (keeps : Keeps p s s') {reg : TunnelRegistration} (known : s.registration? i = some reg) :
    ∃ reg', s'.registration? i = some reg' ∧ p reg' = p reg := by
  obtain ⟨c, here, registered⟩ := Option.bind_eq_some_iff.mp known
  obtain ⟨c', reg', found, registered', -, -, same⟩ := Keeps.found (Eq.symm keeps) here registered
  exact ⟨reg', Option.bind_eq_some_iff.mpr ⟨c', found, registered'⟩, same⟩

end Keeps

/-! ### The parts of a step -/

theorem keeps_setPhase (s : Server) (i : Nat) (phase : Phase) : Keeps p s (s.setPhase i phase) :=
  map_modifyConnection (Connection.part p) fun _ _ => rfl

theorem keeps_setRenewal (s : Server) (i : Nat) (renewal : RenewalPhase) :
    Keeps p s (s.setRenewal i renewal) :=
  map_modifyConnection (Connection.part p) fun _ _ => rfl

theorem keeps_modifyRegistration {f : TunnelRegistration → TunnelRegistration}
    (same : ∀ reg, s.registration? i = some reg → p (f reg) = p reg) :
    Keeps p s (s.modifyRegistration i f) := by
  apply map_modifyConnection (Connection.part p)
  intro c found
  cases registered : c.registration with
  | none => simp [Connection.part, Connection.hello, registered]
  | some reg =>
    have known : s.registration? i = some reg := by simp [registration?, found, registered]
    simp [Connection.part, Connection.hello, registered, same reg known]

theorem keeps_retireRegistration (steady : Steady p) (s : Server) (label : String) (i : Nat) (reason : RetireReason)
    (timeout : ℚ) : Keeps p s (s.retireRegistration label i reason timeout) := by
  unfold retireRegistration
  split
  · have disabled : Keeps p s (s.modifyRegistration i fun reg => { reg with acceptingVisitors := false }) :=
      keeps_modifyRegistration fun reg _ => steady.gate reg false
    apply disabled.trans
    cases reason with
    | leaseRevoked => exact .of_eq (connections_deregisterIfCurrent _ label i)
    | leaseExpired => exact .of_eq (connections_deregisterIfCurrent _ label i)
  · exact .refl s

theorem keeps_retirePending (steady : Steady p) (s : Server) (revoked : Nat) (candidates : List (String × Nat)) :
    Keeps p s (s.retirePending revoked candidates).2 := by
  have first : ∀ (s : Server) label i, Keeps p s (s.retirePendingRegistration label i).2 := by
    intro s label i
    unfold retirePendingRegistration
    split
    · have disabled : Keeps p s (s.modifyRegistration i fun reg => { reg with acceptingVisitors := false }) :=
        keeps_modifyRegistration fun reg _ => steady.gate reg false
      exact disabled.trans (.of_eq (connections_dropPendingIfCurrent _ label i))
    · exact .refl s
  induction candidates generalizing s revoked with
  | nil => exact .refl s
  | cons e rest ih =>
    obtain ⟨label, i⟩ := e
    have here := first s label i
    rw [retirePending.eq_def]
    cases ended : s.retirePendingRegistration label i with
    | mk dropped t =>
      rw [ended] at here
      simp only [ended]
      cases dropped with
      | true => exact here.trans (ih t _)
      | false => exact here.trans (ih t _)

theorem keeps_revokeLease (steady : Steady p) (s : Server) (leaseId : String) (action : RevocationAction) :
    Keeps p s (s.revokeLease leaseId action).2 := by
  unfold revokeLease
  split
  · exact .refl s
  · cases s.registrationsForLeaseIndex leaseId s.leaseLabels s.agents with
    | mk candidates leaseLabels =>
      simp only
      have retired := Keeps.foldl (fun t (e : String × Nat) => keeps_retireRegistration steady t e.1 e.2
        .leaseRevoked (RevocationAction.drainTimeout action)) candidates { s with leaseLabels := leaseLabels }
      generalize candidates.foldl _ _ = t at retired ⊢
      cases t.registrationsForLeaseIndex leaseId t.pendingLeaseLabels t.pendingAgents with
      | mk pending pendingLeaseLabels => exact retired.trans (keeps_retirePending steady _ _ _)

theorem keeps_retireOff (steady : Steady p) (s : Server) (label : String) (i : Nat) (reason : RetireReason) (timeout : ℚ)
    (renewal : RenewalPhase) : Keeps p s ((s.retireRegistration label i reason timeout).setRenewal i renewal) :=
  (keeps_retireRegistration steady s label i reason timeout).trans (keeps_setRenewal _ i renewal)

theorem keeps_renewHead (steady : Steady p) (s : Server) (i : Nat) (c : Connection) (reg : TunnelRegistration) :
    Keeps p s (s.renewHead i c reg) := by
  unfold renewHead
  split
  · exact keeps_setRenewal s i _
  · split
    · exact keeps_setRenewal s i _
    · split
      · exact keeps_retireOff steady s c.label i _ _ _
      · exact keeps_setRenewal s i _

theorem keeps_renewWake (steady : Steady p) (s : Server) (i : Nat) (c : Connection) (reg : TunnelRegistration) :
    Keeps p s (s.renewWake i c reg) := by
  unfold renewWake
  split
  · exact keeps_setRenewal s i _
  · split
    · exact keeps_retireOff steady s c.label i _ _ _
    · split
      · exact keeps_setRenewal s i _
      · exact keeps_setRenewal s i _

/-- A renewed lease goes into the registration that asked for it. -/
theorem keeps_renewResult (steady : Steady p) (leases : Leaseless p) {reg : TunnelRegistration} (known : s.registration? i = some reg) (c : Connection)
    (renewed : Option PyObject) : Keeps p s (s.renewResult i c reg renewed) := by
  unfold renewResult
  split
  · exact keeps_setRenewal s i _
  · split
    · exact keeps_setRenewal s i _
    · split
      · exact keeps_retireOff steady { s with leaseRenewalsRevoked := s.leaseRenewalsRevoked + 1 } _ _ _ _ _
      · split
        · exact keeps_setRenewal s i _
        next expires generation _ =>
          simp only
          have extended : Keeps p s (s.modifyRegistration i fun _ => { reg with
              leaseExpiresAt := some expires
              leaseObservedAt := some s.now
              leaseGeneration := generation }) := by
            apply keeps_modifyRegistration
            intro reg' known'
            rw [known] at known'
            cases known'
            exact leases reg _ _ _
          split
          · exact extended.trans (keeps_retireOff steady _ _ _ _ _ _)
          · exact extended.trans (keeps_setRenewal _ i _)

theorem keeps_install (steady : Steady p) (s : Server) (i : Nat) (c : Connection) (opened : Bool) :
    Keeps p s (s.install i c opened) := by
  have unindexed : ∀ (t : Server) label reg, (t.unindexPrevious label reg).connections = t.connections := by
    intro t label reg
    unfold unindexPrevious
    split
    · rfl
    · simp only
      split
      · rfl
      · rw [connections_dropAccountBandwidthIfIdle]
  unfold install
  split
  · exact .refl s
  next reg known =>
    split
    · have accepting : Keeps p s (({ s with
          pendingLeaseLabels := unindexLeaseLabel s.pendingLeaseLabels c.label reg
          pendingAgents := s.pendingAgents.erase c.label } : Server).modifyRegistration i fun reg =>
            { reg with acceptingVisitors := true }) :=
        keeps_modifyRegistration fun reg _ => steady.gate reg true
      have indexed := accepting.trans (.of_eq (unindexed _ c.label { reg with acceptingVisitors := true }))
      have running := (indexed.trans (keeps_setPhase _ i (.running opened))).trans
        (keeps_setRenewal _ i (if reg.leaseExpiresAt.isSome then .head else .off))
      simp only
      split
      · exact running
      · exact running
    · exact keeps_setPhase s i _

theorem connections_releaseVisitorBudget (s : Server) (accountId : String) :
    (s.releaseVisitorBudget accountId).connections = s.connections := by
  unfold releaseVisitorBudget
  split
  · rw [connections_dropAccountBandwidthIfIdle]
  · rfl

theorem keeps_leave {v : Nat} {visitor : Visitor} (moved : s.leave v visitor = some s') : Keeps p s s' := by
  obtain ⟨reg, -, rfl⟩ := Option.map_eq_some_iff.mp moved
  exact .of_eq (connections_releaseVisitorBudget _ _)

theorem keeps_afterMux (steady : Steady p) {reg : TunnelRegistration} (known : s.registration? i = some reg) {h : Host}
    (same : h.mux.config = reg.mux.config) : Keeps p s (s.afterMux i reg h) := by
  have moved : Keeps p s (s.modifyRegistration i fun reg => { reg with mux := h.mux }) := by
    apply keeps_modifyRegistration
    intro reg' known'
    rw [known] at known'
    cases known'
    exact steady.traffic reg h.mux same
  unfold afterMux
  simp only
  split
  · exact moved.trans (.of_eq (connections_dropAccountBandwidthIfIdle _ _))
  · exact moved

theorem keeps_muxStep (steady : Steady p) {a : Chute.Action} (moved : s.muxStep i a = some s') : Keeps p s s' := by
  obtain ⟨reg, known, moved⟩ := Option.bind_eq_some_iff.mp moved
  obtain ⟨e, stepped, rfl⟩ := Option.map_eq_some_iff.mp moved
  exact keeps_afterMux steady known (Host.config_step stepped)

theorem keeps_throttleAccountBytes (s : Server) (reg : TunnelRegistration) (n : Nat) :
    Keeps p s (s.throttleAccountBytes reg n).2 := by
  have swept : Keeps p s (if bandwidthMaxAccounts ≤ s.accountBandwidth.keys.length then
      s.sweepIdleBandwidth else s) := by
    split
    · exact Keeps.foldl (fun t accountId => .of_eq (connections_dropAccountBandwidthIfIdle t accountId)) _ s
    · exact .refl s
  unfold throttleAccountBytes
  split
  · exact .refl s
  · split
    · exact .refl s
    · split
      · exact .refl s
      · split
        · exact .of_eq rfl
        · simp only
          generalize (if bandwidthMaxAccounts ≤ s.accountBandwidth.keys.length then
            s.sweepIdleBandwidth else s) = t at swept
          split
          · exact swept
          · exact swept.trans (.of_eq rfl)

theorem keeps_visit (steady : Steady p) (s : Server) (label : String) (sent : Bool) : Keeps p s (s.visit label sent) := by
  have selected : Keeps p s (s.selectAgentForVisitor label).2 := by
    unfold selectAgentForVisitor
    split
    · exact .refl s
    · split
      · exact .refl s
      · split
        · exact .refl s
        · split
          · exact keeps_retireRegistration steady s label _ .leaseExpired leaseExpiryDrainTimeout
          · exact .refl s
  unfold visit
  split
  next t none_ =>
    rw [none_] at selected
    exact selected
  next i reg t chosen =>
    rw [chosen] at selected
    obtain ⟨rfl, -, known, -⟩ := selectAgentForVisitor_some chosen
    split
    · exact selected
    next u acquired =>
      have kept : u.connections = t.connections := by
        unfold tryAcquireVisitorBudget at acquired
        split at acquired <;> cases acquired
        rfl
      have known' : u.registration? i = some reg := by
        rw [registration?, kept]
        exact known
      have config : ((u.host reg).openStream sent).host.mux.config = reg.mux.config := by
        unfold Host.openStream
        simp only
        split
        · rfl
        · rfl
      have opened := (selected.trans (.of_eq kept)).trans (keeps_afterMux steady known' config)
      simp only
      split
      · exact opened
      · exact opened.trans (.of_eq (connections_releaseVisitorBudget _ _))

theorem keeps_setAccountBudget (budgets : Budgetless p) (s : Server) (accountId : String) (budget : Budget) :
    Keeps p s (s.setAccountBudget accountId budget) := by
  unfold setAccountBudget
  split
  · refine Keeps.trans (.of_eq rfl) (Keeps.foldl (fun t label => ?_) _ { s with
      accountBudgetOverrides := s.accountBudgetOverrides.insert accountId budget })
    split
    · exact .refl t
    · exact keeps_modifyRegistration fun reg _ => budgets reg budget
  · exact .of_eq rfl

theorem keeps_applyPolicyUpdate (steady : Steady p) (budgets : Budgetless p) (s : Server)
    (update : PyObject) : Keeps p s (s.applyPolicyUpdate update).2 := by
  unfold applyPolicyUpdate
  split
  · exact .of_eq rfl
  next u _ =>
    have revoked := Keeps.foldl (fun t (r : String × RevocationAction) =>
      keeps_revokeLease steady t r.1 r.2) u.revocations s
    exact (revoked.trans (Keeps.foldl (fun t (b : String × Budget) =>
      keeps_setAccountBudget budgets t b.1 b.2) u.accountBudgets _)).trans (.of_eq rfl)

/-- **Only a claim makes a registration, and only a policy update or a renewal another one of it.** -/
theorem step_keeps (steady : Steady p) {a : Action} (moved : s.step a = some s')
    (unclaimed : ∀ i phrases, a ≠ .claim i phrases)
    (admits : ∀ admission requested scheme window, a ≠ .admitTunnel admission requested scheme window)
    (renewals : ∀ i renewed, a = .renewResult i renewed → Leaseless p)
    (updates : ∀ update, a = .applyPolicyUpdate update → Budgetless p) : Keeps p s s' := by
  cases a with
  | clock now monotonic =>
    cases moved
    rfl
  | admitTunnel admission requested scheme window => exact absurd rfl (admits _ _ _ _)
  | claim i phrases => exact absurd rfl (unclaimed _ _)
  | applyPolicyUpdate update =>
    cases moved
    exact keeps_applyPolicyUpdate steady (updates update rfl) s update
  | check i | recheck i | ready i =>
    obtain ⟨c, found, moved⟩ := Option.bind_eq_some_iff.mp moved
    split at moved <;> cases moved
    exact keeps_setPhase s i _
  | opened i result =>
    obtain ⟨c, found, moved⟩ := Option.bind_eq_some_iff.mp moved
    split at moved
    · cases moved
      exact keeps_setPhase s i _
    · cases moved
      exact keeps_setPhase s i _
    · cases moved
  | drop i =>
    obtain ⟨c, found, moved⟩ := Option.bind_eq_some_iff.mp moved
    split at moved <;> cases moved
    exact Keeps.trans (.of_eq (connections_dropPendingIfCurrent s c.label i)) (keeps_setPhase _ i _)
  | install i =>
    obtain ⟨c, found, moved⟩ := Option.bind_eq_some_iff.mp moved
    split at moved <;> cases moved
    exact keeps_install steady s i c _
  | ended i =>
    obtain ⟨c, found, moved⟩ := Option.bind_eq_some_iff.mp moved
    split at moved
    · split at moved <;> cases moved
      exact keeps_setPhase s i _
    · cases moved
  | renewalCancelled i =>
    obtain ⟨c, found, moved⟩ := Option.bind_eq_some_iff.mp moved
    split at moved <;> cases moved
    exact keeps_setRenewal s i _
  | deregister i =>
    obtain ⟨c, found, moved⟩ := Option.bind_eq_some_iff.mp moved
    split at moved <;> cases moved
    exact Keeps.trans (.of_eq (connections_deregisterIfCurrent s c.label i)) (keeps_setPhase _ i _)
  | renewHead i =>
    obtain ⟨c, found, moved⟩ := Option.bind_eq_some_iff.mp moved
    split at moved
    · obtain ⟨reg, -, rfl⟩ := Option.map_eq_some_iff.mp moved
      exact keeps_renewHead steady s i c reg
    · cases moved
  | renewWake i =>
    obtain ⟨c, found, moved⟩ := Option.bind_eq_some_iff.mp moved
    split at moved
    · obtain ⟨reg, -, rfl⟩ := Option.map_eq_some_iff.mp moved
      exact keeps_renewWake steady s i c reg
    · cases moved
  | renewAcquired i acquired =>
    obtain ⟨c, found, moved⟩ := Option.bind_eq_some_iff.mp moved
    split at moved
    · split at moved
      · cases moved
        exact keeps_setRenewal s i _
      · cases moved
        exact keeps_setRenewal s i _
    · cases moved
  | renewResult i renewed =>
    obtain ⟨c, found, moved⟩ := Option.bind_eq_some_iff.mp moved
    split at moved
    · obtain ⟨reg, registered, rfl⟩ := Option.map_eq_some_iff.mp moved
      exact keeps_renewResult steady (renewals _ _ rfl) (by simp [registration?, found, registered]) c renewed
    · cases moved
  | revokeLease leaseId action =>
    cases moved
    exact keeps_revokeLease steady s leaseId action
  | visit label sent =>
    cases moved
    exact keeps_visit steady s label sent
  | visitorOpened v =>
    obtain ⟨visitor, -, moved⟩ := Option.bind_eq_some_iff.mp moved
    split at moved
    · obtain ⟨t, stepped, rfl⟩ := Option.map_eq_some_iff.mp moved
      exact (keeps_muxStep steady stepped).trans (.of_eq rfl)
    · cases moved
  | visitorFailed v =>
    obtain ⟨visitor, -, moved⟩ := Option.bind_eq_some_iff.mp moved
    split at moved
    · obtain ⟨t, stepped, left⟩ := Option.bind_eq_some_iff.mp moved
      exact (keeps_muxStep steady stepped).trans (keeps_leave left)
    · cases moved
  | visitorLeft v =>
    obtain ⟨visitor, -, moved⟩ := Option.bind_eq_some_iff.mp moved
    split at moved
    · exact keeps_leave moved
    · cases moved
  | throttle i n =>
    simp only [Server.step] at moved
    split at moved
    · obtain ⟨reg, -, rfl⟩ := Option.map_eq_some_iff.mp moved
      exact keeps_throttleAccountBytes s reg n
    · cases moved
  | mux i a =>
    simp only [Server.step] at moved
    split at moved
    · cases moved
    · exact keeps_muxStep steady moved


/-! ### After the claim -/

/-- What a connection came with, its label, and whether it is registered. -/
def Connection.settled (c : Connection) :
    (Option String × Scheme × TunnelAdmission × FlowWindow) × String × Bool :=
  (c.hello, c.label, c.registration.isSome)

/-- No connection changes what its claim has settled. -/
def Settled (s s' : Server) : Prop :=
  s'.connections.map Connection.settled = s.connections.map Connection.settled

theorem Keeps.settled (keeps : Keeps p s s') : Settled s s' := by
  have same := congrArg (List.map fun b : ((Option String × Scheme × TunnelAdmission × FlowWindow) ×
    String) × Option α => (b.1.1, b.1.2, b.2.isSome)) keeps
  have parts : Connection.settled = fun c => (c.hello, c.label, c.registration.isSome) := rfl
  rw [Settled, parts]
  simpa [Function.comp_def, Connection.part] using same

theorem Undisturbed.settled (kept : Undisturbed (fun _ => False) s s') : Settled s s' := by
  refine List.ext_getElem? fun j => ?_
  have same := congrArg (Option.map fun kept : Connection × Option Terms =>
    (kept.1.hello, kept.1.label, kept.2.isSome)) (kept.connections j id)
  simp only [Option.map_map, Function.comp_def, Connection.kept, Option.isSome_map] at same
  rw [List.getElem?_map, List.getElem?_map]
  exact same

/-- What a registration is built with and keeps. -/
def TunnelRegistration.title (reg : TunnelRegistration) :
    String × Option String × String × Option String :=
  (reg.accountId, reg.credentialId, reg.publicUrl, reg.leaseId)

def Connection.bound (c : Connection) :
    ((Option String × Scheme × TunnelAdmission × FlowWindow) × String) ×
      Option (String × Option String × String × Option String) :=
  ((c.hello, c.label), c.registration.map TunnelRegistration.title)

/-- No connection changes what its claim has settled, and its registration what it was built
with. -/
def Bound (s s' : Server) : Prop :=
  s'.connections.map Connection.bound = s.connections.map Connection.bound

theorem bound_setPhase (s : Server) (i : Nat) (phase : Phase) : Bound s (s.setPhase i phase) :=
  map_modifyConnection Connection.bound fun _ _ => rfl

/-- Only a claim settles something. -/
theorem step_bound {a : Action} (moved : s.step a = some s')
    (unclaimed : ∀ i phrases, a ≠ .claim i phrases)
    (admits : ∀ admission requested scheme window, a ≠ .admitTunnel admission requested scheme window) :
    Bound s s' :=
  step_keeps ⟨fun _ _ => rfl, fun _ _ _ => rfl⟩ moved unclaimed admits (fun _ _ _ _ _ _ _ => rfl)
    fun _ _ _ _ => rfl

/-- What a connection with a registration is bound to satisfies `p`. -/
def Vouched (p : (Option String × Scheme × TunnelAdmission × FlowWindow) × String →
    String × Option String × String × Option String → Prop) (s : Server) : Prop :=
  ∀ (j : Nat) (c : Connection) reg, s.connections[j]? = some c → c.registration = some reg →
    p (c.hello, c.label) reg.title

section Vouched

variable {p : (Option String × Scheme × TunnelAdmission × FlowWindow) × String →
  String × Option String × String × Option String → Prop}

theorem vouched_start (config : ServerConfig) (now monotonic : ℚ) :
    Vouched p (start config now monotonic) := by
  intro j c reg found
  simp [start] at found

theorem Vouched.bound (vouched : s.Vouched p) (bound : Bound s s') : s'.Vouched p := by
  intro j c' reg' found' registered'
  have same := congrArg (·[j]?) bound
  simp only [List.getElem?_map, found', Option.map_some] at same
  obtain ⟨c, found, kept⟩ := Option.map_eq_some_iff.mp same.symm
  have title : c.registration.map TunnelRegistration.title = some reg'.title :=
    (congrArg Prod.snd kept).trans (by rw [Connection.bound, registered']; rfl)
  obtain ⟨reg, registered, equal⟩ := Option.map_eq_some_iff.mp title
  have hello : (c.hello, c.label) = (c'.hello, c'.label) := congrArg Prod.fst kept
  rw [← hello, ← equal]
  exact vouched j c reg found registered

theorem Vouched.claim (vouched : s.Vouched p) {c : Connection} (found : s.connections[i]? = some c)
    {phrases : Fin 100 → String} (claimed : ∀ label url, s.prepareClaim c phrases = .ok (label, url) →
      p (c.hello, label) (s.newRegistration c url).title) : (s.claim i c phrases).Vouched p := by
  obtain ⟨reconnects, ⟨r, -, same⟩ | ⟨label, url, prepared, same⟩⟩ := claim_cases s i c phrases
  · rw [same]
    exact vouched.bound (bound_setPhase { s with accountReconnects := reconnects } i _)
  · rw [same]
    intro j c' reg found' registered
    simp only [enterPending, modifyConnection, List.getElem?_modify] at found'
    obtain ⟨old, there, rfl⟩ := Option.map_eq_some_iff.mp found'
    by_cases here : i = j
    · subst here
      rw [found] at there
      cases there
      simp only [if_true] at registered ⊢
      cases registered
      exact claimed label url prepared
    · simp only [if_neg here] at registered ⊢
      exact vouched j old reg there registered

/-- A claim is all that a property of what connections are bound to depends on. -/
theorem Vouched.step (vouched : s.Vouched p) {a : Action} (moved : s.step a = some s')
    (claimed : ∀ i phrases c label url, a = .claim i phrases → s.prepareClaim c phrases = .ok (label, url) →
      p (c.hello, label) (s.newRegistration c url).title) : s'.Vouched p := by
  by_cases claims : ∃ i phrases, a = .claim i phrases
  · obtain ⟨i, phrases, rfl⟩ := claims
    obtain ⟨c, found, moved⟩ := Option.bind_eq_some_iff.mp moved
    split at moved <;> cases moved
    exact vouched.claim found fun label url prepared => claimed i phrases c label url rfl prepared
  by_cases admits : ∃ admission requested scheme window, a = .admitTunnel admission requested scheme window
  · obtain ⟨admission, requested, scheme, window, rfl⟩ := admits
    obtain ⟨valid, -, rfl⟩ := Option.map_eq_some_iff.mp moved
    intro j c reg found registered
    simp only [List.getElem?_append] at found
    split at found
    · exact vouched j c reg found registered
    · have last := List.mem_of_getElem? found
      rw [List.mem_singleton] at last
      subst last
      cases registered
  · exact vouched.bound (step_bound moved (fun i phrases same => claims ⟨i, phrases, same⟩)
      fun admission requested scheme window same => admits ⟨_, _, _, _, same⟩)

end Vouched

theorem step_settled {a : Action} (moved : s.step a = some s')
    (unclaimed : ∀ i phrases, a ≠ .claim i phrases)
    (admits : ∀ admission requested scheme window, a ≠ .admitTunnel admission requested scheme window) :
    Settled s s' := by
  have bound := step_bound moved unclaimed admits
  exact Keeps.settled bound

theorem hellos_claim (s : Server) (i : Nat) (c : Connection) (phrases : Fin 100 → String) :
    (s.claim i c phrases).connections.map Connection.hello = s.connections.map Connection.hello := by
  obtain ⟨reconnects, ⟨r, -, same⟩ | ⟨label, url, -, same⟩⟩ := claim_cases s i c phrases
  · rw [same]
    exact map_modifyConnection Connection.hello fun _ _ => rfl
  · rw [same]
    exact map_modifyConnection Connection.hello fun _ _ => rfl

/-- Only an admission brings a connection in, and no step changes what one came with. -/
theorem hellos_step {a : Action} (moved : s.step a = some s')
    (others : ∀ admission requested scheme window, a ≠ .admitTunnel admission requested scheme window) :
    s'.connections.map Connection.hello = s.connections.map Connection.hello := by
  by_cases claims : ∃ i phrases, a = .claim i phrases
  · obtain ⟨i, phrases, rfl⟩ := claims
    obtain ⟨c, -, moved⟩ := Option.bind_eq_some_iff.mp moved
    split at moved <;> cases moved
    exact hellos_claim s i c phrases
  · have settled := step_settled moved (fun i phrases same => claims ⟨i, phrases, same⟩) others
    simpa [Function.comp_def, Connection.settled] using congrArg (List.map Prod.fst) settled

end Server

end Chute
