import Chute.Lib.Transition
import Chute.Server.Revocation

/-!
# The registry stays coherent

Every step of every task of the relay, in any order, is a sequence of moves of the label
table that keeps the three indexes exact.
-/
namespace Chute

open Roster (Move Stage)

namespace Server

variable {s s' : Server} {i : Nat} {c : Connection}

/-! ### The claim -/

/-- The labels that a claim counts are those the table counts. -/
theorem Coherent.ownedLabels_eq (coherent : s.Coherent) (accountId : String) :
    s.ownedLabels accountId = s.roster.owned accountId := by
  ext label
  rw [Roster.mem_owned]
  unfold ownedLabels
  simp only [Finset.mem_union, List.mem_toFinset, List.mem_map, List.mem_filter, Option.any_eq_true,
    beq_iff_eq]
  refine or_congr (coherent.accounts.mem accountId label) ?_
  constructor
  · rintro ⟨e, ⟨member, reg, found, account⟩, rfl⟩
    have holds : s.pendingAgents.lookup e.1 = some e.2 := AList.mem_lookup_iff.mpr member
    obtain ⟨reg', found', owner, -⟩ := coherent.pending holds
    rw [found] at found'
    cases found'
    rw [owner, account]
  · intro pending
    obtain ⟨j, holds, -⟩ := Option.bind_eq_some_iff.mp pending
    obtain ⟨reg, found, owner, -⟩ := coherent.pending holds
    refine ⟨⟨label, j⟩, ⟨AList.mem_lookup_iff.mp holds, reg, found, ?_⟩, rfl⟩
    exact Option.some.inj (owner.symm.trans pending)

/-- A claim that is authorised and within the relay's cap is one the table permits. -/
theorem Coherent.permits (coherent : s.Coherent) {label : String}
    (authorised : s.authorizeClaim c.admission label = none)
    (within : s.globalAgentBudgetOk label = true) : s.roster.Permits c.entry label := by
  unfold authorizeClaim at authorised
  split at authorised
  · cases authorised
  split at authorised
  · cases authorised
  next untaken =>
  split at authorised
  · cases authorised
  next free =>
  split at authorised
  · cases authorised
  next room =>
  refine ⟨?_, AList.lookup_eq_none.mpr free, ?_, ?_⟩
  · intro account serves
    obtain ⟨j, here, -⟩ := Option.bind_eq_some_iff.mp serves
    obtain ⟨reg, found, owner, -⟩ := coherent.active here
    have same : reg.accountId = c.admission.lease.accountId := by
      have held : (s.agents.lookup label).bind s.registration? = some reg :=
        Option.bind_eq_some_iff.mpr ⟨j, here, found⟩
      rw [held] at untaken
      simpa using untaken
    rw [owner] at serves
    cases serves
    exact same
  · rw [coherent.ownedLabels_eq] at room
    by_contra refused
    simp only [not_or, not_lt] at refused
    exact room refused
  · simp only [globalAgentBudgetOk, Bool.or_eq_true, decide_eq_true_eq] at within
    exact within

/-- The phases before a claim and after its refusal. -/
theorem follows_reject (coherent : s.Coherent) (found : s.connections[i]? = some c)
    (waiting : c.phase = .admitted) (r : Rejection) :
    Follows s (· = .refuse i) (s.setPhase i (.over_ false (.rejected r))) := by
  have here : s.roster.stage i = some .waiting := by
    simp [Roster.stage, roster, found, Connection.entry, waiting, Phase.stage]
  have step := Roster.Steps.refuse (r := s.roster) i here
  have moved : (s.setPhase i (.over_ false (.rejected r))).roster = s.roster.setStage i .refused :=
    roster_modifyConnection fun c' _ => rfl
  have registered : ∀ j, (s.setPhase i (.over_ false (.rejected r))).registration? j =
      s.registration? j := by
    intro j
    refine (registration?_modifyConnection s i j _).trans ?_
    split
    · rfl
    · rfl
  refine follows_of_step ?_ (moved ▸ step) rfl
  constructor
  · rw [moved]; exact coherent.sound.step step
  · intro j reg known
    rw [registered] at known
    rw [moved, Roster.account_setStage, Roster.lease_setStage]
    exact coherent.linked j reg known
  · intro j label staged
    rw [registered]
    rw [moved, Roster.stage_setStage] at staged
    split at staged
    next same => simp at staged
    · exact coherent.present j label staged
  · rw [moved]
    refine coherent.accounts.congr fun l => ?_
    exact congrArg _ (funext fun j => Roster.account_setStage ..)
  · rw [moved]
    refine coherent.leases.congr fun l => ?_
    exact congrArg _ (funext fun j => Roster.lease_setStage ..)
  · rw [moved]
    refine coherent.pendingLeases.congr fun l => ?_
    exact congrArg _ (funext fun j => Roster.lease_setStage ..)
  · intro label j reg serves known
    rw [registered] at known
    exact coherent.accepting label j reg serves known

/-- The limiter touches its own book only. -/
theorem accountReconnectBudgetOk_eq (s : Server) (accountId : String) (budget : Budget) :
    ∃ reconnects, (s.accountReconnectBudgetOk accountId budget).2 =
      { s with accountReconnects := reconnects } := by
  unfold accountReconnectBudgetOk
  cases budget.maxReconnectsPerMin with
  | none => exact ⟨s.accountReconnects, rfl⟩
  | some limit =>
    simp only
    split
    · exact ⟨_, rfl⟩
    · exact ⟨_, rfl⟩

theorem quiet_reconnects (s : Server) (reconnects : List (String × List ℚ)) :
    Quiet s { s with accountReconnects := reconnects } := ⟨rfl, rfl, rfl, rfl, rfl, rfl, rfl⟩

/-- How a claim ends: it is refused, or the registration that it builds is pending. Either way
the limiter may have written its book. -/
theorem claim_cases (s : Server) (i : Nat) (c : Connection) (phrases : Fin 100 → String) :
    ∃ reconnects,
      (∃ r, (s.prepareClaim c phrases = .error r ∨
          (∃ claimed, s.prepareClaim c phrases = .ok claimed) ∧ (r = .reconnectLimit ∨ r = .leaseExpired)) ∧
        s.claim i c phrases =
          { s with accountReconnects := reconnects }.setPhase i (.over_ false (.rejected r))) ∨
      ∃ label url, s.prepareClaim c phrases = .ok (label, url) ∧
        s.claim i c phrases =
          { s with accountReconnects := reconnects }.enterPending i label (s.newRegistration c url) := by
  unfold claim
  cases prepared : s.prepareClaim c phrases with
  | error r => exact ⟨s.accountReconnects, Or.inl ⟨r, Or.inl rfl, rfl⟩⟩
  | ok claimed =>
    obtain ⟨reconnects, same⟩ := accountReconnectBudgetOk_eq s c.admission.lease.accountId
      (s.accountBudgetFor c.admission.lease.accountId c.admission.budget)
    refine ⟨reconnects, ?_⟩
    simp only
    split
    next t limited =>
      rw [limited] at same
      subst same
      exact Or.inl ⟨_, Or.inr ⟨⟨claimed, rfl⟩, Or.inl rfl⟩, rfl⟩
    next t noted =>
      rw [noted] at same
      subst same
      split
      · exact Or.inl ⟨_, Or.inr ⟨⟨claimed, rfl⟩, Or.inr rfl⟩, rfl⟩
      · exact Or.inr ⟨claimed.1, claimed.2, rfl, rfl⟩

/-- What a claim that is not refused has passed. -/
theorem prepareClaim_ok {phrases : Fin 100 → String} {label url : String}
    (ok : s.prepareClaim c phrases = .ok (label, url)) :
    s.chooseLabel c phrases = .ok label ∧ s.authorizeClaim c.admission label = none ∧
      s.globalAgentBudgetOk label = true ∧ s.publicUrlFor label c.scheme = .ok url := by
  unfold prepareClaim at ok
  cases chosen : s.chooseLabel c phrases with
  | error r => rw [chosen] at ok; cases ok
  | ok other =>
    rw [chosen] at ok
    simp only [Except.bind, checkClaim] at ok
    split at ok
    · cases ok
    next authorised =>
      split at ok
      next within =>
        cases published : s.publicUrlFor other c.scheme with
        | error r => rw [published] at ok; cases ok
        | ok url' =>
          rw [published] at ok
          cases ok
          exact ⟨rfl, authorised, within, published⟩
      · cases ok

theorem follows_claim (coherent : s.Coherent) (found : s.connections[i]? = some c)
    (waiting : c.phase = .admitted) (phrases : Fin 100 → String) :
    Follows s (fun m => m = .refuse i ∨ ∃ label, m = .claim i label) (s.claim i c phrases) := by
  obtain ⟨reconnects, ends⟩ := claim_cases s i c phrases
  have quiet := quiet_reconnects s reconnects
  rcases ends with ⟨r, -, same⟩ | ⟨label, url, prepared, same⟩
  · rw [same]
    exact (coherent.follows quiet).trans
      ((follows_reject (coherent.quiet quiet) found waiting r).mono fun m => Or.inl)
  · rw [same]
    obtain ⟨-, authorised, within, -⟩ := prepareClaim_ok prepared
    refine (coherent.follows quiet).trans ((follows_enterPending (coherent.quiet quiet) found
      waiting ?_ rfl rfl).mono fun m claims => Or.inr ⟨label, claims⟩)
    rw [quiet.roster]
    exact coherent.permits authorised within

/-! ### The other steps -/

/-- A new connection is in no map. -/
theorem follows_admitTunnel (coherent : s.Coherent) {c : Connection} (waiting : c.phase = .admitted)
    (fresh : c.registration = none) :
    Follows s (fun m => ∃ account lease maxTunnels, m = .admitTunnel account lease maxTunnels)
      { s with connections := s.connections ++ [c] } := by
  have step := Roster.Steps.admitTunnel (r := s.roster) c.admission.lease.accountId
    c.admission.lease.leaseId c.admission.maxTunnels
  have moved : ({ s with connections := s.connections ++ [c] } : Server).roster =
      { s.roster with entries := s.roster.entries ++ [⟨c.admission.lease.accountId,
        c.admission.lease.leaseId, c.admission.maxTunnels, .waiting⟩] } := by
    simp [roster, Connection.entry, waiting, Phase.stage]
  have registered : ∀ j, ({ s with connections := s.connections ++ [c] } : Server).registration? j =
      s.registration? j := by
    intro j
    unfold registration?
    simp only [List.getElem?_append]
    split
    · rfl
    next long =>
      rw [List.getElem?_eq_none (Nat.le_of_not_lt long)]
      cases at_ : [c][j - s.connections.length]? with
      | none => rfl
      | some c' =>
        have same : c' = c := by simpa using List.mem_of_getElem? at_
        simp [same, fresh]
  have known : ∀ j t, s.roster.stage j = some t →
      ({ s with connections := s.connections ++ [c] } : Server).roster.account j =
          s.roster.account j ∧
        ({ s with connections := s.connections ++ [c] } : Server).roster.lease j =
          s.roster.lease j := by
    intro j t staged
    rw [moved]
    exact step.account_eq staged
  refine follows_of_step ?_ (moved ▸ step) ⟨_, _, _, rfl⟩
  constructor
  · rw [moved]; exact coherent.sound.step step
  · intro j reg there
    rw [registered] at there
    obtain ⟨account, lease⟩ := coherent.linked j reg there
    obtain ⟨e, entry, -⟩ := Option.map_eq_some_iff.mp account
    obtain ⟨first, second⟩ := known j e.stage (by simp [Roster.stage, entry])
    exact ⟨first.trans account, second.trans lease⟩
  · intro j label staged
    rw [registered]
    refine coherent.present j label ?_
    have before : ∀ t, t ≠ Stage.waiting →
        ({ s with connections := s.connections ++ [c] } : Server).roster.stage j = some t →
          s.roster.stage j = some t := by
      intro t past after
      rw [moved] at after
      simp only [Roster.stage, List.getElem?_append] at after ⊢
      split at after
      · exact after
      · obtain ⟨e, here, rfl⟩ := Option.map_eq_some_iff.mp after
        have last := List.mem_of_getElem? here
        simp only [List.mem_singleton] at last
        exact absurd (by rw [last]) past
    exact staged.imp (before _ (by simp)) (before _ (by simp))
  · refine coherent.accounts.congr fun label => ?_
    show (s.agents.lookup label).bind _ = (s.agents.lookup label).bind _
    cases serves : s.agents.lookup label with
    | none => rfl
    | some j => exact (known j _ (coherent.sound.active label j serves)).1
  · refine coherent.leases.congr fun label => ?_
    show (s.agents.lookup label).bind _ = (s.agents.lookup label).bind _
    cases serves : s.agents.lookup label with
    | none => rfl
    | some j => exact (known j _ (coherent.sound.active label j serves)).2
  · refine coherent.pendingLeases.congr fun label => ?_
    show (s.pendingAgents.lookup label).bind _ = (s.pendingAgents.lookup label).bind _
    cases holds : s.pendingAgents.lookup label with
    | none => rfl
    | some j => exact (known j _ (coherent.sound.pending label j holds)).2
  · intro label j reg serves there
    rw [registered] at there
    exact coherent.accepting label j reg serves there

theorem quiet_afterMux (s : Server) (i : Nat) (reg : TunnelRegistration) (h : Host) :
    Quiet s (s.afterMux i reg h) := by
  have stored : Quiet s { s.modifyRegistration i (fun reg => { reg with mux := h.mux }) with
      accountBuffered := Function.update s.accountBuffered reg.accountId h.account.buffered } :=
    (quiet_modifyRegistration (s := s) (i := i) (f := fun reg => { reg with mux := h.mux })
      fun _ _ => rfl).trans ⟨rfl, rfl, rfl, rfl, rfl, rfl, rfl⟩
  unfold afterMux
  simp only
  split
  · exact stored.trans (quiet_dropAccountBandwidthIfIdle _ _)
  · exact stored

theorem quiet_releaseVisitorBudget (s : Server) (accountId : String) :
    Quiet s (s.releaseVisitorBudget accountId) := by
  unfold releaseVisitorBudget
  split
  · refine Quiet.trans ?_ (quiet_dropAccountBandwidthIfIdle _ _)
    exact ⟨rfl, rfl, rfl, rfl, rfl, rfl, rfl⟩
  · exact ⟨rfl, rfl, rfl, rfl, rfl, rfl, rfl⟩

theorem quiet_tryAcquireVisitorBudget {reg : TunnelRegistration}
    (acquired : s.tryAcquireVisitorBudget reg = some s') : Quiet s s' := by
  unfold tryAcquireVisitorBudget at acquired
  split at acquired
  · cases acquired
  · cases acquired
    exact ⟨rfl, rfl, rfl, rfl, rfl, rfl, rfl⟩

theorem quiet_muxStep {a : Chute.Action} (moved : s.muxStep i a = some s') : Quiet s s' := by
  obtain ⟨reg, -, moved⟩ := Option.bind_eq_some_iff.mp moved
  obtain ⟨e, -, rfl⟩ := Option.map_eq_some_iff.mp moved
  exact quiet_afterMux s i reg e.host

theorem quiet_leave {v : Nat} {visitor : Visitor} (moved : s.leave v visitor = some s') :
    Quiet s s' := by
  obtain ⟨reg, -, rfl⟩ := Option.map_eq_some_iff.mp moved
  refine Quiet.trans ?_ (quiet_releaseVisitorBudget _ _)
  exact ⟨rfl, rfl, rfl, rfl, rfl, rfl, rfl⟩

theorem quiet_foldl {α : Type} {f : Server → α → Server} (each : ∀ s a, Quiet s (f s a))
    (list : List α) (s : Server) : Quiet s (list.foldl f s) := by
  induction list generalizing s with
  | nil => exact .refl s
  | cons a rest ih => exact (each s a).trans (ih _)

theorem quiet_setAccountBudget (s : Server) (accountId : String) (budget : Budget) :
    Quiet s (s.setAccountBudget accountId budget) := by
  unfold setAccountBudget
  split
  · simp only
    refine Quiet.trans ?_ (quiet_foldl (fun s label => ?_) _ _)
    · exact ⟨rfl, rfl, rfl, rfl, rfl, rfl, rfl⟩
    · split
      · exact .refl s
      · exact quiet_modifyRegistration fun _ _ => rfl
  · exact ⟨rfl, rfl, rfl, rfl, rfl, rfl, rfl⟩

theorem quiet_scheduleBytes (s : Server) (accountId : String) (limit n : Nat) (nextAt : ℚ) :
    Quiet s (s.scheduleBytes accountId limit n nextAt).2 :=
  ⟨rfl, rfl, rfl, rfl, rfl, rfl, rfl⟩

theorem quiet_throttleAccountBytes (s : Server) (reg : TunnelRegistration) (n : Nat) :
    Quiet s (s.throttleAccountBytes reg n).2 := by
  unfold throttleAccountBytes
  split
  · exact .refl s
  · split
    · exact .refl s
    · split
      · exact .refl s
      · split
        · exact quiet_scheduleBytes s _ _ _ _
        · simp only
          have swept : Quiet s (if bandwidthMaxAccounts ≤ s.accountBandwidth.keys.length then
              s.sweepIdleBandwidth else s) := by
            split
            · exact quiet_foldl (fun s a => quiet_dropAccountBandwidthIfIdle s a) _ s
            · exact .refl s
          generalize (if bandwidthMaxAccounts ≤ s.accountBandwidth.keys.length then
            s.sweepIdleBandwidth else s) = t at swept
          split
          · exact swept
          · exact swept.trans (quiet_scheduleBytes t _ _ _ _)

/-- A renewal task can only retire its own registration. -/
theorem follows_renewHead (coherent : s.Coherent) (reg : TunnelRegistration) :
    Follows s (· = .remove i c.label) (s.renewHead i c reg) := by
  unfold renewHead
  split
  · exact coherent.follows (quiet_setRenewal s i _)
  · split
    · exact coherent.follows (quiet_setRenewal s i _)
    · split
      · exact (follows_retireRegistration coherent c.label i _ _).quiet (quiet_setRenewal _ i _)
      · exact coherent.follows (quiet_setRenewal s i _)

theorem follows_renewWake (coherent : s.Coherent) (reg : TunnelRegistration) :
    Follows s (· = .remove i c.label) (s.renewWake i c reg) := by
  unfold renewWake
  split
  · exact coherent.follows (quiet_setRenewal s i _)
  · split
    · exact (follows_retireRegistration coherent c.label i _ _).quiet (quiet_setRenewal _ i _)
    · split
      · exact coherent.follows (quiet_setRenewal s i _)
      · exact coherent.follows (quiet_setRenewal s i _)

theorem follows_renewResult (coherent : s.Coherent) {reg : TunnelRegistration}
    (known : s.registration? i = some reg) (renewed : Option PyObject) :
    Follows s (· = .remove i c.label) (s.renewResult i c reg renewed) := by
  unfold renewResult
  split
  · exact coherent.follows ((quiet_setRenewal s i _).trans ⟨rfl, rfl, rfl, rfl, rfl, rfl, rfl⟩)
  · split
    · exact coherent.follows (quiet_setRenewal s i _)
    · split
      · -- the control plane has revoked the lease
        have noted : Quiet s { s with leaseRenewalsRevoked := s.leaseRenewalsRevoked + 1 } :=
          ⟨rfl, rfl, rfl, rfl, rfl, rfl, rfl⟩
        have retired : Follows s (· = .remove i c.label) (retireRegistration
            { s with leaseRenewalsRevoked := s.leaseRenewalsRevoked + 1 } c.label i .leaseRevoked
            leaseExpiryDrainTimeout) :=
          (coherent.follows noted).trans
            (follows_retireRegistration (coherent.quiet noted) c.label i _ _)
        exact retired.quiet (quiet_setRenewal _ i _)
      · split
        · exact coherent.follows ((quiet_setRenewal s i _).trans ⟨rfl, rfl, rfl, rfl, rfl, rfl, rfl⟩)
        next expires generation valid =>
          have renewed : Quiet s (s.modifyRegistration i fun _ => { reg with
              leaseExpiresAt := some expires
              leaseObservedAt := some s.now
              leaseGeneration := generation }) :=
            quiet_modifyRegistration fun old found => by
              rw [known] at found
              cases found
              rfl
          simp only
          split
          · have retired := (coherent.follows renewed).trans
              (follows_retireRegistration (coherent.quiet renewed) c.label i .leaseExpired
                leaseExpiryDrainTimeout)
            exact retired.quiet (quiet_setRenewal _ i _)
          · refine coherent.follows (renewed.trans ((quiet_setRenewal _ i .head).trans ?_))
            exact ⟨rfl, rfl, rfl, rfl, rfl, rfl, rfl⟩

/-- The move removes the registration of the label, whose lease has expired. -/
def Expires (s : Server) (label : String) (m : Move) : Prop :=
  ∃ i reg, m = .remove i label ∧ s.registration? i = some reg ∧ s.leaseExpired reg = true

/-- A visitor can only retire the registration of its label, when the lease has expired. -/
theorem follows_selectAgentForVisitor (coherent : s.Coherent) (label : String) :
    Follows s (s.Expires label) (s.selectAgentForVisitor label).2 := by
  unfold selectAgentForVisitor
  split
  · exact coherent.follows (.refl s)
  next i serves =>
    split
    · exact coherent.follows (.refl s)
    next reg found =>
      split
      · exact coherent.follows (.refl s)
      · split
        next expired =>
          have retired := follows_retireRegistration coherent label i .leaseExpired
            leaseExpiryDrainTimeout
          exact retired.mono fun m same => ⟨i, reg, same, found, expired⟩
        · exact coherent.follows (.refl s)

theorem follows_visit (coherent : s.Coherent) (label : String) (sent : Bool) :
    Follows s (s.Expires label) (s.visit label sent) := by
  have selected := follows_selectAgentForVisitor coherent label
  unfold visit
  cases chosen : s.selectAgentForVisitor label with
  | mk agent t =>
    rw [chosen] at selected
    cases agent with
    | none => exact selected
    | some agent =>
      simp only
      split
      · exact selected
      next u acquired =>
        refine selected.quiet ((quiet_tryAcquireVisitorBudget acquired).trans ?_)
        have opened := quiet_afterMux u agent.1 agent.2 ((u.host agent.2).openStream sent).host
        split
        · exact opened.trans ⟨rfl, rfl, rfl, rfl, rfl, rfl, rfl⟩
        · exact opened.trans (quiet_releaseVisitorBudget _ _)

/-- The revocations of an update, one after the other. -/
theorem follows_revocations (t : Server) (revocations : List (String × RevocationAction))
    {leases : List String} (named : ∀ r ∈ revocations, r.1 ∈ leases) (coherent : s.Coherent)
    (same : s.roster.entries = t.roster.entries) :
    Follows s (EndsLease t leases) (revocations.foldl (fun s r => (s.revokeLease r.1 r.2).2) s) := by
  induction revocations generalizing s with
  | nil => exact coherent.follows (.refl s)
  | cons r rest ih =>
    obtain ⟨first, -⟩ := follows_revokeLease coherent r.1 r.2
    have entries := first.shrinks.entries.trans same
    have here : Follows s (EndsLease t leases) (s.revokeLease r.1 r.2).2 := by
      refine first.mono fun m ends => ?_
      obtain ⟨i, label, leaseId, here, lease, member⟩ := ends
      refine ⟨i, label, leaseId, here, by simpa only [Roster.lease, same] using lease, ?_⟩
      rw [List.mem_singleton.mp member]
      exact named r (by simp)
    exact here.trans (ih (fun r' member => named r' (by simp [member])) first.coherent entries)

/-- After the revocations of an update no lease among them is left. -/
theorem revocations_without (coherent : s.Coherent) {revocations : List (String × RevocationAction)}
    {leaseId : String} (named : leaseId ∈ revocations.map Prod.fst) (nonempty : leaseId ≠ "") :
    (revocations.foldl (fun s r => (s.revokeLease r.1 r.2).2) s).roster.Without leaseId := by
  induction revocations generalizing s with
  | nil => cases named
  | cons r rest ih =>
    obtain ⟨first, ended⟩ := follows_revokeLease coherent r.1 r.2
    simp only [List.map_cons, List.mem_cons] at named
    rcases named with rfl | later
    · -- the later revocations only take labels away
      have others : Follows _ (EndsLease _ (rest.map Prod.fst)) _ :=
        follows_revocations _ rest (fun r' member => List.mem_map_of_mem member) first.coherent rfl
      exact others.shrinks.without (ended nonempty)
    · exact ih first.coherent later

/-- The rest of an update changes no map. -/
theorem quiet_budgets (s : Server) (u : PolicyUpdate) :
    Quiet s (let t := u.accountBudgets.foldl (fun s b => s.setAccountBudget b.1 b.2) s
      { t with policyVersion := u.version, policyUpdatesApplied := t.policyUpdatesApplied + 1 }) := by
  refine (quiet_foldl (fun s (b : String × Budget) => quiet_setAccountBudget s b.1 b.2)
    u.accountBudgets s).trans ?_
  exact ⟨rfl, rfl, rfl, rfl, rfl, rfl, rfl⟩

/-- An update ends registrations with a lease it names, and is quiet otherwise. -/
theorem follows_applyPolicyUpdate (coherent : s.Coherent) (update : PyObject) :
    Follows s (fun m => ∃ u, validPolicyUpdate s.policyVersion update = some u ∧
      EndsLease s u.leaseIds m) (s.applyPolicyUpdate update).2 := by
  unfold applyPolicyUpdate
  split
  · exact coherent.follows ⟨rfl, rfl, rfl, rfl, rfl, rfl, rfl⟩
  next u valid =>
    have named : ∀ r ∈ u.revocations, r.1 ∈ u.leaseIds := by
      intro r member
      rw [← u.map_revocations]
      exact List.mem_map_of_mem member
    have revoked := (follows_revocations s u.revocations named coherent rfl).mono
      fun m ends => (⟨u, valid, ends⟩ : ∃ u, validPolicyUpdate s.policyVersion update = some u ∧
        EndsLease s u.leaseIds m)
    exact revoked.quiet (quiet_budgets _ u)

/-- An update that is applied leaves none of its leases. -/
theorem applyPolicyUpdate_without (coherent : s.Coherent) {update : PyObject} {u : PolicyUpdate}
    (valid : validPolicyUpdate s.policyVersion update = some u) {leaseId : String}
    (named : leaseId ∈ u.leaseIds) (nonempty : leaseId ≠ "") :
    (s.applyPolicyUpdate update).2.roster.Without leaseId := by
  unfold applyPolicyUpdate
  simp only [valid]
  rw [(quiet_budgets _ u).roster]
  exact revocations_without coherent (u.map_revocations ▸ named) nonempty

/-- The moves a step can make. -/
inductive Allows (s : Server) : Action → Move → Prop
  | admitTunnel (admission : PyObject) (requested : Option String) (scheme : Scheme) (window : FlowWindow)
      (account lease : String) (maxTunnels : Nat) :
      Allows s (.admitTunnel admission requested scheme window) (.admitTunnel account lease maxTunnels)
  | refuse (i : Nat) (phrases : Fin 100 → String) : Allows s (.claim i phrases) (.refuse i)
  | claim (i : Nat) (phrases : Fin 100 → String) (label : String) :
      Allows s (.claim i phrases) (.claim i label)
  | drop (i : Nat) (label : String) : Allows s (.drop i) (.drop i label)
  | install (i : Nat) (label : String) : Allows s (.install i) (.install i label)
  | deregister (i : Nat) (label : String) : Allows s (.deregister i) (.remove i label)
  | renewHead (i : Nat) (label : String) : Allows s (.renewHead i) (.remove i label)
  | renewWake (i : Nat) (label : String) : Allows s (.renewWake i) (.remove i label)
  | renewResult (i : Nat) (renewed : Option PyObject) (label : String) :
      Allows s (.renewResult i renewed) (.remove i label)
  | visit (label : String) (sent : Bool) (m : Move) (expires : s.Expires label m) :
      Allows s (.visit label sent) m
  | revokeLease (leaseId : String) (action : RevocationAction) (m : Move)
      (ends : EndsLease s [leaseId] m) : Allows s (.revokeLease leaseId action) m
  | applyPolicyUpdate (update : PyObject) (u : PolicyUpdate) (m : Move)
      (valid : validPolicyUpdate s.policyVersion update = some u)
      (ends : EndsLease s u.leaseIds m) : Allows s (.applyPolicyUpdate update) m

/-- Which steps can bring a connection in, decide its claim or install it; all other moves
end a registration. -/
theorem Allows.kinds {a : Action} {m : Move} (allows : s.Allows a m) :
    (∃ i label, m.Ends i label) ∨
      (∃ admission requested scheme window account lease limit,
        a = .admitTunnel admission requested scheme window ∧ m = .admitTunnel account lease limit) ∨
      (∃ i phrases, a = .claim i phrases ∧ m.Decides i) ∨
      ∃ i label, a = .install i ∧ m = .install i label := by
  cases allows with
  | admitTunnel admission requested scheme window account lease limit =>
    exact Or.inr (Or.inl ⟨admission, requested, scheme, window, account, lease, limit, rfl, rfl⟩)
  | refuse i phrases => exact Or.inr (Or.inr (Or.inl ⟨i, phrases, rfl, Or.inl rfl⟩))
  | claim i phrases label => exact Or.inr (Or.inr (Or.inl ⟨i, phrases, rfl, Or.inr ⟨label, rfl⟩⟩))
  | install i label => exact Or.inr (Or.inr (Or.inr ⟨i, label, rfl, rfl⟩))
  | drop i label => exact Or.inl ⟨i, label, Or.inr rfl⟩
  | deregister i label => exact Or.inl ⟨i, label, Or.inl rfl⟩
  | renewHead i label => exact Or.inl ⟨i, label, Or.inl rfl⟩
  | renewWake i label => exact Or.inl ⟨i, label, Or.inl rfl⟩
  | renewResult i renewed label => exact Or.inl ⟨i, label, Or.inl rfl⟩
  | visit label sent m expires =>
    obtain ⟨i, reg, same, -⟩ := expires
    exact Or.inl ⟨i, label, Or.inl same⟩
  | revokeLease leaseId action m ends => exact Or.inl ends.ends
  | applyPolicyUpdate update u m valid ends => exact Or.inl ends.ends

/-- The next phase of a connection, when its stage stays the same. -/
theorem follows_setPhase (coherent : s.Coherent) (found : s.connections[i]? = some c) {phase : Phase}
    (same : phase.stage c.label = c.phase.stage c.label) {kind : Move → Prop} :
    Follows s kind (s.setPhase i phase) := by
  refine coherent.follows (quiet_setPhase fun c' found' => ?_)
  rw [found] at found'
  cases found'
  exact same

/-- **Every step is a sequence of moves of its own that keeps the indexes exact.** -/
theorem step_follows (coherent : s.Coherent) {a : Action} (moved : s.step a = some s') :
    Follows s (s.Allows a) s' := by
  cases a with
  | clock now monotonic =>
    cases moved
    exact coherent.follows ⟨rfl, rfl, rfl, rfl, rfl, rfl, rfl⟩
  | admitTunnel admission requested scheme window =>
    obtain ⟨admission', -, rfl⟩ := Option.map_eq_some_iff.mp moved
    refine (follows_admitTunnel coherent rfl rfl).mono ?_
    rintro m ⟨account, lease, maxTunnels, rfl⟩
    exact .admitTunnel ..
  | claim i phrases =>
    obtain ⟨c, found, moved⟩ := Option.bind_eq_some_iff.mp moved
    split at moved
    next waiting =>
      cases moved
      refine (follows_claim coherent found waiting phrases).mono ?_
      rintro m (rfl | ⟨label, rfl⟩)
      · exact .refuse ..
      · exact .claim ..
    · cases moved
  | check i =>
    obtain ⟨c, found, moved⟩ := Option.bind_eq_some_iff.mp moved
    split at moved
    next here =>
      cases moved
      refine follows_setPhase coherent found ?_
      rw [here]
      split <;> rfl
    · cases moved
  | opened i result =>
    obtain ⟨c, found, moved⟩ := Option.bind_eq_some_iff.mp moved
    split at moved
    next opened here _ =>
      cases moved
      exact follows_setPhase coherent found (by rw [here]; rfl)
    next here _ =>
      cases moved
      exact follows_setPhase coherent found (by rw [here]; rfl)
    · cases moved
  | recheck i =>
    obtain ⟨c, found, moved⟩ := Option.bind_eq_some_iff.mp moved
    split at moved
    next opened here =>
      cases moved
      refine follows_setPhase coherent found ?_
      rw [here]
      split <;> rfl
    · cases moved
  | ready i sent =>
    obtain ⟨c, found, moved⟩ := Option.bind_eq_some_iff.mp moved
    split at moved
    next opened here =>
      cases moved
      refine follows_setPhase coherent found ?_
      rw [here]
      split <;> rfl
    · cases moved
  | drop i =>
    obtain ⟨c, found, moved⟩ := Option.bind_eq_some_iff.mp moved
    split at moved
    next opened why here =>
      cases moved
      have dropped := follows_dropPendingIfCurrent coherent c.label i
      have found' : (s.dropPendingIfCurrent c.label i).connections[i]? = some c := by
        rw [connections_dropPendingIfCurrent]; exact found
      refine (dropped.mono ?_).trans
        (follows_setPhase dropped.coherent found' (by rw [here]; rfl))
      rintro m rfl
      exact .drop ..
    · cases moved
  | install i =>
    obtain ⟨c, found, moved⟩ := Option.bind_eq_some_iff.mp moved
    split at moved
    next opened here =>
      cases moved
      refine (follows_install coherent found here).mono ?_
      rintro m rfl
      exact .install ..
    · cases moved
  | ended i =>
    obtain ⟨c, found, moved⟩ := Option.bind_eq_some_iff.mp moved
    split at moved
    next opened reg here registered =>
      split at moved
      · cases moved
      · cases moved
        exact follows_setPhase coherent found (by rw [here]; rfl)
    · cases moved
  | renewalCancelled i =>
    obtain ⟨c, found, moved⟩ := Option.bind_eq_some_iff.mp moved
    split at moved
    · cases moved; exact coherent.follows (quiet_setRenewal s i _)
    · cases moved
  | deregister i =>
    obtain ⟨c, found, moved⟩ := Option.bind_eq_some_iff.mp moved
    split at moved
    next opened here off =>
      cases moved
      have removed := follows_deregisterIfCurrent coherent c.label i
      have found' : (s.deregisterIfCurrent c.label i).connections[i]? = some c := by
        rw [connections_deregisterIfCurrent]; exact found
      refine (removed.mono ?_).trans
        (follows_setPhase removed.coherent found' (by rw [here]; rfl))
      rintro m rfl
      exact .deregister ..
    · cases moved
  | renewHead i =>
    obtain ⟨c, found, moved⟩ := Option.bind_eq_some_iff.mp moved
    split at moved
    · obtain ⟨reg, registered, rfl⟩ := Option.map_eq_some_iff.mp moved
      refine (follows_renewHead coherent reg).mono ?_
      rintro m rfl
      exact .renewHead ..
    · cases moved
  | renewWake i =>
    obtain ⟨c, found, moved⟩ := Option.bind_eq_some_iff.mp moved
    split at moved
    · obtain ⟨reg, registered, rfl⟩ := Option.map_eq_some_iff.mp moved
      refine (follows_renewWake coherent reg).mono ?_
      rintro m rfl
      exact .renewWake ..
    · cases moved
  | renewAcquired i acquired =>
    obtain ⟨c, found, moved⟩ := Option.bind_eq_some_iff.mp moved
    split at moved
    · split at moved
      · cases moved; exact coherent.follows (quiet_setRenewal s i _)
      · cases moved
        exact coherent.follows ((quiet_setRenewal s i _).trans ⟨rfl, rfl, rfl, rfl, rfl, rfl, rfl⟩)
    · cases moved
  | renewResult i renewed =>
    obtain ⟨c, found, moved⟩ := Option.bind_eq_some_iff.mp moved
    split at moved
    · obtain ⟨reg, registered, rfl⟩ := Option.map_eq_some_iff.mp moved
      have known : s.registration? i = some reg := by simp [registration?, found, registered]
      refine (follows_renewResult coherent known renewed).mono ?_
      rintro m rfl
      exact .renewResult ..
    · cases moved
  | revokeLease leaseId action =>
    cases moved
    exact (follows_revokeLease coherent leaseId action).1.mono fun m ends => .revokeLease _ _ m ends
  | applyPolicyUpdate update =>
    cases moved
    refine (follows_applyPolicyUpdate coherent update).mono ?_
    rintro m ⟨u, valid, ends⟩
    exact .applyPolicyUpdate update u m valid ends
  | visit label sent =>
    cases moved
    exact (follows_visit coherent label sent).mono fun m expires => .visit label sent m expires
  | visitorOpened v =>
    obtain ⟨visitor, -, moved⟩ := Option.bind_eq_some_iff.mp moved
    split at moved
    · obtain ⟨t, stepped, rfl⟩ := Option.map_eq_some_iff.mp moved
      exact coherent.follows ((quiet_muxStep stepped).trans ⟨rfl, rfl, rfl, rfl, rfl, rfl, rfl⟩)
    · cases moved
  | visitorFailed v =>
    obtain ⟨visitor, -, moved⟩ := Option.bind_eq_some_iff.mp moved
    split at moved
    · obtain ⟨t, stepped, left⟩ := Option.bind_eq_some_iff.mp moved
      exact coherent.follows ((quiet_muxStep stepped).trans (quiet_leave left))
    · cases moved
  | visitorLeft v =>
    obtain ⟨visitor, -, moved⟩ := Option.bind_eq_some_iff.mp moved
    split at moved
    · exact coherent.follows (quiet_leave moved)
    · cases moved
  | throttle i n =>
    simp only [Server.step] at moved
    split at moved
    · obtain ⟨reg, -, rfl⟩ := Option.map_eq_some_iff.mp moved
      exact coherent.follows (quiet_throttleAccountBytes s reg n)
    · cases moved
  | mux i a =>
    simp only [step] at moved
    split at moved
    · cases moved
    · exact coherent.follows (quiet_muxStep moved)

theorem Coherent.step (coherent : s.Coherent) {a : Action} (moved : s.step a = some s') : s'.Coherent :=
  (step_follows coherent moved).coherent

theorem coherent_of_run {config : ServerConfig} {now monotonic : ℚ} {as : List Action}
    (ran : Transition.run step (start config now monotonic) as = some s) : s.Coherent :=
  Transition.run_invariant' (fun _ _ _ coherent moved => Coherent.step coherent moved)
    (coherent_start config now monotonic) ran

/-- A whole run of the relay is a run of the table. -/
theorem Coherent.run (coherent : s.Coherent) {as : List Action}
    (ran : Transition.run Server.step s as = some s') :
    s'.Coherent ∧ ∃ ms, Roster.Runs s.roster ms s'.roster := by
  induction as generalizing s with
  | nil =>
    cases ran
    exact ⟨coherent, [], .nil _⟩
  | cons a as ih =>
    obtain ⟨t, moved, rest⟩ := Transition.run_cons_iff.mp ran
    have follows := step_follows coherent moved
    obtain ⟨ms, runs, -⟩ := follows.runs
    obtain ⟨coherent', ns, later⟩ := ih follows.coherent rest
    exact ⟨coherent', ms ++ ns, runs.append later⟩

/-! ### What coherence says about the maps -/

/-- The label is mapped to a registration that satisfies `P`. -/
def Maps (s : Server) (table : AList fun _ : String => Nat) (label : String)
    (P : TunnelRegistration → Prop) : Prop :=
  ∃ i reg, table.lookup label = some i ∧ s.registration? i = some reg ∧ P reg

/-- The three indexes are exact and every registration has one place. -/
structure Indexed (s : Server) : Prop where
  accountLabels : ∀ accountId label, label ∈ s.accountLabels.members accountId ↔
    s.Maps s.agents label fun reg => reg.accountId = accountId
  leaseLabels : ∀ leaseId label, label ∈ s.leaseLabels.members leaseId ↔
    s.Maps s.agents label fun reg => reg.leaseId = some leaseId
  pendingLeaseLabels : ∀ leaseId label, label ∈ s.pendingLeaseLabels.members leaseId ↔
    s.Maps s.pendingAgents label fun reg => reg.leaseId = some leaseId
  nonempty : ∀ index ∈ [s.accountLabels, s.leaseLabels, s.pendingLeaseLabels],
    ∀ key labels, index.lookup key = some labels → labels ≠ [] ∧ labels.Nodup
  exists_ : ∀ label i, s.agents.lookup label = some i ∨ s.pendingAgents.lookup label = some i →
    ∃ reg, s.registration? i = some reg
  onePlace : ∀ label label' i, s.agents.lookup label = some i → s.pendingAgents.lookup label' ≠ some i
  oneLabel : ∀ label label' i,
    s.agents.lookup label = some i ∧ s.agents.lookup label' = some i ∨
      s.pendingAgents.lookup label = some i ∧ s.pendingAgents.lookup label' = some i → label = label'

theorem Coherent.indexed (coherent : s.Coherent) : s.Indexed where
  accountLabels := by
    intro accountId label
    refine (coherent.accounts.mem accountId label).trans ⟨fun owner => ?_, ?_⟩
    · obtain ⟨i, serves, -⟩ := Option.bind_eq_some_iff.mp owner
      obtain ⟨reg, found, account, -⟩ := coherent.active serves
      exact ⟨i, reg, serves, found, Option.some.inj (account.symm.trans owner)⟩
    · rintro ⟨i, reg, serves, found, rfl⟩
      obtain ⟨reg', found', account, -⟩ := coherent.active serves
      rw [found] at found'
      cases found'
      exact account
  leaseLabels := by
    intro leaseId label
    exact (coherent.leases.mem leaseId label).trans (coherent.hasLease_active.symm.trans hasLease_iff)
  pendingLeaseLabels := by
    intro leaseId label
    exact (coherent.pendingLeases.mem leaseId label).trans
      (coherent.hasLease_pending.symm.trans hasLease_iff)
  nonempty := by
    intro index member key labels found
    simp only [List.mem_cons, List.not_mem_nil, or_false] at member
    rcases member with rfl | rfl | rfl
    · exact coherent.accounts.proper key labels found
    · exact coherent.leases.proper key labels found
    · exact coherent.pendingLeases.proper key labels found
  exists_ := by
    rintro label i (serves | holds)
    · obtain ⟨reg, found, -⟩ := coherent.active serves
      exact ⟨reg, found⟩
    · obtain ⟨reg, found, -⟩ := coherent.pending holds
      exact ⟨reg, found⟩
  onePlace := by
    intro label label' i serves holds
    have both := (coherent.sound.active label i serves).symm.trans
      (coherent.sound.pending label' i holds)
    cases both
  oneLabel := by
    rintro label label' i (⟨first, second⟩ | ⟨first, second⟩)
    · have both := (coherent.sound.active label i first).symm.trans
        (coherent.sound.active label' i second)
      cases both
      rfl
    · have both := (coherent.sound.pending label i first).symm.trans
        (coherent.sound.pending label' i second)
      cases both
      rfl

/-- **Registry coherence.** In every state that any interleaving of the relay's tasks
reaches, the account index and the two lease indexes are exactly the reverse maps of
`_agents` and `_pending_agents`, without empty sets, and each registration is in at most
one of the two maps and under one label. -/
theorem indexed_of_run {config : ServerConfig} {now monotonic : ℚ} {as : List Action}
    (ran : Transition.run step (start config now monotonic) as = some s) : s.Indexed :=
  (coherent_of_run ran).indexed

/-- A relay with a base domain and room for two tunnels. -/
def smallRelay : ServerConfig where
  baseDomain := some "relay.test"
  maxAgents := 2
  publicTls := false
  upstreamTls := false
  publicUrl := fun _ => ""
  publicHttpsUrl := none
  stableFraction := fun _ => 0

/-- An admission without limits but on the number of tunnels. -/
def plainAdmission (account lease : String) (maxTunnels : Int) (expiresAt : PyObject) : PyObject :=
  .tunnelAdmission (.tunnelLease (.str lease) (.str account) .none expiresAt (.int 0))
    (.int maxTunnels) .none (.budget .none .none .none .none)

/-- The steps of one connection up to its install. -/
def setUp (i : Nat) : List Action :=
  [.claim i (fun _ => ""), .check i, .opened i (some true), .recheck i, .ready i true, .install i]

/-- One connection of an account serves a label that another one reclaims. -/
def reclaimed : List Action :=
  .admitTunnel (plainAdmission "a" "first" 1 .none) (some "x") .http .default :: setUp 0 ++
    [.admitTunnel (plainAdmission "a" "second" 1 .none) (some "x") .http .default,
      .claim 1 fun _ => ""]

theorem indexed_after_reclaim : ∃ s, Transition.run step (start smallRelay 0 0) reclaimed = some s ∧
    s.agents.lookup "x" = some 0 ∧ s.pendingAgents.lookup "x" = some 1 ∧ s.Indexed := by
  have done : ((Transition.run step (start smallRelay 0 0) reclaimed).map fun s =>
      (s.agents.lookup "x", s.pendingAgents.lookup "x")) = some (some 0, some 1) := by
    decide
  obtain ⟨s, ran, facts⟩ := Option.map_eq_some_iff.mp done
  simp only [Prod.mk.injEq] at facts
  exact ⟨s, ran, facts.1, facts.2, indexed_of_run ran⟩

end Server

end Chute
