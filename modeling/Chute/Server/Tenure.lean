import Chute.Server.Courses
import Chute.Server.Renewal

/-!
# Leases under renewal

A renewal asks the control plane and believes little of the answer. Whatever comes back, and
however late, the registration keeps the lease it was admitted with, and its expiry moves to instants
that lie ahead when the answer is checked.
-/
namespace Chute

namespace Server

variable {s s' t : Server} {i : Nat} {reg : TunnelRegistration}

/-- The maps in which the registrations of a relay stand, and the registrations themselves. -/
structure SameRegistry (s s' : Server) : Prop where
  registrations : ∀ i, s'.registration? i = s.registration? i
  agents : s'.agents = s.agents
  pendingAgents : s'.pendingAgents = s.pendingAgents
  accountLabels : s'.accountLabels = s.accountLabels
  leaseLabels : s'.leaseLabels = s.leaseLabels
  pendingLeaseLabels : s'.pendingLeaseLabels = s.pendingLeaseLabels

/-- An answer that renews nothing and revokes nothing: an exception or a timeout, any answer that
comes back when the registration is not current any more, and any object that fails the check. -/
def Futile (s : Server) (i : Nat) (c : Connection) (reg : TunnelRegistration) (renewed : Option PyObject) :
    Prop :=
  renewed = none ∨ s.renewalObsolete i c reg = true ∨
    ∃ object, renewed = some object ∧ object ≠ .none ∧ s.validRenewedLease reg object = none

/-- A lease as a renewal may leave it. -/
structure TunnelRegistration.Continues (reg reg' : TunnelRegistration) : Prop where
  leaseId : reg'.leaseId = reg.leaseId
  accountId : reg'.accountId = reg.accountId
  credentialId : reg'.credentialId = reg.credentialId
  generation : reg.leaseGeneration ≤ reg'.leaseGeneration
  finite : reg.leaseExpiresAt.isSome = true → reg'.leaseExpiresAt.isSome = true

namespace TunnelRegistration.Continues

theorem refl (reg : TunnelRegistration) : reg.Continues reg := ⟨rfl, rfl, rfl, Int.le_refl _, id⟩

theorem trans {reg reg' reg'' : TunnelRegistration} (first : reg.Continues reg')
    (second : reg'.Continues reg'') : reg.Continues reg'' :=
  ⟨second.leaseId.trans first.leaseId, second.accountId.trans first.accountId,
    second.credentialId.trans first.credentialId, Int.le_trans first.generation second.generation,
    fun finite => second.finite (first.finite finite)⟩

theorem of_terms {reg reg' : TunnelRegistration} (same : reg'.terms = reg.terms) : reg.Continues reg' :=
  ⟨congrArg Terms.leaseId same, congrArg Terms.accountId same, congrArg Terms.credentialId same,
    Int.le_of_eq (congrArg Terms.leaseGeneration same).symm,
    fun finite => by rwa [show reg'.leaseExpiresAt = reg.leaseExpiresAt from congrArg Terms.leaseExpiresAt same]⟩

end TunnelRegistration.Continues

/-! ### The answer of the control plane -/

theorem sameRegistry_setRenewal (s : Server) (i : Nat) (renewal : RenewalPhase) :
    SameRegistry s (s.setRenewal i renewal) := by
  refine ⟨fun j => ?_, rfl, rfl, rfl, rfl, rfl⟩
  rw [setRenewal, registration?_modifyConnection]
  split
  · rfl
  · rfl

theorem sameRegistry_renewResult {c : Connection} {renewed : Option PyObject}
    (futile : s.Futile i c reg renewed) : SameRegistry s (s.renewResult i c reg renewed) := by
  have counted : ∀ n, SameRegistry s { s.setRenewal i .head with leaseRenewalsInvalid := n } := fun n =>
    have same := sameRegistry_setRenewal s i .head
    ⟨same.registrations, same.agents, same.pendingAgents, same.accountLabels, same.leaseLabels,
      same.pendingLeaseLabels⟩
  unfold renewResult
  split
  · have same := sameRegistry_setRenewal s i .head
    exact ⟨same.registrations, same.agents, same.pendingAgents, same.accountLabels, same.leaseLabels,
      same.pendingLeaseLabels⟩
  next object =>
    split
    · exact sameRegistry_setRenewal s i .off
    next current =>
      rcases futile with failed | obsolete | ⟨answer, same, apart, invalid⟩
      · cases failed
      · exact absurd obsolete current
      · cases same
        split
        · exact absurd rfl apart
        · rw [invalid]
          exact counted _

/-- What the check of a renewed lease lets through. -/
theorem validRenewedLease_generation {renewed : PyObject} {expires : Datetime} {generation : Int}
    (valid : s.validRenewedLease reg renewed = some (expires, generation)) :
    reg.leaseGeneration ≤ generation := by
  unfold validRenewedLease at valid
  split at valid
  · split at valid
    next passed =>
      cases valid
      simp only [Bool.and_eq_true, decide_eq_true_eq] at passed
      exact passed.1.1.2
    · cases valid
  · cases valid

/-- An expiry that changes is one that passed the check, and lies ahead. -/
def Extends (s : Server) (reg reg' : TunnelRegistration) (renewed : Option PyObject) : Prop :=
  ∃ object expires, renewed = some object ∧
    s.validRenewedLease reg object = some (expires, reg'.leaseGeneration) ∧
      reg'.leaseExpiresAt = some expires ∧ expires.aware = true ∧ s.now < expires.seconds

theorem registration?_retire (s : Server) (label : String) (i : Nat) (reason : RetireReason) (timeout : ℚ)
    (renewal : RenewalPhase) {j : Nat} {reg : TunnelRegistration} (known : s.registration? j = some reg) :
    ∃ reg', ((s.retireRegistration label i reason timeout).setRenewal i renewal).registration? j = some reg' ∧
      reg'.terms = reg.terms := by
  have keeps : Keeps TunnelRegistration.terms s
      ((s.retireRegistration label i reason timeout).setRenewal i renewal) :=
    keeps_retireOff ⟨fun _ _ => rfl, fun _ _ _ => rfl⟩ s label i reason timeout renewal
  exact keeps.registration known

/-- The answer of a renewal leaves the lease as it is, or extends it. -/
theorem renewResult_lease {c : Connection} (known : s.registration? i = some reg) (renewed : Option PyObject) :
    ∃ reg', (s.renewResult i c reg renewed).registration? i = some reg' ∧
      (reg'.terms = reg.terms ∨ reg.Continues reg' ∧ s.Extends reg reg' renewed) := by
  have kept : ∀ renewal, ∃ reg', (s.setRenewal i renewal).registration? i = some reg' ∧ reg'.terms = reg.terms :=
    fun renewal => ⟨reg, by rw [(sameRegistry_setRenewal s i renewal).registrations, known], rfl⟩
  unfold renewResult
  split
  · obtain ⟨reg', here, same⟩ := kept .head
    exact ⟨reg', here, Or.inl same⟩
  next object =>
    split
    · obtain ⟨reg', here, same⟩ := kept .off
      exact ⟨reg', here, Or.inl same⟩
    · split
      · obtain ⟨reg', here, same⟩ := registration?_retire
          { s with leaseRenewalsRevoked := s.leaseRenewalsRevoked + 1 } c.label i .leaseRevoked
            leaseExpiryDrainTimeout .off known
        exact ⟨reg', here, Or.inl same⟩
      · split
        · obtain ⟨reg', here, same⟩ := kept .head
          exact ⟨reg', here, Or.inl same⟩
        next expires generation valid =>
          have later := validRenewedLease_generation valid
          have ahead := validRenewedLease_future valid
          have stored : (s.modifyRegistration i fun _ => { reg with
              leaseExpiresAt := some expires
              leaseObservedAt := some s.now
              leaseGeneration := generation }).registration? i = some { reg with
                leaseExpiresAt := some expires
                leaseObservedAt := some s.now
                leaseGeneration := generation } := by
            rw [registration?_modifyRegistration, if_pos rfl, known]
            rfl
          have extended : ∀ reg' : TunnelRegistration, reg'.terms = TunnelRegistration.terms { reg with
              leaseExpiresAt := some expires
              leaseObservedAt := some s.now
              leaseGeneration := generation } →
                reg.Continues reg' ∧ s.Extends reg reg' (some object) := by
            intro reg' same
            have continues := TunnelRegistration.Continues.of_terms same
            have number : reg'.leaseGeneration = generation := congrArg Terms.leaseGeneration same
            have expiry : reg'.leaseExpiresAt = some expires := congrArg Terms.leaseExpiresAt same
            constructor
            · exact ⟨continues.leaseId, continues.accountId, continues.credentialId, number ▸ later,
                fun _ => by rw [expiry]; rfl⟩
            · exact ⟨object, expires, rfl, number ▸ valid, expiry, ahead⟩
          simp only
          split
          · obtain ⟨reg', here, same⟩ := registration?_retire _ c.label i .leaseExpired
              leaseExpiryDrainTimeout .off stored
            exact ⟨reg', here, Or.inr (extended reg' same)⟩
          · have here := (sameRegistry_setRenewal (s.modifyRegistration i fun _ => { reg with
              leaseExpiresAt := some expires
              leaseObservedAt := some s.now
              leaseGeneration := generation }) i .head).registrations i
            rw [stored] at here
            exact ⟨_, here, Or.inr (extended _ rfl)⟩

/-! ### The steps -/

theorem steady_terms : Steady TunnelRegistration.terms := ⟨fun _ _ => rfl, fun _ _ _ => rfl⟩

/-- The steps other than its own renewals leave the terms of a registration. -/
theorem Fresh.terms_step (fresh : s.Fresh) {a : Action} (moved : s.step a = some s')
    (known : s.registration? i = some reg) (other : ∀ renewed, a ≠ .renewResult i renewed) :
    ∃ reg', s'.registration? i = some reg' ∧ reg'.terms = reg.terms := by
  obtain ⟨c, found, registered⟩ := Option.bind_eq_some_iff.mp known
  -- what other tasks keep of a connection covers the terms of its registration
  have kept : ∀ {p : Nat → Prop}, Undisturbed p s s' → ¬ p i →
      ∃ reg', s'.registration? i = some reg' ∧ reg'.terms = reg.terms := by
    intro p undisturbed apart
    obtain ⟨c', found', same⟩ := undisturbed.found apart found
    have terms := (Connection.kept_eq same).2.2.2.2
    rw [registered, Option.map_some] at terms
    obtain ⟨reg', registered', equal⟩ := Option.map_eq_some_iff.mp terms
    exact ⟨reg', Option.bind_eq_some_iff.mpr ⟨c', found', registered'⟩, equal⟩
  by_cases claims : ∃ j phrases, a = .claim j phrases
  · obtain ⟨j, phrases, rfl⟩ := claims
    obtain ⟨d, there, moved⟩ := Option.bind_eq_some_iff.mp moved
    split at moved
    next waiting =>
      cases moved
      refine kept (undisturbed_claim s j d phrases) fun same => ?_
      subst same
      rw [found] at there
      cases there
      exact fresh.claimed found registered waiting
    · cases moved
  by_cases admits : ∃ admission requested scheme window, a = .admitTunnel admission requested scheme window
  · obtain ⟨admission, requested, scheme, window, rfl⟩ := admits
    refine kept (step_undisturbed moved fun _ _ => nofun) fun touched => ?_
    rcases touched with task | ⟨-, last⟩
    · cases task
    · exact absurd (List.getElem?_eq_some_iff.mp found).1 (by omega)
  by_cases renews : ∃ j renewed, a = .renewResult j renewed
  · obtain ⟨j, renewed, rfl⟩ := renews
    refine kept (step_undisturbed moved fun _ _ => nofun) fun touched => ?_
    rcases touched with task | ⟨⟨_, _, _, _, same⟩, -⟩
    · cases task
      exact other renewed rfl
    · cases same
  · have keeps := step_keeps steady_terms moved (fun j phrases same => claims ⟨j, phrases, same⟩)
      (fun _ _ _ _ same => admits ⟨_, _, _, _, same⟩) (fun j renewed same => absurd ⟨j, renewed, same⟩ renews)
      fun _ _ _ _ => rfl
    exact keeps.registration known

/-- What one step makes of a lease. -/
theorem Fresh.lease_step (fresh : s.Fresh) {a : Action} (moved : s.step a = some s')
    (known : s.registration? i = some reg) :
    ∃ reg', s'.registration? i = some reg' ∧ reg.Continues reg' ∧
      (reg'.leaseExpiresAt ≠ reg.leaseExpiresAt →
        ∃ renewed, a = .renewResult i renewed ∧ s.Extends reg reg' renewed) := by
  by_cases renews : ∃ renewed, a = .renewResult i renewed
  · obtain ⟨renewed, rfl⟩ := renews
    obtain ⟨c, found, moved⟩ := Option.bind_eq_some_iff.mp moved
    split at moved
    · obtain ⟨reg', registered, rfl⟩ := Option.map_eq_some_iff.mp moved
      have same : s.registration? i = some reg' := Option.bind_eq_some_iff.mpr ⟨c, found, registered⟩
      rw [known] at same
      cases same
      obtain ⟨reg', here, same | ⟨continues, extends_⟩⟩ := renewResult_lease (c := c) known renewed
      · exact ⟨reg', here, .of_terms same, fun changed => absurd (congrArg Terms.leaseExpiresAt same) changed⟩
      · exact ⟨reg', here, continues, fun _ => ⟨renewed, rfl, extends_⟩⟩
    · cases moved
  · obtain ⟨reg', here, same⟩ := fresh.terms_step moved known fun renewed same => renews ⟨renewed, same⟩
    exact ⟨reg', here, .of_terms same, fun changed => absurd (congrArg Terms.leaseExpiresAt same) changed⟩

theorem Fresh.run (fresh : s.Fresh) {as : List Action} (ran : Transition.run Server.step s as = some t) :
    t.Fresh :=
  Transition.run_invariant' (fun _ _ _ fresh moved => Fresh.step fresh moved) fresh ran

theorem Fresh.continues_run (fresh : s.Fresh) (known : s.registration? i = some reg) {as : List Action}
    (ran : Transition.run Server.step s as = some t) :
    ∃ reg', t.registration? i = some reg' ∧ reg.Continues reg' := by
  induction as generalizing s reg with
  | nil =>
    cases ran
    exact ⟨reg, known, .refl reg⟩
  | cons a as ih =>
    obtain ⟨u, moved, rest⟩ := Transition.run_cons_iff.mp ran
    obtain ⟨reg₁, known₁, first, -⟩ := fresh.lease_step moved known
    obtain ⟨reg', known', later⟩ := ih (fresh.step moved) known₁ rest
    exact ⟨reg', known', first.trans later⟩

/-- **The identity of a lease is stable under renewal.** Along every run a registration keeps its
lease, account and credential, its generation does not fall, and a lease that expires does not
become one that does not. An answer that is futile leaves every registration and the maps they
stand in as they are. An expiry changes only to one that passed the check of an answer and lay
ahead then. -/
theorem lease_stable {config : ServerConfig} {now monotonic : ℚ} {as bs : List Action}
    (ran : Transition.run Server.step (start config now monotonic) as = some s)
    (known : s.registration? i = some reg) (later : Transition.run Server.step s bs = some t) :
    ∃ reg', t.registration? i = some reg' ∧ reg.Continues reg' ∧
      ∀ a t', t.step a = some t' →
        (∀ c renewed, a = .renewResult i renewed → t.connections[i]? = some c →
          t.Futile i c reg' renewed → SameRegistry t t') ∧
        ∃ reg'', t'.registration? i = some reg'' ∧
          (reg''.leaseExpiresAt ≠ reg'.leaseExpiresAt →
            ∃ renewed, a = .renewResult i renewed ∧ t.Extends reg' reg'' renewed) := by
  have fresh := (fresh_start config now monotonic).run ran
  obtain ⟨reg', known', continues⟩ := fresh.continues_run known later
  refine ⟨reg', known', continues, fun a t' moved => ⟨fun c renewed same found futile => ?_, ?_⟩⟩
  · subst same
    obtain ⟨d, found', moved⟩ := Option.bind_eq_some_iff.mp moved
    rw [found] at found'
    cases found'
    split at moved
    · obtain ⟨reg₁, registered, rfl⟩ := Option.map_eq_some_iff.mp moved
      have same : t.registration? i = some reg₁ := Option.bind_eq_some_iff.mpr ⟨c, found, registered⟩
      rw [known'] at same
      cases same
      exact sameRegistry_renewResult futile
    · cases moved
  · obtain ⟨reg'', here, -, changed⟩ := (fresh.run later).lease_step moved known'
    exact ⟨reg'', here, changed⟩

/-- An attempt that the control plane answers with a later expiry. -/
def answered : List Action :=
  [.renewHead 0, .renewWake 0, .renewAcquired 0 true,
    .renewResult 0 (some (.tunnelLease (.str "lease") (.str "a") .none (.datetime ⟨120, true⟩) (.int 1)))]

theorem lease_stable_answered : ∃ s t reg reg',
    Transition.run Server.step (start smallRelay 0 0) leasedMinute = some s ∧
      Transition.run Server.step s answered = some t ∧ s.registration? 0 = some reg ∧
        t.registration? 0 = some reg' ∧ reg.Continues reg' ∧
          (reg.leaseGeneration, reg'.leaseGeneration) = (0, 1) := by
  have done : ((Transition.run Server.step (start smallRelay 0 0) leasedMinute).bind fun s =>
      (Transition.run Server.step s answered).bind fun t =>
        (s.registration? 0).bind fun reg => (t.registration? 0).map fun reg' =>
          (reg.leaseGeneration, reg'.leaseGeneration)) = some (0, 1) := by
    decide +kernel
  obtain ⟨s, ran, rest⟩ := Option.bind_eq_some_iff.mp done
  obtain ⟨t, later, rest⟩ := Option.bind_eq_some_iff.mp rest
  obtain ⟨reg, known, rest⟩ := Option.bind_eq_some_iff.mp rest
  obtain ⟨reg', known', generations⟩ := Option.map_eq_some_iff.mp rest
  obtain ⟨reg₁, known₁, continues, -⟩ := lease_stable ran known later
  rw [known'] at known₁
  cases known₁
  exact ⟨s, t, reg, reg', ran, later, known, known', continues, generations⟩

end Server

end Chute
