import Mathlib.Tactic.Linarith
import Chute.Server.Tasks

/-!
# When a lease is renewed again

The renewal task sleeps between two attempts. Before the preferred point of a lease it
sleeps up to that point; past it, for a fixed time or up to the expiry, whichever is first.
In the second case the tunnel is retired with no further attempt.
-/
namespace Chute

namespace Server

variable {s s' : Server} {i : Nat} {c c' : Connection} {reg : TunnelRegistration}

/-- At this reading of the clock the next attempt falls before the expiry of the lease. -/
def retriesInTime (s : Server) (reg : TunnelRegistration) : Bool :=
  match reg.leaseExpiresAt, reg.leaseObservedAt with
  | some expires, some observed =>
    decide (expires.seconds - s.now ≤ 1) ||
      decide (s.now < observed + (expires.seconds - observed) * s.leaseRenewFraction reg) ||
      decide (30 + 20 * s.leaseRenewFraction reg < expires.seconds - s.now)
  | _, _ => false

/-- The digest that spreads the renewals is a fraction of one. -/
def Spreads (config : ServerConfig) : Prop :=
  ∀ seed, 0 ≤ config.stableFraction seed ∧ config.stableFraction seed ≤ 1

/-- The preferred point lies in the window from 65% to 85% of a lease. -/
theorem leaseRenewFraction_bounds (spreads : Spreads s.config) (reg : TunnelRegistration) :
    0 < s.leaseRenewFraction reg ∧ s.leaseRenewFraction reg < 1 := by
  obtain ⟨low, high⟩ := spreads (reg.leaseId.getD "" ++ ":" ++ toString reg.leaseGeneration)
  unfold leaseRenewFraction
  constructor
  · linarith
  · linarith

/-- A lease that lasts up to `expires` and was observed before the clock's reading. -/
structure TunnelRegistration.LastsTo (reg : TunnelRegistration) (now expires : ℚ) : Prop where
  expiresAt : reg.leaseExpiresAt = some ⟨expires, true⟩
  observedAt : ∃ observed, reg.leaseObservedAt = some observed ∧ observed ≤ now

/-- **The delay ends before the lease does exactly where the next attempt is in time.** -/
theorem leaseRenewDelay_inside_iff (spreads : Spreads s.config) {expires : ℚ}
    (lasts : reg.LastsTo s.now expires) (unexpired : s.now < expires) :
    (∃ delay, s.leaseRenewDelay reg = some delay ∧ 0 < delay ∧ delay < expires - s.now) ↔
      s.retriesInTime reg = true := by
  obtain ⟨observed, observedAt, past⟩ := lasts.observedAt
  obtain ⟨low, high⟩ := leaseRenewFraction_bounds spreads reg
  have remains : 0 < expires - s.now := sub_pos.mpr unexpired
  have ttl : max (expires - s.now) (expires - observed) = expires - observed :=
    max_eq_right (by linarith)
  unfold leaseRenewDelay retriesInTime leaseSecondsRemaining
  simp only [lasts.expiresAt, observedAt, Option.map_some, if_true, ttl, Bool.or_eq_true,
    decide_eq_true_eq, not_le.mpr remains, if_false]
  by_cases short : expires - s.now ≤ 1
  · -- under a second the task sleeps for half of what is left, or a hundredth of a second
    simp only [short, if_true, true_or, iff_true]
    refine ⟨_, rfl, ?_⟩
    split
    next enough => exact ⟨lt_max_of_lt_left (by norm_num), max_lt (by linarith) (by linarith)⟩
    · constructor <;> linarith
  · simp only [short, if_false, false_or]
    by_cases early : 0 < observed + (expires - observed) * s.leaseRenewFraction reg - s.now
    · -- before the preferred point, which lies inside the lease
      have before : s.now < observed + (expires - observed) * s.leaseRenewFraction reg := by linarith
      have inside : (expires - observed) * s.leaseRenewFraction reg < expires - observed :=
        mul_lt_of_lt_one_right (by linarith) high
      simp only [early, before, if_true, true_or, iff_true]
      refine ⟨_, rfl, lt_min early remains, min_lt_of_left_lt ?_⟩
      linarith
    · have passed : ¬ s.now < observed + (expires - observed) * s.leaseRenewFraction reg := by
        intro before
        exact early (sub_pos.mpr before)
      simp only [early, passed, if_false, false_or, Option.some.injEq, exists_eq_left']
      constructor
      · rintro ⟨-, inside⟩
        by_contra late
        rw [min_eq_right (not_lt.mp late)] at inside
        exact lt_irrefl _ inside
      · intro inside
        exact ⟨lt_min (by linarith) remains, min_lt_of_left_lt inside⟩

/-- The delay of a lease that is not retried in time ends with the lease. -/
theorem leaseRenewDelay_of_late {expires : ℚ}
    (lasts : reg.LastsTo s.now expires) (unexpired : s.now < expires)
    (late : s.retriesInTime reg = false) : s.leaseRenewDelay reg = some (expires - s.now) := by
  obtain ⟨observed, observedAt, past⟩ := lasts.observedAt
  have remains : 0 < expires - s.now := sub_pos.mpr unexpired
  have ttl : max (expires - s.now) (expires - observed) = expires - observed :=
    max_eq_right (by linarith)
  simp only [retriesInTime, lasts.expiresAt, observedAt, Bool.or_eq_false_iff,
    decide_eq_false_iff_not, not_le, not_lt] at late
  obtain ⟨⟨long, passed⟩, waits⟩ := late
  unfold leaseRenewDelay leaseSecondsRemaining
  simp only [lasts.expiresAt, observedAt, Option.map_some, if_true, ttl, not_le.mpr remains,
    not_le.mpr long, if_false]
  rw [if_neg (by linarith), min_eq_right waits]

/-! ### Leases along a run -/

/-- In or after `mux.run()`. -/
def Connection.Ran (c : Connection) : Prop :=
  ∃ opened, c.phase = .running opened ∨ c.phase = .closing opened

/-- The lease of a connection carries a time zone and was observed in the past, and only a
connection that ran has a renewal task. -/
structure Connection.Timely (now : ℚ) (c : Connection) : Prop where
  admitted : ∀ expires, c.admission.lease.expiresAt = some expires → expires.aware = true
  named : ∀ reg, c.registration = some reg → reg.leaseId.isSome = true
  lasts : ∀ reg expires, c.registration = some reg → reg.leaseExpiresAt = some expires →
    reg.LastsTo now expires.seconds
  renewing : c.renewal ≠ .off → c.Ran

theorem TunnelRegistration.LastsTo.of_terms {reg' : TunnelRegistration} {now now' expires : ℚ}
    (lasts : reg.LastsTo now expires) (same : reg'.terms = reg.terms) (later : now ≤ now') :
    reg'.LastsTo now' expires := by
  obtain ⟨observed, observedAt, past⟩ := lasts.observedAt
  have expiresAt : reg'.leaseExpiresAt = reg.leaseExpiresAt := congrArg Terms.leaseExpiresAt same
  have observed' : reg'.leaseObservedAt = reg.leaseObservedAt := congrArg Terms.leaseObservedAt same
  exact ⟨expiresAt.trans lasts.expiresAt, observed, observed'.trans observedAt, past.trans later⟩

theorem Connection.Timely.of_kept {now now' : ℚ} (timely : c.Timely now) (same : c'.kept = c.kept)
    (later : now ≤ now') : c'.Timely now' := by
  obtain ⟨phase, -, renewal, admission, terms⟩ := Connection.kept_eq same
  have known : ∀ reg', c'.registration = some reg' →
      ∃ reg, c.registration = some reg ∧ reg'.terms = reg.terms := by
    intro reg' registered
    rw [registered, Option.map_some] at terms
    obtain ⟨reg, there, same⟩ := Option.map_eq_some_iff.mp terms.symm
    exact ⟨reg, there, same.symm⟩
  constructor
  · intro expires has
    exact timely.admitted expires (admission ▸ has)
  · intro reg' registered
    obtain ⟨reg, there, same⟩ := known reg' registered
    have id : reg'.leaseId = reg.leaseId := congrArg Terms.leaseId same
    rw [id]
    exact timely.named reg there
  · intro reg' expires registered has
    obtain ⟨reg, there, same⟩ := known reg' registered
    have expiresAt : reg'.leaseExpiresAt = reg.leaseExpiresAt := congrArg Terms.leaseExpiresAt same
    exact (timely.lasts reg expires there (expiresAt ▸ has)).of_terms same later
  · intro active
    rw [renewal] at active
    obtain ⟨opened, here⟩ := timely.renewing active
    exact ⟨opened, by rw [phase]; exact here⟩

/-- Every connection is timely. -/
def Timely (s : Server) : Prop := ∀ (j : Nat) (c : Connection), s.connections[j]? = some c → c.Timely s.now

/-- The clock does not run backwards. -/
def Ordered (s : Server) : Action → Prop
  | .clock now _ => s.now ≤ now
  | _ => True

theorem Timely.undisturbed (timely : s.Timely) (kept : Undisturbed (fun _ => False) s s') :
    s'.Timely := by
  intro j c' found'
  have same := kept.connections j id
  rw [found', Option.map_some] at same
  obtain ⟨c, found, here⟩ := Option.map_eq_some_iff.mp same.symm
  exact (timely j c found).of_kept here.symm kept.now.ge

theorem Timely.modify (timely : s.Timely) {f : Connection → Connection}
    (own : ∀ c, s.connections[i]? = some c → c.Timely s.now → (f c).Timely s.now) :
    (s.modifyConnection i f).Timely := by
  intro j c' found'
  simp only [modifyConnection, List.getElem?_modify] at found'
  obtain ⟨c, found, rfl⟩ := Option.map_eq_some_iff.mp found'
  split
  next same =>
    subst same
    exact own c found (timely i c found)
  · exact timely j c found

/-- A connection that did not run yet has no renewal task. -/
theorem Connection.Timely.off {now : ℚ} (timely : c.Timely now)
    (idle : ∀ opened, c.phase ≠ .running opened ∧ c.phase ≠ .closing opened) : c.renewal = .off := by
  by_contra active
  obtain ⟨opened, running | closing⟩ := timely.renewing active
  · exact (idle opened).1 running
  · exact (idle opened).2 closing

theorem Timely.setPhase (timely : s.Timely) (found : s.connections[i]? = some c) {phase : Phase}
    (fits : c.renewal ≠ .off → ∃ opened, phase = .running opened ∨ phase = .closing opened) :
    (s.setPhase i phase).Timely := by
  refine timely.modify fun c' found' timely' => ?_
  rw [found] at found'
  cases found'
  exact ⟨timely'.admitted, timely'.named, timely'.lasts, fits⟩

theorem Timely.setRenewal (timely : s.Timely) {renewal : RenewalPhase}
    (fits : renewal ≠ .off → ∀ c, s.connections[i]? = some c → c.Ran) :
    (s.setRenewal i renewal).Timely := by
  refine timely.modify fun c found timely' => ?_
  exact ⟨timely'.admitted, timely'.named, timely'.lasts, fun active => fits active c found⟩

/-- A connection of which another task changed the registration has run as before. -/
theorem Undisturbed.ran (kept : Undisturbed (fun _ => False) s s')
    (ran : ∀ c, s.connections[i]? = some c → c.Ran) :
    ∀ c, s'.connections[i]? = some c → c.Ran := by
  intro c' found'
  have same := kept.connections i id
  rw [found', Option.map_some] at same
  obtain ⟨c, found, here⟩ := Option.map_eq_some_iff.mp same.symm
  obtain ⟨opened, phase⟩ := ran c found
  exact ⟨opened, by rw [(Connection.kept_eq here.symm).1]; exact phase⟩

theorem Timely.retire (timely : s.Timely) (label : String) (reason : RetireReason) (timeout : ℚ) :
    ((s.retireRegistration label i reason timeout).setRenewal i .off).Timely :=
  (timely.undisturbed (undisturbed_retireRegistration s label i reason timeout)).setRenewal
    fun active => absurd rfl active

/-- A claim observes the lease of its admission at its own reading of the clock. -/
theorem Timely.enterPending (timely : s.Timely) (found : s.connections[i]? = some c)
    (off : c.renewal = .off) (label url : String) :
    (s.enterPending i label (s.newRegistration c url)).Timely := by
  refine timely.modify (f := fun c' => { c' with
    phase := .claimed, label := label, registration := some (s.newRegistration c url) })
    fun c' found' own => ?_
  rw [found] at found'
  cases found'
  refine ⟨own.admitted, ?_, ?_, fun active => absurd off active⟩
  · rintro reg ⟨⟩
    rfl
  · rintro reg expires ⟨⟩ has
    have expiry : c.admission.lease.expiresAt = some expires := has
    refine ⟨?_, s.now, ?_, le_rfl⟩
    · show c.admission.lease.expiresAt = _
      rw [expiry, ← own.admitted expires has]
    · show (c.admission.lease.expiresAt.map fun _ => s.now) = _
      rw [expiry, Option.map_some]

theorem Timely.claim (timely : s.Timely) (found : s.connections[i]? = some c)
    (waiting : c.phase = .admitted) (phrases : Fin 100 → String) : (s.claim i c phrases).Timely := by
  have off : c.renewal = .off := (timely i c found).off fun opened => by simp [waiting]
  obtain ⟨reconnects, ends⟩ := claim_cases s i c phrases
  have noted : Undisturbed (fun _ => False) s { s with accountReconnects := reconnects } :=
    .of_eq rfl rfl rfl rfl
  have timely' := timely.undisturbed noted
  rcases ends with ⟨r, -, same⟩ | ⟨label, url, -, same⟩
  · rw [same]
    exact timely'.setPhase found fun active => absurd off active
  · rw [same]
    exact timely'.enterPending found off _ _

/-- A connection that runs may have a renewal task. -/
theorem Timely.running (timely : s.Timely) (found : s.connections[i]? = some c) (opened : Bool)
    (renewal : RenewalPhase) : ((s.setPhase i (.running opened)).setRenewal i renewal).Timely := by
  have entered : (s.setPhase i (.running opened)).Timely :=
    timely.setPhase found fun _ => ⟨opened, Or.inl rfl⟩
  refine entered.setRenewal fun _ c' found' => ?_
  rw [Server.setPhase, connection_modifyConnection found] at found'
  cases found'
  exact ⟨opened, Or.inl rfl⟩

theorem Timely.install (timely : s.Timely) (found : s.connections[i]? = some c) {opened : Bool}
    (ready : c.phase = .readied opened) : (s.install i c opened).Timely := by
  have off : c.renewal = .off := (timely i c found).off fun opened => by simp [ready]
  unfold Server.install
  split
  · exact timely
  next reg known =>
    split
    · have dropped : Undisturbed (fun _ => False) s { s with
          pendingLeaseLabels := unindexLeaseLabel s.pendingLeaseLabels c.label reg
          pendingAgents := s.pendingAgents.erase c.label } := .of_eq rfl rfl rfl rfl
      simp only
      generalize { s with
        pendingLeaseLabels := unindexLeaseLabel s.pendingLeaseLabels c.label reg
        pendingAgents := s.pendingAgents.erase c.label } = t at dropped ⊢
      have accepting : Undisturbed (fun _ => False) t (t.modifyRegistration i fun reg =>
          { reg with acceptingVisitors := true }) := undisturbed_modifyRegistration fun _ _ => rfl
      have kept := (dropped.trans accepting).trans
        (undisturbed_installRegistration _ c.label i { reg with acceptingVisitors := true })
      obtain ⟨c', found', -⟩ := kept.found id found
      have installed := (timely.undisturbed kept).running found' opened
        (if reg.leaseExpiresAt.isSome then .head else .off)
      split
      · exact installed
      · exact installed
    · exact timely.setPhase found fun active => absurd off active

/-- The answer of a renewal leaves a lease that was observed at its own reading. -/
theorem Timely.renewResult (timely : s.Timely) (found : s.connections[i]? = some c)
    (registered : c.registration = some reg) (ran : c.Ran) (renewed : Option PyObject) :
    (s.renewResult i c reg renewed).Timely := by
  have here : ∀ c', s.connections[i]? = some c' → c'.Ran := by
    intro c' found'
    rw [found] at found'
    cases found'
    exact ran
  unfold Server.renewResult
  split
  · exact timely.setRenewal fun _ => here
  · split
    · exact timely.setRenewal fun active => absurd rfl active
    · split
      · exact Timely.retire (s := { s with leaseRenewalsRevoked := s.leaseRenewalsRevoked + 1 })
          timely c.label _ _
      · split
        · exact timely.setRenewal fun _ => here
        next expires generation valid =>
          obtain ⟨aware, -⟩ := validRenewedLease_future valid
          have renewed : (s.modifyRegistration i fun _ => { reg with
              leaseExpiresAt := some expires
              leaseObservedAt := some s.now
              leaseGeneration := generation }).Timely := by
            refine timely.modify fun c' found' timely' => ?_
            rw [found] at found'
            cases found'
            refine ⟨timely'.admitted, ?_, ?_, timely'.renewing⟩
            · intro reg' there
              simp only [registered, Option.map_some, Option.some.injEq] at there
              subst there
              exact timely'.named reg registered
            · intro reg' expires' there has
              simp only [registered, Option.map_some, Option.some.injEq] at there
              subst there
              cases has
              exact ⟨by rw [← aware], s.now, rfl, le_rfl⟩
          simp only
          split
          · exact renewed.retire c.label _ _
          · refine renewed.setRenewal fun _ c' found' => ?_
            rw [modifyRegistration, connection_modifyConnection found] at found'
            cases found'
            exact ran

/-- Steps of other tasks keep every connection timely. -/
private theorem Timely.untouched (timely : s.Timely) {a : Action} (moved : s.step a = some s')
    (timeless : ∀ now monotonic, a ≠ .clock now monotonic) (apart : ∀ j, ¬ a.Touches s j) :
    s'.Timely :=
  timely.undisturbed ((step_undisturbed moved timeless).mono fun j touched => apart j touched)

theorem Timely.step (timely : s.Timely) {a : Action} (ordered : s.Ordered a)
    (moved : s.step a = some s') : s'.Timely := by
  cases a with
  | clock now monotonic =>
    cases moved
    exact fun j c found => (timely j c found).of_kept rfl ordered
  | admitTunnel admission requested scheme window =>
    obtain ⟨valid, checked, rfl⟩ := Option.map_eq_some_iff.mp moved
    intro j c found
    simp only [List.getElem?_append] at found
    split at found
    · exact timely j c found
    · have last := List.mem_of_getElem? found
      rw [List.mem_singleton] at last
      subst last
      refine ⟨fun expires has => validTunnelAdmission_aware checked has, ?_, ?_, ?_⟩
      · rintro reg ⟨⟩
      · rintro reg expires ⟨⟩
      · exact fun active => absurd rfl active
  | claim i phrases =>
    obtain ⟨c, found, moved⟩ := Option.bind_eq_some_iff.mp moved
    split at moved <;> cases moved
    next waiting => exact timely.claim found waiting phrases
  | check i =>
    obtain ⟨c, found, moved⟩ := Option.bind_eq_some_iff.mp moved
    split at moved <;> cases moved
    next here =>
      have off := (timely i c found).off fun opened => by simp [here]
      exact timely.setPhase found fun active => absurd off active
  | recheck i =>
    obtain ⟨c, found, moved⟩ := Option.bind_eq_some_iff.mp moved
    split at moved <;> cases moved
    next here =>
      have off := (timely i c found).off fun opened => by simp [here]
      exact timely.setPhase found fun active => absurd off active
  | ready i sent =>
    obtain ⟨c, found, moved⟩ := Option.bind_eq_some_iff.mp moved
    split at moved <;> cases moved
    next here =>
      have off := (timely i c found).off fun opened => by simp [here]
      exact timely.setPhase found fun active => absurd off active
  | opened i result =>
    obtain ⟨c, found, moved⟩ := Option.bind_eq_some_iff.mp moved
    split at moved
    next here _ =>
      cases moved
      have off := (timely i c found).off fun opened => by simp [here]
      exact timely.setPhase found fun active => absurd off active
    next here _ =>
      cases moved
      have off := (timely i c found).off fun opened => by simp [here]
      exact timely.setPhase found fun active => absurd off active
    · cases moved
  | drop i =>
    obtain ⟨c, found, moved⟩ := Option.bind_eq_some_iff.mp moved
    split at moved <;> cases moved
    next here =>
      have off := (timely i c found).off fun opened => by simp [here]
      have dropped := timely.undisturbed (undisturbed_dropPendingIfCurrent s c.label i)
      refine dropped.setPhase (c := c) ?_ fun active => absurd off active
      rw [connections_dropPendingIfCurrent]
      exact found
  | install i =>
    obtain ⟨c, found, moved⟩ := Option.bind_eq_some_iff.mp moved
    split at moved <;> cases moved
    next here => exact timely.install found here
  | ended i =>
    obtain ⟨c, found, moved⟩ := Option.bind_eq_some_iff.mp moved
    split at moved
    · split at moved <;> cases moved
      exact timely.setPhase found fun _ => ⟨_, Or.inr rfl⟩
    · cases moved
  | renewalCancelled i =>
    obtain ⟨c, found, moved⟩ := Option.bind_eq_some_iff.mp moved
    split at moved <;> cases moved
    exact timely.setRenewal fun active => absurd rfl active
  | deregister i =>
    obtain ⟨c, found, moved⟩ := Option.bind_eq_some_iff.mp moved
    split at moved <;> cases moved
    next off =>
      have removed := timely.undisturbed (undisturbed_deregisterIfCurrent s c.label i)
      refine removed.setPhase (c := c) ?_ fun active => absurd off active
      rw [connections_deregisterIfCurrent]
      exact found
  | renewHead i =>
    obtain ⟨c, found, moved⟩ := Option.bind_eq_some_iff.mp moved
    split at moved
    next here =>
      obtain ⟨reg, -, rfl⟩ := Option.map_eq_some_iff.mp moved
      have ran := (timely i c found).renewing (by rw [here]; nofun)
      unfold Server.renewHead
      split
      · exact timely.setRenewal fun active => absurd rfl active
      · split
        · exact timely.setRenewal fun active => absurd rfl active
        · split
          · exact timely.retire c.label _ _
          · refine timely.setRenewal fun _ c' found' => ?_
            rw [found] at found'
            cases found'
            exact ran
    · cases moved
  | renewWake i =>
    obtain ⟨c, found, moved⟩ := Option.bind_eq_some_iff.mp moved
    split at moved
    next here =>
      obtain ⟨reg, -, rfl⟩ := Option.map_eq_some_iff.mp moved
      have ran := (timely i c found).renewing (by rw [here]; nofun)
      unfold Server.renewWake
      split
      · exact timely.setRenewal fun active => absurd rfl active
      · split
        · exact timely.retire c.label _ _
        · split
          · exact timely.setRenewal fun active => absurd rfl active
          · refine timely.setRenewal fun _ c' found' => ?_
            rw [found] at found'
            cases found'
            exact ran
    · cases moved
  | renewAcquired i acquired =>
    obtain ⟨c, found, moved⟩ := Option.bind_eq_some_iff.mp moved
    split at moved
    next here =>
      have ran := (timely i c found).renewing (by rw [here]; nofun)
      have fits : ∀ c', s.connections[i]? = some c' → c'.Ran := by
        intro c' found'
        rw [found] at found'
        cases found'
        exact ran
      split at moved
      · cases moved
        exact timely.setRenewal fun _ => fits
      · cases moved
        exact timely.setRenewal fun _ => fits
    · cases moved
  | renewResult i renewed =>
    obtain ⟨c, found, moved⟩ := Option.bind_eq_some_iff.mp moved
    split at moved
    next here =>
      obtain ⟨reg, registered, rfl⟩ := Option.map_eq_some_iff.mp moved
      have ran := (timely i c found).renewing (by rw [here]; nofun)
      exact timely.renewResult found registered ran renewed
    · cases moved
  | revokeLease | applyPolicyUpdate | visit | visitorOpened | visitorFailed | visitorLeft |
      throttle | mux =>
    exact timely.untouched moved (fun _ _ => nofun) fun j touched => by
      rcases touched with task | ⟨⟨_, _, _, _, same⟩, -⟩
      · cases task
      · cases same

theorem timely_of_run {config : ServerConfig} {now monotonic : ℚ} {as : List Action}
    (ordered : Transition.Along step Ordered (start config now monotonic) as)
    (ran : Transition.run step (start config now monotonic) as = some s) : s.Timely :=
  Transition.run_invariant (fun _ _ _ timely ordered moved => Timely.step timely ordered moved)
    (fun j c found => by simp [start] at found) ordered ran

/-! ### One attempt after the other -/

/-- Time does not run past the renewal task of a connection: between two `await`s the task
takes no time, and its sleep ends on time. -/
def Prompt (i : Nat) (s : Server) : Action → Prop
  | .clock now _ => s.now ≤ now ∧ ∀ c, s.connections[i]? = some c →
    (c.renewal = .head → now = s.now) ∧ ∀ till, c.renewal = .sleeping till → now ≤ till
  | .renewWake j => j = i → ∀ c till, s.connections[i]? = some c → c.renewal = .sleeping till →
    till ≤ s.now
  | _ => True

/-- The renewal task of the connection makes an attempt. -/
def Attempts (s : Server) (i : Nat) : Prop :=
  ∃ c, s.connections[i]? = some c ∧ c.renewal = .acquiring

/-- The tunnel of the connection has lost its label, drains or is being closed. -/
def Gone (s : Server) (i : Nat) : Prop :=
  ∃ c reg, s.connections[i]? = some c ∧ c.registration = some reg ∧
    (s.renewalObsolete i c reg = true ∨ ∃ opened, c.phase = .closing opened)

/-- However the run goes on, by the time the lease is out there was another attempt, or the
tunnel was gone before. -/
def RetriedBefore (s : Server) (i : Nat) (expires : ℚ) : Prop :=
  ∀ as s', Transition.Along step (Prompt i) s as → Transition.run step s as = some s' →
    expires ≤ s'.now → ∃ before later t, as = before ++ later ∧
      Transition.run step s before = some t ∧ t.now < expires ∧ (t.Attempts i ∨ t.Gone i)

/-- The renewal task is on its way to an attempt before the expiry. -/
structure Waiting (s : Server) (i : Nat) (expires : ℚ) : Prop where
  unexpired : s.now < expires
  task : ∃ c reg, s.connections[i]? = some c ∧ c.registration = some reg ∧
    reg.leaseExpiresAt = some ⟨expires, true⟩ ∧ reg.leaseId.isSome = true ∧ c.Ran ∧
    ((c.renewal = .head ∧
        ∃ delay, s.leaseRenewDelay reg = some delay ∧ 0 < delay ∧ delay < expires - s.now) ∨
      ∃ till, c.renewal = .sleeping till ∧ s.now ≤ till ∧ till < expires)

theorem leaseRenewDelay_congr {reg' : TunnelRegistration} (same : reg'.terms = reg.terms)
    (now : s'.now = s.now) (config : s'.config = s.config) :
    s'.leaseRenewDelay reg' = s.leaseRenewDelay reg := by
  have expiresAt : reg'.leaseExpiresAt = reg.leaseExpiresAt := congrArg Terms.leaseExpiresAt same
  have observedAt : reg'.leaseObservedAt = reg.leaseObservedAt := congrArg Terms.leaseObservedAt same
  have id : reg'.leaseId = reg.leaseId := congrArg Terms.leaseId same
  have generation : reg'.leaseGeneration = reg.leaseGeneration := congrArg Terms.leaseGeneration same
  unfold leaseRenewDelay leaseSecondsRemaining leaseRenewFraction
  rw [expiresAt, observedAt, id, generation, now, config]

/-- What other tasks do keeps the renewal task on its way. -/
theorem Waiting.undisturbed {expires : ℚ} {p : Nat → Prop} (waiting : s.Waiting i expires)
    (kept : Undisturbed p s s') (apart : ¬ p i) : s'.Waiting i expires := by
  obtain ⟨c, reg, found, registered, expiresAt, named, ran, turn⟩ := waiting.task
  obtain ⟨c', found', same⟩ := kept.found apart found
  obtain ⟨phase, -, renewal, -, terms⟩ := Connection.kept_eq same
  rw [registered, Option.map_some] at terms
  obtain ⟨reg', registered', terms'⟩ := Option.map_eq_some_iff.mp terms
  have expiresAt' : reg'.leaseExpiresAt = reg.leaseExpiresAt := congrArg Terms.leaseExpiresAt terms'
  have id : reg'.leaseId = reg.leaseId := congrArg Terms.leaseId terms'
  refine ⟨kept.now ▸ waiting.unexpired, c', reg', found', registered', expiresAt'.trans expiresAt,
    by rw [id]; exact named, ?_, ?_⟩
  · obtain ⟨opened, here⟩ := ran
    exact ⟨opened, by rw [phase]; exact here⟩
  · rw [renewal, kept.now, leaseRenewDelay_congr terms' kept.now kept.config]
    exact turn

/-- A step of its own brings the task on, to the attempt, or finds the tunnel gone. -/
theorem Waiting.own {expires : ℚ} (waiting : s.Waiting i expires) {a : Action}
    (task : a.task = some i) (prompt : Prompt i s a) (moved : s.step a = some s') :
    s'.Waiting i expires ∨ (s'.now < expires ∧ (s'.Attempts i ∨ s'.Gone i)) ∨ s.Gone i := by
  obtain ⟨c, reg, found, registered, expiresAt, named, ran, turn⟩ := waiting.task
  have active : c.renewal ≠ .off := by
    rcases turn with ⟨head, -⟩ | ⟨till, sleeping, -⟩
    · rw [head]
      nofun
    · rw [sleeping]
      nofun
  have stays : ∀ phase, (s.setPhase i phase).connections[i]? = some { c with phase := phase } :=
    fun phase => connection_modifyConnection found _
  have turns : ∀ renewal, (s.setRenewal i renewal).connections[i]? =
      some { c with renewal := renewal } := fun renewal => connection_modifyConnection found _
  obtain ⟨opened, running⟩ := ran
  cases a with
  | claim j phrases | check j | opened j result | recheck j | ready j sent | drop j | install j =>
    -- the connection runs, so its call is past these steps
    cases task
    rcases running with phase | phase <;> simp [step, found, phase] at moved
  | ended j =>
    cases task
    obtain ⟨c', found', moved⟩ := Option.bind_eq_some_iff.mp moved
    rw [found] at found'
    cases found'
    split at moved
    · split at moved <;> cases moved
      exact Or.inr (Or.inl ⟨waiting.unexpired, Or.inr ⟨_, reg, stays _, registered, Or.inr ⟨_, rfl⟩⟩⟩)
    · cases moved
  | renewalCancelled j =>
    cases task
    obtain ⟨c', found', moved⟩ := Option.bind_eq_some_iff.mp moved
    rw [found] at found'
    cases found'
    split at moved
    next closing => exact Or.inr (Or.inr ⟨c, reg, found, registered, Or.inr ⟨_, closing⟩⟩)
    · cases moved
  | deregister j =>
    cases task
    obtain ⟨c', found', moved⟩ := Option.bind_eq_some_iff.mp moved
    rw [found] at found'
    cases found'
    split at moved
    next off => exact absurd off active
    · cases moved
  | renewHead j =>
    cases task
    obtain ⟨c', found', moved⟩ := Option.bind_eq_some_iff.mp moved
    rw [found] at found'
    cases found'
    split at moved
    next head =>
      rw [registered, Option.map_some] at moved
      cases moved
      rcases turn with ⟨-, delay, planned, positive, inside⟩ | ⟨till, sleeping, -⟩
      · unfold Server.renewHead
        split
        next obsolete => exact Or.inr (Or.inr ⟨c, reg, found, registered, Or.inl obsolete⟩)
        · rw [planned]
          simp only [not_le.mpr positive, if_false]
          refine Or.inl ⟨waiting.unexpired, _, reg, turns _, registered, expiresAt, named,
            ⟨opened, running⟩, Or.inr ⟨_, rfl, ?_, ?_⟩⟩
          · show s.now ≤ s.now + delay
            linarith
          · linarith
      · rw [head] at sleeping
        cases sleeping
    · cases moved
  | renewWake j =>
    cases task
    obtain ⟨c', found', moved⟩ := Option.bind_eq_some_iff.mp moved
    rw [found] at found'
    cases found'
    split at moved
    next till sleeps =>
      rw [registered, Option.map_some] at moved
      cases moved
      have valid : s.leaseExpired reg = false := by
        have left : ¬ expires - s.now ≤ 0 := not_le.mpr (sub_pos.mpr waiting.unexpired)
        simp [leaseExpired, leaseSecondsRemaining, expiresAt, waiting.unexpired]
      have finite : (reg.leaseId.isNone || reg.leaseExpiresAt.isNone) = false := by
        rw [expiresAt]
        cases id : reg.leaseId with
        | none => simp [id] at named
        | some _ => rfl
      unfold Server.renewWake
      split
      next obsolete => exact Or.inr (Or.inr ⟨c, reg, found, registered, Or.inl obsolete⟩)
      · simp only [valid, finite, Bool.false_eq_true, if_false]
        exact Or.inr (Or.inl ⟨waiting.unexpired, Or.inl ⟨_, turns _, rfl⟩⟩)
    · cases moved
  | renewAcquired j acquired =>
    cases task
    obtain ⟨c', found', moved⟩ := Option.bind_eq_some_iff.mp moved
    rw [found] at found'
    cases found'
    split at moved
    next acquiring =>
      rcases turn with ⟨head, -⟩ | ⟨till, sleeping, -⟩
      · rw [acquiring] at head
        cases head
      · rw [acquiring] at sleeping
        cases sleeping
    · cases moved
  | renewResult j renewed =>
    cases task
    obtain ⟨c', found', moved⟩ := Option.bind_eq_some_iff.mp moved
    rw [found] at found'
    cases found'
    split at moved
    next calling =>
      rcases turn with ⟨head, -⟩ | ⟨till, sleeping, -⟩
      · rw [calling] at head
        cases head
      · rw [calling] at sleeping
        cases sleeping
    · cases moved
  | clock | admitTunnel | revokeLease | applyPolicyUpdate | visit | visitorOpened |
      visitorFailed | visitorLeft | throttle | mux => cases task

theorem Waiting.step {expires : ℚ} (waiting : s.Waiting i expires) {a : Action}
    (prompt : Prompt i s a) (moved : s.step a = some s') :
    s'.Waiting i expires ∨ (s'.now < expires ∧ (s'.Attempts i ∨ s'.Gone i)) ∨ s.Gone i := by
  by_cases own : a.task = some i
  · exact waiting.own own prompt moved
  by_cases ticks : ∃ now monotonic, a = .clock now monotonic
  · -- the clock stops at the head of the loop and at the end of the sleep
    obtain ⟨now, monotonic, rfl⟩ := ticks
    cases moved
    obtain ⟨c, reg, found, registered, expiresAt, named, ran, turn⟩ := waiting.task
    obtain ⟨-, stops⟩ := prompt
    obtain ⟨still, wakes⟩ := stops c found
    rcases turn with ⟨head, delay, planned, positive, inside⟩ | ⟨till, sleeping, -, early⟩
    · have same := still head
      subst same
      exact Or.inl ⟨waiting.unexpired, c, reg, found, registered, expiresAt, named, ran,
        Or.inl ⟨head, delay, planned, positive, inside⟩⟩
    · have due := wakes till sleeping
      exact Or.inl ⟨lt_of_le_of_lt due early, c, reg, found, registered, expiresAt, named, ran,
        Or.inr ⟨till, sleeping, due, early⟩⟩
  · obtain ⟨c, -, found, -⟩ := waiting.task
    refine Or.inl (waiting.undisturbed (step_undisturbed moved fun now monotonic same =>
      ticks ⟨now, monotonic, same⟩) ?_)
    rintro (mine | ⟨-, last⟩)
    · exact own mine
    · rw [last, List.getElem?_eq_none le_rfl] at found
      cases found

/-- A task on its way makes its attempt before the lease is out. -/
theorem Waiting.retried {expires : ℚ} (waiting : s.Waiting i expires) : s.RetriedBefore i expires := by
  intro as
  induction as generalizing s with
  | nil =>
    intro s' _ ran late
    cases ran
    exact absurd late (not_le.mpr waiting.unexpired)
  | cons a as ih =>
    intro s' prompt ran late
    obtain ⟨t, moved, rest⟩ := Transition.run_cons_iff.mp ran
    rcases waiting.step prompt.1 moved with waiting' | ⟨early, found⟩ | gone
    · obtain ⟨before, later, u, rfl, ran', reached⟩ := ih waiting' s' (prompt.2 t moved) rest late
      exact ⟨a :: before, later, u, rfl, Transition.run_cons_iff.mpr ⟨t, moved, ran'⟩, reached⟩
    · exact ⟨[a], as, t, rfl, Transition.run_cons_iff.mpr ⟨t, moved, rfl⟩, early, found⟩
    · exact ⟨[], a :: as, s, rfl, rfl, waiting.unexpired, Or.inr gone⟩

/-- A task that sleeps up to the expiry makes no attempt before it. -/
theorem not_retried_of_late {expires : ℚ} (found : s.connections[i]? = some c)
    (registered : c.registration = some reg) (head : c.renewal = .head)
    (lasts : reg.LastsTo s.now expires) (unexpired : s.now < expires) (present : ¬ s.Gone i)
    (late : s.retriesInTime reg = false) : ¬ s.RetriedBefore i expires := by
  intro retried
  have current : s.renewalObsolete i c reg = false := by
    by_contra obsolete
    exact present ⟨c, reg, found, registered, Or.inl (Bool.not_eq_false _ ▸ obsolete)⟩
  have remains : ¬ expires - s.now ≤ 0 := not_le.mpr (sub_pos.mpr unexpired)
  have sleeps : s.step (.renewHead i) = some (s.setRenewal i (.sleeping expires)) := by
    simp only [step, found, Option.bind_some, head, registered, Option.map_some, renewHead, current,
      Bool.false_eq_true, if_false, leaseRenewDelay_of_late lasts unexpired late, remains,
      add_sub_cancel]
  have asleep : (s.setRenewal i (.sleeping expires)).connections[i]? =
      some { c with renewal := .sleeping expires } := connection_modifyConnection found _
  obtain ⟨before, later, t, split, ran, early, reached⟩ :=
    retried [.renewHead i, .clock expires s.monotonic]
      { s.setRenewal i (.sleeping expires) with now := expires }
      ⟨trivial, fun t moved => by
        rw [sleeps] at moved
        cases moved
        refine ⟨⟨unexpired.le, fun c' found' => ?_⟩, fun _ _ => trivial⟩
        rw [asleep] at found'
        cases found'
        exact ⟨by simp, by rintro till ⟨⟩; exact le_rfl⟩⟩
      (Transition.run_cons_iff.mpr ⟨_, sleeps, rfl⟩) le_rfl
  -- before the expiry the run is at its start or asleep, and in neither there is an attempt
  rcases before with _ | ⟨first, _ | ⟨second, more⟩⟩
  · cases ran
    rcases reached with ⟨c', found', attempts⟩ | gone
    · rw [found] at found'
      cases found'
      rw [head] at attempts
      cases attempts
    · exact present gone
  · cases split
    obtain ⟨u, moved, same⟩ := Transition.run_cons_iff.mp ran
    cases same
    rw [sleeps] at moved
    cases moved
    rcases reached with ⟨c', found', attempts⟩ | ⟨c', reg', found', registered', gone⟩
    · rw [asleep] at found'
      cases found'
      cases attempts
    · rw [asleep] at found'
      cases found'
      exact present ⟨c, reg', found, registered', gone⟩
  · simp only [List.cons_append, List.cons.injEq, List.nil_eq, List.append_eq_nil_iff] at split
    obtain ⟨rfl, rfl, rfl, -⟩ := split
    obtain ⟨u, moved, rest⟩ := Transition.run_cons_iff.mp ran
    obtain ⟨u', moved', same⟩ := Transition.run_cons_iff.mp rest
    cases same
    cases moved'
    exact lt_irrefl _ early

/-- **A renewal that failed is tried again before the expiry exactly where the delay past the
preferred point is shorter than what is left of the lease.** In every state that a run with a
clock that does not go back reaches, and whenever the renewal task computes its delay for an
unexpired lease, the delay lies strictly inside the lease, and every prompt run from there
makes another attempt in time, if and only if `retriesInTime` says so. -/
theorem retried_iff {config : ServerConfig} (spreads : Spreads config) {now monotonic expires : ℚ}
    {as : List Action} (ordered : Transition.Along step Ordered (start config now monotonic) as)
    (ran : Transition.run step (start config now monotonic) as = some s)
    (found : s.connections[i]? = some c) (registered : c.registration = some reg)
    (head : c.renewal = .head) (finite : reg.leaseExpiresAt.map Datetime.seconds = some expires)
    (unexpired : s.now < expires) (present : ¬ s.Gone i) :
    ((∃ delay, s.leaseRenewDelay reg = some delay ∧ 0 < delay ∧ delay < expires - s.now) ↔
        s.retriesInTime reg = true) ∧
      (s.RetriedBefore i expires ↔ s.retriesInTime reg = true) := by
  have timely := timely_of_run ordered ran i c found
  obtain ⟨lease, has, rfl⟩ := Option.map_eq_some_iff.mp finite
  have lasts := timely.lasts reg lease registered has
  have same : s.config = config := config_of_run ran
  have inside := leaseRenewDelay_inside_iff (same ▸ spreads) lasts unexpired
  refine ⟨inside, fun retried => ?_, fun intime => ?_⟩
  · by_contra late
    exact not_retried_of_late found registered head lasts unexpired present
      (Bool.eq_false_iff.mpr late) retried
  · have waiting : s.Waiting i lease.seconds := ⟨unexpired, c, reg, found, registered,
      lasts.expiresAt, timely.named reg registered, timely.renewing (by rw [head]; nofun),
      Or.inl ⟨head, inside.mpr intime⟩⟩
    exact waiting.retried

/-- A tunnel with a lease of a minute. -/
def leasedMinute : List Action :=
  .admitTunnel (plainAdmission "a" "lease" 1 (.datetime ⟨60, true⟩)) (some "x") .http .default ::
    setUp 0

theorem retried_of_minute : ∃ s, Transition.run step (start smallRelay 0 0) leasedMinute = some s ∧
    s.RetriedBefore 0 60 := by
  have done : ((Transition.run step (start smallRelay 0 0) leasedMinute).bind fun s =>
      (s.connections[0]?).bind fun c => c.registration.map fun reg =>
        (s.now, c.renewal, c.phase, reg.leaseExpiresAt.map Datetime.seconds,
          s.renewalObsolete 0 c reg, s.retriesInTime reg)) =
      some (0, .head, .running true, some 60, false, true) := by
    decide +kernel
  obtain ⟨s, ran, rest⟩ := Option.bind_eq_some_iff.mp done
  obtain ⟨c, found, rest⟩ := Option.bind_eq_some_iff.mp rest
  obtain ⟨reg, registered, facts⟩ := Option.map_eq_some_iff.mp rest
  simp only [Prod.mk.injEq] at facts
  obtain ⟨now, head, running, finite, current, intime⟩ := facts
  have ordered : Transition.Along step Ordered (start smallRelay 0 0) leasedMinute :=
    Transition.along_of_forall (fun a member t => by
      simp only [leasedMinute, setUp, List.mem_cons, List.not_mem_nil, or_false] at member
      rcases member with rfl | rfl | rfl | rfl | rfl | rfl | rfl <;> trivial) _
  have present : ¬ s.Gone 0 := by
    rintro ⟨c', reg', found', registered', obsolete | ⟨opened, closing⟩⟩
    · rw [found] at found'
      cases found'
      rw [registered] at registered'
      cases registered'
      rw [current] at obsolete
      cases obsolete
    · rw [found] at found'
      cases found'
      rw [running] at closing
      cases closing
  have spreads : Spreads smallRelay := fun _ => ⟨le_rfl, zero_le_one⟩
  exact ⟨s, ran, ((retried_iff spreads ordered ran found registered head finite
    (by rw [now]; norm_num) present).2).mpr intime⟩

/-- Its only renewal is answered by an error after six seconds. -/
def failedOnce : List Action :=
  leasedMinute ++
  [.renewHead 0, .clock 39 39, .renewWake 0, .renewAcquired 0 true, .clock 45 45,
    .renewResult 0 none]

theorem expires_untried : ∃ s t, Transition.run step (start smallRelay 0 0) failedOnce = some s ∧
    s.leaseRenewalsFailed = 1 ∧
    (s.registration? 0).bind s.leaseSecondsRemaining = some 15 ∧
    (s.registration? 0).bind s.leaseRenewDelay = some 15 ∧
    Transition.run step s [.renewHead 0, .clock 60 60, .renewWake 0] = some t ∧
    t.agents.lookup "x" = none ∧ t.leaseExpirations = 1 ∧ t.leaseRenewalsFailed = 1 := by
  have done : ((Transition.run step (start smallRelay 0 0) failedOnce).bind fun s =>
      (Transition.run step s [.renewHead 0, .clock 60 60, .renewWake 0]).map fun t =>
        (s.leaseRenewalsFailed, (s.registration? 0).bind s.leaseSecondsRemaining,
          (s.registration? 0).bind s.leaseRenewDelay, t.agents.lookup "x", t.leaseExpirations,
          t.leaseRenewalsFailed)) = some (1, some 15, some 15, none, 1, 1) := by
    decide +kernel
  obtain ⟨s, ran, rest⟩ := Option.bind_eq_some_iff.mp done
  obtain ⟨t, later, facts⟩ := Option.map_eq_some_iff.mp rest
  simp only [Prod.mk.injEq] at facts
  obtain ⟨failed, remaining, delay, gone, expired, still⟩ := facts
  exact ⟨s, t, ran, failed, remaining, delay, later, gone, expired, still⟩

end Server

end Chute
