import Chute.Mux.Counters
import Chute.Server.Slots

/-!
# The course of a connection

How far each call of `_serve_agent` has come, which multiplexer its registration has, and
what the relay has counted. Only a connection's own call moves its phase, only its
multiplexer's own steps move the multiplexer, and no counter is ever lowered.
-/
namespace Chute

namespace Server

variable {s s' s'' : Server} {i : Nat}

def Connection.course (c : Connection) : Phase × Option Mux :=
  (c.phase, c.registration.map TunnelRegistration.mux)

def courses (s : Server) : List (Phase × Option Mux) := s.connections.map Connection.course

/-- The counters of the relay that the tasks of this model keep. -/
def tallies (s : Server) : Nat × Nat × Nat × Nat × Nat × Nat × Nat × Nat × Nat :=
  (s.authBusy, s.policyUpdatesApplied, s.policyUpdatesRejected, s.leaseRenewalsSucceeded,
    s.leaseRenewalsFailed, s.leaseRenewalsInvalid, s.leaseRenewalsRevoked, s.leaseRevocations,
    s.leaseExpirations)

/-- Every connection is where it was, and every counter at least where it was. -/
structure Calm (s s' : Server) : Prop where
  courses : s'.courses = s.courses
  tallies : s.tallies ≤ s'.tallies

namespace Calm

theorem of_eq (connections : s'.connections = s.connections) (tallies : s'.tallies = s.tallies) : Calm s s' :=
  ⟨congrArg (List.map Connection.course) connections, tallies.ge⟩

theorem refl (s : Server) : Calm s s := of_eq rfl rfl

theorem trans (first : Calm s s') (second : Calm s' s'') : Calm s s'' :=
  ⟨second.courses.trans first.courses, first.tallies.trans second.tallies⟩

/-- A part of a step that does not begin in `s`, but with the connections and counters of `s`. -/
theorem of_later (later : Calm s' s'') (connections : s'.connections = s.connections)
    (tallies : s'.tallies = s.tallies) : Calm s s'' :=
  (of_eq connections tallies).trans later

theorem foldl {α : Type} {f : Server → α → Server} (each : ∀ s a, Calm s (f s a)) (list : List α)
    (s : Server) : Calm s (list.foldl f s) := by
  induction list generalizing s with
  | nil => exact .refl s
  | cons a rest ih => exact (each s a).trans (ih _)

end Calm

/-! ### The parts of a step -/

theorem calm_modifyConnection (s : Server) (i : Nat) {f : Connection → Connection}
    (same : ∀ c, s.connections[i]? = some c → (f c).course = c.course) : Calm s (s.modifyConnection i f) :=
  ⟨map_modifyConnection Connection.course same, le_rfl⟩

theorem calm_setRenewal (s : Server) (i : Nat) (renewal : RenewalPhase) : Calm s (s.setRenewal i renewal) :=
  calm_modifyConnection s i fun _ _ => rfl

theorem calm_modifyRegistration (s : Server) (i : Nat) {f : TunnelRegistration → TunnelRegistration}
    (same : ∀ reg, s.registration? i = some reg → (f reg).mux = reg.mux) : Calm s (s.modifyRegistration i f) := by
  refine calm_modifyConnection s i fun c found => Prod.ext rfl ?_
  show (c.registration.map f).map TunnelRegistration.mux = c.registration.map TunnelRegistration.mux
  cases registered : c.registration with
  | none => rfl
  | some reg => exact congrArg some (same reg (by simp [registration?, found, registered]))

theorem calm_dropAccountBandwidthIfIdle (s : Server) (accountId : String) :
    Calm s (s.dropAccountBandwidthIfIdle accountId) := by
  unfold dropAccountBandwidthIfIdle
  split
  · exact .refl s
  · exact .of_eq rfl rfl

theorem calm_deregisterIfCurrent (s : Server) (label : String) (i : Nat) :
    Calm s (s.deregisterIfCurrent label i) := by
  unfold deregisterIfCurrent
  split
  · split
    · exact (calm_dropAccountBandwidthIfIdle _ _).of_later rfl rfl
    · exact .refl s
  · exact .refl s

theorem calm_dropPendingIfCurrent (s : Server) (label : String) (i : Nat) :
    Calm s (s.dropPendingIfCurrent label i) := by
  unfold dropPendingIfCurrent
  split
  · split
    · exact .of_eq rfl rfl
    · exact .refl s
  · exact .refl s

theorem calm_installRegistration (s : Server) (label : String) (i : Nat) (reg : TunnelRegistration) :
    Calm s (s.installRegistration label i reg) := by
  have unindexed : Calm s (s.unindexPrevious label reg) := by
    unfold unindexPrevious
    split
    · exact .refl s
    · simp only
      split
      · exact .of_eq rfl rfl
      · exact (calm_dropAccountBandwidthIfIdle _ _).of_later rfl rfl
  exact unindexed.trans (.of_eq rfl rfl)

theorem calm_retireRegistration (s : Server) (label : String) (i : Nat) (reason : RetireReason) (timeout : ℚ) :
    Calm s (s.retireRegistration label i reason timeout) := by
  unfold retireRegistration
  split
  · have disabled : Calm s (s.modifyRegistration i fun reg => { reg with acceptingVisitors := false }) :=
      calm_modifyRegistration s i fun _ _ => rfl
    refine (disabled.trans (calm_deregisterIfCurrent _ label i)).trans ?_
    cases reason with
    | leaseRevoked => exact ⟨rfl, le_rfl, le_rfl, le_rfl, le_rfl, le_rfl, le_rfl, le_rfl, Nat.le_succ _, le_rfl⟩
    | leaseExpired => exact ⟨rfl, le_rfl, le_rfl, le_rfl, le_rfl, le_rfl, le_rfl, le_rfl, le_rfl, Nat.le_succ _⟩
  · exact .refl s

theorem calm_retirePending (s : Server) (revoked : Nat) (candidates : List (String × Nat)) :
    Calm s (s.retirePending revoked candidates).2 := by
  have first : ∀ (s : Server) label i, Calm s (s.retirePendingRegistration label i).2 := by
    intro s label i
    unfold retirePendingRegistration
    split
    · have disabled : Calm s (s.modifyRegistration i fun reg => { reg with acceptingVisitors := false }) :=
        calm_modifyRegistration s i fun _ _ => rfl
      refine (disabled.trans (calm_dropPendingIfCurrent _ label i)).trans ?_
      exact ⟨rfl, le_rfl, le_rfl, le_rfl, le_rfl, le_rfl, le_rfl, le_rfl, Nat.le_succ _, le_rfl⟩
    · exact .refl s
  induction candidates generalizing s revoked with
  | nil => exact .refl s
  | cons e rest ih =>
    obtain ⟨label, i⟩ := e
    have here := first s label i
    rw [retirePending.eq_def]
    cases ended : s.retirePendingRegistration label i with
    | mk dropped t =>
      rw [ended] at here
      simp only [ended]
      cases dropped with
      | true => exact here.trans (ih t _)
      | false => exact here.trans (ih t _)

theorem calm_revokeLease (s : Server) (leaseId : String) (action : RevocationAction) :
    Calm s (s.revokeLease leaseId action).2 := by
  unfold revokeLease
  split
  · exact .refl s
  · cases s.registrationsForLeaseIndex leaseId s.leaseLabels s.agents with
    | mk candidates leaseLabels =>
      simp only
      have indexed : Calm s { s with leaseLabels := leaseLabels } := .of_eq rfl rfl
      have retired := indexed.trans (Calm.foldl (fun t (e : String × Nat) =>
        calm_retireRegistration t e.1 e.2 .leaseRevoked (RevocationAction.drainTimeout action)) candidates _)
      generalize candidates.foldl _ _ = t at retired ⊢
      cases t.registrationsForLeaseIndex leaseId t.pendingLeaseLabels t.pendingAgents with
      | mk pending pendingLeaseLabels =>
        have unindexed : Calm t { t with pendingLeaseLabels := pendingLeaseLabels } := .of_eq rfl rfl
        exact retired.trans (unindexed.trans (calm_retirePending _ _ _))

theorem calm_setAccountBudget (s : Server) (accountId : String) (budget : Budget) :
    Calm s (s.setAccountBudget accountId budget) := by
  unfold setAccountBudget
  split
  · simp only
    have overridden : Calm s { s with
        accountBudgetOverrides := s.accountBudgetOverrides.insert accountId budget } := .of_eq rfl rfl
    refine overridden.trans (Calm.foldl (fun s label => ?_) _ _)
    split
    · exact .refl s
    · exact calm_modifyRegistration s _ fun _ _ => rfl
  · exact .of_eq rfl rfl

theorem calm_applyPolicyUpdate (s : Server) (update : PyObject) : Calm s (s.applyPolicyUpdate update).2 := by
  unfold applyPolicyUpdate
  split
  · exact ⟨rfl, le_rfl, le_rfl, Nat.le_succ _, le_rfl, le_rfl, le_rfl, le_rfl, le_rfl, le_rfl⟩
  next u valid =>
    have revoked := Calm.foldl (fun s (r : String × RevocationAction) => calm_revokeLease s r.1 r.2)
      u.revocations s
    have budgeted := Calm.foldl (fun s (b : String × Budget) => calm_setAccountBudget s b.1 b.2)
      u.accountBudgets (u.revocations.foldl (fun s r => (s.revokeLease r.1 r.2).2) s)
    refine (revoked.trans budgeted).trans ?_
    exact ⟨rfl, le_rfl, Nat.le_succ _, le_rfl, le_rfl, le_rfl, le_rfl, le_rfl, le_rfl, le_rfl⟩

theorem calm_retireOff (s : Server) (label : String) (i : Nat) (reason : RetireReason) (timeout : ℚ)
    (renewal : RenewalPhase) : Calm s ((s.retireRegistration label i reason timeout).setRenewal i renewal) :=
  (calm_retireRegistration s label i reason timeout).trans (calm_setRenewal _ i renewal)

theorem calm_renewHead (s : Server) (i : Nat) (c : Connection) (reg : TunnelRegistration) :
    Calm s (s.renewHead i c reg) := by
  unfold renewHead
  split
  · exact calm_setRenewal s i _
  · split
    · exact calm_setRenewal s i _
    · split
      · exact calm_retireOff s c.label i _ _ _
      · exact calm_setRenewal s i _

theorem calm_renewWake (s : Server) (i : Nat) (c : Connection) (reg : TunnelRegistration) :
    Calm s (s.renewWake i c reg) := by
  unfold renewWake
  split
  · exact calm_setRenewal s i _
  · split
    · exact calm_retireOff s c.label i _ _ _
    · split
      · exact calm_setRenewal s i _
      · exact calm_setRenewal s i _

theorem calm_renewResult {reg : TunnelRegistration} (known : s.registration? i = some reg) (c : Connection)
    (renewed : Option PyObject) : Calm s (s.renewResult i c reg renewed) := by
  unfold renewResult
  split
  · refine (calm_setRenewal s i .head).trans ?_
    exact ⟨rfl, le_rfl, le_rfl, le_rfl, le_rfl, Nat.le_succ _, le_rfl, le_rfl, le_rfl, le_rfl⟩
  · split
    · exact calm_setRenewal s i _
    · split
      · have counted : Calm s { s with leaseRenewalsRevoked := s.leaseRenewalsRevoked + 1 } :=
          ⟨rfl, le_rfl, le_rfl, le_rfl, le_rfl, le_rfl, le_rfl, Nat.le_succ _, le_rfl, le_rfl⟩
        exact counted.trans (calm_retireOff _ c.label i _ _ _)
      · split
        · refine (calm_setRenewal s i .head).trans ?_
          exact ⟨rfl, le_rfl, le_rfl, le_rfl, le_rfl, le_rfl, Nat.le_succ _, le_rfl, le_rfl, le_rfl⟩
        next expires generation valid =>
          have extended : Calm s (s.modifyRegistration i fun _ => { reg with
              leaseExpiresAt := some expires
              leaseObservedAt := some s.now
              leaseGeneration := generation }) := calm_modifyRegistration s i fun old known' => by
            rw [known] at known'
            cases known'
            rfl
          simp only
          split
          · exact extended.trans (calm_retireOff _ c.label i _ _ _)
          · refine (extended.trans (calm_setRenewal _ i .head)).trans ?_
            exact ⟨rfl, le_rfl, le_rfl, le_rfl, Nat.le_succ _, le_rfl, le_rfl, le_rfl, le_rfl, le_rfl⟩

theorem calm_releaseVisitorBudget (s : Server) (accountId : String) : Calm s (s.releaseVisitorBudget accountId) := by
  unfold releaseVisitorBudget
  split
  · exact (calm_dropAccountBandwidthIfIdle _ _).of_later rfl rfl
  · exact .of_eq rfl rfl

theorem calm_leave {v : Nat} {visitor : Visitor} (moved : s.leave v visitor = some s') : Calm s s' := by
  obtain ⟨reg, -, rfl⟩ := Option.map_eq_some_iff.mp moved
  exact (calm_releaseVisitorBudget _ _).of_later rfl rfl

theorem calm_throttleAccountBytes (s : Server) (reg : TunnelRegistration) (n : Nat) :
    Calm s (s.throttleAccountBytes reg n).2 := by
  have swept : ∀ t : Server, Calm t t.sweepIdleBandwidth := fun t =>
    Calm.foldl calm_dropAccountBandwidthIfIdle _ t
  unfold throttleAccountBytes
  split
  · exact .refl s
  · split
    · exact .refl s
    · split
      · exact .refl s
      · split
        · exact .of_eq rfl rfl
        · simp only
          have first : Calm s (if bandwidthMaxAccounts ≤ s.accountBandwidth.keys.length then
              s.sweepIdleBandwidth else s) := by
            split
            · exact swept s
            · exact .refl s
          generalize (if bandwidthMaxAccounts ≤ s.accountBandwidth.keys.length then
            s.sweepIdleBandwidth else s) = t at first
          split
          · exact first
          · exact first.trans (.of_eq rfl rfl)

theorem calm_selectAgentForVisitor (s : Server) (label : String) : Calm s (s.selectAgentForVisitor label).2 := by
  unfold selectAgentForVisitor
  split
  · exact .refl s
  · split
    · exact .refl s
    · split
      · exact .refl s
      · split
        · exact calm_retireRegistration s label _ .leaseExpired leaseExpiryDrainTimeout
        · exact .refl s

theorem calm_tryAcquireVisitorBudget {reg : TunnelRegistration}
    (acquired : s.tryAcquireVisitorBudget reg = some s') : Calm s s' := by
  unfold tryAcquireVisitorBudget at acquired
  split at acquired
  · cases acquired
  · cases acquired
    exact .of_eq rfl rfl

/-! ### The parts that move a connection -/

theorem courses_modifyConnection {c : Connection} (found : s.connections[i]? = some c)
    (f : Connection → Connection) : (s.modifyConnection i f).courses = s.courses.set i (f c).course := by
  obtain ⟨short, rfl⟩ := List.getElem?_eq_some_iff.mp found
  refine List.ext_getElem? fun j => ?_
  simp only [courses, modifyConnection, List.getElem?_map, List.getElem?_modify, List.getElem?_set,
    List.length_map]
  split
  next here =>
    subst here
    simp [short]
  · simp

theorem found_course {p : Phase} {m : Option Mux} :
    s.courses[i]? = some (p, m) ↔ ∃ c, s.connections[i]? = some c ∧ c.phase = p ∧
      c.registration.map TunnelRegistration.mux = m := by
  simp only [courses, List.getElem?_map, Option.map_eq_some_iff, Connection.course, Prod.mk.injEq]

theorem courses_setPhase {p : Phase} {m : Option Mux} (found : s.courses[i]? = some (p, m)) (q : Phase) :
    (s.setPhase i q).courses = s.courses.set i (q, m) := by
  obtain ⟨c, here, -, rfl⟩ := found_course.mp found
  exact courses_modifyConnection here _

theorem courses_afterMux {p : Phase} {reg : TunnelRegistration} (found : s.courses[i]? = some (p, some reg.mux))
    (h : Host) : (s.afterMux i reg h).courses = s.courses.set i (p, some h.mux) := by
  obtain ⟨c, here, rfl, registered⟩ := found_course.mp found
  obtain ⟨old, registered, -⟩ := Option.map_eq_some_iff.mp registered
  have changed : (s.modifyRegistration i fun reg => { reg with mux := h.mux }).courses =
      s.courses.set i (c.phase, some h.mux) := by
    rw [modifyRegistration, courses_modifyConnection here, Connection.course, registered]
    rfl
  unfold afterMux
  simp only
  split
  · exact (calm_dropAccountBandwidthIfIdle _ reg.accountId).courses.trans changed
  · exact changed

/-! ### Where a connection goes -/

/-- Which `_serve_agent` call takes the step. -/
def Action.serves : Action → Option Nat
  | .claim i _ => some i
  | .check i => some i
  | .opened i _ => some i
  | .recheck i => some i
  | .ready i _ => some i
  | .drop i => some i
  | .install i => some i
  | .ended i => some i
  | .deregister i => some i
  | _ => none

/-- How a step moves one connection, and the multiplexer of its registration. -/
inductive Turn (i : Nat) : Action → Phase × Option Mux → Phase × Option Mux → Prop
  | rejected (phrases : Fin 100 → String) (r : Rejection) (m : Option Mux) :
      Turn i (.claim i phrases) (.admitted, m) (.over_ false (.rejected r), m)
  | claimed (phrases : Fin 100 → String) (m : Option Mux) (new : Mux) :
      Turn i (.claim i phrases) (.admitted, m) (.claimed, some new)
  | emits (m : Option Mux) : Turn i (.check i) (.claimed, m) (.emitting, m)
  | stale (m : Option Mux) : Turn i (.check i) (.claimed, m) (.over_ false .leaseRevoked, m)
  | opened (result : Bool) (m : Option Mux) :
      Turn i (.opened i (some result)) (.emitting, m) (.emitted result, m)
  | refused (m : Option Mux) :
      Turn i (.opened i none) (.emitting, m) (.dropping false .eventSinkUnavailable, m)
  | readies (opened : Bool) (m : Option Mux) : Turn i (.recheck i) (.emitted opened, m) (.readying opened, m)
  | revoked (opened : Bool) (m : Option Mux) :
      Turn i (.recheck i) (.emitted opened, m) (.over_ opened .leaseRevoked, m)
  | sent (opened : Bool) (m : Option Mux) :
      Turn i (.ready i true) (.readying opened, m) (.readied opened, m)
  | unsent (opened : Bool) (m : Option Mux) :
      Turn i (.ready i false) (.readying opened, m) (.dropping opened .readyFailed, m)
  | dropped (opened : Bool) (why : Ending) (m : Option Mux) :
      Turn i (.drop i) (.dropping opened why, m) (.over_ opened why, m)
  | installed (opened : Bool) (m : Option Mux) : Turn i (.install i) (.readied opened, m) (.running opened, m)
  | superseded (opened : Bool) (m : Option Mux) :
      Turn i (.install i) (.readied opened, m) (.over_ opened .superseded, m)
  | unregistered (opened : Bool) : Turn i (.install i) (.readied opened, none) (.readied opened, none)
  | ended (opened : Bool) (m : Option Mux) : Turn i (.ended i) (.running opened, m) (.closing opened, m)
  | deregistered (opened : Bool) (m : Option Mux) :
      Turn i (.deregister i) (.closing opened, m) (.over_ opened .disconnected, m)
  | carried (a : Action) (p : Phase) {m m' : Mux} (other : a.serves = none) (grows : m.Grows m') :
      Turn i a (p, some m) (p, some m')

/-- A step moves at most one connection, or brings a new one. -/
inductive Turns (a : Action) (before : List (Phase × Option Mux)) : List (Phase × Option Mux) → Prop
  | stay (other : a.serves = none) : Turns a before before
  | admitted (admission : PyObject) (requested : Option String) (scheme : Scheme) (window : FlowWindow)
      (here : a = .admitTunnel admission requested scheme window) :
      Turns a before (before ++ [(.admitted, none)])
  | one (i : Nat) (c c' : Phase × Option Mux) (found : before[i]? = some c) (turn : Turn i a c c') :
      Turns a before (before.set i c')

/-- What a step does to the connections and to the counters of the relay. -/
structure Proceeds (a : Action) (s s' : Server) : Prop where
  turns : Turns a s.courses s'.courses
  tallies : s.tallies ≤ s'.tallies

theorem Calm.proceeds {a : Action} (calm : Calm s s') (other : a.serves = none) : Proceeds a s s' :=
  ⟨calm.courses ▸ .stay other, calm.tallies⟩

/-- A calm part before the turn, and one after it. -/
theorem Proceeds.between {a : Action} {t : Server} (turns : Proceeds a s' s'') (before : Calm s s')
    (after : Calm s'' t) : Proceeds a s t :=
  ⟨after.courses ▸ before.courses ▸ turns.turns,
    before.tallies.trans (turns.tallies.trans after.tallies)⟩

theorem proceeds_turn {a : Action} {p q : Phase} {m : Option Mux} (found : s.courses[i]? = some (p, m))
    (turn : Turn i a (p, m) (q, m)) : Proceeds a s (s.setPhase i q) :=
  ⟨courses_setPhase found q ▸ .one i _ _ found turn, le_rfl⟩

theorem proceeds_setPhase {a : Action} {c : Connection} (found : s.connections[i]? = some c) {q : Phase}
    (turn : Turn i a c.course (q, c.registration.map TunnelRegistration.mux)) :
    Proceeds a s (s.setPhase i q) :=
  proceeds_turn (found_course.mpr ⟨c, found, rfl, rfl⟩) turn

theorem proceeds_claim {c : Connection} (found : s.connections[i]? = some c) (waiting : c.phase = .admitted)
    (phrases : Fin 100 → String) : Proceeds (.claim i phrases) s (s.claim i c phrases) := by
  obtain ⟨reconnects, ends⟩ := claim_cases s i c phrases
  have noted : Calm s { s with accountReconnects := reconnects } := .of_eq rfl rfl
  rcases ends with ⟨r, -, same⟩ | ⟨label, url, -, same⟩
  · rw [same]
    have there : ({ s with accountReconnects := reconnects } : Server).connections[i]? = some c := found
    have turn : Turn i (.claim i phrases) c.course
        (.over_ false (.rejected r), c.registration.map TunnelRegistration.mux) := by
      rw [Connection.course, waiting]
      exact .rejected phrases r _
    exact (proceeds_setPhase there turn).between noted (.refl _)
  · rw [same]
    have here := found_course.mpr ⟨c, found, waiting, rfl⟩
    have changed : ({ s with accountReconnects := reconnects }.enterPending i label
        (s.newRegistration c url)).courses =
          s.courses.set i (.claimed, some (s.newRegistration c url).mux) :=
      courses_modifyConnection found _
    refine ⟨?_, le_rfl⟩
    rw [changed]
    exact .one i _ _ here (.claimed phrases _ _)

theorem proceeds_install {c : Connection} {opened : Bool} (found : s.connections[i]? = some c)
    (readied : c.phase = .readied opened) : Proceeds (.install i) s (s.install i c opened) := by
  have turned : ∀ {t : Server} {q : Phase}, Calm s t →
      Turn i (.install i) (.readied opened, c.registration.map TunnelRegistration.mux)
        (q, c.registration.map TunnelRegistration.mux) → Proceeds (.install i) s (t.setPhase i q) := by
    intro t q calm turn
    have here : t.courses[i]? = some (.readied opened, c.registration.map TunnelRegistration.mux) := by
      rw [calm.courses]
      exact found_course.mpr ⟨c, found, readied, rfl⟩
    exact (proceeds_turn here turn).between calm (.refl _)
  unfold Server.install
  split
  next missing =>
    have unregistered : c.registration = none := by simpa [registration?, found] using missing
    have here : s.courses[i]? = some (.readied opened, none) :=
      found_course.mpr ⟨c, found, readied, by rw [unregistered]; rfl⟩
    have same : s.courses.set i (.readied opened, none) = s.courses := by
      obtain ⟨short, there⟩ := List.getElem?_eq_some_iff.mp here
      rw [← there]
      exact List.set_getElem_self short
    have turns := Turns.one i _ _ here (.unregistered opened)
    rw [same] at turns
    exact ⟨turns, le_rfl⟩
  next reg known =>
    split
    · simp only
      have unlisted : Calm s { s with
          pendingLeaseLabels := unindexLeaseLabel s.pendingLeaseLabels c.label reg
          pendingAgents := s.pendingAgents.erase c.label } := .of_eq rfl rfl
      have accepting := unlisted.trans (calm_modifyRegistration _ i
        (f := fun reg => { reg with acceptingVisitors := true }) fun _ _ => rfl)
      have listed := accepting.trans (calm_installRegistration _ c.label i { reg with acceptingVisitors := true })
      have running := turned listed (.installed opened _)
      split
      · exact running.between (.refl s) (calm_setRenewal _ i _)
      · exact running.between (.refl s) ((calm_setRenewal _ i _).trans (.of_eq rfl rfl))
    · exact turned (.refl s) (.superseded opened _)

theorem proceeds_afterMux {a : Action} (other : a.serves = none) {reg : TunnelRegistration}
    (known : s.registration? i = some reg) {h : Host} (grows : reg.mux.Grows h.mux) :
    Proceeds a s (s.afterMux i reg h) := by
  obtain ⟨c, found, registered⟩ := Option.bind_eq_some_iff.mp known
  have here : s.courses[i]? = some (c.phase, some reg.mux) :=
    found_course.mpr ⟨c, found, rfl, by rw [registered]; rfl⟩
  have idle : ∀ t : Server, t.tallies = s.tallies →
      s.tallies ≤ (t.dropAccountBandwidthIfIdle reg.accountId).tallies :=
    fun t same => same ▸ (calm_dropAccountBandwidthIfIdle t reg.accountId).tallies
  refine ⟨courses_afterMux here h ▸ .one i _ _ here (.carried a _ other grows), ?_⟩
  unfold afterMux
  simp only
  split
  · exact idle _ rfl
  · exact le_rfl

theorem proceeds_muxStep {a : Action} (other : a.serves = none) {b : Chute.Action}
    (moved : s.muxStep i b = some s') : Proceeds a s s' := by
  obtain ⟨reg, known, moved⟩ := Option.bind_eq_some_iff.mp moved
  obtain ⟨e, stepped, rfl⟩ := Option.map_eq_some_iff.mp moved
  exact proceeds_afterMux other known (Host.step_grows stepped)

theorem proceeds_visit (s : Server) (label : String) (sent : Bool) :
    Proceeds (.visit label sent) s (s.visit label sent) := by
  have calm := calm_selectAgentForVisitor s label
  unfold Server.visit
  cases selected : s.selectAgentForVisitor label with
  | mk agent t =>
    rw [selected] at calm
    cases agent with
    | none => exact calm.proceeds rfl
    | some agent =>
      obtain ⟨k, reg⟩ := agent
      obtain ⟨rfl, -, known, -⟩ := selectAgentForVisitor_some selected
      simp only
      split
      · exact (Calm.refl t).proceeds rfl
      next u acquired =>
        have known' : u.registration? k = some reg := by
          rw [tryAcquireVisitorBudget] at acquired
          split at acquired
          · cases acquired
          · cases acquired
            exact known
        have opened : Proceeds (.visit label sent) u (u.afterMux k reg ((u.host reg).openStream sent).host) := by
          refine proceeds_afterMux rfl known' ?_
          unfold Host.openStream
          simp only
          split
          · exact .refl _
          · exact ⟨le_rfl, le_rfl, le_rfl, le_rfl, le_rfl, Nat.le_succ _⟩
        have taken := calm_tryAcquireVisitorBudget acquired
        split
        · exact opened.between taken (.of_eq rfl rfl)
        · exact opened.between taken (calm_releaseVisitorBudget _ _)

/-! ### The steps -/

/-- **A step moves at most one connection, and lowers no counter.** -/
theorem step_proceeds {a : Action} (moved : s.step a = some s') : Proceeds a s s' := by
  cases a with
  | clock now monotonic =>
    cases moved
    have calm : Calm s { s with now := now, monotonic := monotonic } := .of_eq rfl rfl
    exact calm.proceeds rfl
  | admitTunnel admission requested scheme window =>
    obtain ⟨valid, -, rfl⟩ := Option.map_eq_some_iff.mp moved
    refine ⟨?_, le_rfl⟩
    simp only [courses, List.map_append, List.map_cons, List.map_nil, Connection.course, Option.map_none]
    exact .admitted _ _ _ _ rfl
  | claim i phrases =>
    obtain ⟨c, found, moved⟩ := Option.bind_eq_some_iff.mp moved
    split at moved
    next waiting =>
      cases moved
      exact proceeds_claim found waiting phrases
    · cases moved
  | check i =>
    obtain ⟨c, found, moved⟩ := Option.bind_eq_some_iff.mp moved
    split at moved
    next here =>
      cases moved
      refine proceeds_setPhase found ?_
      rw [Connection.course, here]
      split
      · exact .emits _
      · exact .stale _
    · cases moved
  | opened i result =>
    obtain ⟨c, found, moved⟩ := Option.bind_eq_some_iff.mp moved
    split at moved
    next opened here _ =>
      cases moved
      refine proceeds_setPhase found ?_
      rw [Connection.course, here]
      exact .opened opened _
    next here _ =>
      cases moved
      refine proceeds_setPhase found ?_
      rw [Connection.course, here]
      exact .refused _
    · cases moved
  | recheck i =>
    obtain ⟨c, found, moved⟩ := Option.bind_eq_some_iff.mp moved
    split at moved
    next opened here =>
      cases moved
      refine proceeds_setPhase found ?_
      rw [Connection.course, here]
      split
      · exact .readies opened _
      · exact .revoked opened _
    · cases moved
  | ready i sent =>
    obtain ⟨c, found, moved⟩ := Option.bind_eq_some_iff.mp moved
    split at moved
    next opened here =>
      cases moved
      refine proceeds_setPhase found ?_
      rw [Connection.course, here]
      cases sent with
      | true => exact .sent opened _
      | false => exact .unsent opened _
    · cases moved
  | drop i =>
    obtain ⟨c, found, moved⟩ := Option.bind_eq_some_iff.mp moved
    split at moved
    next opened why here =>
      cases moved
      have calm := calm_dropPendingIfCurrent s c.label i
      have there := calm.courses ▸ found_course.mpr ⟨c, found, here, rfl⟩
      exact (proceeds_turn there (.dropped opened why _)).between calm (.refl _)
    · cases moved
  | install i =>
    obtain ⟨c, found, moved⟩ := Option.bind_eq_some_iff.mp moved
    split at moved
    next opened here =>
      cases moved
      exact proceeds_install found here
    · cases moved
  | ended i =>
    obtain ⟨c, found, moved⟩ := Option.bind_eq_some_iff.mp moved
    split at moved
    next opened reg here registered =>
      split at moved
      · cases moved
      · cases moved
        refine proceeds_setPhase found ?_
        rw [Connection.course, here]
        exact .ended opened _
    · cases moved
  | renewalCancelled i =>
    obtain ⟨c, found, moved⟩ := Option.bind_eq_some_iff.mp moved
    split at moved <;> cases moved
    exact (calm_setRenewal s i .off).proceeds rfl
  | deregister i =>
    obtain ⟨c, found, moved⟩ := Option.bind_eq_some_iff.mp moved
    split at moved
    next opened here cancelled =>
      cases moved
      have calm := calm_deregisterIfCurrent s c.label i
      have there := calm.courses ▸ found_course.mpr ⟨c, found, here, rfl⟩
      exact (proceeds_turn there (.deregistered opened _)).between calm (.refl _)
    · cases moved
  | renewHead i =>
    obtain ⟨c, found, moved⟩ := Option.bind_eq_some_iff.mp moved
    split at moved
    · obtain ⟨reg, -, rfl⟩ := Option.map_eq_some_iff.mp moved
      exact (calm_renewHead s i c reg).proceeds rfl
    · cases moved
  | renewWake i =>
    obtain ⟨c, found, moved⟩ := Option.bind_eq_some_iff.mp moved
    split at moved
    · obtain ⟨reg, -, rfl⟩ := Option.map_eq_some_iff.mp moved
      exact (calm_renewWake s i c reg).proceeds rfl
    · cases moved
  | renewAcquired i acquired =>
    obtain ⟨c, found, moved⟩ := Option.bind_eq_some_iff.mp moved
    split at moved
    · split at moved
      · cases moved
        exact (calm_setRenewal s i .calling).proceeds rfl
      · cases moved
        have counted : Calm (s.setRenewal i .head) { s.setRenewal i .head with authBusy := s.authBusy + 1 } :=
          ⟨rfl, Nat.le_succ _, le_rfl, le_rfl, le_rfl, le_rfl, le_rfl, le_rfl, le_rfl, le_rfl⟩
        exact ((calm_setRenewal s i .head).trans counted).proceeds rfl
    · cases moved
  | renewResult i renewed =>
    obtain ⟨c, found, moved⟩ := Option.bind_eq_some_iff.mp moved
    split at moved
    · obtain ⟨reg, registered, rfl⟩ := Option.map_eq_some_iff.mp moved
      have known : s.registration? i = some reg := by simp [registration?, found, registered]
      exact (calm_renewResult known c renewed).proceeds rfl
    · cases moved
  | revokeLease leaseId action =>
    cases moved
    exact (calm_revokeLease s leaseId action).proceeds rfl
  | applyPolicyUpdate update =>
    cases moved
    exact (calm_applyPolicyUpdate s update).proceeds rfl
  | visit label sent =>
    cases moved
    exact proceeds_visit s label sent
  | visitorOpened v =>
    obtain ⟨visitor, -, moved⟩ := Option.bind_eq_some_iff.mp moved
    split at moved
    · obtain ⟨t, stepped, rfl⟩ := Option.map_eq_some_iff.mp moved
      exact (proceeds_muxStep rfl stepped).between (.refl s) (.of_eq rfl rfl)
    · cases moved
  | visitorFailed v =>
    obtain ⟨visitor, -, moved⟩ := Option.bind_eq_some_iff.mp moved
    split at moved
    · obtain ⟨t, stepped, gone⟩ := Option.bind_eq_some_iff.mp moved
      exact (proceeds_muxStep rfl stepped).between (.refl s) (calm_leave gone)
    · cases moved
  | visitorLeft v =>
    obtain ⟨visitor, -, moved⟩ := Option.bind_eq_some_iff.mp moved
    split at moved
    · exact (calm_leave moved).proceeds rfl
    · cases moved
  | throttle i n =>
    simp only [Server.step] at moved
    split at moved
    · obtain ⟨reg, -, rfl⟩ := Option.map_eq_some_iff.mp moved
      exact (calm_throttleAccountBytes s reg n).proceeds rfl
    · cases moved
  | mux i b =>
    simp only [Server.step] at moved
    split at moved
    · cases moved
    · exact proceeds_muxStep rfl moved

/-! ### One connection in a step -/

/-- Where a connection is. -/
def phase? (s : Server) (i : Nat) : Option Phase := (s.connections[i]?).map Connection.phase

theorem phase?_eq (s : Server) (i : Nat) : s.phase? i = (s.courses[i]?).map Prod.fst := by
  simp only [phase?, courses, List.getElem?_map, Option.map_map]
  rfl

/-- Of the steps of a `_serve_agent` call, only its own turn it. -/
theorem Turns.own {a : Action} {l l' : List (Phase × Option Mux)} (turns : Turns a l l')
    (serves : a.serves = some i) :
    ∃ p m q m', l[i]? = some (p, m) ∧ l' = l.set i (q, m') ∧ Turn i a (p, m) (q, m') := by
  cases turns with
  | stay other => cases serves.symm.trans other
  | admitted _ _ _ _ here =>
    subst here
    cases serves
  | one j c c' found turn =>
    have same : i = j := by cases turn <;> simp_all [Action.serves]
    subst same
    exact ⟨c.1, c.2, c'.1, c'.2, found, rfl, turn⟩

/-- Other steps move no connection, but may bring one. -/
theorem Turns.others {a : Action} {l l' : List (Phase × Option Mux)} (turns : Turns a l l')
    (other : a.serves = none) (j : Nat) :
    (l'[j]?).map Prod.fst = (l[j]?).map Prod.fst ∨ l[j]? = none ∧ l'[j]? = some (.admitted, none) := by
  cases turns with
  | stay => exact Or.inl rfl
  | admitted =>
    rw [List.getElem?_append]
    split
    · exact Or.inl rfl
    next short =>
      have beyond : l[j]? = none := List.getElem?_eq_none (not_lt.mp short)
      rcases Nat.eq_zero_or_pos (j - l.length) with first | later
      · exact Or.inr ⟨beyond, by rw [first]; rfl⟩
      · rw [beyond, List.getElem?_eq_none (by simp only [List.length_singleton]; omega)]
        exact Or.inl rfl
  | one i c c' found turn =>
    refine Or.inl ?_
    have phase : c'.1 = c.1 := by
      cases turn with
      | carried => rfl
      | _ => cases other
    rw [List.getElem?_set]
    split
    next here =>
      subst here
      rw [if_pos (List.getElem?_eq_some_iff.mp found).1, found]
      exact congrArg some phase
    · rfl

/-- Where a connection is after a step: where it was, or it has come, or it has taken the step. -/
theorem step_phase {a : Action} (moved : s.step a = some s') (i : Nat) :
    s'.phase? i = s.phase? i ∨ s.phase? i = none ∧ s'.phase? i = some .admitted ∨
      ∃ p m q m', a.serves = some i ∧ s.phase? i = some p ∧ s'.phase? i = some q ∧
        Turn i a (p, m) (q, m') := by
  have turns := (step_proceeds moved).turns
  simp only [phase?_eq]
  cases serves : a.serves with
  | none =>
    rcases turns.others serves i with same | ⟨absent, new⟩
    · exact Or.inl same
    · exact Or.inr (Or.inl ⟨by rw [absent]; rfl, by rw [new]; rfl⟩)
  | some j =>
    obtain ⟨p, m, q, m', found, after, turn⟩ := turns.own serves
    rw [after]
    by_cases here : j = i
    · subst here
      have short := (List.getElem?_eq_some_iff.mp found).1
      exact Or.inr (Or.inr ⟨p, m, q, m', rfl, by rw [found]; rfl, by simp [short], turn⟩)
    · exact Or.inl (by rw [List.getElem?_set_ne here])

/-- A connection that waits for its claim has no registration. -/
def Fresh (s : Server) : Prop := ∀ (i : Nat) m, s.courses[i]? = some (.admitted, m) → m = none

theorem fresh_start (config : ServerConfig) (now monotonic : ℚ) : (start config now monotonic).Fresh := by
  intro i m found
  simp [courses, start] at found

/-- A connection with a registration has had its claim. -/
theorem Fresh.claimed (fresh : s.Fresh) {c : Connection} {reg : TunnelRegistration}
    (found : s.connections[i]? = some c) (registered : c.registration = some reg) : c.phase ≠ .admitted := by
  intro waiting
  have here : s.courses[i]? = some (.admitted, some reg.mux) := by
    simp [courses, found, Connection.course, waiting, registered]
  cases fresh i _ here

/-- What a step makes of a registration, whoever takes it. -/
theorem Turns.course {a : Action} {l l' : List (Phase × Option Mux)} (turns : Turns a l l') {j : Nat}
    {p : Phase} {m : Option Mux} (found : l[j]? = some (p, m)) :
    l'[j]? = some (p, m) ∨ ∃ q m', l'[j]? = some (q, m') ∧ Turn j a (p, m) (q, m') := by
  cases turns with
  | stay => exact Or.inl found
  | admitted => exact Or.inl (by rw [List.getElem?_append_left (List.getElem?_eq_some_iff.mp found).1, found])
  | one i c c' there turn =>
    by_cases here : i = j
    · subst here
      rw [found] at there
      cases there
      exact Or.inr ⟨c'.1, c'.2, by simp [(List.getElem?_eq_some_iff.mp found).1], turn⟩
    · exact Or.inl (by rw [List.getElem?_set_ne here, found])

theorem Fresh.step (fresh : s.Fresh) {a : Action} (moved : s.step a = some s') : s'.Fresh := by
  intro i m found
  have turns := (step_proceeds moved).turns
  cases before : s.courses[i]? with
  | none =>
    cases serves : a.serves with
    | none =>
      rcases turns.others serves i with same | ⟨-, new⟩
      · simp [before, found] at same
      · rw [found] at new
        cases new
        rfl
    | some j =>
      obtain ⟨p, m', q, m'', there, same, -⟩ := turns.own serves
      have short := (List.getElem?_eq_some_iff.mp found).1
      rw [same, List.length_set] at short
      exact absurd before (by simp [short])
  | some c =>
    obtain ⟨p, old⟩ := c
    rcases turns.course before with same | ⟨q, m', after, turn⟩
    · rw [found] at same
      cases same
      exact fresh i m before
    · rw [found] at after
      cases after
      cases turn with
      | carried _ _ other grows => cases fresh i _ before

/-- A registration stays with its connection, and its counters only grow. -/
theorem Fresh.grows (fresh : s.Fresh) {a : Action} (moved : s.step a = some s') {p : Phase} {m : Mux}
    (found : s.courses[i]? = some (p, some m)) :
    ∃ q m', s'.courses[i]? = some (q, some m') ∧ m.Grows m' := by
  rcases (step_proceeds moved).turns.course found with same | ⟨q, m', after, turn⟩
  · exact ⟨p, m, same, .refl m⟩
  · cases turn with
    | claimed => cases fresh i _ found
    | carried _ _ other grows => exact ⟨_, _, after, grows⟩
    | _ => exact ⟨_, _, after, .refl m⟩

end Server

end Chute
