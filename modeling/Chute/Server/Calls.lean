import Chute.Lib.Tally
import Chute.Server.Coherence
import Chute.Server.Tasks

/-!
# The calls of the renewal tasks

Which renewal tasks are in `renew_lease`. A call begins with the slot it waited for; it ends with
an answer, or when the task is cancelled. No other step begins or ends one.
-/
namespace Chute
namespace Server

variable {s s' : Server} {i : Nat}

/-- Where the `_serve_agent` call of a connection is, and where its renewal task is. -/
def Connection.work (c : Connection) : Phase × RenewalPhase := (c.phase, c.renewal)

def works (s : Server) : List (Phase × RenewalPhase) := s.connections.map Connection.work

/-- How many renewal tasks are in `renew_lease`. -/
def calls (s : Server) : Nat := s.works.countP fun work => work.2 == .calling

/-- The renewal task of the connection is in `renew_lease`. -/
def renewing (s : Server) (i : Nat) : Bool := (s.connections[i]?).any fun c => c.renewal == .calling

/-- The calls that end with a step. -/
def Action.gives (s : Server) : Action → Nat
  | .renewResult _ _ => 1
  | .renewalCancelled i => (s.renewing i).toNat
  | _ => 0

/-- The calls that begin with a step. -/
def Action.takes : Action → Nat
  | .renewAcquired _ true => 1
  | _ => 0

def Phase.ran : Phase → Bool
  | .running _ | .closing _ => true
  | _ => false

/-- What a step does to where the tasks are. -/
inductive Works (before : List (Phase × RenewalPhase)) : Nat → Nat → List (Phase × RenewalPhase) → Prop
  | still : Works before 0 0 before
  | enters : Works before 0 0 (before ++ [(.admitted, .off)])
  | phase (i : Nat) (p q : Phase) (r : RenewalPhase) (found : before[i]? = some (p, r))
      (fits : p.ran = true → q.ran = true ∨ r = .off) : Works before 0 0 (before.set i (q, r))
  | renewal (i : Nat) (p : Phase) (r next : RenewalPhase) (found : before[i]? = some (p, r))
      (fits : next = .off ∨ r ≠ .off) :
      Works before (r == .calling).toNat (next == .calling).toNat (before.set i (p, next))
  | installs (i : Nat) (opened : Bool) (r next : RenewalPhase) (found : before[i]? = some (.readied opened, r))
      (quiet : next ≠ .calling) : Works before 0 0 (before.set i (.running opened, next))

/-! ### The parts of a step -/

theorem works_undisturbed (undisturbed : Undisturbed (fun _ => False) s s') : s'.works = s.works := by
  apply List.ext_getElem?
  intro j
  have same := undisturbed.connections j id
  unfold works
  rw [List.getElem?_map, List.getElem?_map]
  cases found : s.connections[j]? with
  | none =>
    rw [found] at same
    rw [Option.map_eq_none_iff.mp same]
  | some c =>
    rw [found] at same
    obtain ⟨c', found', kept⟩ := Option.map_eq_some_iff.mp same
    obtain ⟨phase, -, renewal, -⟩ := Connection.kept_eq kept
    rw [found', Option.map_some, Option.map_some, Connection.work, Connection.work, phase, renewal]

theorem works_modifyConnection {c : Connection} (found : s.connections[i]? = some c)
    (f : Connection → Connection) : (s.modifyConnection i f).works = s.works.set i (f c).work := by
  apply List.ext_getElem?
  intro j
  simp only [works, modifyConnection, List.getElem?_map, List.getElem?_modify, List.getElem?_set,
    List.length_map]
  by_cases here : i = j
  · subst here
    obtain ⟨short, value⟩ := List.getElem?_eq_some_iff.mp found
    simp [short, value]
  · simp [here]

theorem works_found {c : Connection} (found : s.connections[i]? = some c) : s.works[i]? = some c.work := by
  rw [works, List.getElem?_map, found, Option.map_some]

/-- The connection is still there where the others have done something. -/
theorem found_of_works {c : Connection} (same : s'.works = s.works) (found : s.connections[i]? = some c) :
    ∃ c', s'.connections[i]? = some c' ∧ c'.work = c.work := by
  have here := works_found found
  rw [← same, works, List.getElem?_map] at here
  exact Option.map_eq_some_iff.mp here

theorem works_setPhase {c : Connection} (same : s'.works = s.works) (found : s.connections[i]? = some c)
    (q : Phase) : (s'.setPhase i q).works = s.works.set i (q, c.renewal) := by
  obtain ⟨c', found', work⟩ := found_of_works same found
  have renewal : c'.renewal = c.renewal := congrArg Prod.snd work
  rw [setPhase, works_modifyConnection found', same]
  exact congrArg (fun r => s.works.set i (q, r)) renewal

theorem works_setRenewal {c : Connection} (same : s'.works = s.works) (found : s.connections[i]? = some c)
    (r : RenewalPhase) : (s'.setRenewal i r).works = s.works.set i (c.phase, r) := by
  obtain ⟨c', found', work⟩ := found_of_works same found
  have phase : c'.phase = c.phase := congrArg Prod.fst work
  rw [setRenewal, works_modifyConnection found', same]
  exact congrArg (fun p => s.works.set i (p, r)) phase

/-- The registration was retired along the way. -/
theorem works_retire (s : Server) (label : String) (i : Nat) (reason : RetireReason) (timeout : ℚ) :
    (s.retireRegistration label i reason timeout).works = s.works :=
  works_undisturbed (undisturbed_retireRegistration s label i reason timeout)

theorem works_modifyRegistration (s : Server) (i : Nat) (f : TunnelRegistration → TunnelRegistration) :
    (s.modifyRegistration i f).works = s.works :=
  map_modifyConnection Connection.work fun _ _ => rfl

theorem renewing_eq {c : Connection} (found : s.connections[i]? = some c) :
    s.renewing i = (c.renewal == .calling) := by
  rw [renewing, found, Option.any_some]

section Turns

variable {c : Connection} {reg : TunnelRegistration} (found : s.connections[i]? = some c)
include found

theorem renewHead_works (reg : TunnelRegistration) :
    ∃ r, r ≠ .calling ∧ (s.renewHead i c reg).works = s.works.set i (c.phase, r) := by
  unfold renewHead
  split
  · exact ⟨.off, by simp, works_setRenewal rfl found _⟩
  · split
    · exact ⟨.off, by simp, works_setRenewal rfl found _⟩
    · split
      · exact ⟨.off, by simp, works_setRenewal (works_retire s c.label i _ _) found _⟩
      · exact ⟨_, by simp, works_setRenewal rfl found _⟩

theorem renewWake_works (reg : TunnelRegistration) :
    ∃ r, r ≠ .calling ∧ (s.renewWake i c reg).works = s.works.set i (c.phase, r) := by
  unfold renewWake
  split
  · exact ⟨.off, by simp, works_setRenewal rfl found _⟩
  · split
    · exact ⟨.off, by simp, works_setRenewal (works_retire s c.label i _ _) found _⟩
    · split
      · exact ⟨.off, by simp, works_setRenewal rfl found _⟩
      · exact ⟨.acquiring, by simp, works_setRenewal rfl found _⟩

theorem renewResult_works (reg : TunnelRegistration) (renewed : Option PyObject) :
    ∃ r, r ≠ .calling ∧ (s.renewResult i c reg renewed).works = s.works.set i (c.phase, r) := by
  unfold renewResult
  split
  · exact ⟨.head, by simp, works_setRenewal rfl found _⟩
  · split
    · exact ⟨.off, by simp, works_setRenewal rfl found _⟩
    · split
      · refine ⟨.off, by simp, works_setRenewal ?_ found _⟩
        exact works_retire _ c.label i _ _
      · split
        · exact ⟨.head, by simp, works_setRenewal rfl found _⟩
        · dsimp only
          split
          · refine ⟨.off, by simp, works_setRenewal ?_ found _⟩
            exact (works_retire _ c.label i _ _).trans (works_modifyRegistration s i _)
          · exact ⟨.head, by simp, works_setRenewal (works_modifyRegistration s i _) found _⟩

theorem claim_works (phrases : Fin 100 → String) :
    ∃ q, (s.claim i c phrases).works = s.works.set i (q, c.renewal) := by
  obtain ⟨reconnects, ⟨r, -, same⟩ | ⟨label, url, -, same⟩⟩ := claim_cases s i c phrases
  · exact ⟨_, by rw [same]; exact works_setPhase rfl found _⟩
  · refine ⟨.claimed, ?_⟩
    rw [same]
    exact works_modifyConnection found _

theorem install_works (opened : Bool) :
    (s.install i c opened).works = s.works ∨
      (∃ r, r ≠ .calling ∧ (s.install i c opened).works = s.works.set i (.running opened, r)) ∨
        (s.install i c opened).works = s.works.set i (.over_ opened .superseded, c.renewal) := by
  unfold install
  split
  · exact .inl rfl
  next reg known =>
    split
    · right
      left
      have dropped : Undisturbed (fun _ => False) s { s with
          pendingLeaseLabels := unindexLeaseLabel s.pendingLeaseLabels c.label reg
          pendingAgents := s.pendingAgents.erase c.label } := .of_eq rfl rfl rfl rfl
      simp only
      generalize { s with
        pendingLeaseLabels := unindexLeaseLabel s.pendingLeaseLabels c.label reg
        pendingAgents := s.pendingAgents.erase c.label } = t at dropped ⊢
      have same : ((t.modifyRegistration i fun reg => { reg with acceptingVisitors := true }).installRegistration
          c.label i { reg with acceptingVisitors := true }).works = s.works := by
        rw [works_undisturbed (undisturbed_installRegistration _ _ _ _), works_modifyRegistration,
          works_undisturbed dropped]
      generalize (t.modifyRegistration i fun reg => { reg with acceptingVisitors := true }).installRegistration
        c.label i { reg with acceptingVisitors := true } = u at same ⊢
      have turned : ∀ r, ((u.setPhase i (.running opened)).setRenewal i r).works =
          s.works.set i (.running opened, r) := by
        intro r
        obtain ⟨c', found', -⟩ := found_of_works same found
        have entered : (u.setPhase i (.running opened)).connections[i]? =
            some { c' with phase := .running opened } := connection_modifyConnection found' _
        rw [works_setRenewal rfl entered, works_setPhase same found, List.set_set]
      refine ⟨if reg.leaseExpiresAt.isSome then .head else .off, by split <;> simp, ?_⟩
      split
      · exact turned _
      · exact turned _
    · exact .inr (.inr (works_setPhase rfl found _))

end Turns

/-! ### The steps -/

/-- What every step does to the tasks, and which calls it begins and ends. -/
theorem step_works {a : Action} (moved : s.step a = some s') : Works s.works (a.gives s) a.takes s'.works := by
  have elsewhere : (∀ now monotonic, a ≠ .clock now monotonic) → (∀ j, ¬ a.Touches s j) →
      a.gives s = 0 → a.takes = 0 → Works s.works (a.gives s) a.takes s'.works := by
    intro timeless apart gives takes
    rw [gives, takes, works_undisturbed ((step_undisturbed moved timeless).mono apart)]
    exact .still
  cases a with
  | clock now monotonic =>
    cases moved
    exact .still
  | admitTunnel admission requested scheme window =>
    obtain ⟨valid, -, rfl⟩ := Option.map_eq_some_iff.mp moved
    have grown : ({ s with connections := s.connections ++ [⟨requested, scheme, valid, window, .admitted, "",
        none, .off⟩] } : Server).works = s.works ++ [(.admitted, .off)] := by
      simp [works, Connection.work]
    rw [grown]
    exact .enters
  | claim i phrases =>
    obtain ⟨c, found, moved⟩ := Option.bind_eq_some_iff.mp moved
    split at moved <;> cases moved
    next waiting =>
      obtain ⟨q, same⟩ := claim_works found phrases
      rw [same]
      exact .phase i c.phase q c.renewal (works_found found) (by simp [waiting, Phase.ran])
  | check i | recheck i | ready i =>
    obtain ⟨c, found, moved⟩ := Option.bind_eq_some_iff.mp moved
    split at moved <;> cases moved
    next here =>
      rw [works_setPhase rfl found]
      exact .phase i c.phase _ c.renewal (works_found found) (by simp [here, Phase.ran])
  | opened i result =>
    obtain ⟨c, found, moved⟩ := Option.bind_eq_some_iff.mp moved
    split at moved
    next here _ =>
      cases moved
      rw [works_setPhase rfl found]
      exact .phase i c.phase _ c.renewal (works_found found) (by simp [here, Phase.ran])
    next here _ =>
      cases moved
      rw [works_setPhase rfl found]
      exact .phase i c.phase _ c.renewal (works_found found) (by simp [here, Phase.ran])
    · cases moved
  | drop i =>
    obtain ⟨c, found, moved⟩ := Option.bind_eq_some_iff.mp moved
    split at moved <;> cases moved
    next here =>
      rw [works_setPhase (works_undisturbed (undisturbed_dropPendingIfCurrent s c.label i)) found]
      exact .phase i c.phase _ c.renewal (works_found found) (by simp [here, Phase.ran])
  | install i =>
    obtain ⟨c, found, moved⟩ := Option.bind_eq_some_iff.mp moved
    split at moved <;> cases moved
    next opened here =>
      have known : s.works[i]? = some (.readied opened, c.renewal) := here ▸ works_found found
      rcases install_works found opened with same | ⟨r, quiet, same⟩ | same
      · rw [same]
        exact .still
      · rw [same]
        exact .installs i opened c.renewal r known quiet
      · rw [same]
        exact .phase i (.readied opened) _ c.renewal known (by simp [Phase.ran])
  | ended i =>
    obtain ⟨c, found, moved⟩ := Option.bind_eq_some_iff.mp moved
    split at moved
    · split at moved <;> cases moved
      rw [works_setPhase rfl found]
      exact .phase i c.phase _ c.renewal (works_found found) fun _ => .inl rfl
    · cases moved
  | renewalCancelled i =>
    obtain ⟨c, found, moved⟩ := Option.bind_eq_some_iff.mp moved
    split at moved <;> cases moved
    rw [works_setRenewal rfl found, Action.gives, renewing_eq found]
    exact .renewal i c.phase c.renewal .off (works_found found) (.inl rfl)
  | deregister i =>
    obtain ⟨c, found, moved⟩ := Option.bind_eq_some_iff.mp moved
    split at moved <;> cases moved
    next off =>
      rw [works_setPhase (works_undisturbed (undisturbed_deregisterIfCurrent s c.label i)) found]
      exact .phase i c.phase _ c.renewal (works_found found) fun _ => .inr off
  | renewHead i =>
    obtain ⟨c, found, moved⟩ := Option.bind_eq_some_iff.mp moved
    split at moved
    next here =>
      obtain ⟨reg, -, rfl⟩ := Option.map_eq_some_iff.mp moved
      obtain ⟨r, quiet, same⟩ := renewHead_works found reg
      have turned := Works.renewal i c.phase c.renewal r (works_found found) (.inr (by simp [here]))
      rw [here, beq_eq_false_iff_ne.mpr quiet] at turned
      rw [same]
      exact turned
    · cases moved
  | renewWake i =>
    obtain ⟨c, found, moved⟩ := Option.bind_eq_some_iff.mp moved
    split at moved
    next till here =>
      obtain ⟨reg, -, rfl⟩ := Option.map_eq_some_iff.mp moved
      obtain ⟨r, quiet, same⟩ := renewWake_works found reg
      have turned := Works.renewal i c.phase c.renewal r (works_found found) (.inr (by simp [here]))
      have awake : (RenewalPhase.sleeping till == .calling) = false := beq_eq_false_iff_ne.mpr (by simp)
      rw [here, awake, beq_eq_false_iff_ne.mpr quiet] at turned
      rw [same]
      exact turned
    · cases moved
  | renewAcquired i acquired =>
    obtain ⟨c, found, moved⟩ := Option.bind_eq_some_iff.mp moved
    split at moved
    next here =>
      have turned := fun r => Works.renewal i c.phase c.renewal r (works_found found) (.inr (by simp [here]))
      rw [here] at turned
      cases acquired with
      | true =>
        cases moved
        rw [works_setRenewal rfl found]
        exact turned .calling
      | false =>
        cases moved
        have same := works_setRenewal rfl found .head
        rw [show ({ s.setRenewal i .head with authBusy := s.authBusy + 1 } : Server).works = _ from same]
        exact turned .head
    · cases moved
  | renewResult i renewed =>
    obtain ⟨c, found, moved⟩ := Option.bind_eq_some_iff.mp moved
    split at moved
    next here =>
      obtain ⟨reg, -, rfl⟩ := Option.map_eq_some_iff.mp moved
      obtain ⟨r, quiet, same⟩ := renewResult_works found reg renewed
      have turned := Works.renewal i c.phase c.renewal r (works_found found) (.inr (by simp [here]))
      rw [here, beq_eq_false_iff_ne.mpr quiet] at turned
      rw [same]
      exact turned
    · cases moved
  | revokeLease | applyPolicyUpdate | visit | visitorOpened | visitorFailed | visitorLeft | throttle | mux =>
    apply elsewhere
    · simp
    · rintro j (task | ⟨⟨_, _, _, _, same⟩, -⟩)
      · cases task
      · cases same
    · rfl
    · rfl

/-- Only a connection that runs, or that is closing, has a renewal task. -/
def TasksRan (s : Server) : Prop := ∀ work ∈ s.works, work.2 ≠ .off → work.1.ran = true

theorem tasksRan_start (config : ServerConfig) (now monotonic : ℚ) : (start config now monotonic).TasksRan := by
  simp [TasksRan, works, start]

theorem TasksRan.step (ran : s.TasksRan) {a : Action} (moved : s.step a = some s') : s'.TasksRan := by
  have turned := step_works moved
  unfold TasksRan at ran ⊢
  generalize a.gives s = gave at turned
  generalize a.takes = took at turned
  generalize s'.works = after at turned ⊢
  generalize s.works = before at turned ran
  cases turned with
  | still => exact ran
  | enters =>
    intro work member active
    rcases List.mem_append.mp member with old | new
    · exact ran work old active
    · cases List.mem_singleton.mp new
      exact absurd rfl active
  | phase i p q r found fits =>
    intro work member active
    rcases List.mem_or_eq_of_mem_set member with old | rfl
    · exact ran work old active
    · have before := ran _ (List.mem_of_getElem? found) active
      exact (fits before).resolve_right active
  | renewal i p r next found fits =>
    intro work member active
    rcases List.mem_or_eq_of_mem_set member with old | rfl
    · exact ran work old active
    · exact ran (p, r) (List.mem_of_getElem? found) (fits.resolve_left active)
  | installs i opened r next found silent =>
    intro work member active
    rcases List.mem_or_eq_of_mem_set member with old | rfl
    · exact ran work old active
    · rfl

private theorem countP_set {tasks : List (Phase × RenewalPhase)} {i : Nat} {work : Phase × RenewalPhase}
    (found : tasks[i]? = some work) (next : Phase × RenewalPhase) :
    (tasks.set i next).countP (fun work => work.2 == .calling) + (work.2 == .calling).toNat =
      tasks.countP (fun work => work.2 == .calling) + (next.2 == .calling).toNat := by
  have counted := Tally.countP_modify (fun work : Phase × RenewalPhase => work.2 == .calling)
    (fun _ => next) found
  rwa [← List.set_eq_modify] at counted

/-- Each call that ends had begun. -/
theorem calls_step (ran : s.TasksRan) {a : Action} (moved : s.step a = some s') :
    s'.calls + a.gives s = s.calls + a.takes := by
  have turned := step_works moved
  unfold TasksRan at ran
  unfold calls
  generalize a.gives s = gave at turned ⊢
  generalize a.takes = took at turned ⊢
  generalize s'.works = after at turned ⊢
  generalize s.works = before at turned ran ⊢
  cases turned with
  | still => rfl
  | enters => simp
  | phase i p q r found fits =>
    have counted := countP_set found (q, r)
    simp only at counted
    omega
  | renewal i p r next found fits => exact countP_set found (p, next)
  | installs i opened r next found silent =>
    have off : r = .off := by
      by_contra active
      have before := ran _ (List.mem_of_getElem? found) active
      cases before
    have counted := countP_set found (.running opened, next)
    simp only [off, beq_eq_false_iff_ne.mpr silent] at counted
    exact counted

end Server

end Chute
