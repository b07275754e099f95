import Chute.Lib.Tally
import Chute.Server.Keeps

/-!
# Visitor slots

A visitor takes a slot of its account when it is admitted and gives it back when it leaves,
whatever has become of its tunnel by then. So the counter of an account is the number of
its visitors that have not left.
-/
namespace Chute

namespace Server

variable {s s' : Server} {i : Nat}

/-! ### Only visitors change the slots -/

/-- The visitors and the counters of their accounts. -/
def slots (s : Server) : List Visitor × AList fun _ : String => Nat :=
  (s.visitors, s.accountActiveVisitors)

theorem slots_foldl {α : Type} {f : Server → α → Server} (each : ∀ s a, (f s a).slots = s.slots)
    (list : List α) (s : Server) : (list.foldl f s).slots = s.slots := by
  induction list generalizing s with
  | nil => rfl
  | cons a rest ih => exact (ih _).trans (each s a)

@[simp] theorem slots_modifyConnection (s : Server) (i : Nat) (f : Connection → Connection) :
    (s.modifyConnection i f).slots = s.slots := rfl

@[simp] theorem slots_modifyRegistration (s : Server) (i : Nat)
    (f : TunnelRegistration → TunnelRegistration) : (s.modifyRegistration i f).slots = s.slots := rfl

@[simp] theorem slots_setPhase (s : Server) (i : Nat) (phase : Phase) :
    (s.setPhase i phase).slots = s.slots := rfl

@[simp] theorem slots_setRenewal (s : Server) (i : Nat) (renewal : RenewalPhase) :
    (s.setRenewal i renewal).slots = s.slots := rfl

@[simp] theorem slots_dropAccountBandwidthIfIdle (s : Server) (accountId : String) :
    (s.dropAccountBandwidthIfIdle accountId).slots = s.slots := by
  unfold dropAccountBandwidthIfIdle
  split <;> rfl

@[simp] theorem slots_deregisterIfCurrent (s : Server) (label : String) (i : Nat) :
    (s.deregisterIfCurrent label i).slots = s.slots := by
  unfold deregisterIfCurrent
  split
  · split
    · exact slots_dropAccountBandwidthIfIdle _ _
    · rfl
  · rfl

@[simp] theorem slots_dropPendingIfCurrent (s : Server) (label : String) (i : Nat) :
    (s.dropPendingIfCurrent label i).slots = s.slots := by
  unfold dropPendingIfCurrent
  split
  · split <;> rfl
  · rfl

@[simp] theorem slots_installRegistration (s : Server) (label : String) (i : Nat)
    (reg : TunnelRegistration) : (s.installRegistration label i reg).slots = s.slots := by
  have unindexed : (s.unindexPrevious label reg).slots = s.slots := by
    unfold unindexPrevious
    split
    · rfl
    · simp only
      split
      · rfl
      · exact slots_dropAccountBandwidthIfIdle _ _
  exact unindexed

@[simp] theorem slots_retireRegistration (s : Server) (label : String) (i : Nat) (reason : RetireReason)
    (timeout : ℚ) : (s.retireRegistration label i reason timeout).slots = s.slots := by
  unfold retireRegistration
  split
  · have removed := slots_deregisterIfCurrent
      (s.modifyRegistration i fun reg => { reg with acceptingVisitors := false }) label i
    cases reason <;> exact removed
  · rfl

@[simp] theorem slots_retirePending (s : Server) (revoked : Nat) (candidates : List (String × Nat)) :
    (s.retirePending revoked candidates).2.slots = s.slots := by
  induction candidates generalizing s revoked with
  | nil => rfl
  | cons e rest ih =>
    obtain ⟨label, i⟩ := e
    have first : (s.retirePendingRegistration label i).2.slots = s.slots := by
      unfold retirePendingRegistration
      split
      · exact slots_dropPendingIfCurrent
          (s.modifyRegistration i fun reg => { reg with acceptingVisitors := false }) label i
      · rfl
    rw [retirePending.eq_def]
    cases ended : s.retirePendingRegistration label i with
    | mk dropped t =>
      rw [ended] at first
      simp only [ended]
      cases dropped with
      | true => exact (ih t _).trans first
      | false => exact (ih t _).trans first

@[simp] theorem slots_revokeLease (s : Server) (leaseId : String) (action : RevocationAction) :
    (s.revokeLease leaseId action).2.slots = s.slots := by
  unfold revokeLease
  split
  · rfl
  · cases s.registrationsForLeaseIndex leaseId s.leaseLabels s.agents with
    | mk candidates leaseLabels =>
      simp only
      have retired := slots_foldl (fun t (e : String × Nat) => slots_retireRegistration t e.1 e.2
        .leaseRevoked (RevocationAction.drainTimeout action)) candidates
        { s with leaseLabels := leaseLabels }
      generalize candidates.foldl _ _ = t at retired ⊢
      cases t.registrationsForLeaseIndex leaseId t.pendingLeaseLabels t.pendingAgents with
      | mk pending pendingLeaseLabels => exact (slots_retirePending _ _ _).trans retired

@[simp] theorem slots_setAccountBudget (s : Server) (accountId : String) (budget : Budget) :
    (s.setAccountBudget accountId budget).slots = s.slots := by
  unfold setAccountBudget
  split
  · refine (slots_foldl (fun t label => ?_) _ _).trans rfl
    split <;> rfl
  · rfl

@[simp] theorem slots_applyPolicyUpdate (s : Server) (update : PyObject) :
    (s.applyPolicyUpdate update).2.slots = s.slots := by
  unfold applyPolicyUpdate
  split
  · rfl
  next u valid =>
    have revoked := slots_foldl (fun s (r : String × RevocationAction) => slots_revokeLease s r.1 r.2)
      u.revocations s
    exact (slots_foldl (fun s (b : String × Budget) => slots_setAccountBudget s b.1 b.2)
      u.accountBudgets _).trans revoked

@[simp] theorem slots_claim (s : Server) (i : Nat) (c : Connection) (phrases : Fin 100 → String) :
    (s.claim i c phrases).slots = s.slots := by
  obtain ⟨reconnects, ⟨r, -, same⟩ | ⟨label, url, -, same⟩⟩ := claim_cases s i c phrases
  · rw [same]
    rfl
  · rw [same]
    rfl

@[simp] theorem slots_install (s : Server) (i : Nat) (c : Connection) (opened : Bool) :
    (s.install i c opened).slots = s.slots := by
  unfold install
  split
  · rfl
  · split
    · simp only
      split
      · exact slots_installRegistration _ c.label i _
      · exact slots_installRegistration _ c.label i _
    · rfl

@[simp] theorem slots_renewHead (s : Server) (i : Nat) (c : Connection) (reg : TunnelRegistration) :
    (s.renewHead i c reg).slots = s.slots := by
  unfold renewHead
  split
  · rfl
  · split
    · rfl
    · split
      · exact slots_retireRegistration s c.label i _ _
      · rfl

@[simp] theorem slots_renewWake (s : Server) (i : Nat) (c : Connection) (reg : TunnelRegistration) :
    (s.renewWake i c reg).slots = s.slots := by
  unfold renewWake
  split
  · rfl
  · split
    · exact slots_retireRegistration s c.label i _ _
    · split <;> rfl

@[simp] theorem slots_renewResult (s : Server) (i : Nat) (c : Connection) (reg : TunnelRegistration)
    (renewed : Option PyObject) : (s.renewResult i c reg renewed).slots = s.slots := by
  unfold renewResult
  split
  · rfl
  · split
    · rfl
    · split
      · exact slots_retireRegistration _ c.label i _ _
      · split
        · rfl
        · simp only
          split
          · exact slots_retireRegistration _ c.label i _ _
          · rfl

@[simp] theorem slots_afterMux (s : Server) (i : Nat) (reg : TunnelRegistration) (h : Host) :
    (s.afterMux i reg h).slots = s.slots := by
  unfold afterMux
  simp only
  split
  · exact slots_dropAccountBandwidthIfIdle _ _
  · rfl

@[simp] theorem slots_throttleAccountBytes (s : Server) (reg : TunnelRegistration) (n : Nat) :
    (s.throttleAccountBytes reg n).2.slots = s.slots := by
  have swept : ∀ t : Server, t.sweepIdleBandwidth.slots = t.slots := fun t =>
    slots_foldl slots_dropAccountBandwidthIfIdle _ t
  unfold throttleAccountBytes
  split
  · rfl
  · split
    · rfl
    · split
      · rfl
      · split
        · rfl
        · simp only
          have first : (if bandwidthMaxAccounts ≤ s.accountBandwidth.keys.length then
              s.sweepIdleBandwidth else s).slots = s.slots := by
            split
            · exact swept s
            · rfl
          generalize (if bandwidthMaxAccounts ≤ s.accountBandwidth.keys.length then
            s.sweepIdleBandwidth else s) = t at first
          split
          · exact first
          · exact first

theorem slots_muxStep {a : Chute.Action} (moved : s.muxStep i a = some s') : s'.slots = s.slots := by
  obtain ⟨reg, -, moved⟩ := Option.bind_eq_some_iff.mp moved
  obtain ⟨e, -, rfl⟩ := Option.map_eq_some_iff.mp moved
  exact slots_afterMux s i reg e.host

/-- The step is one of a visitor's connection. -/
def Action.visits : Action → Bool
  | .visit _ _ => true
  | .visitorOpened _ => true
  | .visitorFailed _ => true
  | .visitorLeft _ => true
  | _ => false

/-- Steps of all others leave the slots alone. -/
theorem slots_step {a : Action} (moved : s.step a = some s') (other : a.visits = false) :
    s'.slots = s.slots := by
  cases a with
  | clock now monotonic =>
    cases moved
    rfl
  | admitTunnel admission requested scheme window =>
    obtain ⟨valid, -, rfl⟩ := Option.map_eq_some_iff.mp moved
    rfl
  | claim i phrases =>
    obtain ⟨c, -, moved⟩ := Option.bind_eq_some_iff.mp moved
    split at moved <;> cases moved
    exact slots_claim s i c phrases
  | check i | recheck i | ready i | renewalCancelled i =>
    obtain ⟨c, -, moved⟩ := Option.bind_eq_some_iff.mp moved
    split at moved <;> cases moved
    rfl
  | opened i result =>
    obtain ⟨c, -, moved⟩ := Option.bind_eq_some_iff.mp moved
    split at moved
    · cases moved
      rfl
    · cases moved
      rfl
    · cases moved
  | drop i =>
    obtain ⟨c, -, moved⟩ := Option.bind_eq_some_iff.mp moved
    split at moved <;> cases moved
    exact slots_dropPendingIfCurrent s c.label i
  | install i =>
    obtain ⟨c, -, moved⟩ := Option.bind_eq_some_iff.mp moved
    split at moved <;> cases moved
    exact slots_install s i c _
  | ended i =>
    obtain ⟨c, -, moved⟩ := Option.bind_eq_some_iff.mp moved
    split at moved
    · split at moved <;> cases moved
      rfl
    · cases moved
  | deregister i =>
    obtain ⟨c, -, moved⟩ := Option.bind_eq_some_iff.mp moved
    split at moved <;> cases moved
    exact slots_deregisterIfCurrent s c.label i
  | renewHead i =>
    obtain ⟨c, -, moved⟩ := Option.bind_eq_some_iff.mp moved
    split at moved
    · obtain ⟨reg, -, rfl⟩ := Option.map_eq_some_iff.mp moved
      exact slots_renewHead s i c reg
    · cases moved
  | renewWake i =>
    obtain ⟨c, -, moved⟩ := Option.bind_eq_some_iff.mp moved
    split at moved
    · obtain ⟨reg, -, rfl⟩ := Option.map_eq_some_iff.mp moved
      exact slots_renewWake s i c reg
    · cases moved
  | renewAcquired i acquired =>
    obtain ⟨c, -, moved⟩ := Option.bind_eq_some_iff.mp moved
    split at moved
    · split at moved
      · cases moved
        rfl
      · cases moved
        rfl
    · cases moved
  | renewResult i renewed =>
    obtain ⟨c, -, moved⟩ := Option.bind_eq_some_iff.mp moved
    split at moved
    · obtain ⟨reg, -, rfl⟩ := Option.map_eq_some_iff.mp moved
      exact slots_renewResult s i c reg renewed
    · cases moved
  | revokeLease leaseId action =>
    cases moved
    exact slots_revokeLease s leaseId action
  | applyPolicyUpdate update =>
    cases moved
    exact slots_applyPolicyUpdate s update
  | visit label sent => cases other
  | visitorOpened v => cases other
  | visitorFailed v => cases other
  | visitorLeft v => cases other
  | throttle i n =>
    simp only [Server.step] at moved
    split at moved
    · obtain ⟨reg, -, rfl⟩ := Option.map_eq_some_iff.mp moved
      exact slots_throttleAccountBytes s reg n
    · cases moved
  | mux i a =>
    simp only [Server.step] at moved
    split at moved
    · cases moved
    · exact slots_muxStep moved

/-! ### What a visitor does to the slots -/

/-- The account whose slot a visitor has. -/
def visitorAccount (s : Server) (visitor : Visitor) : Option String :=
  s.roster.account visitor.connection

/-- The visitor holds a slot of the account. -/
def holdsSlot (s : Server) (accountId : String) (visitor : Visitor) : Bool :=
  visitor.phase != .left && s.visitorAccount visitor == some accountId

/-- The counter of each account is the number of its visitors that have not left. -/
structure Slots (s : Server) : Prop where
  counted : ∀ accountId, s.accountActiveStreams accountId = s.visitors.countP (s.holdsSlot accountId)
  /-- An account without visitors has no entry. -/
  proper : Tally.Proper s.accountActiveVisitors
  placed : ∀ visitor ∈ s.visitors, (s.registration? visitor.connection).isSome = true

theorem streams_congr (same : s'.slots = s.slots) (accountId : String) :
    s'.accountActiveStreams accountId = s.accountActiveStreams accountId :=
  congrArg (fun slots : List Visitor × AList fun _ : String => Nat =>
    (slots.2.lookup accountId).getD 0) same

/-- The slot that a visitor takes. -/
theorem acquired_slot {reg : TunnelRegistration} (acquired : s.tryAcquireVisitorBudget reg = some s') :
    s' = { s with accountActiveVisitors := Tally.take s.accountActiveVisitors reg.accountId } ∧
      (s.accountBudget reg).maxVisitors.any (s.accountActiveStreams reg.accountId ≥ ·) = false := by
  unfold tryAcquireVisitorBudget at acquired
  split at acquired
  · cases acquired
  next room =>
    cases acquired
    exact ⟨rfl, Bool.eq_false_iff.mpr room⟩

/-- The slot that it gives back. -/
theorem released_slot (s : Server) (accountId : String) :
    (s.releaseVisitorBudget accountId).slots =
      (s.visitors, Tally.give s.accountActiveVisitors accountId) := by
  have counted : s.accountActiveStreams accountId = Tally.count s.accountActiveVisitors accountId := rfl
  unfold releaseVisitorBudget Tally.give
  rw [← counted]
  split
  next last => exact slots_dropAccountBandwidthIfIdle _ _
  · rfl

/-! ### Along a run -/

/-- Registrations stay, and keep their accounts. -/
def Resident (s s' : Server) : Prop :=
  ∀ k, (s.registration? k).isSome = true →
    (s'.registration? k).isSome = true ∧ s'.roster.account k = s.roster.account k

theorem account_of_found {k : Nat} {c : Connection} (found : s.connections[k]? = some c) :
    s.roster.account k = some c.admission.lease.accountId := by
  simp [Roster.account, roster, found, Connection.entry]

theorem Settled.resident (settled : Settled s s') : Resident s s' := by
  intro k registered
  obtain ⟨reg, known⟩ := Option.isSome_iff_exists.mp registered
  obtain ⟨c, found, here⟩ := Option.bind_eq_some_iff.mp known
  have same : (s'.connections.map Connection.settled)[k]? =
      (s.connections.map Connection.settled)[k]? := by rw [settled]
  rw [List.getElem?_map, List.getElem?_map, found, Option.map_some] at same
  obtain ⟨c', found', kept⟩ := Option.map_eq_some_iff.mp same
  have still : c'.registration.isSome = c.registration.isSome :=
    congrArg (fun settled => settled.2.2) kept
  have admission : c'.admission = c.admission := congrArg (fun settled => settled.1.2.2.1) kept
  constructor
  · rw [registration?, found', Option.bind_some, still, here]
    rfl
  · rw [account_of_found found, account_of_found found', admission]

/-- What a claim leaves of its own connection. -/
theorem claimed_connection {c : Connection} (found : s.connections[i]? = some c)
    (phrases : Fin 100 → String) :
    ∃ c', (s.claim i c phrases).connections[i]? = some c' ∧ c'.admission = c.admission ∧
      (c.registration.isSome = true → c'.registration.isSome = true) := by
  obtain ⟨reconnects, ⟨r, -, same⟩ | ⟨label, url, -, same⟩⟩ := claim_cases s i c phrases
  · rw [same]
    exact ⟨_, connection_modifyConnection found _, rfl, id⟩
  · rw [same]
    exact ⟨_, connection_modifyConnection found _, rfl, fun _ => rfl⟩

theorem resident_claim {c : Connection} (found : s.connections[i]? = some c)
    (phrases : Fin 100 → String) : Resident s (s.claim i c phrases) := by
  intro k registered
  obtain ⟨reg, known⟩ := Option.isSome_iff_exists.mp registered
  obtain ⟨old, there, here⟩ := Option.bind_eq_some_iff.mp known
  by_cases same : k = i
  · -- the claim of the connection itself, which leaves it with its registration or a new one
    subst same
    rw [found] at there
    cases there
    obtain ⟨c', found', admission, registered'⟩ := claimed_connection found phrases
    constructor
    · rw [registration?, found', Option.bind_some]
      exact registered' (by rw [here]; rfl)
    · rw [account_of_found found, account_of_found found', admission]
  · obtain ⟨c', found', kept⟩ := (undisturbed_claim s i c phrases).found same there
    obtain ⟨-, -, -, admission, terms⟩ := Connection.kept_eq kept
    constructor
    · rw [registration?, found', Option.bind_some, ← Option.isSome_map, terms, Option.isSome_map,
        here]
      rfl
    · rw [account_of_found there, account_of_found found', admission]

theorem resident_step {a : Action} (moved : s.step a = some s') : Resident s s' := by
  by_cases claims : ∃ i phrases, a = .claim i phrases
  · obtain ⟨i, phrases, rfl⟩ := claims
    obtain ⟨c, found, moved⟩ := Option.bind_eq_some_iff.mp moved
    split at moved <;> cases moved
    exact resident_claim found phrases
  by_cases admits : ∃ admission requested scheme window, a = .admitTunnel admission requested scheme window
  · obtain ⟨admission, requested, scheme, window, rfl⟩ := admits
    obtain ⟨valid, -, rfl⟩ := Option.map_eq_some_iff.mp moved
    intro k registered
    obtain ⟨reg, known⟩ := Option.isSome_iff_exists.mp registered
    obtain ⟨c, found, here⟩ := Option.bind_eq_some_iff.mp known
    have short := (List.getElem?_eq_some_iff.mp found).1
    have found' : (s.connections ++ [⟨requested, scheme, valid, window, .admitted, "", none, .off⟩])[k]? =
        some c := by
      rw [List.getElem?_append_left short]
      exact found
    constructor
    · rw [registration?, found', Option.bind_some, here]
      rfl
    · rw [account_of_found found]
      exact account_of_found found'
  · exact (step_settled moved (fun i phrases same => claims ⟨i, phrases, same⟩)
      fun admission requested scheme window same => admits ⟨_, _, _, _, same⟩).resident

theorem Slots.countP_resident (slots : s.Slots) (resident : Resident s s') (accountId : String) :
    s.visitors.countP (s'.holdsSlot accountId) = s.visitors.countP (s.holdsSlot accountId) := by
  refine List.countP_congr fun visitor member => ?_
  rw [holdsSlot, holdsSlot, visitorAccount, visitorAccount,
    (resident visitor.connection (slots.placed visitor member)).2]

/-- What does not touch the slots keeps the count. -/
theorem Slots.of_same (slots : s.Slots) (same : s'.slots = s.slots) (resident : Resident s s') :
    s'.Slots := by
  have visitors : s'.visitors = s.visitors := congrArg Prod.fst same
  have counters : s'.accountActiveVisitors = s.accountActiveVisitors := congrArg Prod.snd same
  refine ⟨fun accountId => ?_, counters ▸ slots.proper, fun visitor member => ?_⟩
  · rw [streams_congr same, slots.counted, visitors, slots.countP_resident resident]
  · rw [visitors] at member
    exact (resident visitor.connection (slots.placed visitor member)).1

theorem placed_setVisitor (resident : Resident s s') (slots : s.Slots) {v : Nat} {phase : VisitorPhase}
    (visitors : s'.visitors = s.visitors.modify v fun visitor => { visitor with phase := phase }) :
    ∀ visitor ∈ s'.visitors, (s'.registration? visitor.connection).isSome = true := by
  intro visitor member
  rw [visitors] at member
  obtain ⟨k, here⟩ := List.mem_iff_getElem?.mp member
  rw [List.getElem?_modify] at here
  obtain ⟨old, there, rfl⟩ := Option.map_eq_some_iff.mp here
  have placed := (resident old.connection (slots.placed old (List.mem_of_getElem? there))).1
  split
  · exact placed
  · exact placed

/-- A visitor that goes on keeps its slot. -/
theorem Slots.continues (slots : s.Slots) {v : Nat} {visitor : Visitor}
    (there : s.visitors[v]? = some visitor) (present : visitor.phase ≠ .left) {phase : VisitorPhase}
    (stays : phase ≠ .left) : (s.setVisitor v phase).Slots := by
  have resident : Resident s (s.setVisitor v phase) := fun k registered => ⟨registered, rfl⟩
  refine ⟨fun accountId => ?_, slots.proper, placed_setVisitor resident slots rfl⟩
  have counted := slots.counted accountId
  have moved := Tally.countP_modify (s.holdsSlot accountId) (fun visitor => { visitor with phase := phase })
    there
  have same : s.holdsSlot accountId { visitor with phase := phase } =
      s.holdsSlot accountId visitor := by
    unfold holdsSlot visitorAccount
    rw [bne_iff_ne.mpr present, bne_iff_ne.mpr stays]
  rw [same] at moved
  show s.accountActiveStreams accountId = _
  rw [counted]
  exact (Nat.add_right_cancel moved).symm

/-- A visitor that leaves gives its slot back. -/
theorem Slots.leave (slots : s.Slots) (coherent : s.Coherent) {v : Nat} {visitor : Visitor}
    (there : s.visitors[v]? = some visitor) (present : visitor.phase ≠ .left)
    (moved : s.leave v visitor = some s') : s'.Slots := by
  have resident : Resident s s' := (undisturbed_leave (p := fun _ => False) moved).settled.resident
  obtain ⟨reg, known, rfl⟩ := Option.map_eq_some_iff.mp moved
  have released := released_slot (s.setVisitor v .left) reg.accountId
  have visitors : ((s.setVisitor v .left).releaseVisitorBudget reg.accountId).visitors =
      s.visitors.modify v fun visitor => { visitor with phase := .left } :=
    congrArg Prod.fst released
  have counters : ((s.setVisitor v .left).releaseVisitorBudget reg.accountId).accountActiveVisitors =
      Tally.give s.accountActiveVisitors reg.accountId := congrArg Prod.snd released
  refine ⟨fun accountId => ?_, counters ▸ slots.proper.give, placed_setVisitor resident slots visitors⟩
  have counted := slots.counted accountId
  have changed := Tally.countP_modify (s.holdsSlot accountId) (fun visitor => { visitor with phase := .left })
    there
  have before : s.holdsSlot accountId visitor = decide (accountId = reg.accountId) := by
    have account := (coherent.linked visitor.connection reg known).1
    unfold holdsSlot visitorAccount
    rw [bne_iff_ne.mpr present, account]
    by_cases mine : accountId = reg.accountId
    · simp [mine]
    · simp [mine, Ne.symm mine]
  have after : s.holdsSlot accountId { visitor with phase := .left } = false := by simp [holdsSlot]
  rw [before, after] at changed
  have each : (s.visitors.modify v fun visitor => { visitor with phase := .left }).countP
      (((s.setVisitor v .left).releaseVisitorBudget reg.accountId).holdsSlot accountId) =
      (s.visitors.modify v fun visitor => { visitor with phase := .left }).countP
        (s.holdsSlot accountId) := by
    refine List.countP_congr fun other member => ?_
    have kept : Resident s (s.setVisitor v .left) := fun k registered => ⟨registered, rfl⟩
    have placed : (s.registration? other.connection).isSome = true :=
      placed_setVisitor kept slots rfl other member
    rw [holdsSlot, holdsSlot, visitorAccount, visitorAccount, (resident other.connection placed).2]
  have streams : ((s.setVisitor v .left).releaseVisitorBudget reg.accountId).accountActiveStreams
      accountId = s.accountActiveStreams accountId - if accountId = reg.accountId then 1 else 0 :=
    (congrArg (Tally.count · accountId) counters).trans (Tally.count_give _ _)
  rw [streams, counted, visitors]
  refine Eq.trans ?_ each.symm
  by_cases mine : accountId = reg.accountId
  · simp only [mine, decide_true, Bool.toNat_true, Bool.toNat_false, if_true] at changed ⊢
    omega
  · simp only [mine, decide_false, Bool.toNat_false, if_false] at changed ⊢
    omega

/-- A visitor that comes in takes a slot of its account. -/
theorem Slots.admitted (slots : s.Slots) (resident : Resident s s') {visitor : Visitor}
    {accountId : String}
    (taken : s'.slots = (s.visitors ++ [visitor], Tally.take s.accountActiveVisitors accountId))
    (present : visitor.phase ≠ .left) (placed : (s.registration? visitor.connection).isSome = true)
    (account : s.roster.account visitor.connection = some accountId) : s'.Slots := by
  have visitors : s'.visitors = s.visitors ++ [visitor] := congrArg Prod.fst taken
  have counters : s'.accountActiveVisitors = Tally.take s.accountActiveVisitors accountId :=
    congrArg Prod.snd taken
  refine ⟨fun other => ?_, counters ▸ slots.proper.take, fun old member => ?_⟩
  · have streams : s'.accountActiveStreams other =
        s.accountActiveStreams other + if other = accountId then 1 else 0 :=
      (congrArg (Tally.count · other) counters).trans (Tally.count_take _ _)
    rw [streams, slots.counted, visitors, List.countP_append, slots.countP_resident resident]
    refine congrArg _ ?_
    rw [List.countP_singleton, holdsSlot, visitorAccount, (resident _ placed).2, account,
      bne_iff_ne.mpr present]
    by_cases mine : other = accountId
    · simp [mine]
    · simp [mine, Ne.symm mine]
  · rw [visitors] at member
    rcases List.mem_append.mp member with before | new
    · exact (resident old.connection (slots.placed old before)).1
    · rw [List.mem_singleton] at new
      subst new
      exact (resident _ placed).1

/-- A visitor that is turned away at once leaves no trace. -/
theorem Slots.refused (slots : s.Slots) (resident : Resident s s') {accountId : String}
    (back : s'.slots =
      (s.visitors, Tally.give (Tally.take s.accountActiveVisitors accountId) accountId)) :
    s'.Slots := by
  have visitors : s'.visitors = s.visitors := congrArg Prod.fst back
  have counters : s'.accountActiveVisitors =
      Tally.give (Tally.take s.accountActiveVisitors accountId) accountId := congrArg Prod.snd back
  refine ⟨fun other => ?_, counters ▸ slots.proper.take.give, fun visitor member => ?_⟩
  · have streams : s'.accountActiveStreams other = s.accountActiveStreams other :=
      (congrArg (Tally.count · other) counters).trans (Tally.count_give_take _ _)
    rw [streams, slots.counted, visitors, slots.countP_resident resident]
  · rw [visitors] at member
    exact (resident visitor.connection (slots.placed visitor member)).1

theorem slots_selectAgentForVisitor (s : Server) (label : String) :
    (s.selectAgentForVisitor label).2.slots = s.slots := by
  unfold selectAgentForVisitor
  split
  · rfl
  · split
    · rfl
    · split
      · rfl
      · split
        · exact slots_retireRegistration s label _ .leaseExpired leaseExpiryDrainTimeout
        · rfl

/-- What the coming of a visitor does to the slots: nothing, or it takes one slot of the account
of the registration that it was given, within its budget, and it may be refused at once. -/
theorem slots_visit (s : Server) (label : String) (sent : Bool) :
    (s.visit label sent).slots = s.slots ∨ ∃ k reg, s.registration? k = some reg ∧
      (s.accountBudget reg).maxVisitors.any (s.accountActiveStreams reg.accountId ≥ ·) = false ∧
      ((∃ stream, (s.visit label sent).slots = (s.visitors ++ [⟨label, k, stream, .opening⟩],
          Tally.take s.accountActiveVisitors reg.accountId)) ∨
        (s.visit label sent).slots =
          (s.visitors, Tally.give (Tally.take s.accountActiveVisitors reg.accountId) reg.accountId)) := by
  have selected := slots_selectAgentForVisitor s label
  unfold Server.visit
  cases chosen : s.selectAgentForVisitor label with
  | mk agent t =>
    rw [chosen] at selected
    cases agent with
    | none => exact Or.inl selected
    | some agent =>
      obtain ⟨k, reg⟩ := agent
      obtain ⟨rfl, -, known, -⟩ := selectAgentForVisitor_some chosen
      simp only
      split
      · exact Or.inl rfl
      next u acquired =>
        obtain ⟨taken, room⟩ := acquired_slot acquired
        have opened := slots_afterMux u k reg ((u.host reg).openStream sent).host
        have after : (u.afterMux k reg ((u.host reg).openStream sent).host).slots =
            (t.visitors, Tally.take t.accountActiveVisitors reg.accountId) := by
          rw [opened, taken]
          rfl
        have visitors' : (u.afterMux k reg ((u.host reg).openStream sent).host).visitors =
            t.visitors := congrArg Prod.fst after
        have counters' : (u.afterMux k reg
            ((u.host reg).openStream sent).host).accountActiveVisitors =
              Tally.take t.accountActiveVisitors reg.accountId := congrArg Prod.snd after
        refine Or.inr ⟨k, reg, known, room, ?_⟩
        split
        · exact Or.inl ⟨_, Prod.ext (congrArg (· ++ _) visitors') counters'⟩
        · refine Or.inr ((released_slot _ reg.accountId).trans ?_)
          exact Prod.ext visitors' (congrArg (Tally.give · reg.accountId) counters')

/-- A visitor takes its slot, and keeps it if its stream is being opened. -/
theorem Slots.visit (slots : s.Slots) (coherent : s.Coherent) (label : String) (sent : Bool) :
    (s.visit label sent).Slots := by
  have undisturbed : Undisturbed (fun _ => False) s (s.visit label sent) :=
    undisturbed_visit s label sent
  have resident := undisturbed.settled.resident
  rcases slots_visit s label sent with same | ⟨k, reg, known, -, ⟨stream, taken⟩ | back⟩
  · exact slots.of_same same resident
  · exact slots.admitted resident taken nofun (by rw [known]; rfl) (coherent.linked k reg known).1
  · exact slots.refused resident back

theorem Slots.step (slots : s.Slots) (coherent : s.Coherent) {a : Action} (moved : s.step a = some s') :
    s'.Slots := by
  have carried : ∀ {t : Server} {k : Nat} {b : Chute.Action}, s.muxStep k b = some t →
      t.Slots ∧ t.Coherent ∧ t.visitors = s.visitors := fun stepped =>
    ⟨slots.of_same (slots_muxStep stepped) (undisturbed_muxStep (p := fun _ => False)
      stepped).settled.resident, coherent.quiet (quiet_muxStep stepped),
      congrArg Prod.fst (slots_muxStep stepped)⟩
  cases visits : a.visits with
  | false => exact slots.of_same (slots_step moved visits) (resident_step moved)
  | true =>
    cases a with
    | visit label sent =>
      cases moved
      exact slots.visit coherent label sent
    | visitorOpened v =>
      obtain ⟨visitor, there, moved⟩ := Option.bind_eq_some_iff.mp moved
      split at moved
      next opening =>
        obtain ⟨t, stepped, rfl⟩ := Option.map_eq_some_iff.mp moved
        obtain ⟨slots', -, visitors⟩ := carried stepped
        exact slots'.continues (by rw [visitors]; exact there) (by rw [opening]; nofun) nofun
      · cases moved
    | visitorFailed v =>
      obtain ⟨visitor, there, moved⟩ := Option.bind_eq_some_iff.mp moved
      split at moved
      next opening =>
        obtain ⟨t, stepped, left⟩ := Option.bind_eq_some_iff.mp moved
        obtain ⟨slots', coherent', visitors⟩ := carried stepped
        exact slots'.leave coherent' (by rw [visitors]; exact there) (by rw [opening]; nofun) left
      · cases moved
    | visitorLeft v =>
      obtain ⟨visitor, there, moved⟩ := Option.bind_eq_some_iff.mp moved
      split at moved
      next relaying => exact slots.leave coherent there (by rw [relaying]; nofun) moved
      · cases moved
    | _ => cases visits

/-- A visitor that has left has given back the slot of its account. -/
theorem gave_slot (coherent : s.Coherent) {v : Nat} {a : Action}
    (moved : s.step a = some s') (leaves : a = .visitorFailed v ∨ a = .visitorLeft v) :
    ∃ visitor accountId, s.visitors[v]? = some visitor ∧ s.visitorAccount visitor = some accountId ∧
      ∀ other, s'.accountActiveStreams other =
        s.accountActiveStreams other - if other = accountId then 1 else 0 := by
  have left : ∀ {t : Server} {visitor : Visitor}, t.slots = s.slots → t.Coherent →
      t.roster = s.roster → s.visitors[v]? = some visitor → t.leave v visitor = some s' →
      ∃ visitor accountId, s.visitors[v]? = some visitor ∧
        s.visitorAccount visitor = some accountId ∧ ∀ other, s'.accountActiveStreams other =
          s.accountActiveStreams other - if other = accountId then 1 else 0 := by
    intro t visitor same coherent roster there gone
    obtain ⟨reg, known, rfl⟩ := Option.map_eq_some_iff.mp gone
    have account := (coherent.linked visitor.connection reg known).1
    refine ⟨visitor, reg.accountId, there, ?_, fun other => ?_⟩
    · rw [visitorAccount, ← roster]
      exact account
    · have counters : ((t.setVisitor v .left).releaseVisitorBudget reg.accountId).accountActiveVisitors =
          Tally.give t.accountActiveVisitors reg.accountId := congrArg Prod.snd (released_slot _ _)
      have released := (congrArg (Tally.count · other) counters).trans (Tally.count_give _ _)
      rw [← streams_congr same]
      exact released
  rcases leaves with rfl | rfl
  · obtain ⟨visitor, there, moved⟩ := Option.bind_eq_some_iff.mp moved
    split at moved
    · obtain ⟨t, stepped, gone⟩ := Option.bind_eq_some_iff.mp moved
      have quiet := quiet_muxStep stepped
      exact left (slots_muxStep stepped) (coherent.quiet quiet) quiet.roster there gone
    · cases moved
  · obtain ⟨visitor, there, moved⟩ := Option.bind_eq_some_iff.mp moved
    split at moved
    · exact left rfl coherent rfl there moved
    · cases moved

/-- The stream of a visitor is open: its slot is the one it had. -/
theorem opened_slot {v : Nat} (moved : s.step (.visitorOpened v) = some s') (accountId : String) :
    s'.accountActiveStreams accountId = s.accountActiveStreams accountId := by
  obtain ⟨visitor, there, moved⟩ := Option.bind_eq_some_iff.mp moved
  split at moved
  · obtain ⟨t, stepped, rfl⟩ := Option.map_eq_some_iff.mp moved
    exact streams_congr (slots_muxStep stepped) accountId
  · cases moved

/-- Visitors stay in the list, with their registrations. -/
theorem visitors_step {a : Action} (moved : s.step a = some s') {v : Nat} {visitor : Visitor}
    (there : s.visitors[v]? = some visitor) :
    ∃ phase, s'.visitors[v]? = some { visitor with phase := phase } := by
  have unchanged : ∀ {t : Server}, t.slots = s.slots →
      t.visitors[v]? = some { visitor with phase := visitor.phase } := fun {t} same => by
    have visitors : t.visitors = s.visitors := congrArg Prod.fst same
    rw [visitors]
    exact there
  have modified : ∀ {t : Server} {u : Nat} {now : VisitorPhase}, t.slots = s.slots →
      ∃ phase, (t.setVisitor u now).visitors[v]? = some { visitor with phase := phase } :=
    fun {t u now} same => by
      refine ⟨if u = v then now else visitor.phase, ?_⟩
      rw [setVisitor, List.getElem?_modify, unchanged same]
      simp only [Option.map_eq_map, Option.map_some]
      split <;> rfl
  have left : ∀ {t : Server} {u : Nat} {other : Visitor}, t.slots = s.slots →
      t.leave u other = some s' → ∃ phase, s'.visitors[v]? = some { visitor with phase := phase } :=
    fun {t u other} same gone => by
      obtain ⟨reg, known, rfl⟩ := Option.map_eq_some_iff.mp gone
      have visitors : ((t.setVisitor u .left).releaseVisitorBudget reg.accountId).visitors =
          (t.setVisitor u .left).visitors := congrArg Prod.fst (released_slot _ _)
      rw [visitors]
      exact modified same
  cases visits : a.visits with
  | false => exact ⟨_, unchanged (slots_step moved visits)⟩
  | true =>
    cases a with
    | visit label sent =>
      cases moved
      refine ⟨visitor.phase, ?_⟩
      rcases slots_visit s label sent with same | ⟨k, reg, -, -, ⟨stream, taken⟩ | back⟩
      · exact unchanged same
      · have visitors : (s.visit label sent).visitors = s.visitors ++ [⟨label, k, stream, .opening⟩] :=
          congrArg Prod.fst taken
        rw [visitors, List.getElem?_append_left (List.getElem?_eq_some_iff.mp there).1]
        exact there
      · have visitors : (s.visit label sent).visitors = s.visitors := congrArg Prod.fst back
        rw [visitors]
        exact there
    | visitorOpened u =>
      obtain ⟨other, -, moved⟩ := Option.bind_eq_some_iff.mp moved
      split at moved
      · obtain ⟨t, stepped, rfl⟩ := Option.map_eq_some_iff.mp moved
        exact modified (slots_muxStep stepped)
      · cases moved
    | visitorFailed u =>
      obtain ⟨other, -, moved⟩ := Option.bind_eq_some_iff.mp moved
      split at moved
      · obtain ⟨t, stepped, gone⟩ := Option.bind_eq_some_iff.mp moved
        exact left (slots_muxStep stepped) gone
      · cases moved
    | visitorLeft u =>
      obtain ⟨other, -, moved⟩ := Option.bind_eq_some_iff.mp moved
      split at moved
      · exact left rfl moved
      · cases moved
    | _ => cases visits

theorem slots_start (config : ServerConfig) (now monotonic : ℚ) : (start config now monotonic).Slots where
  counted := fun _ => rfl
  proper := fun _ => by simp [start]
  placed := nofun

theorem slots_of_run {config : ServerConfig} {now monotonic : ℚ} {as : List Action}
    (ran : Transition.run step (start config now monotonic) as = some s) : s.Slots := by
  have kept : ∀ (t : Server) a (t' : Server), (t.Coherent ∧ t.Slots) → t.step a = some t' →
      t'.Coherent ∧ t'.Slots :=
    fun _ _ _ held moved => ⟨held.1.step moved, held.2.step held.1 moved⟩
  exact (Transition.run_invariant' kept
    ⟨coherent_start config now monotonic, slots_start config now monotonic⟩ ran).2

end Server

end Chute
