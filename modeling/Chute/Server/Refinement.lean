import Chute.Server.Roster
import Chute.Server.Serve

/-!
# The registry refines the label table

The maps of the relay are a label table together with three reverse indexes of it.
`Coherent` says so, and every step of the relay changes the table by moves of its own
and keeps the indexes exact.
-/
namespace Chute

open Roster (Move Stage)

namespace Server

/-! ### The table behind the maps -/

def Ending.stage (label : String) : Ending → Stage
  | .rejected _ => .refused
  | .disconnected => .installed label
  | _ => .claimed label

def Phase.stage (label : String) : Phase → Stage
  | .admitted => .waiting
  | .claimed => .claimed label
  | .emitting => .claimed label
  | .emitted _ => .claimed label
  | .readying _ => .claimed label
  | .readied _ => .claimed label
  | .dropping _ why => why.stage label
  | .running _ => .installed label
  | .closing _ => .installed label
  | .over_ _ why => why.stage label

theorem stage_eq_waiting_iff {label : String} {phase : Phase} :
    phase.stage label = .waiting ↔ phase = .admitted := by
  have ending : ∀ why : Ending, why.stage label ≠ .waiting := fun why => by cases why <;> nofun
  cases phase with
  | admitted => exact iff_of_true rfl rfl
  | dropping opened why => exact iff_of_false (ending why) nofun
  | over_ opened why => exact iff_of_false (ending why) nofun
  | _ => exact iff_of_false nofun nofun

def Connection.entry (c : Connection) : Roster.Entry :=
  ⟨c.admission.lease.accountId, c.admission.lease.leaseId, c.admission.maxTunnels,
    c.phase.stage c.label⟩

def roster (s : Server) : Roster :=
  ⟨s.config.maxAgents, s.connections.map Connection.entry, s.agents, s.pendingAgents⟩

/-- What the registry looks at in a registration. -/
def TunnelRegistration.identity (reg : TunnelRegistration) : String × Option String × Bool :=
  (reg.accountId, reg.leaseId, reg.acceptingVisitors)

/-- The maps agree with the table and the indexes with the maps. -/
structure Coherent (s : Server) : Prop where
  sound : s.roster.Sound
  linked : ∀ i reg, s.registration? i = some reg →
    s.roster.account i = some reg.accountId ∧ s.roster.lease i = reg.leaseId
  /-- A connection that was not refused has its registration. -/
  present : ∀ i label, s.roster.stage i = some (.claimed label) ∨
    s.roster.stage i = some (.installed label) → ∃ reg, s.registration? i = some reg
  accounts : s.accountLabels.Inverts s.roster.activeAccount
  leases : s.leaseLabels.Inverts s.roster.activeLease
  pendingLeases : s.pendingLeaseLabels.Inverts s.roster.pendingLease
  accepting : ∀ label i reg, s.agents.lookup label = some i → s.registration? i = some reg →
    reg.acceptingVisitors = true

theorem coherent_start (config : ServerConfig) (now monotonic : ℚ) :
    (start config now monotonic).Coherent where
  sound := ⟨by simp [roster, start], by simp [roster, start],
    by simp [roster, start, Roster.activeAccount], by simp [roster, start, Roster.labels]⟩
  linked := by simp [start, registration?]
  present := by simp [roster, start, Roster.stage]
  accounts := ReverseIndex.inverts_empty.congr (by simp [roster, start, Roster.activeAccount])
  leases := ReverseIndex.inverts_empty.congr (by simp [roster, start, Roster.activeLease])
  pendingLeases := ReverseIndex.inverts_empty.congr (by simp [roster, start, Roster.pendingLease])
  accepting := by simp [start]

/-! ### What the registry does not see -/

/-- A connection as the registry sees it. -/
def Connection.key (c : Connection) : Roster.Entry × Option (String × Option String × Bool) :=
  (c.entry, c.registration.map TunnelRegistration.identity)

/-- Nothing that the registry looks at has changed. -/
structure Quiet (s s' : Server) : Prop where
  maxAgents : s'.config.maxAgents = s.config.maxAgents
  keys : s'.connections.map Connection.key = s.connections.map Connection.key
  agents : s'.agents = s.agents
  pendingAgents : s'.pendingAgents = s.pendingAgents
  accountLabels : s'.accountLabels = s.accountLabels
  leaseLabels : s'.leaseLabels = s.leaseLabels
  pendingLeaseLabels : s'.pendingLeaseLabels = s.pendingLeaseLabels

variable {s s' s'' : Server}

theorem Quiet.refl (s : Server) : Quiet s s := ⟨rfl, rfl, rfl, rfl, rfl, rfl, rfl⟩

theorem Quiet.trans (first : Quiet s s') (second : Quiet s' s'') : Quiet s s'' :=
  ⟨second.maxAgents.trans first.maxAgents, second.keys.trans first.keys,
    second.agents.trans first.agents, second.pendingAgents.trans first.pendingAgents,
    second.accountLabels.trans first.accountLabels, second.leaseLabels.trans first.leaseLabels,
    second.pendingLeaseLabels.trans first.pendingLeaseLabels⟩

theorem Quiet.roster (quiet : Quiet s s') : s'.roster = s.roster := by
  have entries := congrArg (List.map Prod.fst) quiet.keys
  simp only [List.map_map] at entries
  unfold Server.roster
  rw [quiet.maxAgents, quiet.agents, quiet.pendingAgents]
  exact congrArg (Roster.mk _ · _ _) entries

theorem Quiet.identity (quiet : Quiet s s') (i : Nat) :
    (s'.registration? i).map TunnelRegistration.identity =
      (s.registration? i).map TunnelRegistration.identity := by
  have keys := congrArg (fun l => (l[i]?).bind Prod.snd) quiet.keys
  simp only [List.getElem?_map] at keys
  unfold registration?
  cases after : s'.connections[i]? <;> cases before : s.connections[i]? <;>
    simp_all [Connection.key]

/-- A registration after a quiet change, and the one it was. -/
theorem Quiet.registration (quiet : Quiet s s') {i : Nat} {reg : TunnelRegistration}
    (found : s'.registration? i = some reg) :
    ∃ old, s.registration? i = some old ∧ reg.identity = old.identity := by
  have same := quiet.identity i
  rw [found] at same
  obtain ⟨old, there, equal⟩ := Option.map_eq_some_iff.mp same.symm
  exact ⟨old, there, equal.symm⟩

theorem Quiet.symm (quiet : Quiet s s') : Quiet s' s :=
  ⟨quiet.maxAgents.symm, quiet.keys.symm, quiet.agents.symm, quiet.pendingAgents.symm,
    quiet.accountLabels.symm, quiet.leaseLabels.symm, quiet.pendingLeaseLabels.symm⟩

theorem Coherent.quiet (coherent : s.Coherent) (quiet : Quiet s s') : s'.Coherent where
  sound := by rw [quiet.roster]; exact coherent.sound
  linked := by
    intro i reg found
    obtain ⟨old, there, same⟩ := quiet.registration found
    simp only [TunnelRegistration.identity, Prod.mk.injEq] at same
    rw [quiet.roster, same.1, same.2.1]
    exact coherent.linked i old there
  present := by
    intro i label stage
    rw [quiet.roster] at stage
    obtain ⟨old, there⟩ := coherent.present i label stage
    obtain ⟨reg, found, -⟩ := quiet.symm.registration there
    exact ⟨reg, found⟩
  accounts := by rw [quiet.accountLabels, quiet.roster]; exact coherent.accounts
  leases := by rw [quiet.leaseLabels, quiet.roster]; exact coherent.leases
  pendingLeases := by rw [quiet.pendingLeaseLabels, quiet.roster]; exact coherent.pendingLeases
  accepting := by
    intro label i reg serves found
    obtain ⟨old, there, same⟩ := quiet.registration found
    simp only [TunnelRegistration.identity, Prod.mk.injEq] at same
    rw [quiet.agents] at serves
    rw [same.2.2]
    exact coherent.accepting label i old serves there

/-- Changing one connection in a way the registry does not see. -/
theorem quiet_modifyConnection {i : Nat} {f : Connection → Connection}
    (same : ∀ c, s.connections[i]? = some c → (f c).key = c.key) :
    Quiet s (s.modifyConnection i f) := by
  refine ⟨rfl, ?_, rfl, rfl, rfl, rfl, rfl⟩
  apply List.ext_getElem?
  intro j
  simp only [modifyConnection, List.getElem?_map, List.getElem?_modify]
  cases found : s.connections[j]? with
  | none => rfl
  | some c =>
    by_cases here : i = j
    · subst here
      simp [same c found]
    · simp [here]

theorem quiet_modifyRegistration {i : Nat} {f : TunnelRegistration → TunnelRegistration}
    (same : ∀ reg, s.registration? i = some reg → (f reg).identity = reg.identity) :
    Quiet s (s.modifyRegistration i f) := by
  apply quiet_modifyConnection
  intro c found
  refine Prod.ext rfl ?_
  cases registered : c.registration with
  | none => simp [Connection.key, registered]
  | some reg =>
    simp [Connection.key, registered, same reg (by simp [registration?, found, registered])]

theorem quiet_setRenewal (s : Server) (i : Nat) (renewal : RenewalPhase) :
    Quiet s (s.setRenewal i renewal) :=
  quiet_modifyConnection fun _ _ => rfl

/-- Going on without a change of stage. -/
theorem quiet_setPhase {i : Nat} {phase : Phase}
    (same : ∀ c, s.connections[i]? = some c → phase.stage c.label = c.phase.stage c.label) :
    Quiet s (s.setPhase i phase) :=
  quiet_modifyConnection fun c found => by simp [Connection.key, Connection.entry, same c found]

theorem quiet_dropAccountBandwidthIfIdle (s : Server) (accountId : String) :
    Quiet s (s.dropAccountBandwidthIfIdle accountId) := by
  unfold dropAccountBandwidthIfIdle
  split
  · exact .refl s
  · exact ⟨rfl, rfl, rfl, rfl, rfl, rfl, rfl⟩

/-! ### Moves of the registry -/

/-- The step keeps the indexes exact and changes the table by moves of one kind. -/
structure Follows (s : Server) (kind : Move → Prop) (s' : Server) : Prop where
  coherent : s'.Coherent
  runs : ∃ ms, Roster.Runs s.roster ms s'.roster ∧ ∀ m ∈ ms, kind m

variable {kind kind' : Move → Prop}

theorem Coherent.follows (coherent : s.Coherent) (quiet : Quiet s s') : Follows s kind s' :=
  ⟨coherent.quiet quiet, [], by rw [quiet.roster]; exact .nil _, by simp⟩

theorem Follows.trans (first : Follows s kind s') (second : Follows s' kind s'') :
    Follows s kind s'' := by
  obtain ⟨ms, runs, all⟩ := first.runs
  obtain ⟨ns, runs', all'⟩ := second.runs
  refine ⟨second.coherent, ms ++ ns, runs.append runs', fun m member => ?_⟩
  rcases List.mem_append.mp member with early | late
  · exact all m early
  · exact all' m late

theorem Follows.mono (follows : Follows s kind s') (weaker : ∀ m, kind m → kind' m) :
    Follows s kind' s' := by
  obtain ⟨ms, runs, all⟩ := follows.runs
  exact ⟨follows.coherent, ms, runs, fun m member => weaker m (all m member)⟩

theorem Follows.quiet (follows : Follows s kind s') (quiet : Quiet s' s'') :
    Follows s kind s'' :=
  follows.trans (follows.coherent.follows quiet)

/-- A single move. -/
theorem follows_of_step {m : Move} (coherent : s'.Coherent) (step : Roster.Steps s.roster m s'.roster)
    (allowed : kind m) : Follows s kind s' :=
  ⟨coherent, [m], step.runs, by simpa using allowed⟩

theorem inverts_unindexLeaseLabel {index : ReverseIndex String String} {f : String → Option String}
    (inverts : index.Inverts f) {label : String} {reg : TunnelRegistration}
    (belongs : f label = reg.leaseId) :
    (unindexLeaseLabel index label reg).Inverts (Function.update f label none) := by
  unfold unindexLeaseLabel
  cases lease : reg.leaseId with
  | none => exact inverts.congr fun l => by by_cases same : l = label <;> simp_all
  | some leaseId => exact inverts.discard (by rw [belongs, lease])

theorem inverts_indexLeaseLabel {index : ReverseIndex String String} {f : String → Option String}
    (inverts : index.Inverts f) {label : String} (reg : TunnelRegistration)
    (free : f label = none) :
    (indexLeaseLabel index label reg).Inverts (Function.update f label reg.leaseId) := by
  unfold indexLeaseLabel
  cases lease : reg.leaseId with
  | none => exact inverts.congr fun l => by by_cases same : l = label <;> simp_all
  | some leaseId => exact inverts.add (Or.inl free)

section

variable {label : String} {i : Nat}

theorem Coherent.active (coherent : s.Coherent) (serves : s.agents.lookup label = some i) :
    ∃ reg, s.registration? i = some reg ∧ s.roster.activeAccount label = some reg.accountId ∧
      s.roster.activeLease label = reg.leaseId := by
  obtain ⟨reg, found⟩ := coherent.present i label (Or.inr (coherent.sound.active label i serves))
  obtain ⟨account, lease⟩ := coherent.linked i reg found
  exact ⟨reg, found, by simp [Roster.activeAccount, roster, serves]; exact account,
    by simp [Roster.activeLease, roster, serves]; exact lease⟩

theorem Coherent.pending (coherent : s.Coherent) (holds : s.pendingAgents.lookup label = some i) :
    ∃ reg, s.registration? i = some reg ∧ s.roster.pendingAccount label = some reg.accountId ∧
      s.roster.pendingLease label = reg.leaseId := by
  obtain ⟨reg, found⟩ := coherent.present i label (Or.inl (coherent.sound.pending label i holds))
  obtain ⟨account, lease⟩ := coherent.linked i reg found
  exact ⟨reg, found, by simp [Roster.pendingAccount, roster, holds]; exact account,
    by simp [Roster.pendingLease, roster, holds]; exact lease⟩

@[simp] theorem connections_dropAccountBandwidthIfIdle (s : Server) (accountId : String) :
    (s.dropAccountBandwidthIfIdle accountId).connections = s.connections := by
  unfold dropAccountBandwidthIfIdle
  split <;> rfl

theorem connections_deregisterIfCurrent (s : Server) (label : String) (i : Nat) :
    (s.deregisterIfCurrent label i).connections = s.connections := by
  unfold deregisterIfCurrent
  split
  · split <;> simp
  · rfl

theorem connections_dropPendingIfCurrent (s : Server) (label : String) (i : Nat) :
    (s.dropPendingIfCurrent label i).connections = s.connections := by
  unfold dropPendingIfCurrent
  split
  · split <;> rfl
  · rfl

theorem Coherent.agents_deregisterIfCurrent (coherent : s.Coherent)
    (serves : s.agents.lookup label = some i) :
    (s.deregisterIfCurrent label i).agents = s.agents.erase label := by
  obtain ⟨reg, found, -, -⟩ := coherent.active serves
  unfold deregisterIfCurrent
  simp only [serves, found, if_true]
  exact (quiet_dropAccountBandwidthIfIdle _ _).agents

/-- `_deregister_if_current` takes the label out of `_agents` and of both its indexes. -/
theorem follows_deregisterIfCurrent (coherent : s.Coherent) (label : String) (i : Nat) :
    Follows s (· = .remove i label) (s.deregisterIfCurrent label i) := by
  unfold deregisterIfCurrent
  split
  next current reg serves found =>
    split
    next same =>
      subst same
      obtain ⟨reg', found', account, lease⟩ := coherent.active serves
      rw [found] at found'
      cases found'
      have step := Roster.Steps.remove (r := s.roster) current label serves
      have coherent' : Coherent { s with
          agents := s.agents.erase label
          leaseLabels := unindexLeaseLabel s.leaseLabels label reg
          accountLabels := s.accountLabels.discard reg.accountId label } :=
        { sound := coherent.sound.step step
          linked := coherent.linked
          present := coherent.present
          accounts := (coherent.accounts.discard account).congr
            (congrFun (ReverseIndex.bind_lookup_erase _ _ _))
          leases := (inverts_unindexLeaseLabel coherent.leases lease).congr
            (congrFun (ReverseIndex.bind_lookup_erase _ _ _))
          pendingLeases := coherent.pendingLeases
          accepting := by
            intro other j reg' serves' found'
            by_cases same : other = label
            · subst same
              simp at serves'
            · rw [AList.lookup_erase_ne same] at serves'
              exact coherent.accepting other j reg' serves' found' }
      have removed : Follows s (· = .remove current label) _ := follows_of_step coherent' step rfl
      exact removed.quiet (quiet_dropAccountBandwidthIfIdle _ _)
    · exact coherent.follows (.refl s)
  · exact coherent.follows (.refl s)

/-- `_drop_pending_if_current` takes the label out of `_pending_agents` and its index. -/
theorem follows_dropPendingIfCurrent (coherent : s.Coherent) (label : String) (i : Nat) :
    Follows s (· = .drop i label) (s.dropPendingIfCurrent label i) := by
  unfold dropPendingIfCurrent
  split
  next current reg holds found =>
    split
    next same =>
      subst same
      obtain ⟨reg', found', account, lease⟩ := coherent.pending holds
      rw [found] at found'
      cases found'
      have step := Roster.Steps.drop (r := s.roster) current label holds
      refine follows_of_step ?_ step rfl
      exact
        { sound := coherent.sound.step step
          linked := coherent.linked
          present := coherent.present
          accounts := coherent.accounts
          leases := coherent.leases
          pendingLeases := (inverts_unindexLeaseLabel coherent.pendingLeases lease).congr
            (congrFun (ReverseIndex.bind_lookup_erase _ _ _))
          accepting := coherent.accepting }
    · exact coherent.follows (.refl s)
  · exact coherent.follows (.refl s)

theorem registration?_modifyRegistration (s : Server) (i j : Nat)
    (f : TunnelRegistration → TunnelRegistration) :
    (s.modifyRegistration i f).registration? j =
      if i = j then (s.registration? j).map f else s.registration? j := by
  unfold registration? modifyRegistration modifyConnection
  simp only [List.getElem?_modify]
  cases s.connections[j]? with
  | none => simp
  | some c => by_cases same : i = j <;> simp [same]

/-- Turning visitors away. -/
def disable (reg : TunnelRegistration) : TunnelRegistration := { reg with acceptingVisitors := false }

theorem roster_modifyRegistration (s : Server) (i : Nat)
    (f : TunnelRegistration → TunnelRegistration) : (s.modifyRegistration i f).roster = s.roster := by
  unfold roster modifyRegistration modifyConnection
  refine congrArg (Roster.mk _ · _ _) (List.ext_getElem? fun j => ?_)
  simp only [List.getElem?_map, List.getElem?_modify]
  cases s.connections[j]? with
  | none => rfl
  | some c => by_cases same : i = j <;> simp [same, Connection.entry]

/-- A registration that serves no label may turn visitors away. -/
theorem Coherent.disable (coherent : s.Coherent) (idle : ∀ label, s.agents.lookup label ≠ some i) :
    (s.modifyRegistration i Server.disable).Coherent := by
  have same := roster_modifyRegistration s i Server.disable
  have from_ : ∀ j reg, (s.modifyRegistration i Server.disable).registration? j = some reg →
      ∃ old, s.registration? j = some old ∧ reg.accountId = old.accountId ∧
        reg.leaseId = old.leaseId ∧ (i ≠ j → reg = old) := by
    intro j reg found
    rw [registration?_modifyRegistration] at found
    split at found
    next here =>
      obtain ⟨old, there, rfl⟩ := Option.map_eq_some_iff.mp found
      exact ⟨old, there, rfl, rfl, fun apart => absurd here apart⟩
    next apart => exact ⟨reg, found, rfl, rfl, fun _ => rfl⟩
  constructor
  · rw [same]; exact coherent.sound
  · intro j reg found
    obtain ⟨old, there, account, lease, -⟩ := from_ j reg found
    rw [same, account, lease]
    exact coherent.linked j old there
  · intro j label stage
    rw [same] at stage
    obtain ⟨old, there⟩ := coherent.present j label stage
    rw [registration?_modifyRegistration, there]
    by_cases here : i = j
    · exact ⟨Server.disable old, by simp [here]⟩
    · exact ⟨old, by simp [here]⟩
  · rw [same]; exact coherent.accounts
  · rw [same]; exact coherent.leases
  · rw [same]; exact coherent.pendingLeases
  · intro label j reg serves found
    obtain ⟨old, there, -, -, apart⟩ := from_ j reg found
    have other : i ≠ j := fun here => idle label (here ▸ serves)
    rw [apart other]
    exact coherent.accepting label j old serves there

theorem accountHasLocalWork_modifyRegistration (s : Server) (i : Nat)
    {f : TunnelRegistration → TunnelRegistration} (same : ∀ reg, (f reg).accountId = reg.accountId)
    (accountId : String) :
    (s.modifyRegistration i f).accountHasLocalWork accountId = s.accountHasLocalWork accountId := by
  have accounts : ∀ j, ((s.modifyRegistration i f).registration? j).any (·.accountId == accountId) =
      (s.registration? j).any (·.accountId == accountId) := by
    intro j
    rw [registration?_modifyRegistration]
    cases s.registration? j with
    | none => simp
    | some reg => by_cases here : i = j <;> simp [here, same]
  unfold accountHasLocalWork
  simp only [accounts]
  rfl

theorem dropAccountBandwidthIfIdle_modifyRegistration (s : Server) (i : Nat)
    {f : TunnelRegistration → TunnelRegistration} (same : ∀ reg, (f reg).accountId = reg.accountId)
    (accountId : String) :
    (s.modifyRegistration i f).dropAccountBandwidthIfIdle accountId =
      (s.dropAccountBandwidthIfIdle accountId).modifyRegistration i f := by
  unfold dropAccountBandwidthIfIdle
  rw [accountHasLocalWork_modifyRegistration s i same]
  split <;> rfl

/-- Whether a registration turns visitors away before or after it leaves `_agents` makes no
difference. -/
theorem deregisterIfCurrent_disable (s : Server) (label : String) (i : Nat) :
    (s.modifyRegistration i disable).deregisterIfCurrent label i =
      (s.deregisterIfCurrent label i).modifyRegistration i disable := by
  unfold deregisterIfCurrent
  rw [registration?_modifyRegistration, if_pos rfl]
  cases s.registration? i with
  | none =>
    have same : (s.modifyRegistration i disable).agents.lookup label = s.agents.lookup label := rfl
    rw [same]
    cases s.agents.lookup label <;> rfl
  | some reg =>
    have same : (s.modifyRegistration i disable).agents.lookup label = s.agents.lookup label := rfl
    rw [same]
    cases s.agents.lookup label with
    | none => rfl
    | some current =>
      simp only [Option.map_some]
      split
      · exact dropAccountBandwidthIfIdle_modifyRegistration { s with
          agents := s.agents.erase label
          leaseLabels := unindexLeaseLabel s.leaseLabels label reg
          accountLabels := s.accountLabels.discard reg.accountId label } i (f := disable)
          (fun _ => rfl) reg.accountId
      · rfl

theorem dropPendingIfCurrent_disable (s : Server) (label : String) (i : Nat) :
    (s.modifyRegistration i disable).dropPendingIfCurrent label i =
      (s.dropPendingIfCurrent label i).modifyRegistration i disable := by
  unfold dropPendingIfCurrent
  have same : (s.modifyRegistration i disable).pendingAgents.lookup label =
      s.pendingAgents.lookup label := rfl
  rw [registration?_modifyRegistration, if_pos rfl, same]
  cases s.registration? i with
  | none => cases s.pendingAgents.lookup label <;> rfl
  | some reg =>
    cases s.pendingAgents.lookup label with
    | none => rfl
    | some current =>
      simp only [Option.map_some]
      split <;> rfl

/-- `_retire_registration` removes the registration, if it is the current one. -/
theorem follows_retireRegistration (coherent : s.Coherent) (label : String) (i : Nat)
    (reason : RetireReason) (timeout : ℚ) :
    Follows s (· = .remove i label) (s.retireRegistration label i reason timeout) := by
  unfold retireRegistration
  split
  next serves =>
    have removed := follows_deregisterIfCurrent coherent label i
    -- it served this one label, and serves it no longer
    have gone : ∀ other, (s.deregisterIfCurrent label i).agents.lookup other ≠ some i := by
      intro other still
      rw [coherent.agents_deregisterIfCurrent serves] at still
      by_cases same : other = label
      · subst same
        simp at still
      · rw [AList.lookup_erase_ne same] at still
        have one := (coherent.sound.active label i serves).symm.trans
          (coherent.sound.active other i still)
        simp only [Option.some.injEq, Stage.installed.injEq] at one
        exact same one.symm
    have disabled : Follows s (· = .remove i label)
        ((s.modifyRegistration i disable).deregisterIfCurrent label i) := by
      rw [deregisterIfCurrent_disable]
      obtain ⟨ms, runs, all⟩ := removed.runs
      exact ⟨removed.coherent.disable gone, ms, by rw [roster_modifyRegistration]; exact runs, all⟩
    refine disabled.quiet ?_
    cases reason <;> exact ⟨rfl, rfl, rfl, rfl, rfl, rfl, rfl⟩
  · exact coherent.follows (.refl s)

/-- `_retire_pending_registration` drops the registration, if it is the pending one. -/
theorem follows_retirePendingRegistration (coherent : s.Coherent) (label : String) (i : Nat) :
    Follows s (· = .drop i label) (s.retirePendingRegistration label i).2 := by
  unfold retirePendingRegistration
  split
  next holds =>
    have dropped := follows_dropPendingIfCurrent coherent label i
    have idle : ∀ other, (s.dropPendingIfCurrent label i).agents.lookup other ≠ some i := by
      intro other serves
      have same : (s.dropPendingIfCurrent label i).agents = s.agents := by
        unfold dropPendingIfCurrent
        split
        · split <;> rfl
        · rfl
      rw [same] at serves
      have both := (coherent.sound.active other i serves).symm.trans
        (coherent.sound.pending label i holds)
      simp at both
    have disabled : Follows s (· = .drop i label)
        ((s.modifyRegistration i disable).dropPendingIfCurrent label i) := by
      rw [dropPendingIfCurrent_disable]
      obtain ⟨ms, runs, all⟩ := dropped.runs
      exact ⟨dropped.coherent.disable idle, ms, by rw [roster_modifyRegistration]; exact runs, all⟩
    exact disabled.quiet ⟨rfl, rfl, rfl, rfl, rfl, rfl, rfl⟩
  · exact coherent.follows (.refl s)

/-- Changing how far one connection came. -/
theorem roster_modifyConnection {f : Connection → Connection} {t : Stage}
    (staged : ∀ c, s.connections[i]? = some c → (f c).entry = { c.entry with stage := t }) :
    (s.modifyConnection i f).roster = s.roster.setStage i t := by
  unfold roster modifyConnection Roster.setStage
  refine congrArg (Roster.mk _ · _ _) (List.ext_getElem? fun j => ?_)
  simp only [List.getElem?_map, List.getElem?_modify]
  cases found : s.connections[j]? with
  | none => rfl
  | some c =>
    by_cases same : i = j
    · subst same
      simp [staged c found]
    · simp [same]

theorem connection_modifyConnection {c : Connection} (found : s.connections[i]? = some c)
    (f : Connection → Connection) : (s.modifyConnection i f).connections[i]? = some (f c) := by
  simp [modifyConnection, found]

theorem registration?_modifyConnection (s : Server) (i j : Nat) (f : Connection → Connection) :
    (s.modifyConnection i f).registration? j =
      if i = j then (s.connections[j]?).bind fun c => (f c).registration else s.registration? j := by
  unfold registration? modifyConnection
  simp only [List.getElem?_modify]
  cases s.connections[j]? with
  | none => simp
  | some c => by_cases same : i = j <;> simp [same]

/-- A claim enters the label in `_pending_agents` and its index. -/
theorem follows_enterPending (coherent : s.Coherent) {c : Connection}
    (found : s.connections[i]? = some c) (waiting : c.phase = .admitted)
    (permits : s.roster.Permits c.entry label) {reg : TunnelRegistration}
    (account : reg.accountId = c.admission.lease.accountId)
    (lease : reg.leaseId = some c.admission.lease.leaseId) :
    Follows s (· = .claim i label) (s.enterPending i label reg) := by
  have entry : s.roster.entries[i]? = some c.entry := by simp [roster, found]
  have stage : c.entry.stage = .waiting := by simp [Connection.entry, waiting, Phase.stage]
  have here : s.roster.stage i = some .waiting := by simp [Roster.stage, entry, stage]
  have step := Roster.Steps.claim i c.entry label entry stage permits
  have moved : (s.enterPending i label reg).roster =
      { s.roster.setStage i (.claimed label) with pending := s.roster.pending.insert label i } := by
    have staged := roster_modifyConnection (s := s) (i := i) (t := .claimed label)
      (f := fun c => { c with phase := .claimed, label := label, registration := some reg })
      fun c _ => rfl
    rw [← staged]
    rfl
  have registered : ∀ j, (s.enterPending i label reg).registration? j =
      if i = j then some reg else s.registration? j := by
    intro j
    have changed := registration?_modifyConnection s i j
      fun c => { c with phase := .claimed, label := label, registration := some reg }
    by_cases same : i = j
    · subst same
      rw [if_pos rfl] at changed ⊢
      exact changed.trans (by simp [found])
    · rw [if_neg same] at changed ⊢
      exact changed
  refine follows_of_step ?_ (moved ▸ step) rfl
  constructor
  · rw [moved]; exact coherent.sound.step step
  · intro j reg' known
    rw [registered] at known
    rw [moved]
    split at known
    next same =>
      subst same
      cases known
      refine ⟨(Roster.account_setStage ..).trans ?_, (Roster.lease_setStage ..).trans ?_⟩
      · simp [Roster.account, entry, Connection.entry, account]
      · simp [Roster.lease, entry, Connection.entry, lease]
    next other =>
      obtain ⟨first, second⟩ := coherent.linked j reg' known
      exact ⟨(Roster.account_setStage ..).trans first, (Roster.lease_setStage ..).trans second⟩
  · intro j other staged
    rw [registered]
    by_cases same : i = j
    · exact ⟨reg, by simp [same]⟩
    · rw [if_neg same]
      rw [moved] at staged
      refine coherent.present j other ?_
      have kept := Roster.stage_setStage (r := s.roster) i j (.claimed label)
      rw [if_neg same] at kept
      exact staged.imp kept.symm.trans kept.symm.trans
  · rw [moved]
    refine coherent.accounts.congr fun l => ?_
    simp only [Roster.activeAccount, Roster.agents_setStage]
    exact congrArg _ (funext fun j => Roster.account_setStage ..)
  · rw [moved]
    refine coherent.leases.congr fun l => ?_
    simp only [Roster.activeLease, Roster.agents_setStage]
    exact congrArg _ (funext fun j => Roster.lease_setStage ..)
  · rw [moved]
    have free : s.roster.pendingLease label = none := by
      simp [Roster.pendingLease, permits.free]
    refine (inverts_indexLeaseLabel coherent.pendingLeases reg free).congr fun l => ?_
    have inserted := congrFun (ReverseIndex.bind_lookup_insert s.pendingAgents label i s.roster.lease) l
    have owner : s.roster.lease i = reg.leaseId := by
      simp [Roster.lease, entry, Connection.entry, lease]
    rw [owner] at inserted
    refine Eq.trans ?_ inserted
    simp only [Roster.pendingLease]
    exact congrArg _ (funext fun j => Roster.lease_setStage ..)
  · intro other j reg' serves known
    rw [registered] at known
    split at known
    next same =>
      subst same
      have active := coherent.sound.active other i serves
      rw [here] at active
      cases active
    · exact coherent.accepting other j reg' serves known

/-- Without a change of account, the registration that held the label leaves the index of
its lease only. -/
theorem unindexPrevious_eq {reg : TunnelRegistration}
    (same : ∀ old, (s.agents.lookup label).bind s.registration? = some old →
      old.accountId = reg.accountId) :
    s.unindexPrevious label reg = { s with
      leaseLabels := ((s.agents.lookup label).bind s.registration?).elim s.leaseLabels
        (unindexLeaseLabel s.leaseLabels label) } := by
  unfold unindexPrevious
  cases previous : (s.agents.lookup label).bind s.registration? with
  | none => rfl
  | some old => simp [same old previous]

/-- What the install leaves of the connection itself. -/
def Connection.installed (opened : Bool) (c : Connection) : Connection :=
  { c with
    registration := c.registration.map fun reg => { reg with acceptingVisitors := true }
    phase := .running opened
    renewal :=
      if c.registration.any fun reg => reg.leaseExpiresAt.isSome then .head else .off }

/-- The state after an install that is not stale. -/
theorem install_eq (opened : Bool) {c : Connection} {reg : TunnelRegistration}
    (found : s.connections[i]? = some c) (registered : c.registration = some reg)
    (pending : s.pendingAgents.lookup c.label = some i)
    (apart : ∀ j, s.agents.lookup c.label = some j → j ≠ i)
    (agree : ∀ old, (s.agents.lookup c.label).bind s.registration? = some old →
      old.accountId = reg.accountId) :
    ∃ closes, s.install i c opened = { s.modifyConnection i (Connection.installed opened) with
      agents := s.agents.insert c.label i
      pendingAgents := s.pendingAgents.erase c.label
      accountLabels := s.accountLabels.add reg.accountId c.label
      leaseLabels := indexLeaseLabel (((s.agents.lookup c.label).bind s.registration?).elim
        s.leaseLabels (unindexLeaseLabel s.leaseLabels c.label)) c.label reg
      pendingLeaseLabels := unindexLeaseLabel s.pendingLeaseLabels c.label reg
      pendingCloses := closes } := by
  have known : s.registration? i = some reg := by simp [registration?, found, registered]
  have ready : s.isPending i c = true := by simp [isPending, pending]
  -- the state in which `_install_registration` looks at the label
  let t : Server := Server.modifyRegistration { s with
      pendingLeaseLabels := unindexLeaseLabel s.pendingLeaseLabels c.label reg
      pendingAgents := s.pendingAgents.erase c.label } i
    fun reg => { reg with acceptingVisitors := true }
  have previous : (t.agents.lookup c.label).bind t.registration? =
      (s.agents.lookup c.label).bind s.registration? := by
    show (s.agents.lookup c.label).bind t.registration? = _
    cases serves : s.agents.lookup c.label with
    | none => rfl
    | some j =>
      have other := registration?_modifyRegistration { s with
        pendingLeaseLabels := unindexLeaseLabel s.pendingLeaseLabels c.label reg
        pendingAgents := s.pendingAgents.erase c.label } i j
        fun reg => { reg with acceptingVisitors := true }
      rw [if_neg (Ne.symm (apart j serves))] at other
      exact other
  have unindexed : t.unindexPrevious c.label { reg with acceptingVisitors := true } = _ :=
    unindexPrevious_eq (by rw [previous]; exact agree)
  rw [previous] at unindexed
  have connections : ((t.connections.modify i fun c => { c with phase := .running opened }).modify i
      fun c => { c with renewal := if reg.leaseExpiresAt.isSome then .head else .off }) =
        s.connections.modify i (Connection.installed opened) := by
    apply List.ext_getElem?
    intro j
    show (((s.connections.modify i _).modify i _).modify i _)[j]? = _
    simp only [List.getElem?_modify]
    by_cases same : i = j
    · subst same
      simp [found, registered, Connection.installed]
    · cases s.connections[j]? <;> simp [same]
  have result : ((t.installRegistration c.label i { reg with acceptingVisitors := true }).setPhase i
      (.running opened)).setRenewal i (if reg.leaseExpiresAt.isSome then .head else .off) =
      { s.modifyConnection i (Connection.installed opened) with
        agents := s.agents.insert c.label i
        pendingAgents := s.pendingAgents.erase c.label
        accountLabels := s.accountLabels.add reg.accountId c.label
        leaseLabels := indexLeaseLabel (((s.agents.lookup c.label).bind s.registration?).elim
          s.leaseLabels (unindexLeaseLabel s.leaseLabels c.label)) c.label reg
        pendingLeaseLabels := unindexLeaseLabel s.pendingLeaseLabels c.label reg } := by
    unfold installRegistration
    rw [unindexed]
    exact congrArg (fun l => ({ s with
      connections := l
      agents := s.agents.insert c.label i
      pendingAgents := s.pendingAgents.erase c.label
      accountLabels := s.accountLabels.add reg.accountId c.label
      leaseLabels := indexLeaseLabel (((s.agents.lookup c.label).bind s.registration?).elim
        s.leaseLabels (unindexLeaseLabel s.leaseLabels c.label)) c.label reg
      pendingLeaseLabels := unindexLeaseLabel s.pendingLeaseLabels c.label reg } : Server)) connections
  unfold install
  simp only [known, ready, if_true]
  cases serves : s.agents.lookup c.label with
  | none =>
    rw [serves] at result
    exact ⟨_, result⟩
  | some old =>
    rw [serves] at result
    exact ⟨_, congrArg (fun u => { u with
      pendingCloses := u.pendingCloses ++ [Teardown.close old 4003 "superseded"] }) result⟩

/-- Who is about to be installed has its registration, serves no label yet and belongs to the
account that holds the label. -/
theorem Coherent.installable (coherent : s.Coherent) {c : Connection}
    (found : s.connections[i]? = some c) (pending : s.pendingAgents.lookup c.label = some i) :
    ∃ reg, c.registration = some reg ∧ s.roster.pendingAccount c.label = some reg.accountId ∧
      s.roster.pendingLease c.label = reg.leaseId ∧
      (∀ j, s.agents.lookup c.label = some j → j ≠ i) ∧
      ∀ old, (s.agents.lookup c.label).bind s.registration? = some old →
        old.accountId = reg.accountId := by
  obtain ⟨reg, known, pendingAccount, pendingLease⟩ := coherent.pending pending
  have registered : c.registration = some reg := by simpa [registration?, found] using known
  refine ⟨reg, registered, pendingAccount, pendingLease, ?_, fun old held => ?_⟩
  · rintro j serves rfl
    have both := (coherent.sound.active c.label j serves).symm.trans
      (coherent.sound.pending c.label j pending)
    simp at both
  · obtain ⟨j, serves, there⟩ := Option.bind_eq_some_iff.mp held
    obtain ⟨old', there', account, -⟩ := coherent.active serves
    rw [there] at there'
    cases there'
    exact coherent.sound.agree c.label _ _ account pendingAccount

/-- An install moves the label from the pending to the active maps, or finds the
registration gone. -/
theorem follows_install (coherent : s.Coherent) {c : Connection} {opened : Bool}
    (found : s.connections[i]? = some c) (readied : c.phase = .readied opened) :
    Follows s (· = .install i c.label) (s.install i c opened) := by
  have entry : s.roster.entries[i]? = some c.entry := by simp [roster, found]
  have stage : s.roster.stage i = some (.claimed c.label) := by
    simp [Roster.stage, entry, Connection.entry, readied, Phase.stage]
  cases ready : s.isPending i c with
  | false =>
    obtain ⟨reg, known⟩ := coherent.present i c.label (Or.inl stage)
    unfold install
    simp only [known, ready, Bool.false_eq_true, if_false]
    refine coherent.follows (quiet_setPhase fun c' found' => ?_)
    rw [found] at found'
    cases found'
    simp [readied, Phase.stage, Ending.stage]
  | true =>
    have pending : s.pendingAgents.lookup c.label = some i := by simpa [isPending] using ready
    obtain ⟨reg, registered, pendingAccount, pendingLease, apart, agree⟩ :=
      coherent.installable found pending
    have known : s.registration? i = some reg := by simp [registration?, found, registered]
    obtain ⟨closes, result⟩ := install_eq opened found registered pending apart agree
    generalize s.install i c opened = u at result
    have step := Roster.Steps.install (r := s.roster) i c.label pending
    have moved : u.roster = { s.roster.setStage i (.installed c.label) with
        pending := s.roster.pending.erase c.label
        agents := s.roster.agents.insert c.label i } := by
      have staged := roster_modifyConnection (s := s) (i := i) (t := .installed c.label)
        (f := Connection.installed opened) fun c' found' => by
          rw [found] at found'
          cases found'
          rfl
      rw [← staged, result]
      rfl
    have registrations : ∀ j, u.registration? j =
        if i = j then some { reg with acceptingVisitors := true } else s.registration? j := by
      intro j
      have changed := registration?_modifyConnection s i j (Connection.installed opened)
      rw [result]
      by_cases same : i = j
      · subst same
        rw [if_pos rfl] at changed ⊢
        exact changed.trans (by simp [found, Connection.installed, registered])
      · rw [if_neg same] at changed ⊢
        exact changed
    have owner := coherent.linked i reg known
    refine follows_of_step ?_ (moved ▸ step) rfl
    constructor
    · rw [moved]; exact coherent.sound.step step
    · intro j reg' there
      rw [registrations] at there
      rw [moved]
      split at there
      next same =>
        subst same
        cases there
        exact ⟨(Roster.account_setStage ..).trans owner.1, (Roster.lease_setStage ..).trans owner.2⟩
      next other =>
        obtain ⟨first, second⟩ := coherent.linked j reg' there
        exact ⟨(Roster.account_setStage ..).trans first, (Roster.lease_setStage ..).trans second⟩
    · intro j other staged
      rw [registrations]
      by_cases same : i = j
      · exact ⟨_, if_pos same⟩
      · rw [if_neg same]
        rw [moved] at staged
        refine coherent.present j other ?_
        have kept := Roster.stage_setStage (r := s.roster) i j (.installed c.label)
        rw [if_neg same] at kept
        exact staged.imp kept.symm.trans kept.symm.trans
    · -- a label that the account had is added again, a free one is new
      rw [moved, result]
      have free : s.roster.activeAccount c.label = none ∨
          s.roster.activeAccount c.label = some reg.accountId := by
        cases held : s.roster.activeAccount c.label with
        | none => exact Or.inl rfl
        | some account =>
          exact Or.inr (by rw [coherent.sound.agree c.label _ _ held pendingAccount])
      refine (coherent.accounts.add free).congr fun l => ?_
      have inserted :=
        congrFun (ReverseIndex.bind_lookup_insert s.agents c.label i s.roster.account) l
      rw [owner.1] at inserted
      refine Eq.trans ?_ inserted
      simp only [Roster.activeAccount]
      exact congrArg _ (funext fun j => Roster.account_setStage ..)
    · rw [moved, result]
      have cleared : ReverseIndex.Inverts (((s.agents.lookup c.label).bind s.registration?).elim
          s.leaseLabels (unindexLeaseLabel s.leaseLabels c.label))
          (Function.update s.roster.activeLease c.label none) := by
        cases serves : s.agents.lookup c.label with
        | none =>
          have unheld : s.roster.activeLease c.label = none := by
            simp [Roster.activeLease, roster, serves]
          exact coherent.leases.congr fun l => by by_cases same : l = c.label <;> simp_all
        | some j =>
          obtain ⟨old, there, -, lease⟩ := coherent.active serves
          simp only [Option.bind_some, there, Option.elim_some]
          exact inverts_unindexLeaseLabel coherent.leases lease
      refine (inverts_indexLeaseLabel cleared reg (by simp)).congr fun l => ?_
      have inserted := congrFun (ReverseIndex.bind_lookup_insert s.agents c.label i s.roster.lease) l
      rw [owner.2] at inserted
      refine Eq.trans (Eq.trans ?_ inserted) ?_
      · simp only [Roster.activeLease]
        exact congrArg _ (funext fun j => Roster.lease_setStage ..)
      · rw [Function.update_idem]
        rfl
    · rw [moved, result]
      refine (inverts_unindexLeaseLabel coherent.pendingLeases pendingLease).congr fun l => ?_
      have erased := congrFun (ReverseIndex.bind_lookup_erase s.pendingAgents c.label s.roster.lease) l
      refine Eq.trans ?_ erased
      simp only [Roster.pendingLease]
      exact congrArg _ (funext fun j => Roster.lease_setStage ..)
    · intro other j reg' serves there
      rw [registrations] at there
      split at there
      · cases there
        rfl
      next apart' =>
        have before : s.agents.lookup other = some j := by
          rw [result] at serves
          by_cases same : other = c.label
          · subst same
            simp only [AList.lookup_insert, Option.some.injEq] at serves
            exact absurd serves apart'
          · rwa [AList.lookup_insert_ne same] at serves
        exact coherent.accepting other j reg' before there

end

end Server

end Chute
