import Chute.Server.Permanence

/-!
# Revocation against a plain scan

`revoke_lease` finds its registrations by the lease indexes, which shrink while it retires
them. A scan of `_agents` and `_pending_agents` before the call says the same: these rows go,
they are counted, and nothing else moves.
-/
namespace Chute

namespace Server

variable {s s' t : Server} {leaseId label : String} {i : Nat}

/-! ### What the call is for -/

/-- The rows of a table whose registration has the lease, without an index. -/
def scanForLease (s : Server) (table : AList fun _ : String => Nat) (leaseId : String) :
    List (String × Nat) :=
  (table.entries.map fun e => (e.1, e.2)).filter fun row =>
    (s.registration? row.2).any fun reg => reg.leaseId == some leaseId

/-- The connection's registration turns visitors away. -/
def turnAway (c : Connection) : Connection := { c with registration := c.registration.map disable }

/-- The index has lost these labels and nothing else, and keeps no key without a label. -/
structure Loses (before after : ReverseIndex String String) (labels : List String) : Prop where
  members : ∀ key label, label ∈ after.members key ↔ label ∈ before.members key ∧ label ∉ labels
  keys : ∀ key, key ∈ after ↔ after.members key ≠ []

/-- `s'` is `s` without the registrations that have the lease, of which there are `revoked`. -/
structure RevokesLease (s : Server) (leaseId : String) (revoked : Nat) (s' : Server) : Prop where
  agents : ∀ label i, s'.agents.lookup label = some i ↔
    s.agents.lookup label = some i ∧ (label, i) ∉ s.scanForLease s.agents leaseId
  pendingAgents : ∀ label i, s'.pendingAgents.lookup label = some i ↔
    s.pendingAgents.lookup label = some i ∧ (label, i) ∉ s.scanForLease s.pendingAgents leaseId
  count : revoked =
    (s.scanForLease s.agents leaseId).length + (s.scanForLease s.pendingAgents leaseId).length
  counter : s'.leaseRevocations = s.leaseRevocations + revoked
  closed : ∀ row ∈ s.scanForLease s.agents leaseId ++ s.scanForLease s.pendingAgents leaseId,
    ∃ reg, s'.registration? row.2 = some reg ∧ reg.acceptingVisitors = false
  connections : ∀ j, s'.connections[j]? =
    if j ∈ (s.scanForLease s.agents leaseId ++ s.scanForLease s.pendingAgents leaseId).map Prod.snd then
      (s.connections[j]?).map turnAway
    else s.connections[j]?
  accountLabels : Loses s.accountLabels s'.accountLabels ((s.scanForLease s.agents leaseId).map Prod.fst)
  leaseLabels : Loses s.leaseLabels s'.leaseLabels ((s.scanForLease s.agents leaseId).map Prod.fst)
  pendingLeaseLabels : Loses s.pendingLeaseLabels s'.pendingLeaseLabels
    ((s.scanForLease s.pendingAgents leaseId).map Prod.fst)
  again : ∀ action, s'.revokeLease leaseId action = (0, s')

/-! ### The index and the scan -/

theorem mem_scanForLease {table : AList fun _ : String => Nat} :
    (label, i) ∈ s.scanForLease table leaseId ↔
      table.lookup label = some i ∧ ∃ reg, s.registration? i = some reg ∧ reg.leaseId = some leaseId := by
  unfold scanForLease
  rw [List.mem_filter, List.mem_map, Option.any_eq_true]
  simp only [beq_iff_eq]
  refine and_congr_left fun _ => ?_
  constructor
  · rintro ⟨e, member, same⟩
    cases same
    exact AList.mem_lookup_iff.mpr member
  · exact fun found => ⟨⟨label, i⟩, AList.mem_lookup_iff.mp found, rfl⟩

theorem nodup_scanForLease (table : AList fun _ : String => Nat) :
    (s.scanForLease table leaseId).Nodup := by
  refine List.Nodup.filter _ (List.Nodup.map ?_ table.nodupKeys.nodup)
  rintro ⟨label, i⟩ ⟨label', i'⟩ same
  cases same
  rfl

/-- The candidates are listed once each. -/
theorem nodup_registrationsForLeaseIndex {index : ReverseIndex String String}
    (table : AList fun _ : String => Nat)
    (proper : ∀ labels, index.lookup leaseId = some labels → labels.Nodup) :
    (s.registrationsForLeaseIndex leaseId index table).1.Nodup := by
  unfold registrationsForLeaseIndex
  cases found : index.lookup leaseId with
  | none =>
    refine List.Nodup.filterMap ?_ table.nodupKeys.nodup
    rintro ⟨label, i⟩ ⟨label', i'⟩ row first second
    simp only [Option.mem_def, Option.ite_none_right_eq_some, Option.some.injEq] at first second
    cases first.2.trans second.2.symm
    rfl
  | some labels =>
    refine List.Nodup.filterMap ?_ (proper labels found)
    rintro label label' ⟨other, i⟩ first second
    simp only [Option.mem_def, Option.ite_none_right_eq_some, Option.map_eq_some_iff, Prod.mk.injEq]
      at first second
    obtain ⟨-, _, -, rfl, -⟩ := first
    obtain ⟨-, _, -, same, -⟩ := second
    exact same.symm

/-- A scan of `_agents` finds what the lease index leads to, in another order. -/
theorem Coherent.perm_scan (coherent : s.Coherent) (leaseId : String) :
    (s.registrationsForLeaseIndex leaseId s.leaseLabels s.agents).1.Perm
      (s.scanForLease s.agents leaseId) := by
  have unique := nodup_registrationsForLeaseIndex (s := s) s.agents
    fun labels found => (coherent.leases.proper leaseId labels found).2
  refine (List.perm_ext_iff_of_nodup unique (nodup_scanForLease _)).mpr ?_
  rintro ⟨label, i⟩
  rw [(coherent.registrationsForLease leaseId).2, mem_scanForLease]
  refine and_congr_right fun serves => ?_
  obtain ⟨reg, found, -⟩ := coherent.active serves
  rw [(coherent.linked i reg found).2]
  exact ⟨fun has => ⟨reg, found, has⟩, fun ⟨_, found', has⟩ => by cases found.symm.trans found'; exact has⟩

theorem Coherent.perm_scan_pending (coherent : s.Coherent) (leaseId : String) :
    (s.registrationsForLeaseIndex leaseId s.pendingLeaseLabels s.pendingAgents).1.Perm
      (s.scanForLease s.pendingAgents leaseId) := by
  have unique := nodup_registrationsForLeaseIndex (s := s) s.pendingAgents
    fun labels found => (coherent.pendingLeases.proper leaseId labels found).2
  refine (List.perm_ext_iff_of_nodup unique (nodup_scanForLease _)).mpr ?_
  rintro ⟨label, i⟩
  rw [(coherent.pendingRegistrationsForLease leaseId).2, mem_scanForLease]
  refine and_congr_right fun holds => ?_
  obtain ⟨reg, found, -⟩ := coherent.pending holds
  rw [(coherent.linked i reg found).2]
  exact ⟨fun has => ⟨reg, found, has⟩, fun ⟨_, found', has⟩ => by cases found.symm.trans found'; exact has⟩

/-! ### What the loops do -/

theorem turnAway_turnAway (c : Connection) : turnAway (turnAway c) = turnAway c := by
  cases c with
  | mk _ _ _ _ _ _ registration => cases registration <;> rfl

/-- These rows were retired for a revocation. -/
structure Retired (s t : Server) (rows : List (String × Nat)) : Prop where
  connections : ∀ j, t.connections[j]? =
    if j ∈ rows.map Prod.snd then (s.connections[j]?).map turnAway else s.connections[j]?
  counter : t.leaseRevocations = s.leaseRevocations + rows.length

theorem Retired.refl (s : Server) : Retired s s [] := ⟨fun _ => rfl, rfl⟩

theorem Retired.append {rows rows' : List (String × Nat)} (first : Retired s t rows)
    (second : Retired t s' rows') : Retired s s' (rows ++ rows') := by
  constructor
  · intro j
    rw [second.connections, first.connections]
    simp only [List.map_append, List.mem_append]
    by_cases early : j ∈ rows.map Prod.snd
    · by_cases late : j ∈ rows'.map Prod.snd
      · simp only [early, late, if_true, or_self, Option.map_map]
        exact congrArg (Option.map · _) (funext turnAway_turnAway)
      · simp only [early, late, if_true, if_false, or_false]
    · simp only [early, if_false, false_or]
  · rw [second.counter, first.counter, List.length_append, Nat.add_assoc]

/-- Retiring does not touch the leases. -/
theorem Retired.scanForLease {rows : List (String × Nat)} (retired : Retired s t rows)
    (table : AList fun _ : String => Nat) (leaseId : String) :
    t.scanForLease table leaseId = s.scanForLease table leaseId := by
  refine List.filter_congr fun row _ => ?_
  have same : t.registration? row.2 = if row.2 ∈ rows.map Prod.snd then
      (s.registration? row.2).map disable else s.registration? row.2 := by
    unfold registration?
    rw [retired.connections]
    split
    · cases s.connections[row.2]? <;> rfl
    · rfl
  rw [same]
  split
  · cases s.registration? row.2 <;> rfl
  · rfl

theorem retired_disable (s : Server) (i : Nat) :
    ∀ j, (s.modifyRegistration i disable).connections[j]? =
      if j ∈ [i] then (s.connections[j]?).map turnAway else s.connections[j]? := by
  intro j
  simp only [modifyRegistration, modifyConnection, List.getElem?_modify, List.mem_singleton]
  by_cases here : i = j
  · simp only [here, if_true]
    rfl
  · simp only [here, Ne.symm here, if_false, id_map']

/-- `_deregister_if_current` leaves the pending maps and the counter alone. -/
theorem frame_deregisterIfCurrent (s : Server) (label : String) (i : Nat) :
    (s.deregisterIfCurrent label i).pendingAgents = s.pendingAgents ∧
      (s.deregisterIfCurrent label i).pendingLeaseLabels = s.pendingLeaseLabels ∧
        (s.deregisterIfCurrent label i).leaseRevocations = s.leaseRevocations := by
  unfold deregisterIfCurrent dropAccountBandwidthIfIdle
  split
  · split
    · split <;> exact ⟨rfl, rfl, rfl⟩
    · exact ⟨rfl, rfl, rfl⟩
  · exact ⟨rfl, rfl, rfl⟩

/-- One round of the loop over the active registrations. -/
theorem Coherent.retires (coherent : s.Coherent) (serves : s.agents.lookup label = some i) (timeout : ℚ) :
    Retired s (s.retireRegistration label i .leaseRevoked timeout) [(label, i)] ∧
      (s.retireRegistration label i .leaseRevoked timeout).agents = s.agents.erase label ∧
        (s.retireRegistration label i .leaseRevoked timeout).pendingAgents = s.pendingAgents := by
  obtain ⟨pending, -, counter⟩ := frame_deregisterIfCurrent s label i
  have whole : s.retireRegistration label i .leaseRevoked timeout =
      { (s.deregisterIfCurrent label i).modifyRegistration i Server.disable with
        leaseRevocations := (s.deregisterIfCurrent label i).leaseRevocations + 1
        pendingCloses := (s.deregisterIfCurrent label i).pendingCloses ++ [.drain i timeout] } := by
    have order := deregisterIfCurrent_disable s label i
    unfold Server.disable at order
    rw [retireRegistration, if_pos serves]
    simp only [order]
    rfl
  have connections : ((s.deregisterIfCurrent label i).modifyRegistration i Server.disable).connections =
      (s.modifyRegistration i Server.disable).connections := by
    unfold modifyRegistration modifyConnection
    rw [connections_deregisterIfCurrent]
  rw [whole]
  refine ⟨⟨fun j => ?_, congrArg (· + 1) counter⟩, coherent.agents_deregisterIfCurrent serves, pending⟩
  exact (congrArg (fun list : List Connection => list[j]?) connections).trans (retired_disable s i j)

/-- One round of the loop over the pending registrations. -/
theorem Coherent.retires_pending (coherent : s.Coherent) (holds : s.pendingAgents.lookup label = some i) :
    (s.retirePendingRegistration label i).1 = true ∧
      Retired s (s.retirePendingRegistration label i).2 [(label, i)] ∧
        (s.retirePendingRegistration label i).2.agents = s.agents ∧
          (s.retirePendingRegistration label i).2.pendingAgents = s.pendingAgents.erase label := by
  obtain ⟨reg, found, -⟩ := coherent.pending holds
  have found' : (s.modifyRegistration i Server.disable).registration? i = some (Server.disable reg) := by
    rw [registration?_modifyRegistration, if_pos rfl, found]
    rfl
  have dropped : (s.modifyRegistration i Server.disable).dropPendingIfCurrent label i =
      { s.modifyRegistration i Server.disable with
        pendingLeaseLabels := unindexLeaseLabel s.pendingLeaseLabels label (Server.disable reg)
        pendingAgents := s.pendingAgents.erase label } := by
    have holds' : (s.modifyRegistration i Server.disable).pendingAgents.lookup label = some i := holds
    rw [dropPendingIfCurrent, holds', found']
    exact if_pos rfl
  unfold Server.disable at dropped
  rw [retirePendingRegistration, if_pos holds]
  simp only [dropped]
  exact ⟨trivial, ⟨retired_disable s i, rfl⟩, rfl, trivial⟩

/-- A row that is not the first of the list survives the removal of the first. -/
theorem lookup_erase_rest {table : AList fun _ : String => Nat} {row : String × Nat}
    {rest : List (String × Nat)} (unique : (row :: rest).Nodup)
    (current : ∀ e ∈ row :: rest, table.lookup e.1 = some e.2) :
    ∀ e ∈ rest, (table.erase row.1).lookup e.1 = some e.2 := by
  intro e member
  have there := current e (List.mem_cons_of_mem _ member)
  have apart : e.1 ≠ row.1 := by
    intro same
    have first := current row List.mem_cons_self
    rw [← same, there] at first
    have equal : e = row := Prod.ext same (Option.some.inj first)
    exact (List.nodup_cons.mp unique).1 (equal ▸ member)
  rwa [AList.lookup_erase_ne apart]

/-- The table after a row and then the rest of them went. -/
theorem lookup_erase_iff {table : AList fun _ : String => Nat} {row : String × Nat}
    {rest : List (String × Nat)} (current : table.lookup row.1 = some row.2) (label : String) (i : Nat) :
    (table.erase row.1).lookup label = some i ∧ (label, i) ∉ rest ↔
      table.lookup label = some i ∧ (label, i) ∉ row :: rest := by
  by_cases same : label = row.1
  · subst same
    rw [AList.lookup_erase, current]
    refine iff_of_false (fun both => nomatch both.1) ?_
    rintro ⟨found, other⟩
    cases found
    exact other List.mem_cons_self
  · have apart : (label, i) ≠ row := fun equal => same (congrArg Prod.fst equal)
    rw [AList.lookup_erase_ne same, List.mem_cons, not_or]
    exact ⟨fun both => ⟨both.1, apart, both.2⟩, fun both => ⟨both.1, both.2.2⟩⟩

/-- The loop over the active registrations. -/
theorem Coherent.retires_all (coherent : s.Coherent) (timeout : ℚ) {rows : List (String × Nat)}
    (unique : rows.Nodup) (current : ∀ e ∈ rows, s.agents.lookup e.1 = some e.2)
    (ended : rows.foldl (fun s e => s.retireRegistration e.1 e.2 .leaseRevoked timeout) s = t) :
    t.Coherent ∧ Retired s t rows ∧ t.pendingAgents = s.pendingAgents ∧
      ∀ label i, t.agents.lookup label = some i ↔ s.agents.lookup label = some i ∧ (label, i) ∉ rows := by
  induction rows generalizing s with
  | nil =>
    subst ended
    exact ⟨coherent, .refl _, rfl, fun label i => by simp⟩
  | cons row rest ih =>
    have serves := current row List.mem_cons_self
    obtain ⟨first, agents, pending⟩ := coherent.retires serves timeout
    have coherent' := (follows_retireRegistration coherent row.1 row.2 .leaseRevoked timeout).coherent
    have rest_current := lookup_erase_rest unique current
    rw [← agents] at rest_current
    obtain ⟨last, later, pending', lookups⟩ := ih coherent' (List.nodup_cons.mp unique).2 rest_current ended
    refine ⟨last, first.append later, pending'.trans pending, fun label i => ?_⟩
    rw [lookups, agents]
    exact lookup_erase_iff serves label i

/-- The loop over the pending registrations. -/
theorem Coherent.retires_pendings (coherent : s.Coherent) {rows : List (String × Nat)}
    (unique : rows.Nodup) (current : ∀ e ∈ rows, s.pendingAgents.lookup e.1 = some e.2) {revoked n : Nat}
    (ended : s.retirePending revoked rows = (n, t)) :
    t.Coherent ∧ n = revoked + rows.length ∧ Retired s t rows ∧ t.agents = s.agents ∧
      ∀ label i, t.pendingAgents.lookup label = some i ↔
        s.pendingAgents.lookup label = some i ∧ (label, i) ∉ rows := by
  induction rows generalizing s revoked with
  | nil =>
    cases ended
    exact ⟨coherent, rfl, .refl _, rfl, fun label i => by simp⟩
  | cons row rest ih =>
    obtain ⟨label, i⟩ := row
    have holds := current (label, i) List.mem_cons_self
    obtain ⟨dropped, first, agents, pending⟩ := coherent.retires_pending holds
    have coherent' := (follows_retirePendingRegistration coherent label i).coherent
    have rest_current := lookup_erase_rest unique current
    rw [← pending] at rest_current
    have next : s.retirePending revoked ((label, i) :: rest) =
        (s.retirePendingRegistration label i).2.retirePending (revoked + 1) rest := by
      rw [retirePending.eq_def]
      cases done : s.retirePendingRegistration label i with
      | mk dropped' u =>
        rw [done] at dropped
        simp only at dropped
        simp only [done, dropped]
    rw [next] at ended
    obtain ⟨last, count, later, agents', lookups⟩ :=
      ih coherent' (List.nodup_cons.mp unique).2 rest_current ended
    refine ⟨last, by rw [count, List.length_cons]; omega, first.append later, agents'.trans agents,
      fun label' j => ?_⟩
    rw [lookups, pending]
    exact lookup_erase_iff holds label' j

/-! ### The whole call -/

/-- Reverse indexes before and after the labels lost their keys. -/
theorem loses_of_inverts {before after : ReverseIndex String String} {f f' : String → Option String}
    {labels : List String} (old : before.Inverts f) (new : after.Inverts f')
    (lost : ∀ label key, f' label = some key ↔ f label = some key ∧ label ∉ labels) :
    Loses before after labels where
  members := fun key label => by rw [new.mem, old.mem, lost]
  keys := fun key => by
    rw [new.mem_iff]
    constructor
    · rintro ⟨label, here⟩ empty
      have member := (new.mem key label).mpr here
      rw [empty] at member
      cases member
    · intro nonempty
      obtain ⟨label, member⟩ := List.exists_mem_of_ne_nil _ nonempty
      exact ⟨label, (new.mem key label).mp member⟩

/-- What a table leads to after some of its rows went. -/
theorem bind_lookup_lost {table table' : AList fun _ : String => Nat} {rows : List (String × Nat)}
    (current : ∀ e ∈ rows, table.lookup e.1 = some e.2)
    (lookups : ∀ label i, table'.lookup label = some i ↔ table.lookup label = some i ∧ (label, i) ∉ rows)
    (key : Nat → Option String) (label k : String) :
    (table'.lookup label).bind key = some k ↔
      (table.lookup label).bind key = some k ∧ label ∉ rows.map Prod.fst := by
  simp only [Option.bind_eq_some_iff, lookups]
  constructor
  · rintro ⟨i, ⟨found, kept⟩, belongs⟩
    refine ⟨⟨i, found, belongs⟩, fun gone => ?_⟩
    obtain ⟨row, member, rfl⟩ := List.mem_map.mp gone
    rw [current row member] at found
    cases found
    exact kept member
  · rintro ⟨⟨i, found, belongs⟩, kept⟩
    exact ⟨i, ⟨found, fun member => kept (List.mem_map_of_mem member)⟩, belongs⟩

/-- A coherent relay in which nothing has the lease is left as it is. -/
theorem Coherent.revokeLease_none (coherent : s.Coherent)
    (idle : s.scanForLease s.agents leaseId = [] ∧ s.scanForLease s.pendingAgents leaseId = [])
    (action : RevocationAction) : s.revokeLease leaseId action = (0, s) := by
  have active := coherent.perm_scan leaseId
  have pending := coherent.perm_scan_pending leaseId
  rw [idle.1] at active
  rw [idle.2] at pending
  unfold revokeLease
  split
  · rfl
  · simp only [(coherent.registrationsForLease leaseId).1, (coherent.pendingRegistrationsForLease leaseId).1,
      active.eq_nil, pending.eq_nil, List.foldl_nil, List.length_nil]
    rfl

/-- What the two loops leave, when the lease has a name. -/
theorem Coherent.revokeLease_retires (coherent : s.Coherent) (named : leaseId ≠ "")
    (action : RevocationAction) :
    (s.revokeLease leaseId action).2.Coherent ∧
      ∃ rows pendingRows : List (String × Nat), rows.Perm (s.scanForLease s.agents leaseId) ∧
        pendingRows.Perm (s.scanForLease s.pendingAgents leaseId) ∧
        (s.revokeLease leaseId action).1 = rows.length + pendingRows.length ∧
        Retired s (s.revokeLease leaseId action).2 (rows ++ pendingRows) ∧
        (∀ label i, (s.revokeLease leaseId action).2.agents.lookup label = some i ↔
          s.agents.lookup label = some i ∧ (label, i) ∉ rows) ∧
        ∀ label i, (s.revokeLease leaseId action).2.pendingAgents.lookup label = some i ↔
          s.pendingAgents.lookup label = some i ∧ (label, i) ∉ pendingRows := by
  obtain ⟨unchanged, members⟩ := coherent.registrationsForLease leaseId
  have perm := coherent.perm_scan leaseId
  have unique := perm.nodup_iff.mpr (nodup_scanForLease _)
  unfold revokeLease
  rw [if_neg named]
  simp only [unchanged]
  generalize (s.registrationsForLeaseIndex leaseId s.leaseLabels s.agents).1 = rows at members perm unique
  generalize first : rows.foldl _ s = t
  obtain ⟨coherent', retired, pendingAgents, lookups⟩ := coherent.retires_all _ unique
    (fun e member => ((members e.1 e.2).mp member).1) first
  obtain ⟨unchanged', members'⟩ := coherent'.pendingRegistrationsForLease leaseId
  have perm' := coherent'.perm_scan_pending leaseId
  have unique' := perm'.nodup_iff.mpr (nodup_scanForLease _)
  have scan : t.scanForLease t.pendingAgents leaseId = s.scanForLease s.pendingAgents leaseId := by
    rw [retired.scanForLease, pendingAgents]
  rw [scan] at perm'
  simp only [unchanged']
  generalize (t.registrationsForLeaseIndex leaseId t.pendingLeaseLabels t.pendingAgents).1 = pendingRows
    at members' perm' unique'
  cases second : Server.retirePending _ rows.length pendingRows with
  | mk revoked u =>
    obtain ⟨coherent'', count, retired', agents, lookups'⟩ := coherent'.retires_pendings unique'
      (fun e member => ((members' e.1 e.2).mp member).1) second
    refine ⟨coherent'', rows, pendingRows, perm, perm', count, retired.append retired', ?_, ?_⟩
    · intro label i
      rw [agents]
      exact lookups label i
    · intro label i
      rw [lookups', pendingAgents]

/-- The entries of the table of connections do not change with the rows. -/
theorem Retired.roster {rows : List (String × Nat)} (retired : Retired s t rows) :
    t.roster.account = s.roster.account ∧ t.roster.lease = s.roster.lease := by
  have entries : t.connections.map Connection.entry = s.connections.map Connection.entry := by
    refine List.ext_getElem? fun j => ?_
    rw [List.getElem?_map, List.getElem?_map, retired.connections]
    split
    · cases s.connections[j]? <;> rfl
    · rfl
  constructor
  · funext i
    exact congrArg (fun list : List Roster.Entry => (list[i]?).map Roster.Entry.account) entries
  · funext i
    exact congrArg (fun list : List Roster.Entry => (list[i]?).map Roster.Entry.lease) entries

/-- A lookup after the call, from the rows of the scan. -/
private theorem perm_lookup {table table' : AList fun _ : String => Nat} {rows rows' : List (String × Nat)}
    (perm : rows.Perm rows')
    (lookups : ∀ label i, table'.lookup label = some i ↔ table.lookup label = some i ∧ (label, i) ∉ rows) :
    ∀ label i, table'.lookup label = some i ↔ table.lookup label = some i ∧ (label, i) ∉ rows' :=
  fun label i => by rw [lookups, perm.mem_iff]

theorem Coherent.revokes_scan (coherent : s.Coherent) (named : leaseId ≠ "") (action : RevocationAction) :
    s.RevokesLease leaseId (s.revokeLease leaseId action).1 (s.revokeLease leaseId action).2 := by
  obtain ⟨coherent', rows, pendingRows, perm, perm', count, retired, lookups, lookups'⟩ :=
    coherent.revokeLease_retires named action
  generalize (s.revokeLease leaseId action).1 = revoked at count
  generalize (s.revokeLease leaseId action).2 = s' at coherent' retired lookups lookups'
  have agents := perm_lookup perm lookups
  have pendingAgents := perm_lookup perm' lookups'
  obtain ⟨accounts, leases⟩ := retired.roster
  have current : ∀ e ∈ s.scanForLease s.agents leaseId, s.agents.lookup e.1 = some e.2 :=
    fun e member => (mem_scanForLease.mp member).1
  have current' : ∀ e ∈ s.scanForLease s.pendingAgents leaseId, s.pendingAgents.lookup e.1 = some e.2 :=
    fun e member => (mem_scanForLease.mp member).1
  have members : ∀ j, j ∈ (rows ++ pendingRows).map Prod.snd ↔
      j ∈ (s.scanForLease s.agents leaseId ++ s.scanForLease s.pendingAgents leaseId).map Prod.snd :=
    fun j => ((perm.append perm').map Prod.snd).mem_iff
  have connections : ∀ j, s'.connections[j]? =
      if j ∈ (s.scanForLease s.agents leaseId ++ s.scanForLease s.pendingAgents leaseId).map Prod.snd then
        (s.connections[j]?).map turnAway else s.connections[j]? := by
    intro j
    rw [retired.connections]
    simp only [members j]
  refine ⟨agents, pendingAgents, ?_, ?_, ?_, connections, ?_, ?_, ?_, ?_⟩
  · rw [count, perm.length_eq, perm'.length_eq]
  · rw [retired.counter, count, List.length_append]
  · -- the registration of a scanned row exists, and was turned away
    intro row member
    obtain ⟨reg, found, -⟩ : ∃ reg, s.registration? row.2 = some reg ∧ reg.leaseId = some leaseId := by
      rcases List.mem_append.mp member with member | member
      · exact (mem_scanForLease.mp member).2
      · exact (mem_scanForLease.mp member).2
    refine ⟨Server.disable reg, ?_, rfl⟩
    unfold registration? at found ⊢
    rw [connections, if_pos (List.mem_map_of_mem member)]
    obtain ⟨c, here, registered⟩ := Option.bind_eq_some_iff.mp found
    rw [here]
    exact congrArg (Option.map Server.disable) registered
  · exact loses_of_inverts coherent.accounts coherent'.accounts fun label key =>
      (by rw [Roster.activeAccount, accounts]; exact bind_lookup_lost current agents _ label key)
  · exact loses_of_inverts coherent.leases coherent'.leases fun label key =>
      (by rw [Roster.activeLease, leases]; exact bind_lookup_lost current agents _ label key)
  · exact loses_of_inverts coherent.pendingLeases coherent'.pendingLeases fun label key =>
      (by rw [Roster.pendingLease, leases]; exact bind_lookup_lost current' pendingAgents _ label key)
  · -- a second scan finds no row that the first one did not
    refine coherent'.revokeLease_none ⟨?_, ?_⟩
    · rw [retired.scanForLease, List.eq_nil_iff_forall_not_mem]
      rintro ⟨label, i⟩ member
      obtain ⟨serves, has⟩ := mem_scanForLease.mp member
      obtain ⟨before, kept⟩ := (agents label i).mp serves
      exact kept (mem_scanForLease.mpr ⟨before, has⟩)
    · rw [retired.scanForLease, List.eq_nil_iff_forall_not_mem]
      rintro ⟨label, i⟩ member
      obtain ⟨holds, has⟩ := mem_scanForLease.mp member
      obtain ⟨before, kept⟩ := (pendingAgents label i).mp holds
      exact kept (mem_scanForLease.mpr ⟨before, has⟩)

/-- Where no registration has the lease, the call is right to do nothing. -/
theorem Coherent.revokesLease_none (coherent : s.Coherent)
    (idle : s.scanForLease s.agents leaseId = [] ∧ s.scanForLease s.pendingAgents leaseId = []) :
    s.RevokesLease leaseId 0 s := by
  have kept : ∀ {index : ReverseIndex String String} {f : String → Option String}, index.Inverts f →
      Loses index index [] := fun inverts => loses_of_inverts inverts inverts fun _ _ => by simp
  obtain ⟨none_, pending⟩ := idle
  refine ⟨fun label i => ?_, fun label i => ?_, ?_, rfl, fun row member => ?_, fun j => ?_, ?_, ?_, ?_,
    coherent.revokeLease_none ⟨none_, pending⟩⟩
  all_goals simp only [none_, pending, List.append_nil, List.map_nil, List.not_mem_nil, not_false_eq_true,
    and_true, if_false] at *
  · rfl
  · exact kept coherent.accounts
  · exact kept coherent.leases
  · exact kept coherent.pendingLeases

/-- **`revoke_lease` is complete and exact.** In every state that the relay reaches, with either
action, it removes the registrations that a scan of both maps finds for the lease, returns and
counts how many these are, turns their visitors away, changes no other registration, label or
index entry, and does nothing when it is called again. -/
theorem revokeLease_scan {config : ServerConfig} {now monotonic : ℚ} {as : List Action}
    (ran : Transition.run step (start config now monotonic) as = some s) (leaseId : String)
    (action : RevocationAction) :
    s.RevokesLease leaseId (s.revokeLease leaseId action).1 (s.revokeLease leaseId action).2 := by
  have coherent := coherent_of_run ran
  by_cases named : leaseId = ""
  · subst named
    -- an admission with an empty lease id is refused, so a scan for one finds nothing
    have nothing : ∀ table, s.scanForLease table "" = [] := by
      intro table
      rw [List.eq_nil_iff_forall_not_mem]
      rintro ⟨label, i⟩ member
      obtain ⟨-, reg, found, has⟩ := mem_scanForLease.mp member
      exact lease_ne_empty ran ((coherent.linked i reg found).2.trans has) rfl
    exact coherent.revokesLease_none ⟨nothing _, nothing _⟩
  · exact coherent.revokes_scan named action

theorem revokeLease_scan_after_reclaim :
    ∃ s, Transition.run step (start smallRelay 0 0) reclaimed = some s ∧
      (s.revokeLease "second" .close).1 = 1 ∧
        s.RevokesLease "second" (s.revokeLease "second" .close).1 (s.revokeLease "second" .close).2 := by
  have done : ((Transition.run step (start smallRelay 0 0) reclaimed).map fun s =>
      (s.revokeLease "second" .close).1) = some 1 := by
    decide
  obtain ⟨s, ran, one⟩ := Option.map_eq_some_iff.mp done
  exact ⟨s, ran, one, revokeLease_scan ran "second" .close⟩

end Server

end Chute
