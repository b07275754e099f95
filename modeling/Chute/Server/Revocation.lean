import Chute.Server.Refinement

/-!
# Revocation

`revoke_lease` goes by the indexes of the lease. Since these are exact, it ends every
registration that has the lease and no other.
-/
namespace Chute

open Roster (Move Stage)

namespace Server

variable {s s' : Server} {leaseId : String}

/-! ### What the index leads to -/

theorem hasLease_iff {table : AList fun _ : String => Nat} {label : String} :
    s.hasLease table leaseId label = true ↔
      ∃ i reg, table.lookup label = some i ∧ s.registration? i = some reg ∧
        reg.leaseId = some leaseId := by
  unfold hasLease
  simp only [Option.any_eq_true, Option.bind_eq_some_iff, beq_iff_eq]
  constructor
  · rintro ⟨reg, ⟨i, found, there⟩, lease⟩
    exact ⟨i, reg, found, there, lease⟩
  · rintro ⟨i, reg, found, there, lease⟩
    exact ⟨reg, ⟨i, found, there⟩, lease⟩

/-- With an exact index nothing is stale: the candidates are the rows of the table that
have the lease. -/
theorem registrationsForLeaseIndex_exact (index : ReverseIndex String String)
    (table : AList fun _ : String => Nat)
    (mem : ∀ label, label ∈ index.members leaseId ↔ s.hasLease table leaseId label = true)
    (proper : ∀ labels, index.lookup leaseId = some labels → labels ≠ []) :
    (s.registrationsForLeaseIndex leaseId index table).2 = index ∧
      ∀ label i, (label, i) ∈ (s.registrationsForLeaseIndex leaseId index table).1 ↔
        table.lookup label = some i ∧ s.hasLease table leaseId label = true := by
  unfold registrationsForLeaseIndex
  cases found : index.lookup leaseId with
  | none =>
    refine ⟨rfl, fun label i => ?_⟩
    simp only [List.mem_filterMap]
    constructor
    · rintro ⟨e, member, kept⟩
      split at kept
      next has =>
        cases kept
        exact ⟨AList.mem_lookup_iff.mpr member, has⟩
      · cases kept
    · rintro ⟨row, has⟩
      exact ⟨⟨label, i⟩, AList.mem_lookup_iff.mp row, by simp [has]⟩
  | some labels =>
    have members : index.members leaseId = labels := by simp [ReverseIndex.members, found]
    rw [members] at mem
    have fresh : labels.filter (fun label => !s.hasLease table leaseId label) = [] := by
      rw [List.filter_eq_nil_iff]
      intro label member
      simp [(mem label).mp member]
    refine ⟨by simp [proper labels found, fresh], fun label i => ?_⟩
    simp only [List.mem_filterMap]
    constructor
    · rintro ⟨other, member, kept⟩
      split at kept
      next has =>
        obtain ⟨j, row, same⟩ := Option.map_eq_some_iff.mp kept
        cases same
        exact ⟨row, has⟩
      · cases kept
    · rintro ⟨row, has⟩
      exact ⟨label, (mem label).mpr has, by simp [has, row]⟩

theorem Coherent.hasLease_active (coherent : s.Coherent) {label : String} :
    s.hasLease s.agents leaseId label = true ↔ s.roster.activeLease label = some leaseId := by
  rw [hasLease_iff]
  constructor
  · rintro ⟨i, reg, serves, found, lease⟩
    obtain ⟨reg', found', -, same⟩ := coherent.active serves
    rw [found] at found'
    cases found'
    rw [same, lease]
  · intro lease
    obtain ⟨i, serves, -⟩ := Option.bind_eq_some_iff.mp lease
    obtain ⟨reg, found, -, same⟩ := coherent.active serves
    exact ⟨i, reg, serves, found, same.symm.trans lease⟩

theorem Coherent.hasLease_pending (coherent : s.Coherent) {label : String} :
    s.hasLease s.pendingAgents leaseId label = true ↔
      s.roster.pendingLease label = some leaseId := by
  rw [hasLease_iff]
  constructor
  · rintro ⟨i, reg, holds, found, lease⟩
    obtain ⟨reg', found', -, same⟩ := coherent.pending holds
    rw [found] at found'
    cases found'
    rw [same, lease]
  · intro lease
    obtain ⟨i, holds, -⟩ := Option.bind_eq_some_iff.mp lease
    obtain ⟨reg, found, -, same⟩ := coherent.pending holds
    exact ⟨i, reg, holds, found, same.symm.trans lease⟩

/-- `_registrations_for_lease` changes nothing and yields the active labels of the lease. -/
theorem Coherent.registrationsForLease (coherent : s.Coherent) (leaseId : String) :
    (s.registrationsForLeaseIndex leaseId s.leaseLabels s.agents).2 = s.leaseLabels ∧
      ∀ label i, (label, i) ∈ (s.registrationsForLeaseIndex leaseId s.leaseLabels s.agents).1 ↔
        s.agents.lookup label = some i ∧ s.roster.lease i = some leaseId := by
  have exact := registrationsForLeaseIndex_exact s.leaseLabels s.agents
    (fun label => (coherent.leases.mem leaseId label).trans coherent.hasLease_active.symm)
    (fun labels found => (coherent.leases.proper leaseId labels found).1)
  refine ⟨exact.1, fun label i => (exact.2 label i).trans ?_⟩
  refine and_congr_right fun serves => coherent.hasLease_active.trans ?_
  simp [Roster.activeLease, roster, serves]

/-- `_pending_registrations_for_lease` changes nothing and yields the pending labels of the
lease. -/
theorem Coherent.pendingRegistrationsForLease (coherent : s.Coherent) (leaseId : String) :
    (s.registrationsForLeaseIndex leaseId s.pendingLeaseLabels s.pendingAgents).2 =
        s.pendingLeaseLabels ∧
      ∀ label i,
        (label, i) ∈ (s.registrationsForLeaseIndex leaseId s.pendingLeaseLabels s.pendingAgents).1 ↔
          s.pendingAgents.lookup label = some i ∧ s.roster.lease i = some leaseId := by
  have exact := registrationsForLeaseIndex_exact s.pendingLeaseLabels s.pendingAgents
    (fun label => (coherent.pendingLeases.mem leaseId label).trans coherent.hasLease_pending.symm)
    (fun labels found => (coherent.pendingLeases.proper leaseId labels found).1)
  refine ⟨exact.1, fun label i => (exact.2 label i).trans ?_⟩
  refine and_congr_right fun holds => coherent.hasLease_pending.trans ?_
  simp [Roster.pendingLease, roster, holds]

/-! ### The two loops -/

/-- The move ends a registration that has one of these leases. -/
def EndsLease (s : Server) (leases : List String) (m : Move) : Prop :=
  ∃ i label leaseId, m.Ends i label ∧ s.roster.lease i = some leaseId ∧ leaseId ∈ leases

theorem EndsLease.ends {leases : List String} {m : Move} (ends : EndsLease s leases m) :
    ∃ i label, m.Ends i label := by
  obtain ⟨i, label, -, here, -⟩ := ends
  exact ⟨i, label, here⟩

theorem Follows.shrinks {leases : List String} (follows : Follows s (EndsLease s leases) s') :
    Roster.Shrinks s.roster s'.roster := by
  obtain ⟨ms, runs, all⟩ := follows.runs
  exact runs.shrinks fun m member => (all m member).ends

/-- After its retirement a registration no longer serves the label. -/
theorem Coherent.agents_retireRegistration (coherent : s.Coherent) (label : String) (i : Nat)
    (reason : RetireReason) (timeout : ℚ) :
    (s.retireRegistration label i reason timeout).agents.lookup label ≠ some i := by
  unfold retireRegistration
  split
  next serves =>
    have gone : ((s.modifyRegistration i Server.disable).deregisterIfCurrent label i).agents =
        s.agents.erase label := by
      rw [deregisterIfCurrent_disable]
      exact coherent.agents_deregisterIfCurrent serves
    have cleared : ((s.modifyRegistration i Server.disable).deregisterIfCurrent label i).agents.lookup label =
        none := by
      rw [gone, AList.lookup_erase]
    intro still
    cases reason <;> exact absurd (cleared.symm.trans still) (by simp)
  next other => exact other

/-- The loop over the active registrations of a lease. -/
theorem follows_retireAll (t : Server) (timeout : ℚ) {candidates : List (String × Nat)}
    (owned : ∀ e ∈ candidates, t.roster.lease e.2 = some leaseId) (coherent : s.Coherent) :
    Follows s (EndsLease t [leaseId])
        (candidates.foldl (fun s e => s.retireRegistration e.1 e.2 .leaseRevoked timeout) s) ∧
      ∀ e ∈ candidates, (candidates.foldl
        (fun s e => s.retireRegistration e.1 e.2 .leaseRevoked timeout) s).agents.lookup e.1 ≠
          some e.2 := by
  induction candidates generalizing s with
  | nil => exact ⟨coherent.follows (.refl s), by simp⟩
  | cons e rest ih =>
    have first : Follows s (EndsLease t [leaseId]) (s.retireRegistration e.1 e.2 .leaseRevoked timeout) :=
      (follows_retireRegistration coherent e.1 e.2 .leaseRevoked timeout).mono fun m same =>
        ⟨e.2, e.1, leaseId, Or.inl same, owned e (by simp), by simp⟩
    obtain ⟨later, ended⟩ := ih (fun e' member => owned e' (by simp [member])) first.coherent
    refine ⟨first.trans later, fun e' member => ?_⟩
    rcases List.mem_cons.mp member with rfl | inside
    · -- once removed it stays so: the rest of the loop only removes
      intro still
      obtain ⟨ms, runs, all⟩ := later.runs
      have before := (runs.shrinks fun m member => (all m member).ends).agents _ _ still
      exact coherent.agents_retireRegistration e'.1 e'.2 .leaseRevoked timeout before
    · exact ended e' inside

theorem Coherent.pending_retirePendingRegistration (coherent : s.Coherent) (label : String) (i : Nat) :
    (s.retirePendingRegistration label i).2.pendingAgents.lookup label ≠ some i := by
  unfold retirePendingRegistration
  split
  next holds =>
    obtain ⟨reg, found, -, -⟩ := coherent.pending holds
    have cleared : ((s.modifyRegistration i Server.disable).dropPendingIfCurrent label
        i).pendingAgents.lookup label = none := by
      rw [dropPendingIfCurrent_disable]
      unfold dropPendingIfCurrent
      simp only [holds, found, if_true]
      exact AList.lookup_erase ..
    intro still
    exact absurd (cleared.symm.trans still) (by simp)
  next other => exact other

/-- The loop over the pending registrations of a lease. -/
theorem follows_retirePending (t : Server) {candidates : List (String × Nat)}
    (owned : ∀ e ∈ candidates, t.roster.lease e.2 = some leaseId) (coherent : s.Coherent)
    (revoked : Nat) :
    Follows s (EndsLease t [leaseId]) (s.retirePending revoked candidates).2 ∧
      ∀ e ∈ candidates, (s.retirePending revoked candidates).2.pendingAgents.lookup e.1 ≠
        some e.2 := by
  induction candidates generalizing s revoked with
  | nil => exact ⟨coherent.follows (.refl s), by simp⟩
  | cons e rest ih =>
    obtain ⟨label, i⟩ := e
    have first : Follows s (EndsLease t [leaseId]) (s.retirePendingRegistration label i).2 :=
      (follows_retirePendingRegistration coherent label i).mono fun m same =>
        ⟨i, label, leaseId, Or.inr same, owned (label, i) (by simp), by simp⟩
    have cleared := coherent.pending_retirePendingRegistration label i
    -- the counter differs between the two branches, the state does not
    have next : ∃ revoked', s.retirePending revoked ((label, i) :: rest) =
        (s.retirePendingRegistration label i).2.retirePending revoked' rest := by
      cases ended : s.retirePendingRegistration label i with
      | mk dropped t' =>
        rw [retirePending.eq_def]
        simp only [ended]
        cases dropped with
        | true => exact ⟨revoked + 1, rfl⟩
        | false => exact ⟨revoked, rfl⟩
    obtain ⟨revoked', same⟩ := next
    rw [same]
    obtain ⟨later, ended⟩ := ih (fun e' member => owned e' (by simp [member])) first.coherent revoked'
    refine ⟨first.trans later, fun e' member => ?_⟩
    rcases List.mem_cons.mp member with rfl | inside
    · intro still
      obtain ⟨ms, runs, all⟩ := later.runs
      exact cleared ((runs.shrinks fun m member => (all m member).ends).pending _ _ still)
    · exact ended e' inside

/-- **`revoke_lease` ends the registrations of its lease.** It makes no other move, and
afterwards no label is active or pending with the lease. -/
theorem follows_revokeLease (coherent : s.Coherent) (leaseId : String) (action : RevocationAction) :
    Follows s (EndsLease s [leaseId]) (s.revokeLease leaseId action).2 ∧
      (leaseId ≠ "" → (s.revokeLease leaseId action).2.roster.Without leaseId) := by
  unfold revokeLease
  split
  next empty => exact ⟨coherent.follows (.refl s), fun named => absurd empty named⟩
  next named =>
    obtain ⟨unchanged, candidates⟩ := coherent.registrationsForLease leaseId
    simp only [unchanged]
    obtain ⟨first, ended⟩ := follows_retireAll s (RevocationAction.drainTimeout action)
      (fun e member => ((candidates e.1 e.2).mp member).2) coherent
    generalize List.foldl _ s _ = t at first ended
    obtain ⟨unchanged', candidates'⟩ := first.coherent.pendingRegistrationsForLease leaseId
    simp only [unchanged']
    have same : t.roster.lease = s.roster.lease := by
      funext i
      simp only [Roster.lease, first.shrinks.entries]
    obtain ⟨second, ended'⟩ := follows_retirePending s
      (fun e member => by rw [← same]; exact ((candidates' e.1 e.2).mp member).2) first.coherent
      (s.registrationsForLeaseIndex leaseId s.leaseLabels s.agents).1.length
    generalize Server.retirePending t _ _ = u at second ended'
    have shrinks : Roster.Shrinks t.roster u.2.roster := by
      obtain ⟨ms, runs, all⟩ := second.runs
      exact runs.shrinks fun m member => (all m member).ends
    refine ⟨first.trans second, fun _ label => ⟨fun active => ?_, fun pending => ?_⟩⟩
    · obtain ⟨i, serves, lease⟩ := Option.bind_eq_some_iff.mp active
      have before := shrinks.agents label i serves
      have owner : s.roster.lease i = some leaseId := by
        rw [← same]
        simpa only [Roster.lease, shrinks.entries] using lease
      exact ended (label, i)
        ((candidates label i).mpr ⟨first.shrinks.agents label i before, owner⟩) before
    · obtain ⟨i, holds, lease⟩ := Option.bind_eq_some_iff.mp pending
      have before := shrinks.pending label i holds
      have owner : t.roster.lease i = some leaseId := by
        simpa only [Roster.lease, shrinks.entries] using lease
      exact ended' (label, i) ((candidates' label i).mpr ⟨before, owner⟩) holds

end Server

end Chute
