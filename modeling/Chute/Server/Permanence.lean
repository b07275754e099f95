import Chute.Server.Caps

/-!
# What has ended stays so

A registration that left both maps never comes back to them. A lease that was revoked
after its claim is therefore gone for good; the relay keeps no book of the leases it has
not seen, so a lease that is revoked before its claim is not.
-/
namespace Chute

open Roster (Move Stage)

namespace Server

variable {s s' : Server} {a : Action} {leaseId : String}

/-! ### Leases of the control plane -/

/-- The lease ids that the control plane has issued, in their order. -/
def issued (as : List Action) : List String :=
  (as.filterMap Action.admission).map fun admission => admission.lease.leaseId

theorem nonemptyStr_ne {x : PyObject} {name : String} (named : nonemptyStr x = some name) :
    name ≠ "" := by
  unfold nonemptyStr at named
  split at named
  · split at named
    · cases named
    next nonempty =>
      cases named
      exact nonempty
  · cases named

theorem validTunnelAdmission_lease {x : PyObject} {admission : TunnelAdmission}
    (valid : validTunnelAdmission x = some admission) : admission.lease.leaseId ≠ "" := by
  unfold validTunnelAdmission at valid
  split at valid
  · simp only [Option.bind_eq_bind, Option.bind_eq_some_iff, Option.pure_def, Option.some.injEq] at valid
    obtain ⟨name, named, _, -, _, -, _, -, _, -, _, -, _, -, _, -, rfl⟩ := valid
    exact nonemptyStr_ne named
  · cases valid

section

variable {config : ServerConfig} {now monotonic : ℚ} {as : List Action}
  (ran : Transition.run step (start config now monotonic) as = some s)

include ran

/-- The connections hold the leases that were issued. -/
theorem leases_of_run : s.roster.entries.map Roster.Entry.lease = issued as := by
  have terms := (coherent_start config now monotonic).terms_run ran
  have leases := congrArg (List.map fun t : String × String × Nat => t.2.1) terms
  simpa [issued, roster, start, Function.comp_def, Roster.Entry.terms, TunnelAdmission.terms]
    using leases

theorem lease_ne_empty {i : Nat} (has : s.roster.lease i = some leaseId) : leaseId ≠ "" := by
  obtain ⟨e, found, rfl⟩ := Option.map_eq_some_iff.mp has
  have member : e.lease ∈ issued as := by
    rw [← leases_of_run ran]
    exact List.mem_map_of_mem (List.mem_of_getElem? found)
  obtain ⟨admission, inside, same⟩ := List.mem_map.mp member
  obtain ⟨a, -, admitted⟩ := List.mem_filterMap.mp inside
  rw [← same]
  cases a with
  | admitTunnel x requested scheme window => exact validTunnelAdmission_lease admitted
  | _ => cases admitted

/-- Where each lease id is issued once, it is the lease of one connection. -/
theorem connection_unique (once : (issued as).Nodup) {i j : Nat}
    (one : s.roster.lease i = some leaseId) (other : s.roster.lease j = some leaseId) : i = j := by
  rw [← leases_of_run ran] at once
  have at_ : ∀ k, s.roster.lease k = (s.roster.entries.map Roster.Entry.lease)[k]? := fun k => by
    simp [Roster.lease]
  rw [at_] at one other
  exact (List.getElem?_inj (List.getElem?_eq_some_iff.mp one).1 once).mp (one.trans other.symm)

end

/-! ### Revocations -/

/-- The step revokes the lease, by itself or as part of an update that is applied. -/
def Revokes (s : Server) (leaseId : String) (a : Action) : Prop :=
  (∃ action, a = .revokeLease leaseId action) ∨
    ∃ update u, a = .applyPolicyUpdate update ∧
      validPolicyUpdate s.policyVersion update = some u ∧ leaseId ∈ u.leaseIds

theorem Coherent.revokes_without (coherent : s.Coherent) (revokes : s.Revokes leaseId a)
    (nonempty : leaseId ≠ "") (moved : s.step a = some s') : s'.roster.Without leaseId := by
  rcases revokes with ⟨action, rfl⟩ | ⟨update, u, rfl, valid, named⟩
  · cases moved
    exact (follows_revokeLease coherent leaseId action).2 nonempty
  · cases moved
    exact applyPolicyUpdate_without coherent valid named nonempty

/-- The registration with a lease that is nowhere is in neither map. -/
theorem gone_of_without {i : Nat} (decided : ∃ t, s.roster.stage i = some t ∧ t ≠ Stage.waiting)
    (has : s.roster.lease i = some leaseId) (without : s.roster.Without leaseId) : s.roster.Gone i :=
  ⟨decided,
    fun label serves => (without label).1 (by simp [Roster.activeLease, serves, has]),
    fun label holds => (without label).2 (by simp [Roster.pendingLease, holds, has])⟩

/-- **A lease that is revoked after its claim stays revoked.** The control plane issues each
lease id once; the connection that holds the lease has had its claim when the relay applies
the revocation. Then no registration with the lease is pending or routed ever after. -/
theorem revoked_stays_out {config : ServerConfig} {now monotonic : ℚ} {as bs : List Action}
    {s₁ s₂ : Server} {i : Nat} {c : Connection} (once : (issued (as ++ a :: bs)).Nodup)
    (ran : Transition.run step (start config now monotonic) as = some s)
    (found : s.connections[i]? = some c) (has : c.admission.lease.leaseId = leaseId)
    (claimed : c.phase ≠ .admitted) (revokes : s.Revokes leaseId a) (moved : s.step a = some s₁)
    (later : Transition.run step s₁ bs = some s₂) (label : String) :
    ¬ s₂.Maps s₂.pendingAgents label (fun reg => reg.leaseId = some leaseId) ∧
      ¬ s₂.Maps s₂.agents label (fun reg => reg.leaseId = some leaseId) := by
  have coherent := coherent_of_run ran
  have whole : Transition.run step (start config now monotonic) (as ++ a :: bs) = some s₂ := by
    rw [Transition.run_append ran]
    exact Transition.run_cons_iff.mpr ⟨s₁, moved, later⟩
  have held : s.roster.lease i = some leaseId := by
    simp [Roster.lease, roster, found, Connection.entry, has]
  obtain ⟨ms, first, -⟩ := (step_follows coherent moved).runs
  obtain ⟨coherent₂, ns, second⟩ := (coherent.step moved).run later
  -- the connection is out of both maps when the revocation is applied, and stays so
  have without := coherent.revokes_without revokes (lease_ne_empty ran held) moved
  have gone : s₂.roster.Gone i :=
    (gone_of_without (first.decided (Claimed.decided ⟨c, found, claimed⟩)) (first.lease_eq held)
      without).runs second
  -- and it is the only one that ever has the lease
  have only : ∀ j, s₂.roster.lease j = some leaseId → j = i := fun j other =>
    connection_unique whole once other (second.lease_eq (first.lease_eq held))
  constructor
  · rintro ⟨j, reg, holds, there, lease⟩
    have same := only j ((coherent₂.linked j reg there).2.trans lease)
    exact gone.dropped label (same ▸ holds)
  · rintro ⟨j, reg, serves, there, lease⟩
    have same := only j ((coherent₂.linked j reg there).2.trans lease)
    exact gone.inactive label (same ▸ serves)

/-- The lease is revoked while its connection serves a label, which another connection of the
account then gets. -/
theorem revoked_stays_out_served : ∃ s s₁ s₂,
    Transition.run step (start smallRelay 0 0)
      (.admitTunnel (plainAdmission "a" "first" 1 .none) (some "x") .http .default :: setUp 0) = some s ∧
    s.step (.revokeLease "first" .drain) = some s₁ ∧
    Transition.run step s₁
      (.admitTunnel (plainAdmission "a" "second" 1 .none) (some "x") .http .default :: setUp 1) = some s₂ ∧
    s.agents.lookup "x" = some 0 ∧ s₂.agents.lookup "x" = some 1 ∧
    ∀ label, ¬ s₂.Maps s₂.pendingAgents label (fun reg => reg.leaseId = some "first") ∧
      ¬ s₂.Maps s₂.agents label (fun reg => reg.leaseId = some "first") := by
  have done : ((Transition.run step (start smallRelay 0 0)
      (.admitTunnel (plainAdmission "a" "first" 1 .none) (some "x") .http .default :: setUp 0)).bind fun s =>
      (s.step (.revokeLease "first" .drain)).bind fun s₁ =>
        (Transition.run step s₁ (.admitTunnel (plainAdmission "a" "second" 1 .none) (some "x") .http .default ::
          setUp 1)).map fun s₂ => (s.agents.lookup "x", s₂.agents.lookup "x",
            s.connections[0]?.map fun c => (c.admission.lease.leaseId, c.phase))) =
      some (some 0, some 1, some ("first", .running true)) := by
    decide
  obtain ⟨s, ran, done⟩ := Option.bind_eq_some_iff.mp done
  obtain ⟨s₁, moved, done⟩ := Option.bind_eq_some_iff.mp done
  obtain ⟨s₂, later, facts⟩ := Option.map_eq_some_iff.mp done
  simp only [Prod.mk.injEq] at facts
  obtain ⟨before, after, first⟩ := facts
  obtain ⟨c, found, same⟩ := Option.map_eq_some_iff.mp first
  simp only [Prod.mk.injEq] at same
  refine ⟨s, s₁, s₂, ran, moved, later, before, after, fun label => ?_⟩
  exact revoked_stays_out (by decide) ran found same.1 (by simp [same.2])
    (Or.inl ⟨.drain, rfl⟩) moved later label

/-- The admission has come back, its lease is revoked, and then the connection is set up: it
serves visitors with the revoked lease. -/
theorem revoked_before_claim : ∃ s s₁ s₂,
    (issued (.admitTunnel (plainAdmission "a" "first" 1 .none) (some "x") .http .default ::
      .revokeLease "first" .drain :: setUp 0)).Nodup ∧
    Transition.run step (start smallRelay 0 0)
      [.admitTunnel (plainAdmission "a" "first" 1 .none) (some "x") .http .default] = some s ∧
    s.Revokes "first" (.revokeLease "first" .drain) ∧
    s.step (.revokeLease "first" .drain) = some s₁ ∧
    Transition.run step s₁ (setUp 0) = some s₂ ∧
    s₂.Maps s₂.agents "x" (fun reg => reg.leaseId = some "first" ∧ reg.acceptingVisitors = true) := by
  have done : ((Transition.run step (start smallRelay 0 0)
      [.admitTunnel (plainAdmission "a" "first" 1 .none) (some "x") .http .default]).bind fun s =>
      (s.step (.revokeLease "first" .drain)).bind fun s₁ =>
        (Transition.run step s₁ (setUp 0)).map fun s₂ => (s₂.agents.lookup "x",
          (s₂.registration? 0).map fun reg => (reg.leaseId, reg.acceptingVisitors))) =
      some (some 0, some (some "first", true)) := by
    decide
  obtain ⟨s, ran, done⟩ := Option.bind_eq_some_iff.mp done
  obtain ⟨s₁, moved, done⟩ := Option.bind_eq_some_iff.mp done
  obtain ⟨s₂, later, facts⟩ := Option.map_eq_some_iff.mp done
  simp only [Prod.mk.injEq] at facts
  obtain ⟨serves, reg⟩ := facts
  obtain ⟨reg, found, same⟩ := Option.map_eq_some_iff.mp reg
  simp only [Prod.mk.injEq] at same
  exact ⟨s, s₁, s₂, by decide, ran, Or.inl ⟨.drain, rfl⟩, moved, later, 0, reg, serves, found,
    same⟩

end Server

end Chute
