import Chute.Server.Takeover

/-!
# Tunnel caps

A claim is checked against two caps that count differently: the labels of its account as
a set, the rows of both maps of the relay one by one. Between the claim and the install
a label can be in both maps.
-/
namespace Chute

open Roster (Move Stage)

def TunnelAdmission.terms (admission : TunnelAdmission) : String × String × Nat :=
  (admission.lease.accountId, admission.lease.leaseId, admission.maxTunnels)

namespace Server

variable {s s' : Server} {a : Action}

/-! ### What the control plane has admitted -/

/-- The admission that a step brings in. -/
def Action.admission : Action → Option TunnelAdmission
  | .admitTunnel admission _ _ _ => validTunnelAdmission admission
  | _ => none

/-- Only an admission makes an admission move. -/
theorem Allows.unadmitted {m : Move} (allows : s.Allows a m)
    (other : ∀ admission requested scheme window, a ≠ .admitTunnel admission requested scheme window)
    (account lease : String) (limit : Nat) : m ≠ .admitTunnel account lease limit := by
  rintro rfl
  rcases allows.kinds with ⟨k, l, same | same⟩ | ⟨_, _, _, _, _, _, _, here, -⟩ |
    ⟨k, phrases, -, same | ⟨l, same⟩⟩ | ⟨k, l, -, same⟩
  · cases same
  · cases same
  · exact other _ _ _ _ here
  · cases same
  · cases same
  · cases same

/-- An admission adds its connection to the table. -/
theorem step_admitTunnel {admission : PyObject} {requested : Option String} {scheme : Scheme}
    {window : FlowWindow} (moved : s.step (.admitTunnel admission requested scheme window) = some s') :
    ∃ valid, validTunnelAdmission admission = some valid ∧
      Roster.Steps s.roster (.admitTunnel valid.lease.accountId valid.lease.leaseId valid.maxTunnels)
        s'.roster ∧
      s'.roster.entries = s.roster.entries ++
        [⟨valid.lease.accountId, valid.lease.leaseId, valid.maxTunnels, .waiting⟩] := by
  obtain ⟨valid, accepted, rfl⟩ := Option.map_eq_some_iff.mp moved
  have entries : (s.connections ++ [(⟨requested, scheme, valid, window, .admitted, "", none, .off⟩ :
      Connection)]).map Connection.entry = s.roster.entries ++
        [⟨valid.lease.accountId, valid.lease.leaseId, valid.maxTunnels, .waiting⟩] := by
    rw [List.map_append, List.map_singleton]
    rfl
  refine ⟨valid, accepted, ?_, entries⟩
  have step := Roster.Steps.admitTunnel (r := s.roster) valid.lease.accountId valid.lease.leaseId
    valid.maxTunnels
  rw [← entries] at step
  exact step

/-- The connections are those the control plane has admitted, in their order. -/
theorem Coherent.terms_step (coherent : s.Coherent) (moved : s.step a = some s') :
    s'.roster.entries.map Roster.Entry.terms =
      s.roster.entries.map Roster.Entry.terms ++ a.admission.toList.map TunnelAdmission.terms := by
  by_cases admits : ∃ admission requested scheme window, a = .admitTunnel admission requested scheme window
  · obtain ⟨admission, requested, scheme, window, rfl⟩ := admits
    obtain ⟨valid, accepted, -, entries⟩ := step_admitTunnel moved
    simp [entries, Action.admission, accepted, Roster.Entry.terms, TunnelAdmission.terms]
  · have none : a.admission = none := by
      cases a with
      | admitTunnel admission requested scheme window =>
        exact absurd ⟨admission, requested, scheme, window, rfl⟩ admits
      | _ => rfl
    obtain ⟨ms, runs, all⟩ := (step_follows coherent moved).runs
    rw [none, Option.toList_none, List.map_nil, List.append_nil]
    refine runs.terms_eq fun m member => (all m member).unadmitted ?_
    intro admission requested scheme window same
    exact admits ⟨admission, requested, scheme, window, same⟩

theorem Coherent.terms_run (coherent : s.Coherent) {as : List Action}
    (ran : Transition.run Server.step s as = some s') :
    s'.roster.entries.map Roster.Entry.terms = s.roster.entries.map Roster.Entry.terms ++
      (as.filterMap Action.admission).map TunnelAdmission.terms := by
  induction as generalizing s with
  | nil =>
    cases ran
    simp
  | cons a as ih =>
    obtain ⟨t, moved, rest⟩ := Transition.run_cons_iff.mp ran
    rw [ih (coherent.step moved) rest, coherent.terms_step moved, List.append_assoc]
    cases admitted : a.admission with
    | none => simp [admitted]
    | some admission => simp [admitted]

/-! ### The caps -/

/-- The admissions of the account all carry this cap. -/
def Carry (as : List Action) (accountId : String) (limit : Nat) : Prop :=
  ∀ a ∈ as, ∀ admission, a.admission = some admission →
    admission.lease.accountId = accountId → admission.maxTunnels = limit

theorem within_start (config : ServerConfig) (now monotonic : ℚ) (accountId : String) (limit : Nat) :
    (start config now monotonic).roster.Within accountId limit :=
  ⟨(coherent_start config now monotonic).sound, by simp [roster, start],
    by simp [Roster.owned, Roster.labels, roster, start]⟩

/-- One step keeps an account below its cap. -/
theorem Coherent.within_step (coherent : s.Coherent) {accountId : String} {limit : Nat}
    (within : s.roster.Within accountId limit)
    (carries : ∀ admission, a.admission = some admission →
      admission.lease.accountId = accountId → admission.maxTunnels = limit)
    (moved : s.step a = some s') : s'.roster.Within accountId limit := by
  by_cases admits : ∃ admission requested scheme window, a = .admitTunnel admission requested scheme window
  · obtain ⟨admission, requested, scheme, window, rfl⟩ := admits
    obtain ⟨valid, accepted, step, entries⟩ := step_admitTunnel moved
    refine within.step step fun e member owner => ?_
    rw [entries] at member
    rcases List.mem_append.mp member with old | new
    · exact within.carried e old owner
    · cases List.mem_singleton.mp new
      exact carries valid accepted owner
  · obtain ⟨ms, runs, all⟩ := (step_follows coherent moved).runs
    refine within.runs runs fun m member => (all m member).unadmitted ?_
    intro admission requested scheme window same
    exact admits ⟨admission, requested, scheme, window, same⟩

theorem within_of_run {config : ServerConfig} {now monotonic : ℚ} {as : List Action}
    {accountId : String} {limit : Nat} (carry : Carry as accountId limit)
    (ran : Transition.run step (start config now monotonic) as = some s) :
    s.roster.Within accountId limit := by
  have kept : ∀ (t : Server) b (t' : Server), (t.Coherent ∧ t.roster.Within accountId limit) →
      (∀ admission, b.admission = some admission →
        admission.lease.accountId = accountId → admission.maxTunnels = limit) →
      t.step b = some t' → t'.Coherent ∧ t'.roster.Within accountId limit :=
    fun t b t' held carries moved => ⟨held.1.step moved, held.1.within_step held.2 carries moved⟩
  exact (Transition.run_invariant kept
    ⟨coherent_start config now monotonic, within_start config now monotonic accountId limit⟩
    (Transition.along_of_forall (fun b member _ => carry b member) _) ran).2

/-! ### Reclaims -/

/-- A public URL fails for want of https only. -/
theorem publicUrlFor_error {label : String} {scheme : Scheme} {r : Rejection}
    (failed : s.publicUrlFor label scheme = .error r) : r = .httpsUnavailable := by
  unfold publicUrlFor at failed
  split at failed
  · split at failed <;> cases failed
  · split at failed
    · unfold httpsPublicUrlFor at failed
      split at failed
      · cases failed
      · split at failed
        · cases failed
        · split at failed
          · cases failed
          · cases failed
            rfl
    · cases failed
      rfl

/-- An account that serves a label is not over a cap when it claims it again. -/
theorem Coherent.reclaim_within (coherent : s.Coherent) {c : Connection} {label : String}
    (held : s.Maps s.agents label fun reg => reg.accountId = c.admission.lease.accountId)
    {r : Rejection} (refused : s.checkClaim c label = .error r) :
    r ≠ .tunnelLimit ∧ r ≠ .serverTunnelLimit := by
  obtain ⟨i, reg, serves, found, account⟩ := held
  have owned : label ∈ s.ownedLabels c.admission.lease.accountId := by
    rw [coherent.ownedLabels_eq, ← coherent.uses_iff]
    exact Or.inl ⟨i, reg, serves, found, account⟩
  have room : s.globalAgentBudgetOk label = true := by
    have active : label ∈ s.agents := AList.lookup_isSome.mp (by simp [serves])
    simp [globalAgentBudgetOk, active]
  unfold checkClaim at refused
  split at refused
  next rejection authorised =>
    cases refused
    unfold authorizeClaim at authorised
    split at authorised
    · cases authorised
      simp
    split at authorised
    · cases authorised
      simp
    split at authorised
    · cases authorised
      simp
    split at authorised
    next full => exact absurd owned full.1
    · cases authorised
  · rw [if_pos room] at refused
    cases published : s.publicUrlFor label c.scheme with
    | ok url =>
      rw [published] at refused
      cases refused
    | error r' =>
      rw [published] at refused
      cases refused
      rw [publicUrlFor_error published]
      simp

/-- How a claim ends. -/
theorem claim_phase {i : Nat} {c c' : Connection} {phrases : Fin 100 → String} {r : Rejection}
    (found : s.connections[i]? = some c) (after : (s.claim i c phrases).connections[i]? = some c')
    (rejected : c'.phase = .over_ false (.rejected r)) :
    s.prepareClaim c phrases = .error r ∨ r = .reconnectLimit ∨ r = .leaseExpired := by
  obtain ⟨reconnects, ⟨r', why, same⟩ | ⟨label, url, -, same⟩⟩ := claim_cases s i c phrases
  · rw [same] at after
    cases (connection_modifyConnection found _).symm.trans after
    cases rejected
    exact why.imp id And.right
  · rw [same] at after
    cases (connection_modifyConnection found _).symm.trans after
    cases rejected

/-- **Tunnel caps.** In every reachable state the labels in use are no more than the relay
allows, and those of an account whose admissions all carry the same cap no more than that
cap. An account that claims a label it serves is refused for neither. -/
theorem tunnels_within {config : ServerConfig} {now monotonic : ℚ} {as : List Action}
    (ran : Transition.run step (start config now monotonic) as = some s) :
    (∀ accountId limit, Carry as accountId limit →
      ∀ labels : Finset String, (∀ label ∈ labels, s.Uses label accountId) → labels.card ≤ limit) ∧
    (∀ labels : Finset String, (∀ label ∈ labels, label ∈ s.agents ∨ label ∈ s.pendingAgents) →
      labels.card ≤ config.maxAgents) ∧
    ∀ i c phrases label s' c', s.connections[i]? = some c → s.chooseLabel c phrases = .ok label →
      s.Maps s.agents label (fun reg => reg.accountId = c.admission.lease.accountId) →
      s.step (.claim i phrases) = some s' → s'.connections[i]? = some c' →
      c'.phase ≠ .over_ false (.rejected .tunnelLimit) ∧
        c'.phase ≠ .over_ false (.rejected .serverTunnelLimit) := by
  have coherent := coherent_of_run ran
  refine ⟨fun accountId limit carry labels used => ?_, fun labels used => ?_, ?_⟩
  · have within := within_of_run carry ran
    refine (Finset.card_le_card fun label member => ?_).trans within.tunnels
    exact coherent.uses_iff.mp (used label member)
  · have limit : s.roster.maxAgents = config.maxAgents := by
      obtain ⟨-, ms, runs⟩ := (coherent_start config now monotonic).run ran
      exact runs.maxAgents_eq
    rw [← limit]
    refine (Finset.card_le_card fun label member => ?_).trans coherent.sound.cap
    exact Roster.mem_labels.mpr (used label member)
  · intro i c phrases label s' c' found chosen held moved after
    obtain ⟨c₀, found₀, moved⟩ := Option.bind_eq_some_iff.mp moved
    rw [found] at found₀
    cases found₀
    split at moved
    next waiting =>
      cases moved
      have spared : ∀ r, c'.phase = .over_ false (.rejected r) → r ≠ .tunnelLimit ∧ r ≠ .serverTunnelLimit := by
        intro r rejected
        rcases claim_phase found after rejected with refused | rfl | rfl
        · unfold prepareClaim at refused
          rw [chosen] at refused
          exact coherent.reclaim_within held refused
        · simp
        · simp
      exact ⟨fun rejected => (spared _ rejected).1 rfl, fun rejected => (spared _ rejected).2 rfl⟩
    · cases moved

/-- Both caps are reached while the only tunnel of an account is being reclaimed. -/
theorem tunnels_within_reclaim : ∃ s, Transition.run step (start smallRelay 0 0) reclaimed = some s ∧
    Carry reclaimed "a" 1 ∧ s.Uses "x" "a" ∧
      ∀ labels : Finset String, (∀ label ∈ labels, s.Uses label "a") → labels.card ≤ 1 := by
  have done : ((Transition.run step (start smallRelay 0 0) reclaimed).map fun s =>
      (s.agents.lookup "x", (s.registration? 0).map (·.accountId))) = some (some 0, some "a") := by
    decide
  obtain ⟨s, ran, facts⟩ := Option.map_eq_some_iff.mp done
  simp only [Prod.mk.injEq] at facts
  obtain ⟨reg, found, account⟩ := Option.map_eq_some_iff.mp facts.2
  have carry : Carry reclaimed "a" 1 := by
    have listed : (reclaimed.filterMap Action.admission).map (·.maxTunnels) = [1, 1] := by
      decide
    intro a member admission admitted _
    have there : admission.maxTunnels ∈ (reclaimed.filterMap Action.admission).map (·.maxTunnels) :=
      List.mem_map_of_mem (List.mem_filterMap.mpr ⟨a, member, admitted⟩)
    rw [listed] at there
    simpa using there
  exact ⟨s, ran, carry, Or.inl ⟨0, reg, facts.1, found, account⟩, (tunnels_within ran).1 "a" 1 carry⟩

end Server

end Chute
