import Chute.Server.Courses

/-!
# Connections that are over

A `_serve_agent` call that has come to its end has left both tables, on every path.
-/
namespace Chute

open Roster (Stage)

namespace Server

variable {s s' : Server} {a : Action} {i : Nat} {label : String}

/-- How a call can fail before its install, and that a call that is over is registered nowhere. -/
structure Ended (s : Server) : Prop where
  dropping : ∀ i opened why, s.phase? i = some (.dropping opened why) →
    why = .eventSinkUnavailable ∨ why = .readyFailed
  gone : ∀ i opened why, s.phase? i = some (.over_ opened why) → s.roster.Gone i

theorem ended_start (config : ServerConfig) (now monotonic : ℚ) : (start config now monotonic).Ended where
  dropping := by simp [phase?, start]
  gone := by simp [phase?, start]

theorem stage_of_phase {p : Phase} (here : s.phase? i = some p) :
    ∃ c, s.connections[i]? = some c ∧ c.phase = p ∧ s.roster.stage i = some (p.stage c.label) := by
  obtain ⟨c, found, rfl⟩ := Option.map_eq_some_iff.mp here
  exact ⟨c, found, rfl, by simp [Roster.stage, roster, found, Connection.entry]⟩

theorem phase?_setPhase {q : Phase} (known : s.phase? i = some q) (p : Phase) :
    (s.setPhase i p).phase? i = some p := by
  obtain ⟨c, found, -⟩ := Option.map_eq_some_iff.mp known
  simp [phase?, setPhase, modifyConnection, found]

theorem Calm.phase? (calm : Calm s s') (i : Nat) : s'.phase? i = s.phase? i := by
  rw [phase?_eq, phase?_eq, calm.courses]

/-- An install that finds its entry makes the connection run. -/
theorem phase?_install {c : Connection} {reg : TunnelRegistration} (found : s.connections[i]? = some c)
    (known : s.registration? i = some reg) (waits : s.isPending i c = true) (opened : Bool) :
    (s.install i c opened).phase? i = some (.running opened) := by
  have unlisted : Calm s { s with
      pendingLeaseLabels := unindexLeaseLabel s.pendingLeaseLabels c.label reg
      pendingAgents := s.pendingAgents.erase c.label } := .of_eq rfl rfl
  have accepting := unlisted.trans (calm_modifyRegistration _ i
    (f := fun reg => { reg with acceptingVisitors := true }) fun _ _ => rfl)
  have listed := accepting.trans (calm_installRegistration _ c.label i { reg with acceptingVisitors := true })
  have here : s.phase? i = some c.phase := by simp [Server.phase?, found]
  have running := phase?_setPhase ((listed.phase? i).trans here) (.running opened)
  have scheduled := ((calm_setRenewal _ i (if reg.leaseExpiresAt.isSome then .head else .off)).phase? i).trans running
  unfold Server.install
  simp only [known, waits, if_true]
  split
  · exact scheduled
  · exact scheduled

theorem Coherent.lookup_dropPendingIfCurrent (coherent : s.Coherent) (label : String) (i : Nat) :
    (s.dropPendingIfCurrent label i).pendingAgents.lookup label ≠ some i := by
  unfold dropPendingIfCurrent
  split
  next current reg holds _ =>
    split
    · simp
    next apart =>
      rw [holds]
      exact fun same => apart (Option.some.inj same)
  next unheld =>
    intro holds
    obtain ⟨reg, found, -⟩ := coherent.pending holds
    exact unheld i reg holds found

theorem Coherent.lookup_deregisterIfCurrent (coherent : s.Coherent) (label : String) (i : Nat) :
    (s.deregisterIfCurrent label i).agents.lookup label ≠ some i := by
  by_cases serves : s.agents.lookup label = some i
  · rw [coherent.agents_deregisterIfCurrent serves]
    simp
  · have same : s.deregisterIfCurrent label i = s := by
      unfold deregisterIfCurrent
      split
      next current reg held _ =>
        refine if_neg fun same => serves ?_
        rw [held, same]
      · rfl
    rw [same]
    exact serves

/-- A call that is over is gone once its claim has failed or its label is given up. -/
theorem Coherent.gone_of_over (coherent : s.Coherent) {opened : Bool} {why : Ending} {c : Connection}
    (found : s.connections[i]? = some c) (ended : c.phase = .over_ opened why)
    (unserved : why = .disconnected → s.agents.lookup c.label ≠ some i)
    (unheld : why ≠ .disconnected → (∀ r, why ≠ .rejected r) → s.pendingAgents.lookup c.label ≠ some i) :
    s.roster.Gone i := by
  have stage : s.roster.stage i = some (why.stage c.label) := by
    simp [Roster.stage, roster, found, Connection.entry, ended, Phase.stage]
  refine ⟨⟨_, stage, why.stage_ne_waiting⟩, fun label serves => ?_, fun label holds => ?_⟩
  · have installed := (coherent.sound.active label i serves).symm.trans stage
    cases why with
    | disconnected =>
      cases installed
      exact unserved rfl serves
    | _ => cases installed
  · have claimed := (coherent.sound.pending label i holds).symm.trans stage
    cases why with
    | rejected r => cases claimed
    | disconnected => cases claimed
    | _ =>
      cases claimed
      exact unheld (by simp) (by simp) holds

theorem label_setPhase {c c' : Connection} {p : Phase} (found : s.connections[i]? = some c)
    (after : (s.setPhase i p).connections[i]? = some c') : c'.label = c.label := by
  simp only [setPhase, modifyConnection, List.getElem?_modify, found, if_true, Option.map_eq_map,
    Option.map_some, Option.some.injEq] at after
  rw [← after]

/-- A call that stops because its entry is gone has no entry. -/
theorem unheld_of_over {c c' : Connection} {p q : Phase} (found : s.connections[i]? = some c)
    (on : p ≠ q) (ended : (s.setPhase i (if s.isPending i c then p else q)).phase? i = some q)
    (after : (s.setPhase i (if s.isPending i c then p else q)).connections[i]? = some c') :
    s.pendingAgents.lookup c'.label ≠ some i := by
  have known : s.phase? i = some c.phase := by simp [phase?, found]
  rw [label_setPhase found after]
  rw [phase?_setPhase known] at ended
  intro holds
  simp only [isPending, holds, beq_self_eq_true, if_true, Option.some.injEq] at ended
  exact on ended

/-- Which calls come to their end at a step of theirs, and what their tables are then. -/
theorem Ended.unlisted (ended : s.Ended) (coherent : s.Coherent) (moved : s.step a = some s')
    (serves : a.serves = some i) {p : Phase} {m m' : Option Mux} {opened : Bool} {why : Ending}
    (before : s.phase? i = some p) (after : s'.phase? i = some (.over_ opened why))
    (turn : Turn i a (p, m) (.over_ opened why, m')) {c' : Connection}
    (found' : s'.connections[i]? = some c') :
    (why = .disconnected → s'.agents.lookup c'.label ≠ some i) ∧
      (why ≠ .disconnected → (∀ r, why ≠ .rejected r) → s'.pendingAgents.lookup c'.label ≠ some i) := by
  cases turn with
  | rejected phrases r => exact ⟨by simp, fun _ granted => absurd rfl (granted r)⟩
  | stale =>
    refine ⟨by simp, fun _ _ => ?_⟩
    obtain ⟨c, found, moved⟩ := Option.bind_eq_some_iff.mp moved
    split at moved <;> cases moved
    have unheld := unheld_of_over found (by simp) after found'
    exact unheld
  | revoked opened =>
    refine ⟨by simp, fun _ _ => ?_⟩
    obtain ⟨c, found, moved⟩ := Option.bind_eq_some_iff.mp moved
    split at moved
    next opened' here =>
      cases moved
      have same : opened' = opened := by
        have known : s.phase? i = some c.phase := by simp [phase?, found]
        cases here.symm.trans (Option.some.inj (known.symm.trans before))
        rfl
      subst same
      have unheld := unheld_of_over found (by simp) after found'
      exact unheld
    · cases moved
  | dropped opened why =>
    have failed := ended.dropping i opened why before
    refine ⟨fun away => ?_, fun _ _ => ?_⟩
    · rcases failed with rfl | rfl
      · cases away
      · cases away
    obtain ⟨c, found, moved⟩ := Option.bind_eq_some_iff.mp moved
    split at moved <;> cases moved
    have kept : (s.dropPendingIfCurrent c.label i).connections[i]? = some c := by
      rw [connections_dropPendingIfCurrent, found]
    rw [label_setPhase kept found']
    exact coherent.lookup_dropPendingIfCurrent c.label i
  | superseded opened =>
    refine ⟨by simp, fun _ _ => ?_⟩
    obtain ⟨c, found, moved⟩ := Option.bind_eq_some_iff.mp moved
    split at moved
    next opened' here =>
      cases moved
      cases registered : s.registration? i with
      | none =>
        simp only [Server.install, registered] at after
        cases before.symm.trans after
      | some reg =>
        by_cases waits : s.isPending i c = true
        · cases (phase?_install found registered waits opened').symm.trans after
        · have unheld : s.pendingAgents.lookup c.label ≠ some i := by simpa [isPending] using waits
          have same : s.install i c opened' = s.setPhase i (.over_ opened' .superseded) := by
            simp only [Server.install, registered, if_neg waits]
          rw [same] at found' ⊢
          rw [label_setPhase found found']
          exact unheld
    · cases moved
  | deregistered opened =>
    refine ⟨fun _ => ?_, fun stays => absurd rfl stays⟩
    obtain ⟨c, found, moved⟩ := Option.bind_eq_some_iff.mp moved
    split at moved <;> cases moved
    have kept : (s.deregisterIfCurrent c.label i).connections[i]? = some c := by
      rw [connections_deregisterIfCurrent, found]
    rw [label_setPhase kept found']
    exact coherent.lookup_deregisterIfCurrent c.label i
  | carried _ _ other => cases serves.symm.trans other

theorem Ended.step (ended : s.Ended) (coherent : s.Coherent) (moved : s.step a = some s') : s'.Ended := by
  obtain ⟨coherent', ms, runs, -⟩ := step_follows coherent moved
  constructor
  · intro i opened why after
    rcases step_phase moved i with same | ⟨-, new⟩ | ⟨p, m, q, m', -, before, here, turn⟩
    · exact ended.dropping i opened why (same ▸ after)
    · cases new.symm.trans after
    · cases here.symm.trans after
      cases turn with
      | refused => exact Or.inl rfl
      | unsent => exact Or.inr rfl
      | carried => exact ended.dropping i _ _ before
  · intro i opened why after
    rcases step_phase moved i with same | ⟨-, new⟩ | ⟨p, m, q, m', serves, before, here, turn⟩
    · exact (ended.gone i opened why (same ▸ after)).runs runs
    · cases new.symm.trans after
    · cases here.symm.trans after
      obtain ⟨c', found', phase', -⟩ := stage_of_phase after
      obtain ⟨unserved, unheld⟩ := ended.unlisted coherent moved serves before after turn found'
      exact coherent'.gone_of_over found' phase' unserved unheld

end Server

end Chute
