import Chute.Server.Coherence

/-!
# Who gets a label

A label in use goes to no other account. Among the connections of one account the newest
one that was installed is routed, and what is left of the older ones cannot touch it.
-/
namespace Chute

open Roster (Move Stage)

namespace Server

variable {s s' : Server} {a : Action} {label : String} {i : Nat}

/-- The label is active or pending for the account. -/
def Uses (s : Server) (label accountId : String) : Prop :=
  s.Maps s.agents label (fun reg => reg.accountId = accountId) ∨
    s.Maps s.pendingAgents label (fun reg => reg.accountId = accountId)

theorem Coherent.uses_iff (coherent : s.Coherent) {accountId : String} :
    s.Uses label accountId ↔ label ∈ s.roster.owned accountId := by
  rw [Roster.mem_owned]
  constructor
  · rintro (⟨j, reg, serves, found, rfl⟩ | ⟨j, reg, holds, found, rfl⟩)
    · obtain ⟨reg', found', account, -⟩ := coherent.active serves
      rw [found] at found'
      cases found'
      exact Or.inl account
    · obtain ⟨reg', found', account, -⟩ := coherent.pending holds
      rw [found] at found'
      cases found'
      exact Or.inr account
  · rintro (active | pending)
    · obtain ⟨j, serves, -⟩ := Option.bind_eq_some_iff.mp active
      obtain ⟨reg, found, account, -⟩ := coherent.active serves
      exact Or.inl ⟨j, reg, serves, found, Option.some.inj (account.symm.trans active)⟩
    · obtain ⟨j, holds, -⟩ := Option.bind_eq_some_iff.mp pending
      obtain ⟨reg, found, account, -⟩ := coherent.pending holds
      exact Or.inr ⟨j, reg, holds, found, Option.some.inj (account.symm.trans pending)⟩

/-! ### Accounts -/

/-- Only the claim of a connection makes a claim move. -/
theorem Allows.unclaimed {m : Move} (allows : s.Allows a m) (other : ∀ j phrases, a ≠ .claim j phrases)
    (j : Nat) (label : String) : m ≠ .claim j label := by
  rintro rfl
  rcases allows.kinds with ⟨k, l, same | same⟩ | ⟨_, _, _, _, _, _, _, -, same⟩ |
    ⟨k, phrases, here, -⟩ | ⟨k, l, -, same⟩
  · cases same
  · cases same
  · cases same
  · exact other k phrases here
  · cases same

theorem Allows.decides {m : Move} {phrases : Fin 100 → String} (allows : s.Allows (.claim i phrases) m) :
    m.Decides i := by
  cases allows with
  | refuse => exact Or.inl rfl
  | claim _ _ label => exact Or.inr ⟨label, rfl⟩

/-- A step gives a label that is in use to nobody else. -/
theorem Coherent.exclusive (coherent : s.Coherent) (moved : s.step a = some s') {A B : String}
    (before : s.Uses label A) (after : s'.Uses label B) : B = A := by
  have follows := step_follows coherent moved
  obtain ⟨ms, runs, all⟩ := follows.runs
  rw [coherent.uses_iff] at before
  rw [follows.coherent.uses_iff] at after
  by_cases claims : ∃ j phrases, a = .claim j phrases
  · -- a claim leaves what was in use in use, and then one account has the label
    obtain ⟨j, phrases, rfl⟩ := claims
    have still := runs.owned_of_decides coherent.sound (fun m member => (all m member).decides) before
    rw [Roster.mem_owned] at still after
    exact follows.coherent.sound.owner_unique still after
  · -- any other step brings no label into use
    have old := runs.owned_from coherent.sound
      (fun m member => (all m member).unclaimed fun j phrases same => claims ⟨j, phrases, same⟩) after
    rw [Roster.mem_owned] at before old
    exact coherent.sound.owner_unique before old

/-! ### The route of a registration -/

/-- The registration of a connection is the routed one, with its entries in the indexes. -/
structure Routed (s : Server) (label : String) (i : Nat) : Prop where
  serves : s.agents.lookup label = some i
  indexed : ∃ reg, s.registration? i = some reg ∧ reg.acceptingVisitors = true ∧
    label ∈ s.accountLabels.members reg.accountId ∧
    ∀ leaseId, reg.leaseId = some leaseId → label ∈ s.leaseLabels.members leaseId

theorem Coherent.routed (coherent : s.Coherent) (serves : s.agents.lookup label = some i) :
    s.Routed label i := by
  obtain ⟨reg, found, account, lease⟩ := coherent.active serves
  refine ⟨serves, reg, found, coherent.accepting label i reg serves found,
    (coherent.accounts.mem _ _).mpr account, fun leaseId has => ?_⟩
  exact (coherent.leases.mem _ _).mpr (lease.trans has)

/-- The step ends the registration, retires it or supersedes it. -/
inductive Unroutes (s : Server) (label : String) (i : Nat) : Action → Prop
  /-- Its `run()` is over. -/
  | ended : Unroutes s label i (.deregister i)
  /-- Its renewal task finds the lease expired, or hears that it was revoked. -/
  | renewHead (reg : TunnelRegistration) (found : s.registration? i = some reg)
      (due : ∃ delay, s.leaseRenewDelay reg = some delay ∧ delay ≤ 0) :
      Unroutes s label i (.renewHead i)
  | renewWake (reg : TunnelRegistration) (found : s.registration? i = some reg)
      (expired : s.leaseExpired reg = true) : Unroutes s label i (.renewWake i)
  | renewResult : Unroutes s label i (.renewResult i (some .none))
  /-- A visitor finds the lease expired. -/
  | expired (sent : Bool) (reg : TunnelRegistration) (found : s.registration? i = some reg)
      (expired : s.leaseExpired reg = true) : Unroutes s label i (.visit label sent)
  | revoked (leaseId : String) (action : RevocationAction) (reg : TunnelRegistration)
      (found : s.registration? i = some reg) (lease : reg.leaseId = some leaseId) :
      Unroutes s label i (.revokeLease leaseId action)
  | updated (update : PyObject) (u : PolicyUpdate) (leaseId : String) (reg : TunnelRegistration)
      (valid : validPolicyUpdate s.policyVersion update = some u)
      (found : s.registration? i = some reg) (lease : reg.leaseId = some leaseId)
      (named : leaseId ∈ u.leaseIds) : Unroutes s label i (.applyPolicyUpdate update)
  /-- The registration that waits for the label takes over. -/
  | superseded (j : Nat) (pending : s.pendingAgents.lookup label = some j) :
      Unroutes s label i (.install j)

/-! ### What keeps a route -/

theorem quiet_renewHead {c : Connection} {reg : TunnelRegistration}
    (later : ∀ delay, s.leaseRenewDelay reg = some delay → 0 < delay) :
    Quiet s (s.renewHead i c reg) := by
  unfold renewHead
  split
  · exact quiet_setRenewal s i _
  · split
    · exact quiet_setRenewal s i _
    next delay planned =>
      rw [if_neg (not_le.mpr (later delay planned))]
      exact quiet_setRenewal s i _

theorem quiet_renewWake {c : Connection} {reg : TunnelRegistration}
    (valid : s.leaseExpired reg = false) : Quiet s (s.renewWake i c reg) := by
  unfold renewWake
  split
  · exact quiet_setRenewal s i _
  · simp only [valid, Bool.false_eq_true, if_false]
    split
    · exact quiet_setRenewal s i _
    · exact quiet_setRenewal s i _

/-- A lease that passed the check of a renewal has not expired. -/
theorem validRenewedLease_future {reg : TunnelRegistration} {renewed : PyObject} {expires : Datetime}
    {generation : Int} (valid : s.validRenewedLease reg renewed = some (expires, generation)) :
    expires.aware = true ∧ s.now < expires.seconds := by
  unfold validRenewedLease at valid
  split at valid
  · split at valid
    next passed =>
      cases valid
      simp only [Bool.and_eq_true, decide_eq_true_eq] at passed
      exact ⟨passed.1.2, passed.2⟩
    · cases valid
  · cases valid

/-- Whatever the control plane answers but `None`, the renewal retires nothing. -/
theorem quiet_renewResult {c : Connection} {reg : TunnelRegistration}
    (known : s.registration? i = some reg) {renewed : Option PyObject} (held : renewed ≠ some .none) :
    Quiet s (s.renewResult i c reg renewed) := by
  unfold renewResult
  split
  · exact (quiet_setRenewal s i _).trans ⟨rfl, rfl, rfl, rfl, rfl, rfl, rfl⟩
  · split
    · exact quiet_setRenewal s i _
    · split
      · exact absurd rfl held
      · split
        · exact (quiet_setRenewal s i _).trans ⟨rfl, rfl, rfl, rfl, rfl, rfl, rfl⟩
        next expires generation valid =>
          obtain ⟨aware, future⟩ := validRenewedLease_future valid
          have stored : Quiet s (s.modifyRegistration i fun _ => { reg with
              leaseExpiresAt := some expires
              leaseObservedAt := some s.now
              leaseGeneration := generation }) :=
            quiet_modifyRegistration fun old found => by
              rw [known] at found
              cases found
              rfl
          simp only
          split
          next expired =>
            have positive : ¬ expires.seconds - s.now ≤ 0 := not_le.mpr (sub_pos.mpr future)
            simp only [leaseExpired, leaseSecondsRemaining, Option.map_some, aware, if_true,
              Option.any_some, decide_eq_true_eq] at expired
            exact absurd expired positive
          · refine stored.trans ((quiet_setRenewal _ i .head).trans ?_)
            exact ⟨rfl, rfl, rfl, rfl, rfl, rfl, rfl⟩

/-- A renewal step of a registration either ends its route or changes no map. -/
theorem quiet_of_renewal (label : String) (moved : s.step a = some s') {j : Nat}
    (renews : a = .renewHead j ∨ a = .renewWake j ∨ ∃ renewed, a = .renewResult j renewed) :
    s.Unroutes label j a ∨ Quiet s s' := by
  rcases renews with rfl | rfl | ⟨renewed, rfl⟩
  · obtain ⟨c, found, moved⟩ := Option.bind_eq_some_iff.mp moved
    split at moved
    · obtain ⟨reg, registered, rfl⟩ := Option.map_eq_some_iff.mp moved
      have known : s.registration? j = some reg := by simp [registration?, found, registered]
      by_cases due : ∃ delay, s.leaseRenewDelay reg = some delay ∧ delay ≤ 0
      · exact Or.inl (.renewHead reg known due)
      · refine Or.inr (quiet_renewHead fun delay planned => ?_)
        by_contra past
        exact due ⟨delay, planned, not_lt.mp past⟩
    · cases moved
  · obtain ⟨c, found, moved⟩ := Option.bind_eq_some_iff.mp moved
    split at moved
    · obtain ⟨reg, registered, rfl⟩ := Option.map_eq_some_iff.mp moved
      have known : s.registration? j = some reg := by simp [registration?, found, registered]
      cases expired : s.leaseExpired reg with
      | true => exact Or.inl (.renewWake reg known expired)
      | false => exact Or.inr (quiet_renewWake expired)
    · cases moved
  · obtain ⟨c, found, moved⟩ := Option.bind_eq_some_iff.mp moved
    split at moved
    · obtain ⟨reg, registered, rfl⟩ := Option.map_eq_some_iff.mp moved
      have known : s.registration? j = some reg := by simp [registration?, found, registered]
      by_cases revoked : renewed = some .none
      · subst revoked
        exact Or.inl .renewResult
      · exact Or.inr (quiet_renewResult known revoked)
    · cases moved

/-- The step belongs to the renewal task of the connection. -/
def Action.Renews (a : Action) (i : Nat) : Prop :=
  a = .renewHead i ∨ a = .renewWake i ∨ ∃ renewed, a = .renewResult i renewed

/-- Why a step removes a registration. -/
theorem Coherent.unroutes_of_remove (coherent : s.Coherent) (serves : s.agents.lookup label = some i)
    (allows : s.Allows a (.remove i label)) : s.Unroutes label i a ∨ a.Renews i := by
  obtain ⟨reg, found, -, active⟩ := coherent.active serves
  have lease : ∀ leaseId, s.roster.lease i = some leaseId → reg.leaseId = some leaseId := by
    intro leaseId has
    rw [← active, ← has]
    simp [Roster.activeLease, roster, serves]
  cases allows with
  | deregister => exact Or.inl .ended
  | renewHead => exact Or.inr (Or.inl rfl)
  | renewWake => exact Or.inr (Or.inr (Or.inl rfl))
  | renewResult _ renewed => exact Or.inr (Or.inr (Or.inr ⟨renewed, rfl⟩))
  | visit other sent _ expires =>
    obtain ⟨j, reg', same, found', expired⟩ := expires
    cases same
    exact Or.inl (.expired sent reg' found' expired)
  | revokeLease leaseId action _ ends =>
    obtain ⟨j, other, leaseId', same | same, has, named⟩ := ends
    · cases same
      simp only [List.mem_singleton] at named
      subst named
      exact Or.inl (.revoked leaseId' action reg found (lease leaseId' has))
    · cases same
  | applyPolicyUpdate update u _ valid ends =>
    obtain ⟨j, other, leaseId', same | same, has, named⟩ := ends
    · cases same
      exact Or.inl (.updated update u leaseId' reg valid found (lease leaseId' has) named)
    · cases same

/-- A route lasts through every step that does not end it. -/
theorem Coherent.keeps_route (coherent : s.Coherent) (moved : s.step a = some s')
    (serves : s.agents.lookup label = some i) (spared : ¬ s.Unroutes label i a) :
    s'.agents.lookup label = some i := by
  by_cases renews : a.Renews i
  · rcases quiet_of_renewal label moved renews with unroutes | quiet
    · exact absurd unroutes spared
    · rw [quiet.agents]
      exact serves
  obtain ⟨ms, runs, all⟩ := (step_follows coherent moved).runs
  have unremoved : ∀ m ∈ ms, m ≠ .remove i label := by
    rintro m member rfl
    rcases coherent.unroutes_of_remove serves (all _ member) with unroutes | renewal
    · exact spared unroutes
    · exact renews renewal
  by_cases claims : ∃ j phrases, a = .claim j phrases
  · obtain ⟨j, phrases, rfl⟩ := claims
    refine runs.agents_eq (fun m member => ⟨unremoved m member, ?_⟩) serves
    rintro k rfl
    rcases (all _ member).decides with same | ⟨l, same⟩ <;> cases same
  · rcases runs.agents_kept (fun m member => (all m member).unclaimed fun j phrases same =>
      claims ⟨j, phrases, same⟩) unremoved serves with kept | ⟨j, member, pending⟩
    · exact kept
    · -- the only step that installs is the one of the registration that was pending
      rcases (all _ member).kinds with ⟨k, l, same | same⟩ | ⟨_, _, _, _, _, _, _, -, same⟩ |
        ⟨k, phrases, -, same | ⟨l, same⟩⟩ | ⟨k, l, here, same⟩
      · cases same
      · cases same
      · cases same
      · cases same
      · cases same
      · cases same
        exact absurd (here ▸ .superseded j pending) spared

/-- A route lasts through every run whose steps do not end it. -/
theorem Coherent.routed_along (coherent : s.Coherent) (serves : s.agents.lookup label = some i)
    {as : List Action} (spared : Transition.Along Server.step (fun t b => ¬ t.Unroutes label i b) s as)
    (ran : Transition.run Server.step s as = some s') : s'.Routed label i := by
  have kept : ∀ (t : Server) b (t' : Server), (t.Coherent ∧ t.agents.lookup label = some i) →
      ¬ t.Unroutes label i b → t.step b = some t' → t'.Coherent ∧ t'.agents.lookup label = some i :=
    fun t b t' held spared moved => ⟨held.1.step moved, held.1.keeps_route moved held.2 spared⟩
  obtain ⟨coherent', serves'⟩ := Transition.run_invariant kept ⟨coherent, serves⟩ spared ran
  exact coherent'.routed serves'

/-! ### Older connections -/

/-- Whose task takes the step. -/
def Action.actor : Action → Option Nat
  | .claim i _ => some i
  | .check i => some i
  | .opened i _ => some i
  | .recheck i => some i
  | .ready i _ => some i
  | .drop i => some i
  | .install i => some i
  | .ended i => some i
  | .renewalCancelled i => some i
  | .deregister i => some i
  | .renewHead i => some i
  | .renewWake i => some i
  | .renewAcquired i _ => some i
  | .renewResult i _ => some i
  | .throttle i _ => some i
  | .mux i _ => some i
  | _ => none

/-- The connection has had its claim. -/
def Claimed (s : Server) (i : Nat) : Prop := ∃ c, s.connections[i]? = some c ∧ c.phase ≠ .admitted

theorem Ending.stage_ne_waiting (why : Ending) : why.stage label ≠ .waiting := by
  cases why <;> simp [Ending.stage]

theorem Phase.stage_ne_waiting {phase : Phase} (past : phase ≠ .admitted) :
    phase.stage label ≠ .waiting := by
  cases phase with
  | admitted => exact absurd rfl past
  | dropping opened why => exact why.stage_ne_waiting
  | over_ opened why => exact why.stage_ne_waiting
  | _ => simp [Phase.stage]

theorem Claimed.decided (claimed : s.Claimed i) :
    ∃ t, s.roster.stage i = some t ∧ t ≠ Stage.waiting := by
  obtain ⟨c, found, past⟩ := claimed
  exact ⟨c.phase.stage c.label, by simp [Roster.stage, roster, found, Connection.entry],
    Phase.stage_ne_waiting past⟩

/-- The steps of another connection end a route only by an install that was pending. -/
theorem not_unroutes {j : Nat} (apart : j ≠ i) (acts : a.actor = some j)
    (unheld : s.pendingAgents.lookup label ≠ some j) : ¬ s.Unroutes label i a := by
  intro unroutes
  cases unroutes with
  | ended | renewHead | renewWake | renewResult => exact apart (Option.some.inj acts).symm
  | expired | revoked | updated => cases acts
  | superseded k pending =>
    cases acts
    exact unheld pending

/-- An install leaves nobody pending for the label it took. -/
theorem Coherent.pending_install (coherent : s.Coherent) (moved : s.step (.install i) = some s')
    (new : s.agents.lookup label ≠ some i) (serves : s'.agents.lookup label = some i) (j : Nat) :
    s'.pendingAgents.lookup label ≠ some j := by
  intro holds
  have follows := step_follows coherent moved
  obtain ⟨ms, runs, all⟩ := follows.runs
  have unclaimed : ∀ m ∈ ms, ∀ k l, m ≠ .claim k l := fun m member =>
    (all m member).unclaimed fun _ _ same => by cases same
  have before : s.pendingAgents.lookup label = some j := runs.pending_from unclaimed holds
  rcases runs.agents_from unclaimed serves with active | pending
  · exact new active
  · -- the one that was pending is the one that is now active
    cases before.symm.trans pending
    exact follows.coherent.indexed.onePlace label label i serves holds

/-- **No cross-account takeover, and the newest wins.** In every reachable state: a step
gives a label that is active or pending for an account to no other account, and an install
replaces registrations of its own account only. An installed registration is routed through
every run whose steps do not end, retire or supersede it, and a connection that had its
claim before the install takes no step that unroutes it. -/
theorem newest_wins {config : ServerConfig} {now monotonic : ℚ} {as : List Action}
    (ran : Transition.run step (start config now monotonic) as = some s) :
    (∀ a s' label A B, s.step a = some s' → s.Uses label A → s'.Uses label B → B = A) ∧
    (∀ i j s' label old new, s.step (.install i) = some s' →
      s.agents.lookup label = some j → s.registration? j = some old →
      s'.agents.lookup label = some i → s'.registration? i = some new →
      old.accountId = new.accountId) ∧
    ∀ i s₁ label, s.step (.install i) = some s₁ →
      s.agents.lookup label ≠ some i → s₁.agents.lookup label = some i →
      ∀ bs s₂, Transition.run step s₁ bs = some s₂ →
        (Transition.Along step (fun t b => ¬ t.Unroutes label i b) s₁ bs → s₂.Routed label i) ∧
        ∀ j, s₁.Claimed j → j ≠ i → s₂.Routed label i →
          (∀ a s₃, a.actor = some j → s₂.step a = some s₃ → s₃.Routed label i) ∧
          ∀ reason timeout, s₂.retireRegistration label j reason timeout = s₂ := by
  have coherent := coherent_of_run ran
  refine ⟨fun a s' label A B moved before after => coherent.exclusive moved before after, ?_, ?_⟩
  · intro i j s' label old new moved served before serves after
    exact (coherent.exclusive moved (Or.inl ⟨j, old, served, before, rfl⟩)
      (Or.inl ⟨i, new, serves, after, rfl⟩)).symm
  · intro i s₁ label moved fresh serves bs s₂ later
    have coherent₁ := coherent.step moved
    obtain ⟨coherent₂, ms, runs⟩ := coherent₁.run later
    refine ⟨fun spared => ?_, fun j claimed apart routed => ⟨fun a s₃ acts moved' => ?_, ?_⟩⟩
    · exact coherent₁.routed_along serves spared later
    · have unheld := runs.not_pending claimed.decided (coherent.pending_install moved fresh serves j)
      exact (coherent₂.step moved').routed
        (coherent₂.keeps_route moved' routed.serves (not_unroutes apart acts unheld))
    · intro reason timeout
      unfold retireRegistration
      rw [routed.serves, if_neg]
      exact fun same => apart (Option.some.inj same).symm

/-- The first connection of `reclaimed` loses its socket after the second is installed. -/
theorem newest_wins_reclaim : ∃ s s₁ s₂ s₃,
    Transition.run step (start smallRelay 0 0) (reclaimed ++
      [.check 1, .opened 1 (some true), .recheck 1, .ready 1 true]) = some s ∧
    s.step (.install 1) = some s₁ ∧ s₁.Claimed 0 ∧
    Transition.run step s₁ [.mux 0 .connectionLost, .ended 0] = some s₂ ∧ s₂.Routed "x" 1 ∧
    s₂.step (.deregister 0) = some s₃ ∧ s₃.Routed "x" 1 := by
  have done : ((Transition.run step (start smallRelay 0 0) (reclaimed ++
      [.check 1, .opened 1 (some true), .recheck 1, .ready 1 true])).bind fun s =>
      (s.step (.install 1)).bind fun s₁ =>
        (Transition.run step s₁ [.mux 0 .connectionLost, .ended 0]).bind fun s₂ =>
          (s₂.step (.deregister 0)).map fun _ =>
            (s.agents.lookup "x", s₁.agents.lookup "x", s₁.connections[0]?.map (·.phase),
              s₂.agents.lookup "x")) =
      some (some 0, some 1, some (.running true), some 1) := by
    decide
  obtain ⟨s, ran, done⟩ := Option.bind_eq_some_iff.mp done
  obtain ⟨s₁, installed, done⟩ := Option.bind_eq_some_iff.mp done
  obtain ⟨s₂, ended, done⟩ := Option.bind_eq_some_iff.mp done
  obtain ⟨s₃, left, facts⟩ := Option.map_eq_some_iff.mp done
  simp only [Prod.mk.injEq] at facts
  obtain ⟨before, serves, first, after⟩ := facts
  obtain ⟨c, found, phase⟩ := Option.map_eq_some_iff.mp first
  have claimed : s₁.Claimed 0 := ⟨c, found, by simp [phase]⟩
  have routed : s₂.Routed "x" 1 := by
    have coherent := coherent_of_run ran
    exact ((coherent.step installed).run ended).1.routed after
  have later := ((newest_wins ran).2.2 1 s₁ "x" installed (by simp [before]) serves _ s₂ ended).2
    0 claimed (by decide) routed
  exact ⟨s, s₁, s₂, s₃, ran, installed, claimed, ended, routed, left, later.1 _ s₃ rfl left⟩

end Server

end Chute
