import Chute.Server.Keeps
import Chute.Server.Renewal

/-!
# The hello that comes again

An agent that lost its connection sends the hello it sent before. What the relay still
holds of the earlier connection can refuse it: with a close code that its client takes for
the end, and an error reply.
-/
namespace Chute

/-- `client._FATAL_CLOSE_CODES` -/
def fatalCloseCodes : List Nat := [4001, 4002, 4004]

namespace Server

variable {s s' : Server} {i j : Nat} {c c' : Connection}

/-- A `_LabelError` is sent as an error reply, too; the limits of the relay are not. -/
def Rejection.sendsError : Rejection → Bool
  | .serverTunnelLimit => false
  | .reconnectLimit => false
  | .leaseExpired => false
  | _ => true

/-- The code that `_serve_agent` closes with, if it is the one that closes. -/
def Ending.closeCode : Ending → Option Nat
  | .rejected r => some r.closeCode
  | .eventSinkUnavailable => some 1013
  | .leaseRevoked => some 1013
  | .superseded => some 4003
  | .readyFailed => none
  | .disconnected => none

/-- The client gives up: an error reply, or one of its fatal codes. -/
def Ending.fatal : Ending → Bool
  | .rejected r => r.sendsError || decide (r.closeCode ∈ fatalCloseCodes)
  | e => e.closeCode.any fun code => decide (code ∈ fatalCloseCodes)

/-- The relay has refused the connection for good. -/
def Connection.RefusedForGood (c : Connection) : Prop :=
  ∃ opened why, c.phase = .over_ opened why ∧ why.fatal = true

/-- Two connections with the same hello, for which the control plane has the same answer. -/
structure Connection.SameHello (c c' : Connection) : Prop where
  requestedSubdomain : c'.requestedSubdomain = c.requestedSubdomain
  scheme : c'.scheme = c.scheme
  accountId : c'.admission.lease.accountId = c.admission.lease.accountId
  maxTunnels : c'.admission.maxTunnels = c.admission.maxTunnels
  allowedLabel : c'.admission.allowedLabel = c.admission.allowedLabel
  budget : c'.admission.budget = c.admission.budget

/-- The label a hello stands for; `none` where one is to be assigned. -/
def wantedLabel (s : Server) (c : Connection) : Option String :=
  if s.config.baseDomain.isSome then c.requestedSubdomain else some defaultLabel

/-- A label neither in use nor reserved. -/
def labelFree (s : Server) (label : String) : Bool :=
  decide (label ∉ s.agents) && decide (label ∉ s.pendingAgents)

/-- The account has fewer labels than its admission allows. -/
def roomFor (s : Server) (c : Connection) : Bool :=
  decide ((s.ownedLabels c.admission.lease.accountId).card < c.admission.maxTunnels)

/-- Nothing that the relay holds stands in the way of the hello. A label that it wants is
held by no other account, is reserved for no claim, and is the account's already or one more
that it may have. A label to assign is found among the phrases, is the allowed one if one is
set, and is one more that the account may have. -/
def clearFor (s : Server) (c : Connection) (phrases : Fin 100 → String) : Bool :=
  match s.wantedLabel c with
  | some label =>
    !(((s.agents.lookup label).bind s.registration?).any
        fun held => held.accountId != c.admission.lease.accountId) &&
      decide (label ∉ s.pendingAgents) &&
      (decide (label ∈ s.accountLabels.members c.admission.lease.accountId) || s.roomFor c)
  | none =>
    match (List.ofFn phrases).find? s.labelFree with
    | none => false
    | some label => c.admission.allowedLabel.all (fun allowed => label == lower allowed) && s.roomFor c

/-! ### What a connection that got its claim has passed -/

/-- The checks of a claim that depend on the hello, the admission and the configuration only. -/
structure Connection.Passed (config : ServerConfig) (c : Connection) : Prop where
  hosted : config.baseDomain.isSome = true → ∀ label, c.requestedSubdomain = some label →
    validLabel label = true ∧ c.label = label
  plain : config.baseDomain.isSome = false → c.requestedSubdomain = none ∧ c.label = defaultLabel
  allowed : ∀ allowed, c.admission.allowedLabel = some allowed →
    validLabel (lower allowed) = true ∧ c.label = lower allowed
  served : ∀ s : Server, s.config = config → ∃ url, s.publicUrlFor c.label c.scheme = .ok url

theorem Connection.Passed.of_hello {config : ServerConfig} (passed : c.Passed config)
    (hello : c'.hello = c.hello) (label : c'.label = c.label) : c'.Passed config := by
  have requested : c'.requestedSubdomain = c.requestedSubdomain := congrArg Prod.fst hello
  have scheme : c'.scheme = c.scheme := congrArg (fun hello => hello.2.1) hello
  have admission : c'.admission = c.admission := congrArg (fun hello => hello.2.2.1) hello
  constructor
  · rw [requested, label]
    exact passed.hosted
  · rw [requested, label]
    exact passed.plain
  · rw [admission, label]
    exact passed.allowed
  · rw [scheme, label]
    exact passed.served

/-- Whether a scheme is served does not depend on the label. -/
theorem publicUrlFor_ok_congr {label label' url : String} {scheme : Scheme}
    (same : s'.config = s.config) (ok : s.publicUrlFor label scheme = .ok url) :
    ∃ url', s'.publicUrlFor label' scheme = .ok url' := by
  cases scheme with
  | http =>
    unfold publicUrlFor
    cases s'.config.baseDomain with
    | none => exact ⟨_, rfl⟩
    | some domain => exact ⟨_, rfl⟩
  | https =>
    unfold publicUrlFor httpsPublicUrlFor at ok ⊢
    rw [same]
    by_cases available : (s.config.publicTls || s.config.upstreamTls) = true
    · rw [if_pos available] at ok ⊢
      cases hosted : s.config.baseDomain with
      | some domain => exact ⟨_, rfl⟩
      | none =>
        cases configured : s.config.publicHttpsUrl with
        | some url => exact ⟨_, rfl⟩
        | none =>
          by_cases upstream : s.config.upstreamTls = true
          · exact ⟨_, by simp only [upstream, if_true]; rfl⟩
          · simp [hosted, configured, upstream] at ok
    · rw [if_neg available] at ok
      cases ok

/-- The label that a claim chose fits the hello and the admission. -/
theorem passed_of_prepareClaim {phrases : Fin 100 → String} {label url : String}
    (ok : s.prepareClaim c phrases = .ok (label, url)) (labelled : c'.label = label)
    (hello : c'.hello = c.hello) : c'.Passed s.config := by
  have requested : c'.requestedSubdomain = c.requestedSubdomain := congrArg Prod.fst hello
  have scheme : c'.scheme = c.scheme := congrArg (fun hello => hello.2.1) hello
  have admission : c'.admission = c.admission := congrArg (fun hello => hello.2.2.1) hello
  obtain ⟨chosen, authorised, -, published⟩ := prepareClaim_ok ok
  unfold chooseLabel at chosen
  constructor
  · intro hosted asked wants
    rw [requested] at wants
    rw [if_pos hosted, wants] at chosen
    unfold assignLabel at chosen
    simp only at chosen
    split at chosen
    next valid =>
      cases chosen
      exact ⟨valid, labelled⟩
    · cases chosen
  · intro bare
    rw [if_neg (by rw [bare]; nofun)] at chosen
    split at chosen
    · cases chosen
    next unasked =>
      cases chosen
      rw [requested, labelled]
      exact ⟨by simpa using unasked, rfl⟩
  · intro allowed has
    rw [admission] at has
    unfold authorizeClaim at authorised
    split at authorised
    · cases authorised
    next fits =>
      rw [has, Option.any_some] at fits
      simp only [Bool.or_eq_true, Bool.not_eq_true', bne_iff_ne, ne_eq, not_or,
        Bool.not_eq_false, not_not] at fits
      exact ⟨fits.1, labelled.trans fits.2⟩
  · intro t same
    rw [scheme]
    exact publicUrlFor_ok_congr same published

/-- Every connection with a registration has passed its checks. -/
def Screened (s : Server) : Prop :=
  ∀ (j : Nat) (c : Connection), s.connections[j]? = some c → c.registration.isSome = true →
    c.Passed s.config

theorem Screened.step (screened : s.Screened) {a : Action} (moved : s.step a = some s') :
    s'.Screened := by
  have before : s.Vouched fun bound _ =>
      ∀ c : Connection, c.hello = bound.1 → c.label = bound.2 → c.Passed s.config :=
    fun j c reg found registered c' hello label =>
      (screened j c found (by rw [registered]; rfl)).of_hello hello label
  have after := before.step moved fun i phrases c label url _ prepared c' hello labelled =>
    passed_of_prepareClaim prepared labelled hello
  intro j c found registered
  obtain ⟨reg, here⟩ := Option.isSome_iff_exists.mp registered
  rw [config_step moved]
  exact after j c reg found here c rfl rfl

theorem screened_of_run {config : ServerConfig} {now monotonic : ℚ} {as : List Action}
    (ran : Transition.run step (start config now monotonic) as = some s) : s.Screened :=
  Transition.run_invariant' (fun _ _ _ screened moved => Screened.step screened moved)
    (fun j c found => by simp [start] at found) ran

/-! ### The claim of the hello that comes again -/

theorem mem_ownedLabels_of_unreserved {label accountId : String} (free : label ∉ s.pendingAgents) :
    label ∈ s.ownedLabels accountId ↔ label ∈ s.accountLabels.members accountId := by
  unfold ownedLabels
  simp only [Finset.mem_union, List.mem_toFinset, List.mem_map, List.mem_filter]
  constructor
  · rintro (active | ⟨e, ⟨member, -⟩, rfl⟩)
    · exact active
    · exact absurd (AList.mem_keys.mpr (List.mem_map_of_mem member)) free
  · exact Or.inl

/-- When a claim is authorised. -/
theorem authorizeClaim_eq_none_iff {admission : TunnelAdmission} {label : String} :
    s.authorizeClaim admission label = none ↔
      (∀ allowed, admission.allowedLabel = some allowed →
        validLabel (lower allowed) = true ∧ label = lower allowed) ∧
      (((s.agents.lookup label).bind s.registration?).any
        fun held => held.accountId != admission.lease.accountId) = false ∧
      label ∉ s.pendingAgents ∧
      (label ∈ s.accountLabels.members admission.lease.accountId ∨
        (s.ownedLabels admission.lease.accountId).card < admission.maxTunnels) := by
  have fits : (admission.allowedLabel.any fun allowed =>
      !validLabel (lower allowed) || label != lower allowed) = false ↔
        ∀ allowed, admission.allowedLabel = some allowed →
          validLabel (lower allowed) = true ∧ label = lower allowed := by
    cases admission.allowedLabel with
    | none => simp
    | some allowed => simp
  rw [← fits]
  unfold authorizeClaim
  cases notAllowed : admission.allowedLabel.any fun allowed =>
      !validLabel (lower allowed) || label != lower allowed with
  | true => simp
  | false =>
    cases taken : ((s.agents.lookup label).bind s.registration?).any
        fun held => held.accountId != admission.lease.accountId with
    | true => simp
    | false =>
      by_cases reserved : label ∈ s.pendingAgents
      · simp [reserved]
      · have owned : label ∈ s.ownedLabels admission.lease.accountId ↔
            label ∈ s.accountLabels.members admission.lease.accountId :=
          mem_ownedLabels_of_unreserved reserved
        by_cases full : label ∉ s.ownedLabels admission.lease.accountId ∧
            (s.ownedLabels admission.lease.accountId).card ≥ admission.maxTunnels
        · simp only [reserved, full, if_true, reduceCtorEq, if_false, Bool.false_eq_true, not_false_eq_true,
            true_and, and_true, false_iff]
          rintro (active | room)
          · exact full.1 (owned.mpr active)
          · exact absurd room (not_lt.mpr full.2)
        · simp only [reserved, full, if_false, Bool.false_eq_true, not_false_eq_true, true_and, true_iff]
          by_contra refused
          simp only [not_or, not_lt] at refused
          exact full ⟨fun member => refused.1 (owned.mp member), refused.2⟩

theorem authorizeClaim_fatal {admission : TunnelAdmission} {label : String} {r : Rejection}
    (refused : s.authorizeClaim admission label = some r) : (Ending.rejected r).fatal = true := by
  unfold authorizeClaim at refused
  split at refused
  · cases refused
    rfl
  split at refused
  · cases refused
    rfl
  split at refused
  · cases refused
    rfl
  split at refused
  · cases refused
    rfl
  · cases refused

/-- What a claim is refused for that can be authorised and is served can be cured by a retry. -/
theorem checkClaim_fatal_iff {label url : String} (served : s.publicUrlFor label c.scheme = .ok url) :
    (∃ r, s.checkClaim c label = .error r ∧ (Ending.rejected r).fatal = true) ↔
      s.authorizeClaim c.admission label ≠ none := by
  unfold checkClaim
  cases authorised : s.authorizeClaim c.admission label with
  | some r => simp [authorizeClaim_fatal authorised]
  | none =>
    simp only [served, Except.map, ne_eq, not_true_eq_false, iff_false, not_exists, not_and,
      Bool.not_eq_true]
    intro r refused
    split at refused
    · cases refused
    · cases refused
      rfl

/-- **The claim of a known hello is refused for good exactly where something stands in its
way.** -/
theorem Coherent.prepareClaim_fatal_iff (coherent : s.Coherent) {earlier : Connection}
    (passed : earlier.Passed s.config) (again : earlier.SameHello c) (phrases : Fin 100 → String) :
    (∃ r, s.prepareClaim c phrases = .error r ∧ (Ending.rejected r).fatal = true) ↔
      s.clearFor c phrases = false := by
  have served : ∀ label, ∃ url, s.publicUrlFor label c.scheme = .ok url := by
    intro label
    obtain ⟨url, ok⟩ := passed.served s rfl
    rw [again.scheme]
    exact publicUrlFor_ok_congr rfl ok
  have wanted : ∀ label, s.chooseLabel c phrases = .ok label → label = earlier.label →
      ((∃ r, s.prepareClaim c phrases = .error r ∧ (Ending.rejected r).fatal = true) ↔
        (!(((s.agents.lookup label).bind s.registration?).any
            fun held => held.accountId != c.admission.lease.accountId) &&
          decide (label ∉ s.pendingAgents) &&
          (decide (label ∈ s.accountLabels.members c.admission.lease.accountId) || s.roomFor c)) =
            false) := by
    intro label chosen same
    obtain ⟨url, ok⟩ := served label
    have fits : ∀ allowed, c.admission.allowedLabel = some allowed →
        validLabel (lower allowed) = true ∧ label = lower allowed := by
      intro allowed has
      rw [same]
      exact passed.allowed allowed (again.allowedLabel ▸ has)
    unfold prepareClaim
    rw [chosen]
    simp only [Except.bind]
    rw [checkClaim_fatal_iff ok, ne_eq, authorizeClaim_eq_none_iff]
    refine (not_congr ?_).trans (Iff.of_eq (Bool.not_eq_true _))
    simp only [Bool.and_eq_true, Bool.not_eq_true', decide_eq_true_eq, Bool.or_eq_true, roomFor]
    constructor
    · rintro ⟨-, held, free, room⟩
      exact ⟨⟨held, free⟩, room⟩
    · rintro ⟨⟨held, free⟩, room⟩
      exact ⟨fits, held, free, room⟩
  unfold clearFor wantedLabel
  cases hosted : s.config.baseDomain.isSome with
  | false =>
    obtain ⟨unasked, labelled⟩ := passed.plain hosted
    have chosen : s.chooseLabel c phrases = .ok defaultLabel := by
      unfold chooseLabel
      simp [hosted, again.requestedSubdomain, unasked]
    simp only [Bool.false_eq_true, if_false]
    exact wanted defaultLabel chosen labelled.symm
  | true =>
    simp only [if_true]
    cases requested : c.requestedSubdomain with
    | some label =>
      obtain ⟨valid, labelled⟩ :=
        passed.hosted hosted label (again.requestedSubdomain ▸ requested)
      have chosen : s.chooseLabel c phrases = .ok label := by
        unfold chooseLabel assignLabel
        simp [hosted, requested, valid]
      exact wanted label chosen labelled.symm
    | none =>
      simp only
      have assigned : s.chooseLabel c phrases =
          match (List.ofFn phrases).find? s.labelFree with
          | some label => .ok label
          | none => .error .noFreeSubdomain := by
        unfold chooseLabel assignLabel
        simp only [hosted, requested, if_true]
        rfl
      cases drawn : (List.ofFn phrases).find? s.labelFree with
      | none =>
        rw [drawn] at assigned
        simp only [iff_true]
        exact ⟨.noFreeSubdomain, by unfold prepareClaim; rw [assigned]; rfl, rfl⟩
      | some label =>
        rw [drawn] at assigned
        have free := List.find?_some drawn
        simp only [labelFree, Bool.and_eq_true, decide_eq_true_eq] at free
        obtain ⟨inactive, unreserved⟩ := free
        obtain ⟨url, ok⟩ := served label
        have unheld : s.agents.lookup label = none := AList.lookup_eq_none.mpr inactive
        have unowned : label ∉ s.accountLabels.members c.admission.lease.accountId := by
          intro active
          obtain ⟨k, reg, serves, -⟩ := (coherent.indexed.accountLabels _ label).mp active
          rw [unheld] at serves
          cases serves
        unfold prepareClaim
        rw [assigned]
        simp only [Except.bind]
        rw [checkClaim_fatal_iff ok, ne_eq, authorizeClaim_eq_none_iff]
        refine (not_congr ?_).trans (Iff.of_eq (Bool.not_eq_true _))
        simp only [unheld, Option.bind_none, Option.any_none, unreserved, not_false_eq_true, true_and,
          unowned, false_or, Bool.and_eq_true, Option.all_eq_true, beq_iff_eq, roomFor,
          decide_eq_true_eq]
        refine and_congr_left fun _ => forall_congr' fun allowed => ?_
        constructor
        · intro fits has
          exact (fits has).2
        · intro same has
          exact ⟨(passed.allowed allowed (again.allowedLabel ▸ has)).1, same has⟩

/-! ### The rest of the connection -/

/-- How a call ended or is about to end. -/
def Phase.ending : Phase → Option Ending
  | .over_ _ why => some why
  | .dropping _ why => some why
  | _ => none

/-- Past its claim, and neither refused for good nor on the way to it. -/
def Connection.Welcome (c : Connection) : Prop :=
  c.phase ≠ .admitted ∧ ∀ why, c.phase.ending = some why → why.fatal = false

def Welcome (s : Server) (i : Nat) : Prop := ∃ c, s.connections[i]? = some c ∧ c.Welcome

theorem Welcome.undisturbed {p : Nat → Prop} (welcome : s.Welcome i) (kept : Undisturbed p s s')
    (apart : ¬ p i) : s'.Welcome i := by
  obtain ⟨c, found, here⟩ := welcome
  obtain ⟨c', found', same⟩ := kept.found apart found
  have phase := (Connection.kept_eq same).1
  refine ⟨c', found', ?_⟩
  unfold Connection.Welcome
  rw [phase]
  exact here

theorem Welcome.setPhase (welcome : s.Welcome i) {phase : Phase} (past : phase ≠ .admitted)
    (curable : ∀ why, phase.ending = some why → why.fatal = false) : (s.setPhase i phase).Welcome i := by
  obtain ⟨c, found, -⟩ := welcome
  exact ⟨_, connection_modifyConnection found _, past, curable⟩

theorem Welcome.setRenewal (welcome : s.Welcome i) (renewal : RenewalPhase) :
    (s.setRenewal i renewal).Welcome i := by
  obtain ⟨c, found, here⟩ := welcome
  exact ⟨_, connection_modifyConnection found _, here⟩

theorem Welcome.modifyRegistration (welcome : s.Welcome i)
    (f : TunnelRegistration → TunnelRegistration) : (s.modifyRegistration i f).Welcome i := by
  obtain ⟨c, found, here⟩ := welcome
  exact ⟨_, connection_modifyConnection found _, here⟩

theorem Welcome.retire (welcome : s.Welcome i) (label : String) (reason : RetireReason) (timeout : ℚ)
    (renewal : RenewalPhase) :
    ((s.retireRegistration label i reason timeout).setRenewal i renewal).Welcome i :=
  (welcome.undisturbed (undisturbed_retireRegistration (p := fun _ => False) s label i reason
    timeout) id).setRenewal renewal

theorem Welcome.install (welcome : s.Welcome i) (c : Connection) (opened : Bool) :
    (s.install i c opened).Welcome i := by
  unfold Server.install
  split
  · exact welcome
  next reg known =>
    split
    · have dropped : Undisturbed (fun _ => False) s { s with
          pendingLeaseLabels := unindexLeaseLabel s.pendingLeaseLabels c.label reg
          pendingAgents := s.pendingAgents.erase c.label } := .of_eq rfl rfl rfl rfl
      simp only
      generalize { s with
        pendingLeaseLabels := unindexLeaseLabel s.pendingLeaseLabels c.label reg
        pendingAgents := s.pendingAgents.erase c.label } = t at dropped ⊢
      have accepting : Undisturbed (fun _ => False) t (t.modifyRegistration i fun reg =>
          { reg with acceptingVisitors := true }) := undisturbed_modifyRegistration fun _ _ => rfl
      have kept := (dropped.trans accepting).trans
        (undisturbed_installRegistration _ c.label i { reg with acceptingVisitors := true })
      have running : Phase.ending (.running opened) = none := rfl
      have entered := (welcome.undisturbed kept id).setPhase
        (show Phase.running opened ≠ .admitted by nofun) fun why ends => by rw [running] at ends; cases ends
      have installed := entered.setRenewal (if reg.leaseExpiresAt.isSome then .head else .off)
      split
      · exact installed
      · exact installed
    · refine welcome.setPhase nofun ?_
      rintro _ ⟨⟩
      rfl

/-- No step of its own call or renewal task refuses a connection for good after its claim. -/
theorem Welcome.own (welcome : s.Welcome i) {a : Action} (own : a.task = some i)
    (moved : s.step a = some s') : s'.Welcome i := by
  obtain ⟨c, found, past, curable⟩ := id welcome
  cases a with
  | claim k phrases =>
    cases own
    simp [Server.step, found] at moved
  | check k =>
    cases own
    obtain ⟨c', found', moved⟩ := Option.bind_eq_some_iff.mp moved
    split at moved <;> cases moved
    refine welcome.setPhase ?_ ?_
    · split <;> simp
    · split
      · rintro _ ⟨⟩
      · rintro _ ⟨⟩
        rfl
  | opened k result =>
    cases own
    obtain ⟨c', found', moved⟩ := Option.bind_eq_some_iff.mp moved
    split at moved
    · cases moved
      exact welcome.setPhase (by simp) (by rintro _ ⟨⟩)
    · cases moved
      refine welcome.setPhase (by simp) ?_
      rintro _ ⟨⟩
      rfl
    · cases moved
  | recheck k =>
    cases own
    obtain ⟨c', found', moved⟩ := Option.bind_eq_some_iff.mp moved
    split at moved <;> cases moved
    refine welcome.setPhase ?_ ?_
    · split <;> simp
    · split
      · rintro _ ⟨⟩
      · rintro _ ⟨⟩
        rfl
  | ready k sent =>
    cases own
    obtain ⟨c', found', moved⟩ := Option.bind_eq_some_iff.mp moved
    split at moved <;> cases moved
    refine welcome.setPhase ?_ ?_
    · split <;> simp
    · split
      · rintro _ ⟨⟩
      · rintro _ ⟨⟩
        rfl
  | drop k =>
    cases own
    obtain ⟨c', found', moved⟩ := Option.bind_eq_some_iff.mp moved
    rw [found] at found'
    cases found'
    split at moved <;> cases moved
    next opened why dropping =>
      have kept := welcome.undisturbed (undisturbed_dropPendingIfCurrent (p := fun _ => False) s
        c.label i) id
      refine kept.setPhase (by simp) ?_
      rintro _ ⟨⟩
      exact curable why (by rw [dropping]; rfl)
  | install k =>
    cases own
    obtain ⟨c', found', moved⟩ := Option.bind_eq_some_iff.mp moved
    split at moved <;> cases moved
    exact welcome.install c' _
  | ended k =>
    cases own
    obtain ⟨c', found', moved⟩ := Option.bind_eq_some_iff.mp moved
    split at moved
    · split at moved <;> cases moved
      exact welcome.setPhase (by simp) (by rintro _ ⟨⟩)
    · cases moved
  | renewalCancelled k =>
    cases own
    obtain ⟨c', found', moved⟩ := Option.bind_eq_some_iff.mp moved
    split at moved <;> cases moved
    exact welcome.setRenewal _
  | deregister k =>
    cases own
    obtain ⟨c', found', moved⟩ := Option.bind_eq_some_iff.mp moved
    split at moved <;> cases moved
    have kept := welcome.undisturbed (undisturbed_deregisterIfCurrent (p := fun _ => False) s
      c'.label i) id
    refine kept.setPhase (by simp) ?_
    rintro _ ⟨⟩
    rfl
  | renewHead k =>
    cases own
    obtain ⟨c', found', moved⟩ := Option.bind_eq_some_iff.mp moved
    split at moved
    · obtain ⟨reg, -, rfl⟩ := Option.map_eq_some_iff.mp moved
      unfold Server.renewHead
      split
      · exact welcome.setRenewal _
      · split
        · exact welcome.setRenewal _
        · split
          · exact welcome.retire _ _ _ _
          · exact welcome.setRenewal _
    · cases moved
  | renewWake k =>
    cases own
    obtain ⟨c', found', moved⟩ := Option.bind_eq_some_iff.mp moved
    split at moved
    · obtain ⟨reg, -, rfl⟩ := Option.map_eq_some_iff.mp moved
      unfold Server.renewWake
      split
      · exact welcome.setRenewal _
      · split
        · exact welcome.retire _ _ _ _
        · split
          · exact welcome.setRenewal _
          · exact welcome.setRenewal _
    · cases moved
  | renewAcquired k acquired =>
    cases own
    obtain ⟨c', found', moved⟩ := Option.bind_eq_some_iff.mp moved
    split at moved
    · split at moved
      · cases moved
        exact welcome.setRenewal _
      · cases moved
        exact welcome.setRenewal _
    · cases moved
  | renewResult k renewed =>
    cases own
    obtain ⟨c', found', moved⟩ := Option.bind_eq_some_iff.mp moved
    split at moved
    · obtain ⟨reg, registered, rfl⟩ := Option.map_eq_some_iff.mp moved
      unfold Server.renewResult
      split
      · exact welcome.setRenewal _
      · split
        · exact welcome.setRenewal _
        · split
          · exact Welcome.retire (s := { s with
              leaseRenewalsRevoked := s.leaseRenewalsRevoked + 1 }) welcome _ _ _ _
          · split
            · exact welcome.setRenewal _
            · simp only
              split
              · exact (welcome.modifyRegistration _).retire _ _ _ _
              · exact (welcome.modifyRegistration _).setRenewal _
    · cases moved
  | clock | admitTunnel | revokeLease | applyPolicyUpdate | visit | visitorOpened |
      visitorFailed | visitorLeft | throttle | mux => cases own

/-- Nothing that happens after the claim refuses a connection for good. -/
theorem Welcome.step (welcome : s.Welcome i) {a : Action} (moved : s.step a = some s') :
    s'.Welcome i := by
  by_cases ticks : ∃ now monotonic, a = .clock now monotonic
  · obtain ⟨now, monotonic, rfl⟩ := ticks
    cases moved
    exact welcome
  by_cases own : a.task = some i
  · exact welcome.own own moved
  · obtain ⟨c, found, -⟩ := id welcome
    refine welcome.undisturbed (step_undisturbed moved fun now monotonic same =>
      ticks ⟨now, monotonic, same⟩) ?_
    rintro (mine | ⟨-, last⟩)
    · exact own mine
    · rw [last, List.getElem?_eq_none le_rfl] at found
      cases found

/-- What the claim of a connection leaves. -/
theorem phase_of_claim (found : s.connections[i]? = some c) (phrases : Fin 100 → String) :
    ∃ c', (s.claim i c phrases).connections[i]? = some c' ∧
      ((∃ r, s.prepareClaim c phrases = .error r ∧ c'.phase = .over_ false (.rejected r)) ∨
        (∃ label url, s.prepareClaim c phrases = .ok (label, url)) ∧
          (c'.phase = .claimed ∨ c'.phase = .over_ false (.rejected .reconnectLimit) ∨
            c'.phase = .over_ false (.rejected .leaseExpired))) := by
  obtain ⟨reconnects, ⟨r, why, same⟩ | ⟨label, url, prepared, same⟩⟩ := claim_cases s i c phrases
  · rw [same]
    refine ⟨_, connection_modifyConnection found _, ?_⟩
    rcases why with refused | ⟨⟨⟨label, url⟩, prepared⟩, rfl | rfl⟩
    · exact Or.inl ⟨r, refused, rfl⟩
    · exact Or.inr ⟨⟨label, url, prepared⟩, Or.inr (Or.inl rfl)⟩
    · exact Or.inr ⟨⟨label, url, prepared⟩, Or.inr (Or.inr rfl)⟩
  · rw [same]
    exact ⟨_, connection_modifyConnection found _, Or.inr ⟨⟨label, url, prepared⟩, Or.inl rfl⟩⟩

/-- **The hello that comes again is refused for good exactly where something that the relay
holds stands in its way.** Of two connections with the same hello, the earlier one got its
claim at some time of the run. The claim of the later one, and all that follows it, never
closes it with a code that is fatal to the client and never sends it an error reply, if and
only if the relay is clear for the hello at the claim. -/
theorem reconnect_iff {config : ServerConfig} {now monotonic : ℚ} {as : List Action}
    (ran : Transition.run step (start config now monotonic) as = some s) {earlier : Connection}
    (before : s.connections[j]? = some earlier) (registered : earlier.registration.isSome = true)
    (found : s.connections[i]? = some c) (again : earlier.SameHello c) {phrases : Fin 100 → String}
    (moved : s.step (.claim i phrases) = some s') :
    (∀ bs t, Transition.run step s' bs = some t → ∀ c', t.connections[i]? = some c' →
        ¬ c'.RefusedForGood) ↔ s.clearFor c phrases = true := by
  have passed := screened_of_run ran j earlier before registered
  have fatal := (coherent_of_run ran).prepareClaim_fatal_iff passed again phrases
  obtain ⟨c₀, found₀, moved⟩ := Option.bind_eq_some_iff.mp moved
  rw [found] at found₀
  cases found₀
  split at moved <;> cases moved
  obtain ⟨c', found', outcome⟩ := phase_of_claim found phrases
  constructor
  · intro never
    by_contra blocked
    obtain ⟨r, refused, forever⟩ := fatal.mpr (Bool.eq_false_iff.mpr blocked)
    rcases outcome with ⟨r', refused', ended⟩ | ⟨⟨label, url, ok⟩, -⟩
    · rw [refused] at refused'
      cases refused'
      exact never [] _ rfl c' found' ⟨_, _, ended, forever⟩
    · rw [refused] at ok
      cases ok
  · intro clear bs t later c'' found'' refused
    have welcome : (s.claim i c phrases).Welcome i := by
      refine ⟨c', found', ?_⟩
      rcases outcome with ⟨r, refused, ended⟩ | ⟨-, claimed | limited | expired⟩
      · refine ⟨by rw [ended]; nofun, ?_⟩
        rw [ended]
        rintro _ ⟨⟩
        by_contra forever
        have blocked := fatal.mp ⟨r, refused, by simpa using forever⟩
        rw [clear] at blocked
        cases blocked
      · exact ⟨by rw [claimed]; nofun, by rw [claimed]; nofun⟩
      · refine ⟨by rw [limited]; nofun, ?_⟩
        rw [limited]
        rintro _ ⟨⟩
        rfl
      · refine ⟨by rw [expired]; nofun, ?_⟩
        rw [expired]
        rintro _ ⟨⟩
        rfl
    have kept : ∀ (t : Server) a (t' : Server), t.Welcome i → t.step a = some t' → t'.Welcome i :=
      fun _ _ _ welcome moved => welcome.step moved
    obtain ⟨c₁, found₁, -, curable⟩ := Transition.run_invariant' kept welcome later
    rw [found''] at found₁
    cases found₁
    obtain ⟨opened, why, ended, forever⟩ := refused
    rw [curable why (by rw [ended]; rfl)] at forever
    cases forever

/-- A registered tunnel whose hello comes again. -/
def helloAgain : List Action :=
  .admitTunnel (plainAdmission "a" "first" 1 .none) (some "x") .http .default :: setUp 0 ++
    [.admitTunnel (plainAdmission "a" "second" 1 .none) (some "x") .http .default]

theorem reconnect_of_registered : ∃ s s', Transition.run step (start smallRelay 0 0) helloAgain = some s ∧
    s.step (.claim 1 fun _ => "") = some s' ∧
    ∀ bs t, Transition.run step s' bs = some t → ∀ c', t.connections[1]? = some c' →
      ¬ c'.RefusedForGood := by
  have done : ((Transition.run step (start smallRelay 0 0) helloAgain).bind fun s =>
      (s.connections[0]?).bind fun earlier => (s.connections[1]?).map fun c =>
        (earlier.registration.isSome, (s.step (.claim 1 fun _ => "")).isSome,
          s.clearFor c fun _ => "",
          decide ((c.requestedSubdomain, c.scheme, c.admission.lease.accountId,
            c.admission.maxTunnels, c.admission.allowedLabel, c.admission.budget) =
            (earlier.requestedSubdomain, earlier.scheme, earlier.admission.lease.accountId,
              earlier.admission.maxTunnels, earlier.admission.allowedLabel,
              earlier.admission.budget)))) = some (true, true, true, true) := by
    decide
  obtain ⟨s, ran, rest⟩ := Option.bind_eq_some_iff.mp done
  obtain ⟨earlier, before, rest⟩ := Option.bind_eq_some_iff.mp rest
  obtain ⟨c, found, facts⟩ := Option.map_eq_some_iff.mp rest
  simp only [Prod.mk.injEq, decide_eq_true_eq] at facts
  obtain ⟨registered, moves, clear, requested, scheme, account, limit, allowed, budget⟩ := facts
  obtain ⟨s', moved⟩ := Option.isSome_iff_exists.mp moves
  have again : earlier.SameHello c := ⟨requested, scheme, account, limit, allowed, budget⟩
  exact ⟨s, s', ran, moved, (reconnect_iff ran before registered found again moved).mpr clear⟩

/-- The hello comes again while the first claim of its label is still reserved. -/
def heldPending : List Action :=
  [.admitTunnel (plainAdmission "a" "first" 1 .none) (some "x") .http .default,
    .claim 0 (fun _ => ""),
    .admitTunnel (plainAdmission "a" "second" 1 .none) (some "x") .http .default,
    .claim 1 fun _ => ""]

/-- The hello asks for no label, and comes again while its first label is still registered. -/
def heldAssigned : List Action :=
  [.admitTunnel (plainAdmission "a" "first" 1 .none) none .http .default,
    .claim 0 (fun _ => "calm-otter"), .check 0, .opened 0 (some true), .recheck 0, .ready 0 true,
    .install 0,
    .admitTunnel (plainAdmission "a" "second" 1 .none) none .http .default,
    .claim 1 fun _ => "brisk-heron"]

theorem refused_by_itself :
    ((Transition.run step (start smallRelay 0 0) heldPending).bind fun s =>
        (s.connections[1]?).map Connection.phase) =
      some (.over_ false (.rejected .subdomainPending)) ∧
    ((Transition.run step (start smallRelay 0 0) heldAssigned).bind fun s =>
        (s.connections[1]?).map Connection.phase) =
      some (.over_ false (.rejected .tunnelLimit)) ∧
    ∀ r ∈ [Rejection.subdomainPending, .tunnelLimit],
      r.sendsError = true ∧ r.closeCode ∈ fatalCloseCodes := by
  decide

end Server

end Chute
