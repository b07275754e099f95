import Chute.Server.Basic

/-!
# The tasks of the relay

`_serve_agent`, the renewal tasks, the visitors and the policy updates, each cut at its
`await`s. Everything between two `await`s is one step, so the steps of all tasks
interleave in any order. What the outside decides (the control plane's answers, the
event sink, the sockets, the clocks, the random phrases) is part of the action.
-/
namespace Chute

namespace Server

/-! ### The claim -/

/-- `_assign_label`; `phrases` are the random phrases it would draw. -/
def assignLabel (s : Server) (requested : Option String) (phrases : Fin 100 → String) :
    Except Rejection String :=
  match requested with
  | some label => if validLabel label then .ok label else .error .invalidSubdomain
  | none =>
    match (List.ofFn phrases).find? fun label =>
        decide (label ∉ s.agents) && decide (label ∉ s.pendingAgents) with
    | some label => .ok label
    | none => .error .noFreeSubdomain

/-- The labels an account holds or is about to hold. -/
def ownedLabels (s : Server) (accountId : String) : Finset String :=
  (s.accountLabels.members accountId).toFinset ∪
    ((s.pendingAgents.entries.filter fun e =>
      (s.registration? e.2).any (·.accountId == accountId)).map Sigma.fst).toFinset

/-- `_authorize_claim`, with the rejection it raises. -/
def authorizeClaim (s : Server) (admission : TunnelAdmission) (label : String) : Option Rejection :=
  if admission.allowedLabel.any fun allowed => !validLabel (lower allowed) || label != lower allowed
  then some .subdomainNotAllowed
  else if ((s.agents.lookup label).bind s.registration?).any
      fun held => held.accountId != admission.lease.accountId then
    some .subdomainTaken
  else if label ∈ s.pendingAgents then some .subdomainPending
  else if label ∉ s.ownedLabels admission.lease.accountId ∧
      (s.ownedLabels admission.lease.accountId).card ≥ admission.maxTunnels then
    some .tunnelLimit
  else none

/-- `_global_agent_budget_ok` -/
def globalAgentBudgetOk (s : Server) (label : String) : Bool :=
  decide (label ∈ s.agents) ||
    decide (s.agents.keys.length + s.pendingAgents.keys.length < s.config.maxAgents)

/-- `_https_public_url_for`; nothing serves https without a listener or an upstream. -/
def httpsPublicUrlFor (s : Server) (label : String) : Except Rejection String :=
  match s.config.baseDomain with
  | some domain => .ok ("https://" ++ label ++ "." ++ domain ++ "/")
  | none =>
    match s.config.publicHttpsUrl with
    | some url => .ok url
    | none => if s.config.upstreamTls then .ok (s.config.publicUrl .https) else .error .httpsUnavailable

/-- `_public_url_for` -/
def publicUrlFor (s : Server) (label : String) : Scheme → Except Rejection String
  | .http =>
    match s.config.baseDomain with
    | some domain => .ok ("http://" ++ label ++ "." ++ domain ++ "/")
    | none => .ok (s.config.publicUrl .http)
  | .https =>
    if s.config.publicTls || s.config.upstreamTls then s.httpsPublicUrlFor label
    else .error .httpsUnavailable

/-- `_RECONNECT_WINDOW`, `_RECONNECT_SWEEP_AT`, `_RECONNECT_MAX_ACCOUNTS` -/
def reconnectWindow : ℚ := 60

def reconnectSweepAt : Nat := 4096

def reconnectMaxAccounts : Nat := 65536

/-- Assignment to a key of an insertion-ordered dictionary. -/
def putReconnects (reconnects : List (String × List ℚ)) (accountId : String) (attempts : List ℚ) :
    List (String × List ℚ) :=
  if reconnects.any (·.1 == accountId) then
    reconnects.map fun e => if e.1 = accountId then (accountId, attempts) else e
  else reconnects ++ [(accountId, attempts)]

/-- `_account_reconnect_budget_ok` -/
def accountReconnectBudgetOk (s : Server) (accountId : String) (budget : Budget) : Bool × Server :=
  match budget.maxReconnectsPerMin with
  | none => (true, s)
  | some limit =>
    let now := s.monotonic
    let fresh := ((s.accountReconnects.lookup accountId).getD []).filter fun t =>
      now - t < reconnectWindow
    let pruned := s.accountReconnects.filter (·.1 != accountId)
    if fresh.length ≥ limit then
      (false, { s with accountReconnects :=
        if fresh = [] then pruned else putReconnects s.accountReconnects accountId fresh })
    else
      let noted :=
        -- an entry that ran empty was taken out, and comes back at the end
        if fresh = [] then pruned ++ [(accountId, [now])]
        else putReconnects s.accountReconnects accountId (fresh ++ [now])
      let swept := if noted.length > reconnectSweepAt then
        noted.filter fun e => !e.2.all fun t => reconnectWindow ≤ now - t
        else noted
      (true, { s with accountReconnects := swept.drop (swept.length - reconnectMaxAccounts) })

/-- The label a claim is for; without a base domain there is one label only. -/
def chooseLabel (s : Server) (c : Connection) (phrases : Fin 100 → String) :
    Except Rejection String :=
  if s.config.baseDomain.isSome then s.assignLabel c.requestedSubdomain phrases
  else if c.requestedSubdomain.isSome then .error .subdomainUnsupported
  else .ok defaultLabel

/-- The checks of a claim up to the reconnect limiter, and the public URL. -/
def checkClaim (s : Server) (c : Connection) (label : String) : Except Rejection (String × String) :=
  match s.authorizeClaim c.admission label with
  | some rejection => .error rejection
  | none =>
    if s.globalAgentBudgetOk label then (s.publicUrlFor label c.scheme).map (label, ·)
    else .error .serverTunnelLimit

def prepareClaim (s : Server) (c : Connection) (phrases : Fin 100 → String) :
    Except Rejection (String × String) :=
  (s.chooseLabel c phrases).bind (s.checkClaim c)

/-- The `TunnelRegistration` that a claim builds. -/
def newRegistration (s : Server) (c : Connection) (url : String) : TunnelRegistration :=
  let lease := c.admission.lease
  { mux := Mux.new (.server c.flowWindow)
    accountId := lease.accountId
    budget := s.accountBudgetFor lease.accountId c.admission.budget
    credentialId := lease.credentialId
    publicUrl := url
    acceptingVisitors := false
    leaseId := some lease.leaseId
    leaseExpiresAt := lease.expiresAt
    leaseObservedAt := lease.expiresAt.map fun _ => s.now
    leaseGeneration := lease.generation }

/-- A registration enters `_pending_agents`. -/
def enterPending (s : Server) (i : Nat) (label : String) (reg : TunnelRegistration) : Server :=
  { s.modifyConnection i (fun c =>
      { c with phase := .claimed, label := label, registration := some reg }) with
    pendingAgents := s.pendingAgents.insert label i
    pendingLeaseLabels := indexLeaseLabel s.pendingLeaseLabels label reg }

/-- The first section of `_serve_agent` under `_registration_lock`. -/
def claim (s : Server) (i : Nat) (c : Connection) (phrases : Fin 100 → String) : Server :=
  let reject (s : Server) (r : Rejection) := s.setPhase i (.over_ false (.rejected r))
  match s.prepareClaim c phrases with
  | .error r => reject s r
  | .ok (label, url) =>
    let accountId := c.admission.lease.accountId
    match s.accountReconnectBudgetOk accountId (s.accountBudgetFor accountId c.admission.budget) with
    | (false, s) => reject s .reconnectLimit
    | (true, s) =>
      let reg := s.newRegistration c url
      if s.leaseExpired reg then reject s .leaseExpired else s.enterPending i label reg

/-! ### From the claim to the end of the connection -/

/-- `_pending_agents.get(label) is registration` -/
def isPending (s : Server) (i : Nat) (c : Connection) : Bool :=
  s.pendingAgents.lookup c.label == some i

/-- The last section under the lock: the registration becomes active. -/
def install (s : Server) (i : Nat) (c : Connection) (opened : Bool) : Server :=
  match s.registration? i with
  | none => s
  | some reg =>
    if s.isPending i c then
      let previous := s.agents.lookup c.label
      let s := { s with
        pendingLeaseLabels := unindexLeaseLabel s.pendingLeaseLabels c.label reg
        pendingAgents := s.pendingAgents.erase c.label }
      let s := s.modifyRegistration i fun reg => { reg with acceptingVisitors := true }
      let s := s.installRegistration c.label i { reg with acceptingVisitors := true }
      let s := s.setPhase i (.running opened)
      let s := s.setRenewal i (if reg.leaseExpiresAt.isSome then .head else .off)
      match previous with
      | none => s
      | some old => { s with pendingCloses := s.pendingCloses ++ [.close old 4003 "superseded"] }
    else s.setPhase i (.over_ opened .superseded)

/-! ### Lease renewal -/

/-- `_lease_renew_fraction` -/
def leaseRenewFraction (s : Server) (reg : TunnelRegistration) : ℚ :=
  13 / 20 + 1 / 5 * s.config.stableFraction
    (reg.leaseId.getD "" ++ ":" ++ toString reg.leaseGeneration)

/-- `_lease_renew_delay` -/
def leaseRenewDelay (s : Server) (reg : TunnelRegistration) : Option ℚ :=
  match s.leaseSecondsRemaining reg with
  | none => none
  | some remaining =>
    if remaining ≤ 0 then some 0
    else if remaining ≤ 1 then
      let delay := remaining * (1 / 2)
      some (if 1 / 50 ≤ remaining then max (1 / 100) delay else delay)
    else
      let fraction := s.leaseRenewFraction reg
      let retry := min (30 + 20 * fraction) remaining
      match reg.leaseExpiresAt, reg.leaseObservedAt with
      | some expires, some observed =>
        let ttl := max remaining (expires.seconds - observed)
        let delay := observed + ttl * fraction - s.now
        if 0 < delay then some (min delay remaining) else some retry
      | _, _ => some retry

/-- `_agents.get(label) is not registration or registration.mux.draining` -/
def renewalObsolete (s : Server) (i : Nat) (c : Connection) (reg : TunnelRegistration) : Bool :=
  s.agents.lookup c.label != some i || reg.mux.draining

/-- The head of the loop of `_renew_lease_until_closed`. -/
def renewHead (s : Server) (i : Nat) (c : Connection) (reg : TunnelRegistration) : Server :=
  if s.renewalObsolete i c reg then s.setRenewal i .off
  else
    match s.leaseRenewDelay reg with
    | none => s.setRenewal i .off
    | some delay =>
      if delay ≤ 0 then
        (s.retireRegistration c.label i .leaseExpired leaseExpiryDrainTimeout).setRenewal i .off
      else s.setRenewal i (.sleeping (s.now + delay))

/-- After the sleep, up to the `await` of `_auth_sem`. -/
def renewWake (s : Server) (i : Nat) (c : Connection) (reg : TunnelRegistration) : Server :=
  if s.renewalObsolete i c reg then s.setRenewal i .off
  else if s.leaseExpired reg then
    (s.retireRegistration c.label i .leaseExpired leaseExpiryDrainTimeout).setRenewal i .off
  else if reg.leaseId.isNone || reg.leaseExpiresAt.isNone then s.setRenewal i .off
  else s.setRenewal i .acquiring

/-- The object is this string, or `None` where there is none. -/
def isOptionalStr : PyObject → Option String → Bool
  | .none, none => true
  | .str s, some t => s == t
  | _, _ => false

/-- `_valid_renewed_lease`: the new expiry and generation. -/
def validRenewedLease (s : Server) (reg : TunnelRegistration) : PyObject → Option (Datetime × Int)
  | .tunnelLease leaseId accountId credentialId (.datetime expires) (.int generation) =>
    if isOptionalStr leaseId reg.leaseId && isOptionalStr accountId (some reg.accountId) &&
        isOptionalStr credentialId reg.credentialId && decide (reg.leaseGeneration ≤ generation) &&
        expires.aware && decide (s.now < expires.seconds) then
      some (expires, generation)
    else none
  | _ => none

/-- `_try_renew_lease` after the control plane has answered; `none` where it raised. -/
def renewResult (s : Server) (i : Nat) (c : Connection) (reg : TunnelRegistration) :
    Option PyObject → Server
  | none => { s.setRenewal i .head with leaseRenewalsFailed := s.leaseRenewalsFailed + 1 }
  | some renewed =>
    if s.renewalObsolete i c reg then s.setRenewal i .off
    else
      match renewed with
      | .none =>
        (retireRegistration { s with leaseRenewalsRevoked := s.leaseRenewalsRevoked + 1 } c.label i
          .leaseRevoked leaseExpiryDrainTimeout).setRenewal i .off
      | renewed =>
        match s.validRenewedLease reg renewed with
        | none => { s.setRenewal i .head with leaseRenewalsInvalid := s.leaseRenewalsInvalid + 1 }
        | some (expires, generation) =>
          let reg := { reg with
            leaseExpiresAt := some expires
            leaseObservedAt := some s.now
            leaseGeneration := generation }
          let s := s.modifyRegistration i fun _ => reg
          if s.leaseExpired reg then
            (s.retireRegistration c.label i .leaseExpired leaseExpiryDrainTimeout).setRenewal i .off
          else
            { s.setRenewal i .head with leaseRenewalsSucceeded := s.leaseRenewalsSucceeded + 1 }

/-! ### Visitors -/

/-- `_select_agent_for_visitor`, for the label its request leads to. -/
def selectAgentForVisitor (s : Server) (label : String) :
    Option (Nat × TunnelRegistration) × Server :=
  match s.agents.lookup label with
  | none => (none, s)
  | some i =>
    match s.registration? i with
    | none => (none, s)
    | some reg =>
      if !reg.acceptingVisitors || reg.mux.draining then (none, s)
      else if s.leaseExpired reg then
        (none, s.retireRegistration label i .leaseExpired leaseExpiryDrainTimeout)
      else (some (i, reg), s)

/-- `_handle_visitor_registered` from the selection to the `await` of `open`. -/
def visit (s : Server) (label : String) (sent : Bool) : Server :=
  match s.selectAgentForVisitor label with
  | (none, s) => s
  | (some (i, reg), s) =>
    match s.tryAcquireVisitorBudget reg with
    | none => s
    | some s =>
      let e := (s.host reg).openStream sent
      let s := s.afterMux i reg e.host
      match e.result with
      | .suspended =>
        let stream : Ref := ⟨UInt32.ofNat reg.mux.nextId, reg.mux.made (UInt32.ofNat reg.mux.nextId)⟩
        { s with visitors := s.visitors ++ [⟨label, i, stream, .opening⟩] }
      | _ => s.releaseVisitorBudget reg.accountId

def setVisitor (s : Server) (v : Nat) (phase : VisitorPhase) : Server :=
  { s with visitors := s.visitors.modify v fun visitor => { visitor with phase := phase } }

/-! ### The steps -/

inductive Action
  /-- The clocks are read later. -/
  | clock (now monotonic : ℚ)
  /-- `admit_tunnel` has returned. -/
  | admitTunnel (admission : PyObject) (requestedSubdomain : Option String) (scheme : Scheme)
      (flowWindow : FlowWindow)
  | claim (i : Nat) (phrases : Fin 100 → String)
  /-- The look at `_pending_agents` before the event. -/
  | check (i : Nat)
  /-- `_emit_event` returned, or raised. -/
  | opened (i : Nat) (result : Option Bool)
  /-- The look at `_pending_agents` after the event. -/
  | recheck (i : Nat)
  | ready (i : Nat) (sent : Bool)
  | drop (i : Nat)
  | install (i : Nat)
  | ended (i : Nat)
  | renewalCancelled (i : Nat)
  | deregister (i : Nat)
  | renewHead (i : Nat)
  | renewWake (i : Nat)
  | renewAcquired (i : Nat) (acquired : Bool)
  | renewResult (i : Nat) (renewed : Option PyObject)
  | revokeLease (leaseId : String) (action : RevocationAction)
  | applyPolicyUpdate (update : PyObject)
  | visit (label : String) (sent : Bool)
  | visitorOpened (v : Nat)
  | visitorFailed (v : Nat)
  | visitorLeft (v : Nat)
  /-- A relay of the connection asks before it forwards some bytes. -/
  | throttle (i : Nat) (n : Nat)
  /-- Anything else on the connection of a registration. -/
  | mux (i : Nat) (a : Chute.Action)

/-- `open` is called by visitors only. -/
def opens : Chute.Action → Bool
  | .openStream _ => true
  | .openReturn _ => true
  | .openRaise _ => true
  | _ => false

/-- A step of the multiplexer of a registration. -/
def muxStep (s : Server) (i : Nat) (a : Chute.Action) : Option Server :=
  (s.registration? i).bind fun reg =>
    ((s.host reg).step a).map fun e => s.afterMux i reg e.host

/-- A visitor gives its slot back. -/
def leave (s : Server) (v : Nat) (visitor : Visitor) : Option Server :=
  (s.registration? visitor.connection).map fun reg =>
    (s.setVisitor v .left).releaseVisitorBudget reg.accountId

def step (s : Server) : Action → Option Server
  | .clock now monotonic => some { s with now := now, monotonic := monotonic }
  | .admitTunnel admission requestedSubdomain scheme flowWindow =>
    (validTunnelAdmission admission).map fun admission =>
      { s with connections := s.connections ++
        [⟨requestedSubdomain, scheme, admission, flowWindow, .admitted, "", none, .off⟩] }
  | .claim i phrases =>
    (s.connections[i]?).bind fun c =>
      match c.phase with
      | .admitted => some (s.claim i c phrases)
      | _ => none
  | .check i =>
    (s.connections[i]?).bind fun c =>
      match c.phase with
      | .claimed =>
        some (s.setPhase i (if s.isPending i c then .emitting else .over_ false .leaseRevoked))
      | _ => none
  | .opened i result =>
    (s.connections[i]?).bind fun c =>
      match c.phase, result with
      | .emitting, some opened => some (s.setPhase i (.emitted opened))
      | .emitting, none => some (s.setPhase i (.dropping false .eventSinkUnavailable))
      | _, _ => none
  | .recheck i =>
    (s.connections[i]?).bind fun c =>
      match c.phase with
      | .emitted opened =>
        some (s.setPhase i
          (if s.isPending i c then .readying opened else .over_ opened .leaseRevoked))
      | _ => none
  | .ready i sent =>
    (s.connections[i]?).bind fun c =>
      match c.phase with
      | .readying opened =>
        some (s.setPhase i (if sent then .readied opened else .dropping opened .readyFailed))
      | _ => none
  | .drop i =>
    (s.connections[i]?).bind fun c =>
      match c.phase with
      | .dropping opened why =>
        some ((s.dropPendingIfCurrent c.label i).setPhase i (.over_ opened why))
      | _ => none
  | .install i =>
    (s.connections[i]?).bind fun c =>
      match c.phase with
      | .readied opened => some (s.install i c opened)
      | _ => none
  | .ended i =>
    (s.connections[i]?).bind fun c =>
      match c.phase, c.registration with
      | .running opened, some reg =>
        if reg.mux.running then none else some (s.setPhase i (.closing opened))
      | _, _ => none
  | .renewalCancelled i =>
    (s.connections[i]?).bind fun c =>
      match c.phase with
      | .closing _ => some (s.setRenewal i .off)
      | _ => none
  | .deregister i =>
    (s.connections[i]?).bind fun c =>
      match c.phase, c.renewal with
      | .closing opened, .off =>
        some ((s.deregisterIfCurrent c.label i).setPhase i (.over_ opened .disconnected))
      | _, _ => none
  | .renewHead i =>
    (s.connections[i]?).bind fun c =>
      match c.renewal with
      | .head => c.registration.map (s.renewHead i c)
      | _ => none
  | .renewWake i =>
    (s.connections[i]?).bind fun c =>
      match c.renewal with
      | .sleeping _ => c.registration.map (s.renewWake i c)
      | _ => none
  | .renewAcquired i acquired =>
    (s.connections[i]?).bind fun c =>
      match c.renewal with
      | .acquiring =>
        if acquired then some (s.setRenewal i .calling)
        else some { s.setRenewal i .head with authBusy := s.authBusy + 1 }
      | _ => none
  | .renewResult i renewed =>
    (s.connections[i]?).bind fun c =>
      match c.renewal with
      | .calling => c.registration.map fun reg => s.renewResult i c reg renewed
      | _ => none
  | .revokeLease leaseId action => some (s.revokeLease leaseId action).2
  | .applyPolicyUpdate update => some (s.applyPolicyUpdate update).2
  | .visit label sent => some (s.visit label sent)
  | .visitorOpened v =>
    (s.visitors[v]?).bind fun visitor =>
      match visitor.phase with
      | .opening =>
        (s.muxStep visitor.connection (.openReturn visitor.stream)).map (·.setVisitor v .relaying)
      | _ => none
  | .visitorFailed v =>
    (s.visitors[v]?).bind fun visitor =>
      match visitor.phase with
      | .opening =>
        (s.muxStep visitor.connection (.openRaise visitor.stream)).bind (·.leave v visitor)
      | _ => none
  | .visitorLeft v =>
    (s.visitors[v]?).bind fun visitor =>
      match visitor.phase with
      | .relaying => s.leave v visitor
      | _ => none
  | .throttle i n =>
    if s.visitors.any fun visitor => visitor.connection == i && visitor.phase == .relaying then
      (s.registration? i).map fun reg => (s.throttleAccountBytes reg n).2
    else none
  | .mux i a => if opens a then none else s.muxStep i a

end Server

end Chute
