import Chute.Lib.ReverseIndex
import Chute.Mux.Balance
import Chute.Server.Values

/-!
# The relay's registry

The maps of `Server` and the operations that edit them between two `await`s. A
registration object is known by the number of the `_serve_agent` call that built it, so
`is` on registrations, or on their multiplexers, is equality of these numbers.
-/
namespace Chute

/-- `_DEFAULT_LABEL` -/
def defaultLabel : String := "default"

inductive Scheme
  | http
  | https
  deriving DecidableEq, Repr

structure ServerConfig where
  /-- `base_domain`, `none` when it is unset or empty. -/
  baseDomain : Option String
  maxAgents : Nat
  /-- `_active_public_tls_context is not None` -/
  publicTls : Bool
  upstreamTls : Bool
  /-- `public_url` with the scheme http, and with the scheme https. -/
  publicUrl : Scheme → String
  publicHttpsUrl : Option String
  /-- `_stable_fraction`, the digest of a seed as a fraction of one. -/
  stableFraction : String → ℚ

namespace Server

structure TunnelRegistration where
  mux : Mux
  accountId : String
  budget : Budget
  credentialId : Option String
  publicUrl : String
  acceptingVisitors : Bool
  leaseId : Option String
  leaseExpiresAt : Option Datetime
  leaseObservedAt : Option ℚ
  leaseGeneration : Int

/-- Why a tunnel was refused at its claim. -/
inductive Rejection
  | invalidSubdomain
  | noFreeSubdomain
  | subdomainUnsupported
  | subdomainNotAllowed
  | subdomainTaken
  | subdomainPending
  | tunnelLimit
  | httpsUnavailable
  | serverTunnelLimit
  | reconnectLimit
  | leaseExpired
  deriving DecidableEq, Repr

namespace Rejection

def reason : Rejection → String
  | invalidSubdomain => "invalid_subdomain"
  | noFreeSubdomain => "no_free_subdomain"
  | subdomainUnsupported => "subdomain_unsupported"
  | subdomainNotAllowed => "subdomain_not_allowed"
  | subdomainTaken => "subdomain_taken"
  | subdomainPending => "subdomain_pending"
  | tunnelLimit => "tunnel_limit"
  | httpsUnavailable => "https_unavailable"
  | serverTunnelLimit => "server_tunnel_limit"
  | reconnectLimit => "reconnect_limit"
  | leaseExpired => "lease expired"

/-- Label errors close with 4002, what a retry can cure with 1013. -/
def closeCode : Rejection → Nat
  | serverTunnelLimit => 1013
  | reconnectLimit => 1013
  | leaseExpired => 1013
  | _ => 4002

end Rejection

/-- How a `_serve_agent` call ended. -/
inductive Ending
  | rejected (r : Rejection)
  | eventSinkUnavailable
  | readyFailed
  /-- Its pending registration was gone before the install. -/
  | leaseRevoked
  /-- Its pending registration was gone at the install. -/
  | superseded
  | disconnected
  deriving DecidableEq, Repr

/-- Where a `_serve_agent` call is; `opened` is its `opened_emitted`. -/
inductive Phase
  /-- The admission has come back and waits for `_registration_lock`. -/
  | admitted
  | claimed
  /-- In `_emit_event("tunnel_opened")`. -/
  | emitting
  | emitted (opened : Bool)
  /-- In the send of the ready message. -/
  | readying (opened : Bool)
  | readied (opened : Bool)
  /-- The event or the ready message failed; waits for the lock to drop its entry. -/
  | dropping (opened : Bool) (why : Ending)
  /-- In `mux.run()`. -/
  | running (opened : Bool)
  /-- `mux.run()` is done and the renewal task is being cancelled. -/
  | closing (opened : Bool)
  | over_ (opened : Bool) (why : Ending)
  deriving DecidableEq, Repr

/-- Where the renewal task of a registration is. -/
inductive RenewalPhase
  | off
  | head
  | sleeping (till : ℚ)
  /-- Waits for `_auth_sem`. -/
  | acquiring
  /-- In `renew_lease` of the control plane. -/
  | calling
  deriving DecidableEq, Repr

/-- A `_serve_agent` call with its local variables. -/
structure Connection where
  requestedSubdomain : Option String
  scheme : Scheme
  admission : TunnelAdmission
  flowWindow : FlowWindow
  phase : Phase
  label : String
  registration : Option TunnelRegistration
  renewal : RenewalPhase

/-- Teardown that runs in a task of its own. -/
inductive Teardown
  | drain (i : Nat) (timeout : ℚ)
  | close (i : Nat) (code : Nat) (reason : String)
  deriving DecidableEq, Repr

inductive VisitorPhase
  /-- In `mux.open()`. -/
  | opening
  | relaying
  | left
  deriving DecidableEq, Repr

/-- A visitor that holds a slot of its account. -/
structure Visitor where
  label : String
  /-- The registration it was given. -/
  connection : Nat
  stream : Ref
  phase : VisitorPhase
  deriving DecidableEq, Repr

end Server

structure Server where
  config : ServerConfig
  /-- The wall clock and the monotonic clock. -/
  now : ℚ
  monotonic : ℚ
  connections : List Server.Connection
  agents : AList fun _ : String => Nat
  pendingAgents : AList fun _ : String => Nat
  accountLabels : ReverseIndex String String
  leaseLabels : ReverseIndex String String
  pendingLeaseLabels : ReverseIndex String String
  accountBudgetOverrides : AList fun _ : String => Budget
  accountActiveVisitors : AList fun _ : String => Nat
  /-- `_account_buffered`, where a missing entry reads as 0. -/
  accountBuffered : String → Int
  /-- `_account_bandwidth`: the `next_at` of each schedule. -/
  accountBandwidth : AList fun _ : String => ℚ
  /-- `_account_reconnects`, in insertion order. -/
  accountReconnects : List (String × List ℚ)
  policyVersion : Int
  policyUpdatesApplied : Nat
  policyUpdatesRejected : Nat
  leaseRevocations : Nat
  leaseExpirations : Nat
  leaseRenewalsFailed : Nat
  leaseRenewalsRevoked : Nat
  leaseRenewalsInvalid : Nat
  leaseRenewalsSucceeded : Nat
  authBusy : Nat
  visitors : List Server.Visitor
  pendingCloses : List Server.Teardown

namespace Server

/-- A relay before its first connection. -/
def start (config : ServerConfig) (now monotonic : ℚ) : Server where
  config := config
  now := now
  monotonic := monotonic
  connections := []
  agents := ∅
  pendingAgents := ∅
  accountLabels := ∅
  leaseLabels := ∅
  pendingLeaseLabels := ∅
  accountBudgetOverrides := ∅
  accountActiveVisitors := ∅
  accountBuffered := fun _ => 0
  accountBandwidth := ∅
  accountReconnects := []
  policyVersion := 0
  policyUpdatesApplied := 0
  policyUpdatesRejected := 0
  leaseRevocations := 0
  leaseExpirations := 0
  leaseRenewalsFailed := 0
  leaseRenewalsRevoked := 0
  leaseRenewalsInvalid := 0
  leaseRenewalsSucceeded := 0
  authBusy := 0
  visitors := []
  pendingCloses := []

/-! ### Connections and their registrations -/

def registration? (s : Server) (i : Nat) : Option TunnelRegistration :=
  (s.connections[i]?).bind Connection.registration

def modifyConnection (s : Server) (i : Nat) (f : Connection → Connection) : Server :=
  { s with connections := s.connections.modify i f }

def modifyRegistration (s : Server) (i : Nat) (f : TunnelRegistration → TunnelRegistration) :
    Server :=
  s.modifyConnection i fun c => { c with registration := c.registration.map f }

def setPhase (s : Server) (i : Nat) (phase : Phase) : Server :=
  s.modifyConnection i fun c => { c with phase := phase }

def setRenewal (s : Server) (i : Nat) (renewal : RenewalPhase) : Server :=
  s.modifyConnection i fun c => { c with renewal := renewal }

/-! ### Leases -/

/-- `_lease_seconds_remaining` -/
def leaseSecondsRemaining (s : Server) (reg : TunnelRegistration) : Option ℚ :=
  reg.leaseExpiresAt.map fun expires => if expires.aware then expires.seconds - s.now else 0

/-- `_lease_expired` -/
def leaseExpired (s : Server) (reg : TunnelRegistration) : Bool :=
  (s.leaseSecondsRemaining reg).any fun remaining => decide (remaining ≤ 0)

/-- `_index_lease_label` -/
def indexLeaseLabel (index : ReverseIndex String String) (label : String)
    (reg : TunnelRegistration) : ReverseIndex String String :=
  match reg.leaseId with
  | none => index
  | some leaseId => index.add leaseId label

/-- `_unindex_lease_label` -/
def unindexLeaseLabel (index : ReverseIndex String String) (label : String)
    (reg : TunnelRegistration) : ReverseIndex String String :=
  match reg.leaseId with
  | none => index
  | some leaseId => index.discard leaseId label

/-! ### Budgets -/

def accountActiveStreams (s : Server) (accountId : String) : Nat :=
  (s.accountActiveVisitors.lookup accountId).getD 0

/-- `_account_has_local_work` -/
def accountHasLocalWork (s : Server) (accountId : String) : Bool :=
  decide (accountId ∈ s.accountLabels) || decide (0 < s.accountActiveStreams accountId) ||
    decide (0 < s.accountBuffered accountId) ||
    s.pendingAgents.entries.any fun e => (s.registration? e.2).any (·.accountId == accountId)

def accountBudgetFor (s : Server) (accountId : String) (default : Budget) : Budget :=
  (s.accountBudgetOverrides.lookup accountId).getD default

def accountBudget (s : Server) (reg : TunnelRegistration) : Budget :=
  s.accountBudgetFor reg.accountId reg.budget

/-- `_drop_account_bandwidth_if_idle` -/
def dropAccountBandwidthIfIdle (s : Server) (accountId : String) : Server :=
  if s.accountHasLocalWork accountId then s
  else
    { s with
      accountBandwidth := s.accountBandwidth.erase accountId
      accountBudgetOverrides := s.accountBudgetOverrides.erase accountId }

/-! ### Entering and leaving the maps -/

/-- `_deregister_if_current` -/
def deregisterIfCurrent (s : Server) (label : String) (i : Nat) : Server :=
  match s.agents.lookup label, s.registration? i with
  | some current, some reg =>
    if current = i then
      dropAccountBandwidthIfIdle
        { s with
          agents := s.agents.erase label
          leaseLabels := unindexLeaseLabel s.leaseLabels label reg
          accountLabels := s.accountLabels.discard reg.accountId label } reg.accountId
    else s
  | _, _ => s

/-- `_drop_pending_if_current` -/
def dropPendingIfCurrent (s : Server) (label : String) (i : Nat) : Server :=
  match s.pendingAgents.lookup label, s.registration? i with
  | some current, some reg =>
    if current = i then
      { s with
        pendingLeaseLabels := unindexLeaseLabel s.pendingLeaseLabels label reg
        pendingAgents := s.pendingAgents.erase label }
    else s
  | _, _ => s

/-- The first part of `_install_registration`: the registration that held the label leaves
the indexes. -/
def unindexPrevious (s : Server) (label : String) (reg : TunnelRegistration) : Server :=
  match (s.agents.lookup label).bind s.registration? with
  | none => s
  | some previous =>
    let s := { s with leaseLabels := unindexLeaseLabel s.leaseLabels label previous }
    if previous.accountId = reg.accountId then s
    else
      dropAccountBandwidthIfIdle
        { s with accountLabels := s.accountLabels.discard previous.accountId label }
        previous.accountId

/-- `_install_registration` -/
def installRegistration (s : Server) (label : String) (i : Nat) (reg : TunnelRegistration) : Server :=
  let s := s.unindexPrevious label reg
  { s with
    agents := s.agents.insert label i
    accountLabels := s.accountLabels.add reg.accountId label
    leaseLabels := indexLeaseLabel s.leaseLabels label reg }

inductive RetireReason
  | leaseRevoked
  | leaseExpired
  deriving DecidableEq, Repr

/-- `_LEASE_EXPIRY_DRAIN_TIMEOUT` -/
def leaseExpiryDrainTimeout : ℚ := 10

/-- `_retire_registration` -/
def retireRegistration (s : Server) (label : String) (i : Nat) (reason : RetireReason)
    (drainTimeout : ℚ) : Server :=
  if s.agents.lookup label = some i then
    let s := (s.modifyRegistration i fun reg =>
      { reg with acceptingVisitors := false }).deregisterIfCurrent label i
    let s := match reason with
      | .leaseRevoked => { s with leaseRevocations := s.leaseRevocations + 1 }
      | .leaseExpired => { s with leaseExpirations := s.leaseExpirations + 1 }
    { s with pendingCloses := s.pendingCloses ++ [.drain i drainTimeout] }
  else s

/-- `_retire_pending_registration`, which only a revocation calls. -/
def retirePendingRegistration (s : Server) (label : String) (i : Nat) : Bool × Server :=
  if s.pendingAgents.lookup label = some i then
    let s := (s.modifyRegistration i fun reg =>
      { reg with acceptingVisitors := false }).dropPendingIfCurrent label i
    (true, { s with
      leaseRevocations := s.leaseRevocations + 1
      pendingCloses := s.pendingCloses ++ [.close i 1013 "lease revoked"] })
  else (false, s)

/-! ### Revocation -/

/-- The registration under a label has this lease. -/
def hasLease (s : Server) (registrations : AList fun _ : String => Nat) (leaseId label : String) :
    Bool :=
  ((registrations.lookup label).bind s.registration?).any fun reg => reg.leaseId == some leaseId

/-- `_registrations_for_lease_index`: the labels of a lease by its index, which loses the
labels that are stale; without an entry, by a scan. -/
def registrationsForLeaseIndex (s : Server) (leaseId : String) (index : ReverseIndex String String)
    (registrations : AList fun _ : String => Nat) :
    List (String × Nat) × ReverseIndex String String :=
  match index.lookup leaseId with
  | none =>
    (registrations.entries.filterMap fun e =>
      if s.hasLease registrations leaseId e.1 then some (e.1, e.2) else none, index)
  | some labels =>
    let candidates := labels.filterMap fun label =>
      if s.hasLease registrations leaseId label then (registrations.lookup label).map (label, ·)
      else none
    let stale := labels.filter fun label => !s.hasLease registrations leaseId label
    (candidates, if labels = [] then index.erase leaseId
      else stale.foldl (fun index label => index.discard leaseId label) index)

/-- The drain timeout of a revocation. -/
def RevocationAction.drainTimeout : RevocationAction → ℚ
  | .drain => leaseExpiryDrainTimeout
  | .close => 0

/-- The loop of `revoke_lease` over the pending registrations. -/
def retirePending (s : Server) (revoked : Nat) : List (String × Nat) → Nat × Server
  | [] => (revoked, s)
  | (label, i) :: rest =>
    match s.retirePendingRegistration label i with
    | (true, s) => retirePending s (revoked + 1) rest
    | (false, s) => retirePending s revoked rest

/-- `revoke_lease`: how many registrations it retired, and what it left. -/
def revokeLease (s : Server) (leaseId : String) (action : RevocationAction) : Nat × Server :=
  if leaseId = "" then (0, s)
  else
    let (candidates, leaseLabels) := s.registrationsForLeaseIndex leaseId s.leaseLabels s.agents
    let s := { s with leaseLabels := leaseLabels }
    let s := candidates.foldl (fun s e =>
      s.retireRegistration e.1 e.2 .leaseRevoked (RevocationAction.drainTimeout action)) s
    -- the pending ones are looked up after the active ones are gone
    let (pending, pendingLeaseLabels) :=
      s.registrationsForLeaseIndex leaseId s.pendingLeaseLabels s.pendingAgents
    let s := { s with pendingLeaseLabels := pendingLeaseLabels }
    s.retirePending candidates.length pending

/-! ### Policy updates -/

/-- `_set_account_budget` -/
def setAccountBudget (s : Server) (accountId : String) (budget : Budget) : Server :=
  if s.accountHasLocalWork accountId then
    let s := { s with
      accountBudgetOverrides := s.accountBudgetOverrides.insert accountId budget }
    (s.accountLabels.members accountId).foldl (fun s label =>
      match s.agents.lookup label with
      | none => s
      | some i => s.modifyRegistration i fun reg => { reg with budget := budget }) s
  else { s with accountBudgetOverrides := s.accountBudgetOverrides.erase accountId }

/-- `_apply_policy_update` -/
def applyPolicyUpdate (s : Server) (update : PyObject) : Bool × Server :=
  match validPolicyUpdate s.policyVersion update with
  | none => (false, { s with policyUpdatesRejected := s.policyUpdatesRejected + 1 })
  | some u =>
    let s := u.revocations.foldl (fun s r => (s.revokeLease r.1 r.2).2) s
    let s := u.accountBudgets.foldl (fun s b => s.setAccountBudget b.1 b.2) s
    (true, { s with
      policyVersion := u.version
      policyUpdatesApplied := s.policyUpdatesApplied + 1 })

/-! ### Visitor slots, buffers and byte rates -/

/-- `_try_acquire_visitor_budget` -/
def tryAcquireVisitorBudget (s : Server) (reg : TunnelRegistration) : Option Server :=
  if (s.accountBudget reg).maxVisitors.any (s.accountActiveStreams reg.accountId ≥ ·) then none
  else some { s with
    accountActiveVisitors :=
      s.accountActiveVisitors.insert reg.accountId (s.accountActiveStreams reg.accountId + 1) }

/-- `_release_visitor_budget` -/
def releaseVisitorBudget (s : Server) (accountId : String) : Server :=
  if s.accountActiveStreams accountId ≤ 1 then
    dropAccountBandwidthIfIdle
      { s with accountActiveVisitors := s.accountActiveVisitors.erase accountId } accountId
  else
    { s with
      accountActiveVisitors :=
        s.accountActiveVisitors.insert accountId (s.accountActiveStreams accountId - 1) }

/-- A connection of the relay with what its buffer callbacks see. -/
def host (s : Server) (reg : TunnelRegistration) : Host :=
  ⟨reg.mux, ⟨s.accountBuffered reg.accountId,
    (s.accountBudget reg).maxBufferedBytes.map Int.ofNat⟩⟩

/-- What a step of a multiplexer leaves; the release of the last byte of an account looks
whether the account has become idle. -/
def afterMux (s : Server) (i : Nat) (reg : TunnelRegistration) (h : Host) : Server :=
  let s' := { s.modifyRegistration i (fun reg => { reg with mux := h.mux }) with
    accountBuffered := Function.update s.accountBuffered reg.accountId h.account.buffered }
  if 0 < s.accountBuffered reg.accountId ∧ h.account.buffered ≤ 0 then
    s'.dropAccountBandwidthIfIdle reg.accountId
  else s'

/-- `_BANDWIDTH_MAX_ACCOUNTS` -/
def bandwidthMaxAccounts : Nat := 65536

/-- `_sweep_idle_bandwidth` -/
def sweepIdleBandwidth (s : Server) : Server :=
  s.accountBandwidth.keys.foldl dropAccountBandwidthIfIdle s

/-- A chunk takes its place in the schedule of its account: how long it waits for it. -/
def scheduleBytes (s : Server) (accountId : String) (limit n : Nat) (nextAt : ℚ) :
    Option ℚ × Server :=
  let start := max nextAt s.monotonic
  (some (start - s.monotonic), { s with
    accountBandwidth := s.accountBandwidth.insert accountId (start + (n : ℚ) / limit) })

/-- `_throttle_account_bytes` up to its sleep: how long it sleeps, `none` where it raises
`_BandwidthLimitExceeded`. -/
def throttleAccountBytes (s : Server) (reg : TunnelRegistration) (n : Nat) : Option ℚ × Server :=
  match (s.accountBudget reg).maxBytesPerSec with
  | none => (some 0, s)
  | some limit =>
    if n = 0 then (some 0, s)
    else if limit = 0 then (none, s)
    else
      match s.accountBandwidth.lookup reg.accountId with
      | some nextAt => s.scheduleBytes reg.accountId limit n nextAt
      | none =>
        let swept := if bandwidthMaxAccounts ≤ s.accountBandwidth.keys.length then
          s.sweepIdleBandwidth else s
        if bandwidthMaxAccounts ≤ swept.accountBandwidth.keys.length then (none, swept)
        else swept.scheduleBytes reg.accountId limit n 0

end Server

end Chute
