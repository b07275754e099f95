import Chute.Control.StaticPolicy
import Chute.Lib.Transition
import Chute.Server.Serve

/-!
# A relay with a policy file

The relay and its static control plane. `asyncio.wait_for` may suspend before it starts
the call and again before its caller resumes, so a call of the control plane is three
steps: the request, the call itself, and the caller with the answer. Between them
everything else may happen.
-/
namespace Chute

/-- A call of the control plane under `asyncio.wait_for`. -/
inductive PlaneCall
  | called
  | returned (answer : Option PyObject)
  | over_

/-- An agent with a well-formed hello, at the `await` of `admit_tunnel`. -/
structure HelloCall where
  token : PyStr
  requestedSubdomain : Option String
  scheme : Scheme
  flowWindow : FlowWindow
  call : PlaneCall

/-- Where `_poll_policy_updates` is. -/
inductive PollPhase
  | idle
  | called (request : Control.StaticPolicyControlPlane.PolicyUpdateRequest)
  | returned (answer : Option PyObject)

/-- The leases that the poll on its way asks about. -/
def PollPhase.asked : PollPhase → Option (List String)
  | .called request => some request.activeLeaseIds
  | _ => none

structure PolicyRelay where
  server : Server
  plane : Control.StaticPolicyControlPlane
  hellos : List HelloCall
  poll : PollPhase
  /-- The answers of `renew_lease` whose callers have not resumed, by connection. -/
  renewals : List (Nat × Option PyObject)
  /-- The lease ids made so far; each `uuid4` is a new one. -/
  issued : List String

namespace PolicyRelay

open Control Control.StaticPolicyControlPlane

def start (config : ServerConfig) (now monotonic : ℚ) (plane : StaticPolicyControlPlane) :
    PolicyRelay where
  server := Server.start config now monotonic
  plane := plane
  hellos := []
  poll := .idle
  renewals := []
  issued := []

/-- `_active_lease_ids`; the sorting and the removal of doubles play no part. -/
def activeLeaseIds (s : Server) : List String :=
  (s.agents.entries ++ s.pendingAgents.entries).filterMap fun e =>
    (s.registration? e.2).bind (·.leaseId)

/-- `_policy_update_request` for a control plane that asks for the lease ids. -/
def policyUpdateRequest (s : Server) : PolicyUpdateRequest where
  currentVersion := s.policyVersion
  activeLeaseCount := s.agents.keys.length + s.pendingAgents.keys.length
  activeLeaseIds := activeLeaseIds s

/-- The `LeaseRenewalRequest` of a registration that has a lease. -/
def renewalRequest (reg : Server.TunnelRegistration) : Option LeaseRenewalRequest :=
  reg.leaseId.map fun leaseId => ⟨leaseId, reg.accountId, reg.credentialId, reg.leaseGeneration⟩

inductive Action
  /-- An agent reaches `admit_tunnel`. -/
  | hello (token : PyStr) (requestedSubdomain : Option String) (scheme : Scheme)
      (flowWindow : FlowWindow)
  | admitTunnel (k : Nat) (file : PolicyFile) (leaseId : String)
  | admitted (k : Nat)
  /-- `wait_for` gives up on `admit_tunnel`. -/
  | admitLost (k : Nat)
  | poll
  | polled (file : PolicyFile)
  | pollApplied
  | pollLost
  | renew (i : Nat) (file : PolicyFile)
  | renewed (i : Nat)
  | renewLost (i : Nat)
  /-- Any other step of the relay. -/
  | server (a : Server.Action)

/-- What the control plane answers reaches the relay through the calls above only. -/
def fromPlane : Server.Action → Bool
  | .admitTunnel .. => true
  | .renewResult .. => true
  | .applyPolicyUpdate .. => true
  | _ => false

/-- The connection is in the call of `renew_lease`. -/
def renewing (s : Server) (i : Nat) : Option Server.TunnelRegistration :=
  (s.connections[i]?).bind fun c =>
    match c.renewal with
    | .calling => c.registration
    | _ => none

def setCall (s : PolicyRelay) (k : Nat) (call : PlaneCall) : PolicyRelay :=
  { s with hellos := s.hellos.modify k fun h => { h with call := call } }

/-- The caller of `admit_tunnel` resumes; an answer that is no admission ends there. -/
def resume (s : PolicyRelay) (k : Nat) (h : HelloCall) (answer : Option PyObject) : PolicyRelay :=
  let s := s.setCall k .over_
  match answer with
  | none => s
  | some object =>
    match s.server.step (.admitTunnel object h.requestedSubdomain h.scheme h.flowWindow) with
    | none => s
    | some server => { s with server := server }

variable (sha256 : String → String)

def step (s : PolicyRelay) : Action → Option PolicyRelay
  | .hello token requestedSubdomain scheme flowWindow =>
    some { s with hellos := s.hellos ++ [⟨token, requestedSubdomain, scheme, flowWindow, .called⟩] }
  | .admitTunnel k file leaseId =>
    (s.hellos[k]?).bind fun h =>
      match h.call with
      | .called =>
        if leaseId = "" ∨ leaseId ∈ s.issued then none
        else
          let (answer, plane) := s.plane.admitTunnel sha256 file h.token leaseId s.server.now
          some { s.setCall k (.returned answer) with plane := plane, issued := leaseId :: s.issued }
      | _ => none
  | .admitted k =>
    (s.hellos[k]?).bind fun h =>
      match h.call with
      | .returned answer => some (s.resume k h answer)
      | _ => none
  | .admitLost k =>
    (s.hellos[k]?).bind fun h =>
      match h.call with
      | .over_ => none
      | _ => some (s.setCall k .over_)
  | .poll =>
    match s.poll with
    | .idle => some { s with poll := .called (policyUpdateRequest s.server) }
    | _ => none
  | .polled file =>
    match s.poll with
    | .called request =>
      let (answer, plane) := s.plane.pollPolicyUpdates file request
      some { s with plane := plane, poll := .returned answer }
    | _ => none
  | .pollApplied =>
    match s.poll with
    | .returned none => some { s with poll := .idle }
    | .returned (some .none) => some { s with poll := .idle }
    | .returned (some update) =>
      some { s with server := (s.server.applyPolicyUpdate update).2, poll := .idle }
    | _ => none
  | .pollLost =>
    match s.poll with
    | .idle => none
    | _ => some { s with poll := .idle }
  | .renew i file =>
    match (renewing s.server i).bind renewalRequest, s.renewals.lookup i with
    | some request, none =>
      let (answer, plane) := s.plane.renewLease file request s.server.now
      some { s with plane := plane, renewals := (i, answer) :: s.renewals }
    | _, _ => none
  | .renewed i =>
    (s.renewals.lookup i).bind fun answer =>
      (s.server.step (.renewResult i answer)).map fun server =>
        { s with server := server, renewals := s.renewals.filter (·.1 != i) }
  | .renewLost i =>
    (s.server.step (.renewResult i none)).map fun server =>
      { s with server := server, renewals := s.renewals.filter (·.1 != i) }
  | .server a =>
    if fromPlane a then none else (s.server.step a).map fun server => { s with server := server }

/-! ### Which part a step touches -/

/-- The step of the relay that a step carries out. -/
inductive Carries (s : PolicyRelay) : Action → Server.Action → Prop
  | admitted (k : Nat) (h : HelloCall) (object : PyObject) (found : s.hellos[k]? = some h)
      (answered : h.call = .returned (some object)) :
      Carries s (.admitted k) (.admitTunnel object h.requestedSubdomain h.scheme h.flowWindow)
  | pollApplied (update : PyObject) (answered : s.poll = .returned (some update)) :
      Carries s .pollApplied (.applyPolicyUpdate update)
  | renewed (i : Nat) (answer : Option PyObject) (answered : s.renewals.lookup i = some answer) :
      Carries s (.renewed i) (.renewResult i answer)
  | renewLost (i : Nat) : Carries s (.renewLost i) (.renewResult i none)
  | server (b : Server.Action) (own : fromPlane b = false) : Carries s (.server b) b

variable {sha256 : String → String} {s s' : PolicyRelay} {a : Action}

/-- A step leaves the relay alone or takes one step of it. -/
theorem step_server (moved : s.step sha256 a = some s') :
    s'.server = s.server ∨ ∃ b, s.Carries a b ∧ s.server.step b = some s'.server := by
  cases a with
  | hello token requestedSubdomain scheme flowWindow =>
    cases moved
    exact Or.inl rfl
  | admitTunnel k file leaseId =>
    obtain ⟨h, -, moved⟩ := Option.bind_eq_some_iff.mp moved
    split at moved
    · split at moved
      · cases moved
      · cases moved
        exact Or.inl rfl
    · cases moved
  | admitted k =>
    obtain ⟨h, found, moved⟩ := Option.bind_eq_some_iff.mp moved
    split at moved
    next answer answered =>
      cases moved
      cases answer with
      | none => exact Or.inl rfl
      | some object =>
        simp only [resume]
        cases stepped : (s.setCall k .over_).server.step
            (.admitTunnel object h.requestedSubdomain h.scheme h.flowWindow) with
        | none => exact Or.inl rfl
        | some server => exact Or.inr ⟨_, .admitted k h object found answered, stepped⟩
    · cases moved
  | admitLost k =>
    obtain ⟨h, -, moved⟩ := Option.bind_eq_some_iff.mp moved
    split at moved
    · cases moved
    · cases moved
      exact Or.inl rfl
  | poll =>
    simp only [step] at moved
    split at moved <;> cases moved
    exact Or.inl rfl
  | polled file =>
    simp only [step] at moved
    split at moved <;> cases moved
    exact Or.inl rfl
  | pollApplied =>
    simp only [step] at moved
    split at moved
    · cases moved
      exact Or.inl rfl
    · cases moved
      exact Or.inl rfl
    next update _ answered =>
      cases moved
      exact Or.inr ⟨_, .pollApplied update answered, rfl⟩
    · cases moved
  | pollLost =>
    simp only [step] at moved
    split at moved
    · cases moved
    · cases moved
      exact Or.inl rfl
  | renew i file =>
    simp only [step] at moved
    split at moved <;> cases moved
    exact Or.inl rfl
  | renewed i =>
    obtain ⟨answer, answered, moved⟩ := Option.bind_eq_some_iff.mp moved
    obtain ⟨server, stepped, rfl⟩ := Option.map_eq_some_iff.mp moved
    exact Or.inr ⟨_, .renewed i answer answered, stepped⟩
  | renewLost i =>
    obtain ⟨server, stepped, rfl⟩ := Option.map_eq_some_iff.mp moved
    exact Or.inr ⟨_, .renewLost i, stepped⟩
  | server b =>
    simp only [step] at moved
    split at moved
    · cases moved
    next own =>
      obtain ⟨server, stepped, rfl⟩ := Option.map_eq_some_iff.mp moved
      exact Or.inr ⟨b, .server b (by simpa using own), stepped⟩

end PolicyRelay

end Chute
