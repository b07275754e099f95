import Chute.Control.Policy
import Mathlib.Data.List.AList

/-!
# The static policy control plane

`StaticPolicyControlPlane` reads its policy file again at every call and keeps the last
good policy when the file does not parse. Of the leases it has given out it keeps those
with an expiry, until a poll finds them inactive. Each of its three calls runs without an
`await`, so each is one function here; `none` as an answer is an exception.
-/
namespace Chute

namespace Control

/-! ### What it hands to the relay -/

def limitObject : Option Nat → PyObject
  | none => .none
  | some n => .int n

def budgetObject (b : Budget) : PyObject :=
  .budget (limitObject b.maxVisitors) (limitObject b.maxBytesPerSec)
    (limitObject b.maxReconnectsPerMin) (limitObject b.maxBufferedBytes)

def strObject : Option String → PyObject
  | none => .none
  | some s => .str s

def expiryObject : Option Datetime → PyObject
  | none => .none
  | some expires => .datetime expires

def actionObject : RevocationAction → PyObject
  | .drain => .str "drain"
  | .close => .str "close"

def policyUpdateObject (u : PolicyUpdate) : PyObject :=
  .policyUpdate (.int u.version) (.tuple (u.revokeLeaseIds.map .str))
    (.tuple (u.accountBudgets.map fun b => .accountBudgetUpdate (.str b.1) (budgetObject b.2)))
    (.tuple (u.leaseRevocations.map fun r => .leaseRevocation (.str r.1) (actionObject r.2)))

/-- The `TunnelAdmission` of a credential. -/
def StaticCredential.admissionObject (c : StaticCredential) (leaseId : String)
    (expires : Option Datetime) : PyObject :=
  .tunnelAdmission
    (.tunnelLease (.str leaseId) (.str c.accountId) (.str c.credentialId) (expiryObject expires)
      (.int 0))
    (.int c.maxTunnels) (strObject c.allowedLabel) (budgetObject c.budget)

/-- `datetime.max` in seconds since 1970. -/
def datetimeMax : ℚ := 253402300799999999 / 1000000

/-- `datetime.now(UTC) + timedelta(seconds=seconds)`, which overflows past the year 9999. -/
def expiresAfter (now : ℚ) (seconds : Nat) : Option Datetime :=
  if now + seconds ≤ datetimeMax then some ⟨now + seconds, true⟩ else none

/-! ### The policy in use -/

/-- What a read of the policy file gives; an unchanged file has an unchanged fingerprint. -/
inductive PolicyFile
  | unreadable
  | snapshot (fingerprint : Int × Int × Int × Int × Int) (text : PolicyText)

/-- `_LeaseState` -/
structure LeaseState where
  accountId : String
  credentialId : String
  tokenSha256 : String
  leaseSeconds : Nat
  deriving DecidableEq, Repr

structure StaticPolicyControlPlane where
  leases : AList fun _ : String => LeaseState
  policy : StaticPolicy
  policyFingerprint : Option (Int × Int × Int × Int × Int)
  badPolicyFingerprint : Option (Int × Int × Int × Int × Int)

namespace StaticPolicyControlPlane

/-- `__init__`, which does not go on without a policy. -/
def create : PolicyFile → Option StaticPolicyControlPlane
  | .unreadable => none
  | .snapshot fingerprint text =>
    match parseStaticPolicyText text with
    | .ok policy => some ⟨∅, policy, some fingerprint, none⟩
    | .error _ => none

/-- `_load_policy`, once there is a policy. -/
def loadPolicy (plane : StaticPolicyControlPlane) :
    PolicyFile → Option StaticPolicy × StaticPolicyControlPlane
  | .unreadable => (some plane.policy, plane)
  | .snapshot fingerprint text =>
    if plane.policyFingerprint = some fingerprint ∨ plane.badPolicyFingerprint = some fingerprint then
      (some plane.policy, plane)
    else
      match parseStaticPolicyText text with
      | .ok policy =>
        (some policy, { plane with
          policy := policy
          policyFingerprint := some fingerprint
          badPolicyFingerprint := none })
      | .error e =>
        if e.isValueError then
          (some plane.policy, { plane with badPolicyFingerprint := some fingerprint })
        else (none, plane)

/-! ### Admission -/

/-- `admit_tunnel` for the credential of the token; only a lease with an expiry is kept. -/
def admitCredential (plane : StaticPolicyControlPlane) (c : StaticCredential) (leaseId : String)
    (now : ℚ) : Option PyObject × StaticPolicyControlPlane :=
  match c.leaseSeconds with
  | none => (some (c.admissionObject leaseId none), plane)
  | some seconds =>
    match expiresAfter now seconds with
    | none => (none, plane)
    | some expires =>
      (some (c.admissionObject leaseId (some expires)), { plane with
        leases := plane.leases.insert leaseId
          ⟨c.accountId, c.credentialId, c.tokenSha256, seconds⟩ })

/-- `admit_tunnel`. `sha256` gives the hex digest of the UTF-8 of a text, `leaseId` is the new
`uuid4`. -/
def admitTunnel (plane : StaticPolicyControlPlane) (sha256 : String → String) (file : PolicyFile)
    (token : PyStr) (leaseId : String) (now : ℚ) : Option PyObject × StaticPolicyControlPlane :=
  match plane.loadPolicy file with
  | (none, plane) => (none, plane)
  | (some policy, plane) =>
    match token.encode.map sha256 with
    | none => (none, plane)
    | some requestedHash =>
      match policy.credentials.find? (·.tokenSha256 == requestedHash) with
      | none => (some .none, plane)
      | some credential => plane.admitCredential credential leaseId now

/-! ### Renewal -/

structure LeaseRenewalRequest where
  leaseId : String
  accountId : String
  credentialId : Option String
  generation : Int
  deriving DecidableEq, Repr

/-- The credential a lease was given for, with its verifier unchanged. -/
def credentialOf (policy : StaticPolicy) (state : LeaseState) : Option StaticCredential :=
  policy.credentials.find? fun c =>
    c.credentialId == state.credentialId && c.accountId == state.accountId &&
      c.tokenSha256 == state.tokenSha256

/-- `renew_lease` -/
def renewLease (plane : StaticPolicyControlPlane) (file : PolicyFile) (request : LeaseRenewalRequest)
    (now : ℚ) : Option PyObject × StaticPolicyControlPlane :=
  match plane.leases.lookup request.leaseId with
  | none => (some .none, plane)
  | some state =>
    if state.accountId ≠ request.accountId ∨ some state.credentialId ≠ request.credentialId then
      (some .none, plane)
    else
      match plane.loadPolicy file with
      | (none, plane) => (none, plane)
      | (some policy, plane) =>
        match (credentialOf policy state).bind fun c => c.leaseSeconds.map (c, ·) with
        | none => (some .none, { plane with leases := plane.leases.erase request.leaseId })
        | some (c, seconds) =>
          let plane := { plane with
            leases := plane.leases.insert request.leaseId
              ⟨c.accountId, c.credentialId, c.tokenSha256, seconds⟩ }
          match expiresAfter now seconds with
          | none => (none, plane)
          | some expires =>
            (some (.tunnelLease (.str request.leaseId) (.str request.accountId)
              (strObject request.credentialId) (.datetime expires) (.int (request.generation + 1))),
              plane)

/-! ### Policy polls -/

structure PolicyUpdateRequest where
  currentVersion : Int
  activeLeaseCount : Nat
  activeLeaseIds : List String
  deriving DecidableEq, Repr

/-- `_prune_inactive_leases` -/
def pruneInactiveLeases (plane : StaticPolicyControlPlane) (active : List String) :
    StaticPolicyControlPlane :=
  { plane with
    leases := plane.leases.keys.foldl
      (fun leases leaseId => if leaseId ∈ active then leases else leases.erase leaseId) plane.leases }

/-- Whether a poll prunes; a relay that tells a count but no ids does not mean that all are
gone. -/
def PolicyUpdateRequest.prunes (request : PolicyUpdateRequest) : Bool :=
  request.activeLeaseIds ≠ [] || request.activeLeaseCount = 0

/-- `poll_policy_updates` -/
def pollPolicyUpdates (plane : StaticPolicyControlPlane) (file : PolicyFile)
    (request : PolicyUpdateRequest) : Option PyObject × StaticPolicyControlPlane :=
  let plane := if request.prunes then plane.pruneInactiveLeases request.activeLeaseIds else plane
  match plane.loadPolicy file with
  | (none, plane) => (none, plane)
  | (some policy, plane) =>
    match policy.policyUpdate with
    | none => (some .none, plane)
    | some u =>
      if u.version ≤ request.currentVersion then (some .none, plane)
      else (some (policyUpdateObject u), plane)

end StaticPolicyControlPlane

end Control

end Chute
