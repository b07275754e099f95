import Mathlib.Algebra.Order.Field.Rat

/-!
# What the control plane hands to the relay

The relay checks every object it gets from its control plane before it uses it. A
check of the source that answers yes or no is modelled as a reader: `none` where the
source answers no, and the checked contents where it answers yes.
-/
namespace Chute

/-- A `datetime`: seconds on the wall clock, and whether it has a time zone. -/
structure Datetime where
  seconds : ℚ
  aware : Bool
  deriving DecidableEq, Repr

/-- A Python object as the relay's checks see it: instances of the records of
`control.py` and `auth.py` with anything in their fields, the built-in types the checks
ask for, and all other objects. -/
inductive PyObject
  | none
  | bool (b : Bool)
  | int (n : Int)
  | str (s : String)
  | datetime (d : Datetime)
  | tuple (items : List PyObject)
  | budget (maxVisitors maxBytesPerSec maxReconnectsPerMin maxBufferedBytes : PyObject)
  | tunnelLease (leaseId accountId credentialId expiresAt generation : PyObject)
  | tunnelAdmission (lease maxTunnels allowedLabel budget : PyObject)
  | accountBudgetUpdate (accountId budget : PyObject)
  | leaseRevocation (leaseId action : PyObject)
  | policyUpdate (version revokeLeaseIds accountBudgets leaseRevocations : PyObject)
  | other

/-! ### Budgets -/

/-- `None` means unlimited. -/
structure Budget where
  maxVisitors : Option Nat
  maxBytesPerSec : Option Nat
  maxReconnectsPerMin : Option Nat
  maxBufferedBytes : Option Nat
  deriving DecidableEq, Repr

/-- `_valid_optional_limit`; a `bool` is no limit although it is an `int`. -/
def validOptionalLimit : PyObject → Option (Option Nat)
  | .none => some none
  | .int n => if 0 ≤ n then some (some n.toNat) else none
  | _ => none

/-- `_valid_budget` -/
def validBudget : PyObject → Option Budget
  | .budget visitors bytesPerSec reconnects buffered => do
    return ⟨← validOptionalLimit visitors, ← validOptionalLimit bytesPerSec,
      ← validOptionalLimit reconnects, ← validOptionalLimit buffered⟩
  | _ => none

/-! ### Leases and admissions -/

structure TunnelLease where
  leaseId : String
  accountId : String
  credentialId : Option String
  expiresAt : Option Datetime
  generation : Int
  deriving DecidableEq, Repr

/-- The local policy for an admitted tunnel. -/
structure TunnelAdmission where
  lease : TunnelLease
  maxTunnels : Nat
  allowedLabel : Option String
  budget : Budget
  deriving DecidableEq, Repr

/-- A string that is not empty. -/
def nonemptyStr : PyObject → Option String
  | .str s => if s = "" then none else some s
  | _ => none

def optionalStr : PyObject → Option (Option String)
  | .none => some none
  | .str s => some (some s)
  | _ => none

/-- The expiry of an admission: absent, or a time with a zone. -/
def optionalExpiry : PyObject → Option (Option Datetime)
  | .none => some none
  | .datetime d => if d.aware then some (some d) else none
  | _ => none

def natural : PyObject → Option Nat
  | .int n => if 0 ≤ n then some n.toNat else none
  | _ => none

/-- `_valid_tunnel_admission`, after the `isinstance` of its caller. -/
def validTunnelAdmission : PyObject → Option TunnelAdmission
  | .tunnelAdmission (.tunnelLease leaseId accountId credentialId expiresAt generation)
      maxTunnels allowedLabel budget => do
    let lease : TunnelLease :=
      ⟨← nonemptyStr leaseId, ← nonemptyStr accountId, ← optionalStr credentialId,
        ← optionalExpiry expiresAt, ← natural generation⟩
    return ⟨lease, ← natural maxTunnels, ← optionalStr allowedLabel, ← validBudget budget⟩
  | _ => none

/-- An admission that passed has an expiry with a time zone, or none. -/
theorem validTunnelAdmission_aware {object : PyObject} {admission : TunnelAdmission}
    (valid : validTunnelAdmission object = some admission) {expires : Datetime}
    (has : admission.lease.expiresAt = some expires) : expires.aware = true := by
  unfold validTunnelAdmission at valid
  split at valid
  · simp only [Option.bind_eq_bind, Option.pure_def, Option.bind_eq_some_iff] at valid
    obtain ⟨leaseId, -, accountId, -, credentialId, -, expiresAt, expiry, rest⟩ := valid
    obtain ⟨generation, -, maxTunnels, -, allowedLabel, -, budget, -, built⟩ := rest
    cases built
    cases has
    unfold optionalExpiry at expiry
    split at expiry
    · cases expiry
    next d =>
      split at expiry
      next aware =>
        cases expiry
        exact aware
      · cases expiry
    · cases expiry
  · cases valid

/-! ### Policy updates -/

def maxPolicyUpdateRevokeLeaseIds : Nat := 10000

def maxPolicyUpdateLeaseRevocations : Nat := 10000

def maxPolicyUpdateAccountBudgets : Nat := 4096

inductive RevocationAction
  | drain
  | close
  deriving DecidableEq, Repr

structure PolicyUpdate where
  version : Int
  revokeLeaseIds : List String
  accountBudgets : List (String × Budget)
  leaseRevocations : List (String × RevocationAction)
  deriving DecidableEq, Repr

/-- A tuple of at most `limit` items. -/
def boundedTuple (limit : Nat) : PyObject → Option (List PyObject)
  | .tuple items => if items.length ≤ limit then some items else none
  | _ => none

/-- The first section: lease ids, none of them twice. -/
def validLeaseIds (seen : List String) : List PyObject → Option (List String)
  | [] => some []
  | item :: items => do
    let leaseId ← nonemptyStr item
    if leaseId ∈ seen then none
    else return leaseId :: (← validLeaseIds (leaseId :: seen) items)

def revocationAction : PyObject → Option RevocationAction
  | .str "drain" => some .drain
  | .str "close" => some .close
  | _ => none

/-- The second section: revocations of lease ids that neither section named before. -/
def validLeaseRevocations (seen : List String) :
    List PyObject → Option (List (String × RevocationAction))
  | [] => some []
  | .leaseRevocation leaseId action :: items => do
    let leaseId ← nonemptyStr leaseId
    let action ← revocationAction action
    if leaseId ∈ seen then none
    else return (leaseId, action) :: (← validLeaseRevocations (leaseId :: seen) items)
  | _ => none

/-- The third section: budgets, at most one for each account. -/
def validAccountBudgets (seen : List String) : List PyObject → Option (List (String × Budget))
  | [] => some []
  | .accountBudgetUpdate accountId budget :: items => do
    let accountId ← nonemptyStr accountId
    if accountId ∈ seen then none
    else
      let budget ← validBudget budget
      return (accountId, budget) :: (← validAccountBudgets (accountId :: seen) items)
  | _ => none

/-- `_valid_policy_update`, with the `isinstance` of its caller. -/
def validPolicyUpdate (policyVersion : Int) : PyObject → Option PolicyUpdate
  | .policyUpdate (.int version) revokeLeaseIds accountBudgets leaseRevocations => do
    if version ≤ policyVersion then none
    else
      let ids ← validLeaseIds [] (← boundedTuple maxPolicyUpdateRevokeLeaseIds revokeLeaseIds)
      -- the ids of the first section count as seen in the second
      let revocations ← validLeaseRevocations ids.reverse
        (← boundedTuple maxPolicyUpdateLeaseRevocations leaseRevocations)
      let budgets ← validAccountBudgets []
        (← boundedTuple maxPolicyUpdateAccountBudgets accountBudgets)
      return ⟨version, ids, budgets, revocations⟩
  | _ => none

namespace PolicyUpdate

/-- The lease ids an update names, in either section. -/
def leaseIds (u : PolicyUpdate) : List String := u.revokeLeaseIds ++ u.leaseRevocations.map Prod.fst

/-- The revocations in the order they are applied; the first section drains. -/
def revocations (u : PolicyUpdate) : List (String × RevocationAction) :=
  u.revokeLeaseIds.map (·, .drain) ++ u.leaseRevocations

theorem map_revocations (u : PolicyUpdate) : u.revocations.map Prod.fst = u.leaseIds := by
  simp [revocations, leaseIds, Function.comp_def]

end PolicyUpdate

/-! ### Labels -/

def labelChar (c : Char) : Bool := c.isLower || c.isDigit

/-- `names.valid_label`: 1 to 63 lower-case letters, digits and hyphens, with no hyphen
at either end. -/
def validLabel (label : String) : Bool :=
  let chars := label.toList
  chars.length ≤ 63 && chars.all (fun c => labelChar c || c == '-') &&
    chars.head?.any labelChar && chars.getLast?.any labelChar

/-- `str.lower`, as far as a label can tell: besides A to Z the Kelvin sign becomes an
ASCII letter, and every other character stays outside the alphabet of labels. -/
def lowerChar (c : Char) : Char := if c = Char.ofNat 0x212A then 'k' else c.toLower

def lower (s : String) : String := String.ofList (s.toList.map lowerChar)

theorem labelChar_iff {c : Char} :
    labelChar c = true ↔ 97 ≤ c.toNat ∧ c.toNat ≤ 122 ∨ 48 ≤ c.toNat ∧ c.toNat ≤ 57 := by
  change (decide (c.val ≥ 'a'.val) && decide (c.val ≤ 'z'.val) ||
    decide (c.val ≥ '0'.val) && decide (c.val ≤ '9'.val)) = true ↔ _
  simp only [Bool.or_eq_true, Bool.and_eq_true, decide_eq_true_eq, ge_iff_le, UInt32.le_iff_toNat_le]
  rfl

private theorem lowerChar_of_label {c : Char} (char : labelChar c = true ∨ c = '-') :
    lowerChar c = c := by
  have low : c.toNat < 0x41 ∨ 0x5A < c.toNat ∧ c.toNat < 0x80 := by
    rcases char with char | rfl
    · rw [labelChar_iff] at char
      omega
    · decide
  have notKelvin : c ≠ Char.ofNat 0x212A := by
    rintro rfl
    revert low
    decide
  rw [lowerChar, if_neg notKelvin]
  refine dif_neg ?_
  rintro ⟨least, most⟩
  rw [ge_iff_le, UInt32.le_iff_toNat_le] at least
  rw [UInt32.le_iff_toNat_le] at most
  change 'A'.val.toNat ≤ c.toNat at least
  change c.toNat ≤ 'Z'.val.toNat at most
  have bounds : 'A'.val.toNat = 65 ∧ 'Z'.val.toNat = 90 := by decide
  omega

/-- A valid label has nothing to lower. -/
theorem lower_of_validLabel {label : String} (valid : validLabel label = true) :
    lower label = label := by
  simp only [validLabel, Bool.and_eq_true, List.all_eq_true, Bool.or_eq_true, beq_iff_eq] at valid
  have same : ∀ c ∈ label.toList, lowerChar c = id c :=
    fun c member => lowerChar_of_label (valid.1.1.2 c member)
  rw [lower, List.map_congr_left same, List.map_id, String.ofList_toList]

end Chute
