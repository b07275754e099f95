import Mathlib.Data.List.Sort
import Chute.Json
import Chute.Server.Values

/-!
# The policy file

The parser of the static policy file, from the JSON value of the file to the credentials
and the policy update it stands for. Every check names the field it rejects.
-/
namespace Chute

namespace Control

/-- What the parser raises. Only a `ValueError` keeps the last good policy. -/
inductive PolicyError
  /-- `ValueError` with this text. -/
  | invalid (text : String)
  /-- `ValueError(f"duplicate credential_id {credential_id!r}")` -/
  | duplicateCredentialId (credentialId : String)
  /-- `json.loads` gives up on deep nesting. -/
  | recursionError
  /-- `assert max_tunnels is not None` -/
  | assertionError
  deriving DecidableEq, Repr

def PolicyError.isValueError : PolicyError → Bool
  | .invalid _ => true
  | .duplicateCredentialId _ => true
  | _ => false

abbrev Parsed := Except PolicyError

/-! ### Fields -/

/-- `_reject_unknown_keys` -/
def rejectUnknownKeys (data : List (String × Json String)) (allowed : List String) (name : String) :
    Parsed Unit :=
  let unknown := ((data.map Prod.fst).filter (· ∉ allowed)).dedup
  if unknown = [] then .ok ()
  else .error (.invalid (name ++ " has unknown keys: " ++ ", ".intercalate (unknown.mergeSort (· ≤ ·))))

/-- `_required_str` -/
def requiredStr (raw : Json String) (name : String) : Parsed String :=
  let bad := .error (.invalid (name ++ " must be a non-empty string"))
  match raw with
  | .str s => if s = "" then bad else .ok s
  | _ => bad

/-- `_optional_str` -/
def optionalStr (raw : Json String) (name : String) : Parsed (Option String) :=
  match raw with
  | .null => .ok none
  | raw => some <$> requiredStr raw name

/-- `_optional_label` -/
def optionalLabel (raw : Json String) (name : String) : Parsed (Option String) := do
  match ← optionalStr raw name with
  | none => return none
  | some value =>
    if validLabel (lower value) then return some (lower value)
    else throw (.invalid (name ++ " must be a valid hostname label"))

def hexDigit (c : Char) : Bool := c.isDigit || ('a' ≤ c && c ≤ 'f')

/-- `str.removeprefix` -/
def removePrefix (start s : String) : String :=
  if start.toList <+: s.toList then String.ofList (s.toList.drop start.length) else s

/-- `_parse_token_sha256` -/
def parseTokenSha256 (raw : Json String) (name : String) : Parsed String := do
  let value := lower (removePrefix "sha256:" (← requiredStr raw name))
  if value.length = 64 ∧ value.toList.all hexDigit then return value
  else throw (.invalid (name ++ " must be a sha256 hex digest"))

/-- `_optional_nonnegative_int` -/
def optionalNonnegativeInt (raw : Json String) (name : String) : Parsed (Option Nat) :=
  let bad := .error (.invalid (name ++ " must be a non-negative integer or null"))
  match raw with
  | .null => .ok none
  | .int n => if n < 0 then bad else .ok (some n.toNat)
  | _ => bad

/-- `_optional_positive_int` -/
def optionalPositiveInt (raw : Json String) (name : String) : Parsed (Option Nat) :=
  let bad := .error (.invalid (name ++ " must be a positive integer or null"))
  match raw with
  | .null => .ok none
  | .int n => if n < 1 then bad else .ok (some n.toNat)
  | _ => bad

/-- `_required_positive_int` -/
def requiredPositiveInt (raw : Json String) (name : String) : Parsed Nat := do
  match ← optionalPositiveInt raw name with
  | none => throw (.invalid (name ++ " is required"))
  | some n => return n

/-- `_BUDGET_FIELDS` -/
def budgetFields : List String :=
  ["max_visitors", "max_bytes_per_sec", "max_reconnects_per_min", "max_buffered_bytes"]

/-- `_parse_budget` -/
def parseBudget (raw : Json String) (name : String) : Parsed Budget :=
  match raw with
  | .object raw => do
    rejectUnknownKeys raw budgetFields name
    let limit (field : String) := optionalNonnegativeInt (Json.get raw field) (name ++ "." ++ field)
    return ⟨← limit "max_visitors", ← limit "max_bytes_per_sec", ← limit "max_reconnects_per_min",
      ← limit "max_buffered_bytes"⟩
  | _ => .error (.invalid (name ++ " must be an object"))

/-! ### Credentials -/

/-- `UNLIMITED_TUNNELS` -/
def unlimitedTunnels : Int := 1 <<< 62

/-- `_StaticCredential` -/
structure StaticCredential where
  credentialId : String
  tokenSha256 : String
  accountId : String
  maxTunnels : Nat
  allowedLabel : Option String
  budget : Budget
  leaseSeconds : Option Nat
  deriving DecidableEq, Repr

def credentialFields : List String :=
  ["credential_id", "token_sha256", "account_id", "max_tunnels", "allowed_label", "budget",
    "lease_seconds"]

/-- The body of the loop of `_parse_credentials`, up to the checks against the items before. -/
def parseCredential (index : Nat) (item : Json String) : Parsed StaticCredential :=
  let place := "credentials[" ++ toString index ++ "]"
  match item with
  | .object item => do
    rejectUnknownKeys item credentialFields ("policy " ++ place)
    let credentialId ← requiredStr (Json.get item "credential_id") (place ++ ".credential_id")
    let tokenSha256 ← parseTokenSha256 (Json.get item "token_sha256") (place ++ ".token_sha256")
    let accountId ← requiredStr (Json.get item "account_id") (place ++ ".account_id")
    match ← optionalNonnegativeInt (Json.getOr item "max_tunnels" (.int unlimitedTunnels))
        (place ++ ".max_tunnels") with
    | none => throw .assertionError
    | some maxTunnels =>
      let allowedLabel ← optionalLabel (Json.get item "allowed_label") (place ++ ".allowed_label")
      let budget ← parseBudget (Json.getOr item "budget" (.object [])) (place ++ ".budget")
      let leaseSeconds ← optionalPositiveInt (Json.get item "lease_seconds")
        (place ++ ".lease_seconds")
      return ⟨credentialId, tokenSha256, accountId, maxTunnels, allowedLabel, budget, leaseSeconds⟩
  | _ => .error (.invalid ("policy " ++ place ++ " must be an object"))

/-- What the loop remembers of the items before: `seen_ids`, `seen_hashes`, `label_owners`. -/
structure SeenCredentials where
  ids : List String
  hashes : List String
  labelOwners : List (String × String)

namespace SeenCredentials

/-- The label of the credential is assigned to another account. -/
def assigned (seen : SeenCredentials) (c : StaticCredential) : Option String :=
  c.allowedLabel.filter fun label => (seen.labelOwners.lookup label).any (· != c.accountId)

def add (seen : SeenCredentials) (c : StaticCredential) : SeenCredentials where
  ids := c.credentialId :: seen.ids
  hashes := c.tokenSha256 :: seen.hashes
  labelOwners := (c.allowedLabel.map (·, c.accountId)).toList ++ seen.labelOwners

end SeenCredentials

/-- The loop of `_parse_credentials`. -/
def parseCredentialItems (seen : SeenCredentials) (index : Nat) :
    List (Json String) → Parsed (List StaticCredential)
  | [] => .ok []
  | item :: items => do
    let c ← parseCredential index item
    if c.credentialId ∈ seen.ids then throw (.duplicateCredentialId c.credentialId)
    else if c.tokenSha256 ∈ seen.hashes then
      throw (.invalid "duplicate token_sha256 in policy credentials")
    else
      match seen.assigned c with
      | some label =>
        throw (.invalid ("allowed_label '" ++ label ++ "' is assigned to multiple accounts"))
      | none => return c :: (← parseCredentialItems (seen.add c) (index + 1) items)

/-- `_MAX_POLICY_CREDENTIALS` -/
def maxPolicyCredentials : Nat := 4096

/-- `_parse_credentials` -/
def parseCredentials : Json String → Parsed (List StaticCredential)
  | .array [] => .error (.invalid "policy credentials must be a non-empty array")
  | .array raw =>
    if maxPolicyCredentials < raw.length then
      .error (.invalid ("policy credentials must contain at most " ++ toString maxPolicyCredentials ++
        " items"))
    else parseCredentialItems ⟨[], [], []⟩ 0 raw
  | _ => .error (.invalid "policy credentials must be a non-empty array")

/-! ### What the parser guarantees -/

theorem parsed_bind {α β : Type} {x : Parsed α} {f : α → Parsed β} {b : β} :
    (x >>= f) = .ok b ↔ ∃ a, x = .ok a ∧ f a = .ok b := by
  cases x with
  | error e => simp [bind, Except.bind]
  | ok a => simp [bind, Except.bind]

/-- One round of the loop of `_parse_credentials` that goes through. -/
theorem parseCredentialItems_cons {seen : SeenCredentials} {index : Nat} {item : Json String}
    {items : List (Json String)} {credentials : List StaticCredential}
    (parsed : parseCredentialItems seen index (item :: items) = .ok credentials) :
    ∃ c rest, parseCredential index item = .ok c ∧ c.credentialId ∉ seen.ids ∧
      c.tokenSha256 ∉ seen.hashes ∧ seen.assigned c = none ∧
      parseCredentialItems (seen.add c) (index + 1) items = .ok rest ∧ credentials = c :: rest := by
  rw [parseCredentialItems, parsed_bind] at parsed
  obtain ⟨c, first, parsed⟩ := parsed
  split at parsed
  · cases parsed
  next newId =>
    split at parsed
    · cases parsed
    next newHash =>
      split at parsed
      · cases parsed
      next unassigned =>
        obtain ⟨rest, later, built⟩ := parsed_bind.mp parsed
        cases built
        exact ⟨c, rest, first, newId, newHash, unassigned, later, rfl⟩

theorem requiredStr_ok {raw : Json String} {name s : String} (parsed : requiredStr raw name = .ok s) :
    s ≠ "" := by
  unfold requiredStr at parsed
  split at parsed
  next text =>
    split at parsed
    · cases parsed
    next some_ =>
      cases parsed
      exact some_
  · cases parsed

theorem optionalLabel_ok {raw : Json String} {name label : String}
    (parsed : optionalLabel raw name = .ok (some label)) : validLabel label = true := by
  obtain ⟨value, -, parsed⟩ := parsed_bind.mp parsed
  cases value with
  | none => cases parsed
  | some value =>
    dsimp only at parsed
    split at parsed
    next valid =>
      cases parsed
      exact valid
    · cases parsed

/-- What a credential of its own promises. -/
structure StaticCredential.Valid (c : StaticCredential) : Prop where
  credentialId : c.credentialId ≠ ""
  accountId : c.accountId ≠ ""
  allowedLabel : ∀ label, c.allowedLabel = some label → validLabel label = true

theorem parseCredential_ok {index : Nat} {item : Json String} {c : StaticCredential}
    (parsed : parseCredential index item = .ok c) : c.Valid := by
  unfold parseCredential at parsed
  dsimp only at parsed
  split at parsed
  · obtain ⟨-, -, parsed⟩ := parsed_bind.mp parsed
    obtain ⟨credentialId, credential, parsed⟩ := parsed_bind.mp parsed
    obtain ⟨tokenSha256, -, parsed⟩ := parsed_bind.mp parsed
    obtain ⟨accountId, account, parsed⟩ := parsed_bind.mp parsed
    obtain ⟨maxTunnels, -, parsed⟩ := parsed_bind.mp parsed
    split at parsed
    · cases parsed
    · obtain ⟨allowedLabel, allowed, parsed⟩ := parsed_bind.mp parsed
      obtain ⟨budget, -, parsed⟩ := parsed_bind.mp parsed
      obtain ⟨leaseSeconds, -, parsed⟩ := parsed_bind.mp parsed
      cases parsed
      refine ⟨requiredStr_ok credential, requiredStr_ok account, fun label is => ?_⟩
      cases is
      exact optionalLabel_ok allowed
  · cases parsed

/-- The credentials of a policy together: ids and verifiers are unique, and the credentials
that reserve one label belong to one account. -/
structure WellFormed (credentials : List StaticCredential) : Prop where
  each : ∀ c ∈ credentials, c.Valid
  ids : (credentials.map StaticCredential.credentialId).Nodup
  hashes : (credentials.map StaticCredential.tokenSha256).Nodup
  owners : ∀ c ∈ credentials, ∀ d ∈ credentials, ∀ label, c.allowedLabel = some label →
    d.allowedLabel = some label → c.accountId = d.accountId

/-- What the loop still accepts fits what it has seen. -/
private structure Fits (seen : SeenCredentials) (credentials : List StaticCredential) : Prop where
  wellFormed : WellFormed credentials
  ids : ∀ c ∈ credentials, c.credentialId ∉ seen.ids
  hashes : ∀ c ∈ credentials, c.tokenSha256 ∉ seen.hashes
  owners : ∀ c ∈ credentials, ∀ label owner, c.allowedLabel = some label →
    seen.labelOwners.lookup label = some owner → owner = c.accountId

private theorem parseCredentialItems_fits {seen : SeenCredentials} {index : Nat}
    {items : List (Json String)} {credentials : List StaticCredential}
    (parsed : parseCredentialItems seen index items = .ok credentials) : Fits seen credentials := by
  induction items generalizing seen index credentials with
  | nil =>
    cases parsed
    exact ⟨⟨by simp, by simp, by simp, by simp⟩, by simp, by simp, by simp⟩
  | cons item items ih =>
    obtain ⟨c, rest, first, newId, newHash, unassigned, later, rfl⟩ :=
      parseCredentialItems_cons parsed
    have fits := ih later
    have own : ∀ label owner, c.allowedLabel = some label →
        seen.labelOwners.lookup label = some owner → owner = c.accountId := by
      intro label owner allowed found
      by_contra other
      have taken : seen.assigned c = some label := by
        simp [SeenCredentials.assigned, allowed, found, other]
      rw [taken] at unassigned
      cases unassigned
    -- a later credential for a label of this one has found this one's account
    have shared : ∀ d ∈ rest, ∀ label, c.allowedLabel = some label → d.allowedLabel = some label →
        c.accountId = d.accountId := by
      intro d member label allowed allowed'
      refine fits.owners d member label c.accountId allowed' ?_
      simp [SeenCredentials.add, allowed]
    have elsewhere : ∀ d ∈ rest, ∀ label owner, d.allowedLabel = some label →
        seen.labelOwners.lookup label = some owner → owner = d.accountId := by
      intro d member label owner allowed found
      by_cases same : c.allowedLabel = some label
      · rw [own label owner same found]
        exact shared d member label same allowed
      · refine fits.owners d member label owner allowed ?_
        cases mine : c.allowedLabel with
        | none => simpa [SeenCredentials.add, mine] using found
        | some label' =>
          have differ : label ≠ label' := fun equal => same (mine.trans (congrArg some equal.symm))
          simpa [SeenCredentials.add, mine, List.lookup_cons, beq_false_of_ne differ] using found
    refine ⟨⟨?_, ?_, ?_, ?_⟩, ?_, ?_, ?_⟩
    · simpa using ⟨parseCredential_ok first, fits.wellFormed.each⟩
    · rw [List.map_cons, List.nodup_cons]
      refine ⟨fun member => ?_, fits.wellFormed.ids⟩
      obtain ⟨d, member, same⟩ := List.mem_map.mp member
      exact fits.ids d member (by simp [SeenCredentials.add, same])
    · rw [List.map_cons, List.nodup_cons]
      refine ⟨fun member => ?_, fits.wellFormed.hashes⟩
      obtain ⟨d, member, same⟩ := List.mem_map.mp member
      exact fits.hashes d member (by simp [SeenCredentials.add, same])
    · intro d member e member' label allowed allowed'
      rcases List.mem_cons.mp member with first | early <;>
        rcases List.mem_cons.mp member' with first' | late
      · rw [first, first']
      · rw [first] at allowed ⊢
        exact shared e late label allowed allowed'
      · rw [first'] at allowed' ⊢
        exact (shared d early label allowed' allowed).symm
      · exact fits.wellFormed.owners d early e late label allowed allowed'
    · intro d member
      rcases List.mem_cons.mp member with rfl | member
      · exact newId
      · exact fun seen_ => fits.ids d member (List.mem_cons_of_mem _ seen_)
    · intro d member
      rcases List.mem_cons.mp member with rfl | member
      · exact newHash
      · exact fun seen_ => fits.hashes d member (List.mem_cons_of_mem _ seen_)
    · intro d member
      rcases List.mem_cons.mp member with rfl | member
      · exact own
      · exact elsewhere d member

theorem parseCredentials_ok {raw : Json String} {credentials : List StaticCredential}
    (parsed : parseCredentials raw = .ok credentials) :
    ∃ items, parseCredentialItems ⟨[], [], []⟩ 0 items = .ok credentials := by
  unfold parseCredentials at parsed
  split at parsed
  · cases parsed
  next items _ =>
    split at parsed
    · cases parsed
    · exact ⟨items, parsed⟩
  · cases parsed

theorem parseCredentials_wellFormed {raw : Json String} {credentials : List StaticCredential}
    (parsed : parseCredentials raw = .ok credentials) : WellFormed credentials := by
  obtain ⟨items, parsed⟩ := parseCredentials_ok parsed
  exact (parseCredentialItems_fits parsed).wellFormed

/-! ### The policy update -/

/-- `_duplicates`: each value that occurs twice, where it first does. -/
def duplicates (values : List String) : List String :=
  (values.foldl (fun (seen, found) value =>
    (value :: seen, if value ∈ seen ∧ value ∉ found then found ++ [value] else found))
    (([], []) : List String × List String)).2

/-- Reject a list of keys that has duplicates. -/
def rejectDuplicates (values : List String) (complaint : String) : Parsed Unit :=
  if duplicates values = [] then .ok ()
  else .error (.invalid (complaint ++ ": " ++ ", ".intercalate (duplicates values)))

/-- An array of at most `limit` items, each parsed under its own name. -/
def parseArray {α : Type} (name : String) (limit : Nat) (parse : String → Json String → Parsed α) :
    Json String → Parsed (List α)
  | .array raw =>
    if limit < raw.length then
      .error (.invalid (name ++ " must contain at most " ++ toString limit ++ " items"))
    else
      (raw.zipIdx).mapM fun (item, index) => parse (name ++ "[" ++ toString index ++ "]") item
  | _ => .error (.invalid (name ++ " must be an array"))

/-- `_MAX_POLICY_REVOKE_LEASE_IDS`, `_MAX_POLICY_LEASE_REVOCATIONS`, `_MAX_POLICY_ACCOUNT_BUDGETS` -/
def maxPolicyRevokeLeaseIds : Nat := 10000

def maxPolicyLeaseRevocations : Nat := 10000

def maxPolicyAccountBudgets : Nat := 4096

/-- `_parse_revoke_lease_ids` -/
def parseRevokeLeaseIds (raw : Json String) : Parsed (List String) := do
  let leaseIds ← parseArray "revoke_lease_ids" maxPolicyRevokeLeaseIds
    (fun name item => requiredStr item name) raw
  rejectDuplicates leaseIds "revoke_lease_ids has duplicates"
  return leaseIds

/-- The action of a revocation. -/
def parseAction (raw : Json String) (name : String) : Parsed RevocationAction :=
  match raw with
  | .str "drain" => .ok .drain
  | .str "close" => .ok .close
  | _ => .error (.invalid (name ++ " must be 'drain' or 'close'"))

/-- The body of the loop of `_parse_lease_revocations`. -/
def parseLeaseRevocation (name : String) : Json String → Parsed (String × RevocationAction)
  | .object item => do
    rejectUnknownKeys item ["lease_id", "action"] name
    let leaseId ← requiredStr (Json.get item "lease_id") (name ++ ".lease_id")
    return (leaseId, ← parseAction (Json.getOr item "action" (.str "drain")) (name ++ ".action"))
  | _ => .error (.invalid (name ++ " must be an object"))

/-- `_parse_lease_revocations` -/
def parseLeaseRevocations (raw : Json String) : Parsed (List (String × RevocationAction)) := do
  let revocations ← parseArray "lease_revocations" maxPolicyLeaseRevocations parseLeaseRevocation raw
  rejectDuplicates (revocations.map Prod.fst) "lease_revocations has duplicate lease_id values"
  return revocations

/-- The body of the loop of `_parse_account_budget_updates`. -/
def parseAccountBudgetUpdate (name : String) : Json String → Parsed (String × Budget)
  | .object item => do
    rejectUnknownKeys item ["account_id", "budget"] name
    let accountId ← requiredStr (Json.get item "account_id") (name ++ ".account_id")
    return (accountId, ← parseBudget (Json.getOr item "budget" (.object [])) (name ++ ".budget"))
  | _ => .error (.invalid (name ++ " must be an object"))

/-- `_parse_account_budget_updates` -/
def parseAccountBudgetUpdates (raw : Json String) : Parsed (List (String × Budget)) := do
  let updates ← parseArray "account_budgets" maxPolicyAccountBudgets parseAccountBudgetUpdate raw
  rejectDuplicates (updates.map Prod.fst) "account_budgets has duplicate account_id values"
  return updates

/-- `_parse_policy_update` -/
def parsePolicyUpdate (data : List (String × Json String)) : Parsed (Option PolicyUpdate) :=
  if ["policy_version", "revoke_lease_ids", "lease_revocations", "account_budgets"].any
      fun key => (data.lookup key).isSome then do
    let version ← requiredPositiveInt (Json.get data "policy_version") "policy_version"
    let revokeLeaseIds ← parseRevokeLeaseIds (Json.getOr data "revoke_lease_ids" (.array []))
    let leaseRevocations ← parseLeaseRevocations (Json.getOr data "lease_revocations" (.array []))
    let accountBudgets ← parseAccountBudgetUpdates (Json.getOr data "account_budgets" (.array []))
    rejectDuplicates (revokeLeaseIds ++ leaseRevocations.map Prod.fst)
      ("policy update revocations duplicate lease_id values across " ++
        "revoke_lease_ids and lease_revocations")
    if revokeLeaseIds = [] ∧ leaseRevocations = [] ∧ accountBudgets = [] then return none
    else return some ⟨version, revokeLeaseIds, accountBudgets, leaseRevocations⟩
  else .ok none

/-! ### The file -/

/-- `_StaticPolicy` -/
structure StaticPolicy where
  credentials : List StaticCredential
  policyUpdate : Option PolicyUpdate
  deriving DecidableEq, Repr

/-- What `json.loads` makes of the text of the file. -/
inductive PolicyText
  | json (data : Json String)
  /-- No JSON, with the text of the `ValueError`. -/
  | invalid (text : String)
  | tooDeep

/-- `_POLICY_SCHEMA_VERSION` -/
def policySchemaVersion : Int := 1

def policyFileKeys : List String :=
  ["schema_version", "credentials", "policy_version", "revoke_lease_ids", "lease_revocations",
    "account_budgets"]

/-- `_parse_static_policy_text` -/
def parseStaticPolicyText : PolicyText → Parsed StaticPolicy
  | .invalid text => .error (.invalid text)
  | .tooDeep => .error .recursionError
  | .json (.object data) => do
    rejectUnknownKeys data policyFileKeys "policy file"
    if (Json.get data "schema_version").equalsInt policySchemaVersion then
      let credentials ← parseCredentials (Json.get data "credentials")
      return ⟨credentials, ← parsePolicyUpdate data⟩
    else throw (.invalid ("policy file schema_version must be " ++ toString policySchemaVersion))
  | .json _ => .error (.invalid "policy file must contain a JSON object")

/-- What a file that parses consists of. -/
theorem parseStaticPolicyText_ok {text : PolicyText} {policy : StaticPolicy}
    (parsed : parseStaticPolicyText text = .ok policy) :
    ∃ data, parseCredentials (Json.get data "credentials") = .ok policy.credentials ∧
      parsePolicyUpdate data = .ok policy.policyUpdate := by
  unfold parseStaticPolicyText at parsed
  split at parsed
  · cases parsed
  · cases parsed
  next data =>
    obtain ⟨-, -, parsed⟩ := parsed_bind.mp parsed
    split at parsed
    · obtain ⟨credentials, valid, parsed⟩ := parsed_bind.mp parsed
      obtain ⟨update, updates, parsed⟩ := parsed_bind.mp parsed
      cases parsed
      exact ⟨data, valid, updates⟩
    · cases parsed
  · cases parsed

theorem parseStaticPolicyText_wellFormed {text : PolicyText} {policy : StaticPolicy}
    (parsed : parseStaticPolicyText text = .ok policy) : WellFormed policy.credentials := by
  obtain ⟨data, credentials, -⟩ := parseStaticPolicyText_ok parsed
  exact parseCredentials_wellFormed credentials

end Control

end Chute
