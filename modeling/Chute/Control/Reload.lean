import Chute.Control.Leases

/-!
# Reloading the policy file

`_load_policy` remembers the fingerprint of the file it parsed last and of the last file that
did not parse. Against a loader that parses every time this shows only in what is not parsed
again; and a running policy survives every edit whose parser raises nothing but a `ValueError`.
-/
namespace Chute

namespace Control

/-! ### The cache -/

/-- A loader without a cache, which falls back to the last policy that it parsed. -/
def reload (last : StaticPolicy) : PolicyFile → StaticPolicy
  | .unreadable => last
  | .snapshot _ text =>
    match parseStaticPolicyText text with
    | .ok policy => policy
    | .error _ => last

theorem reload_ok {last policy : StaticPolicy} {text : PolicyText} (parsed : parseStaticPolicyText text = .ok policy)
    (fingerprint : Int × Int × Int × Int × Int) : reload last (.snapshot fingerprint text) = policy := by
  rw [reload, parsed]

theorem reload_error {last : StaticPolicy} {text : PolicyText} {e : PolicyError}
    (failed : parseStaticPolicyText text = .error e) (fingerprint : Int × Int × Int × Int × Int) :
    reload last (.snapshot fingerprint text) = last := by
  rw [reload, failed]

def reloads : StaticPolicy → List PolicyFile → List StaticPolicy
  | _, [] => []
  | last, file :: files => reload last file :: reloads (reload last file) files

/-- The file has the content that its fingerprint stands for. -/
def PolicyFile.Shows (content : Int × Int × Int × Int × Int → PolicyText) (file : PolicyFile) : Prop :=
  ∀ fingerprint text, file = .snapshot fingerprint text → text = content fingerprint

namespace StaticPolicyControlPlane

variable {plane : StaticPolicyControlPlane} {file : PolicyFile}
  {content : Int × Int × Int × Int × Int → PolicyText}

/-- The answers of successive calls of `_load_policy`. -/
def loadPolicies : StaticPolicyControlPlane → List PolicyFile → List (Option StaticPolicy)
  | _, [] => []
  | plane, file :: files => (plane.loadPolicy file).1 :: loadPolicies (plane.loadPolicy file).2 files

/-- What the remembered fingerprints stand for: the policy in use, and a file that does not parse. -/
structure Remembers (content : Int × Int × Int × Int × Int → PolicyText)
    (plane : StaticPolicyControlPlane) : Prop where
  good : ∀ fingerprint, plane.policyFingerprint = some fingerprint →
    parseStaticPolicyText (content fingerprint) = .ok plane.policy
  bad : ∀ fingerprint, plane.badPolicyFingerprint = some fingerprint →
    ∃ e, parseStaticPolicyText (content fingerprint) = .error e

theorem remembers_create (created : create file = some plane) (shows_ : file.Shows content) :
    Remembers content plane := by
  obtain ⟨fingerprint, text, rfl, parsed, shape⟩ := create_snapshot created
  have same := shows_ fingerprint text rfl
  rw [shape]
  constructor
  · rintro _ ⟨⟩
    rw [← same]
    exact parsed
  · nofun

/-- One call answers as the loader without a cache does, and remembers what it has seen. -/
theorem Remembers.loadPolicy (remembers : Remembers content plane) (shows_ : file.Shows content)
    (loads : file.Loads) :
    (plane.loadPolicy file).1 = some (reload plane.policy file) ∧
      (plane.loadPolicy file).2.policy = reload plane.policy file ∧
        Remembers content (plane.loadPolicy file).2 := by
  cases file with
  | unreadable => exact ⟨rfl, rfl, remembers⟩
  | snapshot fingerprint text =>
    have same := shows_ fingerprint text rfl
    subst same
    rw [StaticPolicyControlPlane.loadPolicy]
    split
    next known =>
      -- a remembered fingerprint: the policy in use is what a parse would give, or fall back to
      have again : reload plane.policy (.snapshot fingerprint (content fingerprint)) = plane.policy := by
        rcases known with good | bad
        · exact reload_ok (remembers.good fingerprint good) fingerprint
        · obtain ⟨e, failed⟩ := remembers.bad fingerprint bad
          exact reload_error failed fingerprint
      exact ⟨congrArg some again.symm, again.symm, remembers⟩
    · split
      next policy parsed =>
        rw [reload_ok parsed]
        refine ⟨rfl, rfl, ?_, nofun⟩
        rintro _ ⟨⟩
        exact parsed
      next e failed =>
        rw [if_pos (loads fingerprint _ e rfl failed), reload_error failed]
        refine ⟨rfl, rfl, remembers.good, ?_⟩
        rintro _ ⟨⟩
        exact ⟨e, failed⟩

theorem Remembers.loadPolicies (remembers : Remembers content plane) {files : List PolicyFile}
    (shows_ : ∀ file ∈ files, file.Shows content) (loads : ∀ file ∈ files, file.Loads) :
    plane.loadPolicies files = (reloads plane.policy files).map some := by
  induction files generalizing plane with
  | nil => rfl
  | cons file files ih =>
    obtain ⟨answer, policy, later⟩ := remembers.loadPolicy (shows_ file List.mem_cons_self)
      (loads file List.mem_cons_self)
    rw [StaticPolicyControlPlane.loadPolicies, reloads, List.map_cons, answer,
      ih later (fun file here => shows_ file (List.mem_cons_of_mem _ here))
        (fun file here => loads file (List.mem_cons_of_mem _ here)), policy]

/-- **The cache of the policy file is transparent.** -/
theorem cache_transparent (created : create file = some plane) {files : List PolicyFile}
    (determined : ∀ f ∈ file :: files, f.Shows content) (loads : ∀ f ∈ files, f.Loads) :
    plane.loadPolicies files = (reloads plane.policy files).map some :=
  (remembers_create created (determined file List.mem_cons_self)).loadPolicies
    (fun f here => determined f (List.mem_cons_of_mem _ here)) loads

/-- A good file and a bad one. -/
def goodText : PolicyText :=
  .json (.object [("schema_version", .int 1), ("credentials", .array
    [.object [("credential_id", .str "cred-a"), ("account_id", .str "a"), ("max_tunnels", .int 1),
      ("token_sha256", .str "8ed3f6ad685b959ead7022518e1af76cd816f8e8ec7ccdda1ed4018e8f2223f8")]])])

def goodFile : PolicyFile := .snapshot (1, 2, 3, 4, 5) goodText

def badFile : PolicyFile := .snapshot (1, 2, 4, 5, 5) (.invalid "policy file is invalid JSON")

/-- Bad, good and bad again. -/
theorem cache_transparent_of_edits : ∃ plane, create goodFile = some plane ∧
    plane.loadPolicies [badFile, goodFile, .unreadable, badFile] =
      List.replicate 4 (some plane.policy) := by
  have created : (create goodFile).isSome = true := by decide
  obtain ⟨plane, created⟩ := Option.isSome_iff_exists.mp created
  obtain ⟨_, _, same, parsed, -⟩ := create_snapshot created
  cases same
  refine ⟨plane, created, ?_⟩
  have transparent := @cache_transparent plane goodFile (fun fingerprint =>
    if fingerprint = (1, 2, 3, 4, 5) then goodText else .invalid "policy file is invalid JSON") created
    [badFile, goodFile, .unreadable, badFile] ?_ ?_
  · rw [transparent]
    simp only [reloads, reload, badFile, goodFile, parsed]
    rfl
  · intro f here fingerprint text shown
    simp only [List.mem_cons, List.not_mem_nil, or_false] at here
    rcases here with rfl | rfl | rfl | rfl | rfl <;> cases shown <;> rfl
  · intro f here fingerprint text e shown failed
    simp only [List.mem_cons, List.not_mem_nil, or_false] at here
    rcases here with rfl | rfl | rfl | rfl <;> cases shown
    · cases failed
      rfl
    · rw [parsed] at failed
      cases failed
    · cases failed
      rfl

end StaticPolicyControlPlane

/-! ### What the parser raises -/

/-- The parser raises something that is no `ValueError`. -/
def Escapes {α : Type} (x : Parsed α) : Prop := ∃ e, x = .error e ∧ e.isValueError = false

section

variable {α β : Type}

theorem escapes_bind {x : Parsed α} {f : α → Parsed β} :
    Escapes (x >>= f) ↔ Escapes x ∨ ∃ a, x = .ok a ∧ Escapes (f a) := by
  cases x with
  | error e =>
    constructor
    · rintro ⟨e', same, escapes⟩
      cases same
      exact Or.inl ⟨e, rfl, escapes⟩
    · rintro (⟨e', same, escapes⟩ | ⟨a, same, -⟩)
      · cases same
        exact ⟨e, rfl, escapes⟩
      · cases same
  | ok a =>
    constructor
    · exact fun escapes => Or.inr ⟨a, rfl, escapes⟩
    · rintro (⟨e, same, -⟩ | ⟨a', same, escapes⟩)
      · cases same
      · cases same
        exact escapes

theorem not_escapes_ok {a : α} : ¬ Escapes (.ok a : Parsed α) := nofun

theorem not_escapes_invalid {text : String} : ¬ Escapes (.error (.invalid text) : Parsed α) := by
  rintro ⟨e, same, escapes⟩
  cases same
  cases escapes

theorem not_escapes_duplicate {credentialId : String} :
    ¬ Escapes (.error (.duplicateCredentialId credentialId) : Parsed α) := by
  rintro ⟨e, same, escapes⟩
  cases same
  cases escapes

theorem not_escapes_bind {x : Parsed α} {f : α → Parsed β} (first : ¬ Escapes x)
    (then_ : ∀ a, ¬ Escapes (f a)) : ¬ Escapes (x >>= f) := by
  rw [escapes_bind]
  rintro (escapes | ⟨a, -, escapes⟩)
  · exact first escapes
  · exact then_ a escapes

theorem not_escapes_ite {p : Prop} [Decidable p] {x y : Parsed α} (then_ : ¬ Escapes x)
    (else_ : ¬ Escapes y) : ¬ Escapes (if p then x else y) := by
  split
  · exact then_
  · exact else_

end

theorem not_escapes_rejectUnknownKeys {data : List (String × Json String)} {allowed : List String}
    {name : String} : ¬ Escapes (rejectUnknownKeys data allowed name) :=
  not_escapes_ite not_escapes_ok not_escapes_invalid

theorem not_escapes_requiredStr {raw : Json String} {name : String} : ¬ Escapes (requiredStr raw name) := by
  unfold requiredStr
  split
  · exact not_escapes_ite not_escapes_invalid not_escapes_ok
  · exact not_escapes_invalid

theorem not_escapes_parseTokenSha256 {raw : Json String} {name : String} :
    ¬ Escapes (parseTokenSha256 raw name) :=
  not_escapes_bind not_escapes_requiredStr fun _ => not_escapes_ite not_escapes_ok not_escapes_invalid

theorem not_escapes_optionalLabel {raw : Json String} {name : String} :
    ¬ Escapes (optionalLabel raw name) := by
  refine not_escapes_bind ?_ fun value => ?_
  · unfold optionalStr
    split
    · exact not_escapes_ok
    · exact not_escapes_bind not_escapes_requiredStr fun _ => not_escapes_ok
  · split
    · exact not_escapes_ok
    · exact not_escapes_ite not_escapes_ok not_escapes_invalid

theorem not_escapes_optionalNonnegativeInt {raw : Json String} {name : String} :
    ¬ Escapes (optionalNonnegativeInt raw name) := by
  unfold optionalNonnegativeInt
  split
  · exact not_escapes_ok
  · exact not_escapes_ite not_escapes_invalid not_escapes_ok
  · exact not_escapes_invalid

theorem not_escapes_optionalPositiveInt {raw : Json String} {name : String} :
    ¬ Escapes (optionalPositiveInt raw name) := by
  unfold optionalPositiveInt
  split
  · exact not_escapes_ok
  · exact not_escapes_ite not_escapes_invalid not_escapes_ok
  · exact not_escapes_invalid

theorem not_escapes_requiredPositiveInt {raw : Json String} {name : String} :
    ¬ Escapes (requiredPositiveInt raw name) := by
  refine not_escapes_bind not_escapes_optionalPositiveInt fun value => ?_
  split
  · exact not_escapes_invalid
  · exact not_escapes_ok

theorem not_escapes_parseBudget {raw : Json String} {name : String} : ¬ Escapes (parseBudget raw name) := by
  unfold parseBudget
  split
  · refine not_escapes_bind not_escapes_rejectUnknownKeys fun _ => ?_
    refine not_escapes_bind not_escapes_optionalNonnegativeInt fun _ => ?_
    refine not_escapes_bind not_escapes_optionalNonnegativeInt fun _ => ?_
    refine not_escapes_bind not_escapes_optionalNonnegativeInt fun _ => ?_
    exact not_escapes_bind not_escapes_optionalNonnegativeInt fun _ => not_escapes_ok
  · exact not_escapes_invalid

theorem not_escapes_rejectDuplicates {values : List String} {complaint : String} :
    ¬ Escapes (rejectDuplicates values complaint) :=
  not_escapes_ite not_escapes_ok not_escapes_invalid

theorem not_escapes_mapM {α β : Type} {f : α → Parsed β} (each : ∀ x, ¬ Escapes (f x)) (xs : List α) :
    ¬ Escapes (xs.mapM f) := by
  induction xs with
  | nil => exact not_escapes_ok
  | cons x xs ih =>
    rw [List.mapM_cons]
    exact not_escapes_bind (each x) fun _ => not_escapes_bind ih fun _ => not_escapes_ok

theorem not_escapes_parseArray {α : Type} {name : String} {limit : Nat}
    {parse : String → Json String → Parsed α} (each : ∀ name item, ¬ Escapes (parse name item))
    (raw : Json String) : ¬ Escapes (parseArray name limit parse raw) := by
  unfold parseArray
  split
  · exact not_escapes_ite not_escapes_invalid (not_escapes_mapM (fun x : Json String × Nat => each _ x.1) _)
  · exact not_escapes_invalid

/-- The update sections raise `ValueError` only. -/
theorem not_escapes_parsePolicyUpdate {data : List (String × Json String)} :
    ¬ Escapes (parsePolicyUpdate data) := by
  have action : ∀ {raw : Json String} {name : String}, ¬ Escapes (parseAction raw name) := by
    intro raw name
    unfold parseAction
    split
    · exact not_escapes_ok
    · exact not_escapes_ok
    · exact not_escapes_invalid
  have revocation : ∀ name item, ¬ Escapes (parseLeaseRevocation name item) := by
    intro name item
    unfold parseLeaseRevocation
    split
    · refine not_escapes_bind not_escapes_rejectUnknownKeys fun _ => ?_
      refine not_escapes_bind not_escapes_requiredStr fun _ => ?_
      exact not_escapes_bind action fun _ => not_escapes_ok
    · exact not_escapes_invalid
  have budget : ∀ name item, ¬ Escapes (parseAccountBudgetUpdate name item) := by
    intro name item
    unfold parseAccountBudgetUpdate
    split
    · refine not_escapes_bind not_escapes_rejectUnknownKeys fun _ => ?_
      refine not_escapes_bind not_escapes_requiredStr fun _ => ?_
      exact not_escapes_bind not_escapes_parseBudget fun _ => not_escapes_ok
    · exact not_escapes_invalid
  have section_ : ∀ {α : Type} {x : Parsed (List α)} {keys : List α → List String} {complaint : String},
      ¬ Escapes x → ¬ Escapes (x >>= fun items => do
        rejectDuplicates (keys items) complaint
        return items) := fun array => not_escapes_bind array fun _ =>
    not_escapes_bind not_escapes_rejectDuplicates fun _ => not_escapes_ok
  unfold parsePolicyUpdate
  split
  · refine not_escapes_bind not_escapes_requiredPositiveInt fun _ => ?_
    refine not_escapes_bind (@section_ _ _ id _
      (not_escapes_parseArray (fun _ _ => not_escapes_requiredStr) _)) fun _ => ?_
    refine not_escapes_bind (section_ (not_escapes_parseArray revocation _)) fun _ => ?_
    refine not_escapes_bind (section_ (not_escapes_parseArray budget _)) fun _ => ?_
    refine not_escapes_bind not_escapes_rejectDuplicates fun _ => ?_
    exact not_escapes_ite not_escapes_ok not_escapes_ok
  · exact not_escapes_ok

/-! ### The assertion -/

/-- An item whose `max_tunnels` is null, behind fields that are in order. -/
def NullLimit (index : Nat) : Json String → Prop
  | .object item =>
    let place := "credentials[" ++ toString index ++ "]"
    (∃ done, rejectUnknownKeys item credentialFields ("policy " ++ place) = .ok done) ∧
    (∃ s, requiredStr (Json.get item "credential_id") (place ++ ".credential_id") = .ok s) ∧
    (∃ s, parseTokenSha256 (Json.get item "token_sha256") (place ++ ".token_sha256") = .ok s) ∧
    (∃ s, requiredStr (Json.get item "account_id") (place ++ ".account_id") = .ok s) ∧
    Json.getOr item "max_tunnels" (.int unlimitedTunnels) = .null
  | _ => False

theorem optionalNonnegativeInt_none_iff {raw : Json String} {name : String} :
    optionalNonnegativeInt raw name = .ok none ↔ raw = .null := by
  unfold optionalNonnegativeInt
  split
  · exact iff_of_true rfl rfl
  next n =>
    refine iff_of_false (fun read => ?_) nofun
    split at read <;> cases read
  next other _ => exact iff_of_false nofun fun null => other null

/-- The body of the loop raises an `AssertionError` at such an item, and a `ValueError` otherwise. -/
theorem escapes_parseCredential_iff {index : Nat} {item : Json String} :
    Escapes (parseCredential index item) ↔ NullLimit index item := by
  cases item with
  | object item =>
    constructor
    · intro escapes
      rcases escapes_bind.mp escapes with bad | ⟨done, keys, escapes⟩
      · exact absurd bad not_escapes_rejectUnknownKeys
      rcases escapes_bind.mp escapes with bad | ⟨credentialId, credential, escapes⟩
      · exact absurd bad not_escapes_requiredStr
      rcases escapes_bind.mp escapes with bad | ⟨tokenSha256, token, escapes⟩
      · exact absurd bad not_escapes_parseTokenSha256
      rcases escapes_bind.mp escapes with bad | ⟨accountId, account, escapes⟩
      · exact absurd bad not_escapes_requiredStr
      rcases escapes_bind.mp escapes with bad | ⟨maxTunnels, limit, escapes⟩
      · exact absurd bad not_escapes_optionalNonnegativeInt
      cases maxTunnels with
      | none =>
        exact ⟨⟨done, keys⟩, ⟨credentialId, credential⟩, ⟨tokenSha256, token⟩, ⟨accountId, account⟩,
          optionalNonnegativeInt_none_iff.mp limit⟩
      | some maxTunnels =>
        refine absurd escapes (not_escapes_bind not_escapes_optionalLabel fun _ => ?_)
        refine not_escapes_bind not_escapes_parseBudget fun _ => ?_
        exact not_escapes_bind not_escapes_optionalPositiveInt fun _ => not_escapes_ok
    · rintro ⟨⟨done, keys⟩, ⟨credentialId, credential⟩, ⟨tokenSha256, token⟩, ⟨accountId, account⟩, null⟩
      refine escapes_bind.mpr (Or.inr ⟨done, keys, ?_⟩)
      refine escapes_bind.mpr (Or.inr ⟨credentialId, credential, ?_⟩)
      refine escapes_bind.mpr (Or.inr ⟨tokenSha256, token, ?_⟩)
      refine escapes_bind.mpr (Or.inr ⟨accountId, account, ?_⟩)
      refine escapes_bind.mpr (Or.inr ⟨none, optionalNonnegativeInt_none_iff.mpr null, ?_⟩)
      exact ⟨.assertionError, rfl, rfl⟩
  | _ => exact iff_of_false not_escapes_invalid id

/-- The loop comes to such an item, behind items that go through. -/
def ReachesNullLimit (seen : SeenCredentials) (index : Nat) : List (Json String) → Prop
  | [] => False
  | item :: items =>
    NullLimit index item ∨
      ∃ c, parseCredential index item = .ok c ∧ c.credentialId ∉ seen.ids ∧
        c.tokenSha256 ∉ seen.hashes ∧ seen.assigned c = none ∧
          ReachesNullLimit (seen.add c) (index + 1) items

theorem escapes_parseCredentialItems_iff {seen : SeenCredentials} {index : Nat}
    {items : List (Json String)} :
    Escapes (parseCredentialItems seen index items) ↔ ReachesNullLimit seen index items := by
  induction items generalizing seen index with
  | nil => exact iff_of_false not_escapes_ok id
  | cons item items ih =>
    rw [parseCredentialItems, escapes_bind, escapes_parseCredential_iff, ReachesNullLimit]
    refine or_congr_right (exists_congr fun c => and_congr_right fun _ => ?_)
    split
    next known => exact iff_of_false not_escapes_duplicate fun fresh => fresh.1 known
    next new =>
      split
      next known => exact iff_of_false not_escapes_invalid fun fresh => fresh.2.1 known
      next new' =>
        split
        next label assigned =>
          refine iff_of_false not_escapes_invalid fun fresh => ?_
          rw [assigned] at fresh
          cases fresh.2.2.1
        next unassigned =>
          rw [escapes_bind, ih]
          constructor
          · rintro (reaches | ⟨rest, -, escapes⟩)
            · exact ⟨new, new', unassigned, reaches⟩
            · exact absurd escapes not_escapes_ok
          · rintro ⟨-, -, -, reaches⟩
            exact Or.inl reaches

/-- The texts that bring `_parse_static_policy_text` to raise something that is no `ValueError`:
nested too deeply for `json.loads`, or with a null for the tunnel limit of a credential. -/
def PolicyText.Overruns : PolicyText → Prop
  | .tooDeep => True
  | .invalid _ => False
  | .json (.object data) =>
    (∃ done, rejectUnknownKeys data policyFileKeys "policy file" = .ok done) ∧
      (Json.get data "schema_version").equalsInt policySchemaVersion = true ∧
        ∃ items, Json.get data "credentials" = .array items ∧ items.length ≤ maxPolicyCredentials ∧
          ReachesNullLimit ⟨[], [], []⟩ 0 items
  | .json _ => False

theorem escapes_parseCredentials_iff {raw : Json String} :
    Escapes (parseCredentials raw) ↔ ∃ items, raw = .array items ∧
      items.length ≤ maxPolicyCredentials ∧ ReachesNullLimit ⟨[], [], []⟩ 0 items := by
  unfold parseCredentials
  split
  · refine iff_of_false not_escapes_invalid ?_
    rintro ⟨items, same, -, reaches⟩
    cases same
    exact reaches
  next items _ =>
    split
    next many =>
      refine iff_of_false not_escapes_invalid ?_
      rintro ⟨items, same, few, -⟩
      cases same
      omega
    next few =>
      rw [escapes_parseCredentialItems_iff]
      constructor
      · exact fun reaches => ⟨items, rfl, Nat.le_of_not_lt few, reaches⟩
      · rintro ⟨items, same, -, reaches⟩
        cases same
        exact reaches
  next none_ =>
    refine iff_of_false not_escapes_invalid ?_
    rintro ⟨items, rfl, -⟩
    exact none_ items rfl

theorem escapes_parseStaticPolicyText_iff {text : PolicyText} :
    Escapes (parseStaticPolicyText text) ↔ text.Overruns := by
  unfold parseStaticPolicyText
  split
  · exact iff_of_false not_escapes_invalid id
  · exact iff_of_true ⟨.recursionError, rfl, rfl⟩ trivial
  next data =>
    rw [escapes_bind, PolicyText.Overruns]
    constructor
    · rintro (bad | ⟨done, keys, escapes⟩)
      · exact absurd bad not_escapes_rejectUnknownKeys
      split at escapes
      next version =>
        rcases escapes_bind.mp escapes with bad | ⟨credentials, -, escapes⟩
        · exact ⟨⟨done, keys⟩, version, escapes_parseCredentials_iff.mp bad⟩
        · exact absurd escapes (not_escapes_bind not_escapes_parsePolicyUpdate fun _ => not_escapes_ok)
      · exact absurd escapes not_escapes_invalid
    · rintro ⟨⟨done, keys⟩, version, credentials⟩
      refine Or.inr ⟨done, keys, ?_⟩
      rw [if_pos version]
      exact escapes_bind.mpr (Or.inl (escapes_parseCredentials_iff.mpr credentials))
  next other =>
    refine iff_of_false not_escapes_invalid fun overruns => ?_
    cases ‹Json String› with
    | object data => exact other data rfl
    | _ => exact overruns

/-- What parses takes the place of the policy, every `ValueError` leaves it, and nothing else comes
back from a call. -/
theorem StaticPolicyControlPlane.loadPolicy_iff (plane : StaticPolicyControlPlane) (file : PolicyFile) :
    (∃ policy, (plane.loadPolicy file).1 = some policy ∧ (policy = plane.policy ∨
        ∃ fingerprint text, file = .snapshot fingerprint text ∧
          parseStaticPolicyText text = .ok policy)) ↔
      ∀ fingerprint text, file = .snapshot fingerprint text →
        plane.policyFingerprint ≠ some fingerprint → plane.badPolicyFingerprint ≠ some fingerprint →
          ¬ text.Overruns := by
  cases file with
  | unreadable => exact iff_of_true ⟨plane.policy, rfl, Or.inl rfl⟩ nofun
  | snapshot fingerprint text =>
    rw [loadPolicy]
    split
    next known =>
      refine iff_of_true ⟨plane.policy, rfl, Or.inl rfl⟩ ?_
      rintro _ _ ⟨⟩ good bad
      exact absurd known (not_or.mpr ⟨good, bad⟩)
    next new =>
      rw [not_or] at new
      split
      next policy parsed =>
        refine iff_of_true ⟨policy, rfl, Or.inr ⟨fingerprint, text, rfl, parsed⟩⟩ ?_
        rintro _ _ ⟨⟩ - - overruns
        obtain ⟨e, failed, -⟩ := escapes_parseStaticPolicyText_iff.mpr overruns
        rw [parsed] at failed
        cases failed
      next e failed =>
        split
        next value =>
          refine iff_of_true ⟨plane.policy, rfl, Or.inl rfl⟩ ?_
          rintro _ _ ⟨⟩ - - overruns
          obtain ⟨e', failed', escapes⟩ := escapes_parseStaticPolicyText_iff.mpr overruns
          rw [failed] at failed'
          cases failed'
          rw [value] at escapes
          cases escapes
        next escapes =>
          refine iff_of_false (by rintro ⟨_, ⟨⟩, -⟩) fun safe => ?_
          exact safe fingerprint text rfl new.1 new.2
            (escapes_parseStaticPolicyText_iff.mp ⟨e, failed, Bool.eq_false_of_not_eq_true escapes⟩)

namespace StaticPolicyControlPlane

/-- The control plane goes on with this file: it has the last good policy or the new one, and its
calls raise for reasons of their own only. -/
structure Survives (plane : StaticPolicyControlPlane) (file : PolicyFile) : Prop where
  loaded : ∃ policy, (plane.loadPolicy file).1 = some policy ∧ (policy = plane.policy ∨
    ∃ fingerprint text, file = .snapshot fingerprint text ∧ parseStaticPolicyText text = .ok policy)
  polled : ∀ request, (plane.pollPolicyUpdates file request).1 ≠ none
  admitted : ∀ sha256 token leaseId now, (plane.admitTunnel sha256 file token leaseId now).1 = none →
    token.encode = none ∨ ∃ c ∈ (plane.loadPolicy file).2.policy.credentials, ∃ seconds,
      c.leaseSeconds = some seconds ∧ expiresAfter now seconds = none
  renewed : ∀ request now, (plane.renewLease file request now).1 = none →
    ∃ c ∈ (plane.loadPolicy file).2.policy.credentials, ∃ seconds,
      c.leaseSeconds = some seconds ∧ expiresAfter now seconds = none

variable {plane : StaticPolicyControlPlane} {file : PolicyFile} {policy : StaticPolicy}

/-- Which leases there are makes no difference to a load. -/
theorem loadPolicy_congr {plane' : StaticPolicyControlPlane} (same : plane'.policy = plane.policy)
    (good : plane'.policyFingerprint = plane.policyFingerprint)
    (bad : plane'.badPolicyFingerprint = plane.badPolicyFingerprint) :
    (plane'.loadPolicy file).1 = (plane.loadPolicy file).1 := by
  cases file with
  | unreadable => exact congrArg some same
  | snapshot fingerprint text =>
    rw [loadPolicy, loadPolicy, same, good, bad]
    split
    · rfl
    · split
      · rfl
      · split <;> rfl

theorem pollPolicyUpdates_ne_none (loaded : (plane.loadPolicy file).1 = some policy)
    (request : PolicyUpdateRequest) : (plane.pollPolicyUpdates file request).1 ≠ none := by
  have pruned : ((if request.prunes then plane.pruneInactiveLeases request.activeLeaseIds
      else plane).loadPolicy file).1 = some policy := by
    rw [← loaded]
    split
    · exact loadPolicy_congr rfl rfl rfl
    · rfl
  rw [pollPolicyUpdates]
  generalize (if request.prunes then plane.pruneInactiveLeases request.activeLeaseIds
    else plane).loadPolicy file = result at pruned
  obtain ⟨answer, plane'⟩ := result
  cases pruned
  dsimp only
  split
  · nofun
  · split <;> nofun

theorem admitTunnel_none (loaded : (plane.loadPolicy file).1 = some policy)
    {sha256 : String → String} {token : PyStr} {leaseId : String} {now : ℚ}
    (raised : (plane.admitTunnel sha256 file token leaseId now).1 = none) :
    token.encode = none ∨ ∃ c ∈ (plane.loadPolicy file).2.policy.credentials, ∃ seconds,
      c.leaseSeconds = some seconds ∧ expiresAfter now seconds = none := by
  have kept := loadPolicy_policy loaded
  rw [admitTunnel] at raised
  generalize plane.loadPolicy file = result at loaded kept raised ⊢
  obtain ⟨answer, plane'⟩ := result
  cases loaded
  dsimp only at kept raised
  split at raised
  next undecodable => exact Or.inl (Option.map_eq_none_iff.mp undecodable)
  next hash _ =>
    split at raised
    · cases raised
    next c found =>
      have member : c ∈ plane'.policy.credentials := kept ▸ List.mem_of_find?_eq_some found
      rw [admitCredential] at raised
      split at raised
      · cases raised
      next seconds finite =>
        split at raised
        next ends => exact Or.inr ⟨c, member, seconds, finite, ends⟩
        · cases raised

theorem renewLease_none (loaded : (plane.loadPolicy file).1 = some policy)
    {request : LeaseRenewalRequest} {now : ℚ} (raised : (plane.renewLease file request now).1 = none) :
    ∃ c ∈ (plane.loadPolicy file).2.policy.credentials, ∃ seconds,
      c.leaseSeconds = some seconds ∧ expiresAfter now seconds = none := by
  have kept := loadPolicy_policy loaded
  rw [renewLease] at raised
  split at raised
  · cases raised
  · split at raised
    · cases raised
    next state _ _ =>
      generalize plane.loadPolicy file = result at loaded kept raised ⊢
      obtain ⟨answer, plane'⟩ := result
      cases loaded
      dsimp only at kept raised
      split at raised
      · cases raised
      next c seconds found =>
        obtain ⟨c', listed, finite⟩ := Option.bind_eq_some_iff.mp found
        obtain ⟨seconds', finite, same⟩ := Option.map_eq_some_iff.mp finite
        cases same
        have member : c ∈ plane'.policy.credentials := kept ▸ List.mem_of_find?_eq_some listed
        split at raised
        next ends => exact ⟨c, member, seconds, finite, ends⟩
        · cases raised

/-- The good file with a null for the tunnel limit. -/
def unlimitedText : PolicyText :=
  .json (.object [("schema_version", .int 1), ("credentials", .array
    [.object [("credential_id", .str "cred-a"), ("account_id", .str "a"), ("max_tunnels", .null),
      ("token_sha256", .str "8ed3f6ad685b959ead7022518e1af76cd816f8e8ec7ccdda1ed4018e8f2223f8")]])])

end StaticPolicyControlPlane

end Control

end Chute
