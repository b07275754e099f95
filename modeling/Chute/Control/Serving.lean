import Chute.Control.Leases

/-!
# Serving an accepted policy

The parser puts no upper bound on `lease_seconds`, and admission and renewal add it to the
clock. A policy that the parser accepts is served as long as the sum is a date.
-/
namespace Chute

namespace Control

/-- Every credential of a policy was parsed from an item of the file. -/
theorem mem_parseCredentialItems {seen : SeenCredentials} {index : Nat} {items : List (Json String)}
    {credentials : List StaticCredential} (parsed : parseCredentialItems seen index items = .ok credentials)
    {c : StaticCredential} (member : c ∈ credentials) :
    ∃ index item, parseCredential index item = .ok c := by
  induction items generalizing seen index credentials with
  | nil =>
    cases parsed
    cases member
  | cons item items ih =>
    obtain ⟨first, rest, one, -, -, -, later, rfl⟩ := parseCredentialItems_cons parsed
    rcases List.mem_cons.mp member with rfl | member
    · exact ⟨index, item, one⟩
    · exact ih later member

theorem optionalPositiveInt_ok {raw : Json String} {name : String} {n : Nat}
    (parsed : optionalPositiveInt raw name = .ok (some n)) : 0 < n := by
  unfold optionalPositiveInt at parsed
  split at parsed
  · cases parsed
  · split at parsed
    · cases parsed
    next positive =>
      cases parsed
      omega
  · cases parsed

theorem parseCredential_leaseSeconds {index : Nat} {item : Json String} {c : StaticCredential}
    (parsed : parseCredential index item = .ok c) {seconds : Nat}
    (finite : c.leaseSeconds = some seconds) : 0 < seconds := by
  unfold parseCredential at parsed
  dsimp only at parsed
  split at parsed
  · obtain ⟨-, -, parsed⟩ := parsed_bind.mp parsed
    obtain ⟨credentialId, -, parsed⟩ := parsed_bind.mp parsed
    obtain ⟨tokenSha256, -, parsed⟩ := parsed_bind.mp parsed
    obtain ⟨accountId, -, parsed⟩ := parsed_bind.mp parsed
    obtain ⟨maxTunnels, -, parsed⟩ := parsed_bind.mp parsed
    split at parsed
    · cases parsed
    · obtain ⟨allowedLabel, -, parsed⟩ := parsed_bind.mp parsed
      obtain ⟨budget, -, parsed⟩ := parsed_bind.mp parsed
      obtain ⟨leaseSeconds, positive, parsed⟩ := parsed_bind.mp parsed
      cases parsed
      cases finite
      exact optionalPositiveInt_ok positive
  · cases parsed

theorem parseStaticPolicyText_leaseSeconds {text : PolicyText} {policy : StaticPolicy}
    (parsed : parseStaticPolicyText text = .ok policy) {c : StaticCredential}
    (member : c ∈ policy.credentials) {seconds : Nat} (finite : c.leaseSeconds = some seconds) :
    0 < seconds := by
  obtain ⟨data, credentials, -⟩ := parseStaticPolicyText_ok parsed
  obtain ⟨items, parsed⟩ := parseCredentials_ok credentials
  obtain ⟨index, item, one⟩ := mem_parseCredentialItems parsed member
  exact parseCredential_leaseSeconds one finite

/-- The relay accepts the admission of a valid credential. -/
theorem validTunnelAdmission_admissionObject {c : StaticCredential} (valid : c.Valid) {leaseId : String}
    (named : leaseId ≠ "") {expires : Option Datetime} (aware : ∀ e, expires = some e → e.aware = true) :
    validTunnelAdmission (c.admissionObject leaseId expires) = some (c.admission leaseId expires) := by
  have text : ∀ {s : String}, s ≠ "" → nonemptyStr (.str s) = some s := fun some_ => if_neg some_
  have expiry : optionalExpiry (expiryObject expires) = some expires := by
    cases expires with
    | none => rfl
    | some e => exact if_pos (aware e rfl)
  have limit : natural (.int c.maxTunnels) = some c.maxTunnels := by simp [natural]
  have account : Chute.optionalStr (.str c.credentialId) = some (some c.credentialId) := rfl
  simp only [StaticCredential.admissionObject, validTunnelAdmission, text named, text valid.accountId,
    account, expiry, limit, optionalStr_strObject, validBudget_budgetObject, Option.bind_eq_bind,
    Option.bind_some]
  rfl

namespace StaticPolicyControlPlane

variable {plane : StaticPolicyControlPlane} {fingerprint : Int × Int × Int × Int × Int}
  {text : PolicyText} {c : StaticCredential} {leaseId : String}

/-- The admission of a credential passes the checks of the relay and is not yet over, and so does
the renewal of its lease under a registration, if it needs one. -/
structure Serves (plane : StaticPolicyControlPlane) (sha256 : String → String) (file : PolicyFile)
    (token : PyStr) (c : StaticCredential) (leaseId : String) (now : ℚ) (s : Server)
    (reg : Server.TunnelRegistration) : Prop where
  admitted : ∃ object admission, (plane.admitTunnel sha256 file token leaseId now).1 = some object ∧
    validTunnelAdmission object = some admission ∧ admission.lease.leaseId = leaseId ∧
      ∀ expires, admission.lease.expiresAt = some expires → now < expires.seconds
  renewed : c.leaseSeconds ≠ none → ∃ request object, PolicyRelay.renewalRequest reg = some request ∧
    ((plane.admitTunnel sha256 file token leaseId now).2.renewLease file request s.now).1 = some object ∧
      (s.validRenewedLease reg object).isSome = true

theorem snapshot_create (created : create (.snapshot fingerprint text) = some plane) :
    parseStaticPolicyText text = .ok plane.policy ∧ plane.policyFingerprint = some fingerprint := by
  obtain ⟨fingerprint', text', same, parsed, shape⟩ := create_snapshot created
  cases same
  exact ⟨parsed, by rw [shape]⟩

/-- The token of a credential admits that credential. -/
theorem admitTunnel_create {sha256 : String → String} {token : PyStr}
    (created : create (.snapshot fingerprint text) = some plane) (member : c ∈ plane.policy.credentials)
    (matches_ : token.encode.map sha256 = some c.tokenSha256) (leaseId : String) (now : ℚ) :
    plane.admitTunnel sha256 (.snapshot fingerprint text) token leaseId now =
      plane.admitCredential c leaseId now := by
  have found : plane.policy.credentials.find? (·.tokenSha256 == c.tokenSha256) = some c := by
    cases first : plane.policy.credentials.find? (·.tokenSha256 == c.tokenSha256) with
    | none => exact absurd (beq_self_eq_true _) (List.find?_eq_none.mp first c member)
    | some d =>
      have test := List.find?_some first
      simp only [beq_iff_eq] at test
      rw [List.inj_on_of_nodup_map (create_wellFormed created).hashes (List.mem_of_find?_eq_some first)
        member test]
  rw [admitTunnel, loadPolicy, if_pos (Or.inl (snapshot_create created).2)]
  simp only [matches_, found]

/-- **A credential of an accepted policy is served exactly when its lease, counted from the
renewal, ends before the last date.** -/
theorem serves_iff {sha256 : String → String} {token : PyStr} {now : ℚ} {s : Server}
    {reg : Server.TunnelRegistration} (created : create (.snapshot fingerprint text) = some plane)
    (member : c ∈ plane.policy.credentials) (matches_ : token.encode.map sha256 = some c.tokenSha256)
    (named : leaseId ≠ "") (later : now ≤ s.now) (lease : reg.leaseId = some leaseId)
    (account : reg.accountId = c.accountId) (credential : reg.credentialId = some c.credentialId) :
    plane.Serves sha256 (.snapshot fingerprint text) token c leaseId now s reg ↔
      ∀ seconds, c.leaseSeconds = some seconds → s.now + seconds ≤ datetimeMax := by
  have valid := (create_wellFormed created).each c member
  have parsed := (snapshot_create created).1
  have lists : Lists c plane.policy := ⟨create_wellFormed created, member⟩
  have admitted := admitTunnel_create created member matches_ leaseId now
  have request : PolicyRelay.renewalRequest reg =
      some ⟨leaseId, c.accountId, some c.credentialId, reg.leaseGeneration⟩ := by
    rw [PolicyRelay.renewalRequest, lease, account, credential]
    rfl
  cases finite : c.leaseSeconds with
  | none =>
    refine iff_of_true ⟨⟨c.admissionObject leaseId none, _, ?_,
      validTunnelAdmission_admissionObject valid named (by rintro _ ⟨⟩), rfl, by rintro _ ⟨⟩⟩,
      fun renewable => absurd finite renewable⟩ (by simp)
    rw [admitted, admitCredential, finite]
  | some seconds =>
    have positive : (0 : ℚ) < seconds := by
      exact_mod_cast parseStaticPolicyText_leaseSeconds parsed member finite
    -- what the admission leaves behind, and what a renewal answers then
    have renewal : (({ plane with leases := plane.leases.insert leaseId (c.leaseState seconds) } :
        StaticPolicyControlPlane).renewLease (.snapshot fingerprint text)
          ⟨leaseId, c.accountId, some c.credentialId, reg.leaseGeneration⟩ s.now).1 =
        (expiresAfter s.now seconds).map fun expires => .tunnelLease (.str leaseId) (.str c.accountId)
          (.str c.credentialId) (.datetime expires) (.int (reg.leaseGeneration + 1)) := by
      refine @renewLease_known { plane with leases := plane.leases.insert leaseId (c.leaseState seconds) }
        _ c seconds leaseId lists ?_ ?_ finite (AList.lookup_insert _) reg.leaseGeneration s.now
      · rintro fingerprint' text' policy same other
        cases same
        rw [parsed] at other
        cases other
        exact lists
      · rintro fingerprint' text' e same failed
        cases same
        rw [parsed] at failed
        cases failed
    constructor
    · rintro ⟨⟨object, admission, answered, -⟩, renewed⟩ seconds' same
      cases same
      obtain ⟨request', object', asked, answered', -⟩ := renewed (by simp [finite])
      rw [request] at asked
      cases asked
      by_contra overflows
      have overrun : expiresAfter s.now seconds = none := if_neg overflows
      rw [overrun, Option.map_none] at renewal
      rw [admitted, admitCredential, finite] at answered answered'
      simp only at answered answered'
      split at answered
      · cases answered
      next expires fits =>
        rw [fits] at answered'
        rw [StaticCredential.leaseState] at renewal
        rw [renewal] at answered'
        cases answered'
    · intro fits
      have last := fits seconds rfl
      have first : expiresAfter now seconds = some ⟨now + seconds, true⟩ := 
        if_pos (le_trans (add_le_add later le_rfl) last)
      have second : expiresAfter s.now seconds = some ⟨s.now + seconds, true⟩ := if_pos last
      have answer : plane.admitTunnel sha256 (.snapshot fingerprint text) token leaseId now =
          (some (c.admissionObject leaseId (some ⟨now + seconds, true⟩)),
            { plane with leases := plane.leases.insert leaseId (c.leaseState seconds) }) := by
        rw [admitted, admitCredential, finite]
        simp only [first]
        rfl
      constructor
      · refine ⟨_, _, congrArg Prod.fst answer,
          validTunnelAdmission_admissionObject valid named ?_, rfl, ?_⟩
        · rintro e same
          cases same
          rfl
        · rintro expires same
          cases same
          exact lt_add_of_pos_right now positive
      · intro _
        rw [second, Option.map_some] at renewal
        refine ⟨_, .tunnelLease (.str leaseId) (.str c.accountId) (.str c.credentialId)
          (.datetime ⟨s.now + seconds, true⟩) (.int (reg.leaseGeneration + 1)), request, ?_, ?_⟩
        · rw [answer]
          exact renewal
        · simp only [Server.validRenewedLease, Server.isOptionalStr, lease, account, credential,
            beq_self_eq_true, Bool.true_and, Bool.and_true]
          rw [if_pos]
          · rfl
          · simp only [Bool.and_eq_true, decide_eq_true_eq]
            exact ⟨by omega, lt_add_of_pos_right s.now positive⟩

/-- A policy file with one credential, leased for so many seconds. -/
def leasedFor (seconds : Int) : PolicyFile :=
  .snapshot (1, 2, 3, 4, 5) (.json (.object [("schema_version", .int 1), ("credentials", .array
    [.object [("credential_id", .str "cred-a"), ("account_id", .str "a"), ("lease_seconds", .int seconds),
      ("token_sha256", .str "8ed3f6ad685b959ead7022518e1af76cd816f8e8ec7ccdda1ed4018e8f2223f8")]])]))

/-- The registration of a tunnel with that credential. -/
def leasedRegistration : Server.TunnelRegistration where
  mux := Mux.new (.server .default)
  accountId := "a"
  budget := ⟨none, none, none, none⟩
  credentialId := some "cred-a"
  publicUrl := "https://api.example.com"
  acceptingVisitors := true
  leaseId := some "l"
  leaseExpiresAt := some ⟨60, true⟩
  leaseObservedAt := some 0
  leaseGeneration := 0

theorem serves_of_minute : ∃ plane c, create (leasedFor 60) = some plane ∧ c.leaseSeconds = some 60 ∧
    plane.Serves (fun _ => c.tokenSha256) (leasedFor 60) (PyStr.ofString "alpha") c "l" 0
      (Server.start Server.smallRelay 30 30) leasedRegistration := by
  have done : ((create (leasedFor 60)).bind fun plane => (plane.policy.credentials[0]?).map fun c =>
      decide (c.leaseSeconds = some 60 ∧ c.accountId = "a" ∧ c.credentialId = "cred-a")) = some true := by
    decide
  obtain ⟨plane, created, done⟩ := Option.bind_eq_some_iff.mp done
  obtain ⟨c, found, facts⟩ := Option.map_eq_some_iff.mp done
  obtain ⟨finite, account, credential⟩ := of_decide_eq_true facts
  refine ⟨plane, c, created, finite, ?_⟩
  have text : (PyStr.ofString "alpha").encode.isSome = true := by decide
  refine (serves_iff created (List.mem_of_getElem? found) ?_ (by decide) (by decide) rfl account.symm
    (congrArg some credential.symm)).mpr fun seconds same => ?_
  · obtain ⟨bytes, encoded⟩ := Option.isSome_iff_exists.mp text
    rw [encoded]
    rfl
  · rw [finite] at same
    cases same
    decide +kernel

/-- The parser accepts a lease that ends after the last date, and no admission goes through. -/
theorem not_serves_of_millennia : ∃ plane c, create (leasedFor 300000000000) = some plane ∧
    c ∈ plane.policy.credentials ∧
    (plane.admitTunnel (fun _ => c.tokenSha256) (leasedFor 300000000000) (PyStr.ofString "alpha") "l" 0).1
      = none := by
  have done : ((create (leasedFor 300000000000)).bind fun plane =>
      (plane.policy.credentials[0]?).map fun c => (plane.admitTunnel (fun _ => c.tokenSha256)
        (leasedFor 300000000000) (PyStr.ofString "alpha") "l" 0).1.isNone) = some true := by
    decide +kernel
  obtain ⟨plane, created, done⟩ := Option.bind_eq_some_iff.mp done
  obtain ⟨c, found, raised⟩ := Option.map_eq_some_iff.mp done
  exact ⟨plane, c, created, List.mem_of_getElem? found, Option.isNone_iff_eq_none.mp raised⟩

end StaticPolicyControlPlane

end Control

end Chute
