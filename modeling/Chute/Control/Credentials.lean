import Chute.Control.Relay
import Chute.Server.Keeps

/-!
# Where an admission comes from

Every connection that a relay with a policy file lets in carries the terms of a credential:
the control plane answers with them, the relay reads the answer back unchanged, and no later
step changes what a connection was admitted with.
-/
namespace Chute

namespace Control

/-! ### What the relay reads -/

/-- The admission of a credential. -/
def StaticCredential.admission (c : StaticCredential) (leaseId : String) (expires : Option Datetime) :
    TunnelAdmission :=
  ⟨⟨leaseId, c.accountId, some c.credentialId, expires, 0⟩, c.maxTunnels, c.allowedLabel, c.budget⟩

theorem validOptionalLimit_limitObject (limit : Option Nat) :
    validOptionalLimit (limitObject limit) = some limit := by
  cases limit with
  | none => rfl
  | some n => simp [limitObject, validOptionalLimit]

theorem validBudget_budgetObject (b : Budget) : validBudget (budgetObject b) = some b := by
  simp [budgetObject, validBudget, validOptionalLimit_limitObject]

theorem optionalStr_strObject (s : Option String) : Chute.optionalStr (strObject s) = some s := by
  cases s <;> rfl

/-- What passes the check is what the credential says. -/
theorem eq_admission_of_valid {c : StaticCredential} {leaseId : String} {expires : Option Datetime}
    {admission : TunnelAdmission}
    (valid : validTunnelAdmission (c.admissionObject leaseId expires) = some admission) :
    admission = c.admission leaseId expires := by
  have text : ∀ {s s' : String}, nonemptyStr (.str s) = some s' → s' = s := by
    intro s s' read
    simp only [nonemptyStr] at read
    split at read <;> cases read
    rfl
  have time : ∀ {expires'}, optionalExpiry (expiryObject expires) = some expires' →
      expires' = expires := by
    intro expires' read
    cases expires with
    | none =>
      cases read
      rfl
    | some d =>
      simp only [expiryObject, optionalExpiry] at read
      split at read <;> cases read
      rfl
  simp only [StaticCredential.admissionObject, validTunnelAdmission, Option.bind_eq_bind,
    Option.pure_def, Option.bind_eq_some_iff] at valid
  obtain ⟨leaseId', lease, accountId', account, credentialId', credential, expires', expiry, rest⟩ :=
    valid
  obtain ⟨generation, first, maxTunnels, limit, allowedLabel, allowed, budget, transport, built⟩ := rest
  rw [optionalStr_strObject] at allowed
  rw [validBudget_budgetObject] at transport
  cases text lease
  cases text account
  cases time expiry
  cases credential
  cases allowed
  cases transport
  simp only [natural, le_refl, if_true, Option.some.injEq] at first
  simp only [natural, Int.natCast_nonneg, if_true, Int.toNat_natCast, Option.some.injEq] at limit
  subst first limit
  cases built
  rfl

/-! ### The policy in use -/

/-- Every policy that this read of the file gives has the property. -/
def PolicyFile.Gives (file : PolicyFile) (P : StaticPolicy → Prop) : Prop :=
  ∀ fingerprint text policy, file = .snapshot fingerprint text →
    parseStaticPolicyText text = .ok policy → P policy

namespace StaticPolicyControlPlane

variable {plane : StaticPolicyControlPlane} {file : PolicyFile} {P : StaticPolicy → Prop}

theorem create_snapshot (created : create file = some plane) : ∃ fingerprint text,
    file = .snapshot fingerprint text ∧ parseStaticPolicyText text = .ok plane.policy ∧
      plane = ⟨∅, plane.policy, some fingerprint, none⟩ := by
  unfold create at created
  split at created
  · cases created
  next fingerprint text =>
    split at created
    next policy parsed =>
      cases created
      exact ⟨fingerprint, text, rfl, parsed, rfl⟩
    · cases created

theorem create_wellFormed (created : create file = some plane) :
    WellFormed plane.policy.credentials := by
  obtain ⟨fingerprint, text, -, parsed, -⟩ := create_snapshot created
  exact parseStaticPolicyText_wellFormed parsed

/-- The file that the control plane was created from gives the policy that it has. -/
theorem create_gives (created : create file = some plane) : file.Gives (· = plane.policy) := by
  rintro fingerprint text policy rfl parsed
  simp only [create, parsed, Option.some.injEq] at created
  rw [← created]

theorem loadPolicy_leases : (plane.loadPolicy file).2.leases = plane.leases := by
  unfold loadPolicy
  split
  · rfl
  · split
    · rfl
    · split
      · rfl
      · split <;> rfl

/-- A policy that is used is the one that is kept. -/
theorem loadPolicy_policy {policy : StaticPolicy} (used : (plane.loadPolicy file).1 = some policy) :
    (plane.loadPolicy file).2.policy = policy := by
  unfold loadPolicy at used ⊢
  split
  · exact Option.some.inj used
  next fingerprint text =>
    dsimp only at used
    split at used
    next same =>
      rw [if_pos same]
      exact Option.some.inj used
    next other =>
      rw [if_neg other]
      cases parsed : parseStaticPolicyText text with
      | ok policy' =>
        rw [parsed] at used
        exact Option.some.inj used
      | error e =>
        rw [parsed] at used
        dsimp only at used ⊢
        split at used
        next keeps =>
          rw [if_pos keeps]
          exact Option.some.inj used
        · cases used

theorem loadPolicy_gives (held : P plane.policy) (gives : file.Gives P) :
    P (plane.loadPolicy file).2.policy := by
  unfold loadPolicy
  split
  · exact held
  next fingerprint text =>
    split
    · exact held
    · split
      next policy parsed => exact gives fingerprint text policy rfl parsed
      · split <;> exact held

/-- How a call of `admit_tunnel` ends. -/
theorem admitTunnel_cases (plane : StaticPolicyControlPlane) (file : PolicyFile)
    (sha256 : String → String) (token : PyStr) (leaseId : String) (now : ℚ) :
    ((plane.admitTunnel sha256 file token leaseId now).1 = none ∨
        (plane.admitTunnel sha256 file token leaseId now).1 = some .none) ∧
      (plane.admitTunnel sha256 file token leaseId now).2 = (plane.loadPolicy file).2 ∨
    ∃ c ∈ (plane.loadPolicy file).2.policy.credentials,
      c.leaseSeconds = none ∧ plane.admitTunnel sha256 file token leaseId now =
          (some (c.admissionObject leaseId none), (plane.loadPolicy file).2) ∨
      ∃ seconds expires, c.leaseSeconds = some seconds ∧ expiresAfter now seconds = some expires ∧
        plane.admitTunnel sha256 file token leaseId now =
          (some (c.admissionObject leaseId (some expires)), { (plane.loadPolicy file).2 with
            leases := plane.leases.insert leaseId
              ⟨c.accountId, c.credentialId, c.tokenSha256, seconds⟩ }) := by
  have kept : ∀ policy, (plane.loadPolicy file).1 = some policy →
      (plane.loadPolicy file).2.policy = policy := fun policy => loadPolicy_policy
  have leases : (plane.loadPolicy file).2.leases = plane.leases := loadPolicy_leases
  unfold admitTunnel
  split
  next loaded raised =>
    rw [raised]
    exact Or.inl ⟨Or.inl rfl, rfl⟩
  next policy loaded used =>
    rw [used] at kept leases ⊢
    have same : loaded.policy = policy := kept policy rfl
    split
    · exact Or.inl ⟨Or.inl rfl, rfl⟩
    · split
      · exact Or.inl ⟨Or.inr rfl, rfl⟩
      next c matched =>
        have member : c ∈ loaded.policy.credentials := same ▸ List.mem_of_find?_eq_some matched
        unfold admitCredential
        split
        next unleased => exact Or.inr ⟨c, member, Or.inl ⟨unleased, rfl⟩⟩
        next seconds leased =>
          split
          · exact Or.inl ⟨Or.inl rfl, rfl⟩
          next expires fits =>
            refine Or.inr ⟨c, member, Or.inr ⟨seconds, expires, leased, fits, ?_⟩⟩
            rw [← leases]

/-- Renewals and polls read the policy file, too. -/
theorem renewLease_gives (held : P plane.policy) (gives : file.Gives P)
    (request : LeaseRenewalRequest) (now : ℚ) : P (plane.renewLease file request now).2.policy := by
  have loaded := loadPolicy_gives held gives
  unfold renewLease
  split
  · exact held
  · split
    · exact held
    · split
      next used =>
        rw [used] at loaded
        exact loaded
      next used =>
        rw [used] at loaded
        split
        · exact loaded
        · simp only
          split <;> exact loaded

theorem pollPolicyUpdates_gives (held : P plane.policy) (gives : file.Gives P)
    (request : PolicyUpdateRequest) : P (plane.pollPolicyUpdates file request).2.policy := by
  have pruned : ∀ plane' : StaticPolicyControlPlane, plane'.policy = plane.policy →
      P (plane'.loadPolicy file).2.policy :=
    fun plane' same => loadPolicy_gives (same ▸ held) gives
  have loaded := pruned (if request.prunes then plane.pruneInactiveLeases request.activeLeaseIds
    else plane) (by split <;> rfl)
  unfold pollPolicyUpdates
  simp only
  split
  next used =>
    rw [used] at loaded
    exact loaded
  next used =>
    rw [used] at loaded
    split
    · exact loaded
    · split <;> exact loaded

theorem admitTunnel_gives (held : P plane.policy) (gives : file.Gives P) (sha256 : String → String)
    (token : PyStr) (leaseId : String) (now : ℚ) :
    P (plane.admitTunnel sha256 file token leaseId now).2.policy := by
  have loaded := loadPolicy_gives held gives
  rcases admitTunnel_cases plane file sha256 token leaseId now with
    ⟨-, same⟩ | ⟨c, -, ⟨-, same⟩ | ⟨seconds, expires, -, -, same⟩⟩
  · rw [same]
    exact loaded
  · rw [same]
    exact loaded
  · rw [same]
    exact loaded

end StaticPolicyControlPlane

end Control

namespace PolicyRelay

open Control

/-- The policy file that a step reads. -/
def Action.file : Action → Option PolicyFile
  | .admitTunnel _ file _ => some file
  | .polled file => some file
  | .renew _ file => some file
  | _ => none

/-- The lease id that a step makes. -/
def Action.leaseId? : Action → Option String
  | .admitTunnel _ _ leaseId => some leaseId
  | _ => none

/-- A credential with the property can have given out the lease with this expiry. -/
structure Backs (s : PolicyRelay) (P : StaticCredential → Prop) (c : StaticCredential)
    (leaseId : String) (expires : Option Datetime) : Prop where
  has : P c
  finite : expires.isSome = c.leaseSeconds.isSome
  issued : leaseId ∈ s.issued

/-- All that was ever admitted, or is about to be, was so by a credential with the property. -/
structure Backed (P : StaticCredential → Prop) (s : PolicyRelay) : Prop where
  policy : ∀ c ∈ s.plane.policy.credentials, P c
  answers : ∀ (k : Nat) (h : HelloCall) object, s.hellos[k]? = some h →
    h.call = .returned (some object) → object = .none ∨
      ∃ c leaseId expires, s.Backs P c leaseId expires ∧ object = c.admissionObject leaseId expires
  connections : ∀ hello ∈ s.server.connections.map Server.Connection.hello,
    ∃ c leaseId expires, s.Backs P c leaseId expires ∧ hello.2.2.1 = c.admission leaseId expires

variable {sha256 : String → String} {P : StaticCredential → Prop} {s s' : PolicyRelay} {a : Action}

theorem backed_start (config : ServerConfig) (now monotonic : ℚ)
    {plane : StaticPolicyControlPlane} (policy : ∀ c ∈ plane.policy.credentials, P c) :
    (start config now monotonic plane).Backed P where
  policy := policy
  answers := by simp [start]
  connections := by simp [start, Server.start]

theorem hellos_resume (s : PolicyRelay) (k : Nat) (h : HelloCall) (answer : Option PyObject) :
    (s.resume k h answer).hellos = (s.setCall k .over_).hellos := by
  unfold resume
  cases answer with
  | none => rfl
  | some object =>
    dsimp only
    split <;> rfl

/-- An answer that is there after a call has come further was there before, or is its own. -/
theorem answered_setCall {k j : Nat} {call : PlaneCall} {h : HelloCall} {object : PyObject}
    (found : (s.setCall k call).hellos[j]? = some h) (answered : h.call = .returned (some object)) :
    (∃ h', s.hellos[j]? = some h' ∧ h'.call = .returned (some object)) ∨
      call = .returned (some object) := by
  simp only [setCall, List.getElem?_modify] at found
  obtain ⟨h', there, rfl⟩ := Option.map_eq_some_iff.mp found
  split at answered
  · exact Or.inr answered
  · exact Or.inl ⟨h', there, answered⟩

/-- The answers that a step leaves: those from before, and what `admit_tunnel` returns. -/
theorem answers_step (moved : s.step sha256 a = some s') {j : Nat} {h : HelloCall} {object : PyObject}
    (found : s'.hellos[j]? = some h) (answered : h.call = .returned (some object)) :
    (∃ h', s.hellos[j]? = some h' ∧ h'.call = .returned (some object)) ∨
      ∃ k file leaseId h', a = .admitTunnel k file leaseId ∧ s.hellos[k]? = some h' ∧
        (s.plane.admitTunnel sha256 file h'.token leaseId s.server.now).1 = some object := by
  have same : s'.hellos = s.hellos → ∃ h', s.hellos[j]? = some h' ∧ h'.call = .returned (some object) :=
    fun same => ⟨h, same ▸ found, answered⟩
  cases a with
  | hello token requestedSubdomain scheme flowWindow =>
    cases moved
    simp only [List.getElem?_append] at found
    split at found
    · exact Or.inl ⟨h, found, answered⟩
    · have last := List.mem_of_getElem? found
      rw [List.mem_singleton] at last
      subst last
      cases answered
  | admitTunnel k file leaseId =>
    obtain ⟨h', asked, moved⟩ := Option.bind_eq_some_iff.mp moved
    split at moved
    · split at moved
      · cases moved
      · cases moved
        refine (answered_setCall found answered).imp id fun own => ?_
        exact ⟨k, file, leaseId, h', rfl, asked, PlaneCall.returned.inj own⟩
    · cases moved
  | admitted k =>
    obtain ⟨h', -, moved⟩ := Option.bind_eq_some_iff.mp moved
    split at moved
    · cases moved
      rw [hellos_resume] at found
      refine Or.inl ((answered_setCall found answered).resolve_right fun own => ?_)
      cases own
    · cases moved
  | admitLost k =>
    obtain ⟨h', -, moved⟩ := Option.bind_eq_some_iff.mp moved
    split at moved
    · cases moved
    · cases moved
      refine Or.inl ((answered_setCall found answered).resolve_right fun own => ?_)
      cases own
  | poll =>
    simp only [step] at moved
    split at moved <;> cases moved
    exact Or.inl (same rfl)
  | polled file =>
    simp only [step] at moved
    split at moved <;> cases moved
    exact Or.inl (same rfl)
  | pollApplied =>
    simp only [step] at moved
    split at moved <;> cases moved <;> exact Or.inl (same rfl)
  | pollLost =>
    simp only [step] at moved
    split at moved
    · cases moved
    · cases moved
      exact Or.inl (same rfl)
  | renew i file =>
    simp only [step] at moved
    split at moved <;> cases moved
    exact Or.inl (same rfl)
  | renewed i =>
    obtain ⟨answer, -, moved⟩ := Option.bind_eq_some_iff.mp moved
    obtain ⟨server, -, rfl⟩ := Option.map_eq_some_iff.mp moved
    exact Or.inl (same rfl)
  | renewLost i =>
    obtain ⟨server, -, rfl⟩ := Option.map_eq_some_iff.mp moved
    exact Or.inl (same rfl)
  | server b =>
    simp only [step] at moved
    split at moved
    · cases moved
    · obtain ⟨server, -, rfl⟩ := Option.map_eq_some_iff.mp moved
      exact Or.inl (same rfl)

/-- What a step leaves of the control plane: it is called, or left alone. -/
inductive Calls (sha256 : String → String) (s : PolicyRelay) :
    Action → StaticPolicyControlPlane → Prop
  | admitTunnel (k : Nat) (file : PolicyFile) (leaseId : String) (h : HelloCall)
      (found : s.hellos[k]? = some h) (waiting : h.call = .called) (named : leaseId ≠ "")
      (fresh : leaseId ∉ s.issued) :
      Calls sha256 s (.admitTunnel k file leaseId)
        (s.plane.admitTunnel sha256 file h.token leaseId s.server.now).2
  | polled (file : PolicyFile) (request : StaticPolicyControlPlane.PolicyUpdateRequest)
      (asked : s.poll = .called request) :
      Calls sha256 s (.polled file) (s.plane.pollPolicyUpdates file request).2
  | renew (i : Nat) (file : PolicyFile) (reg : Server.TunnelRegistration)
      (request : StaticPolicyControlPlane.LeaseRenewalRequest)
      (renewing : renewing s.server i = some reg) (asked : renewalRequest reg = some request) :
      Calls sha256 s (.renew i file) (s.plane.renewLease file request s.server.now).2
  | idle (a : Action) (unread : a.file = none) : Calls sha256 s a s.plane

theorem step_plane (moved : s.step sha256 a = some s') : Calls sha256 s a s'.plane := by
  cases a with
  | admitTunnel k file leaseId =>
    obtain ⟨h, found, moved⟩ := Option.bind_eq_some_iff.mp moved
    split at moved
    next waiting =>
      split at moved
      · cases moved
      next new =>
        rw [not_or] at new
        cases moved
        exact .admitTunnel k file leaseId h found waiting new.1 new.2
    · cases moved
  | admitted k =>
    obtain ⟨h, -, moved⟩ := Option.bind_eq_some_iff.mp moved
    split at moved
    next answer _ =>
      cases moved
      have alone : (s.resume k h answer).plane = s.plane := by
        unfold resume
        cases answer with
        | none => rfl
        | some object =>
          dsimp only
          split <;> rfl
      rw [alone]
      exact .idle _ rfl
    · cases moved
  | admitLost k =>
    obtain ⟨h, -, moved⟩ := Option.bind_eq_some_iff.mp moved
    split at moved
    · cases moved
    · cases moved
      exact .idle _ rfl
  | polled file =>
    simp only [step] at moved
    split at moved <;> cases moved
    next request asked => exact .polled file request asked
  | renew i file =>
    simp only [step] at moved
    split at moved <;> cases moved
    next request asked _ =>
      obtain ⟨reg, renewing, asked⟩ := Option.bind_eq_some_iff.mp asked
      exact .renew i file reg request renewing asked
  | hello token requestedSubdomain scheme flowWindow =>
    cases moved
    exact .idle _ rfl
  | poll =>
    simp only [step] at moved
    split at moved <;> cases moved
    exact .idle _ rfl
  | pollApplied =>
    simp only [step] at moved
    split at moved <;> cases moved <;> exact .idle _ rfl
  | pollLost =>
    simp only [step] at moved
    split at moved
    · cases moved
    · cases moved
      exact .idle _ rfl
  | renewed i =>
    obtain ⟨answer, -, moved⟩ := Option.bind_eq_some_iff.mp moved
    obtain ⟨server, -, rfl⟩ := Option.map_eq_some_iff.mp moved
    exact .idle _ rfl
  | renewLost i =>
    obtain ⟨server, -, rfl⟩ := Option.map_eq_some_iff.mp moved
    exact .idle _ rfl
  | server b =>
    simp only [step] at moved
    split at moved
    · cases moved
    · obtain ⟨server, -, rfl⟩ := Option.map_eq_some_iff.mp moved
      exact .idle _ rfl

/-- Each admission makes a new lease id. -/
theorem issued_step (moved : s.step sha256 a = some s') :
    a.leaseId? = none ∧ s'.issued = s.issued ∨
      ∃ leaseId, a.leaseId? = some leaseId ∧ leaseId ∉ s.issued ∧ s'.issued = leaseId :: s.issued := by
  cases a with
  | admitTunnel k file leaseId =>
    obtain ⟨h, -, moved⟩ := Option.bind_eq_some_iff.mp moved
    split at moved
    · split at moved
      · cases moved
      next new =>
        cases moved
        exact Or.inr ⟨leaseId, rfl, fun old => new (Or.inr old), rfl⟩
    · cases moved
  | hello token requestedSubdomain scheme flowWindow =>
    cases moved
    exact Or.inl ⟨rfl, rfl⟩
  | admitted k =>
    obtain ⟨h, -, moved⟩ := Option.bind_eq_some_iff.mp moved
    split at moved
    next answer _ =>
      cases moved
      refine Or.inl ⟨rfl, ?_⟩
      unfold resume
      cases answer with
      | none => rfl
      | some object =>
        dsimp only
        split <;> rfl
    · cases moved
  | admitLost k =>
    obtain ⟨h, -, moved⟩ := Option.bind_eq_some_iff.mp moved
    split at moved
    · cases moved
    · cases moved
      exact Or.inl ⟨rfl, rfl⟩
  | poll | polled file =>
    simp only [step] at moved
    split at moved <;> cases moved
    exact Or.inl ⟨rfl, rfl⟩
  | pollApplied =>
    simp only [step] at moved
    split at moved <;> cases moved <;> exact Or.inl ⟨rfl, rfl⟩
  | pollLost =>
    simp only [step] at moved
    split at moved
    · cases moved
    · cases moved
      exact Or.inl ⟨rfl, rfl⟩
  | renew i file =>
    simp only [step] at moved
    split at moved <;> cases moved
    exact Or.inl ⟨rfl, rfl⟩
  | renewed i =>
    obtain ⟨answer, -, moved⟩ := Option.bind_eq_some_iff.mp moved
    obtain ⟨server, -, rfl⟩ := Option.map_eq_some_iff.mp moved
    exact Or.inl ⟨rfl, rfl⟩
  | renewLost i =>
    obtain ⟨server, -, rfl⟩ := Option.map_eq_some_iff.mp moved
    exact Or.inl ⟨rfl, rfl⟩
  | server b =>
    simp only [step] at moved
    split at moved
    · cases moved
    · obtain ⟨server, -, rfl⟩ := Option.map_eq_some_iff.mp moved
      exact Or.inl ⟨rfl, rfl⟩

theorem Backs.step {c : StaticCredential} {leaseId : String} {expires : Option Datetime}
    (backs : s.Backs P c leaseId expires) (moved : s.step sha256 a = some s') :
    s'.Backs P c leaseId expires := by
  refine ⟨backs.has, backs.finite, ?_⟩
  rcases issued_step moved with ⟨-, same⟩ | ⟨_, -, -, same⟩
  · rw [same]
    exact backs.issued
  · rw [same]
    exact List.mem_cons_of_mem _ backs.issued

/-- **Every admission is backed by a credential**, as long as each policy that is read is. -/
theorem Backed.step (backed : s.Backed P) (moved : s.step sha256 a = some s')
    (gives : ∀ file, a.file = some file → file.Gives fun policy => ∀ c ∈ policy.credentials, P c) :
    s'.Backed P where
  policy := by
    have called := step_plane moved
    generalize s'.plane = plane at called
    cases called with
    | admitTunnel k file leaseId h found waiting named fresh =>
      exact StaticPolicyControlPlane.admitTunnel_gives (P := fun policy => ∀ c ∈ policy.credentials, P c)
        backed.policy (gives file rfl) sha256 h.token leaseId s.server.now
    | polled file request asked =>
      exact StaticPolicyControlPlane.pollPolicyUpdates_gives
        (P := fun policy => ∀ c ∈ policy.credentials, P c) backed.policy (gives file rfl) request
    | renew i file reg request renewing asked =>
      exact StaticPolicyControlPlane.renewLease_gives
        (P := fun policy => ∀ c ∈ policy.credentials, P c) backed.policy (gives file rfl) request
        s.server.now
    | idle unread => exact backed.policy
  answers := by
    intro j h object found answered
    rcases answers_step moved found answered with ⟨h', there, same⟩ | ⟨k, file, leaseId, h', rfl, -, own⟩
    · refine (backed.answers j h' object there same).imp id ?_
      rintro ⟨c, leaseId, expires, backs, built⟩
      exact ⟨c, leaseId, expires, backs.step moved, built⟩
    · have loaded := StaticPolicyControlPlane.loadPolicy_gives
        (P := fun policy => ∀ c ∈ policy.credentials, P c) backed.policy (gives file rfl)
      have issued : leaseId ∈ s'.issued := by
        rcases issued_step moved with ⟨other, -⟩ | ⟨_, same, -, grown⟩
        · cases other
        · cases same
          rw [grown]
          exact List.mem_cons_self
      rcases StaticPolicyControlPlane.admitTunnel_cases s.plane file sha256 h'.token
          leaseId s.server.now with
        ⟨none | none, -⟩ | ⟨c, member, ⟨unleased, same⟩ | ⟨seconds, expires, leased, -, same⟩⟩
      · rw [none] at own
        cases own
      · rw [none] at own
        cases own
        exact Or.inl rfl
      · rw [same] at own
        cases own
        exact Or.inr ⟨c, leaseId, Option.none, ⟨loaded c member, by rw [unleased]; rfl, issued⟩, rfl⟩
      · rw [same] at own
        cases own
        exact Or.inr ⟨c, leaseId, some expires, ⟨loaded c member, by rw [leased]; rfl, issued⟩, rfl⟩
  connections := by
    have old : ∀ hello ∈ s.server.connections.map Server.Connection.hello,
        ∃ c leaseId expires, s'.Backs P c leaseId expires ∧
          hello.2.2.1 = c.admission leaseId expires := by
      intro hello member
      obtain ⟨c, leaseId, expires, backs, same⟩ := backed.connections hello member
      exact ⟨c, leaseId, expires, backs.step moved, same⟩
    rcases step_server moved with alone | ⟨b, carries, stepped⟩
    · rw [alone]
      exact old
    · by_cases admits : ∃ admission requested scheme window,
          b = .admitTunnel admission requested scheme window
      · obtain ⟨object, requested, scheme, window, rfl⟩ := admits
        obtain ⟨admission, valid, built⟩ := Option.map_eq_some_iff.mp stepped
        rw [← built]
        intro hello member
        simp only [List.map_append, List.mem_append, List.map_cons, List.map_nil,
          List.mem_singleton] at member
        rcases member with before | rfl
        · exact old hello before
        · cases carries with
          | admitted k h object found answered =>
            rcases backed.answers k h object found answered with
              rfl | ⟨c, leaseId, expires, backs, rfl⟩
            · cases valid
            · exact ⟨c, leaseId, expires, backs.step moved, eq_admission_of_valid valid⟩
          | server b own => cases own
      · rw [Server.hellos_step stepped fun admission requested scheme window same =>
          admits ⟨_, _, _, _, same⟩]
        exact old

end PolicyRelay

end Chute
