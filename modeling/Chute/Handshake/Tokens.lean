import Chute.Handshake.Meeting
import Chute.Handshake.Slots
import Chute.Control.StaticPolicy

/-!
# What the token decides

The two control planes that come with the relay answer by the token alone: one compares it with
a secret, the other looks its hash up in the policy in force. Both encode it first, and a token
that cannot be encoded makes them raise.
-/
namespace Chute
namespace Control

/-- `AuthResult` -/
structure AuthResult where
  accountId : String
  maxTunnels : Int
  allowedLabel : Option String
  budget : Budget
  credentialId : Option String

/-- `TunnelAdmission.from_auth_result`; `leaseId` is the new `uuid4`. -/
def AuthResult.admissionObject (auth : AuthResult) (leaseId : String) : PyObject :=
  .tunnelAdmission
    (.tunnelLease (.str leaseId) (.str auth.accountId) (strObject auth.credentialId) .none (.int 0))
    (.int auth.maxTunnels) (strObject auth.allowedLabel) (budgetObject auth.budget)

namespace StaticTokenAuthorizer

/-- `authenticate`; `none` is an exception. -/
def authenticate (secret token : PyStr) : Option (Option AuthResult) :=
  token.encode.bind fun given => secret.encode.map fun own =>
    if given = own then
      some ⟨"0", unlimitedTunnels, none, ⟨none, none, none, none⟩, none⟩
    else none

end StaticTokenAuthorizer

namespace StaticTokenControlPlane

/-- `admit_tunnel` of `AuthorizerControlPlane`. -/
def admitTunnel (secret token : PyStr) (leaseId : String) : Option PyObject :=
  (StaticTokenAuthorizer.authenticate secret token).map fun
    | none => .none
    | some auth => auth.admissionObject leaseId

end StaticTokenControlPlane

/-- A control plane of the relay's own, as it is at one call. -/
inductive BuiltIn
  | staticToken (secret : PyStr)
  | staticPolicy (policy : StaticPolicy)

namespace BuiltIn

/-- It admits this token. -/
def Knows (sha256 : String → String) : BuiltIn → String → Prop
  | staticToken secret, given => secret.encode = some given
  | staticPolicy policy, given => ∃ c ∈ policy.credentials, c.tokenSha256 = sha256 given

/-- What `admit_tunnel` may come to: the call is lost, or this is its answer. -/
inductive Says (sha256 : String → String) (token : PyStr) : BuiltIn → Option PyObject → Prop
  | lost (b : BuiltIn) : Says sha256 token b none
  | staticToken (secret : PyStr) (leaseId : String) :
      Says sha256 token (staticToken secret) (StaticTokenControlPlane.admitTunnel secret token leaseId)
  | staticPolicy (plane : StaticPolicyControlPlane) (file : PolicyFile) (policy : StaticPolicy)
      (leaseId : String) (now : ℚ) (loaded : (plane.loadPolicy file).1 = some policy) :
      Says sha256 token (staticPolicy policy) (plane.admitTunnel sha256 file token leaseId now).1

variable {sha256 : String → String} {token : PyStr} {b : BuiltIn} {answer : Option PyObject}

/-- Whom it admits it knows. -/
theorem Says.admits (told : Says sha256 token b answer) {admission : PyObject} (some_ : answer = some admission)
    (other : admission ≠ .none) : ∃ given, token.encode = some given ∧ b.Knows sha256 given := by
  cases told with
  | lost => cases some_
  | staticToken secret leaseId =>
    obtain ⟨auth, decided, rfl⟩ := Option.map_eq_some_iff.mp some_
    obtain ⟨given, encoded, decided⟩ := Option.bind_eq_some_iff.mp decided
    obtain ⟨own, secret_, decided⟩ := Option.map_eq_some_iff.mp decided
    split at decided
    next same =>
      subst same
      exact ⟨given, encoded, secret_⟩
    next =>
      subst decided
      exact absurd rfl other
  | staticPolicy plane file policy leaseId now loaded =>
    rw [StaticPolicyControlPlane.admitTunnel] at some_
    generalize plane.loadPolicy file = result at loaded some_
    obtain ⟨answer, plane'⟩ := result
    cases loaded
    dsimp only at some_
    split at some_
    · cases some_
    next hash hashed =>
      obtain ⟨given, encoded, rfl⟩ := Option.map_eq_some_iff.mp hashed
      split at some_
      · cases some_
        exact absurd rfl other
      next c found =>
        have test := List.find?_some found
        exact ⟨given, encoded, c, List.mem_of_find?_eq_some found, by simpa using test⟩

/-- Whom it rejects it does not know, and could not have known without the encoding. -/
theorem Says.rejects (told : Says sha256 token b answer) (none_ : answer = some .none) :
    ∃ given, token.encode = some given ∧ ¬ b.Knows sha256 given := by
  cases told with
  | lost => cases none_
  | staticToken secret leaseId =>
    obtain ⟨auth, decided, none_⟩ := Option.map_eq_some_iff.mp none_
    obtain ⟨given, encoded, decided⟩ := Option.bind_eq_some_iff.mp decided
    obtain ⟨own, secret_, decided⟩ := Option.map_eq_some_iff.mp decided
    split at decided
    next =>
      subst decided
      cases none_
    next apart =>
      refine ⟨given, encoded, fun known => apart ?_⟩
      rw [Knows, secret_] at known
      exact (Option.some.inj known).symm
  | staticPolicy plane file policy leaseId now loaded =>
    rw [StaticPolicyControlPlane.admitTunnel] at none_
    generalize plane.loadPolicy file = result at loaded none_
    obtain ⟨answer, plane'⟩ := result
    cases loaded
    dsimp only at none_
    split at none_
    · cases none_
    next hash hashed =>
      obtain ⟨given, encoded, rfl⟩ := Option.map_eq_some_iff.mp hashed
      refine ⟨given, encoded, ?_⟩
      rintro ⟨c, member, same⟩
      split at none_
      next missing => exact absurd same (by simpa using List.find?_eq_none.mp missing c member)
      next c' _ =>
        -- a credential that was found is admitted, or its lease has no end
        rw [StaticPolicyControlPlane.admitCredential] at none_
        split at none_
        · cases none_
        · split at none_
          · cases none_
          · cases none_

end BuiltIn

end Control

namespace ControlPort

open Control Transition

variable {p p' : ControlPort} {k : Nat} {h h' : Handshake}

/-- A step begins a handshake or changes at most one. -/
private theorem handshakes_step {a : Action} (moved : p.step a = some p') :
    (∃ ip, a = .connect ip) ∨ ∃ j f, p'.handshakes = p.handshakes.modify j f := by
  cases a with
  | connect ip => exact .inl ⟨ip, rfl⟩
  | acquired j granted | authAcquired j granted =>
    right
    obtain ⟨own, -, moved⟩ := Option.bind_eq_some_iff.mp moved
    split at moved
    · split at moved
      · split at moved
        · cases moved
        · cases moved
          exact ⟨j, _, rfl⟩
      · cases moved
        exact ⟨j, _, rfl⟩
    · cases moved
  | received j message =>
    right
    obtain ⟨own, -, moved⟩ := Option.bind_eq_some_iff.mp moved
    split at moved
    · cases moved
      unfold receive
      split
      · exact ⟨j, _, rfl⟩
      · exact ⟨j, _, rfl⟩
    · cases moved
  | admitted j answer =>
    right
    obtain ⟨own, -, moved⟩ := Option.bind_eq_some_iff.mp moved
    split at moved
    · cases moved
      unfold admitAgent
      split
      · exact ⟨j, _, rfl⟩
      · exact ⟨j, _, rfl⟩
      · split
        · exact ⟨j, _, rfl⟩
        · exact ⟨j, _, rfl⟩
    · cases moved
  | pollWake | pollAcquired | polled | server =>
    right
    exact ⟨0, id, by rw [handshakes_aside (by simp [Action.aside]) moved, List.modify_id]⟩

/-- A handshake begins with nothing but its address. -/
private theorem step_begins {a : Action} (moved : p.step a = some p') (new : p.handshakes[k]? = none)
    (found : p'.handshakes[k]? = some h) :
    h.hello = none ∧ h.failures = [] ∧ (h.phase = .acquiring ∨ h.phase = .closed .tooManyAuthFailures) := by
  rcases handshakes_step moved with ⟨ip, rfl⟩ | ⟨j, f, same⟩
  · cases moved
    rw [connect_handshakes, List.getElem?_append_right (List.getElem?_eq_none_iff.mp new),
      List.getElem?_singleton] at found
    split at found <;> cases found
    refine ⟨rfl, rfl, ?_⟩
    split
    · exact .inl rfl
    · exact .inr rfl
  · rw [same, List.getElem?_modify, new] at found
    cases found

/-! ### Along a handshake -/

/-- What has come of a handshake whose token is asked of this plane. -/
structure Judged (sha256 : String → String) (b : BuiltIn) (h : Handshake) : Prop where
  /-- Nobody is served who is not known. -/
  served : ∀ i, h.phase = .serving i → ∃ hello given, h.hello = some hello ∧
    hello.token.encode = some given ∧ b.Knows sha256 given
  /-- Before it is over nothing is counted, and a hello is there only when it was read. -/
  pending : (∀ why, h.phase ≠ .closed (.failed why)) → h.failures = []
  unread : h.phase = .acquiring ∨ h.phase = .receiving → h.hello = none
  failed : ∀ why, h.phase = .closed (.failed why) → (∃ t, h.failures = [t]) ∧ ∀ hello, h.hello = some hello →
    why = .unauthorized ∧ ∃ given, hello.token.encode = some given ∧ ¬ b.Knows sha256 given

/-- Whenever the plane answers this handshake, it is as it answers its token. -/
def Asks (sha256 : String → String) (b : BuiltIn) (k : Nat) (p : ControlPort) (a : Action) : Prop :=
  ∀ answer h hello, a = .admitted k answer → p.handshakes[k]? = some h → h.hello = some hello →
    BuiltIn.Says sha256 hello.token b answer

variable {sha256 : String → String} {b : BuiltIn}

private theorem judged_begins (unread : h.hello = none) (uncounted : h.failures = [])
    (begins : h.phase = .acquiring ∨ h.phase = .closed .tooManyAuthFailures) : Judged sha256 b h := by
  constructor
  · intro i serving
    rw [serving] at begins
    rcases begins with begins | begins <;> cases begins
  · intro _
    exact uncounted
  · intro _
    exact unread
  · intro why failed
    rw [failed] at begins
    rcases begins with begins | begins <;> cases begins

/-- A handshake that goes on, or ends without being counted. -/
private theorem Judged.goes (judged : Judged sha256 b h) {phase : HandshakePhase} {hello : Option AgentHello}
    (open_ : ∀ why, h.phase ≠ .closed (.failed why)) (unserved : ∀ i, phase ≠ .serving i)
    (unfailed : ∀ why, phase ≠ .closed (.failed why))
    (unread : phase = .acquiring ∨ phase = .receiving → hello = none) :
    Judged sha256 b { h with phase := phase, hello := hello } := by
  constructor
  · intro i serving
    exact absurd serving (unserved i)
  · intro _
    exact judged.pending open_
  · exact unread
  · intro why failed
    exact absurd failed (unfailed why)

private theorem Judged.onward (judged : Judged sha256 b h) {a : Action} (here : p.handshakes[k]? = some h)
    (asks : Asks sha256 b k p a) (onward : Onward p p' k h a h') : Judged sha256 b h' := by
  cases onward with
  | same => exact judged
  | acquired _ waits =>
    refine judged.goes ?_ (by simp) (by simp) fun _ => judged.unread (.inl waits)
    simp [waits]
  | busy _ waits =>
    refine judged.goes ?_ (by simp) (by simp) (by simp)
    rcases waits with waits | waits <;> simp [waits]
  | read _ hello waits =>
    refine judged.goes ?_ (by simp) (by simp) (by simp)
    simp [waits]
  | asked _ waits =>
    refine judged.goes ?_ (by simp) (by simp) (by simp)
    simp [waits]
  | unavailable _ _ waits =>
    refine judged.goes ?_ (by simp) (by simp) (by simp)
    simp [waits]
  | misread _ why waits =>
    have uncounted := judged.pending (by simp [waits])
    have unread := judged.unread (.inr waits)
    constructor
    · rintro i ⟨⟩
    · intro open_
      exact absurd rfl (open_ why)
    · intro waits
      simp at waits
    · intro why' same
      refine ⟨⟨_, by simp [uncounted]; rfl⟩, ?_⟩
      intro hello said
      rw [unread] at said
      cases said
  | unauthorized hello waits said =>
    have uncounted := judged.pending (by simp [waits])
    have unknown := (asks _ h hello rfl here said).rejects rfl
    constructor
    · rintro i ⟨⟩
    · intro open_
      exact absurd rfl (open_ .unauthorized)
    · intro waits
      simp at waits
    · rintro why ⟨⟩
      refine ⟨⟨_, by simp [uncounted]; rfl⟩, ?_⟩
      intro hello' said'
      cases said.symm.trans said'
      exact ⟨rfl, unknown⟩
  | admitted hello admission waits said stepped =>
    have other : admission ≠ .none := by
      rintro rfl
      cases stepped
    obtain ⟨given, encoded, known⟩ := (asks _ h hello rfl here said).admits rfl other
    constructor
    · intro i _
      exact ⟨hello, given, said, encoded, known⟩
    · intro _
      exact judged.pending (by simp [waits])
    · intro waits
      simp at waits
    · rintro why ⟨⟩

private theorem judged_step {a : Action}
    (judged : ∀ h, p.handshakes[k]? = some h → Judged sha256 b h) (asks : Asks sha256 b k p a)
    (moved : p.step a = some p') : ∀ h', p'.handshakes[k]? = some h' → Judged sha256 b h' := by
  intro h' found
  cases here : p.handshakes[k]? with
  | none =>
    obtain ⟨unread, uncounted, begins⟩ := step_begins moved here found
    exact judged_begins unread uncounted begins
  | some h =>
    obtain ⟨after, found', onward⟩ := step_onward moved here
    cases found.symm.trans found'
    exact (judged h here).onward here asks onward

/-- An agent up to the check of its token. -/
def untilAsked : List Action :=
  [.connect (some (.ipv4 1)), .acquired 0 true, .received 0 (some (overWire askingAgent.hello)),
    .authAcquired 0 true]

/-- The relay has another secret. -/
def wrongToken : Action :=
  .admitted 0 (StaticTokenControlPlane.admitTunnel (text "other") askingAgent.token "first")

end ControlPort
end Chute
