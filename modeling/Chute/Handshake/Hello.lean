import Chute.Json
import Chute.Server.Basic

/-!
# The messages of the handshake

The hello of an agent, the answers of the relay, and what each end reads from the message of
the other. A message is the dictionary that `json.loads` gives, or `none` where it gives none.
-/
namespace Chute

/-- `protocol.VERSION` -/
def version : Int := 4

abbrev Members := List (PyStr × Json PyStr)

/-- A key or a value that the source writes out. -/
abbrev text (s : String) : PyStr := PyStr.ofString s

/-- The text as a label, if its lower case is one. -/
def labelOf (raw : PyStr) : Option String := (raw.encode.map lower).filter fun label => validLabel label

/-- The value as `validate_flow_window` sees it. -/
def Json.toPyValue : Json PyStr → PyValue
  | .null => .none
  | .bool b => .bool b
  | .int n => .int n
  | _ => .other

def Scheme.text : Scheme → String
  | .http => "http"
  | .https => "https"

def FlowWindow.min (w v : FlowWindow) : FlowWindow := if w.val ≤ v.val then w else v

/-! ### What the relay reads -/

/-- Why a hello or its token is rejected. -/
inductive HandshakeFailure
  | badHandshake
  | protocolVersion
  | invalidSubdomain
  | unauthorized
  deriving DecidableEq, Repr

namespace HandshakeFailure

def closeCode : HandshakeFailure → Nat
  | badHandshake => 4000
  | protocolVersion => 4004
  | invalidSubdomain => 4002
  | unauthorized => 4001

def closeReason : HandshakeFailure → String
  | badHandshake => "bad handshake"
  | protocolVersion => "protocol version"
  | invalidSubdomain => "invalid_subdomain"
  | unauthorized => "unauthorized"

/-- The reason in the error message before the close, if there is one. -/
def error : HandshakeFailure → Option String
  | badHandshake => none
  | protocolVersion => some "protocol v4 required; upgrade the chute agent"
  | invalidSubdomain => some "invalid_subdomain"
  | unauthorized => some "unauthorized"

end HandshakeFailure

/-- The fields of a hello that passed. -/
structure AgentHello where
  token : PyStr
  requestedSubdomain : Option String
  scheme : Scheme
  flowWindow : FlowWindow

/-- `_token_from_hello` -/
def tokenFromHello (hello : Members) : Except HandshakeFailure PyStr :=
  match Json.get hello (text "type"), Json.get hello (text "token") with
  | .str type, .str token => if type = text "auth" then .ok token else .error .badHandshake
  | _, _ => .error .badHandshake

/-- `_requested_subdomain_from_hello` -/
def requestedSubdomainFromHello (hello : Members) : Except HandshakeFailure (Option String) :=
  match Json.get hello (text "subdomain") with
  | .null => .ok none
  | .str raw =>
    match labelOf raw with
    | some label => .ok (some label)
    | none => .error .invalidSubdomain
  | _ => .error .badHandshake

/-- `_scheme_from_hello` -/
def schemeFromHello (hello : Members) : Except HandshakeFailure Scheme :=
  match Json.getOr hello (text "scheme") (.str (text "http")) with
  | .str raw =>
    if raw = text "http" then .ok .http
    else if raw = text "https" then .ok .https
    else .error .badHandshake
  | _ => .error .badHandshake

/-- `_flow_window_from_hello` -/
def flowWindowFromHello (hello : Members) : Except HandshakeFailure FlowWindow :=
  match validateFlowWindow (Json.getOr hello (text "flow_window") (.int defaultFlowWindow)).toPyValue
      "flow_window" with
  | .ok w => .ok w
  | .error _ => .error .badHandshake

/-- `_handle_agent` from the hello to the `await` of `_auth_sem`. There is no message where
`recv` timed out or the peer went away, and where `json.loads` raised. -/
def readHello : Option (Json PyStr) → Except HandshakeFailure AgentHello
  | some (.object hello) => do
    let token ← tokenFromHello hello
    if (Json.get hello (text "v")).equalsInt version then
      let requestedSubdomain ← requestedSubdomainFromHello hello
      let scheme ← schemeFromHello hello
      return ⟨token, requestedSubdomain, scheme, ← flowWindowFromHello hello⟩
    else throw .protocolVersion
  | _ => .error .badHandshake

/-! ### What the relay answers -/

/-- The ready message of `_serve_agent`. -/
def ready (label publicUrl : String) (w : FlowWindow) : Members :=
  [(text "type", .str (text "ready")), (text "public_url", .str (text publicUrl)),
    (text "subdomain", if label = defaultLabel then .null else .str (text label)),
    (text "flow_window", .int w.val), (text "v", .int version)]

def errorMessage (reason : String) : Members :=
  [(text "type", .str (text "error")), (text "reason", .str (text reason))]

/-! ### The agent -/

/-- What a `Tunnel` brings to the handshake, after its `__init__`. -/
structure Agent where
  token : PyStr
  scheme : Scheme
  requestedSubdomain : Option String
  muxFlowWindow : FlowWindow
  valid : ∀ label, requestedSubdomain = some label → validLabel label = true

/-- The `ValueError` of `__init__`; the texts quote the argument. -/
inductive AgentError
  | badScheme
  | badSubdomain
  | badFlowWindow (text : String)
  deriving DecidableEq, Repr

/-- `Tunnel.__init__`, for the arguments that take part in the handshake. -/
def Agent.create (token scheme : PyStr) (subdomain : Option PyStr) (muxFlowWindow : PyValue) :
    Except AgentError Agent := do
  let scheme ← if scheme = text "http" then .ok Scheme.http
    else if scheme = text "https" then .ok .https
    else .error .badScheme
  let label : { label : Option String // ∀ l, label = some l → validLabel l = true } ←
    match subdomain with
    | none => .ok ⟨none, by rintro _ ⟨⟩⟩
    | some raw =>
      match given : labelOf raw with
      | none => .error .badSubdomain
      | some label => .ok ⟨some label, by
        rintro _ ⟨⟩
        exact (Option.filter_eq_some_iff.mp given).2⟩
  match validateFlowWindow muxFlowWindow "mux_flow_window" with
  | .error text => .error (.badFlowWindow text)
  | .ok w => .ok ⟨token, scheme, label.1, w, label.2⟩

namespace Agent

/-- The hello of `_run_once`. -/
def hello (t : Agent) : Members :=
  [(text "type", .str (text "auth")), (text "token", .str t.token),
    (text "scheme", .str (text t.scheme.text)), (text "flow_window", .int t.muxFlowWindow.val),
    (text "v", .int version)] ++
    match t.requestedSubdomain with
    | none => []
    | some label => [(text "subdomain", .str (text label))]

end Agent

/-- Why `_run_once` gives up on a reply. -/
inductive FatalError
  | rejected (reason : Json PyStr)
  | protocolVersion (v : Json PyStr)
  | missingPublicUrl
  | invalidFlowWindow (text : String)
  | exceedsRequested (w requested : FlowWindow)

/-- What `_run_once` keeps of a ready message, and builds its multiplexer with. -/
structure Negotiated where
  publicUrl : PyStr
  subdomain : Json PyStr
  flowWindow : FlowWindow

/-- `_run_once` from the reply to the start of its multiplexer. -/
def Agent.accept (t : Agent) : Json PyStr → Except FatalError Negotiated
  | .object reply =>
    match Json.get reply (text "type") with
    | .str type =>
      if type ≠ text "ready" then .error (.rejected (Json.get reply (text "reason")))
      else if (Json.get reply (text "v")).equalsInt version = false then
        .error (.protocolVersion (Json.get reply (text "v")))
      else
        match Json.get reply (text "public_url") with
        | .str url =>
          match validateFlowWindow (Json.get reply (text "flow_window")).toPyValue "flow_window" with
          | .error text => .error (.invalidFlowWindow text)
          | .ok w =>
            if w.val > t.muxFlowWindow.val then .error (.exceedsRequested w t.muxFlowWindow)
            else .ok ⟨url, Json.get reply (text "subdomain"), w⟩
        | _ => .error .missingPublicUrl
    | _ => .error (.rejected (Json.get reply (text "reason")))
  | _ => .error (.rejected .null)

/-! ### On the way -/

namespace PyStr

def isHigh (c : Fin 0x110000) : Bool := 0xD800 ≤ c.val && c.val ≤ 0xDBFF

def isLow (c : Fin 0x110000) : Bool := 0xDC00 ≤ c.val && c.val ≤ 0xDFFF

/-- What `json.loads` reads where `json.dumps` has written the string: a high and a low
surrogate next to each other have become one character. -/
def joined : PyStr → PyStr
  | [] => []
  | [c] => [c]
  | high :: low :: rest =>
    if isHigh high && isLow low then
      Fin.ofNat _ (0x10000 + (high.val - 0xD800) * 0x400 + (low.val - 0xDC00)) :: joined rest
    else high :: joined (low :: rest)

theorem joined_of_clean {s : PyStr} (clean : ∀ c ∈ s, isSurrogate c = false) : s.joined = s := by
  fun_induction joined s with
  | case1 => rfl
  | case2 c => rfl
  | case3 high low rest pair =>
    have apart := clean high List.mem_cons_self
    simp only [isSurrogate, isHigh, Bool.and_eq_true, Bool.and_eq_false_iff, decide_eq_true_eq,
      decide_eq_false_iff_not] at apart pair
    omega
  | case4 high low rest apart ih =>
    rw [ih fun c member => clean c (List.mem_cons_of_mem _ member)]

@[simp] theorem joined_ofString (s : String) : (ofString s).joined = ofString s :=
  joined_of_clean fun _ => isSurrogate_ofString

end PyStr

/-- A message of strings and numbers that `json.dumps` has written and `json.loads` reads. -/
def overWire (message : Members) : Json PyStr :=
  .object (message.map fun member =>
    match member.2 with
    | .str s => (member.1, .str s.joined)
    | value => (member.1, value))

theorem labelOf_text {label : String} (valid : validLabel label = true) :
    labelOf (text label) = some label := by
  rw [labelOf, PyStr.encode_ofString, Option.map_some, lower_of_validLabel valid, Option.filter_some,
    if_pos valid]

theorem validateFlowWindow_int (w : FlowWindow) (name : String) :
    validateFlowWindow (Json.toPyValue (.int w.val)) name = .ok w := by
  have low : ¬ (w.val : Int) < 1 := by
    have least := w.one_le
    omega
  have high : ¬ (w.val : Int) > maxFlowWindow := by
    have most := w.le_max
    omega
  simp only [Json.toPyValue, validateFlowWindow, dif_neg low, dif_neg high, Int.toNat_natCast]

theorem FlowWindow.min_le (w v : FlowWindow) : (w.min v).val ≤ w.val ∧ (w.min v).val ≤ v.val := by
  unfold FlowWindow.min
  split
  next smaller => exact ⟨le_rfl, smaller⟩
  next larger => exact ⟨Nat.le_of_not_le larger, le_rfl⟩

/-! ### What each end reads of the other -/

private theorem overWire_hello (t : Agent) : overWire t.hello = .object
    ([(text "type", .str (text "auth")), (text "token", .str t.token.joined),
      (text "scheme", .str (text t.scheme.text)), (text "flow_window", .int t.muxFlowWindow.val),
      (text "v", .int version)] ++
      match t.requestedSubdomain with
      | none => []
      | some label => [(text "subdomain", .str (text label))]) := by
  obtain ⟨token, scheme, requested, w, valid⟩ := t
  cases requested <;> simp [overWire, Agent.hello]

/-- The relay reads from the hello of an agent what the agent put there. -/
theorem readHello_hello (t : Agent) : readHello (some (overWire t.hello)) =
    .ok ⟨t.token.joined, t.requestedSubdomain, t.scheme, t.muxFlowWindow⟩ := by
  have wired := overWire_hello t
  generalize members : ([(text "type", .str (text "auth")), (text "token", .str t.token.joined),
    (text "scheme", .str (text t.scheme.text)), (text "flow_window", .int t.muxFlowWindow.val),
    (text "v", .int version)] ++
    match t.requestedSubdomain with
    | none => []
    | some label => [(text "subdomain", .str (text label))] : Members) = hello at wired
  have named : tokenFromHello hello = .ok t.token.joined := by
    subst members
    rfl
  have current : (Json.get hello (text "v")).equalsInt version = true := by
    subst members
    rfl
  have wanted : requestedSubdomainFromHello hello = .ok t.requestedSubdomain := by
    subst members
    cases requested : t.requestedSubdomain with
    | none => rfl
    | some label =>
      have given : ∀ rest, Json.get ([(text "type", .str (text "auth")), (text "token", .str t.token.joined),
          (text "scheme", rest), (text "flow_window", .int t.muxFlowWindow.val), (text "v", .int version)] ++
          [(text "subdomain", .str (text label))]) (text "subdomain") = .str (text label) := fun _ => rfl
      rw [requestedSubdomainFromHello, given]
      simp only [labelOf_text (t.valid label requested)]
  have served : schemeFromHello hello = .ok t.scheme := by
    subst members
    cases scheme : t.scheme <;> rfl
  have windowed : flowWindowFromHello hello = .ok t.muxFlowWindow := by
    have given : Json.getOr hello (text "flow_window") (.int defaultFlowWindow) = .int t.muxFlowWindow.val := by
      subst members
      rfl
    rw [flowWindowFromHello, given, validateFlowWindow_int t.muxFlowWindow]
  rw [wired]
  simp only [readHello, named, wanted, served, windowed, current, if_true]
  rfl

/-- What an agent makes of a ready message. -/
theorem accept_ready (t : Agent) (label publicUrl : String) (w : FlowWindow) :
    t.accept (overWire (ready label publicUrl w)) =
      if w.val > t.muxFlowWindow.val then .error (.exceedsRequested w t.muxFlowWindow)
      else .ok ⟨text publicUrl, if label = defaultLabel then .null else .str (text label), w⟩ := by
  have wired : overWire (ready label publicUrl w) = .object (ready label publicUrl w) := by
    by_cases same : label = defaultLabel <;> simp [overWire, ready, same]
  have typed : Json.get (ready label publicUrl w) (text "type") = .str (text "ready") := rfl
  have current : (Json.get (ready label publicUrl w) (text "v")).equalsInt version = true := rfl
  have url : Json.get (ready label publicUrl w) (text "public_url") = .str (text publicUrl) := rfl
  have window : Json.get (ready label publicUrl w) (text "flow_window") = .int w.val := rfl
  have name : Json.get (ready label publicUrl w) (text "subdomain") =
      if label = defaultLabel then .null else .str (text label) := rfl
  rw [wired, Agent.accept]
  simp only [typed, current, url, window, name, validateFlowWindow_int, ne_eq, not_true_eq_false, if_false,
    Bool.true_eq_false]

/-- An error message is no ready message. -/
theorem accept_error (t : Agent) (reason : String) :
    t.accept (overWire (errorMessage reason)) = .error (.rejected (.str (text reason))) := by
  have wired : overWire (errorMessage reason) = .object (errorMessage reason) := by
    simp [overWire, errorMessage]
  have typed : Json.get (errorMessage reason) (text "type") = .str (text "error") := rfl
  have given : Json.get (errorMessage reason) (text "reason") = .str (text reason) := rfl
  have other : text "error" ≠ text "ready" := by decide
  rw [wired, Agent.accept]
  simp only [typed, given, if_pos other]

end Chute
