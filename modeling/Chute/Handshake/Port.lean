import Chute.Lib.Window
import Chute.Handshake.Hello
import Chute.Server.Calls
import Chute.Server.Source

/-!
# The control port

`_handle_agent` for any number of agents at once, up to the admission that `_serve_agent` goes
on with. Each `await` is the end of a step. The slots of `_auth_sem` are shared with the lease
renewals of the relay and with its policy poll.
-/
namespace Chute

/-- How a handshake ended before `_serve_agent`. -/
inductive Turned
  | tooManyAuthFailures
  | serverBusy
  | failed (why : HandshakeFailure)
  /-- The control plane raised, timed out, or returned no valid admission. -/
  | tryAgainLater
  deriving DecidableEq, Repr

namespace Turned

def closeCode : Turned → Nat
  | failed why => why.closeCode
  | _ => 1013

def closeReason : Turned → String
  | tooManyAuthFailures => "too many auth failures"
  | serverBusy => "server busy"
  | failed why => why.closeReason
  | tryAgainLater => "try again later"

end Turned

/-- Where a `_handle_agent` call is. -/
inductive HandshakePhase
  /-- Waits for `_control_sem`. -/
  | acquiring
  /-- In `recv`. -/
  | receiving
  /-- Waits for `_auth_sem`. -/
  | authAcquiring
  /-- In `admit_tunnel`. -/
  | admitting
  /-- In `_serve_agent`, as this connection of the relay. -/
  | serving (i : Nat)
  | closed (how : Turned)
  deriving DecidableEq, Repr

/-- A `_handle_agent` call with its local variables. -/
structure Handshake where
  agentIp : Option PeerIp
  phase : HandshakePhase
  /-- What it has read from its hello. -/
  hello : Option AgentHello
  /-- What its calls of `_record_auth_fail` read from the clock. -/
  failures : List ℚ

/-- Where `_poll_policy_updates` is. -/
inductive PollTask
  | sleeping
  /-- Waits for `_auth_sem`. -/
  | acquiring
  /-- In `poll_policy_updates`. -/
  | calling
  deriving DecidableEq, Repr

structure PortConfig where
  relay : ServerConfig
  muxFlowWindow : FlowWindow
  maxControlConns : Nat
  maxAuthConns : Nat

structure ControlPort where
  config : PortConfig
  server : Server
  /-- `_auth_fails`, in insertion order. -/
  authFails : List (SourceBucket × List ℚ)
  /-- The free slots of `_control_sem` and of `_auth_sem`. -/
  controlSem : Nat
  authSem : Nat
  controlInFlight : Int
  authInFlight : Int
  controlBusy : Nat
  policyUpdatePollFailures : Nat
  poll : PollTask
  handshakes : List Handshake

namespace ControlPort

def start (config : PortConfig) (now monotonic : ℚ) : ControlPort where
  config := config
  server := Server.start config.relay now monotonic
  authFails := []
  controlSem := config.maxControlConns
  authSem := config.maxAuthConns
  controlInFlight := 0
  authInFlight := 0
  controlBusy := 0
  policyUpdatePollFailures := 0
  poll := .sleeping
  handshakes := []

/-- A port with two slots of each kind. -/
def smallPort : PortConfig := ⟨Server.smallRelay, .default, 2, 2⟩

/-- An agent that asks for the label x. -/
def askingAgent : Agent := ⟨text "secret", .http, some "x", .default, by
  rintro _ ⟨⟩
  decide⟩

/-! ### The failed-auth limiter -/

/-- `_AUTH_FAIL_MAX` -/
def authFailMax : Nat := 5

/-- `_AUTH_FAIL_WINDOW` -/
def authFailWindow : ℚ := 60

/-- `_AUTH_FAIL_SWEEP_AT` -/
def authFailSweepAt : Nat := 4096

/-- `_AUTH_FAIL_MAX_IPS` -/
def authFailMaxIps : Nat := 65536

/-- `_auth_fail_key` -/
def authFailKey (ip : Option PeerIp) : Option SourceBucket := sourceIpBucket ip true false

/-- `_auth_rate_ok` -/
def authRateOk (p : ControlPort) (ip : Option PeerIp) : Bool × ControlPort :=
  match authFailKey ip with
  | none => (true, p)
  | some key =>
    let fails := (p.authFails.lookup key).getD []
    if fails = [] then (true, p)
    else
      let fresh := Window.recent authFailWindow p.server.monotonic fails
      (decide (fresh.length < authFailMax), { p with
        authFails := if fresh = [] then Window.erase p.authFails key else Window.put p.authFails key fresh })

/-- `_record_auth_fail` -/
def recordAuthFail (p : ControlPort) (ip : Option PeerIp) : ControlPort :=
  match authFailKey ip with
  | none => p
  | some key =>
    let now := p.server.monotonic
    let noted := Window.put p.authFails key ((p.authFails.lookup key).getD [] ++ [now])
    let swept := if noted.length > authFailSweepAt then
      noted.filter fun e => !e.2.all fun t => authFailWindow ≤ now - t
      else noted
    { p with authFails := swept.drop (swept.length - authFailMaxIps) }

/-- A check of the limiter changes nothing but its table. -/
theorem authRateOk_table (p : ControlPort) (ip : Option PeerIp) :
    ∃ table, (p.authRateOk ip).2 = { p with authFails := table } := by
  unfold authRateOk
  split
  · exact ⟨_, rfl⟩
  · dsimp only
    split
    · exact ⟨_, rfl⟩
    · exact ⟨_, rfl⟩

theorem recordAuthFail_table (p : ControlPort) (ip : Option PeerIp) :
    ∃ table, p.recordAuthFail ip = { p with authFails := table } := by
  unfold recordAuthFail
  split
  · exact ⟨_, rfl⟩
  · exact ⟨_, rfl⟩

/-! ### The handshakes -/

def setPhase (p : ControlPort) (k : Nat) (phase : HandshakePhase) : ControlPort :=
  { p with handshakes := p.handshakes.modify k fun h => { h with phase := phase } }

/-- The handshake fails, and its source is made to know it. -/
def fail (p : ControlPort) (k : Nat) (h : Handshake) (why : HandshakeFailure) : ControlPort :=
  { p.recordAuthFail h.agentIp with
    handshakes := p.handshakes.modify k fun h =>
      { h with phase := .closed (.failed why), failures := h.failures ++ [p.server.monotonic] } }

/-- A new connection: `_auth_rate_ok` comes first. -/
def connect (p : ControlPort) (ip : Option PeerIp) : ControlPort :=
  let checked := p.authRateOk ip
  { checked.2 with handshakes := checked.2.handshakes ++
    [⟨ip, if checked.1 then .acquiring else .closed .tooManyAuthFailures, none, []⟩] }

theorem fail_server (p : ControlPort) (k : Nat) (h : Handshake) (why : HandshakeFailure) :
    (p.fail k h why).server = p.server := by
  obtain ⟨table, same⟩ := p.recordAuthFail_table h.agentIp
  unfold fail
  rw [same]

theorem connect_server (p : ControlPort) (ip : Option PeerIp) : (p.connect ip).server = p.server := by
  obtain ⟨table, same⟩ := p.authRateOk_table ip
  show (p.authRateOk ip).2.server = p.server
  rw [same]

theorem connect_handshakes (p : ControlPort) (ip : Option PeerIp) :
    (p.connect ip).handshakes = p.handshakes ++
      [⟨ip, if (p.authRateOk ip).1 then .acquiring else .closed .tooManyAuthFailures, none, []⟩] := by
  obtain ⟨table, same⟩ := p.authRateOk_table ip
  show (p.authRateOk ip).2.handshakes ++ _ = _
  rw [same]

def takeControl (p : ControlPort) : ControlPort :=
  { p with controlSem := p.controlSem - 1, controlInFlight := p.controlInFlight + 1 }

def releaseControl (p : ControlPort) : ControlPort :=
  { p with controlSem := p.controlSem + 1, controlInFlight := p.controlInFlight - 1 }

def takeAuth (p : ControlPort) : ControlPort :=
  { p with authSem := p.authSem - 1, authInFlight := p.authInFlight + 1 }

def releaseAuth (p : ControlPort) : ControlPort :=
  { p with authSem := p.authSem + 1, authInFlight := p.authInFlight - 1 }

def authBusy (p : ControlPort) : ControlPort :=
  { p with server := { p.server with authBusy := p.server.authBusy + 1 } }

/-- After `recv`. -/
def receive (p : ControlPort) (k : Nat) (h : Handshake) (message : Option (Json PyStr)) : ControlPort :=
  match readHello message with
  | .error why => p.fail k h why
  | .ok hello =>
    { p with handshakes := p.handshakes.modify k fun h =>
      { h with phase := .authAcquiring, hello := some hello } }

/-- After `admit_tunnel`, which raised where there is no answer. -/
def admitAgent (p : ControlPort) (k : Nat) (h : Handshake) (hello : AgentHello) :
    Option PyObject → ControlPort
  | none => p.setPhase k (.closed .tryAgainLater)
  | some .none => p.fail k h .unauthorized
  | some admission =>
    match p.server.step (.admitTunnel admission hello.requestedSubdomain hello.scheme
        (hello.flowWindow.min p.config.muxFlowWindow)) with
    | none => p.setPhase k (.closed .tryAgainLater)
    | some server => { p.setPhase k (.serving p.server.connections.length) with server := server }

/-! ### The steps -/

inductive Action
  | connect (ip : Option PeerIp)
  /-- `_control_sem` is acquired, or `wait_for` gave up. -/
  | acquired (k : Nat) (granted : Bool)
  /-- `recv` returned and its message was JSON, or not. -/
  | received (k : Nat) (message : Option (Json PyStr))
  | authAcquired (k : Nat) (granted : Bool)
  | admitted (k : Nat) (answer : Option PyObject)
  /-- The policy poll is over its sleep. -/
  | pollWake
  | pollAcquired (granted : Bool)
  /-- `poll_policy_updates` returned, or raised. -/
  | polled (answer : Option PyObject)
  /-- Any other step of the relay. -/
  | server (a : Server.Action)

/-- These steps of the relay are the ends of calls above. -/
def owned : Server.Action → Bool
  | .admitTunnel .. => true
  | .applyPolicyUpdate .. => true
  | _ => false

/-- A step of the relay. A renewal takes a slot of `_auth_sem` for its call, and gives it back
when the call is over or its task is cancelled. -/
def relay (p : ControlPort) (a : Server.Action) : Option ControlPort :=
  (p.server.step a).bind fun server =>
    let next := { p with server := server }
    match a with
    | .renewAcquired _ true => if p.authSem = 0 then none else some next.takeAuth
    | .renewResult _ _ => some next.releaseAuth
    | .renewalCancelled i => some (if p.server.renewing i then next.releaseAuth else next)
    | _ => some next

def step (p : ControlPort) : Action → Option ControlPort
  | .connect ip => some (p.connect ip)
  | .acquired k granted =>
    (p.handshakes[k]?).bind fun h =>
      match h.phase with
      | .acquiring =>
        if granted then if p.controlSem = 0 then none else some (p.takeControl.setPhase k .receiving)
        else some { p.setPhase k (.closed .serverBusy) with controlBusy := p.controlBusy + 1 }
      | _ => none
  | .received k message =>
    (p.handshakes[k]?).bind fun h =>
      match h.phase with
      | .receiving => some (p.releaseControl.receive k h message)
      | _ => none
  | .authAcquired k granted =>
    (p.handshakes[k]?).bind fun h =>
      match h.phase with
      | .authAcquiring =>
        if granted then if p.authSem = 0 then none else some (p.takeAuth.setPhase k .admitting)
        else some (p.authBusy.setPhase k (.closed .serverBusy))
      | _ => none
  | .admitted k answer =>
    (p.handshakes[k]?).bind fun h =>
      match h.phase, h.hello with
      | .admitting, some hello => some (p.releaseAuth.admitAgent k h hello answer)
      | _, _ => none
  | .pollWake => if p.poll = .sleeping then some { p with poll := .acquiring } else none
  | .pollAcquired granted =>
    if p.poll = .acquiring then
      if granted then if p.authSem = 0 then none else some { p.takeAuth with poll := .calling }
      else some { p.authBusy with poll := .sleeping }
    else none
  | .polled answer =>
    if p.poll = .calling then
      let p := { p.releaseAuth with poll := .sleeping }
      match answer with
      | none => some { p with policyUpdatePollFailures := p.policyUpdatePollFailures + 1 }
      | some .none => some p
      | some update => some { p with server := (p.server.applyPolicyUpdate update).2 }
    else none
  | .server a => if owned a then none else p.relay a

/-! ### What no step changes -/

variable {p p' : ControlPort} {a : Action}

theorem fail_config (p : ControlPort) (k : Nat) (h : Handshake) (why : HandshakeFailure) :
    (p.fail k h why).config = p.config := by
  obtain ⟨table, same⟩ := p.recordAuthFail_table h.agentIp
  unfold fail
  rw [same]

/-- A step of the relay is one of its server, and leaves the rest but slots as it is. -/
theorem relay_parts {a : Server.Action} (moved : p.relay a = some p') :
    p.server.step a = some p'.server ∧ p'.handshakes = p.handshakes ∧ p'.config = p.config := by
  obtain ⟨server, stepped, moved⟩ := Option.bind_eq_some_iff.mp moved
  simp only at moved
  split at moved
  · split at moved
    · cases moved
    · cases moved
      exact ⟨stepped, rfl, rfl⟩
  · cases moved
    exact ⟨stepped, rfl, rfl⟩
  · split at moved
    · cases moved
      exact ⟨stepped, rfl, rfl⟩
    · cases moved
      exact ⟨stepped, rfl, rfl⟩
  · cases moved
    exact ⟨stepped, rfl, rfl⟩

theorem config_step (moved : p.step a = some p') : p'.config = p.config := by
  cases a with
  | connect ip =>
    cases moved
    obtain ⟨table, same⟩ := p.authRateOk_table ip
    show (p.authRateOk ip).2.config = p.config
    rw [same]
  | acquired k granted | authAcquired k granted =>
    obtain ⟨h, -, moved⟩ := Option.bind_eq_some_iff.mp moved
    split at moved
    · split at moved
      · split at moved
        · cases moved
        · cases moved
          rfl
      · cases moved
        rfl
    · cases moved
  | received k message =>
    obtain ⟨h, -, moved⟩ := Option.bind_eq_some_iff.mp moved
    split at moved
    · cases moved
      unfold receive
      split
      · exact fail_config _ k h _
      · rfl
    · cases moved
  | admitted k answer =>
    obtain ⟨h, -, moved⟩ := Option.bind_eq_some_iff.mp moved
    split at moved
    · cases moved
      unfold admitAgent
      split
      · rfl
      · exact fail_config _ k h _
      · split
        · rfl
        · rfl
    · cases moved
  | pollWake =>
    simp only [step] at moved
    split at moved
    · cases moved
      rfl
    · cases moved
  | pollAcquired granted =>
    simp only [step] at moved
    split at moved
    · split at moved
      · split at moved
        · cases moved
        · cases moved
          rfl
      · cases moved
        rfl
    · cases moved
  | polled answer =>
    simp only [step] at moved
    split at moved
    · split at moved
      · cases moved
        rfl
      · cases moved
        rfl
      · cases moved
        rfl
    · cases moved
  | server a =>
    simp only [step] at moved
    split at moved
    · cases moved
    · exact (relay_parts moved).2.2

end ControlPort

end Chute
