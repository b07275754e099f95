import Chute.Handshake.Port
import Chute.Server.Keeps
import Chute.Server.Courses

/-!
# Agents at the control port

The relay with any number of agents and strangers at its control port. A message of the relay
may reach its agent at any time after it was sent, or never; the first one that does is its reply.
-/
namespace Chute

/-- An agent in `_run_once`. -/
structure AgentEnd where
  agent : Agent
  /-- Its `_handle_agent` call at the relay. -/
  handshake : Nat
  /-- What it made of its reply. -/
  outcome : Option (Except FatalError Negotiated)

structure Meeting where
  port : ControlPort
  agents : List AgentEnd
  /-- The messages of the relay, each with its handshake, in the order in which they were sent. -/
  sent : List (Nat × Members)

namespace Meeting

def start (config : PortConfig) (now monotonic : ℚ) : Meeting where
  port := ControlPort.start config now monotonic
  agents := []
  sent := []

/-- The handshake that went on as this connection of the relay. -/
def handshakeOf (p : ControlPort) (i : Nat) : Option Nat :=
  p.handshakes.findIdx? fun h => match h.phase with
    | .serving j => j == i
    | _ => false

/-- The message that `_serve_agent` sends in this phase, after the step that led there. -/
def served (c : Server.Connection) : Option Members :=
  match c.phase, c.registration with
  | .readying _, some reg => some (ready c.label reg.publicUrl c.flowWindow)
  | .over_ _ (.rejected r), _ => if r.closeCode = 4002 then some (errorMessage r.reason) else none
  | _, _ => none

/-- What the relay sends with a step that leads to this state of its port. -/
def sends (port : ControlPort) : ControlPort.Action → List (Nat × Members)
  | .received k message =>
    match readHello message with
    | .error why => (why.error.map fun reason => (k, errorMessage reason)).toList
    | .ok _ => []
  | .admitted k (some .none) => [(k, errorMessage "unauthorized")]
  | .server (.claim i _) | .server (.recheck i) =>
    ((handshakeOf port i).bind fun k =>
      ((port.server.connections[i]?).bind served).map fun message => (k, message)).toList
  | _ => []

inductive Action
  /-- An agent connects. -/
  | dial (agent : Agent) (ip : Option PeerIp)
  /-- The hello of an agent arrives. -/
  | hello (n : Nat)
  /-- An agent reads its reply. -/
  | reply (n : Nat)
  /-- Anything else at the port. -/
  | port (a : ControlPort.Action)

/-- In the handshake of an agent nobody else speaks for it. -/
def foreign (m : Meeting) : ControlPort.Action → Bool
  | .received k (some _) => m.agents.all fun e => e.handshake != k
  | _ => true

def take (m : Meeting) (a : ControlPort.Action) : Option Meeting :=
  (m.port.step a).map fun port => { m with port := port, sent := m.sent ++ sends port a }

def step (m : Meeting) : Action → Option Meeting
  | .dial agent ip =>
    some { m with
      port := m.port.connect ip
      agents := m.agents ++ [⟨agent, m.port.handshakes.length, none⟩] }
  | .hello n =>
    (m.agents[n]?).bind fun e => m.take (.received e.handshake (some (overWire e.agent.hello)))
  | .reply n =>
    (m.agents[n]?).bind fun e =>
      match e.outcome, m.sent.lookup e.handshake with
      | none, some message =>
        some { m with agents :=
          m.agents.set n { e with outcome := some (e.agent.accept (overWire message)) } }
      | _, _ => none
  | .port a => if m.foreign a then m.take a else none

end Meeting

/-! ### How a handshake goes on -/

namespace ControlPort

variable {p p' : ControlPort} {k : Nat} {h : Handshake}

/-- The step is none of a handshake. -/
def Action.aside : Action → Bool
  | .pollWake | .pollAcquired _ | .polled _ | .server _ => true
  | _ => false

theorem handshakes_aside {a : Action} (aside : a.aside = true) (moved : p.step a = some p') :
    p'.handshakes = p.handshakes := by
  cases a with
  | connect | acquired | received | authAcquired | admitted => cases aside
  | pollWake =>
    simp only [step] at moved
    split at moved
    · cases moved
      rfl
    · cases moved
  | pollAcquired granted =>
    simp only [step] at moved
    split at moved
    · split at moved
      · split at moved
        · cases moved
        · cases moved
          rfl
      · cases moved
        rfl
    · cases moved
  | polled answer =>
    simp only [step] at moved
    split at moved
    · split at moved
      · cases moved
        rfl
      · cases moved
        rfl
      · cases moved
        rfl
    · cases moved
  | server a =>
    simp only [step] at moved
    split at moved
    · cases moved
    · exact (relay_parts moved).2.1

/-- A step of the port moves a handshake on in this way. -/
inductive Onward (p p' : ControlPort) (k : Nat) (h : Handshake) : Action → Handshake → Prop
  | same (a : Action) : Onward p p' k h a h
  | acquired (a : Action) (waits : h.phase = .acquiring) : Onward p p' k h a { h with phase := .receiving }
  | busy (a : Action) (waits : h.phase = .acquiring ∨ h.phase = .authAcquiring) :
      Onward p p' k h a { h with phase := .closed .serverBusy }
  | read (message : Option (Json PyStr)) (hello : AgentHello) (waits : h.phase = .receiving)
      (ok : readHello message = .ok hello) :
      Onward p p' k h (.received k message) { h with phase := .authAcquiring, hello := some hello }
  | misread (message : Option (Json PyStr)) (why : HandshakeFailure) (waits : h.phase = .receiving)
      (bad : readHello message = .error why) :
      Onward p p' k h (.received k message)
        { h with phase := .closed (.failed why), failures := h.failures ++ [p.server.monotonic] }
  | asked (a : Action) (waits : h.phase = .authAcquiring) : Onward p p' k h a { h with phase := .admitting }
  | unauthorized (hello : AgentHello) (waits : h.phase = .admitting) (said : h.hello = some hello) :
      Onward p p' k h (.admitted k (some .none)) { h with
        phase := .closed (.failed .unauthorized), failures := h.failures ++ [p.server.monotonic] }
  | unavailable (hello : AgentHello) (answer : Option PyObject) (waits : h.phase = .admitting)
      (said : h.hello = some hello) (unfit : ∀ admission, answer = some admission →
        admission ≠ .none ∧ validTunnelAdmission admission = none) :
      Onward p p' k h (.admitted k answer) { h with phase := .closed .tryAgainLater }
  | admitted (hello : AgentHello) (admission : PyObject) (waits : h.phase = .admitting)
      (said : h.hello = some hello)
      (stepped : p.server.step (.admitTunnel admission hello.requestedSubdomain hello.scheme
        (hello.flowWindow.min p.config.muxFlowWindow)) = some p'.server) :
      Onward p p' k h (.admitted k (some admission)) { h with phase := .serving p.server.connections.length }

/-- A handshake that is served stays so. -/
theorem Onward.serving {h' : Handshake} {a : Action} {i : Nat} (onward : Onward p p' k h a h')
    (serving : h.phase = .serving i) : h'.phase = .serving i := by
  cases onward with
  | same => exact serving
  | acquired _ waits | asked _ waits =>
    rw [serving] at waits
    cases waits
  | busy _ waits =>
    rw [serving] at waits
    rcases waits with waits | waits <;> cases waits
  | read _ _ waits | misread _ _ waits | unauthorized _ waits | unavailable _ _ waits | admitted _ _ waits =>
    rw [serving] at waits
    cases waits

private theorem onward_modify {f : Handshake → Handshake} {a : Action} {j : Nat} {own : Handshake}
    (found : p.handshakes[j]? = some own) (here : p.handshakes[k]? = some h)
    (handshakes : p'.handshakes = p.handshakes.modify j f)
    (moves : k = j → Onward p p' k own a (f own)) :
    ∃ h', p'.handshakes[k]? = some h' ∧ Onward p p' k h a h' := by
  rw [handshakes, List.getElem?_modify, here]
  by_cases same : j = k
  · subst same
    rw [found] at here
    cases here
    exact ⟨f h, by simp, moves rfl⟩
  · exact ⟨h, by simp [same], .same a⟩

theorem step_onward {a : Action} (moved : p.step a = some p') (here : p.handshakes[k]? = some h) :
    ∃ h', p'.handshakes[k]? = some h' ∧ Onward p p' k h a h' := by
  cases a with
  | connect ip =>
    cases moved
    refine ⟨h, ?_, .same _⟩
    rw [connect_handshakes, List.getElem?_append_left (List.getElem?_eq_some_iff.mp here).1, here]
  | acquired j granted =>
    obtain ⟨own, found, moved⟩ := Option.bind_eq_some_iff.mp moved
    split at moved
    next waits =>
      split at moved
      · split at moved
        · cases moved
        · cases moved
          exact onward_modify found here rfl fun _ => .acquired _ waits
      · cases moved
        exact onward_modify found here rfl fun _ => .busy _ (by simp [waits])
    · cases moved
  | received j message =>
    obtain ⟨own, found, moved⟩ := Option.bind_eq_some_iff.mp moved
    split at moved
    next waits =>
      cases moved
      unfold receive
      split
      next why bad =>
        refine onward_modify found here rfl ?_
        rintro rfl
        exact .misread message why waits bad
      next hello ok =>
        refine onward_modify found here rfl ?_
        rintro rfl
        exact .read message hello waits ok
    · cases moved
  | authAcquired j granted =>
    obtain ⟨own, found, moved⟩ := Option.bind_eq_some_iff.mp moved
    split at moved
    next waits =>
      split at moved
      · split at moved
        · cases moved
        · cases moved
          exact onward_modify found here rfl fun _ => .asked _ waits
      · cases moved
        exact onward_modify found here rfl fun _ => .busy _ (by simp [waits])
    · cases moved
  | admitted j answer =>
    obtain ⟨own, found, moved⟩ := Option.bind_eq_some_iff.mp moved
    split at moved
    next hello waits said =>
      cases moved
      unfold admitAgent
      split
      · refine onward_modify found here rfl ?_
        rintro rfl
        exact .unavailable hello none waits said (by simp)
      · refine onward_modify found here rfl ?_
        rintro rfl
        exact .unauthorized hello waits said
      next admission other =>
        split
        next unfit =>
          refine onward_modify found here rfl ?_
          rintro rfl
          refine .unavailable hello _ waits said ?_
          rintro _ ⟨⟩
          exact ⟨other, Option.map_eq_none_iff.mp unfit⟩
        next server stepped =>
          refine onward_modify found here rfl ?_
          rintro rfl
          exact .admitted hello _ waits said stepped
    · cases moved
  | pollWake | pollAcquired | polled | server =>
    exact ⟨h, by rw [handshakes_aside (by simp [Action.aside]) moved, here], .same _⟩

/-- The step of the relay that a step of its port carries out. -/
inductive Carries (p : ControlPort) : Action → Server.Action → Prop
  | server (b : Server.Action) : Carries p (.server b) b
  | admitted (k : Nat) (hello : AgentHello) (admission : PyObject) :
      Carries p (.admitted k (some admission)) (.admitTunnel admission hello.requestedSubdomain hello.scheme
        (hello.flowWindow.min p.config.muxFlowWindow))
  | polled (update : PyObject) : Carries p (.polled (some update)) (.applyPolicyUpdate update)

/-- A step of the port leaves the connections alone or takes one step of the relay. -/
theorem step_server {a : Action} (moved : p.step a = some p') :
    (p'.server.connections = p.server.connections ∧ p'.server.config = p.server.config) ∨
      ∃ b, p.Carries a b ∧ p.server.step b = some p'.server := by
  cases a with
  | connect ip =>
    cases moved
    rw [connect_server]
    exact .inl ⟨rfl, rfl⟩
  | acquired k granted | authAcquired k granted =>
    obtain ⟨h, -, moved⟩ := Option.bind_eq_some_iff.mp moved
    split at moved
    · split at moved
      · split at moved
        · cases moved
        · cases moved
          exact .inl ⟨rfl, rfl⟩
      · cases moved
        exact .inl ⟨rfl, rfl⟩
    · cases moved
  | received k message =>
    obtain ⟨h, -, moved⟩ := Option.bind_eq_some_iff.mp moved
    split at moved
    · cases moved
      unfold receive
      split
      · rw [fail_server]
        exact .inl ⟨rfl, rfl⟩
      · exact .inl ⟨rfl, rfl⟩
    · cases moved
  | admitted k answer =>
    obtain ⟨h, -, moved⟩ := Option.bind_eq_some_iff.mp moved
    split at moved
    next hello _ _ =>
      cases moved
      unfold admitAgent
      split
      · exact .inl ⟨rfl, rfl⟩
      · rw [fail_server]
        exact .inl ⟨rfl, rfl⟩
      next admission _ =>
        split
        · exact .inl ⟨rfl, rfl⟩
        next server stepped => exact .inr ⟨_, .admitted k hello _, stepped⟩
    · cases moved
  | pollWake =>
    simp only [step] at moved
    split at moved
    · cases moved
      exact .inl ⟨rfl, rfl⟩
    · cases moved
  | pollAcquired granted =>
    simp only [step] at moved
    split at moved
    · split at moved
      · split at moved
        · cases moved
        · cases moved
          exact .inl ⟨rfl, rfl⟩
      · cases moved
        exact .inl ⟨rfl, rfl⟩
    · cases moved
  | polled answer =>
    simp only [step] at moved
    split at moved
    · split at moved
      · cases moved
        exact .inl ⟨rfl, rfl⟩
      · cases moved
        exact .inl ⟨rfl, rfl⟩
      · cases moved
        exact .inr ⟨_, .polled _, rfl⟩
    · cases moved
  | server a =>
    simp only [step] at moved
    split at moved
    · cases moved
    · exact .inr ⟨a, .server a, (relay_parts moved).1⟩

end ControlPort

end Chute
