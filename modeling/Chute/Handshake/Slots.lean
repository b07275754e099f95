import Chute.Handshake.Limiter

/-!
# The slots of the control port

`_control_sem` bounds the handshakes in `recv`; `_auth_sem` bounds the calls of the control
plane, whoever makes them. Every slot that is taken comes back on every way out.
-/
namespace Chute

namespace HandshakePhase

/-- Holds a slot of `_control_sem`. -/
def holdsControl : HandshakePhase → Bool
  | receiving => true
  | _ => false

/-- Holds a slot of `_auth_sem`. -/
def holdsAuth : HandshakePhase → Bool
  | admitting => true
  | _ => false

end HandshakePhase

namespace ControlPort

open Transition

variable {p p' : ControlPort} {k : Nat} {h : Handshake}

def inControl (p : ControlPort) : Nat := p.handshakes.countP fun h => h.phase.holdsControl

def inAdmit (p : ControlPort) : Nat := p.handshakes.countP fun h => h.phase.holdsAuth

/-- The calls of the control plane: `admit_tunnel`, `renew_lease` and `poll_policy_updates`. -/
def planeCalls (p : ControlPort) : Nat :=
  p.inAdmit + p.server.calls + (p.poll == .calling).toNat

/-- Each slot is free or in use, and the gauges count the slots in use. -/
structure Slots (p : ControlPort) : Prop where
  relay : p.server.TasksRan
  control : p.controlSem + p.inControl = p.config.maxControlConns
  auth : p.authSem + p.planeCalls = p.config.maxAuthConns
  controlGauge : p.controlInFlight = p.inControl
  authGauge : p.authInFlight = p.planeCalls

theorem slots_start (config : PortConfig) (now monotonic : ℚ) : (start config now monotonic).Slots where
  relay := Server.tasksRan_start config.relay now monotonic
  control := rfl
  auth := rfl
  controlGauge := rfl
  authGauge := rfl

/-! ### The parts of a step -/

/-- One handshake changes its phase; what it holds before and after accounts for the counters. -/
private theorem Slots.turn (slots : p.Slots) (found : p.handshakes[k]? = some h) {phase : HandshakePhase}
    {f : Handshake → Handshake} (turned : (f h).phase = phase)
    (handshakes : p'.handshakes = p.handshakes.modify k f) (config : p'.config = p.config)
    (server : p'.server.works = p.server.works) (poll : p'.poll = p.poll)
    (control : p'.controlSem + phase.holdsControl.toNat = p.controlSem + h.phase.holdsControl.toNat)
    (auth : p'.authSem + phase.holdsAuth.toNat = p.authSem + h.phase.holdsAuth.toNat)
    (controlGauge : p'.controlInFlight + h.phase.holdsControl.toNat =
      p.controlInFlight + phase.holdsControl.toNat)
    (authGauge : p'.authInFlight + h.phase.holdsAuth.toNat = p.authInFlight + phase.holdsAuth.toNat) :
    p'.Slots := by
  have inControl := Tally.countP_modify (fun h : Handshake => h.phase.holdsControl) f found
  have inAdmit := Tally.countP_modify (fun h : Handshake => h.phase.holdsAuth) f found
  rw [turned, ← handshakes] at inControl inAdmit
  have planeCalls : p'.planeCalls + h.phase.holdsAuth.toNat = p.planeCalls + phase.holdsAuth.toNat := by
    have calls : p'.server.calls = p.server.calls := by rw [Server.calls, server, Server.calls]
    unfold ControlPort.planeCalls ControlPort.inAdmit
    rw [calls, poll]
    omega
  have control' := slots.control
  have auth' := slots.auth
  have controlGauge' := slots.controlGauge
  have authGauge' := slots.authGauge
  have inControl : p'.inControl + h.phase.holdsControl.toNat = p.inControl + phase.holdsControl.toNat :=
    inControl
  refine ⟨?_, ?_, ?_, ?_, ?_⟩
  · unfold Server.TasksRan
    rw [server]
    exact slots.relay
  · rw [config]
    omega
  · rw [config]
    omega
  · omega
  · omega

/-- The relay and the poll take slots of `_auth_sem` and give them back. -/
private theorem Slots.aside (slots : p.Slots) (handshakes : p'.handshakes = p.handshakes)
    (config : p'.config = p.config) (relay : p'.server.TasksRan) (control : p'.controlSem = p.controlSem)
    (controlGauge : p'.controlInFlight = p.controlInFlight)
    (auth : p'.authSem + (p'.server.calls + (p'.poll == .calling).toNat) =
      p.authSem + (p.server.calls + (p.poll == .calling).toNat))
    (authGauge : p'.authInFlight + (p.server.calls + (p.poll == .calling).toNat) =
      p.authInFlight + (p'.server.calls + (p'.poll == .calling).toNat)) : p'.Slots := by
  have inControl : p'.inControl = p.inControl := by rw [ControlPort.inControl, handshakes, ControlPort.inControl]
  have inAdmit : p'.inAdmit = p.inAdmit := by rw [ControlPort.inAdmit, handshakes, ControlPort.inAdmit]
  have auth' := slots.auth
  have authGauge' := slots.authGauge
  unfold ControlPort.planeCalls at auth' authGauge'
  refine ⟨relay, ?_, ?_, ?_, ?_⟩
  · rw [control, inControl, config]
    exact slots.control
  · unfold ControlPort.planeCalls
    rw [config, inAdmit]
    omega
  · rw [controlGauge, inControl]
    exact slots.controlGauge
  · unfold ControlPort.planeCalls
    rw [inAdmit]
    omega

private theorem Slots.fail (slots : p.Slots) (found : p.handshakes[k]? = some h) (why : HandshakeFailure)
    {q : ControlPort} (handshakes : q.handshakes = p.handshakes) (config : q.config = p.config)
    (server : q.server.works = p.server.works) (poll : q.poll = p.poll)
    (control : q.controlSem = p.controlSem + h.phase.holdsControl.toNat)
    (auth : q.authSem = p.authSem + h.phase.holdsAuth.toNat)
    (controlGauge : q.controlInFlight + h.phase.holdsControl.toNat = p.controlInFlight)
    (authGauge : q.authInFlight + h.phase.holdsAuth.toNat = p.authInFlight) : (q.fail k h why).Slots := by
  obtain ⟨table, same⟩ := q.recordAuthFail_table h.agentIp
  unfold ControlPort.fail
  rw [same, handshakes]
  exact slots.turn found rfl rfl config server poll control auth (by simpa [HandshakePhase.holdsControl])
    (by simpa [HandshakePhase.holdsAuth])

theorem Slots.relay_step (slots : p.Slots) {a : Server.Action} (moved : p.relay a = some p') : p'.Slots := by
  obtain ⟨server, stepped, moved⟩ := Option.bind_eq_some_iff.mp moved
  have ran := slots.relay.step stepped
  have balance := Server.calls_step slots.relay stepped
  simp only at moved
  split at moved
  · split at moved
    · cases moved
    next free =>
      cases moved
      have one : p.authSem - 1 + 1 = p.authSem := Nat.sub_add_cancel (Nat.pos_of_ne_zero free)
      simp only [Server.Action.gives, Server.Action.takes] at balance
      refine slots.aside rfl rfl ran rfl rfl ?_ ?_
      · simp only [takeAuth]
        omega
      · simp only [takeAuth]
        omega
  · cases moved
    simp only [Server.Action.gives, Server.Action.takes] at balance
    refine slots.aside rfl rfl ran rfl rfl ?_ ?_
    · simp only [releaseAuth]
      omega
    · simp only [releaseAuth]
      omega
  next i =>
    simp only [Server.Action.gives, Server.Action.takes] at balance
    split at moved
    next calling =>
      cases moved
      rw [calling, Bool.toNat_true] at balance
      refine slots.aside rfl rfl ran rfl rfl ?_ ?_
      · simp only [releaseAuth]
        omega
      · simp only [releaseAuth]
        omega
    next calling =>
      cases moved
      rw [eq_false_of_ne_true calling, Bool.toNat_false] at balance
      refine slots.aside rfl rfl ran rfl rfl ?_ ?_
      · simp only
        omega
      · simp only
        omega
  next acquired answered cancelled =>
    cases moved
    have neither : a.gives p.server = 0 ∧ a.takes = 0 := by
      unfold Server.Action.gives Server.Action.takes
      constructor
      · split
        · exact absurd rfl (answered _ _)
        · exact absurd rfl (cancelled _)
        · rfl
      · split
        · exact absurd rfl (acquired _)
        · rfl
    rw [neither.1, neither.2] at balance
    refine slots.aside rfl rfl ran rfl rfl ?_ ?_
    · simp only
      omega
    · simp only
      omega

/-- A new handshake holds nothing yet. -/
private theorem Slots.connect (slots : p.Slots) (ip : Option PeerIp) : (p.connect ip).Slots := by
  obtain ⟨table, same⟩ := p.authRateOk_table ip
  unfold ControlPort.connect
  simp only [same]
  refine ⟨slots.relay, ?_, ?_, ?_, ?_⟩
  · rw [← slots.control]
    cases (p.authRateOk ip).1 <;> simp [inControl, HandshakePhase.holdsControl]
  · rw [← slots.auth]
    cases (p.authRateOk ip).1 <;> simp [planeCalls, inAdmit, HandshakePhase.holdsAuth]
  · rw [slots.controlGauge]
    cases (p.authRateOk ip).1 <;> simp [inControl, HandshakePhase.holdsControl]
  · rw [slots.authGauge]
    cases (p.authRateOk ip).1 <;> simp [planeCalls, inAdmit, HandshakePhase.holdsAuth]

theorem Slots.step (slots : p.Slots) {a : Action} (moved : p.step a = some p') : p'.Slots := by
  cases a with
  | connect ip =>
    cases moved
    exact slots.connect ip
  | acquired k granted =>
    obtain ⟨h, found, moved⟩ := Option.bind_eq_some_iff.mp moved
    split at moved
    next waits =>
      split at moved
      · split at moved
        · cases moved
        next free =>
          cases moved
          have one : p.controlSem - 1 + 1 = p.controlSem := Nat.sub_add_cancel (Nat.pos_of_ne_zero free)
          refine slots.turn found rfl rfl rfl rfl rfl ?_ ?_ ?_ ?_
          all_goals simp [waits, HandshakePhase.holdsControl, HandshakePhase.holdsAuth, setPhase, takeControl, one]
      · cases moved
        refine slots.turn found rfl rfl rfl rfl rfl ?_ ?_ ?_ ?_
        all_goals simp [waits, HandshakePhase.holdsControl, HandshakePhase.holdsAuth, setPhase]
    · cases moved
  | received k message =>
    obtain ⟨h, found, moved⟩ := Option.bind_eq_some_iff.mp moved
    split at moved
    next waits =>
      cases moved
      unfold receive
      split
      · refine slots.fail found _ rfl rfl rfl rfl ?_ ?_ ?_ ?_
        all_goals simp [waits, HandshakePhase.holdsControl, HandshakePhase.holdsAuth, releaseControl]
      · refine slots.turn found rfl rfl rfl rfl rfl ?_ ?_ ?_ ?_
        all_goals simp [waits, HandshakePhase.holdsControl, HandshakePhase.holdsAuth, releaseControl]
    · cases moved
  | authAcquired k granted =>
    obtain ⟨h, found, moved⟩ := Option.bind_eq_some_iff.mp moved
    split at moved
    next waits =>
      split at moved
      · split at moved
        · cases moved
        next free =>
          cases moved
          have one : p.authSem - 1 + 1 = p.authSem := Nat.sub_add_cancel (Nat.pos_of_ne_zero free)
          refine slots.turn found rfl rfl rfl rfl rfl ?_ ?_ ?_ ?_
          all_goals simp [waits, HandshakePhase.holdsControl, HandshakePhase.holdsAuth, setPhase, takeAuth, one]
      · cases moved
        refine slots.turn found rfl rfl rfl rfl rfl ?_ ?_ ?_ ?_
        all_goals simp [waits, HandshakePhase.holdsControl, HandshakePhase.holdsAuth, setPhase, authBusy]
    · cases moved
  | admitted k answer =>
    obtain ⟨h, found, moved⟩ := Option.bind_eq_some_iff.mp moved
    split at moved
    next _ hello waits _ =>
      cases moved
      unfold admitAgent
      split
      · refine slots.turn found rfl rfl rfl rfl rfl ?_ ?_ ?_ ?_
        all_goals simp [waits, HandshakePhase.holdsControl, HandshakePhase.holdsAuth, setPhase, releaseAuth]
      · refine slots.fail found _ rfl rfl rfl rfl ?_ ?_ ?_ ?_
        all_goals simp [waits, HandshakePhase.holdsControl, HandshakePhase.holdsAuth, releaseAuth]
      · split
        · refine slots.turn found rfl rfl rfl rfl rfl ?_ ?_ ?_ ?_
          all_goals simp [waits, HandshakePhase.holdsControl, HandshakePhase.holdsAuth, setPhase, releaseAuth]
        next server stepped =>
          -- the slot comes back first, and the admission begins no call
          have freed : (p.releaseAuth.setPhase k (.serving p.releaseAuth.server.connections.length)).Slots := by
            refine slots.turn found rfl rfl rfl rfl rfl ?_ ?_ ?_ ?_
            all_goals simp [waits, HandshakePhase.holdsControl, HandshakePhase.holdsAuth, setPhase, releaseAuth]
          have balance : server.calls = p.server.calls := Server.calls_step slots.relay stepped
          refine freed.aside rfl rfl (slots.relay.step stepped) rfl rfl ?_ ?_
          all_goals simp [balance, setPhase, releaseAuth]
    · cases moved
  | pollWake =>
    simp only [ControlPort.step] at moved
    split at moved
    next sleeps =>
      cases moved
      refine slots.aside rfl rfl slots.relay rfl rfl ?_ ?_
      · rw [sleeps]
        rfl
      · rw [sleeps]
        rfl
    · cases moved
  | pollAcquired granted =>
    simp only [ControlPort.step] at moved
    split at moved
    next waits =>
      split at moved
      · split at moved
        · cases moved
        next free =>
          cases moved
          have one : p.authSem - 1 + 1 = p.authSem := Nat.sub_add_cancel (Nat.pos_of_ne_zero free)
          refine slots.aside rfl rfl slots.relay rfl rfl ?_ ?_
          · simp only [takeAuth, waits]
            change p.authSem - 1 + (p.server.calls + 1) = p.authSem + (p.server.calls + 0)
            omega
          · simp only [takeAuth, waits]
            change p.authInFlight + 1 + ((p.server.calls : Int) + 0) =
              p.authInFlight + ((p.server.calls : Int) + 1)
            omega
      · cases moved
        refine slots.aside rfl rfl slots.relay rfl rfl ?_ ?_
        · simp only [authBusy, waits]
          rfl
        · simp only [authBusy, waits]
          rfl
    · cases moved
  | polled answer =>
    simp only [ControlPort.step] at moved
    split at moved
    next calls =>
      have freed : ({ p.releaseAuth with poll := .sleeping } : ControlPort).Slots := by
        refine slots.aside rfl rfl slots.relay rfl rfl ?_ ?_
        · simp only [releaseAuth, calls]
          change p.authSem + 1 + (p.server.calls + 0) = p.authSem + (p.server.calls + 1)
          omega
        · simp only [releaseAuth, calls]
          change p.authInFlight - 1 + ((p.server.calls : Int) + 1) =
            p.authInFlight + ((p.server.calls : Int) + 0)
          omega
      split at moved
      · cases moved
        exact freed.aside rfl rfl freed.relay rfl rfl rfl rfl
      · cases moved
        exact freed
      next _ update _ =>
        cases moved
        have same : (p.server.applyPolicyUpdate update).2.works = p.server.works :=
          Server.works_undisturbed (Server.undisturbed_applyPolicyUpdate p.server update)
        have calls : (p.server.applyPolicyUpdate update).2.calls = p.server.calls := by
          rw [Server.calls, same, Server.calls]
        refine freed.aside rfl rfl ?_ rfl rfl ?_ ?_
        · unfold Server.TasksRan
          exact same ▸ slots.relay
        · simp only [releaseAuth, calls]
        · simp only [releaseAuth, calls]
    · cases moved
  | server a =>
    simp only [ControlPort.step] at moved
    split at moved
    · cases moved
    · exact slots.relay_step moved

/-- The handshake of `askingAgent` up to the admission, with a lease of a minute. -/
def letIn : List Action :=
  [.connect (some (.ipv4 1)), .acquired 0 true, .received 0 (some (overWire askingAgent.hello)),
    .authAcquired 0 true, .admitted 0 (some (Server.plainAdmission "a" "first" 1 (.datetime ⟨60, true⟩)))]

/-- Its lease is renewed while another agent is at its token check. -/
def bothCalls : List Action :=
  letIn ++ (Server.setUp 0).map .server ++
    [.server (.renewHead 0), .server (.clock 39 39), .server (.renewWake 0), .server (.renewAcquired 0 true),
      .connect (some (.ipv4 2)), .acquired 1 true, .received 1 (some (overWire askingAgent.hello)),
      .authAcquired 1 true]

end ControlPort

end Chute
