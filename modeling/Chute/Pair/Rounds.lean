import Chute.Mux.Moves
import Chute.Pair.Simulation

/-!
# Runs put together from rounds

What the steps of an undisturbed pair come to. A round leaves the connection as it
found it but for the stream it opens, so any number of rounds can follow each other.
-/
namespace Chute

namespace Pair

/-- A local step that goes through. -/
theorem exists_step_act {p : Pair} {x : Side} {env : Env} {a : Chute.Action} {e : Effect}
    (stepped : ((p.mux x).host env).step a = some e) (notMessage : a.isMessage = false) :
    ∃ p', p.step (.act x env a) = some p' ∧ p'.mux x = e.host.mux ∧
      p'.mux x.other = p.mux x.other ∧ p'.wire x = p.wire x ++ e.out ∧
      p'.wire x.other = p.wire x.other := by
  refine ⟨_, by simp only [step, notMessage, stepped, Option.map_some]; rfl, ?_⟩
  simp

/-- A delivery that goes through. -/
theorem exists_step_deliver {p : Pair} {x : Side} {env : Env} {f : Frame} {rest : List Frame}
    {e : Effect} (arriving : p.wire x.other = f :: rest)
    (stepped : ((p.mux x).host env).step (.message (.binary f.message)) = some e) :
    ∃ p', p.step (.deliver x env) = some p' ∧ p'.mux x = e.host.mux ∧
      p'.mux x.other = p.mux x.other ∧ p'.wire x.other = rest ∧ p'.wire x = p.wire x := by
  refine ⟨_, by simp only [step, arriving, stepped, Option.map_some]; rfl, ?_⟩
  simp

/-- No other connection of the account, and no limit. -/
def free : Env := ⟨0, none⟩

/-- The id of the `n`th stream. -/
def nth (n : Nat) : Ref := ⟨UInt32.ofNat n, 0⟩

/-- The `n`th stream is opened. -/
def openRound (n : Nat) : List Action :=
  [.act .server free (.openStream true), .act .server free (.openReturn (nth n)),
    .deliver .agent free]

/-- `n` ids were used, `active` streams are open at both ends, and nothing is on its
way. -/
structure Steady (S : Setup) (p : Pair) (n active : Nat) : Prop where
  wired : p.Wired S
  nextId : (p.mux .server).nextId = n + 1
  settled : ∀ x, (p.mux x).opening = []
  steady : ∀ x, (p.mux x).draining = false
  active : ∀ x, (p.mux x).activeStreams = active
  running : ∀ x, (p.mux x).running = true
  quiet : ∀ x, p.wire x = []

theorem steady_new (S : Setup) : (new S).Steady S 0 0 := by
  refine ⟨wired_new S, ?_, ?_, ?_, ?_, ?_, ?_⟩ <;>
    simp [new, Mux.new, Mux.draining, Mux.activeStreams]

/-- An id that was never used is not registered. -/
theorem notMem_of_unmade {m : Mux} (acc : m.Accounted) {sid : StreamId} (unmade : m.made sid = 0) :
    sid ∉ m.streams := by
  rw [← AList.lookup_eq_none]
  by_contra registered
  obtain ⟨gen, entry⟩ := Option.ne_none_iff_exists'.mp registered
  obtain ⟨s, found, -⟩ := (acc.registry ⟨sid, gen⟩).mp entry
  have := (acc.fresh _ s found).1
  simp only at this
  omega

/-- Opening one more stream: both ends get a new object, and the agent's counters stay
as they were. -/
theorem Steady.openRound {S : Setup} {p : Pair} {n active : Nat} (steady : p.Steady S n active)
    (some_room : ∀ x, active < S.maxStreams x) (small : n < 0xFFFFFFFF) :
    ∃ p', Transition.run step p (openRound (n + 1)) = some p' ∧ p'.Steady S (n + 1) (active + 1) ∧
      (∀ x, (p'.mux x).heap (nth (n + 1)) = some (Stream.new (S.config x))) ∧
      (p'.mux .agent).buffered = (p.mux .agent).buffered ∧
      (p'.mux .agent).frames = (p.mux .agent).frames ∧
      (p'.mux .agent).stats.ignoredFrames = (p.mux .agent).stats.ignoredFrames := by
  have wired := steady.wired
  have config := wired.config
  obtain ⟨unmade, nonzero⟩ := wired.unheard (by rw [steady.nextId]; omega)
  rw [steady.nextId] at unmade nonzero
  have roomy : ∀ x, (p.mux x).activeStreams < (p.mux x).config.maxStreams := by
    intro x
    rw [steady.active, config]
    exact some_room x
  obtain ⟨p₁, moved₁, server₁, agent₁, wire₁, back₁⟩ := exists_step_act
    (Host.step_openStream_of_room (h := (p.mux .server).host free)
      (by show (p.mux .server).config.acceptsOpen = false; rw [config]; rfl)
      (steady.steady .server) (roomy .server)
      (by show (p.mux .server).nextId ≤ _; rw [steady.nextId]; omega)) rfl
  obtain ⟨p₂, moved₂, server₂, agent₂, wire₂, back₂⟩ := exists_step_act
    (Host.step_openReturn_of_opening (h := (p₁.mux .server).host free) (r := nth (n + 1)) (by
      show (p₁.mux .server).opening = _
      rw [server₁]
      show (p.mux .server).opening ++ [_] = _
      rw [steady.settled]
      simp only [Mux.host, steady.nextId, unmade]
      rfl)) rfl
  have server₂' : p₂.mux .server = { Host.opened (p.mux .server) true with
      opening := []
      stats := { (p.mux .server).stats with opened := (p.mux .server).stats.opened + 1 } } := by
    rw [server₂]
    simp only [Host.mux_updateMux, Mux.host, server₁]
    rfl
  have agent : p₂.mux .agent = p.mux .agent := agent₂.trans agent₁
  have wire : p₂.wire .server = [⟨.open_, UInt32.ofNat (n + 1), []⟩] := by
    rw [wire₂, wire₁, steady.quiet]
    simp only [Mux.host, steady.nextId]
    rfl
  have back : p₂.wire .agent = [] := back₂.trans (back₁.trans (steady.quiet .agent))
  have wired₂ := (wired.step moved₁).step moved₂
  have unmade' : (p.mux .agent).made (UInt32.ofNat (n + 1)) = 0 := by
    have opens := wired.opens (UInt32.ofNat (n + 1))
    omega
  have new := notMem_of_unmade (wired.accounted .agent) unmade'
  have new' := notMem_of_unmade (wired.accounted .server) unmade
  obtain ⟨p₃, moved₃, agent₃, server₃, wire₃, back₃⟩ := exists_step_deliver (x := .agent) wire
    (Host.step_open_of_room (h := (p₂.mux .agent).host free)
      (by rw [agent]; exact steady.running .agent) nonzero
      (by rw [agent]; show (p.mux .agent).config.acceptsOpen = true; rw [config]; rfl)
      (by rw [agent]; exact steady.steady .agent)
      (by
        rw [agent]
        show (p.mux .agent).registered _ = none
        simp [Mux.registered, AList.lookup_eq_none.mpr new])
      (by rw [agent]; exact roomy .agent))
  have server : p₃.mux .server = p₂.mux .server := server₃
  refine ⟨p₃, ?_, ⟨wired₂.step moved₃, ?_, ?_, ?_, ?_, ?_, ?_⟩, ?_, ?_, ?_, ?_⟩
  · simp only [Pair.openRound, Transition.run, moved₁, moved₂, moved₃, Option.bind_some]
  · rw [server, server₂']
    show (p.mux .server).nextId + 1 = _
    rw [steady.nextId]
  · intro x
    cases x with
    | server => rw [server, server₂']
    | agent => rw [agent₃, agent]; exact steady.settled .agent
  · intro x
    cases x with
    | server => rw [server, server₂']; exact steady.steady .server
    | agent => rw [agent₃, agent]; exact steady.steady .agent
  · intro x
    cases x with
    | server =>
      rw [server, server₂']
      show ((p.mux .server).streams.insert _ _).entries.length = _
      rw [steady.nextId, AList.length_insert _ new']
      exact congrArg (· + 1) (steady.active .server)
    | agent =>
      rw [agent₃, agent]
      show ((p.mux .agent).streams.insert _ _).entries.length = _
      rw [AList.length_insert _ new]
      exact congrArg (· + 1) (steady.active .agent)
  · intro x
    cases x with
    | server => rw [server, server₂']; exact steady.running .server
    | agent => rw [agent₃, agent]; exact steady.running .agent
  · intro x
    cases x with
    | server => exact wire₃
    | agent => exact back₃.trans back
  · intro x
    cases x with
    | server =>
      rw [server, server₂', ← config .server]
      simp only [Host.opened, Mux.register, Mux.setStream, nth, steady.nextId, unmade]
      exact Function.update_self _ _ _
    | agent =>
      rw [agent₃, agent, ← config .agent]
      simp only [Host.mux_updateMux, Mux.host, Mux.register, Mux.setStream, nth, unmade']
      exact Function.update_self _ _ _
  · rw [agent₃, agent]; rfl
  · rw [agent₃, agent]; rfl
  · rw [agent₃, agent]; rfl

end Pair

end Chute
