import Chute.Lib.Transition
import Chute.Mux.Balance

/-!
# Graceful drain

`Mux.drain` announces GOAWAY and waits on `_idle` until no stream is left or its
deadline has passed. It races with the demultiplexer loop, with `open`, with teardowns
and with other drains of the same connection (a retired tunnel drains while the relay
shuts down). `Shutdown` is a connection with any number of drains and a clock.
-/
namespace Chute

/-! ### What a step of the connection does to its registry -/

/-- `_idle` is set whenever no stream is left. -/
def Mux.Quiet (m : Mux) : Prop := m.activeStreams = 0 → m.idle = true

/-- How a step can change the registry, the event and the two flags of a drain. -/
structure Winds (m m' : Mux) : Prop where
  goingAway : m.goingAway = true → m'.goingAway = true
  peerGoingAway : m.peerGoingAway = true → m'.peerGoingAway = true
  streams : m.draining = true → ∀ sid ∈ m'.streams, sid ∈ m.streams
  quiet : m.Quiet → m'.Quiet

theorem Winds.refl (m : Mux) : Winds m m := ⟨id, id, fun _ _ member => member, id⟩

theorem Winds.draining {m m' : Mux} (winds : Winds m m') (draining : m.draining = true) :
    m'.draining = true := by
  simp only [Mux.draining, Bool.or_eq_true] at draining ⊢
  exact draining.imp winds.goingAway winds.peerGoingAway

theorem Winds.trans {m n k : Mux} (first : Winds m n) (second : Winds n k) : Winds m k :=
  ⟨fun away => second.goingAway (first.goingAway away),
    fun away => second.peerGoingAway (first.peerGoingAway away),
    fun draining sid member =>
      first.streams draining sid (second.streams (first.draining draining) sid member),
    fun quiet => second.quiet (first.quiet quiet)⟩

/-- A step that leaves the registry and the event alone. -/
theorem winds_of_same {m n : Mux} (goingAway : m.goingAway = true → n.goingAway = true)
    (peerGoingAway : m.peerGoingAway = true → n.peerGoingAway = true)
    (streams : n.streams = m.streams) (idle : n.idle = m.idle) : Winds m n := by
  refine ⟨goingAway, peerGoingAway, fun _ sid member => streams ▸ member, fun quiet => ?_⟩
  unfold Mux.Quiet Mux.activeStreams at quiet ⊢
  rw [streams, idle]
  exact quiet

namespace Host

variable {h : Host}

/-- `_remove` sets the event in the step that empties the registry. -/
theorem winds_closeLocal (h : Host) (r : Ref) (t : RecvState) :
    Winds h.mux (h.closeLocal r t).mux := by
  cases found : h.mux.heap r with
  | none => rw [closeLocal_none found]; exact .refl _
  | some s =>
    cases closed : s.closed with
    | true => rw [closeLocal_closed found closed]; exact .refl _
    | false =>
      rw [closeLocal_live found closed]
      refine ⟨id, id, fun _ sid member => (AList.mem_erase.mp member).2, fun quiet left => ?_⟩
      have empty : (h.mux.streams.erase r.sid).entries.isEmpty = true := by
        simpa [Mux.activeStreams, List.length_eq_zero_iff] using left
      simp [empty]

theorem winds_abortAll (h : Host) (entries : List (Sigma fun _ : StreamId => Nat)) :
    Winds h.mux (h.abortAll entries).mux := by
  induction entries generalizing h with
  | nil => exact .refl _
  | cons e entries ih =>
    rw [abortAll_cons]
    exact (winds_closeLocal h ⟨e.1, e.2⟩ .reset).trans (ih _)

/-- The `finally` of `run` aborts every stream, so the event is set when it clears the
registry. -/
theorem winds_finish {rest : Int} (booked : h.Booked rest) : Winds h.mux h.finish.mux := by
  have aborted := winds_abortAll h h.mux.streams.entries
  have empty := streams_abortAll booked
  rw [finish_eq]
  refine ⟨aborted.goingAway, aborted.peerGoingAway, ?_, fun quiet _ => ?_⟩
  · intro draining sid member
    exact absurd member (AList.notMem_empty sid)
  · refine aborted.quiet quiet ?_
    simp [Mux.activeStreams, empty]

theorem winds_ignoreFrame {rest : Int} (booked : h.Booked rest) :
    Winds h.mux h.ignoreFrame.mux := by
  unfold ignoreFrame
  simp only
  split
  · exact winds_of_same id id rfl rfl
  · refine Winds.trans (n := (h.updateMux fun m => { m with
      stats := _, transportAborted := true }).mux) (winds_of_same id id rfl rfl)
      (winds_finish (?_ : Host.Booked _ rest))
    exact booked.congr rfl rfl rfl rfl rfl rfl rfl rfl

theorem winds_sendReset (m : Mux) (sid : StreamId) : Winds m (m.sendReset sid) := by
  unfold Mux.sendReset
  split
  · exact .refl _
  · split
    · exact .refl _
    · exact winds_of_same id id rfl rfl

theorem winds_resetLocalNow (h : Host) (r : Ref) : Winds h.mux (h.resetLocalNow r).1.mux := by
  have shut := winds_closeLocal h r .reset
  unfold resetLocalNow
  split
  · exact .refl _
  · simp only
    split
    · exact shut
    · exact shut.trans (winds_of_same id id rfl rfl)

theorem winds_reset (h : Host) (r : Ref) (sent : Bool) : Winds h.mux (h.reset r sent).host.mux := by
  have shut := winds_resetLocalNow h r
  unfold reset
  split
  next now reset => rw [reset] at shut; exact shut
  next now reset => rw [reset] at shut; exact shut

theorem winds_arrival {rest : Int} (booked : h.Booked rest) {f : Option Frame} {h' : Host}
    (arrival : Arrival h f h') : Winds h.mux h'.mux := by
  cases arrival with
  | ignored why => exact winds_ignoreFrame booked
  | refused sid payload nonzero responder why => exact winds_sendReset h.mux sid
  | accepted sid nonzero responder steady new room =>
    -- a stream is added only while nobody drains
    refine ⟨id, id, fun draining => ?_, fun _ none => ?_⟩
    · rw [steady] at draining
      cases draining
    · simp [Mux.activeStreams, Mux.register, Mux.setStream] at none
  | fed r s payload registered found accepting some_data h' admitted =>
    obtain ⟨mux, account⟩ := h'
    have same : mux = h.mux := admitted.mux
    subst same
    exact winds_of_same id id rfl rfl
  | malformed f r sid registered bad =>
    have shut := winds_resetLocalNow h r
    unfold resetMalformed
    split
    next now reset => rw [reset] at shut; exact shut.trans (winds_sendReset now.mux r.sid)
    next now reset => rw [reset] at shut; exact shut
  | aborted r payload registered =>
    exact Winds.trans (n := (h.updateMux _).mux) (winds_of_same id id rfl rfl)
      (winds_closeLocal (h.updateMux _) r .reset)
  | goaway first => exact winds_of_same id (fun _ => rfl) rfl rfl
  | _ => exact winds_of_same id id rfl rfl

/-- **No step adds a stream while somebody drains, takes back a GOAWAY, or empties the
registry without setting the event.** -/
theorem winds_step {rest : Int} (booked : h.Booked rest) {a : Action} {e : Effect}
    (moved : h.step a = some e) : Winds h.mux e.host.mux := by
  cases a with
  | message msg => exact winds_arrival booked (step_message booked.mux moved).2.1
  | connectionLost =>
    simp only [Host.step] at moved
    split at moved
    · cases moved; exact winds_finish booked
    · cases moved
  | openStream sent =>
    simp only [Host.step] at moved
    split at moved
    · cases moved
    · cases moved
      unfold Host.openStream
      simp only
      split
      · exact .refl _
      next able =>
        simp only [not_or] at able
        refine ⟨id, id, fun draining => absurd draining able.1, fun _ none => ?_⟩
        simp [Mux.activeStreams, Mux.register, Mux.setStream] at none
  | openReturn r =>
    simp only [Host.step] at moved
    split at moved
    · cases moved; exact winds_of_same id id rfl rfl
    · cases moved
  | openRaise r =>
    simp only [Host.step] at moved
    split at moved
    · cases moved
      exact Winds.trans (n := (h.updateMux _).mux) (winds_of_same id id rfl rfl)
        (winds_closeLocal (h.updateMux _) r .eof)
    · cases moved
  | send r data sent =>
    obtain ⟨s, held, moved⟩ := Option.bind_eq_some_iff.mp moved
    split at moved
    · cases moved; exact winds_of_same id id rfl rfl
    · cases moved
  | sendEof r sent =>
    obtain ⟨s, held, moved⟩ := Option.bind_eq_some_iff.mp moved
    split at moved
    · cases moved
      unfold Host.sendEof
      split
      · exact .refl _
      · exact winds_of_same id id rfl rfl
    · cases moved
  | sendResume r sent =>
    obtain ⟨s, held, moved⟩ := Option.bind_eq_some_iff.mp moved
    unfold Host.sendResume at moved
    repeat' split at moved
    all_goals cases moved
    all_goals exact winds_of_same id id rfl rfl
  | sendTimeout r =>
    obtain ⟨s, held, moved⟩ := Option.bind_eq_some_iff.mp moved
    unfold Host.sendTimeout at moved
    split at moved
    · cases moved; exact winds_of_same id id rfl rfl
    · cases moved
  | sendRaise r =>
    obtain ⟨s, held, moved⟩ := Option.bind_eq_some_iff.mp moved
    unfold Host.sendRaise at moved
    split at moved
    · cases moved
    · cases moved; exact winds_of_same id id rfl rfl
  | read r =>
    obtain ⟨s, held, moved⟩ := Option.bind_eq_some_iff.mp moved
    unfold Host.read at moved
    repeat' split at moved
    all_goals cases moved
    · exact winds_of_same id id rfl rfl
    · exact winds_of_same id id rfl rfl
    · rw [mux_releaseBuffer]
      exact winds_of_same id id rfl rfl
  | ack r n sent =>
    obtain ⟨s, held, rfl⟩ := Option.map_eq_some_iff.mp moved
    unfold Host.ack
    repeat' split
    all_goals exact winds_of_same id id rfl rfl
  | reset r sent =>
    obtain ⟨s, held, rfl⟩ := Option.map_eq_some_iff.mp moved
    exact winds_reset h r sent
  | close r =>
    obtain ⟨s, held, rfl⟩ := Option.map_eq_some_iff.mp moved
    exact winds_closeLocal h r .eof
  | runTask t sent =>
    simp only [Host.step] at moved
    split at moved
    · cases moved
      unfold Host.runTask
      cases t with
      | reset r =>
        exact Winds.trans (n := (h.updateMux _).mux) (winds_of_same id id rfl rfl)
          (winds_reset (h.updateMux _) r sent)
      | sendOnce sid => exact winds_of_same id id rfl rfl
      | sendOnceSent sid => exact winds_of_same id id rfl rfl
    · cases moved
  | goaway sent => cases moved; exact winds_of_same (fun _ => rfl) id rfl rfl
  | rearmIdle =>
    simp only [Host.step] at moved
    split at moved
    · cases moved
    next some_left =>
      cases moved
      exact ⟨id, id, fun _ _ member => member, fun _ none => absurd none some_left⟩
  | writeStall => cases moved; exact winds_of_same id id rfl rfl
  | closeStall => cases moved; exact winds_of_same id id rfl rfl

end Host

/-! ### Drains -/

/-- A `drain` call between two `await`s. -/
inductive Drain
  /-- GOAWAY is with `_send`. -/
  | announcing (timeout : Int)
  /-- `wait_for` has been called and has not started `_idle.wait()` yet. -/
  | arming (deadline : Int)
  /-- In `_idle.wait()`; `woken` once the event was set since. -/
  | waiting (deadline : Int) (woken : Bool)
  /-- In `aclose`. -/
  | closing (deadline : Int)
  | over_
  deriving DecidableEq, Repr

/-- A connection, the clock of its event loop and the `drain` calls made so far. -/
structure Shutdown where
  mux : Mux
  now : Int
  drains : List Drain

namespace Shutdown

inductive Action
  /-- Anything else on this connection. -/
  | mux (env : Env) (a : Chute.Action)
  | tick (d : Nat)
  | drain (timeout : Int) (env : Env) (sent : Bool)
  /-- The GOAWAY was sent, or failed to. -/
  | announced (i : Nat)
  | arm (i : Nat)
  | wake (i : Nat)
  | timeUp (i : Nat)
  | cancel (i : Nat)
  /-- `aclose` is done, or took too long. -/
  | closed (i : Nat) (stalled : Bool)

def start (c : Config) (now : Int) : Shutdown := ⟨Mux.new c, now, []⟩

/-- Setting an event wakes whoever waits on it. -/
def notice (idle : Bool) : Drain → Drain
  | .waiting deadline woken => .waiting deadline (woken || idle)
  | d => d

/-- The head of the loop of `drain`, up to the next `await`. -/
def loopHead (p : Shutdown) (i : Nat) (deadline : Int) : Shutdown :=
  if p.mux.activeStreams = 0 then { p with drains := p.drains.set i (.closing deadline) }
  else
    let p := { p with mux := { p.mux with idle := false } }
    -- nothing can run between the clear and the second look at `_streams`
    if p.mux.activeStreams = 0 ∨ deadline - p.now ≤ 0 then
      { p with drains := p.drains.set i (.closing deadline) }
    else { p with drains := p.drains.set i (.arming deadline) }

def step (p : Shutdown) : Action → Option Shutdown
  | .mux env a =>
    -- only `drain` clears the event
    if a = .rearmIdle then none
    else (p.mux.step (env, a)).map fun m => { p with mux := m, drains := p.drains.map (notice m.idle) }
  | .tick d => some { p with now := p.now + d }
  | .drain timeout env sent =>
    (p.mux.step (env, .goaway sent)).map fun m =>
      { p with mux := m, drains := p.drains ++ [.announcing timeout] }
  | .announced i =>
    match p.drains[i]? with
    | some (.announcing timeout) => some (p.loopHead i (p.now + timeout))
    | _ => none
  | .arm i =>
    match p.drains[i]? with
    | some (.arming deadline) =>
      some { p with drains := p.drains.set i (.waiting deadline p.mux.idle) }
    | _ => none
  | .wake i =>
    match p.drains[i]? with
    | some (.waiting deadline true) => some (p.loopHead i deadline)
    | _ => none
  | .timeUp i =>
    match p.drains[i]? with
    | some (.arming deadline) => some (p.loopHead i deadline)
    | some (.waiting deadline _) => some (p.loopHead i deadline)
    | _ => none
  | .cancel i => (p.drains[i]?).map fun _ => { p with drains := p.drains.set i .over_ }
  | .closed i stalled =>
    match p.drains[i]? with
    | some (.closing _) =>
      let p := { p with drains := p.drains.set i .over_ }
      if stalled then (p.mux.step (⟨0, none⟩, .closeStall)).map fun m => { p with mux := m }
      else some p
    | _ => none

end Shutdown

/-- The drain waits for `_idle`. -/
def Drain.armed : Drain → Bool
  | .arming _ => true
  | .waiting _ _ => true
  | _ => false

namespace Shutdown

/-- Whoever waits for the event will see it set once no stream is left. -/
structure Alert (p : Shutdown) : Prop where
  accounted : p.mux.Accounted
  quiet : ∀ d ∈ p.drains, d.armed = true → p.mux.Quiet
  unwoken : ∀ deadline, .waiting deadline false ∈ p.drains → p.mux.idle = false

variable {p p' : Shutdown}

theorem armed_notice (idle : Bool) (d : Drain) : (notice idle d).armed = d.armed := by
  cases d <;> rfl

/-- Replacing one drain by one that does not wait. -/
theorem Alert.set (alert : p.Alert) (i : Nat) {d : Drain} (free : d.armed = false) :
    ({ p with drains := p.drains.set i d } : Shutdown).Alert := by
  refine ⟨alert.accounted, fun d' member armed => ?_, fun deadline member => ?_⟩
  · rcases List.mem_or_eq_of_mem_set member with old | rfl
    · exact alert.quiet d' old armed
    · rw [free] at armed
      cases armed
  · rcases List.mem_or_eq_of_mem_set member with old | rfl
    · exact alert.unwoken deadline old
    · cases free

theorem winds_loopHead (p : Shutdown) (i : Nat) (deadline : Int) :
    Winds p.mux (p.loopHead i deadline).mux := by
  unfold loopHead
  split
  · exact .refl _
  next some_left =>
    have cleared : Winds p.mux { p.mux with idle := false } :=
      ⟨id, id, fun _ _ member => member, fun _ none => absurd none some_left⟩
    simp only
    split
    · exact cleared
    · exact cleared

theorem Alert.loopHead (alert : p.Alert) (i : Nat) (deadline : Int) :
    (p.loopHead i deadline).Alert := by
  unfold Shutdown.loopHead
  split
  · exact alert.set i rfl
  next some_left =>
    -- the event is clear and a stream is left, so its removal will set the event again
    have accounted : ({ p.mux with idle := false } : Mux).Accounted :=
      alert.accounted.congr rfl rfl rfl rfl rfl rfl rfl
    have armed : ∀ drains : List Drain,
        ({ p with mux := { p.mux with idle := false }, drains := drains } : Shutdown).Alert :=
      fun drains => ⟨accounted, fun _ _ _ none => absurd none some_left, fun _ _ => rfl⟩
    simp only
    split
    · exact armed _
    · exact armed _

/-- What a step of a connection under drain can do. -/
inductive Moves (p : Shutdown) : Shutdown → Prop
  | mux (x : Env × Chute.Action) (m : Mux) (stepped : p.mux.step x = some m) :
      Moves p { p with mux := m, drains := p.drains.map (notice m.idle) }
  | tick (d : Nat) : Moves p { p with now := p.now + d }
  | drain (timeout : Int) :
      Moves p { p with
        mux := { p.mux with goingAway := true }, drains := p.drains ++ [.announcing timeout] }
  | head (i : Nat) (deadline : Int) : Moves p (p.loopHead i deadline)
  | arm (i : Nat) (deadline : Int) (here : p.drains[i]? = some (.arming deadline)) :
      Moves p { p with drains := p.drains.set i (.waiting deadline p.mux.idle) }
  | ended (i : Nat) : Moves p { p with drains := p.drains.set i .over_ }
  | stalled (i : Nat) (stats : Stats) :
      Moves p { p with
        mux := { p.mux with stats := stats, transportAborted := true }
        drains := p.drains.set i .over_ }

theorem moves_of_step {a : Action} (moved : p.step a = some p') : Moves p p' := by
  cases a with
  | mux env a =>
    simp only [step] at moved
    split at moved
    · cases moved
    · obtain ⟨m, stepped, rfl⟩ := Option.map_eq_some_iff.mp moved
      exact .mux (env, a) m stepped
  | tick d => cases moved; exact .tick d
  | drain timeout env sent => cases moved; exact .drain timeout
  | announced i =>
    simp only [step] at moved
    split at moved
    · cases moved; exact .head i _
    · cases moved
  | arm i =>
    simp only [step] at moved
    split at moved
    next deadline here => cases moved; exact .arm i deadline here
    · cases moved
  | wake i =>
    simp only [step] at moved
    split at moved
    · cases moved; exact .head i _
    · cases moved
  | timeUp i =>
    simp only [step] at moved
    split at moved
    · cases moved; exact .head i _
    · cases moved; exact .head i _
    · cases moved
  | cancel i =>
    obtain ⟨d, here, rfl⟩ := Option.map_eq_some_iff.mp moved
    exact .ended i
  | closed i stalled =>
    simp only [step] at moved
    split at moved
    · split at moved
      · cases moved; exact .stalled i _
      · cases moved; exact .ended i
    · cases moved

/-- **One step keeps every waiting drain alert, and winds the connection down.** -/
theorem Alert.moves (alert : p.Alert) (moves : Moves p p') : p'.Alert ∧ Winds p.mux p'.mux := by
  cases moves with
  | mux x m stepped =>
    obtain ⟨e, ran, rfl⟩ := Option.map_eq_some_iff.mp stepped
    have winds := Host.winds_step (alert.accounted.booked x.1) ran
    refine ⟨⟨((alert.accounted.booked x.1).step ran).mux, ?_, ?_⟩, winds⟩
    · intro d' member armed
      obtain ⟨d, old, rfl⟩ := List.mem_map.mp member
      exact winds.quiet (alert.quiet d old (by rwa [armed_notice] at armed))
    · intro deadline member
      -- a drain that is still not woken has not seen the event set in this step
      obtain ⟨d, old, same⟩ := List.mem_map.mp member
      cases d with
      | waiting deadline' woken =>
        simp only [notice, Drain.waiting.injEq, Bool.or_eq_false_iff] at same
        exact same.2.2
      | _ => simp [notice] at same
  | tick d => exact ⟨⟨alert.accounted, alert.quiet, alert.unwoken⟩, .refl _⟩
  | drain timeout =>
    have winds : Winds p.mux { p.mux with goingAway := true } :=
      winds_of_same (fun _ => rfl) id rfl rfl
    refine ⟨⟨alert.accounted.congr rfl rfl rfl rfl rfl rfl rfl, ?_, ?_⟩, winds⟩
    · intro d' member armed
      rcases List.mem_append.mp member with old | new
      · exact winds.quiet (alert.quiet d' old armed)
      · cases List.mem_singleton.mp new
        cases armed
    · intro deadline member
      rcases List.mem_append.mp member with old | new
      · exact alert.unwoken deadline old
      · cases List.mem_singleton.mp new
  | head i deadline => exact ⟨alert.loopHead i deadline, winds_loopHead p i deadline⟩
  | arm i deadline here =>
    have quiet := alert.quiet _ (List.mem_of_getElem? here) rfl
    refine ⟨⟨alert.accounted, fun _ _ _ => quiet, fun deadline' member => ?_⟩, .refl _⟩
    rcases List.mem_or_eq_of_mem_set member with old | new
    · exact alert.unwoken deadline' old
    · simp only [Drain.waiting.injEq] at new
      exact new.2.symm
  | ended i => exact ⟨alert.set i rfl, .refl _⟩
  | stalled i stats =>
    have freed := alert.set i (d := .over_) rfl
    have winds : Winds p.mux { p.mux with stats := stats, transportAborted := true } :=
      winds_of_same id id rfl rfl
    exact ⟨⟨alert.accounted.congr rfl rfl rfl rfl rfl rfl rfl,
      fun d' member armed => winds.quiet (freed.quiet d' member armed), freed.unwoken⟩, winds⟩

theorem Alert.run (alert : p.Alert) {as : List Action}
    (ran : Transition.run step p as = some p') : p'.Alert ∧ Winds p.mux p'.mux := by
  induction as generalizing p with
  | nil => cases ran; exact ⟨alert, .refl _⟩
  | cons a as ih =>
    obtain ⟨next, moved, rest⟩ := Transition.run_cons_iff.mp ran
    obtain ⟨alert', first⟩ := alert.moves (moves_of_step moved)
    obtain ⟨alert'', second⟩ := ih alert' rest
    exact ⟨alert'', first.trans second⟩

theorem alert_start (c : Config) (now : Int) : (start c now).Alert :=
  ⟨Mux.accounted_new c, by simp [start], by simp [start]⟩

/-! ### When a drain closes the connection -/

/-- The drain `i` starts closing the connection. -/
def Starts (p p' : Shutdown) (i : Nat) (deadline : Int) : Prop :=
  p'.drains[i]? = some (.closing deadline) ∧ ∀ other, p.drains[i]? ≠ some (.closing other)

theorem drains_loopHead (p : Shutdown) (i : Nat) (deadline : Int) :
    (p.loopHead i deadline).drains = p.drains.set i (.arming deadline) ∨
      (p.loopHead i deadline).drains = p.drains.set i (.closing deadline) ∧
        (p.mux.activeStreams = 0 ∨ deadline ≤ p.now) := by
  unfold loopHead
  split
  next none => exact Or.inr ⟨rfl, Or.inl none⟩
  next some_left =>
    simp only
    split
    next late =>
      refine Or.inr ⟨rfl, ?_⟩
      rcases late with none | late
      · exact Or.inl none
      · exact Or.inr (by omega)
    · exact Or.inl rfl

/-- Replacing one entry starts no other drain closing. -/
theorem not_starts_of_set {i j : Nat} {d : Drain} {deadline : Int}
    (starts : Starts p p' j deadline) (drains : p'.drains = p.drains.set i d) :
    j = i ∧ d = .closing deadline := by
  obtain ⟨now, before⟩ := starts
  rw [drains, List.getElem?_set] at now
  split at now
  next same =>
    split at now
    · exact ⟨same.symm, Option.some.inj now⟩
    · cases now
  · exact absurd now (before deadline)

/-- A drain starts closing only at the head of its loop. -/
theorem starts_of_moves {i : Nat} {deadline : Int} (moves : Moves p p')
    (starts : Starts p p' i deadline) : p.mux.activeStreams = 0 ∨ deadline ≤ p.now := by
  cases moves with
  | mux x m stepped =>
    obtain ⟨now, before⟩ := starts
    rw [List.getElem?_map] at now
    obtain ⟨d, here, same⟩ := Option.map_eq_some_iff.mp now
    cases d with
    | closing other => exact absurd here (before other)
    | _ => simp [notice] at same
  | tick d => exact absurd starts.1 (starts.2 deadline)
  | drain timeout =>
    obtain ⟨now, before⟩ := starts
    rw [List.getElem?_append] at now
    split at now
    · exact absurd now (before deadline)
    · -- The entry that `drain` appends is still sending its GOAWAY.
      have new := List.mem_of_getElem? now
      simp at new
  | head j deadline' =>
    rcases drains_loopHead p j deadline' with armed | ⟨closing, why⟩
    · cases (not_starts_of_set starts armed).2
    · cases (not_starts_of_set starts closing).2
      exact why
  | arm j deadline' here => cases (not_starts_of_set starts rfl).2
  | ended j => cases (not_starts_of_set starts rfl).2
  | stalled j stats => cases (not_starts_of_set starts rfl).2

/-- **Drain is safe.** At every point `p` of every run and for every continuation to `p'`:
GOAWAY flags stay set and no id enters the registry behind them; a drain that starts
closing the connection before its deadline does so with no stream left; and a drain
does not wait on an unset event while no stream is left. -/
theorem drain_safe_of_run {c : Config} {now : Int} {as bs : List Action}
    (ran : Transition.run step (start c now) as = some p)
    (more : Transition.run step p bs = some p') :
    (p.mux.goingAway = true → p'.mux.goingAway = true) ∧
      (p.mux.peerGoingAway = true → p'.mux.peerGoingAway = true) ∧
      (p.mux.draining = true → ∀ sid ∈ p'.mux.streams, sid ∈ p.mux.streams) ∧
      (∀ a q i deadline, p.step a = some q → Starts p q i deadline → p.now < deadline →
        p.mux.activeStreams = 0) ∧
      (p.mux.activeStreams = 0 → ∀ d ∈ p.drains, d.armed = true →
        p.mux.idle = true ∧ ∀ deadline, d ≠ .waiting deadline false) := by
  obtain ⟨alert, -⟩ := (alert_start c now).run ran
  obtain ⟨-, winds⟩ := alert.run more
  refine ⟨winds.goingAway, winds.peerGoingAway, winds.streams, ?_, ?_⟩
  · intro a q i deadline moved starts early
    rcases starts_of_moves (moves_of_step moved) starts with none | late
    · exact none
    · omega
  · intro none d member armed
    have set := alert.quiet d member armed none
    refine ⟨set, ?_⟩
    rintro deadline rfl
    have unset := alert.unwoken deadline member
    rw [set] at unset
    cases unset

/-- A drain waits for the one stream that is left; its reset sets the event and wakes
the drain, which then closes the connection. -/
def lastStream : List Action × List Action :=
  let env : Env := ⟨0, none⟩
  ([.mux env (.openStream true), .mux env (.openReturn ⟨1, 0⟩), .drain 5 env true, .announced 0,
      .arm 0],
    [.tick 2, .mux env (.reset ⟨1, 0⟩ true), .wake 0, .closed 0 false])

theorem drain_safe_after_last_stream : ∃ p p',
    Transition.run step (start (.server ⟨2, by decide, by decide⟩) 0) lastStream.1 = some p ∧
      Transition.run step p lastStream.2 = some p' ∧
      (p.mux.goingAway = true → p'.mux.goingAway = true) ∧
      (p.mux.peerGoingAway = true → p'.mux.peerGoingAway = true) ∧
      (p.mux.draining = true → ∀ sid ∈ p'.mux.streams, sid ∈ p.mux.streams) ∧
      (∀ a q i deadline, p.step a = some q → Starts p q i deadline → p.now < deadline →
        p.mux.activeStreams = 0) ∧
      (p.mux.activeStreams = 0 → ∀ d ∈ p.drains, d.armed = true →
        p.mux.idle = true ∧ ∀ deadline, d ≠ .waiting deadline false) := by
  have both : ((Transition.run step (start (.server ⟨2, by decide, by decide⟩) 0) lastStream.1).bind
      fun p => Transition.run step p lastStream.2).isSome := by decide
  obtain ⟨p', ran⟩ := Option.isSome_iff_exists.mp both
  obtain ⟨p, first, second⟩ := Option.bind_eq_some_iff.mp ran
  exact ⟨p, p', first, second, drain_safe_of_run first second⟩

end Shutdown

end Chute
