import Chute.Mux.Steps

/-!
# What a step leaves alone and what it sends
-/
namespace Chute

/-- Steps other than arrivals, openings and the loss of the connection. -/
def Action.isLocal : Action → Bool
  | .message _ => false
  | .connectionLost => false
  | .openStream _ => false
  | _ => true

namespace Host

/-! ### What local steps leave alone -/

/-- The parts of a connection that only arrivals, openings and its loss move. -/
structure Local (m m' : Mux) : Prop where
  config : m'.config = m.config
  ignoredFrames : m'.stats.ignoredFrames = m.stats.ignoredFrames
  aborted : m'.transportAborted = false → m.transportAborted = false
  running : m'.running = m.running
  peerGoingAway : m'.peerGoingAway = m.peerGoingAway
  made : m'.made = m.made
  nextId : m'.nextId = m.nextId
  tasks : ∀ t ∈ m'.tasks, t ∈ m.tasks ∨ ∃ sid, t = .sendOnceSent sid ∧ .sendOnce sid ∈ m.tasks

theorem Local.refl (m : Mux) : Local m m :=
  ⟨rfl, rfl, id, rfl, rfl, rfl, rfl, fun _ member => Or.inl member⟩

theorem Kept.local {m m' : Mux} (kept : Kept m m') : Local m m' :=
  ⟨kept.config, by rw [kept.stats], by rw [kept.transportAborted]; exact id, kept.running,
    kept.peerGoingAway, kept.made, kept.nextId, by rw [kept.tasks]; exact fun _ member => Or.inl member⟩

theorem local_reset (h : Host) (r : Ref) (sent : Bool) : Local h.mux (h.reset r sent).host.mux := by
  have kept := (kept_closeLocal h r .reset).local
  unfold reset resetLocalNow
  cases h.mux.heap r with
  | none => exact .refl _
  | some s =>
    simp only
    cases s.closed
    · exact ⟨kept.config, kept.ignoredFrames, kept.aborted, kept.running, kept.peerGoingAway,
        kept.made, kept.nextId, kept.tasks⟩
    · exact kept

theorem step_local {h : Host} {a : Action} {e : Effect} (moved : h.step a = some e)
    (here : a.isLocal = true) : Local h.mux e.host.mux := by
  cases a with
  | message msg => cases here
  | connectionLost => cases here
  | openStream sent => cases here
  | openReturn r =>
    simp only [Host.step] at moved
    split at moved
    · cases moved; exact ⟨rfl, rfl, id, rfl, rfl, rfl, rfl, fun _ member => Or.inl member⟩
    · cases moved
  | openRaise r =>
    simp only [Host.step] at moved
    split at moved
    · cases moved
      have kept := (kept_closeLocal (h.updateMux fun m =>
        { m with opening := m.opening.filter fun e => e.1 != r }) r .eof).local
      exact ⟨kept.config, kept.ignoredFrames, kept.aborted, kept.running, kept.peerGoingAway,
        kept.made, kept.nextId, kept.tasks⟩
    · cases moved
  | send r data sent =>
    obtain ⟨s, held, moved⟩ := Option.bind_eq_some_iff.mp moved
    split at moved
    · cases moved; exact ⟨rfl, rfl, id, rfl, rfl, rfl, rfl, fun _ member => Or.inl member⟩
    · cases moved
  | sendEof r sent =>
    obtain ⟨s, held, moved⟩ := Option.bind_eq_some_iff.mp moved
    split at moved
    · cases moved
      unfold sendEof
      split
      · exact .refl _
      · exact ⟨rfl, rfl, id, rfl, rfl, rfl, rfl, fun _ member => Or.inl member⟩
    · cases moved
  | sendResume r sent =>
    obtain ⟨s, held, moved⟩ := Option.bind_eq_some_iff.mp moved
    unfold sendResume at moved
    repeat' split at moved
    all_goals cases moved
    all_goals exact ⟨rfl, rfl, id, rfl, rfl, rfl, rfl, fun _ member => Or.inl member⟩
  | sendTimeout r =>
    obtain ⟨s, held, moved⟩ := Option.bind_eq_some_iff.mp moved
    unfold sendTimeout at moved
    split at moved
    · cases moved; exact ⟨rfl, rfl, id, rfl, rfl, rfl, rfl, fun _ member => Or.inl member⟩
    · cases moved
  | sendRaise r =>
    obtain ⟨s, held, moved⟩ := Option.bind_eq_some_iff.mp moved
    unfold sendRaise at moved
    split at moved
    · cases moved
    · cases moved; exact ⟨rfl, rfl, id, rfl, rfl, rfl, rfl, fun _ member => Or.inl member⟩
  | read r =>
    obtain ⟨s, held, moved⟩ := Option.bind_eq_some_iff.mp moved
    unfold Host.read at moved
    repeat' split at moved
    all_goals cases moved
    · exact ⟨rfl, rfl, id, rfl, rfl, rfl, rfl, fun _ member => Or.inl member⟩
    · exact ⟨rfl, rfl, id, rfl, rfl, rfl, rfl, fun _ member => Or.inl member⟩
    · rw [mux_releaseBuffer]
      exact ⟨rfl, rfl, id, rfl, rfl, rfl, rfl, fun _ member => Or.inl member⟩
  | ack r n sent =>
    obtain ⟨s, held, rfl⟩ := Option.map_eq_some_iff.mp moved
    unfold Host.ack
    repeat' split
    all_goals exact ⟨rfl, rfl, id, rfl, rfl, rfl, rfl, fun _ member => Or.inl member⟩
  | reset r sent =>
    obtain ⟨s, held, rfl⟩ := Option.map_eq_some_iff.mp moved
    exact local_reset h r sent
  | close r =>
    obtain ⟨s, held, rfl⟩ := Option.map_eq_some_iff.mp moved
    exact (kept_closeLocal h r .eof).local
  | runTask t sent =>
    simp only [Host.step] at moved
    split at moved
    next inside =>
      cases moved
      unfold runTask
      cases t with
      | reset r =>
        have after := local_reset (h.updateMux fun m =>
          { m with tasks := m.tasks.erase (.reset r) }) r sent
        refine ⟨after.config, after.ignoredFrames, after.aborted, after.running,
          after.peerGoingAway, after.made, after.nextId, fun t member => ?_⟩
        rcases after.tasks t member with old | ⟨sid, rfl, old⟩
        · exact Or.inl (List.mem_of_mem_erase old)
        · exact Or.inr ⟨sid, rfl, List.mem_of_mem_erase old⟩
      | sendOnce sid =>
        refine ⟨rfl, rfl, id, rfl, rfl, rfl, rfl, fun t member => ?_⟩
        rcases List.mem_append.mp member with old | new
        · exact Or.inl (List.mem_of_mem_erase old)
        · exact Or.inr ⟨sid, List.mem_singleton.mp new, inside⟩
      | sendOnceSent sid =>
        exact ⟨rfl, rfl, id, rfl, rfl, rfl, rfl, fun t member => Or.inl (List.mem_of_mem_erase member)⟩
    · cases moved
  | goaway sent => cases moved; exact ⟨rfl, rfl, id, rfl, rfl, rfl, rfl, fun _ member => Or.inl member⟩
  | rearmIdle =>
    simp only [Host.step] at moved
    split at moved
    · cases moved
    · cases moved; exact ⟨rfl, rfl, id, rfl, rfl, rfl, rfl, fun _ member => Or.inl member⟩
  | writeStall =>
    cases moved
    exact ⟨rfl, rfl, by simp, rfl, rfl, rfl, rfl, fun _ member => Or.inl member⟩
  | closeStall =>
    cases moved
    exact ⟨rfl, rfl, by simp, rfl, rfl, rfl, rfl, fun _ member => Or.inl member⟩

/-! ### Openings, arrivals and the end -/

/-- The multiplexer after `open` has allocated an id. -/
def opened (m : Mux) (sent : Bool) : Mux :=
  { m.register (UInt32.ofNat m.nextId) with
    nextId := m.nextId + 1
    opening := m.opening ++ [(⟨UInt32.ofNat m.nextId, m.made (UInt32.ofNat m.nextId)⟩, sent)] }

/-- `open` refuses, or it registers a stream under the next id. -/
theorem step_openStream {h : Host} {sent : Bool} {e : Effect}
    (moved : h.step (.openStream sent) = some e) :
    h.mux.config.acceptsOpen = false ∧
      (e.host = h ∧ e.out = [] ∨
        h.mux.nextId ≤ 0xFFFFFFFF ∧ e.host.mux = opened h.mux sent ∧
          e.out = emit sent .open_ (UInt32.ofNat h.mux.nextId) []) := by
  simp only [Host.step] at moved
  split at moved
  · cases moved
  next server =>
    cases moved
    refine ⟨by simpa using server, ?_⟩
    unfold openStream
    simp only
    split
    · exact Or.inl ⟨rfl, rfl⟩
    next able =>
      simp only [not_or] at able
      exact Or.inr ⟨by omega, rfl, rfl⟩

/-- What an arrival leaves alone, and the coroutines it can spawn. -/
structure Arrived (m : Mux) (f : Option Frame) (m' : Mux) : Prop where
  config : m'.config = m.config
  nextId : m'.nextId = m.nextId
  made : m'.made = m.made ∨ ∃ sid, f = some ⟨.open_, sid, []⟩ ∧ m.config.acceptsOpen = true ∧
    m'.made = Function.update m.made sid (m.made sid + 1) ∧
    m'.heap ⟨sid, m.made sid⟩ = some (Stream.new m.config)
  tasks : ∀ t ∈ m'.tasks, t ∈ m.tasks ∨ (∃ r s, t = .reset r ∧ m.heap r = some s) ∨
    ∃ g, f = some g ∧ t = .sendOnce g.sid ∧ g.sid ≠ 0 ∧ g.ftype ≠ .goaway

theorem arrived_of_same {m m' : Mux} (f : Option Frame) (config : m'.config = m.config)
    (nextId : m'.nextId = m.nextId) (made : m'.made = m.made) (tasks : m'.tasks = m.tasks) :
    Arrived m f m' :=
  ⟨config, nextId, Or.inl made, fun _ member => Or.inl (tasks ▸ member)⟩

theorem Kept.finish {h : Host} : h.finish.mux.config = h.mux.config ∧
    h.finish.mux.made = h.mux.made ∧ h.finish.mux.nextId = h.mux.nextId ∧
    h.finish.mux.stats = h.mux.stats ∧
    h.finish.mux.transportAborted = h.mux.transportAborted := by
  have kept := kept_abortAll h h.mux.streams.entries
  exact ⟨kept.config, kept.made, kept.nextId, kept.stats, kept.transportAborted⟩

theorem tasks_sendReset (m : Mux) (sid : StreamId) :
    (m.sendReset sid).tasks = m.tasks ∨ (m.sendReset sid).tasks = m.tasks ++ [.sendOnce sid] := by
  unfold Mux.sendReset
  split
  · exact Or.inl rfl
  · split
    · exact Or.inl rfl
    · exact Or.inr rfl

theorem kept_sendReset (m : Mux) (sid : StreamId) :
    (m.sendReset sid).config = m.config ∧ (m.sendReset sid).nextId = m.nextId ∧
      (m.sendReset sid).made = m.made := by
  unfold Mux.sendReset
  split
  · exact ⟨rfl, rfl, rfl⟩
  · split <;> exact ⟨rfl, rfl, rfl⟩

private theorem arrived_sendReset {m : Mux} {f : Frame} (nonzero : f.sid ≠ 0)
    (type : f.ftype ≠ .goaway) : Arrived m (some f) (m.sendReset f.sid) := by
  obtain ⟨config, nextId, made⟩ := kept_sendReset m f.sid
  refine ⟨config, nextId, Or.inl made, fun t member => ?_⟩
  rcases tasks_sendReset m f.sid with same | more
  · exact Or.inl (same ▸ member)
  · rw [more, List.mem_append, List.mem_singleton] at member
    rcases member with old | rfl
    · exact Or.inl old
    · exact Or.inr (Or.inr ⟨f, rfl, rfl, nonzero, type⟩)

/-- Every arrival is described. -/
theorem Arrival.arrived {h h' : Host} (acc : h.mux.Accounted) {f : Option Frame}
    (arrival : Arrival h f h') : Arrived h.mux f h'.mux := by
  cases arrival with
  | ignored why =>
    unfold ignoreFrame
    simp only
    split
    · exact arrived_of_same _ rfl rfl rfl rfl
    · obtain ⟨config, made, nextId, -⟩ := Kept.finish (h := h.updateMux _)
      exact ⟨config, nextId, Or.inl made, fun _ member => absurd member List.not_mem_nil⟩
  | refused sid payload nonzero responder why =>
    exact arrived_sendReset (f := ⟨.open_, sid, payload⟩) nonzero (by simp)
  | accepted sid nonzero responder steady new room =>
    refine ⟨rfl, rfl, Or.inr ⟨sid, rfl, responder, rfl, ?_⟩, fun _ member => Or.inl member⟩
    simp [Mux.register, Mux.setStream]
  | dropped r s payload registered found why => exact arrived_of_same _ rfl rfl rfl rfl
  | overflow r s payload registered found accepting some_data why refused =>
    refine ⟨rfl, rfl, Or.inl rfl, fun t member => ?_⟩
    rcases List.mem_append.mp member with old | new
    · exact Or.inl old
    · exact Or.inr (Or.inl ⟨r, s, List.mem_singleton.mp new, found⟩)
  | fed r s payload registered found accepting some_data h' admitted =>
    obtain ⟨mux, account⟩ := h'
    have same : mux = h.mux := admitted.mux
    subst same
    exact arrived_of_same _ rfl rfl rfl rfl
  | ended r s registered found => exact arrived_of_same _ rfl rfl rfl rfl
  | malformed f r sid registered bad =>
    obtain ⟨-, s, found, live⟩ := acc.registered registered
    have kept := kept_closeLocal h r .reset
    have nonzero : f.sid ≠ 0 := sid ▸ (acc.fresh r s found).2
    have type : f.ftype ≠ .goaway := by rcases bad with bad | bad <;> simp [bad.1]
    have spawned := arrived_sendReset (m := (h.resetLocalNow r).1.mux) nonzero type
    have shut : (h.resetLocalNow r).1.mux.config = h.mux.config ∧
        (h.resetLocalNow r).1.mux.nextId = h.mux.nextId ∧
        (h.resetLocalNow r).1.mux.made = h.mux.made ∧
        (h.resetLocalNow r).1.mux.tasks = h.mux.tasks := by
      simp only [resetLocalNow, found, live, Bool.false_eq_true, if_false]
      exact ⟨kept.config, kept.nextId, kept.made, kept.tasks⟩
    have flag : (h.resetLocalNow r).2 = true := by
      simp [resetLocalNow, found, live]
    have after : (h.resetMalformed r).mux = (h.resetLocalNow r).1.mux.sendReset f.sid := by
      unfold resetMalformed
      split
      next reset => rw [reset, sid]; rfl
      next reset => rw [reset] at flag; cases flag
    rw [after]
    obtain ⟨config, nextId, made, tasks⟩ := shut
    refine ⟨spawned.config.trans config, spawned.nextId.trans nextId, ?_, fun t member => ?_⟩
    · exact Or.inl ((kept_sendReset _ f.sid).2.2.trans made)
    · rcases tasks_sendReset (h.resetLocalNow r).1.mux f.sid with same | more
      · exact Or.inl (tasks ▸ same ▸ member)
      · rw [more, List.mem_append, List.mem_singleton, tasks] at member
        rcases member with old | rfl
        · exact Or.inl old
        · exact Or.inr (Or.inr ⟨f, rfl, rfl, nonzero, type⟩)
  | granted r s payload delta registered found four unpacked nonzero =>
    exact arrived_of_same _ rfl rfl rfl rfl
  | aborted r payload registered =>
    have kept := kept_closeLocal (h.updateMux fun m =>
      { m with stats := { m.stats with resetPeer := m.stats.resetPeer + 1 } }) r .reset
    exact arrived_of_same _ kept.config kept.nextId kept.made kept.tasks
  | goaway first => exact arrived_of_same _ rfl rfl rfl rfl

/-! ### The configuration -/

theorem config_ignoreFrame (h : Host) : h.ignoreFrame.mux.config = h.mux.config := by
  unfold ignoreFrame
  simp only
  split
  · rfl
  · exact Kept.finish.1

theorem config_sendReset (m : Mux) (sid : StreamId) : (m.sendReset sid).config = m.config := by
  unfold Mux.sendReset
  split
  · rfl
  · split <;> rfl

theorem config_resetMalformed (h : Host) (r : Ref) : (h.resetMalformed r).mux.config = h.mux.config := by
  have closed := (kept_closeLocal h r .reset).config
  have reset : (h.resetLocalNow r).1.mux.config = h.mux.config := by
    unfold resetLocalNow
    split
    · rfl
    · simp only
      split <;> exact closed
  unfold resetMalformed
  split
  next again => rw [again] at reset; exact (config_sendReset _ _).trans reset
  next again => rw [again] at reset; exact reset

theorem config_feed (h : Host) (r : Ref) (s : Stream) (data : Bytes) :
    (h.feed r s data).mux.config = h.mux.config := by
  have limit := mux_feedLimit h s data
  unfold feed
  split
  · rfl
  · split
    · rfl
    · split
      next why h' reached =>
        rw [reached] at limit
        have config : h'.mux.config = h.mux.config := congrArg Mux.config limit
        exact config
      next h' passed =>
        rw [passed] at limit
        have config : h'.mux.config = h.mux.config := congrArg Mux.config limit
        exact config

theorem config_onMessage {h h' : Host} {msg : Message} (handled : h.onMessage msg = .ok h') :
    h'.mux.config = h.mux.config := by
  rw [onMessage_eq] at handled
  split at handled
  · cases handled
    exact config_ignoreFrame h
  next f carried =>
    split at handled
    · cases handled
      unfold onOpen
      repeat' split
      all_goals first | exact config_ignoreFrame h | exact config_sendReset _ _ | rfl
    · cases handled
      unfold onData
      repeat' split
      all_goals first | exact config_ignoreFrame h | rfl | exact config_feed _ _ _ _
    · cases handled
      unfold onEof
      repeat' split
      all_goals first | exact config_ignoreFrame h | exact config_resetMalformed _ _ | rfl
    · unfold onWindowUpdate at handled
      repeat' split at handled
      all_goals cases handled
      all_goals first | exact config_ignoreFrame h | exact config_resetMalformed _ _ | rfl
    · cases handled
      unfold onReset
      repeat' split
      all_goals first | exact config_ignoreFrame h | skip
      exact (kept_closeLocal _ _ _).config
    · cases handled
      unfold onGoaway
      repeat' split
      all_goals first | exact config_ignoreFrame h | rfl

/-- **A connection keeps its configuration.** -/
theorem config_step {h : Host} {a : Action} {e : Effect} (moved : h.step a = some e) : e.host.mux.config = h.mux.config := by
  cases here : a.isLocal with
  | true => exact (step_local moved here).config
  | false =>
    cases a with
    | message msg =>
      simp only [Host.step] at moved
      split at moved
      · split at moved
        next handled => cases moved; exact config_onMessage handled
        · cases moved
      · cases moved
    | connectionLost =>
      simp only [Host.step] at moved
      split at moved
      · cases moved; exact Kept.finish.1
      · cases moved
    | openStream sent =>
      rcases (step_openStream moved).2 with ⟨same, -⟩ | ⟨-, mux, -⟩
      · rw [same]
      · rw [mux]; rfl
    | _ => cases here

/-! ### Frames sent -/

/-- The frames a step hands to the connection. -/
inductive Emitted (h : Host) : Action → Frame → Prop
  | open_ (sent : Bool) : Emitted h (.openStream sent) ⟨.open_, UInt32.ofNat h.mux.nextId, []⟩
  | data {a : Action} (r : Ref) (s : Stream) (target : a.target = some r)
      (found : h.mux.heap r = some s) (chunk : Bytes) (some_data : chunk ≠ []) :
      Emitted h a ⟨.data, r.sid, chunk⟩
  | eof {a : Action} (r : Ref) (s : Stream) (target : a.target = some r)
      (found : h.mux.heap r = some s) : Emitted h a ⟨.eof, r.sid, []⟩
  | windowUpdate {a : Action} (r : Ref) (s : Stream) (target : a.target = some r)
      (found : h.mux.heap r = some s) (delta : UInt32) (nonzero : delta ≠ 0) :
      Emitted h a ⟨.windowUpdate, r.sid, packU32 delta⟩
  | reset {a : Action} (away : a.target = none) (r : Ref) (s : Stream)
      (found : h.mux.heap r = some s) : Emitted h a ⟨.reset, r.sid, []⟩
  | resetOnce (sid : StreamId) (sent : Bool) (task : .sendOnce sid ∈ h.mux.tasks) :
      Emitted h (.runTask (.sendOnce sid) sent) ⟨.reset, sid, []⟩
  | goaway (sent : Bool) : Emitted h (.goaway sent) ⟨.goaway, 0, []⟩

theorem mem_emit {sent : Bool} {t : FrameType} {sid : StreamId} {payload : Bytes} {f : Frame}
    (member : f ∈ emit sent t sid payload) : f = ⟨t, sid, payload⟩ := by
  unfold emit at member
  split at member
  · exact List.mem_singleton.mp member
  · cases member

theorem emitted_reset {h : Host} {a : Action} (away : a.target = none) {r : Ref} {sent : Bool}
    {f : Frame} {g : Host} (heap : g.mux.heap = h.mux.heap) (member : f ∈ (g.reset r sent).out) :
    Emitted h a f := by
  unfold Host.reset resetLocalNow at member
  cases found : g.mux.heap r with
  | none => simp [found] at member
  | some s =>
    cases closed : s.closed with
    | true => simp [found, closed] at member
    | false =>
      simp only [found, closed, Bool.false_eq_true, if_false] at member
      rw [mem_emit member]
      exact .reset away r s (by rw [← heap]; exact found)

/-- Every frame a step sends is described. -/
theorem step_out {h : Host} (acc : h.mux.Accounted) {a : Action} {e : Effect}
    (moved : h.step a = some e) {f : Frame} (member : f ∈ e.out) : Emitted h a f := by
  -- calls on a stream are covered by `Touch`
  have called : ∀ r, a.target = some r → ∀ s, h.mux.heap r = some s → Emitted h a f := by
    intro r target s found
    obtain ⟨t, -, touch⟩ := step_touch acc found moved
    generalize e.out = out at touch member
    generalize e.result = res at touch
    cases touch with
    | pass other => exact absurd target other
    | shut other => exact absurd target other
    | fed => cases target
    | overflow => cases target
    | ended => cases target
    | granted => cases target
    | started data sent o free going sends =>
      simp only [afterSend] at member
      split at member
      next chunk emitted =>
        rw [mem_emit member]
        exact .data r s target found chunk (sends.chunk emitted).1
      · cases member
    | resumed view sent o busy sends =>
      simp only [afterSend] at member
      split at member
      next chunk emitted =>
        rw [mem_emit member]
        exact .data r s target found chunk (sends.chunk emitted).1
      · cases member
    | eof sent free going =>
      rw [mem_emit member]
      exact .eof r s target found
    | ackFlush n sent live whole pos large =>
      by_cases fits : s.unacked + n < 2 ^ 32
      · rw [mem_emit member]
        refine .windowUpdate r s target found _ ?_
        intro zero
        have word := congrArg UInt32.toNat zero
        simp only [UInt32.toNat_ofNat'] at word
        rw [Nat.mod_eq_of_lt (by omega)] at word
        simp at word
        omega
      · rw [decide_eq_false fits, Bool.and_false] at member
        cases member
    | _ => cases member
  cases a with
  | message msg =>
    rw [(step_message acc moved).2.2] at member
    cases member
  | connectionLost =>
    simp only [Host.step] at moved
    split at moved
    · cases moved; cases member
    · cases moved
  | openStream sent =>
    rcases (step_openStream moved).2 with ⟨-, out⟩ | ⟨-, -, out⟩
    · rw [out] at member; cases member
    · rw [out] at member
      rw [mem_emit member]
      exact .open_ sent
  | openReturn r =>
    simp only [Host.step] at moved
    split at moved
    · cases moved; cases member
    · cases moved
  | openRaise r =>
    simp only [Host.step] at moved
    split at moved
    · cases moved; cases member
    · cases moved
  | send r data sent =>
    obtain ⟨s, held, -⟩ := Option.bind_eq_some_iff.mp moved
    exact called r rfl s (Mux.held_heap held)
  | sendEof r sent =>
    obtain ⟨s, held, -⟩ := Option.bind_eq_some_iff.mp moved
    exact called r rfl s (Mux.held_heap held)
  | sendResume r sent =>
    obtain ⟨s, held, -⟩ := Option.bind_eq_some_iff.mp moved
    exact called r rfl s (Mux.held_heap held)
  | sendTimeout r =>
    obtain ⟨s, held, -⟩ := Option.bind_eq_some_iff.mp moved
    exact called r rfl s (Mux.held_heap held)
  | sendRaise r =>
    obtain ⟨s, held, -⟩ := Option.bind_eq_some_iff.mp moved
    exact called r rfl s (Mux.held_heap held)
  | read r =>
    obtain ⟨s, held, -⟩ := Option.bind_eq_some_iff.mp moved
    exact called r rfl s (Mux.held_heap held)
  | ack r n sent =>
    obtain ⟨s, held, -⟩ := Option.map_eq_some_iff.mp moved
    exact called r rfl s (Mux.held_heap held)
  | reset r sent =>
    obtain ⟨s, held, rfl⟩ := Option.map_eq_some_iff.mp moved
    exact emitted_reset rfl rfl member
  | close r =>
    obtain ⟨s, held, rfl⟩ := Option.map_eq_some_iff.mp moved
    cases member
  | runTask t sent =>
    simp only [Host.step] at moved
    split at moved
    next inside =>
      cases moved
      unfold runTask at member
      cases t with
      | reset r =>
        exact emitted_reset (g := h.updateMux fun m => { m with tasks := m.tasks.erase (.reset r) })
          rfl rfl member
      | sendOnce sid =>
        rw [mem_emit member]
        exact .resetOnce sid sent inside
      | sendOnceSent sid => cases member
    · cases moved
  | goaway sent =>
    cases moved
    rw [mem_emit member]
    exact .goaway sent
  | rearmIdle =>
    simp only [Host.step] at moved
    split at moved
    · cases moved
    · cases moved; cases member
  | writeStall => cases moved; cases member
  | closeStall => cases moved; cases member

/-- Only `open` sends an OPEN. -/
theorem open_of_step {h : Host} {a : Action} {e : Effect} (moved : h.step a = some e) {f : Frame}
    (member : f ∈ e.out) (opens : f.ftype = .open_) : ∃ sent, a = .openStream sent := by
  -- what `emit` makes has the type it was given
  have other : ∀ {sent : Bool} {t : FrameType} {sid : StreamId} {payload : Bytes},
      t ≠ .open_ → f ∉ emit sent t sid payload := fun apart inside =>
    apart (by rw [← opens, mem_emit inside])
  have chunk : ∀ {r : Ref} {sent : Bool} {out : Stream × Option Bytes × Result},
      f ∉ (h.afterSend r sent out).out := by
    intro r sent out inside
    simp only [Host.afterSend] at inside
    split at inside
    · exact other (by simp) inside
    · cases inside
  have reset : ∀ {g : Host} {r : Ref} {sent : Bool}, f ∉ (g.reset r sent).out := by
    intro g r sent inside
    unfold Host.reset at inside
    split at inside
    · exact other (by simp) inside
    · cases inside
  cases a with
  | openStream sent => exact ⟨sent, rfl⟩
  | message msg =>
    simp only [Host.step] at moved
    split at moved
    · split at moved
      · cases moved
        cases member
      · cases moved
    · cases moved
  | connectionLost | openReturn | openRaise | rearmIdle =>
    simp only [Host.step] at moved
    split at moved <;> cases moved
    cases member
  | send r data sent =>
    obtain ⟨s, -, moved⟩ := Option.bind_eq_some_iff.mp moved
    split at moved <;> cases moved
    exact absurd member chunk
  | sendEof r sent =>
    obtain ⟨s, -, moved⟩ := Option.bind_eq_some_iff.mp moved
    split at moved <;> cases moved
    unfold Host.sendEof at member
    split at member
    · cases member
    · exact absurd member (other (by simp))
  | sendResume r sent =>
    obtain ⟨s, -, moved⟩ := Option.bind_eq_some_iff.mp moved
    unfold Host.sendResume at moved
    split at moved
    · cases moved
    · split at moved <;> cases moved
      exact absurd member chunk
    · cases moved
      exact absurd member chunk
    · cases moved
      cases member
    · cases moved
    · cases moved
  | sendTimeout r =>
    obtain ⟨s, -, moved⟩ := Option.bind_eq_some_iff.mp moved
    unfold Host.sendTimeout at moved
    split at moved <;> cases moved
    cases member
  | sendRaise r =>
    obtain ⟨s, -, moved⟩ := Option.bind_eq_some_iff.mp moved
    unfold Host.sendRaise at moved
    split at moved <;> cases moved
    cases member
  | read r =>
    obtain ⟨s, -, moved⟩ := Option.bind_eq_some_iff.mp moved
    unfold Host.read at moved
    split at moved
    · cases moved
    · cases moved
      cases member
    · split at moved <;> cases moved <;> cases member
  | ack r n sent =>
    obtain ⟨s, -, rfl⟩ := Option.map_eq_some_iff.mp moved
    unfold Host.ack at member
    split at member
    · cases member
    · split at member
      · exact absurd member (other (by simp))
      · cases member
  | reset r sent =>
    obtain ⟨s, -, rfl⟩ := Option.map_eq_some_iff.mp moved
    exact absurd member reset
  | close r =>
    obtain ⟨s, -, rfl⟩ := Option.map_eq_some_iff.mp moved
    cases member
  | runTask t sent =>
    simp only [Host.step] at moved
    split at moved <;> cases moved
    unfold Host.runTask at member
    split at member
    · exact absurd member reset
    · exact absurd member (other (by simp))
    · cases member
  | goaway sent =>
    cases moved
    exact absurd member (other (by simp))
  | writeStall =>
    cases moved
    cases member
  | closeStall =>
    cases moved
    cases member

end Host
end Chute
