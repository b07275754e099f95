import Chute.Mux.Emits

/-!
# Counters only grow

The counters that the relay adds up for its metrics, and the next stream id.
-/
namespace Chute

namespace Mux

/-- None of the counters that the relay exports is smaller, and no id is taken back. -/
structure Grows (m m' : Mux) : Prop where
  opened : m.stats.opened ≤ m'.stats.opened
  resetLocal : m.stats.resetLocal ≤ m'.stats.resetLocal
  resetPeer : m.stats.resetPeer ≤ m'.stats.resetPeer
  creditStall : m.stats.creditStall ≤ m'.stats.creditStall
  writeStall : m.stats.writeStall ≤ m'.stats.writeStall
  nextId : m.nextId ≤ m'.nextId

namespace Grows

variable {m m' m'' : Mux}

theorem of_eq (stats : m'.stats = m.stats) (nextId : m'.nextId = m.nextId) : Grows m m' := by
  constructor <;> simp only [stats, nextId, le_refl]

theorem refl (m : Mux) : Grows m m := of_eq rfl rfl

theorem trans (first : Grows m m') (second : Grows m' m'') : Grows m m'' :=
  ⟨first.opened.trans second.opened, first.resetLocal.trans second.resetLocal,
    first.resetPeer.trans second.resetPeer, first.creditStall.trans second.creditStall,
    first.writeStall.trans second.writeStall, first.nextId.trans second.nextId⟩

end Grows

theorem Kept.grows {m m' : Mux} (kept : Host.Kept m m') : Grows m m' :=
  .of_eq kept.stats kept.nextId

theorem grows_sendReset (m : Mux) (sid : StreamId) : Grows m (m.sendReset sid) := by
  unfold sendReset
  split
  · exact .refl m
  · split
    · exact .refl m
    · exact .of_eq rfl rfl

end Mux

namespace Host

open Mux (Grows)

variable {h : Host} {e : Effect}

theorem grows_finish (h : Host) : Grows h.mux h.finish.mux :=
  .of_eq Kept.finish.2.2.2.1 Kept.finish.2.2.1

theorem grows_resetLocalNow (h : Host) (r : Ref) : Grows h.mux (h.resetLocalNow r).1.mux := by
  have closed := Mux.Kept.grows (kept_closeLocal h r .reset)
  unfold resetLocalNow
  split
  · exact .refl _
  · simp only
    split
    · exact closed
    · exact ⟨closed.opened, closed.resetLocal.trans (Nat.le_succ _), closed.resetPeer, closed.creditStall,
        closed.writeStall, closed.nextId⟩

theorem grows_ignoreFrame (h : Host) : Grows h.mux h.ignoreFrame.mux := by
  unfold ignoreFrame
  simp only
  split
  · exact ⟨le_rfl, le_rfl, le_rfl, le_rfl, le_rfl, le_rfl⟩
  · have counted : Grows h.mux (h.updateMux fun m => { m with
        stats := { h.mux.stats with
          ignoredFrames := h.mux.stats.ignoredFrames + 1
          ignoredFrameLimit := h.mux.stats.ignoredFrameLimit + 1 }
        transportAborted := true }).mux := ⟨le_rfl, le_rfl, le_rfl, le_rfl, le_rfl, le_rfl⟩
    exact counted.trans (grows_finish _)

theorem grows_resetMalformed (h : Host) (r : Ref) : Grows h.mux (h.resetMalformed r).mux := by
  have reset := grows_resetLocalNow h r
  unfold resetMalformed
  split
  next again => rw [again] at reset; exact reset.trans (Mux.grows_sendReset _ _)
  next again => rw [again] at reset; exact reset

theorem grows_feed (h : Host) (r : Ref) (s : Stream) (data : Bytes) : Grows h.mux (h.feed r s data).mux := by
  have limit := mux_feedLimit h s data
  unfold feed
  split
  · exact .refl _
  · split
    · exact .refl _
    · split
      next why h' reached =>
        rw [reached] at limit
        have stats : h'.mux.stats = h.mux.stats := congrArg Mux.stats limit
        have nextId : h'.mux.nextId = h.mux.nextId := congrArg Mux.nextId limit
        exact .of_eq stats nextId
      next h' passed =>
        rw [passed] at limit
        have stats : h'.mux.stats = h.mux.stats := congrArg Mux.stats limit
        have nextId : h'.mux.nextId = h.mux.nextId := congrArg Mux.nextId limit
        exact .of_eq stats nextId

/-- One turn of the loop in `run`. -/
theorem grows_onMessage {h' : Host} {msg : Message} (handled : h.onMessage msg = .ok h') :
    Grows h.mux h'.mux := by
  rw [onMessage_eq] at handled
  split at handled
  · cases handled
    exact grows_ignoreFrame h
  next f carried =>
    split at handled
    · cases handled
      unfold onOpen
      repeat' split
      all_goals first | exact grows_ignoreFrame h | exact Mux.grows_sendReset _ _ | skip
      exact ⟨Nat.le_succ _, le_rfl, le_rfl, le_rfl, le_rfl, le_rfl⟩
    · cases handled
      unfold onData
      repeat' split
      all_goals first | exact grows_ignoreFrame h | exact .refl _ | exact grows_feed _ _ _ _
    · cases handled
      unfold onEof
      repeat' split
      all_goals first | exact grows_ignoreFrame h | exact grows_resetMalformed _ _ | exact .of_eq rfl rfl
    · unfold onWindowUpdate at handled
      repeat' split at handled
      all_goals cases handled
      all_goals first | exact grows_ignoreFrame h | exact grows_resetMalformed _ _ | exact .of_eq rfl rfl
    · cases handled
      unfold onReset
      repeat' split
      all_goals first | exact grows_ignoreFrame h | skip
      have counted : Grows h.mux (h.updateMux fun m =>
          { m with stats := { m.stats with resetPeer := m.stats.resetPeer + 1 } }).mux :=
        ⟨le_rfl, le_rfl, Nat.le_succ _, le_rfl, le_rfl, le_rfl⟩
      exact counted.trans (Mux.Kept.grows (kept_closeLocal _ _ _))
    · cases handled
      unfold onGoaway
      repeat' split
      all_goals first | exact grows_ignoreFrame h | exact ⟨le_rfl, le_rfl, le_rfl, le_rfl, le_rfl, le_rfl⟩

theorem grows_reset (h : Host) (r : Ref) (sent : Bool) : Grows h.mux (h.reset r sent).host.mux := by
  have reset := grows_resetLocalNow h r
  unfold Host.reset
  split
  next again => rw [again] at reset; exact reset
  next again => rw [again] at reset; exact reset

/-- **No step of a connection takes back what it has counted.** -/
theorem step_grows {a : Action} (moved : h.step a = some e) : Grows h.mux e.host.mux := by
  cases a with
  | message msg =>
    simp only [Host.step] at moved
    split at moved
    · split at moved
      next handled => cases moved; exact grows_onMessage handled
      · cases moved
    · cases moved
  | connectionLost =>
    simp only [Host.step] at moved
    split at moved
    · cases moved; exact grows_finish h
    · cases moved
  | openStream sent =>
    rcases (step_openStream moved).2 with ⟨same, -⟩ | ⟨-, mux, -⟩
    · rw [same]; exact .refl _
    · rw [mux]; exact ⟨le_rfl, le_rfl, le_rfl, le_rfl, le_rfl, Nat.le_succ _⟩
  | openReturn r =>
    simp only [Host.step] at moved
    split at moved
    · cases moved; exact ⟨Nat.le_succ _, le_rfl, le_rfl, le_rfl, le_rfl, le_rfl⟩
    · cases moved
  | openRaise r =>
    simp only [Host.step] at moved
    split at moved
    · cases moved
      have kept := kept_closeLocal (h.updateMux fun m =>
        { m with opening := m.opening.filter fun e => e.1 != r }) r .eof
      exact .of_eq kept.stats kept.nextId
    · cases moved
  | send r data sent =>
    obtain ⟨s, held, moved⟩ := Option.bind_eq_some_iff.mp moved
    split at moved
    · cases moved; exact .of_eq rfl rfl
    · cases moved
  | sendEof r sent =>
    obtain ⟨s, held, moved⟩ := Option.bind_eq_some_iff.mp moved
    split at moved
    · cases moved
      unfold sendEof
      split <;> exact .of_eq rfl rfl
    · cases moved
  | sendResume r sent =>
    obtain ⟨s, held, moved⟩ := Option.bind_eq_some_iff.mp moved
    unfold sendResume at moved
    repeat' split at moved
    all_goals cases moved
    all_goals exact .of_eq rfl rfl
  | sendTimeout r =>
    obtain ⟨s, held, moved⟩ := Option.bind_eq_some_iff.mp moved
    unfold sendTimeout at moved
    split at moved
    · cases moved; exact ⟨le_rfl, le_rfl, le_rfl, Nat.le_succ _, le_rfl, le_rfl⟩
    · cases moved
  | sendRaise r =>
    obtain ⟨s, held, moved⟩ := Option.bind_eq_some_iff.mp moved
    unfold sendRaise at moved
    split at moved
    · cases moved
    · cases moved; exact .of_eq rfl rfl
  | read r =>
    obtain ⟨s, held, moved⟩ := Option.bind_eq_some_iff.mp moved
    unfold Host.read at moved
    repeat' split at moved
    all_goals cases moved
    all_goals try rw [mux_releaseBuffer]
    all_goals exact .of_eq rfl rfl
  | ack r n sent =>
    obtain ⟨s, held, rfl⟩ := Option.map_eq_some_iff.mp moved
    unfold Host.ack
    repeat' split
    all_goals exact .of_eq rfl rfl
  | reset r sent =>
    obtain ⟨s, held, rfl⟩ := Option.map_eq_some_iff.mp moved
    exact grows_reset h r sent
  | close r =>
    obtain ⟨s, held, rfl⟩ := Option.map_eq_some_iff.mp moved
    exact Mux.Kept.grows (kept_closeLocal h r .eof)
  | runTask t sent =>
    simp only [Host.step] at moved
    split at moved
    · cases moved
      have erased : Grows h.mux (h.updateMux fun m => { m with tasks := m.tasks.erase t }).mux := .of_eq rfl rfl
      unfold runTask
      cases t with
      | reset r => exact erased.trans (grows_reset _ r sent)
      | sendOnce sid => exact .of_eq rfl rfl
      | sendOnceSent sid => exact .of_eq rfl rfl
    · cases moved
  | goaway sent => cases moved; exact .of_eq rfl rfl
  | rearmIdle =>
    simp only [Host.step] at moved
    split at moved
    · cases moved
    · cases moved; exact .of_eq rfl rfl
  | writeStall => cases moved; exact ⟨le_rfl, le_rfl, le_rfl, le_rfl, Nat.le_succ _, le_rfl⟩
  | closeStall => cases moved; exact ⟨le_rfl, le_rfl, le_rfl, le_rfl, le_rfl, le_rfl⟩

end Host

end Chute
