import Chute.Mux.Discipline

/-!
# Well-formed frames

What a multiplexer hands to `_send` is well formed, whatever its callers and its peer do. The loop
of `Mux.run` has branches for frames that are not; a well-formed frame takes none of them.
-/
namespace Chute

/-- A frame that no check of `Mux.run` on the form of frames finds fault with. -/
structure Frame.Wellformed (f : Frame) : Prop where
  fits : f.message.length ≤ 256 * 1024
  stream : f.sid = 0 ↔ f.ftype = .goaway
  bare : f.ftype = .open_ ∨ f.ftype = .eof ∨ f.ftype = .reset ∨ f.ftype = .goaway → f.payload = []
  data : f.ftype = .data → f.payload ≠ []
  credit : f.ftype = .windowUpdate →
    f.payload.length = 4 ∧ ∃ delta, unpackU32 f.payload = some delta ∧ delta ≠ 0

theorem Frame.length_message (f : Frame) : f.message.length = 5 + f.payload.length := by
  simp only [message, encode, List.cons_append, List.length_cons, List.length_append, length_packU32]
  omega

/-- A frame without a payload, about a stream. -/
theorem Frame.wellformed_bare {t : FrameType} {sid : StreamId} (nonzero : sid ≠ 0)
    (type : t = .open_ ∨ t = .eof ∨ t = .reset) : Frame.Wellformed ⟨t, sid, []⟩ := by
  have short : 5 + 0 ≤ 256 * 1024 := by decide
  have fits : (⟨t, sid, []⟩ : Frame).message.length ≤ 256 * 1024 := by
    rw [length_message]
    exact short
  rcases type with rfl | rfl | rfl
  · exact ⟨fits, iff_of_false nonzero nofun, fun _ => rfl, nofun, nofun⟩
  · exact ⟨fits, iff_of_false nonzero nofun, fun _ => rfl, nofun, nofun⟩
  · exact ⟨fits, iff_of_false nonzero nofun, fun _ => rfl, nofun, nofun⟩

/-! ### The frames of a step -/

namespace Host

variable {h : Host} {a : Action} {e : Effect} {f : Frame}

/-- `_MAX_FRAME_PAYLOAD` bounds every chunk that `send` cuts. -/
theorem data_fits (acc : h.mux.Accounted) (moved : h.step a = some e) (member : f ∈ e.out)
    (data : f.ftype = .data) : f.payload.length ≤ maxFramePayload := by
  have emitted := step_out acc moved member
  cases emitted with
  | data r s target found chunk some_data =>
    obtain ⟨t, -, touch⟩ := step_touch acc found moved
    have sent : ∀ {view : Bytes} {sent : Bool} {o : Stream × Option Bytes × Result},
        Stream.Sends s view sent o → ⟨.data, r.sid, chunk⟩ ∈ (h.afterSend r sent o).out →
          chunk.length ≤ maxFramePayload := by
      intro view sent o sends inside
      simp only [afterSend] at inside
      split at inside
      next cut emitted =>
        cases mem_emit inside
        exact (sends.chunk emitted).2
      · cases inside
    generalize e.out = out at touch member
    generalize e.result = res at touch
    cases touch with
    | pass other => exact absurd target other
    | shut other => exact absurd target other
    | started _ _ _ _ _ sends => exact sent sends member
    | resumed _ _ _ _ sends => exact sent sends member
    | eof sent => cases mem_emit member
    | ackFlush n sent => cases mem_emit member
    | fed => cases target
    | overflow => cases target
    | ended => cases target
    | granted => cases target
    | _ => cases member
  | _ => cases data

/-- The ids for which a RESET is about to go out name streams. -/
def Posted (m : Mux) : Prop := ∀ sid, .sendOnce sid ∈ m.tasks → sid ≠ 0

theorem posted_step (acc : h.mux.Accounted) (posted : Posted h.mux) (moved : h.step a = some e) :
    Posted e.host.mux := by
  intro sid task
  cases here : a.isLocal with
  | true =>
    rcases (step_local moved here).tasks _ task with old | ⟨other, same, -⟩
    · exact posted sid old
    · cases same
  | false =>
    cases a with
    | message msg =>
      obtain ⟨-, arrival, -⟩ := step_message acc moved
      rcases (arrival.arrived acc).tasks _ task with old | ⟨r, s, same, -⟩ | ⟨g, -, same, nonzero, -⟩
      · exact posted sid old
      · cases same
      · cases same
        exact nonzero
    | connectionLost =>
      simp only [Host.step] at moved
      split at moved
      · cases moved
        cases task
      · cases moved
    | openStream sent =>
      rcases (step_openStream moved).2 with ⟨same, -⟩ | ⟨-, mux, -⟩
      · exact posted sid (same ▸ task)
      · rw [mux] at task
        exact posted sid task
    | _ => cases here

/-- **Every frame of a step is well formed.** -/
theorem step_wellformed (acc : h.mux.Accounted) (posted : Posted h.mux) (moved : h.step a = some e)
    (member : f ∈ e.out) : f.Wellformed := by
  have emitted := step_out acc moved member
  have fits := data_fits acc moved member
  have object : ∀ {r : Ref} {s : Stream}, h.mux.heap r = some s → r.sid ≠ 0 :=
    fun found => (acc.fresh _ _ found).2
  cases emitted with
  | open_ sent =>
    have id : UInt32.ofNat h.mux.nextId ≠ 0 := by
      rcases (step_openStream moved).2 with ⟨-, out⟩ | ⟨range, -, -⟩
      · rw [out] at member
        cases member
      · intro zero
        have word := congrArg UInt32.toNat zero
        rw [UInt32.toNat_ofNat', Nat.mod_eq_of_lt (by omega)] at word
        have := acc.nextId_pos
        simp at word
        omega
    exact Frame.wellformed_bare id (Or.inl rfl)
  | data r s target found chunk some_data =>
    have short := fits rfl
    constructor
    · rw [Frame.length_message]
      simp only [maxFramePayload] at short
      simp only
      omega
    · exact iff_of_false (object found) (by simp)
    · exact fun type => by simp at type
    · exact fun _ => some_data
    · simp
  | eof r s target found => exact Frame.wellformed_bare (object found) (Or.inr (Or.inl rfl))
  | windowUpdate r s target found delta nonzero =>
    constructor
    · rw [Frame.length_message]
      have short : 5 + 4 ≤ 256 * 1024 := by decide
      exact short
    · exact iff_of_false (object found) (by simp)
    · exact fun type => by simp at type
    · simp
    · exact fun _ => ⟨length_packU32 delta, delta, unpackU32_packU32_self delta, nonzero⟩
  | reset away r s found => exact Frame.wellformed_bare (object found) (Or.inr (Or.inr rfl))
  | resetOnce sid sent task => exact Frame.wellformed_bare (posted sid task) (Or.inr (Or.inr rfl))
  | goaway sent =>
    constructor
    · rw [Frame.length_message]
      decide
    · exact iff_of_true rfl rfl
    · exact fun _ => rfl
    · simp
    · simp

/-! ### At the other end -/

/-- A turn of the loop in `Mux.run` without its branches for frames that are not well formed. -/
def dispatch (h : Host) (f : Frame) : Host :=
  match f.ftype with
  | .open_ =>
    if h.mux.config.acceptsOpen = false then h.ignoreFrame
    else if h.mux.draining then h.updateMux fun m => m.sendReset f.sid
    else if (h.mux.registered f.sid).isSome then h.updateMux fun m => m.sendReset f.sid
    else if h.mux.activeStreams ≥ h.mux.config.maxStreams then h.updateMux fun m => m.sendReset f.sid
    else
      h.updateMux fun m =>
        { m.register f.sid with stats := { m.stats with opened := m.stats.opened + 1 } }
  | .data =>
    match h.mux.registered f.sid with
    | none => h.ignoreFrame
    | some r => (h.mux.heap r).elim h fun s => h.feed r s f.payload
  | .eof =>
    match h.mux.registered f.sid with
    | none => h.ignoreFrame
    | some r => (h.mux.heap r).elim h fun s => h.setStream r s.feedEof
  | .windowUpdate =>
    match h.mux.registered f.sid, unpackU32 f.payload with
    | some r, some delta => (h.mux.heap r).elim h fun s => h.setStream r (s.grant delta.toNat)
    | _, _ => h.ignoreFrame
  | .reset =>
    match h.mux.registered f.sid with
    | none => h.ignoreFrame
    | some r =>
      (h.updateMux fun m =>
        { m with stats := { m.stats with resetPeer := m.stats.resetPeer + 1 } }).closeLocal r .reset
  | .goaway =>
    if h.mux.peerGoingAway then h.ignoreFrame
    else
      h.updateMux fun m =>
        { m with
          peerGoingAway := true
          stats := { m.stats with goawayIn := m.stats.goawayIn + 1 } }

/-- A well-formed frame takes no branch for frames that are not. -/
theorem onMessage_wellformed (wellformed : f.Wellformed) (h : Host) :
    h.onMessage (.binary f.message) = .ok (h.dispatch f) := by
  obtain ⟨ftype, sid, payload⟩ := f
  obtain ⟨-, stream, bare, -, credit⟩ := wellformed
  rw [onMessage_eq, Message.frame_message]
  simp only at stream bare credit ⊢
  cases ftype with
  | open_ =>
    have nonzero : sid ≠ 0 := fun zero => by cases stream.mp zero
    simp only [bare (Or.inl rfl), onOpen, dispatch, if_neg nonzero, ne_eq, not_true_eq_false, if_false]
  | data =>
    have nonzero : sid ≠ 0 := fun zero => by cases stream.mp zero
    simp only [onData, dispatch, if_neg nonzero]
    cases h.mux.registered sid with
    | none => rfl
    | some r =>
      simp only
      cases h.mux.heap r <;> rfl
  | eof =>
    have nonzero : sid ≠ 0 := fun zero => by cases stream.mp zero
    simp only [bare (Or.inr (Or.inl rfl)), onEof, dispatch, if_neg nonzero, ne_eq, not_true_eq_false, if_false]
    cases h.mux.registered sid with
    | none => rfl
    | some r =>
      simp only
      cases h.mux.heap r <;> rfl
  | reset =>
    have nonzero : sid ≠ 0 := fun zero => by cases stream.mp zero
    cases found : h.mux.registered sid <;> simp only [onReset, dispatch, if_neg nonzero, found]
  | windowUpdate =>
    have nonzero : sid ≠ 0 := fun zero => by cases stream.mp zero
    obtain ⟨four, delta, unpacked, some_credit⟩ := credit rfl
    simp only [onWindowUpdate, dispatch, if_neg nonzero, four, unpacked, ne_eq, not_true_eq_false,
      if_false, some_credit, not_false_eq_true, if_true]
    cases h.mux.registered sid with
    | none => rfl
    | some r =>
      simp only
      cases h.mux.heap r <;> rfl
  | goaway =>
    have zero : sid = 0 := stream.mpr rfl
    simp only [bare (Or.inr (Or.inr (Or.inr rfl))), onGoaway, dispatch, zero, ne_eq, not_true_eq_false,
      or_self, if_false]

end Host

/-! ### The frames of a run -/

namespace Emission

variable {c : Config} {b b' : Emission}

/-- What holds of a multiplexer and of the frames it has handed over. -/
structure Orthodox (b : Emission) : Prop where
  accounted : b.mux.Accounted
  posted : Host.Posted b.mux
  frames : ∀ f ∈ b.frames, f.Wellformed

theorem orthodox_start (c : Config) : (start c).Orthodox :=
  ⟨Mux.accounted_new c, fun _ task => absurd task List.not_mem_nil,
    fun _ member => absurd member List.not_mem_nil⟩

theorem Orthodox.step {x : Env × Action} (orthodox : b.Orthodox) (moved : b.step x = some b') :
    b'.Orthodox := by
  obtain ⟨e, e', ran, whole, -, rfl⟩ := step_attempt moved
  constructor
  · exact ((orthodox.accounted.booked x.1).step ran).mux
  · exact Host.posted_step (h := b.mux.host x.1) orthodox.accounted orthodox.posted ran
  · intro f member
    rcases List.mem_append.mp member with old | new
    · exact orthodox.frames f old
    · exact Host.step_wellformed (h := b.mux.host x.1) orthodox.accounted orthodox.posted whole new

/-- **Frames survive the wire, and every frame handed over is well formed.** Decoding inverts
encoding and encoding inverts decoding, and a message has no frame only where it is too short. What
a multiplexer hands over in a run against any peer is at most 256 KiB long with the form of its
type, so the loop at the other end takes it through none of its branches for malformed frames. -/
theorem wellformed_of_run {xs : List (Env × Action)} (ran : Transition.run step (start c) xs = some b) :
    (∀ t sid payload, decode (encode t sid payload) = some (t, sid, payload)) ∧
    (∀ message t sid payload, decode message = some (t, sid, payload) →
      encode t sid payload = message) ∧
    (∀ message, decode message = none ↔ message.length < 5) ∧
    ∀ f ∈ b.frames, f.Wellformed ∧
      ∀ h : Host, h.onMessage (.binary f.message) = .ok (h.dispatch f) := by
  have orthodox := Transition.run_invariant' (fun _ _ _ orthodox moved => Orthodox.step orthodox moved)
    (orthodox_start c) ran
  refine ⟨decode_encode, fun _ _ _ _ => encode_decode, decode_eq_none_iff, fun f member => ?_⟩
  have wellformed := orthodox.frames f member
  exact ⟨wellformed, Host.onMessage_wellformed wellformed⟩

theorem wellformed_after_late_calls : ∃ b,
    Transition.run step (start (.server ⟨2, by decide, by decide⟩)) lateCalls.1 = some b ∧
      b.frames.map Frame.ftype = [.open_, .data, .data, .reset] ∧
      ∀ f ∈ b.frames, f.Wellformed ∧
        ∀ h : Host, h.onMessage (.binary f.message) = .ok (h.dispatch f) := by
  have frames : ((Transition.run step (start (.server ⟨2, by decide, by decide⟩)) lateCalls.1).map
      fun b => b.frames.map Frame.ftype) = some [.open_, .data, .data, .reset] := by decide +kernel
  obtain ⟨b, ran, types⟩ := Option.map_eq_some_iff.mp frames
  obtain ⟨-, -, -, orthodox⟩ := wellformed_of_run ran
  exact ⟨b, ran, types, orthodox⟩

end Emission

end Chute
