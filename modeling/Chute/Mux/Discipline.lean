import Chute.Lib.Transition
import Chute.Mux.Says

/-!
# The order of what a multiplexer sends

The order of all frames about a stream, over whole runs and whatever the peer does. A
frame counts from the moment it is handed to `_send`, whether or not it gets onto the
connection.
-/
namespace Chute

/-- The same step, with its frame getting onto the connection. -/
def Action.attempt : Action → Action
  | .openStream _ => .openStream true
  | .send r data _ => .send r data true
  | .sendEof r _ => .sendEof r true
  | .sendResume r _ => .sendResume r true
  | .ack r n _ => .ack r n true
  | .reset r _ => .reset r true
  | .runTask t _ => .runTask t true
  | .goaway _ => .goaway true
  | a => a

/-- The frames a step hands to `_send`, whether or not they get onto the connection. -/
def Host.handed (h : Host) (a : Action) : List Frame :=
  match h.step a.attempt with
  | some e => e.out
  | none => []

/-- A multiplexer, the frames it has handed to `_send`, and the credit it has received
for each stream. -/
structure Emission where
  mux : Mux
  frames : List Frame
  credit : StreamId → Nat

namespace Emission

def start (c : Config) : Emission := ⟨Mux.new c, [], fun _ => 0⟩

def step (b : Emission) (x : Env × Action) : Option Emission :=
  (b.mux.step x).map fun m =>
    ⟨m, b.frames ++ (b.mux.host x.1).handed x.2,
      fun sid => b.credit sid + b.mux.credited sid x.2⟩

end Emission

/-! ### The order of the frames about a stream -/

/-- The frames about a stream as an initiator may send them. -/
structure Proper (sid : StreamId) (frames : List Frame) : Prop where
  first : frames.head? = some ⟨.open_, sid, []⟩
  once : frames.Pairwise fun _ g => g.ftype ≠ .open_
  ended : frames.Pairwise fun f g => f.ftype = .eof → g.ftype ≠ .eof ∧ g.ftype ≠ .data
  resets : resetsOf frames ≤ 1

/-- Frames in front of which nothing else about the stream may have been ruled out. -/
theorem Proper.append {sid : StreamId} {frames : List Frame} (proper : Proper sid frames) {f : Frame}
    (later : f.ftype ≠ .open_)
    (open_ : f.ftype = .eof ∨ f.ftype = .data → ∀ g ∈ frames, g.ftype ≠ .eof)
    (resets : resetsOf (frames ++ [f]) ≤ 1) : Proper sid (frames ++ [f]) := by
  refine ⟨?_, ?_, ?_, resets⟩
  · rw [List.head?_append, proper.first]
    rfl
  · refine List.pairwise_append.mpr ⟨proper.once, List.pairwise_singleton _ _, ?_⟩
    intro g _ f' last
    rw [List.mem_singleton.mp last]
    exact later
  · refine List.pairwise_append.mpr ⟨proper.ended, List.pairwise_singleton _ _, ?_⟩
    intro g member f' last eof
    rw [List.mem_singleton.mp last]
    exact ⟨fun again => open_ (Or.inl again) g member eof, fun data => open_ (Or.inr data) g member eof⟩

/-! ### Whole runs -/

/-- What holds of a stream of the initiator and of the frames about it so far. -/
structure Spoken (m : Mux) (credit : Nat) (sid : StreamId) (s : Stream) (frames : List Frame) :
    Prop where
  proper : Proper sid frames
  unended : s.sendEnded = false → ∀ f ∈ frames, f.ftype ≠ .eof
  resets : resetsOf frames + m.tasks.count (.sendOnce sid) ≤ s.closed.toNat
  window : dataBytes frames + s.sendWindow ≤ m.config.window + credit

/-- The ids of the OPENs of a list, in order. -/
def openedIds (frames : List Frame) : List Nat :=
  (frames.filter fun f => f.ftype = .open_).map fun f => f.sid.toNat

structure Disciplined (m : Mux) (frames : List Frame) (credit : StreamId → Nat) : Prop where
  accounted : m.Accounted
  server : m.config.acceptsOpen = false
  once : ∀ sid, m.made sid ≤ 1
  objects : ∀ sid, 0 < m.made sid → ∃ s, m.heap ⟨sid, 0⟩ = some s
  silent : ∀ sid, sid ≠ 0 → m.made sid = 0 → about sid frames = []
  spawned : ∀ sid, .sendOnce sid ∈ m.tasks → sid ≠ 0 ∧ 0 < m.made sid
  spoken : ∀ sid s, m.heap ⟨sid, 0⟩ = some s → Spoken m (credit sid) sid s (about sid frames)
  ordered : (openedIds frames).Pairwise (· < ·)
  bounded : ∀ id ∈ openedIds frames, 0 < id ∧ id < m.nextId ∧ id ≤ 0xFFFFFFFF

theorem disciplined_new {c : Config} (server : c.acceptsOpen = false) :
    Disciplined (Mux.new c) [] fun _ => 0 := by
  refine ⟨Mux.accounted_new c, server, ?_, ?_, ?_, ?_, ?_, ?_, ?_⟩ <;>
    simp [Mux.new, about, openedIds]

theorem openedIds_append (first second : List Frame) :
    openedIds (first ++ second) = openedIds first ++ openedIds second := by
  simp [openedIds]

section

variable {h : Host} {frames : List Frame} {credit : StreamId → Nat} {a : Action} {e : Effect}

theorem Disciplined.sole (known : Disciplined h.mux frames credit) {r : Ref} {s : Stream}
    (found : h.mux.heap r = some s) : r.gen = 0 := by
  have fresh := (known.accounted.fresh r s found).1
  have once := known.once r.sid
  omega

/-- What a step says about a stream keeps its order. -/
theorem Spoken.said {m' : Mux} {sid : StreamId} {s t : Stream} {fs : List Frame} {n : Nat}
    (spoken : Spoken h.mux n sid s fs) (said : Says h sid a s t e) (mux : e.host.mux = m')
    (config : m'.config = h.mux.config) :
    Spoken m' (n + h.mux.credited sid a) sid t (fs ++ about sid e.out) := by
  have resets := said.resets
  have window := said.window
  have before := spoken.resets
  have credit := spoken.window
  rw [mux] at resets
  have after : resetsOf (fs ++ about sid e.out) + m'.tasks.count (.sendOnce sid) ≤ t.closed.toNat := by
    rw [resetsOf_append]
    omega
  have unended : s.sendEnded = false → ∀ f ∈ fs, f.ftype ≠ .eof := spoken.unended
  refine ⟨?_, ?_, after, ?_⟩
  · rcases said.frames with silent | ⟨f, one, spoke⟩
    · rw [silent, List.append_nil]
      exact spoken.proper
    · rw [one] at after ⊢
      have few : resetsOf (fs ++ [f]) ≤ 1 := by
        have := Bool.toNat_le t.closed
        omega
      refine spoken.proper.append ?_ ?_ few
      · rcases spoke with ⟨type, -⟩ | ⟨type, -⟩ | ⟨type, -⟩ | type <;> simp [type]
      · intro speaks
        -- DATA and EOF are handed over only while the send direction has not ended
        have going : s.sendDone = false := by
          rcases spoke with ⟨-, going⟩ | ⟨-, going, -⟩ | ⟨type, -⟩ | type
          · exact going
          · exact going
          · simp [type] at speaks
          · simp [type] at speaks
        simp only [Stream.sendDone, Bool.or_eq_false_iff] at going
        exact unended going.2
  · intro still f member
    have before : s.sendEnded = false := by
      cases ended : s.sendEnded with
      | false => rfl
      | true => rw [said.ended ended] at still; cases still
    rcases List.mem_append.mp member with old | new
    · exact unended before f old
    · rcases said.frames with silent | ⟨g, one, spoke⟩
      · rw [silent] at new
        cases new
      · rw [one] at new
        rw [List.mem_singleton.mp new]
        rcases spoke with ⟨type, -⟩ | ⟨-, -, ended⟩ | ⟨type, -⟩ | type
        · simp [type]
        · rw [ended] at still; cases still
        · simp [type]
        · simp [type]
  · rw [dataBytes_append, config]
    omega

/-- Ids are made by `open` alone on the initiator's side. -/
theorem made_step (acc : h.mux.Accounted) (server : h.mux.config.acceptsOpen = false)
    (moved : h.step a = some e) :
    (e.host.mux.made = h.mux.made ∧ e.host.mux.nextId = h.mux.nextId ∧
        ∀ f ∈ e.out, f.ftype ≠ .open_) ∨
      ∃ sent, a = .openStream sent ∧ h.mux.nextId ≤ 0xFFFFFFFF ∧
        e.host.mux = Host.opened h.mux sent ∧
        e.out = emit sent .open_ (UInt32.ofNat h.mux.nextId) [] := by
  have plain : (∀ sent, a ≠ .openStream sent) → ∀ f ∈ e.out, f.ftype ≠ .open_ := by
    intro other f member
    cases Host.step_out acc moved member with
    | open_ sent => exact absurd rfl (other sent)
    | _ => simp
  cases here : a.isLocal with
  | true =>
    have kept := Host.step_local moved here
    exact Or.inl ⟨kept.made, kept.nextId, plain (by rintro sent rfl; cases here)⟩
  | false =>
    cases a with
    | message msg =>
      have arrived := (Host.step_message acc moved).2.1.arrived acc
      rcases arrived.made with same | ⟨sid, -, responder, -⟩
      · exact Or.inl ⟨same, arrived.nextId, plain (by simp)⟩
      · rw [server] at responder; cases responder
    | connectionLost =>
      have out := plain (by simp)
      simp only [Host.step] at moved
      split at moved
      · cases moved
        obtain ⟨-, made, nextId, -⟩ := Host.Kept.finish (h := h)
        exact Or.inl ⟨made, nextId, out⟩
      · cases moved
    | openStream sent =>
      rcases (Host.step_openStream moved).2 with ⟨same, out⟩ | ⟨small, mux, out⟩
      · exact Or.inl ⟨by rw [same], by rw [same], by simp [out]⟩
      · exact Or.inr ⟨sent, rfl, small, mux, out⟩
    | _ => cases here

theorem made_pos (acc : h.mux.Accounted) {r : Ref} {s : Stream} (found : h.mux.heap r = some s) :
    0 < h.mux.made r.sid :=
  Nat.zero_lt_of_lt (acc.fresh r s found).1

/-- A RESET that is still to be sent belongs to a stream that exists. -/
theorem Disciplined.spawned_step (known : Disciplined h.mux frames credit)
    (moved : h.step a = some e) {sid : StreamId} (inside : .sendOnce sid ∈ e.host.mux.tasks) :
    sid ≠ 0 ∧ 0 < h.mux.made sid := by
  have acc := known.accounted
  cases here : a.isLocal with
  | true =>
    rcases (Host.step_local moved here).tasks _ inside with old | ⟨sid', other, -⟩
    · exact known.spawned sid old
    · cases other
  | false =>
    cases a with
    | message msg =>
      rcases Host.pending_arrival acc known.server (Host.step_message acc moved).2.1 sid with
        fewer | ⟨r, s, rfl, found, -⟩
      · have more : 0 < e.host.mux.tasks.count (.sendOnce sid) := List.count_pos_iff.mpr inside
        exact known.spawned sid (List.count_pos_iff.mp (by omega))
      · exact ⟨(acc.fresh r s found).2, made_pos acc found⟩
    | connectionLost =>
      simp only [Host.step] at moved
      split at moved
      · cases moved
        simp [Host.finish_eq] at inside
      · cases moved
    | openStream sent =>
      rcases (Host.step_openStream moved).2 with ⟨same, -⟩ | ⟨-, mux, -⟩
      · rw [same] at inside
        exact known.spawned sid inside
      · rw [mux] at inside
        exact known.spawned sid inside
    | _ => cases here

/-- Every frame of a step other than an OPEN is about a stream that exists. -/
theorem Disciplined.about_step (known : Disciplined h.mux frames credit)
    (moved : h.step a = some e) (plain : ∀ f ∈ e.out, f.ftype ≠ .open_) {sid : StreamId}
    (nonzero : sid ≠ 0) (unmade : h.mux.made sid = 0) : about sid e.out = [] := by
  have acc := known.accounted
  have away : ∀ r s, h.mux.heap r = some s → r.sid ≠ sid := by
    rintro r s found rfl
    have := made_pos acc found
    omega
  refine about_eq_nil fun f member => ?_
  cases Host.step_out acc moved member with
  | open_ sent => exact absurd rfl (plain _ member)
  | data r s target found chunk some_data => exact away r s found
  | eof r s target found => exact away r s found
  | windowUpdate r s target found delta nonzero => exact away r s found
  | reset none r s found => exact away r s found
  | resetOnce sid' sent task =>
    rintro (rfl : sid' = sid)
    have := (known.spawned _ task).2
    omega
  | goaway sent => exact nonzero.symm

/-- A step other than an `open` that allocates. -/
theorem Disciplined.kept (known : Disciplined h.mux frames credit) (acc' : e.host.mux.Accounted)
    (moved : h.step a = some e) (made : e.host.mux.made = h.mux.made)
    (nextId : e.host.mux.nextId = h.mux.nextId) (plain : ∀ f ∈ e.out, f.ftype ≠ .open_) :
    Disciplined e.host.mux (frames ++ e.out) fun sid => credit sid + h.mux.credited sid a := by
  have acc := known.accounted
  have config := Host.config_step moved
  have ids : openedIds (frames ++ e.out) = openedIds frames := by
    have none : openedIds e.out = [] := by
      simp only [openedIds, List.map_eq_nil_iff, List.filter_eq_nil_iff]
      intro f member
      simpa using plain f member
    rw [openedIds_append, none, List.append_nil]
  refine ⟨acc', config ▸ known.server, made ▸ known.once, ?_, ?_, ?_, ?_, ids ▸ known.ordered, ?_⟩
  · intro sid exists_
    obtain ⟨s, found⟩ := known.objects sid (made ▸ exists_)
    obtain ⟨t, after, -⟩ := Host.step_touch acc found moved
    exact ⟨t, after⟩
  · intro sid nonzero unmade
    rw [made] at unmade
    rw [about_append, known.silent sid nonzero unmade,
      known.about_step moved plain nonzero unmade]
    rfl
  · intro sid inside
    rw [made]
    exact known.spawned_step moved inside
  · intro sid t after
    cases before : h.mux.heap ⟨sid, 0⟩ with
    | some s =>
      obtain ⟨t', same, said⟩ := says_step acc known.server (fun _ _ => known.sole) before moved
      rw [after] at same
      cases same
      rw [about_append]
      exact (known.spoken sid s before).said said rfl config
    | none =>
      rcases Host.step_absent acc before moved with absent | ⟨-, gen, -⟩
      · rw [absent] at after; cases after
      · have fresh := (acc'.fresh _ t after).1
        rw [made] at fresh
        omega
  · intro id member
    rw [ids] at member
    rw [nextId]
    exact known.bounded id member

/-- An `open` that allocates, and hands over its OPEN. -/
theorem Disciplined.opened (known : Disciplined h.mux frames credit) (acc' : e.host.mux.Accounted)
    (moved : h.step (.openStream true) = some e) (small : h.mux.nextId ≤ 0xFFFFFFFF)
    (mux : e.host.mux = Host.opened h.mux true)
    (out : e.out = emit true .open_ (UInt32.ofNat h.mux.nextId) []) :
    Disciplined e.host.mux (frames ++ e.out)
      fun sid => credit sid + h.mux.credited sid (.openStream true) := by
  have acc := known.accounted
  have config := Host.config_step moved
  have word : (UInt32.ofNat h.mux.nextId).toNat = h.mux.nextId := by
    simp only [UInt32.toNat_ofNat']
    omega
  -- the id is new: only smaller ones were made
  have unmade : h.mux.made (UInt32.ofNat h.mux.nextId) = 0 := by
    by_contra made
    have below := acc.ids known.server _ (Nat.pos_of_ne_zero made)
    omega
  have nonzero : UInt32.ofNat h.mux.nextId ≠ 0 := by
    intro zero
    have pos := acc.nextId_pos
    rw [zero] at word
    simp only [UInt32.toNat_zero] at word
    omega
  have made : e.host.mux.made = Function.update h.mux.made (UInt32.ofNat h.mux.nextId) 1 := by
    rw [mux]
    simp [Host.opened, Mux.register, unmade]
  have made_le : ∀ sid, h.mux.made sid ≤ e.host.mux.made sid := by
    intro sid
    rw [made]
    by_cases here : sid = UInt32.ofNat h.mux.nextId
    · rw [here, unmade]; omega
    · simp [here]
  have out' : e.out = [⟨.open_, UInt32.ofNat h.mux.nextId, []⟩] := by
    rw [out]
    rfl
  have ids : openedIds (frames ++ e.out) = openedIds frames ++ [h.mux.nextId] := by
    rw [openedIds_append, out']
    simp [openedIds, word]
  refine ⟨acc', config ▸ known.server, ?_, ?_, ?_, ?_, ?_, ?_, ?_⟩
  · intro sid
    rw [made]
    by_cases here : sid = UInt32.ofNat h.mux.nextId
    · simp [here]
    · simpa [here] using known.once sid
  · intro sid exists_
    rw [made] at exists_
    by_cases here : sid = UInt32.ofNat h.mux.nextId
    · subst here
      rw [mux]
      exact ⟨Stream.new h.mux.config, by simp [Host.opened, Mux.register, Mux.setStream, unmade]⟩
    · obtain ⟨s, found⟩ := known.objects sid (by simpa [here] using exists_)
      obtain ⟨t, after, -⟩ := Host.step_touch acc found moved
      exact ⟨t, after⟩
  · intro sid away unmade'
    have before : h.mux.made sid = 0 := Nat.le_zero.mp (unmade' ▸ made_le sid)
    have other : sid ≠ UInt32.ofNat h.mux.nextId := by
      rintro rfl
      rw [made] at unmade'
      simp at unmade'
    rw [about_append, known.silent sid away before, out']
    simp [about, other.symm]
  · intro sid inside
    obtain ⟨away, pos⟩ := known.spawned_step moved inside
    exact ⟨away, pos.trans_le (made_le sid)⟩
  · intro sid t after
    cases before : h.mux.heap ⟨sid, 0⟩ with
    | some s =>
      obtain ⟨t', same, said⟩ := says_step acc known.server (fun _ _ => known.sole) before moved
      rw [after] at same
      cases same
      rw [about_append]
      exact (known.spoken sid s before).said said rfl config
    | none =>
      rcases Host.step_absent acc before moved with absent | ⟨created, -, opens⟩
      · rw [absent] at after; cases after
      · rw [created] at after
        cases after
        cases opens with
        | local_ _ here =>
          subst here
          have none : (e.host.mux.tasks).count (.sendOnce (UInt32.ofNat h.mux.nextId)) = 0 := by
            apply List.count_eq_zero.mpr
            intro inside
            have := (known.spawned_step moved inside).2
            omega
          have all : about (UInt32.ofNat h.mux.nextId) (frames ++ e.out) =
              [⟨.open_, UInt32.ofNat h.mux.nextId, []⟩] := by
            rw [about_append, known.silent _ nonzero unmade, out']
            simp [about]
          rw [all]
          refine ⟨⟨rfl, List.pairwise_singleton _ _, List.pairwise_singleton _ _, ?_⟩, ?_, ?_, ?_⟩
          · simp [resetsOf]
          · simp
          · simp [resetsOf, none]
          · rw [config]
            simp [dataBytes, Stream.new]
            omega
  · rw [ids]
    refine List.pairwise_append.mpr ⟨known.ordered, List.pairwise_singleton _ _, ?_⟩
    intro id member last final
    rw [List.mem_singleton.mp final]
    exact (known.bounded id member).2.1
  · intro id member
    have nextId : e.host.mux.nextId = h.mux.nextId + 1 := by
      rw [mux]
      rfl
    rw [ids, List.mem_append, List.mem_singleton] at member
    rw [nextId]
    have pos := acc.nextId_pos
    rcases member with old | rfl
    · have := known.bounded id old
      omega
    · omega

theorem Disciplined.step (known : Disciplined h.mux frames credit) (acc' : e.host.mux.Accounted)
    (moved : h.step a = some e) (whole : a.attempt = a) :
    Disciplined e.host.mux (frames ++ e.out) fun sid => credit sid + h.mux.credited sid a := by
  rcases made_step known.accounted known.server moved with
    ⟨made, nextId, plain⟩ | ⟨sent, rfl, small, mux, out⟩
  · exact known.kept acc' moved made nextId plain
  · have sent : sent = true := by simpa [Action.attempt] using whole.symm
    subst sent
    exact known.opened acc' moved small mux out

end

/-! ### Frames that are handed over and lost -/

/-- What a suspended call does not keep on its stack. -/
def Stream.outward (s : Stream) : Int × Bool × Bool := (s.sendWindow, s.sendEnded, s.closed)

/-- Equal up to what a suspended call knows of the fate of its frame. -/
structure Alike (m m' : Mux) : Prop where
  config : m.config = m'.config
  made : m.made = m'.made
  nextId : m.nextId = m'.nextId
  tasks : m.tasks = m'.tasks
  streams : ∀ r, (m.heap r).map Stream.outward = (m'.heap r).map Stream.outward

theorem Alike.refl (m : Mux) : Alike m m := ⟨rfl, rfl, rfl, rfl, fun _ => rfl⟩

theorem Disciplined.alike {m m' : Mux} {frames : List Frame} {credit : StreamId → Nat}
    (known : Disciplined m' frames credit) (alike : Alike m m') (acc : m.Accounted) :
    Disciplined m frames credit := by
  obtain ⟨config, made, nextId, tasks, streams⟩ := alike
  refine ⟨acc, config ▸ known.server, made ▸ known.once, ?_, made ▸ known.silent, ?_, ?_,
    known.ordered, nextId ▸ known.bounded⟩
  · intro sid exists_
    obtain ⟨s', found'⟩ := known.objects sid (made ▸ exists_)
    have same := streams ⟨sid, 0⟩
    rw [found', Option.map_some] at same
    obtain ⟨s, found, -⟩ := Option.map_eq_some_iff.mp same
    exact ⟨s, found⟩
  · rw [tasks, made]
    exact known.spawned
  · intro sid s found
    have same := (streams ⟨sid, 0⟩).symm
    rw [found, Option.map_some] at same
    obtain ⟨s', found', outward⟩ := Option.map_eq_some_iff.mp same
    simp only [Stream.outward, Prod.mk.injEq] at outward
    obtain ⟨window, ended, closed⟩ := outward
    have spoken := known.spoken sid s' found'
    exact ⟨spoken.proper, ended ▸ spoken.unended, by rw [tasks, ← closed]; exact spoken.resets,
      by rw [config, ← window]; exact spoken.window⟩

section

variable {h : Host} {a : Action} {e : Effect}

/-- The state of the send direction after a segment of `send` does not depend on the
fate of the chunk. -/
theorem sendLoop_attempt (s : Stream) (view : Bytes) (sent : Bool) :
    (s.sendLoop view sent).1.outward = (s.sendLoop view true).1.outward := by
  have chunk : ∀ s : Stream,
      (s.sendChunk view sent).1.outward = (s.sendChunk view true).1.outward := by
    intro s
    unfold Stream.sendChunk
    split <;> rfl
  unfold Stream.sendLoop
  split
  · rfl
  · split
    · split
      · rfl
      · simp only
        split
        · exact chunk _
        · rfl
    · exact chunk s

theorem alike_setStream (m : Mux) (r : Ref) {s s' : Stream} (same : s.outward = s'.outward) :
    Alike (m.setStream r s) (m.setStream r s') := by
  refine ⟨rfl, rfl, rfl, rfl, fun r' => ?_⟩
  by_cases here : r' = r
  · subst here
    rw [Mux.heap_setStream_self, Mux.heap_setStream_self, Option.map_some, Option.map_some, same]
  · rw [Mux.heap_setStream_ne m _ here, Mux.heap_setStream_ne m _ here]

/-- A step whose frame is lost leaves the same state as one whose frame is not. -/
theorem exists_attempt (moved : h.step a = some e) :
    ∃ e', h.step a.attempt = some e' ∧ Alike e.host.mux e'.host.mux := by
  cases a with
  | openStream sent =>
    simp only [Action.attempt, Host.step] at moved ⊢
    split at moved
    · cases moved
    next server =>
      cases moved
      refine ⟨h.openStream true, by simp [server], ?_⟩
      unfold Host.openStream
      simp only
      split
      · exact .refl _
      · exact ⟨rfl, rfl, rfl, rfl, fun _ => rfl⟩
  | send r data sent =>
    obtain ⟨s, held, moved⟩ := Option.bind_eq_some_iff.mp moved
    split at moved
    next free =>
      cases moved
      refine ⟨h.afterSend r true (s.sendStart data true), by simp [Action.attempt, Host.step, held, free], ?_⟩
      refine alike_setStream h.mux r ?_
      unfold Stream.sendStart
      split
      · rfl
      · exact sendLoop_attempt s data sent
    · cases moved
  | sendEof r sent =>
    obtain ⟨s, held, moved⟩ := Option.bind_eq_some_iff.mp moved
    split at moved
    next free =>
      cases moved
      refine ⟨h.sendEof r s true, by simp [Action.attempt, Host.step, held, free], ?_⟩
      unfold Host.sendEof
      split
      · exact .refl _
      · exact alike_setStream h.mux r rfl
    · cases moved
  | sendResume r sent =>
    obtain ⟨s, held, moved⟩ := Option.bind_eq_some_iff.mp moved
    simp only [Action.attempt, Host.step, held, Option.bind_some]
    unfold Host.sendResume at moved ⊢
    split at moved
    · cases moved
    next view busy =>
      split at moved
      next awake =>
        cases moved
        exact ⟨_, if_pos awake, alike_setStream h.mux r (sendLoop_attempt s view sent)⟩
      · cases moved
    next rest busy =>
      cases moved
      exact ⟨_, rfl, alike_setStream h.mux r (sendLoop_attempt s rest sent)⟩
    · cases moved
      exact ⟨_, rfl, .refl _⟩
    · cases moved
    · cases moved
  | ack r n sent =>
    obtain ⟨s, held, rfl⟩ := Option.map_eq_some_iff.mp moved
    refine ⟨h.ack r s n true, by simp [Action.attempt, Host.step, held], ?_⟩
    unfold Host.ack
    split
    · exact .refl _
    · split <;> exact .refl _
  | reset r sent =>
    obtain ⟨s, held, rfl⟩ := Option.map_eq_some_iff.mp moved
    refine ⟨h.reset r true, by simp [Action.attempt, Host.step, held], ?_⟩
    unfold Host.reset
    split <;> exact .refl _
  | runTask t sent =>
    simp only [Action.attempt, Host.step] at moved ⊢
    split at moved
    next inside =>
      cases moved
      refine ⟨h.runTask t true, if_pos inside, ?_⟩
      unfold Host.runTask
      cases t with
      | reset r =>
        simp only
        unfold Host.reset
        split <;> exact .refl _
      | sendOnce sid => exact .refl _
      | sendOnceSent sid => exact .refl _
    · cases moved
  | goaway sent =>
    cases moved
    exact ⟨_, rfl, .refl _⟩
  | _ => exact ⟨e, moved, .refl _⟩

end

namespace Emission

/-- What holds of the frames handed over so far. -/
structure Orderly (c : Config) (b : Emission) : Prop where
  streams : ∀ sid, ⟨.open_, sid, []⟩ ∈ b.frames →
    Proper sid (about sid b.frames) ∧ dataBytes (about sid b.frames) ≤ c.window + b.credit sid
  increasing : (openedIds b.frames).Pairwise (· < ·)
  range : ∀ id ∈ openedIds b.frames, 0 < id ∧ id ≤ 0xFFFFFFFF

/-- The frames of `late` respect the streams that were torn down at `b`. -/
def Respects (b : Emission) (late : List Frame) : Prop :=
  ∀ sid s, ⟨.open_, sid, []⟩ ∈ b.frames → b.mux.heap ⟨sid, 0⟩ = some s → s.closed = true →
    ∀ f ∈ late, f.sid = sid → f.ftype ≠ .data ∧ f.ftype ≠ .eof ∧ f.ftype ≠ .windowUpdate

/-- The responder opens nothing. -/
structure Mute (b : Emission) : Prop where
  accounted : b.mux.Accounted
  responder : b.mux.config.acceptsOpen = true
  unopened : ∀ f ∈ b.frames, f.ftype ≠ .open_

/-- Either end of a connection, with everything it has handed over. -/
structure Known (c : Config) (b : Emission) : Prop where
  config : b.mux.config = c
  side : Disciplined b.mux b.frames b.credit ∨ b.Mute

variable {c : Config} {b b' : Emission}

theorem known_start (c : Config) : (start c).Known c := by
  refine ⟨rfl, ?_⟩
  cases accepts : c.acceptsOpen with
  | false => exact Or.inl (disciplined_new accepts)
  | true => exact Or.inr ⟨Mux.accounted_new c, accepts, by simp [start]⟩

/-- A frame of a step, and what of it is the same had every frame been sent. -/
theorem step_attempt {x : Env × Action} (moved : b.step x = some b') :
    ∃ e e', (b.mux.host x.1).step x.2 = some e ∧ (b.mux.host x.1).step x.2.attempt = some e' ∧
      Alike e.host.mux e'.host.mux ∧ b' = ⟨e.host.mux, b.frames ++ e'.out,
        fun sid => b.credit sid + b.mux.credited sid x.2⟩ := by
  obtain ⟨m, stepped, rfl⟩ := Option.map_eq_some_iff.mp moved
  obtain ⟨e, ran, rfl⟩ := Option.map_eq_some_iff.mp stepped
  obtain ⟨e', whole, alike⟩ := exists_attempt ran
  refine ⟨e, e', ran, whole, alike, ?_⟩
  simp [Host.handed, whole]

theorem attempt_attempt (a : Action) : a.attempt.attempt = a.attempt := by
  cases a <;> rfl

theorem credited_attempt (m : Mux) (sid : StreamId) (a : Action) :
    m.credited sid a.attempt = m.credited sid a := by
  cases a <;> rfl

theorem Known.step {x : Env × Action} (known : b.Known c) (moved : b.step x = some b') :
    b'.Known c := by
  obtain ⟨e, e', ran, whole, alike, rfl⟩ := step_attempt moved
  obtain ⟨config, known⟩ := known
  rcases known with known | mute
  · have acc := ((known.accounted.booked x.1).step ran).mux
    have acc' := ((known.accounted.booked x.1).step whole).mux
    have after := Disciplined.step (h := b.mux.host x.1) known acc' whole (attempt_attempt x.2)
    refine ⟨(Host.config_step (h := b.mux.host x.1) ran).trans config, Or.inl ?_⟩
    have paid := after.alike alike acc
    simp only [credited_attempt] at paid
    exact paid
  · have acc := ((mute.accounted.booked x.1).step ran).mux
    have same := Host.config_step (h := b.mux.host x.1) ran
    refine ⟨same.trans config, Or.inr ⟨acc, ?_, ?_⟩⟩
    · rw [show e.host.mux.config = b.mux.config from same]
      exact mute.responder
    · intro f member
      rcases List.mem_append.mp member with old | new
      · exact mute.unopened f old
      · have emitted := Host.step_out (h := b.mux.host x.1) mute.accounted whole new
        intro type
        generalize x.2.attempt = a at whole emitted
        cases emitted with
        | open_ sent =>
          have server := (Host.step_openStream whole).1
          exact absurd (mute.responder.symm.trans server) (by decide)
        | _ => cases type

/-- What one step hands over respects the streams that were torn down before it, and
they stay torn down. -/
theorem Known.respects {x : Env × Action} (known : b.Known c) (moved : b.step x = some b') :
    ∃ late, b'.frames = b.frames ++ late ∧ b.Respects late ∧
      ∀ sid s, ⟨.open_, sid, []⟩ ∈ b.frames → b.mux.heap ⟨sid, 0⟩ = some s → s.closed = true →
        ∃ t, b'.mux.heap ⟨sid, 0⟩ = some t ∧ t.closed = true := by
  obtain ⟨e, e', ran, whole, alike, rfl⟩ := step_attempt moved
  refine ⟨e'.out, rfl, ?_⟩
  rcases known.side with known | mute
  · have told : ∀ sid s, b.mux.heap ⟨sid, 0⟩ = some s → ∃ t, e'.host.mux.heap ⟨sid, 0⟩ = some t ∧
        Says (b.mux.host x.1) sid x.2.attempt s t e' := fun sid s found =>
      says_step (h := b.mux.host x.1) known.accounted known.server
        (fun _ _ => Disciplined.sole (h := b.mux.host x.1) known) found whole
    refine ⟨fun sid s opened found closed f member here => ?_, fun sid s opened found closed => ?_⟩
    · obtain ⟨t, after, said⟩ := told sid s found
      have inside : f ∈ about sid e'.out := List.mem_filter.mpr ⟨member, by simpa using here⟩
      rcases said.frames with silent | ⟨g, one, spoke⟩
      · rw [silent] at inside
        cases inside
      · rw [one] at inside
        cases List.mem_singleton.mp inside
        simp only [Spoke, Stream.sendDone, closed, Bool.true_or, Bool.true_eq_false, and_false,
          false_and, false_or] at spoke
        simp [spoke]
    · obtain ⟨t', after, said⟩ := told sid s found
      have same := alike.streams ⟨sid, 0⟩
      rw [after, Option.map_some] at same
      obtain ⟨t, here, outward⟩ := Option.map_eq_some_iff.mp same
      simp only [Stream.outward, Prod.mk.injEq] at outward
      exact ⟨t, here, outward.2.2.trans (said.closed closed)⟩
  · refine ⟨fun sid s opened => absurd rfl (mute.unopened _ opened),
      fun sid s opened => absurd rfl (mute.unopened _ opened)⟩

theorem Known.respects_run {xs : List (Env × Action)} (known : b.Known c)
    (ran : Transition.run Emission.step b xs = some b') :
    b'.Known c ∧ ∃ late, b'.frames = b.frames ++ late ∧ b.Respects late := by
  induction xs generalizing b with
  | nil =>
    cases ran
    exact ⟨known, [], by simp, by simp [Respects]⟩
  | cons x xs ih =>
    obtain ⟨next, moved, rest⟩ := Transition.run_cons_iff.mp ran
    obtain ⟨first, frames, respects, kept⟩ := known.respects moved
    obtain ⟨known', late, frames', respects'⟩ := ih (known.step moved) rest
    refine ⟨known', first ++ late, by rw [frames', frames, List.append_assoc], ?_⟩
    intro sid s opened found closed f member here
    rcases List.mem_append.mp member with now | later
    · exact respects sid s opened found closed f now here
    · obtain ⟨t, found', closed'⟩ := kept sid s opened found closed
      exact respects' sid t (by rw [frames]; exact List.mem_append_left _ opened) found' closed' f
        later here

theorem Known.orderly (known : b.Known c) : b.Orderly c := by
  obtain ⟨config, known | mute⟩ := known
  · refine ⟨fun sid opened => ?_, known.ordered, fun id member => ?_⟩
    · have id : sid.toNat ∈ openedIds b.frames :=
        List.mem_map.mpr ⟨_, List.mem_filter.mpr ⟨opened, by simp⟩, rfl⟩
      have nonzero : sid ≠ 0 := by
        rintro rfl
        have := (known.bounded _ id).1
        simp at this
      have made : 0 < b.mux.made sid := by
        apply Nat.pos_of_ne_zero
        intro unmade
        have none := known.silent sid nonzero unmade
        have inside : (⟨.open_, sid, []⟩ : Frame) ∈ about sid b.frames :=
          List.mem_filter.mpr ⟨opened, by simp⟩
        rw [none] at inside
        cases inside
      obtain ⟨s, found⟩ := known.objects sid made
      have spoken := known.spoken sid s found
      have window := spoken.window
      have nonneg := (known.accounted.tallied _ s found).window.1
      rw [config] at window
      exact ⟨spoken.proper, by omega⟩
    · have range := known.bounded id member
      exact ⟨range.1, range.2.2⟩
  · have none : openedIds b.frames = [] := by
      simp only [openedIds, List.map_eq_nil_iff, List.filter_eq_nil_iff]
      intro f member
      simpa using mute.unopened f member
    refine ⟨fun sid opened => absurd rfl (mute.unopened _ opened), ?_, ?_⟩ <;> simp [none]

/-- **What a multiplexer sends keeps its order, whatever the peer does.** At every point of
every run, with frames that get onto the connection or are lost: the frames about a
stream it opened start with its only OPEN, carry no DATA and no second EOF behind an
EOF, at most one RESET, and no more bytes of DATA than the window and the credit
received; ids increase and stay in range; and what is handed over later holds no DATA,
EOF or WINDOW_UPDATE for a stream that was torn down by then. -/
theorem orderly_of_run {xs ys : List (Env × Action)}
    (ran : Transition.run step (start c) xs = some b) (more : Transition.run step b ys = some b') :
    b.Orderly c ∧ ∃ late, b'.frames = b.frames ++ late ∧ b.Respects late := by
  obtain ⟨known, -⟩ := (known_start c).respects_run ran
  exact ⟨known.orderly, (known.respects_run more).2⟩

/-- A stream is opened, sends a chunk within its window and the rest after credit has
arrived, and is reset; the `send_eof` and the `ack` of pumps that still run come late. -/
def lateCalls : List (Env × Action) × List (Env × Action) :=
  let env : Env := ⟨0, none⟩
  let r : Ref := ⟨1, 0⟩
  ([(env, .openStream true), (env, .openReturn r), (env, .send r [1, 2, 3] true),
      (env, .sendResume r true),
      (env, .message (.binary (Frame.message ⟨.windowUpdate, 1, packU32 1⟩))),
      (env, .sendResume r true), (env, .sendResume r true), (env, .reset r false)],
    [(env, .sendEof r true), (env, .ack r 5 true), (env, .reset r true)])

theorem orderly_after_late_calls : ∃ b b',
    Transition.run step (start (.server ⟨2, by decide, by decide⟩)) lateCalls.1 = some b ∧
      Transition.run step b lateCalls.2 = some b' ∧
      b.Orderly (.server ⟨2, by decide, by decide⟩) ∧
      ∃ late, b'.frames = b.frames ++ late ∧ b.Respects late := by
  have both : ((Transition.run step (start (.server ⟨2, by decide, by decide⟩)) lateCalls.1).bind
      fun b => Transition.run step b lateCalls.2).isSome := by decide +kernel
  obtain ⟨b', ran⟩ := Option.isSome_iff_exists.mp both
  obtain ⟨b, first, second⟩ := Option.bind_eq_some_iff.mp ran
  exact ⟨b, b', first, second, orderly_of_run first second⟩

end Emission

end Chute
