import Chute.Mux.Emits

/-!
# The books under an arbitrary peer

Every step of one end of a connection, whatever bytes arrive, keeps `Host.Booked`,
and no message makes the demultiplexer loop raise.
-/
namespace Chute

namespace Stream

/-- A segment of `send` leaves the receive books alone. -/
theorem Sends.tallied {c : Config} {s : Stream} {view : Bytes} {sent : Bool}
    {out : Stream × Option Bytes × Result} (sends : Sends s view sent out) (tallied : s.Tallied c) :
    out.1.Tallied c := by
  obtain ⟨incoming, recv, bytes, frames, _, _, closed⟩ := sends.frame
  obtain ⟨less, nonneg⟩ := sends.window
  have window := tallied.window
  refine ⟨?_, ?_, by rw [bytes]; exact tallied.bytes, by rw [frames]; exact tallied.frames,
    nonneg window.1, by omega⟩
  · rw [closed, bytes, frames, Stream.queuedBytes, Stream.chunks, incoming]
    exact tallied.live
  · rw [closed, bytes, frames, recv]
    exact tallied.dead

theorem Tallied.grant {c : Config} {s : Stream} (tallied : s.Tallied c) (delta : Nat) :
    (s.grant delta).Tallied c := by
  have window := tallied.window
  refine ⟨tallied.live, tallied.dead, tallied.bytes, tallied.frames, ?_⟩
  simp only [Stream.grant, maxSendWindow] at window ⊢
  omega

end Stream

namespace Host

/-! ### Frames -/

section

variable {h : Host} {rest : Int}

/-- The books after a message, whatever it was. -/
theorem Booked.arrival (booked : h.Booked rest) {f : Option Frame} {h' : Host}
    (arrival : Arrival h f h') : h'.Booked rest := by
  cases arrival with
  | ignored why => exact booked.ignoreFrame
  | refused sid payload nonzero responder why => exact booked.sendReset sid
  | accepted sid nonzero responder steady new room =>
    have unknown : sid ∉ h.mux.streams := by
      rw [← AList.lookup_eq_none]
      simpa [Mux.registered] using new
    refine ⟨?_, booked.account, booked.rest_nonneg⟩
    exact booked.mux.register unknown room nonzero h.mux.nextId (by simp [responder]) (le_refl _)
      h.mux.opening _
  | dropped r s payload registered found why => exact booked
  | overflow r s payload registered found accepting some_data why refused =>
    have ended := booked.setStream (r := r) (t := s.endRecv .reset) found (by simp) (by simp)
      (by simp) ((booked.mux.tallied r s found).endRecv (by decide))
    exact ended.congr rfl rfl rfl rfl rfl rfl rfl rfl
  | fed r s payload registered found accepting some_data h' admitted =>
    obtain ⟨-, live⟩ := booked.mux.registered registered
    exact booked.fed found (by simpa [found] using live) admitted
  | ended r s registered found =>
    exact booked.setStream found (by simp [Stream.feedEof]) (by simp [Stream.feedEof])
      (by simp [Stream.feedEof]) ((booked.mux.tallied r s found).endRecv (by decide))
  | malformed f r sid registered bad => exact booked.resetMalformed r
  | granted r s payload delta registered found four unpacked nonzero =>
    refine booked.setStream found ?_ ?_ ?_ ?_
    · rfl
    · rfl
    · rfl
    · exact (booked.mux.tallied r s found).grant delta.toNat
  | aborted r payload registered =>
    apply Booked.closeLocal _ r (by decide)
    exact booked.congr rfl rfl rfl rfl rfl rfl rfl rfl
  | goaway first => exact booked.congr rfl rfl rfl rfl rfl rfl rfl rfl

/-! ### Local calls -/

theorem Booked.afterSend (booked : h.Booked rest) {r : Ref} {s : Stream}
    (found : h.mux.heap r = some s) {view : Bytes} (sent : Bool)
    {out : Stream × Option Bytes × Result} (sends : Stream.Sends s view sent out) :
    (h.afterSend r sent out).host.Booked rest := by
  obtain ⟨_, _, bytes, frames, _, _, closed⟩ := sends.frame
  exact booked.setStream found closed bytes frames (sends.tallied (booked.mux.tallied r s found))

theorem Booked.openStream (booked : h.Booked rest) (server : h.mux.config.acceptsOpen = false)
    (sent : Bool) : (h.openStream sent).host.Booked rest := by
  unfold Host.openStream
  simp only
  split
  · exact booked
  next able =>
    simp only [not_or] at able
    obtain ⟨-, room, small⟩ := able
    have positive := booked.mux.nextId_pos
    have word : (UInt32.ofNat h.mux.nextId).toNat = h.mux.nextId := by
      simp only [UInt32.toNat_ofNat']
      omega
    have nonzero : UInt32.ofNat h.mux.nextId ≠ 0 := by
      intro zero
      rw [zero] at word
      simp at word
      omega
    -- ids below `nextId` only are in use, so the new one is not registered
    have new : UInt32.ofNat h.mux.nextId ∉ h.mux.streams := by
      intro member
      obtain ⟨gen, entry⟩ := Option.isSome_iff_exists.mp (AList.lookup_isSome.mpr member)
      obtain ⟨s, found, -⟩ := (booked.mux.registry ⟨_, gen⟩).mp entry
      have made := (booked.mux.fresh _ s found).1
      exact absurd (booked.mux.ids server _ (Nat.zero_lt_of_lt made)) word.not_lt
    refine ⟨?_, booked.account, booked.rest_nonneg⟩
    exact booked.mux.register new (by omega) nonzero (h.mux.nextId + 1) (fun _ => by omega)
      (by omega) _ h.mux.stats

/-- Replacing only the send side of a stream. -/
theorem Booked.setSender (booked : h.Booked rest) {r : Ref} {s : Stream}
    (found : h.mux.heap r = some s) (ended : Bool) (sender : Option Sender) :
    (h.setStream r { s with sendEnded := ended, sender := sender }).Booked rest := by
  have tallied := booked.mux.tallied r s found
  refine booked.setStream found ?_ ?_ ?_ ?_
  · rfl
  · rfl
  · rfl
  · exact ⟨tallied.live, tallied.dead, tallied.bytes, tallied.frames, tallied.window⟩

theorem Booked.sendEof (booked : h.Booked rest) {r : Ref} {s : Stream}
    (found : h.mux.heap r = some s) (sent : Bool) : (h.sendEof r s sent).host.Booked rest := by
  unfold Host.sendEof
  split
  · exact booked
  · exact booked.setSender found true (some (.eof sent))

theorem Booked.sendResume (booked : h.Booked rest) {r : Ref} {s : Stream}
    (found : h.mux.heap r = some s) {sent : Bool} {e : Effect}
    (resumed : h.sendResume r s sent = some e) : e.host.Booked rest := by
  unfold Host.sendResume at resumed
  split at resumed
  · cases resumed
  next view _ =>
    split at resumed
    · cases resumed
      exact booked.afterSend found sent (Stream.sends_sendLoop s view sent)
    · cases resumed
  next view _ =>
    cases resumed
    exact booked.afterSend found sent (Stream.sends_sendLoop s view sent)
  · cases resumed
    exact booked.setSender found s.sendEnded none
  · cases resumed
  · cases resumed

theorem Booked.sendTimeout (booked : h.Booked rest) {r : Ref} {s : Stream}
    (found : h.mux.heap r = some s) {e : Effect} (late : h.sendTimeout r s = some e) :
    e.host.Booked rest := by
  unfold Host.sendTimeout at late
  split at late
  · cases late
    have freed := booked.setSender found s.sendEnded none
    exact freed.congr rfl rfl rfl rfl rfl rfl rfl rfl
  · cases late

theorem Booked.sendRaise (booked : h.Booked rest) {r : Ref} {s : Stream}
    (found : h.mux.heap r = some s) {e : Effect} (raised : h.sendRaise r s = some e) :
    e.host.Booked rest := by
  unfold Host.sendRaise at raised
  split at raised
  · cases raised
  · cases raised
    exact booked.setSender found s.sendEnded none

theorem Booked.ack (booked : h.Booked rest) {r : Ref} {s : Stream}
    (found : h.mux.heap r = some s) (n : Nat) (sent : Bool) :
    (h.ack r s n sent).host.Booked rest := by
  have tallied := booked.mux.tallied r s found
  have noted : ∀ unacked, (h.setStream r { s with unacked := unacked }).Booked rest := by
    intro unacked
    refine booked.setStream found ?_ ?_ ?_ ?_
    · rfl
    · rfl
    · rfl
    · exact ⟨tallied.live, tallied.dead, tallied.bytes, tallied.frames, tallied.window⟩
  unfold Host.ack
  split
  · exact booked
  · split
    · exact noted 0
    · exact noted (s.unacked + n)

theorem Booked.reset (booked : h.Booked rest) (r : Ref) (sent : Bool) :
    (h.reset r sent).host.Booked rest := by
  have shut := booked.resetLocalNow r
  unfold Host.reset
  split
  all_goals
    rename_i reset
    rw [reset] at shut
    exact shut

theorem Booked.runTask (booked : h.Booked rest) (t : Task) (sent : Bool) :
    (h.runTask t sent).host.Booked rest := by
  unfold Host.runTask
  cases t with
  | reset r =>
    apply Booked.reset
    exact booked.congr rfl rfl rfl rfl rfl rfl rfl rfl
  | sendOnce sid => exact booked.congr rfl rfl rfl rfl rfl rfl rfl rfl
  | sendOnceSent sid => exact booked.congr rfl rfl rfl rfl rfl rfl rfl rfl

/-- **One step of a connection keeps the books.** -/
theorem Booked.step (booked : h.Booked rest) {a : Action} {e : Effect}
    (moved : h.step a = some e) : e.host.Booked rest := by
  cases a with
  | message msg => exact booked.arrival (step_message booked.mux moved).2.1
  | connectionLost =>
    simp only [Host.step] at moved
    split at moved
    · cases moved; exact booked.finish
    · cases moved
  | openStream sent =>
    simp only [Host.step] at moved
    split at moved
    · cases moved
    next server =>
      cases moved
      exact booked.openStream (by simpa using server) sent
  | openReturn r =>
    simp only [Host.step] at moved
    split at moved
    · cases moved; exact booked.congr rfl rfl rfl rfl rfl rfl rfl rfl
    · cases moved
  | openRaise r =>
    simp only [Host.step] at moved
    split at moved
    · cases moved
      apply Booked.closeLocal _ r (by decide)
      exact booked.congr rfl rfl rfl rfl rfl rfl rfl rfl
    · cases moved
  | send r data sent =>
    obtain ⟨s, held, moved⟩ := Option.bind_eq_some_iff.mp moved
    have found := Mux.held_heap held
    split at moved
    · cases moved
      rcases s.sendStart_eq data sent with ⟨refused, -⟩ | ⟨started, -⟩
      · rw [refused]
        exact booked.setStream found rfl rfl rfl (booked.mux.tallied r s found)
      · rw [started]
        exact booked.afterSend found sent (Stream.sends_sendLoop s data sent)
    · cases moved
  | sendEof r sent =>
    obtain ⟨s, held, moved⟩ := Option.bind_eq_some_iff.mp moved
    split at moved
    · cases moved; exact booked.sendEof (Mux.held_heap held) sent
    · cases moved
  | sendResume r sent =>
    obtain ⟨s, held, moved⟩ := Option.bind_eq_some_iff.mp moved
    exact booked.sendResume (Mux.held_heap held) moved
  | sendTimeout r =>
    obtain ⟨s, held, moved⟩ := Option.bind_eq_some_iff.mp moved
    exact booked.sendTimeout (Mux.held_heap held) moved
  | sendRaise r =>
    obtain ⟨s, held, moved⟩ := Option.bind_eq_some_iff.mp moved
    exact booked.sendRaise (Mux.held_heap held) moved
  | read r =>
    obtain ⟨s, held, moved⟩ := Option.bind_eq_some_iff.mp moved
    exact booked.read (Mux.held_heap held) moved
  | ack r n sent =>
    obtain ⟨s, held, rfl⟩ := Option.map_eq_some_iff.mp moved
    exact booked.ack (Mux.held_heap held) n sent
  | reset r sent =>
    obtain ⟨s, held, rfl⟩ := Option.map_eq_some_iff.mp moved
    exact booked.reset r sent
  | close r =>
    obtain ⟨s, held, rfl⟩ := Option.map_eq_some_iff.mp moved
    exact booked.closeLocal r (by decide)
  | runTask t sent =>
    simp only [Host.step] at moved
    split at moved
    · cases moved; exact booked.runTask t sent
    · cases moved
  | goaway sent => cases moved; exact booked.congr rfl rfl rfl rfl rfl rfl rfl rfl
  | rearmIdle =>
    simp only [Host.step] at moved
    split at moved
    · cases moved
    · cases moved; exact booked.congr rfl rfl rfl rfl rfl rfl rfl rfl
  | writeStall => cases moved; exact booked.congr rfl rfl rfl rfl rfl rfl rfl rfl
  | closeStall => cases moved; exact booked.congr rfl rfl rfl rfl rfl rfl rfl rfl

/-! ### After the loop has ended -/

/-- A step either leaves the loop as it was or empties the registry. -/
def Rests (h h' : Host) : Prop := h'.mux.running = h.mux.running ∨ h'.mux.streams = ∅

@[simp] theorem running_sendReset (m : Mux) (sid : StreamId) :
    (m.sendReset sid).running = m.running := by
  unfold Mux.sendReset
  split
  · rfl
  · split <;> rfl

theorem running_resetLocalNow (h : Host) (r : Ref) :
    (h.resetLocalNow r).1.mux.running = h.mux.running := by
  unfold resetLocalNow
  split
  · rfl
  · simp only
    split
    · exact (kept_closeLocal h r .reset).running
    · exact (kept_closeLocal h r .reset).running

theorem rests_arrival {f : Option Frame} {h' : Host} (arrival : Arrival h f h') : Rests h h' := by
  cases arrival with
  | ignored why =>
    unfold ignoreFrame
    simp only
    split
    · exact Or.inl rfl
    · exact Or.inr rfl
  | refused sid payload nonzero responder why => exact Or.inl (running_sendReset h.mux sid)
  | fed r s payload registered found accepting some_data h' admitted =>
    exact Or.inl (by simp [Mux.setStream, admitted.mux])
  | malformed f r sid registered bad =>
    have kept := running_resetLocalNow h r
    unfold resetMalformed
    split
    all_goals
      rename_i reset
      rw [reset] at kept
      exact Or.inl (by simpa using kept)
  | aborted r payload registered =>
    exact Or.inl (kept_closeLocal (h.updateMux _) _ .reset).running
  | _ => exact Or.inl rfl

theorem rests_step (acc : h.mux.Accounted) {a : Action} {e : Effect} (moved : h.step a = some e) :
    Rests h e.host := by
  cases here : a.isLocal with
  | true => exact Or.inl (step_local moved here).running
  | false =>
    cases a with
    | message msg => exact rests_arrival (step_message acc moved).2.1
    | connectionLost =>
      simp only [Host.step] at moved
      split at moved
      · cases moved; exact Or.inr rfl
      · cases moved
    | openStream sent =>
      rcases (step_openStream moved).2 with ⟨same, -⟩ | ⟨-, mux, -⟩
      · exact Or.inl (by rw [same])
      · exact Or.inl (by rw [mux]; rfl)
    | _ => cases here

/-- What a step can do to the receive counters and the queue of one object. -/
theorem Touch.queue {r : Ref} {s t : Stream} {a : Action} {out : List Frame} {res : Result}
    (touch : Touch h r s a out res t) (tallied : s.Tallied h.mux.config) :
    (t.recvBuffered ≤ s.recvBuffered ∧ t.recvFrames ≤ s.recvFrames ∧
        t.queuedBytes ≤ s.queuedBytes) ∨
      ∃ msg data h', a = .message msg ∧ data ≠ [] ∧ Admitted h s data h' ∧
        t.queuedBytes = s.queuedBytes + data.length := by
  have counters := tallied.counters_nonneg
  cases touch with
  | pass other => exact Or.inl ⟨le_refl _, le_refl _, le_refl _⟩
  | shut other terminal past live =>
    refine Or.inl ⟨?_, ?_, ?_⟩
    · simpa [Stream.shut] using counters.1
    · simpa [Stream.shut] using counters.2
    · simp [Stream.queuedBytes]
  | fed data carries registered accepting some_data h' admitted =>
    refine Or.inr ⟨_, data, h', rfl, some_data, admitted, ?_⟩
    simp [Stream.queuedBytes, Stream.chunks, List.reduceOption_append]
  | overflow data carries registered accepting some_data why refused =>
    exact Or.inl ⟨by simp, by simp, by simp [Stream.queuedBytes]⟩
  | ended carries registered =>
    exact Or.inl ⟨by simp [Stream.feedEof], by simp [Stream.feedEof],
      by simp [Stream.feedEof, Stream.queuedBytes]⟩
  | granted payload delta carries registered four unpacked nonzero =>
    exact Or.inl ⟨le_refl _, le_refl _, le_refl _⟩
  | refused data sent free done => exact Or.inl ⟨le_refl _, le_refl _, le_refl _⟩
  | started data sent o free going sends =>
    obtain ⟨incoming, _, bytes, frames, _⟩ := sends.frame
    exact Or.inl ⟨bytes.le, frames.le, by rw [Stream.queuedBytes, Stream.chunks, incoming]; rfl⟩
  | resumed view sent o busy sends =>
    obtain ⟨incoming, _, bytes, frames, _⟩ := sends.frame
    exact Or.inl ⟨bytes.le, frames.le, by rw [Stream.queuedBytes, Stream.chunks, incoming]; rfl⟩
  | eofSent sent busy => exact Or.inl ⟨le_refl _, le_refl _, le_refl _⟩
  | timedOut view busy => exact Or.inl ⟨le_refl _, le_refl _, le_refl _⟩
  | raised sender busy => exact Or.inl ⟨le_refl _, le_refl _, le_refl _⟩
  | eofLate sent free done => exact Or.inl ⟨le_refl _, le_refl _, le_refl _⟩
  | eof sent free going => exact Or.inl ⟨le_refl _, le_refl _, le_refl _⟩
  | readEnd tail first =>
    refine Or.inl ⟨le_refl _, le_refl _, ?_⟩
    simp [Stream.queuedBytes, Stream.chunks, first]
  | readLate chunk tail first closed =>
    refine Or.inl ⟨le_refl _, le_refl _, ?_⟩
    simp [Stream.queuedBytes, Stream.chunks, first]
  | read chunk tail first live =>
    refine Or.inl ⟨by simp only; omega, by simp only; omega, ?_⟩
    simp [Stream.queuedBytes, Stream.chunks, first]
  | ackVoid n sent why => exact Or.inl ⟨le_refl _, le_refl _, le_refl _⟩
  | ackKept n sent live whole pos small => exact Or.inl ⟨le_refl _, le_refl _, le_refl _⟩
  | ackFlush n sent live whole pos large => exact Or.inl ⟨le_refl _, le_refl _, le_refl _⟩

/-- Once the loop has ended, the counters of the connection stay at zero. -/
def Settled (h : Host) : Prop := h.mux.running = false → h.mux.buffered = 0 ∧ h.mux.frames = 0

theorem Settled.step (settled : h.Settled) (booked : h.Booked rest) {a : Action} {e : Effect}
    (moved : h.step a = some e) : e.host.Settled := by
  intro ended
  have after := (booked.step moved).mux
  rcases rests_step booked.mux moved with running | empty
  · have zero := settled (running.symm.trans ended)
    -- nothing arrives any more, so no counter of any object can have grown
    have still : ∀ r t, e.host.mux.heap r = some t → t.recvBuffered = 0 ∧ t.recvFrames = 0 := by
      intro r t now
      have nonneg := (after.tallied r t now).counters_nonneg
      cases before : h.mux.heap r with
      | none =>
        rcases step_absent booked.mux before moved with absent | ⟨created, -, -⟩
        · rw [absent] at now; cases now
        · rw [created] at now; cases now; exact ⟨rfl, rfl⟩
      | some s =>
        have tallied := booked.mux.tallied r s before
        have totals := booked.mux.le_totals before
        obtain ⟨t', same, touch⟩ := step_touch booked.mux before moved
        rw [now] at same
        cases same
        rcases touch.queue tallied with less | ⟨msg, data, h', rfl, -⟩
        · omega
        · simp [Host.step, running.symm.trans ended] at moved
    have none : ∀ f : Stream → Int, (∀ r t, e.host.mux.heap r = some t → f t = 0) →
        e.host.mux.streams.sumBy (e.host.mux.valueOf f) = 0 := by
      intro f flat
      apply List.sum_eq_zero
      intro x member
      obtain ⟨entry, -, rfl⟩ := List.mem_map.mp member
      unfold Mux.valueOf
      cases found : e.host.mux.heap ⟨entry.1, entry.2⟩ with
      | none => rfl
      | some t => exact flat _ t found
    exact ⟨after.buffered.trans (none _ fun r t now => (still r t now).1),
      after.frames.trans (none _ fun r t now => (still r t now).2)⟩
  · rw [after.buffered, after.frames, empty]
    exact ⟨rfl, rfl⟩

end

end Host

/-! ### The end of the receive direction -/

/-- The `None` that ends the receive direction stands last in the queue. -/
structure Stream.Sealed (s : Stream) : Prop where
  past : none ∈ s.incoming → s.recv ≠ .open_
  last : ∀ before after, s.incoming = before ++ none :: after → after = []

namespace Stream

theorem Sealed.congr {s t : Stream} (closed : s.Sealed) (incoming : t.incoming = s.incoming)
    (recv : t.recv = s.recv) : t.Sealed :=
  ⟨by rw [incoming, recv]; exact closed.past, by rw [incoming]; exact closed.last⟩

theorem Sealed.endRecv {s : Stream} (closed : s.Sealed) {t : RecvState} (past : t ≠ .open_) :
    (s.endRecv t).Sealed := by
  unfold Stream.endRecv
  split
  next accepting =>
    refine ⟨fun _ => past, fun before after split => ?_⟩
    rcases List.eq_nil_or_concat after with rfl | ⟨front, final, rfl⟩
    · rfl
    · exfalso
      have shape : before ++ none :: front.concat final = (before ++ none :: front) ++ [final] := by
        simp
      have cut := (List.append_inj' (split.trans shape) rfl).1
      exact closed.past (by simp [cut]) accepting
  · exact closed

theorem Sealed.tail {s t : Stream} (closed : s.Sealed) {c : Option Bytes}
    (first : s.incoming = c :: t.incoming) (recv : t.recv = s.recv) : t.Sealed := by
  refine ⟨fun member => ?_, fun before after split => ?_⟩
  · rw [recv]
    exact closed.past (by rw [first]; exact List.mem_cons_of_mem c member)
  · exact closed.last (c :: before) after (by rw [first, split]; rfl)

end Stream

theorem Host.Touch.closed {h : Host} {r : Ref} {s t : Stream} {a : Action} {out : List Frame}
    {res : Result} (touch : h.Touch r s a out res t) (closed : s.Sealed) : t.Sealed := by
  cases touch with
  | shut other terminal past live =>
    have kept : Stream.Sealed
        { s with closed := true, windowWaiter := true, recvBuffered := 0, recvFrames := 0 } :=
      closed.congr rfl rfl
    exact kept.endRecv past
  | fed data carries registered accepting some_data h' admitted =>
    have none_left : none ∉ s.incoming := fun member => closed.past member accepting
    refine ⟨fun member => ?_, fun before after split => ?_⟩
    · simp [none_left] at member
    · have member : none ∈ s.incoming ++ [some data] := by
        rw [show s.incoming ++ [some data] = _ from split]; simp
      simp [none_left] at member
  | overflow data carries registered accepting some_data why refused =>
    exact closed.endRecv (by decide)
  | ended carries registered => exact closed.endRecv (by decide)
  | started data sent o free going sends =>
    obtain ⟨incoming, recv, _⟩ := sends.frame
    exact closed.congr incoming recv
  | resumed view sent o busy sends =>
    obtain ⟨incoming, recv, _⟩ := sends.frame
    exact closed.congr incoming recv
  | readEnd tail first => exact closed.tail first rfl
  | readLate chunk tail first _ => exact closed.tail first rfl
  | read chunk tail first live => exact closed.tail first rfl
  | _ => exact closed.congr rfl rfl

/-- All queues of a connection end where their receive direction does. -/
def Mux.Sealed (m : Mux) : Prop := ∀ r s, m.heap r = some s → s.Sealed

theorem Host.closed_step {h : Host} (acc : h.mux.Accounted) (closed : h.mux.Sealed) {a : Action}
    {e : Effect} (moved : h.step a = some e) : e.host.mux.Sealed := by
  intro r t after
  cases before : h.mux.heap r with
  | none =>
    rcases step_absent acc before moved with absent | ⟨created, -, -⟩
    · rw [absent] at after; cases after
    · rw [created] at after
      cases after
      exact ⟨by simp [Stream.new], by simp [Stream.new]⟩
  | some s =>
    obtain ⟨t', same, touch⟩ := step_touch acc before moved
    rw [after] at same
    cases same
    exact touch.closed (closed r s before)

/-! ### A connection on its own -/

/-- What the buffer callbacks of a connection find at one moment: the bytes its
account holds for other connections, and the limit in force. -/
structure Env where
  others : Nat
  maxBufferedBytes : Option Int

namespace Mux

def host (m : Mux) (env : Env) : Host := ⟨m, ⟨m.booked + env.others, env.maxBufferedBytes⟩⟩

/-- A step of a connection, whatever the rest of its account does meanwhile. -/
def step (m : Mux) (x : Env × Action) : Option Mux :=
  ((m.host x.1).step x.2).map fun e => e.host.mux

variable {m : Mux}

theorem Accounted.booked (acc : m.Accounted) (env : Env) : (m.host env).Booked env.others :=
  ⟨acc, rfl, Int.natCast_nonneg _⟩

theorem accounted_new (c : Config) : (Mux.new c).Accounted := by
  constructor <;> simp [Mux.new, Mux.activeStreams, maxConnBuffered, maxConnFrames]

theorem Accounted.step (acc : m.Accounted) {x : Env × Action} {m' : Mux}
    (moved : m.step x = some m') : m'.Accounted := by
  obtain ⟨e, stepped, rfl⟩ := Option.map_eq_some_iff.mp moved
  exact ((acc.booked x.1).step stepped).mux

end Mux

end Chute
