import Chute.Lib.Lane
import Chute.Pair.Wire

/-!
# The lanes of a connection

Each direction of each stream is a credit-controlled lane: `laneView` reads the state
of a lane off the two stream objects, their ledgers and the frames in flight, and every
step of the pair is a sequence of steps of each lane.
-/
namespace Chute

open Relation (ReflTransGen)

/-- The data and end marks of one stream among frames in flight. -/
def packets (sid : StreamId) (frames : List Frame) : List (Lane.Packet UInt8) :=
  frames.filterMap fun f =>
    if f.sid = sid then
      match f.ftype with
      | .data => some (.data f.payload)
      | .eof => some .fin
      | _ => none
    else none

/-- The credit for one stream among frames in flight. -/
def credits (sid : StreamId) (frames : List Frame) : List Nat :=
  frames.filterMap fun f =>
    if f.sid = sid then
      match f.ftype with
      | .windowUpdate => (unpackU32 f.payload).map UInt32.toNat
      | _ => none
    else none

theorem packets_append (sid : StreamId) (first second : List Frame) :
    packets sid (first ++ second) = packets sid first ++ packets sid second :=
  List.filterMap_append

theorem credits_append (sid : StreamId) (first second : List Frame) :
    credits sid (first ++ second) = credits sid first ++ credits sid second :=
  List.filterMap_append

def RecvState.phase : RecvState → Lane.Phase
  | open_ => .open_
  | eof => .ended
  | reset => .aborted

@[simp] theorem RecvState.phase_eq_open {t : RecvState} : t.phase = .open_ ↔ t = .open_ := by
  cases t <;> simp [RecvState.phase]

namespace Sender

/-- What a suspended `send` has left to transmit. -/
def view : Option Sender → Option Bytes
  | some (.credit view) => some view
  | some (.data rest _) => some rest
  | _ => none

/-- The call waits for a frame that will not get through. -/
def doomed : Option Sender → Bool
  | some (.data _ false) => true
  | _ => false

def asleep : Option Sender → Bool
  | some (.credit _) => true
  | _ => false

end Sender

/-- The lane from the object `s` to the object `t`. -/
def laneView (s t : Stream) (l k : Ledger) (link : List (Lane.Packet UInt8)) (back : List Nat) :
    Lane.State UInt8 where
  window := s.sendWindow
  call := Sender.view s.sender
  doomed := Sender.doomed s.sender
  asleep := Sender.asleep s.sender
  wake := s.windowWaiter
  ended := s.sendEnded
  senderDead := s.closed
  link := link
  back := back
  queue := t.chunks
  phase := t.recv.phase
  held := k.pending.sum
  unacked := t.unacked
  receiverDead := t.closed
  passed := l.passed
  failed := l.failed
  clean := l.clean
  mark := l.mark
  taken := k.taken
  byFin := k.byEof
  told := k.told

/-- The parameters of the lanes of a connection. -/
def Setup.lane (S : Setup) : Lane.Params where
  window := S.window
  threshold := max 1 (S.window / 2)
  one_le_threshold := le_max_left _ _
  threshold_le := by
    have := S.flowWindow.one_le
    simp only [Setup.window]
    omega

/-- Every frame the action hands to the connection gets onto it. -/
def Action.lossless : Action → Bool
  | .openStream sent => sent
  | .send _ _ sent => sent
  | .sendEof _ sent => sent
  | .sendResume _ sent => sent
  | .ack _ _ sent => sent
  | .reset _ sent => sent
  | .runTask _ sent => sent
  | .goaway sent => sent
  | _ => true

/-! ### Local steps, seen from the sending end -/

section

variable {P : Lane.Params} {mode : Lane.Mode} {h : Host} {r : Ref} {s t : Stream} {l k : Ledger}
  {link : List (Lane.Packet UInt8)} {back : List Nat}

@[simp] theorem packets_emit_data (sent : Bool) (sid : StreamId) (payload : Bytes) :
    packets sid (emit sent .data sid payload) = if sent then [.data payload] else [] := by
  cases sent <;> simp [emit, packets]

@[simp] theorem packets_emit_eof (sent : Bool) (sid : StreamId) :
    packets sid (emit sent .eof sid []) = if sent then [.fin] else [] := by
  cases sent <;> simp [emit, packets]

@[simp] theorem packets_emit_windowUpdate (sent : Bool) (sid : StreamId) (payload : Bytes) :
    packets sid (emit sent .windowUpdate sid payload) = [] := by
  cases sent <;> simp [emit, packets]

@[simp] theorem credits_emit_data (sent : Bool) (sid : StreamId) (payload : Bytes) :
    credits sid (emit sent .data sid payload) = [] := by
  cases sent <;> simp [emit, credits]

@[simp] theorem credits_emit_eof (sent : Bool) (sid : StreamId) :
    credits sid (emit sent .eof sid []) = [] := by
  cases sent <;> simp [emit, credits]

@[simp] theorem credits_emit_windowUpdate (sent : Bool) (sid : StreamId) (delta : UInt32) :
    credits sid (emit sent .windowUpdate sid (packU32 delta)) =
      if sent then [delta.toNat] else [] := by
  cases sent <;> simp [emit, credits]

/-- The lane while a call that has `view` left is running. -/
def busyLane (s t : Stream) (l k : Ledger) (link : List (Lane.Packet UInt8)) (back : List Nat)
    (view : Bytes) (asleep : Bool) : Lane.State UInt8 :=
  { laneView s t l k link back with call := some view, doomed := false, asleep := asleep }

/-- A segment of `send` that has the call is a step of the lane. -/
theorem lane_sends {view : Bytes} {sent : Bool} {o : Stream × Option Bytes × Result}
    (sends : Stream.Sends s view sent o) (lossless : mode.lossless = true → sent = true) (asleep : Bool) :
    ReflTransGen (Lane.Step P mode) (busyLane s t l k link back view asleep)
      (laneView o.1 t { l with failed := l.failed || o.2.2 == .raised } k
        (link ++ packets r.sid (h.afterSend r sent o).out) back) := by
  refine .single ?_
  cases sends with
  | returns empty =>
    subst empty
    have after : Lane.Step P mode (busyLane s t l k link back [] asleep) _ := .finish rfl rfl
    convert after using 1
    simp [busyLane, laneView, Host.afterSend, packets, Sender.view, Sender.doomed, Sender.asleep]
  | raises left done =>
    have after : Lane.Step P mode (busyLane s t l k link back view asleep) _ := .fail view rfl
    convert after using 1
    simp [busyLane, laneView, Host.afterSend, packets, Sender.view, Sender.doomed, Sender.asleep]
  | parks left going dry =>
    simp only [Stream.sendDone, Bool.or_eq_false_iff] at going
    have after : Lane.Step P mode (busyLane s t l k link back view asleep) _ :=
      .sleep view rfl rfl dry going.1 going.2
    convert after using 1
    simp [busyLane, laneView, Host.afterSend, packets, Sender.view, Sender.doomed, Sender.asleep]
  | emits n going pos fits credit frame =>
    simp only [Stream.sendDone, Bool.or_eq_false_iff] at going
    cases sent with
    | true =>
      have after : Lane.Step P mode (busyLane s t l k link back view asleep) _ :=
        .transmit view n rfl rfl pos fits credit going.1 going.2
      convert after using 1
      simp [busyLane, laneView, Host.afterSend, Sender.view, Sender.doomed, Sender.asleep]
    | false =>
      have loose : mode.lossless = false := by
        by_contra whole
        exact absurd (lossless (by simpa using whole)) (by simp)
      have after : Lane.Step P mode (busyLane s t l k link back view asleep) _ :=
        .lose view n rfl credit loose
      convert after using 1
      simp [busyLane, laneView, Host.afterSend, Sender.view, Sender.doomed, Sender.asleep]

/-- What a local step does to a stream is done by its sending lane. -/
theorem lane_sender {a : Action} {out : List Frame} {res : Result} {s' : Stream}
    (touch : h.Touch r s a out res s') (here : a.isMessage = false)
    (lossless : mode.lossless = true → a.lossless = true)
    (silent : a.target ≠ some r → packets r.sid out = []) :
    ReflTransGen (Lane.Step P mode) (laneView s t l k link back)
      (laneView s' t (l.after r s a res) k (link ++ packets r.sid out) back) := by
  cases touch with
  | pass other =>
    rw [silent other, List.append_nil, Ledger.after, if_neg other]
  | shut other terminal past live =>
    rw [silent other, List.append_nil, Ledger.after, if_neg other]
    have after : Lane.Step P mode (laneView s t l k link back) _ := .killSender
    refine .single ?_
    convert after using 1
    simp [laneView]
  | fed => cases here
  | overflow => cases here
  | ended => cases here
  | granted => cases here
  | refused data sent free done =>
    have after : Lane.Step P mode (laneView s t l k link back) _ :=
      .refuse data (by simp [laneView, free, Sender.view])
    refine .single ?_
    convert after using 1
    simp [laneView, Ledger.after, Ledger.note, Action.target, packets]
  | started data sent o free going sends =>
    simp only [Stream.sendDone, Bool.or_eq_false_iff] at going
    have started : Lane.Step P mode (laneView s t l k link back) _ :=
      .begin data (by simp [laneView, free, Sender.view]) going.1 going.2
    have noted : l.after r s (.send r data sent) o.2.2 = { l with
        passed := l.passed ++ [data]
        clean := l.clean && !l.failed
        failed := l.failed || o.2.2 == .raised } := by
      simp [Ledger.after, Ledger.note, Action.target]
    rw [noted]
    exact .head started (lane_sends (l := { l with
      passed := l.passed ++ [data]
      clean := l.clean && !l.failed }) sends lossless false)
  | resumed view sent o busy sends =>
    have lane : laneView s t l k link back =
        busyLane s t l k link back view (Sender.asleep s.sender) := by
      rcases busy with ⟨busy, -⟩ | busy <;>
        simp [busyLane, laneView, busy, Sender.view, Sender.doomed]
    have noted : l.after r s (.sendResume r sent) o.2.2 =
        { l with failed := l.failed || o.2.2 == .raised } := by
      simp [Ledger.after, Ledger.note, Action.target]
    rw [lane, noted]
    exact lane_sends sends lossless (Sender.asleep s.sender)
  | eofSent sent busy =>
    convert ReflTransGen.refl using 1
    simp [laneView, Ledger.after, Ledger.note, Action.target, packets, busy, Sender.view,
      Sender.doomed, Sender.asleep]
  | timedOut view busy =>
    have after : Lane.Step P mode (laneView s t l k link back) _ :=
      .fail view (by simp [laneView, busy, Sender.view])
    refine .single ?_
    convert after using 1
    simp [laneView, Ledger.after, Ledger.note, Action.target, packets, Sender.view, Sender.doomed,
      Sender.asleep]
  | raised sender busy =>
    cases sender with
    | eof sent =>
      convert ReflTransGen.refl using 1
      simp [laneView, Ledger.after, Ledger.note, Action.target, packets, busy, Sender.view,
        Sender.doomed, Sender.asleep]
    | credit view =>
      have after : Lane.Step P mode (laneView s t l k link back) _ :=
        .fail view (by simp [laneView, busy, Sender.view])
      refine .single ?_
      convert after using 1
      simp [laneView, Ledger.after, Ledger.note, Action.target, packets, busy, Sender.view,
        Sender.doomed, Sender.asleep]
    | data rest sent =>
      have after : Lane.Step P mode (laneView s t l k link back) _ :=
        .fail rest (by simp [laneView, busy, Sender.view])
      refine .single ?_
      convert after using 1
      simp [laneView, Ledger.after, Ledger.note, Action.target, packets, busy, Sender.view,
        Sender.doomed, Sender.asleep]
  | eofLate sent free done =>
    convert ReflTransGen.refl using 1
    simp [Ledger.after, Ledger.note, Action.target, packets]
  | eof sent free going =>
    simp only [Stream.sendDone, Bool.or_eq_false_iff] at going
    have after : Lane.Step P mode (laneView s t l k link back) _ :=
      .hangUp sent (by simp [laneView, free, Sender.view]) going.1 going.2
    refine .single ?_
    convert after using 1
    simp [laneView, Ledger.after, Ledger.note, Action.target, free, Sender.view, Sender.doomed,
      Sender.asleep]
  | readEnd tail first =>
    convert ReflTransGen.refl using 1
    simp [laneView, Ledger.after, Ledger.note, Action.target, packets]
  | readLate chunk tail first closed =>
    convert ReflTransGen.refl using 1
    simp [laneView, Ledger.after, Ledger.note, Action.target, packets]
  | read chunk tail first live =>
    convert ReflTransGen.refl using 1
    simp [laneView, Ledger.after, Ledger.note, Action.target, packets]
  | ackVoid n sent why =>
    convert ReflTransGen.refl using 1
    simp [laneView, Ledger.after, Ledger.note, Action.target, packets]
  | ackKept n sent live whole pos small =>
    convert ReflTransGen.refl using 1
    simp [laneView, Ledger.after, Ledger.note, Action.target, packets]
  | ackFlush n sent live whole pos large =>
    convert ReflTransGen.refl using 1
    simp [laneView, Ledger.after, Ledger.note, Action.target]

/-! ### Local steps, seen from the receiving end -/

theorem phase_shut (s : Stream) (terminal : RecvState) :
    (s.shut terminal).recv.phase =
      if s.recv.phase = .open_ then terminal.phase else s.recv.phase := by
  rw [Stream.recv_shut]
  by_cases accepting : s.recv = .open_ <;> simp [accepting]

/-- Tearing a stream down ends the lane at its receiving end. -/
theorem lane_shut_receiver {terminal : RecvState} (past : terminal ≠ .open_) :
    Lane.Step P mode (laneView t s k l link back) (laneView t (s.shut terminal) k l link back) := by
  have after : Lane.Step P mode (laneView t s k l link back) _ :=
    .killReceiver terminal.phase (by simpa using past)
  convert after using 1
  simp only [laneView, phase_shut, Stream.chunks_shut, Stream.unacked_shut, Stream.closed_shut]
  rfl

/-- Tearing a stream down ends the lane at its sending end. -/
theorem lane_shut_sender {terminal : RecvState} :
    Lane.Step P mode (laneView s t l k link back) (laneView (s.shut terminal) t l k link back) := by
  have after : Lane.Step P mode (laneView s t l k link back) _ := .killSender
  convert after using 1
  simp [laneView]

theorem sum_erase_le (pending : List Nat) (n : Nat) : (pending.erase n).sum ≤ pending.sum :=
  (List.erase_sublist).sum_le_sum (by simp)

/-- What a local step does to a stream is done by its receiving lane. -/
theorem lane_receiver {a : Action} {out : List Frame} {res : Result} {s' : Stream}
    (touch : h.Touch r s a out res s') (here : a.isMessage = false) (closed : s.Sealed)
    (threshold : h.mux.config.windowUpdateThreshold = P.threshold)
    (lossless : mode.lossless = true → a.lossless = true)
    (honest : mode.honest = true → ∀ n sent, a = .ack r n sent → n ∈ l.pending ∧ s.unacked + n < 2 ^ 32)
    (silent : a.target ≠ some r → credits r.sid out = []) :
    ReflTransGen (Lane.Step P mode) (laneView t s k l link back)
      (laneView t s' k (l.after r s a res) link (back ++ credits r.sid out)) := by
  cases touch with
  | pass other => rw [silent other, List.append_nil, Ledger.after, if_neg other]
  | shut other terminal past live =>
    rw [silent other, List.append_nil, Ledger.after, if_neg other]
    exact .single (lane_shut_receiver past)
  | fed => cases here
  | overflow => cases here
  | ended => cases here
  | granted => cases here
  | refused data sent free done =>
    convert ReflTransGen.refl using 1
    simp [laneView, Ledger.after, Ledger.note, Action.target, credits]
  | started data sent o free going sends =>
    obtain ⟨incoming, recv, -, -, unacked, -, closed⟩ := sends.frame
    have quiet : credits r.sid (h.afterSend r sent o).out = [] := by
      simp only [Host.afterSend]
      split
      · exact credits_emit_data sent r.sid _
      · rfl
    convert ReflTransGen.refl using 1
    simp [laneView, Ledger.after, Ledger.note, Action.target, quiet, Stream.chunks, incoming, recv,
      unacked, closed]
  | resumed view sent o busy sends =>
    obtain ⟨incoming, recv, -, -, unacked, -, closed⟩ := sends.frame
    have quiet : credits r.sid (h.afterSend r sent o).out = [] := by
      simp only [Host.afterSend]
      split
      · exact credits_emit_data sent r.sid _
      · rfl
    convert ReflTransGen.refl using 1
    simp [laneView, Ledger.after, Ledger.note, Action.target, quiet, Stream.chunks, incoming, recv,
      unacked, closed]
  | eofSent sent busy =>
    convert ReflTransGen.refl using 1
    simp [laneView, Stream.chunks, Ledger.after, Ledger.note, Action.target, credits]
  | timedOut view busy =>
    convert ReflTransGen.refl using 1
    simp [laneView, Stream.chunks, Ledger.after, Ledger.note, Action.target, credits]
  | raised sender busy =>
    convert ReflTransGen.refl using 1
    cases sender <;>
      simp [laneView, Stream.chunks, Ledger.after, Ledger.note, Action.target, credits, busy]
  | eofLate sent free done =>
    convert ReflTransGen.refl using 1
    simp [Ledger.after, Ledger.note, Action.target, credits]
  | eof sent free going =>
    convert ReflTransGen.refl using 1
    simp [laneView, Stream.chunks, Ledger.after, Ledger.note, Action.target]
  | readEnd tail first =>
    have empty : tail = [] := closed.last [] tail first
    have past : s.recv ≠ .open_ := closed.past (by simp [first])
    have after : Lane.Step P mode (laneView t s k l link back) _ :=
      .readEnd (by simp [laneView, Stream.chunks, first, empty]) (by simpa [laneView] using past)
    refine .single ?_
    convert after using 1
    simp [laneView, Stream.chunks, first, Ledger.after, Ledger.note, Action.target, credits]
  | readLate chunk tail first closed =>
    have after : Lane.Step P mode (laneView t s k l link back) _ :=
      .read chunk tail.reduceOption (by simp [laneView, Stream.chunks, first])
    refine .single ?_
    convert after using 1
    simp [laneView, Stream.chunks, Ledger.after, Ledger.note, Action.target, credits]
  | read chunk tail first live =>
    have after : Lane.Step P mode (laneView t s k l link back) _ :=
      .read chunk tail.reduceOption (by simp [laneView, Stream.chunks, first])
    refine .single ?_
    convert after using 1
    simp [laneView, Stream.chunks, Ledger.after, Ledger.note, Action.target, credits]
  | ackVoid n sent why =>
    have less := sum_erase_le l.pending n
    by_cases zero : n = 0
    · have same : (l.pending.erase n).sum = l.pending.sum := by
        by_cases member : n ∈ l.pending
        · have := List.sum_erase member
          omega
        · rw [List.erase_of_not_mem member]
      convert ReflTransGen.refl using 1
      simp [laneView, Ledger.after, Ledger.note, Action.target, credits, same]
    · have after : Lane.Step P mode (laneView t s k l link back) _ :=
        .ackLate (l.pending.erase n).sum (by
          rcases why with dead | reset | none
          · exact Or.inl dead
          · exact Or.inr (by simp [laneView, reset, RecvState.phase])
          · exact absurd none zero) less
      refine .single ?_
      convert after using 1
      simp [laneView, Ledger.after, Ledger.note, Action.target, credits]
  | ackKept n sent live whole pos small =>
    have after : Lane.Step P mode (laneView t s k l link back) _ :=
      .ack n (l.pending.erase n).sum (fun fair => by
        have := List.sum_erase (honest fair n sent rfl).1
        simp only [laneView]
        omega) (by rw [← threshold]; exact small)
    refine .single ?_
    convert after using 1
    simp [laneView, Stream.chunks, Ledger.after, Ledger.note, Action.target, credits]
  | ackFlush n sent live whole pos large =>
    have after : Lane.Step P mode (laneView t s k l link back) _ :=
      .flush n (l.pending.erase n).sum (sent && decide (s.unacked + n < 2 ^ 32)) (fun fair => by
        have := List.sum_erase (honest fair n sent rfl).1
        simp only [laneView]
        omega) (fun fair whole => by
          have sent' : sent = true := lossless whole
          rw [sent', decide_eq_true (honest fair n sent rfl).2]
          rfl) pos
    have delta : (if (sent && decide (s.unacked + n < 2 ^ 32)) = true then
        [(UInt32.ofNat (s.unacked + n)).toNat] else []) =
        if (sent && decide (s.unacked + n < 2 ^ 32)) = true then [s.unacked + n] else [] := by
      by_cases fits : s.unacked + n < 2 ^ 32
      · rw [UInt32.toNat_ofNat', Nat.mod_eq_of_lt fits]
      · rw [decide_eq_false fits, Bool.and_false]
        rfl
    refine .single ?_
    convert after using 1
    simp only [laneView, Stream.chunks, Ledger.after, Ledger.note, Action.target,
      credits_emit_windowUpdate, delta, if_true]

end

end Chute
