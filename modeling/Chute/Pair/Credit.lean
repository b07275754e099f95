import Chute.Pair.Simulation

/-!
# Flow control of a connection

In every strict run the credit of each direction of each stream is conserved: what the
sender may still send, what is on its way in either direction and what the receiver
has not returned add up to the flow window. The backstops of `_feed` and the cap in
`_grant` are out of reach because of it, and no `send` waits for credit that will not
come.
-/
namespace Chute

/-- A `send` sleeps in `_window_waiter.wait()`, and nobody has set the event. -/
def Stream.Parked (s : Stream) : Prop :=
  (∃ view, s.sender = some (.credit view)) ∧ s.windowWaiter = false

namespace Pair

/-- The DATA bytes of a stream among frames in flight. -/
def dataInFlight (sid : StreamId) (frames : List Frame) : Nat :=
  ((frames.filter fun f => f.ftype = .data ∧ f.sid = sid).map fun f => f.payload.length).sum

/-- The WINDOW_UPDATE credit of a stream among frames in flight. -/
def creditInFlight (sid : StreamId) (frames : List Frame) : Nat := (credits sid frames).sum

theorem dataInFlight_eq (sid : StreamId) (frames : List Frame) :
    ((packets sid frames).map fun q => q.items.length).sum = dataInFlight sid frames := by
  induction frames with
  | nil => rfl
  | cons f frames ih =>
    obtain ⟨type, sid', payload⟩ := f
    by_cases same : sid' = sid
    · cases type <;> simp_all [packets, dataInFlight, Lane.Packet.items]
    · simp_all [packets, dataInFlight]

/-- What conservation of credit comes to in one state. -/
structure Conserved (S : Setup) (p : Pair) : Prop where
  /-- The credit of a direction that neither end has given up. -/
  balance : ∀ x sid, (p.stream S x sid).closed = false → (p.stream S x.other sid).closed = false →
    (p.stream S x.other sid).recv ≠ .reset →
    (p.stream S x sid).sendWindow + dataInFlight sid (p.wire x) +
      (p.stream S x.other sid).queuedBytes + (p.ledger x.other ⟨sid, 0⟩).pending.sum +
      (p.stream S x.other sid).unacked + creditInFlight sid (p.wire x.other) = S.window
  window : ∀ x r s, (p.mux x).heap r = some s → 0 ≤ s.sendWindow ∧ s.sendWindow ≤ S.window
  /-- The backstops of a stream do not fire on the frame that arrives next. -/
  backstops : ∀ x env f rest r s, p.wire x.other = f :: rest → f.ftype = .data →
    (p.mux x).registered f.sid = some r → (p.mux x).heap r = some s →
    (((p.mux x).host env).feedLimit s f.payload).1 ≠ some .streamBytes ∧
      (((p.mux x).host env).feedLimit s f.payload).1 ≠ some .streamFrames
  /-- The cap in `_grant` does not cut the credit that arrives next. -/
  uncapped : ∀ x f rest r s delta, p.wire x.other = f :: rest → f.ftype = .windowUpdate →
    (p.mux x).registered f.sid = some r → (p.mux x).heap r = some s →
    unpackU32 f.payload = some delta → (s.grant delta.toNat).sendWindow = s.sendWindow + delta.toNat
  deltas : ∀ x, ∀ f ∈ p.wire x, f.ftype = .windowUpdate →
    ∃ delta : UInt32, f.payload = packU32 delta ∧ delta ≠ 0 ∧ delta.toNat ≤ S.window

section

variable {S : Setup} {p : Pair} {mode : Lane.Mode}

/-- The room of `Linked.room`, in the words of this module. -/
theorem Linked.room_in_flight (linked : p.Linked S mode) (fair : mode.honest = true) (x : Side) (sid : StreamId) :
    0 ≤ (p.stream S x sid).sendWindow ∧
      (p.stream S x sid).sendWindow + dataInFlight sid (p.wire x) +
        (p.stream S x.other sid).queuedBytes + (p.ledger x.other ⟨sid, 0⟩).pending.sum +
        (p.stream S x.other sid).unacked + creditInFlight sid (p.wire x.other) ≤ S.window := by
  obtain ⟨nonneg, room⟩ := linked.room fair x sid
  rw [dataInFlight_eq] at room
  refine ⟨nonneg, ?_⟩
  simp only [creditInFlight, Stream.queuedBytes]
  omega

/-- An object is the end of its stream. -/
theorem Linked.stream_of_registered (linked : p.Linked S mode) {x : Side}
    {sid : StreamId} {r : Ref} {s : Stream} (registered : (p.mux x).registered sid = some r)
    (found : (p.mux x).heap r = some s) :
    p.stream S x sid = s ∧ s.closed = false := by
  obtain ⟨same, s', found', live⟩ := (linked.wired.accounted x).registered registered
  cases found.symm.trans found'
  have zero := (linked.wired.known_of_heap found).1
  have here : r = ⟨sid, 0⟩ := by cases r; simp_all
  subst here
  exact ⟨stream_of_heap found, live⟩

/-- The pieces a stream has queued are not empty. -/
theorem Linked.queued_ne_nil (linked : p.Linked S mode) (fair : mode.honest = true) (x : Side) (sid : StreamId) :
    ∀ c ∈ (p.stream S x sid).chunks, c ≠ [] := by
  have credit := Lane.credit_of_reachable fair (linked.lanes x.other sid)
  simpa [lane, laneView] using credit.queued

theorem length_le_sum {α : Type} {xs : List (List α)} (some_data : ∀ x ∈ xs, x ≠ []) :
    xs.length ≤ (xs.map List.length).sum := by
  induction xs with
  | nil => simp
  | cons x xs ih =>
    have := List.length_pos_of_ne_nil (some_data x (by simp))
    have := ih fun y member => some_data y (by simp [member])
    simp only [List.length_cons, List.map_cons, List.sum_cons]
    omega

/-- The frame that arrives next fits what the receiving stream may hold. -/
theorem Linked.fits (linked : p.Linked S mode) (fair : mode.honest = true) {x : Side} {f : Frame}
    {rest : List Frame} {r : Ref} {s : Stream} (arriving : p.wire x.other = f :: rest) (type : f.ftype = .data)
    (registered : (p.mux x).registered f.sid = some r) (found : (p.mux x).heap r = some s) :
    s.recvBuffered + f.payload.length ≤ S.window ∧ s.recvFrames + 1 ≤ S.window := by
  obtain ⟨view, live⟩ := linked.stream_of_registered registered found
  obtain ⟨nonneg, room⟩ := linked.room_in_flight fair x.other f.sid
  rw [Side.other_other, view, arriving] at room
  have first : dataInFlight f.sid (f :: rest) = f.payload.length + dataInFlight f.sid rest := by
    simp [dataInFlight, type]
  have formed := linked.wired.formed x.other f (by simp [arriving])
  simp only [Frame.WellFormed, type] at formed
  have some_data := List.length_pos_of_ne_nil formed.2
  obtain ⟨bytes, frames⟩ := ((linked.wired.accounted x).tallied r s found).live live
  have pieces := length_le_sum (view ▸ linked.queued_ne_nil fair x f.sid)
  rw [first] at room
  rw [bytes, frames]
  simp only [Stream.queuedBytes] at room ⊢
  omega

theorem Linked.conserved (linked : p.Linked S ⟨true, true⟩) : p.Conserved S where
  balance := by
    intro x sid sender receiver accepting
    have credit := Lane.credit_of_reachable rfl (linked.lanes x sid)
    have phase : (p.stream S x.other sid).recv.phase ≠ .aborted := by
      cases recv : (p.stream S x.other sid).recv with
      | reset => exact absurd recv accepting
      | open_ => simp [RecvState.phase]
      | eof => simp [RecvState.phase]
    have total := credit.conserved rfl sender receiver phase
    simp only [Lane.total, lane, laneView, Setup.lane] at total
    rw [dataInFlight_eq] at total
    simp only [creditInFlight, Stream.queuedBytes]
    push_cast at total ⊢
    omega
  window := by
    intro x r s found
    have zero := (linked.wired.known_of_heap found).1
    have here : r = ⟨r.sid, 0⟩ := by cases r; simp_all
    rw [here] at found
    obtain ⟨nonneg, room⟩ := linked.room_in_flight rfl x r.sid
    rw [stream_of_heap found] at nonneg room
    omega
  backstops := by
    intro x env f rest r s arriving type registered found
    obtain ⟨bytes, frames⟩ := linked.fits rfl arriving type registered found
    have config := linked.wired.config x
    have hard : (s.recvBuffered + f.payload.length) ≤ ((p.mux x).host env).mux.config.streamHardMax := by
      show _ ≤ (((p.mux x).config.streamHardMax : Nat) : Int)
      rw [config]
      simp only [Config.streamHardMax, Config.window, Setup.config]
      simp only [Setup.window] at bytes
      omega
    have count : s.recvFrames + 1 ≤ ((p.mux x).host env).mux.config.maxQueuedFrames := by
      show _ ≤ (((p.mux x).config.maxQueuedFrames : Nat) : Int)
      rw [config]
      exact frames
    unfold Host.feedLimit
    rw [if_neg (by omega), if_neg (by omega)]
    split
    · simp
    · split
      · simp
      · split <;> simp
  uncapped := by
    intro x f rest r s delta arriving type registered found unpacked
    obtain ⟨view, -⟩ := linked.stream_of_registered registered found
    obtain ⟨-, room⟩ := linked.room_in_flight rfl x f.sid
    have first : creditInFlight f.sid (f :: rest) = delta.toNat + creditInFlight f.sid rest := by
      simp [creditInFlight, credits, type, unpacked]
    have window := window_le S
    rw [view, arriving, first] at room
    simp only [Stream.grant, maxSendWindow]
    omega
  deltas := by
    intro x f member type
    have formed := linked.wired.formed x f member
    simp only [Frame.WellFormed, type] at formed
    obtain ⟨-, delta, nonzero, payload⟩ := formed
    refine ⟨delta, payload, nonzero, ?_⟩
    obtain ⟨nonneg, room⟩ := linked.room_in_flight rfl x.other f.sid
    rw [Side.other_other] at room
    have inside : delta.toNat ∈ credits f.sid (p.wire x) := by
      refine List.mem_filterMap.mpr ⟨f, member, ?_⟩
      simp [type, payload]
    have less := List.single_le_sum (by simp) _ inside
    simp only [creditInFlight] at room
    omega

end

/-- **Credit conservation**, in every state that a strict run reaches. -/
theorem conserved_of_run {S : Setup} {as : List Action} {p : Pair}
    (strictly : Transition.Along Pair.step Strict (new S) as)
    (ran : Transition.run Pair.step (new S) as = some p) : p.Conserved S :=
  (linked_of_strict strictly ran).conserved

/-- The server opens a stream and has more to send than the window lets through; the
agent reads a byte. -/
def exchange : List Action :=
  let env : Env := ⟨0, none⟩
  [.act .server env (.openStream true), .act .server env (.openReturn ⟨1, 0⟩),
    .deliver .agent env, .act .server env (.send ⟨1, 0⟩ [1] true),
    .act .server env (.sendResume ⟨1, 0⟩ true), .act .server env (.send ⟨1, 0⟩ [2, 3] true),
    .act .server env (.sendResume ⟨1, 0⟩ true), .deliver .agent env,
    .act .agent env (.read ⟨1, 0⟩)]

theorem conserved_after_exchange :
    ∃ p, Transition.run Pair.step (new .narrow) exchange = some p ∧ p.Conserved .narrow := by
  have ran : (Transition.run Pair.step (new .narrow) exchange).isSome := by decide +kernel
  exact ⟨_, Option.some_get ran |>.symm,
    conserved_of_run (by decide +kernel) (Option.some_get ran).symm⟩

/-! ### Waiting for credit -/

/-- A stream that neither end has given up, in whose direction away from `x` nothing
moves: no frame for it is on its way, and the receiver has read and acknowledged
everything. -/
structure Stalled (p : Pair) (x : Side) (sid : StreamId) : Prop where
  sender : ∃ s, (p.mux x).heap ⟨sid, 0⟩ = some s ∧ s.closed = false
  receiver : ∃ t, (p.mux x.other).heap ⟨sid, 0⟩ = some t ∧ t.closed = false ∧ t.recv ≠ .reset ∧
    t.chunks = []
  forth : about sid (p.wire x) = []
  back : about sid (p.wire x.other) = []
  acked : (p.ledger x.other ⟨sid, 0⟩).pending = []

theorem packets_eq_nil {sid : StreamId} {frames : List Frame} (none : about sid frames = []) :
    packets sid frames = [] := by
  apply List.filterMap_eq_nil_iff.mpr
  intro f member
  have away := List.filter_eq_nil_iff.mp none f member
  rw [if_neg (by simpa using away)]

theorem credits_eq_nil {sid : StreamId} {frames : List Frame} (none : about sid frames = []) :
    credits sid frames = [] := by
  apply List.filterMap_eq_nil_iff.mpr
  intro f member
  have away := List.filter_eq_nil_iff.mp none f member
  rw [if_neg (by simpa using away)]

/-- The sender of a stalled stream has credit: the receiver keeps back less than its
threshold, and that is at most the window. -/
theorem Linked.window_pos {S : Setup} {p : Pair} (linked : p.Linked S ⟨true, true⟩) {x : Side}
    {sid : StreamId} (stalled : p.Stalled x sid) : 0 < (p.stream S x sid).sendWindow := by
  obtain ⟨s, sending, live⟩ := stalled.sender
  obtain ⟨t, receiving, live', accepting, queue⟩ := stalled.receiver
  have view := stream_of_heap (S := S) sending
  have view' := stream_of_heap (S := S) receiving
  have phase : t.recv.phase ≠ .aborted := by
    cases recv : t.recv with
    | reset => exact absurd recv accepting
    | open_ => simp [RecvState.phase]
    | eof => simp [RecvState.phase]
  apply Lane.window_pos_of_still (linked.lanes x sid)
  · simpa [lane, laneView, view] using live
  · simpa [lane, laneView, view'] using live'
  · simpa [lane, laneView, view'] using phase
  · exact packets_eq_nil stalled.forth
  · simpa [lane, laneView, view'] using queue
  · simp [lane, laneView, stalled.acked]
  · exact credits_eq_nil stalled.back

/-- A `send` that waits has no credit on a live stream, or it was woken. -/
theorem Linked.alert {S : Setup} {mode : Lane.Mode} {p : Pair} (linked : p.Linked S mode) {x : Side}
    {sid : StreamId} {s : Stream} (found : (p.mux x).heap ⟨sid, 0⟩ = some s) (parked : s.Parked) :
    s.sendWindow ≤ 0 ∧ s.closed = false := by
  obtain ⟨⟨view, waits⟩, unset⟩ := parked
  have shaped := Lane.shaped_of_reachable (linked.lanes x sid)
  have alert := shaped.alert
  simp only [lane, laneView, stream_of_heap found, waits, Sender.asleep, unset, true_implies] at alert
  rcases alert with woken | ⟨dry, live, -⟩
  · cases woken
  · exact ⟨dry, live⟩

/-- **No credit deadlock, no lost wake-up**: in no state of a strict run is a `send`
parked although its stream is stalled, or although it has credit or its stream is
closed. -/
theorem not_parked_of_run {S : Setup} {as : List Action} {p : Pair}
    (strictly : Transition.Along Pair.step Strict (new S) as)
    (ran : Transition.run Pair.step (new S) as = some p) {x : Side} {sid : StreamId} {s : Stream}
    (found : (p.mux x).heap ⟨sid, 0⟩ = some s) (parked : s.Parked) :
    ¬(p.Stalled x sid ∨ 0 < s.sendWindow ∨ s.closed = true) := by
  have linked := linked_of_strict strictly ran
  obtain ⟨dry, live⟩ := linked.alert found parked
  rintro (stalled | credit | dead)
  · have credit := linked.window_pos stalled
    rw [stream_of_heap found] at credit
    omega
  · omega
  · rw [live] at dead
    cases dead

/-- The server's second `send` of `exchange` is parked with a byte left. -/
theorem not_parked_after_exchange :
    ∃ p s, Transition.run Pair.step (new .narrow) exchange = some p ∧
      (p.mux .server).heap ⟨1, 0⟩ = some s ∧ s.Parked ∧
      ¬(p.Stalled .server 1 ∨ 0 < s.sendWindow ∨ s.closed = true) := by
  have waits : (Transition.run Pair.step (new .narrow) exchange).bind
      (fun p => (p.mux .server).heap ⟨1, 0⟩) =
        some { Stream.new (Setup.narrow.config .server) with
          sendWindow := 0
          sender := some (.credit [3]) } := by decide +kernel
  obtain ⟨p, ran, found⟩ := Option.bind_eq_some_iff.mp waits
  have parked : ({ Stream.new (Setup.narrow.config .server) with
      sendWindow := 0
      sender := some (.credit [3]) } : Stream).Parked := ⟨⟨[3], rfl⟩, rfl⟩
  exact ⟨p, _, ran, found, parked, not_parked_of_run (by decide +kernel) ran found parked⟩

end Pair

end Chute
