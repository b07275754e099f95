import Chute.Pair.Credit
import Chute.Pair.Rounds

/-!
# Backstops and compliant peers

With flow control in force a stream never reaches its own backstops, but the caps of
the connection are shared by all its streams. `never_overflows_iff` says for which flow
windows they are out of reach.
-/
namespace Chute

namespace Pair

/-- The frame that arrives next at a side takes the overflow branch of `_feed`. -/
def overflows (p : Pair) (x : Side) (env : Env) : Bool :=
  match p.wire x.other with
  | [] => false
  | f :: _ =>
    match (p.mux x).registered f.sid with
    | none => false
    | some r =>
      match (p.mux x).heap r with
      | none => false
      | some s =>
        f.ftype == .data && s.recv == .open_ && f.payload != [] &&
          (((p.mux x).host env).feedLimit s f.payload).1.isSome

/-- No account limit is in force. -/
def Action.unlimited : Action → Prop
  | .act _ env _ => env.maxBufferedBytes = none
  | .deliver _ env => env.maxBufferedBytes = none

/-- A step of two endpoints that keep to the credit they were granted, with no account
limit. -/
def Compliant (p : Pair) (a : Action) : Prop := p.Honest a ∧ a.unlimited

/-- No run of the pair leads to an overflow. -/
def NeverOverflows (S : Setup) : Prop :=
  ∀ as p, Transition.Along Pair.step Compliant (new S) as →
    Transition.run Pair.step (new S) as = some p →
    ∀ x env, env.maxBufferedBytes = none → p.overflows x env = false

/-! ### Windows that are small enough -/

section

variable {S : Setup} {p : Pair} {mode : Lane.Mode}

/-- A stream of an honest run holds at most a window, in bytes and in pieces. -/
theorem Linked.held_le (linked : p.Linked S mode) (fair : mode.honest = true) {x : Side} {r : Ref}
    {s : Stream} (found : (p.mux x).heap r = some s) :
    s.recvBuffered ≤ S.window ∧ s.recvFrames ≤ S.window := by
  have tallied := (linked.wired.accounted x).tallied r s found
  cases closed : s.closed with
  | true =>
    obtain ⟨bytes, frames, -⟩ := tallied.dead closed
    rw [bytes, frames]
    exact ⟨Int.natCast_nonneg _, Int.natCast_nonneg _⟩
  | false =>
    have zero := (linked.wired.known_of_heap found).1
    have here : r = ⟨r.sid, 0⟩ := by cases r; simp_all
    rw [here] at found
    obtain ⟨nonneg, room⟩ := linked.room_in_flight fair x.other r.sid
    have pieces := length_le_sum (linked.queued_ne_nil fair x r.sid)
    obtain ⟨bytes, frames⟩ := tallied.live closed
    rw [Side.other_other, stream_of_heap found] at room
    rw [stream_of_heap found] at pieces
    rw [bytes, frames]
    simp only [Stream.queuedBytes] at room ⊢
    omega

/-- The connection's totals, with the frame that arrives next, are at most a window for
each stream. -/
theorem Linked.totals_le (linked : p.Linked S mode) (fair : mode.honest = true) {x : Side}
    {f : Frame} {rest : List Frame} {r : Ref} {s : Stream} (arriving : p.wire x.other = f :: rest)
    (type : f.ftype = .data) (registered : (p.mux x).registered f.sid = some r)
    (found : (p.mux x).heap r = some s) :
    (p.mux x).buffered + f.payload.length ≤ S.maxStreams x * S.window ∧
      (p.mux x).frames + 1 ≤ S.maxStreams x * S.window := by
  have acc := linked.wired.accounted x
  have fits := linked.fits fair arriving type registered found
  obtain ⟨sid, entry⟩ := Mux.registered_eq_some.mp registered
  have few : (p.mux x).activeStreams ≤ S.maxStreams x := by
    have := acc.streams_le
    rwa [linked.wired.config x] at this
  -- one counter at a time: `g` and what the frame adds to it
  have one : ∀ (g : Stream → Int) (more : Int), g s + more ≤ S.window →
      (∀ r' s', (p.mux x).heap r' = some s' → g s' ≤ S.window) →
      (p.mux x).streams.sumBy ((p.mux x).valueOf g) + more ≤ S.maxStreams x * S.window := by
    intro g more here others
    have updated := AList.sumBy_update (f := (p.mux x).valueOf g)
      (g := fun a b => (p.mux x).valueOf g a b + if a = f.sid then more else 0) entry
      (by intro a b apart _; simp [apart])
    have bounded : AList.sumBy (fun a b => (p.mux x).valueOf g a b + if a = f.sid then more else 0)
        (p.mux x).streams ≤ (p.mux x).streams.entries.length * (S.window : Int) := by
      apply AList.sumBy_le
      intro a b entry'
      obtain ⟨s', found', -⟩ := (acc.registry ⟨a, b⟩).mp entry'
      have value : (p.mux x).valueOf g a b = g s' := by simp [Mux.valueOf, found']
      simp only [value]
      split
      next same =>
        subst same
        have gen : b = r.gen := Option.some.inj (entry'.symm.trans entry)
        have here' : (⟨f.sid, b⟩ : Ref) = r := by cases r; simp_all
        rw [here', found] at found'
        cases found'
        exact here
      · have := others _ s' found'
        omega
    simp only [if_true, add_sub_cancel_left] at updated
    rw [updated] at bounded
    refine bounded.trans ?_
    exact_mod_cast Nat.mul_le_mul_right S.window few
  rw [acc.buffered, acc.frames]
  exact ⟨one Stream.recvBuffered _ fits.1 fun r' s' found' => (linked.held_le fair found').1,
    one Stream.recvFrames _ fits.2 fun r' s' found' => (linked.held_le fair found').2⟩

/-- Nothing overflows while a window for each stream fits the caps of the connection. -/
theorem Linked.not_overflows (linked : p.Linked S mode) (fair : mode.honest = true) {x : Side}
    {env : Env} (unlimited : env.maxBufferedBytes = none)
    (small : S.maxStreams x * S.window ≤ 1048576) : p.overflows x env = false := by
  unfold overflows
  split
  · rfl
  next f rest arriving =>
    split
    · rfl
    next r registered =>
      split
      · rfl
      next s found =>
        by_cases type : f.ftype = .data
        · have fits := linked.fits fair arriving type registered found
          have totals := linked.totals_le fair arriving type registered found
          have config := linked.wired.config x
          have room : ∃ g, ((p.mux x).host env).feedLimit s f.payload = (none, g) ∧
              g.mux = p.mux x := by
            apply Host.feedLimit_of_room (h := (p.mux x).host env)
            · show _ ≤ (((p.mux x).config.streamHardMax : Nat) : Int)
              rw [config]
              simp only [Config.streamHardMax, Config.window, Setup.config]
              simp only [Setup.window] at fits
              omega
            · show _ ≤ (((p.mux x).config.maxQueuedFrames : Nat) : Int)
              rw [config]
              exact fits.2
            · show (p.mux x).buffered + _ ≤ _
              simp only [maxConnBuffered]
              omega
            · show (p.mux x).frames + 1 ≤ _
              simp only [maxConnFrames]
              omega
            · exact unlimited
          obtain ⟨g, clear, -⟩ := room
          simp [clear]
        · simp [type]

end

/-! ### Windows that are not -/

/-- A byte is sent on the `n`th stream and arrives. -/
def feedRound (n : Nat) : List Action :=
  [.act .server free (.send (nth n) [0] true), .act .server free (.sendResume (nth n) true),
    .deliver .agent free]

/-- `n` streams are open, and the agent has `total` bytes queued, each a piece of its own. -/
structure Filled (S : Setup) (p : Pair) (n total : Nat) : Prop where
  idle : p.Steady S n n
  bytes : (p.mux .agent).buffered = total
  frames : (p.mux .agent).frames = total

/-- The `n`th stream has `k` bytes queued at the agent, and the server's end is idle. -/
structure Feeding (S : Setup) (p : Pair) (n k : Nat) : Prop where
  sending : ∃ s, (p.mux .server).heap (nth n) = some s ∧ s.sendWindow = (S.window : Int) - k ∧
    s.sender = none ∧ s.sendDone = false
  receiving : ∃ t, (p.mux .agent).heap (nth n) = some t ∧ t.closed = false ∧ t.recv = .open_ ∧
    t.recvBuffered = k ∧ t.recvFrames = k

theorem filled_new (S : Setup) : (new S).Filled S 0 0 := ⟨steady_new S, rfl, rfl⟩

section

variable {S : Setup} {p : Pair} {n total : Nat}

/-- Opening one more stream. -/
theorem Filled.openRound (filled : p.Filled S n total) (some_room : ∀ x, n < S.maxStreams x)
    (small : n < 4096) :
    ∃ p', Transition.run step p (openRound (n + 1)) = some p' ∧ p'.Filled S (n + 1) total ∧
      p'.Feeding S (n + 1) 0 := by
  obtain ⟨p', ran, idle, fresh, bytes, frames, -⟩ := filled.idle.openRound some_room (by omega)
  refine ⟨p', ran, ⟨idle, bytes.trans filled.bytes, frames.trans filled.frames⟩,
    ⟨_, fresh .server, ?_, rfl, rfl⟩, ⟨_, fresh .agent, rfl, rfl, rfl, rfl⟩⟩
  simp [Stream.new, Config.window, Setup.config, Setup.window]

/-- The byte that `send` puts on the connection. -/
theorem Filled.send {k : Nat} (filled : p.Filled S n total) (feeding : p.Feeding S n k)
    (credit : k < S.window) :
    ∃ p' s, p.step (.act .server free (.send (nth n) [0] true)) = some p' ∧
      s.sendWindow = (S.window : Int) - (k + 1) ∧ s.sender = some (.data [] true) ∧
      s.sendDone = false ∧ p'.mux .server = (p.mux .server).setStream (nth n) s ∧
      p'.mux .agent = p.mux .agent ∧ p'.wire .server = [⟨.data, UInt32.ofNat n, [0]⟩] ∧
      p'.wire .agent = [] := by
  obtain ⟨s, found, window, idle, going⟩ := feeding.sending
  obtain ⟨p', moved, server, agent, wire, back⟩ := exists_step_act (x := .server)
    (Host.step_send_of_credit (h := (p.mux .server).host free) (b := 0) (filled.idle.settled .server) found idle
      going (by omega)) rfl
  refine ⟨p', { s with sendWindow := s.sendWindow - 1, sender := some (.data [] true) }, moved, ?_,
    rfl, going, server, agent, ?_, back.trans (filled.idle.quiet .agent)⟩
  · simp only [window]
    omega
  · rw [wire, filled.idle.quiet]
    rfl

/-- One byte more. -/
theorem Filled.feedRound {k : Nat} (filled : p.Filled S n total) (feeding : p.Feeding S n k)
    (credit : k < S.window) (room : total < 1048576) :
    ∃ p', Transition.run step p (feedRound n) = some p' ∧ p'.Filled S n (total + 1) ∧
      p'.Feeding S n (k + 1) := by
  have config := filled.idle.wired.config
  obtain ⟨p₁, s, moved₁, window, busy, going, server₁, agent₁, wire₁, back₁⟩ := filled.send feeding credit
  obtain ⟨p₂, moved₂, server₂, agent₂, wire₂, back₂⟩ := exists_step_act (x := .server)
    (Host.step_sendResume_of_sent (h := (p₁.mux .server).host free) (r := nth n) (s := s)
      (by show (p₁.mux .server).opening = []; rw [server₁]; exact filled.idle.settled .server)
      (by show (p₁.mux .server).heap _ = _; rw [server₁]; exact Mux.heap_setStream_self _ _ _) busy) rfl
  obtain ⟨t, found, live, accepting, bytes, frames⟩ := feeding.receiving
  have agent : p₂.mux .agent = p.mux .agent := agent₂.trans agent₁
  have acc := filled.idle.wired.accounted .agent
  have entry := acc.entry found live
  have limit : ∃ g, ((p.mux .agent).host free).feedLimit t [0] = (none, g) ∧ g.mux = p.mux .agent := by
    apply Host.feedLimit_of_room (h := (p.mux .agent).host free)
    · show _ ≤ (((p.mux .agent).config.streamHardMax : Nat) : Int)
      rw [config, bytes]
      simp only [Config.streamHardMax, Config.window, Setup.config, List.length_singleton]
      simp only [Setup.window] at credit
      omega
    · show _ ≤ (((p.mux .agent).config.maxQueuedFrames : Nat) : Int)
      rw [config, frames]
      simp only [Config.maxQueuedFrames, Config.window, Setup.config]
      simp only [Setup.window] at credit
      omega
    · show (p.mux .agent).buffered + _ ≤ _
      rw [filled.bytes]
      simp only [maxConnBuffered, List.length_singleton]
      omega
    · show (p.mux .agent).frames + 1 ≤ _
      rw [filled.frames]
      simp only [maxConnFrames]
      omega
    · rfl
  obtain ⟨g, limit, same⟩ := limit
  obtain ⟨p₃, moved₃, agent₃, server₃, wire₃, back₃⟩ := exists_step_deliver (x := .agent)
    (f := ⟨.data, (nth n).sid, [0]⟩) (p := p₂) (wire₂.trans (by rw [wire₁]; rfl))
    (Host.step_data_of_room (h := (p₂.mux .agent).host free) (r := nth n)
      (by rw [agent]; exact filled.idle.running .agent) (acc.fresh _ t found).2
      (by rw [agent]; exact Mux.registered_eq_some.mpr ⟨rfl, entry⟩)
      (by rw [agent]; exact found) accepting (by simp) (by rw [agent]; exact limit))
  have server : p₃.mux .server = ((p.mux .server).setStream (nth n) s).setStream (nth n)
      { s with sender := none } := by
    rw [show p₃.mux .server = p₂.mux .server from server₃, server₂, ← server₁]
    rfl
  refine ⟨p₃, ?_, ⟨⟨((filled.idle.wired.step moved₁).step moved₂).step moved₃, ?_, ?_, ?_, ?_, ?_,
    ?_⟩, ?_, ?_⟩, ⟨?_, ?_⟩⟩
  · simp only [Pair.feedRound, Transition.run, moved₁, moved₂, moved₃, Option.bind_some]
  · rw [server]; exact filled.idle.nextId
  · intro x
    cases x with
    | server => rw [server]; exact filled.idle.settled .server
    | agent => rw [agent₃, Host.mux_updateMux, same]; exact filled.idle.settled .agent
  · intro x
    cases x with
    | server => rw [server]; exact filled.idle.steady .server
    | agent => rw [agent₃, Host.mux_updateMux, same]; exact filled.idle.steady .agent
  · intro x
    cases x with
    | server => rw [server]; exact filled.idle.active .server
    | agent => rw [agent₃, Host.mux_updateMux, same]; exact filled.idle.active .agent
  · intro x
    cases x with
    | server => rw [server]; exact filled.idle.running .server
    | agent => rw [agent₃, Host.mux_updateMux, same]; exact filled.idle.running .agent
  · intro x
    cases x with
    | server => exact wire₃
    | agent => exact back₃.trans (back₂.trans back₁)
  · rw [agent₃, Host.mux_updateMux, same, filled.bytes]
    simp
  · rw [agent₃, Host.mux_updateMux, same, filled.frames]
    simp
  · refine ⟨{ s with sender := none }, ?_, by simpa using window, rfl, going⟩
    rw [server]
    exact Mux.heap_setStream_self _ _ _
  · refine ⟨{ t with
      incoming := t.incoming ++ [some [0]]
      recvBuffered := t.recvBuffered + 1
      recvFrames := t.recvFrames + 1 }, ?_, live, accepting, ?_, ?_⟩
    · rw [agent₃, Host.mux_updateMux, same]
      exact Mux.heap_setStream_self _ _ _
    · simp [bytes]
    · simp [frames]

/-- A stream is opened and gets 256 bytes. -/
def fillRound (n : Nat) : List Action := openRound n ++ (List.replicate 256 (feedRound n)).flatten

/-- The first `n` streams are filled, one after the other. -/
def flood : Nat → List Action
  | 0 => []
  | n + 1 => flood n ++ fillRound (n + 1)

theorem Filled.feedRounds {k : Nat} (filled : p.Filled S n total) (feeding : p.Feeding S n k)
    (more : Nat) (credit : k + more ≤ S.window) (room : total + more ≤ 1048576) :
    ∃ p', Transition.run step p (List.replicate more (Pair.feedRound n)).flatten = some p' ∧
      p'.Filled S n (total + more) ∧ p'.Feeding S n (k + more) := by
  induction more with
  | zero => exact ⟨p, rfl, filled, feeding⟩
  | succ more ih =>
    obtain ⟨p₁, ran, filled₁, feeding₁⟩ := ih (by omega) (by omega)
    obtain ⟨p₂, ran₂, filled₂, feeding₂⟩ := filled₁.feedRound feeding₁ (by omega) (by omega)
    refine ⟨p₂, ?_, filled₂, feeding₂⟩
    rw [List.replicate_succ', List.flatten_append, Transition.run_append ran]
    simpa using ran₂

theorem filled_flood (streams : ∀ x, S.maxStreams x = maxStreams) (large : 256 < S.window) (n : Nat)
    (few : n ≤ 4096) :
    ∃ p, Transition.run step (new S) (flood n) = some p ∧ p.Filled S n (256 * n) ∧
      (0 < n → p.Feeding S n 256) := by
  induction n with
  | zero => exact ⟨new S, rfl, filled_new S, by simp⟩
  | succ n ih =>
    obtain ⟨p, ran, filled, -⟩ := ih (by omega)
    obtain ⟨p₁, ran₁, filled₁, feeding₁⟩ := filled.openRound
      (fun x => by rw [streams x]; simp only [maxStreams]; omega) (by omega)
    obtain ⟨p₂, ran₂, filled₂, feeding₂⟩ := filled₁.feedRounds feeding₁ 256 (by omega) (by omega)
    refine ⟨p₂, ?_, by rw [Nat.mul_succ]; exact filled₂, fun _ => by simpa using feeding₂⟩
    rw [flood, Transition.run_append ran, fillRound, Transition.run_append ran₁]
    exact ran₂

end

/-- Every step of the flood is one of two compliant endpoints. -/
theorem compliant_flood (n : Nat) : ∀ a ∈ flood n, ∀ p : Pair, p.Compliant a := by
  induction n with
  | zero => simp [flood]
  | succ n ih =>
    intro a member p
    simp only [flood, fillRound, openRound, feedRound, List.mem_append, List.mem_flatten,
      List.mem_replicate, List.mem_cons, List.not_mem_nil, or_false] at member
    rcases member with old | (rfl | rfl | rfl) | ⟨round, ⟨-, rfl⟩, inside⟩
    · exact ih a old p
    · exact ⟨trivial, rfl⟩
    · exact ⟨trivial, rfl⟩
    · exact ⟨trivial, rfl⟩
    · simp only [List.mem_cons, List.not_mem_nil, or_false] at inside
      rcases inside with rfl | rfl | rfl <;> exact ⟨trivial, rfl⟩

/-- `n` streams are filled, and one more byte is sent. -/
def overflow (n : Nat) : List Action := flood n ++ [.act .server free (.send (nth n) [0] true)]

theorem along_overflow (S : Setup) (n : Nat) :
    Transition.Along Pair.step Compliant (new S) (overflow n) := by
  refine Transition.along_of_forall (fun a member p => ?_) (new S)
  rcases List.mem_append.mp member with old | new
  · exact compliant_flood n a old p
  · cases List.mem_singleton.mp new
    exact ⟨trivial, rfl⟩

/-- With all streams filled, one more byte is too much for the connection. -/
theorem overflows_of_large {S : Setup} (streams : ∀ x, S.maxStreams x = maxStreams)
    (large : 256 < S.window) {n : Nat} (all : n = 4096) :
    ∃ p, Transition.run step (new S) (overflow n) = some p ∧ p.overflows .agent free = true := by
  obtain ⟨p, ran, filled, feeding⟩ := filled_flood streams large n all.le
  replace feeding := feeding (by omega)
  obtain ⟨p', s, moved, -, -, -, -, agent, wire, -⟩ := filled.send feeding large
  refine ⟨p', ?_, ?_⟩
  · rw [overflow, Transition.run_append ran]
    simp only [Transition.run, moved, Option.bind_some]
  · obtain ⟨t, found, live, accepting, bytes, frames⟩ := feeding.receiving
    have acc := filled.idle.wired.accounted .agent
    have registered : (p.mux .agent).registered (UInt32.ofNat n) = some (nth n) :=
      Mux.registered_eq_some.mpr ⟨rfl, acc.entry found live⟩
    have config := filled.idle.wired.config .agent
    have full : (((p.mux .agent).host free).feedLimit t [0]).1 = some .connectionFrames := by
      have bytes' : ¬t.recvBuffered + ([0] : Bytes).length >
          ((p.mux .agent).host free).mux.config.streamHardMax := by
        show ¬_ > (((p.mux .agent).config.streamHardMax : Nat) : Int)
        rw [config, bytes]
        simp only [Config.streamHardMax, Config.window, Setup.config, List.length_singleton]
        simp only [Setup.window] at large
        omega
      have frames' : ¬t.recvFrames + 1 > ((p.mux .agent).host free).mux.config.maxQueuedFrames := by
        show ¬_ > (((p.mux .agent).config.maxQueuedFrames : Nat) : Int)
        rw [config, frames]
        simp only [Config.maxQueuedFrames, Config.window, Setup.config]
        simp only [Setup.window] at large
        omega
      have connBytes : ¬((p.mux .agent).host free).mux.buffered + ([0] : Bytes).length >
          maxConnBuffered := by
        show ¬(p.mux .agent).buffered + _ > _
        rw [filled.bytes]
        simp only [maxConnBuffered, List.length_singleton]
        omega
      have connFrames : ((p.mux .agent).host free).mux.frames + 1 > maxConnFrames := by
        show (p.mux .agent).frames + 1 > _
        rw [filled.frames]
        simp only [maxConnFrames]
        omega
      simp only [Host.feedLimit, if_neg bytes', if_neg frames', if_neg connBytes, if_pos connFrames]
    simp only [overflows, Side.other, wire, agent, registered, found, accepting, full]
    rfl

/-- Two endpoints built with the default number of streams. -/
def roomy (w : FlowWindow) (budgeted : Side → Bool) : Setup := ⟨w, fun _ => maxStreams, budgeted⟩

theorem not_never_of_large {S : Setup} (streams : ∀ x, S.maxStreams x = maxStreams)
    (large : 256 < S.window) : ¬NeverOverflows S := by
  intro never
  obtain ⟨n, all⟩ : ∃ n, n = 4096 := ⟨_, rfl⟩
  obtain ⟨p, ran, past⟩ := overflows_of_large streams large all
  have fine := never (overflow n) p (along_overflow S n) ran .agent free rfl
  rw [fine] at past
  cases past

/-- The backstops of a connection are out of reach of compliant endpoints exactly for
flow windows of up to 256 bytes. -/
theorem never_overflows_iff (w : FlowWindow) (budgeted : Side → Bool) :
    NeverOverflows (roomy w budgeted) ↔ w.val ≤ 256 := by
  constructor
  · intro never
    by_contra large
    exact not_never_of_large (fun _ => rfl) (by simp only [Setup.window, roomy]; omega) never
  · intro small as p fair ran x env unlimited
    have linked := linked_of_honest (fair.mono fun _ _ both => both.1) ran
    apply linked.not_overflows rfl unlimited
    simp only [Setup.window, roomy, maxStreams]
    omega

/-- The default window is too large. -/
theorem overflows_with_default_window : ¬NeverOverflows .standard :=
  not_never_of_large (fun _ => rfl) (by decide)

end Pair

end Chute
