import Chute.Mux.Ignored
import Chute.Pair.Rounds

/-!
# Late frames

Between two endpoints that run this code the only frames that `_ignore_frame` ever
counts are late ones: frames for a stream that the receiver has torn down or refused
meanwhile, and a repeated GOAWAY. They add up over the life of the connection.
-/
namespace Chute

namespace Pair

/-- The frame that arrives next at a side comes too late. -/
def late (p : Pair) (x : Side) : Bool :=
  match p.wire x.other with
  | [] => false
  | f :: _ =>
    match f.ftype with
    | .open_ => false
    | .goaway => (p.mux x).peerGoingAway
    | _ => ((p.mux x).registered f.sid).isNone

/-- The step delivers a late frame at `x`. -/
def deliversLate (x : Side) (p : Pair) : Action → Bool
  | .deliver y _ => y == x && p.late x
  | .act _ _ _ => false

section

variable {S : Setup} {p : Pair}

/-- `_ignore_frame` counts a frame exactly if it is late. -/
theorem Wired.ignored_deliver (wired : p.Wired S) {x : Side} {env : Env} {f : Frame}
    {rest : List Frame} {h' : Host} (arriving : p.wire x.other = f :: rest)
    (arrival : ((p.mux x).host env).Arrival (some f) h') :
    h'.mux.stats.ignoredFrames = (p.mux x).stats.ignoredFrames + (p.late x).toNat := by
  have formed := wired.formed x.other f (by simp [arriving])
  have on_time : ∀ g, f = g → h'.mux.stats.ignoredFrames = (p.mux x).stats.ignoredFrames →
      (match g.ftype with
        | .open_ => false
        | .goaway => (p.mux x).peerGoingAway
        | _ => ((p.mux x).registered g.sid).isNone) = false →
      h'.mux.stats.ignoredFrames = (p.mux x).stats.ignoredFrames + (p.late x).toNat := by
    rintro g rfl stats timely
    simp only [late, arriving, timely, stats, Bool.toNat_false, add_zero]
  have too_late : p.late x = true → h' = ((p.mux x).host env).ignoreFrame →
      h'.mux.stats.ignoredFrames = (p.mux x).stats.ignoredFrames + (p.late x).toNat := by
    rintro late rfl
    rw [late]
    exact (Host.stats_ignoreFrame _).1
  generalize carries : some f = g at arrival
  cases arrival with
  | ignored why =>
    cases why with
    | malformed => cases carries
    | zeroSid f zero type => cases carries; exact absurd zero (formed.sid_ne_zero type)
    | openNotAccepted f type initiator =>
      cases carries
      cases x with
      | agent =>
        rw [show ((p.mux .agent).host env).mux = p.mux .agent from rfl, wired.config] at initiator
        cases initiator
      | server =>
        have arriving' : p.wire .agent = f :: rest := arriving
        exact absurd type (wired.responder f (by simp [arriving']))
    | unknown f type absent =>
      cases carries
      refine too_late ?_ rfl
      have absent' : (p.mux x).registered f.sid = none := absent
      obtain ⟨ftype, sid, payload⟩ := f
      cases ftype <;> simp_all [late]
    | zeroGrant f type unpacked =>
      cases carries
      simp only [Frame.WellFormed, type] at formed
      obtain ⟨-, delta, nonzero, payload⟩ := formed
      rw [payload, unpackU32_packU32_self] at unpacked
      exact absurd (Option.some.inj unpacked) nonzero
    | badGoaway f type bad =>
      cases carries
      simp only [Frame.WellFormed, type] at formed
      exact absurd bad (by simp [formed])
    | duplicateGoaway f type twice =>
      cases carries
      refine too_late ?_ rfl
      simp only [late, arriving, type]
      exact twice
  | refused sid payload nonzero responder why =>
    cases carries
    refine on_time _ rfl ?_ rfl
    simp only [Host.mux_updateMux, Mux.sendReset]
    split
    · rfl
    · split <;> rfl
  | accepted sid nonzero responder steady new room =>
    cases carries
    exact on_time _ rfl rfl rfl
  | dropped r s payload registered found why =>
    cases carries
    exact on_time _ rfl rfl (by simp [show (p.mux x).registered r.sid = some r from registered])
  | overflow r s payload registered found accepting some_data why refused =>
    cases carries
    exact on_time _ rfl rfl (by simp [show (p.mux x).registered r.sid = some r from registered])
  | fed r s payload registered found accepting some_data h'' admitted =>
    cases carries
    obtain ⟨mux, account⟩ := h''
    have kept : mux = p.mux x := admitted.mux
    subst kept
    exact on_time _ rfl rfl (by simp [show (p.mux x).registered r.sid = some r from registered])
  | ended r s registered found =>
    cases carries
    exact on_time _ rfl rfl (by simp [show (p.mux x).registered r.sid = some r from registered])
  | malformed f r same registered bad =>
    cases carries
    rcases bad with ⟨type, payload⟩ | ⟨type, length⟩
    · simp only [Frame.WellFormed, type] at formed
      exact absurd formed.2 payload
    · simp only [Frame.WellFormed, type] at formed
      obtain ⟨-, delta, -, packed⟩ := formed
      rw [packed] at length
      exact absurd (length_packU32 delta) length
  | granted r s payload delta registered found four unpacked nonzero =>
    cases carries
    exact on_time _ rfl rfl (by simp [show (p.mux x).registered r.sid = some r from registered])
  | aborted r payload registered =>
    cases carries
    have kept := Host.kept_closeLocal (((p.mux x).host env).updateMux fun m =>
      { m with stats := { m.stats with resetPeer := m.stats.resetPeer + 1 } }) r .reset
    have stats := congrArg Stats.ignoredFrames kept.stats
    exact on_time _ rfl stats
      (by simp [show (p.mux x).registered r.sid = some r from registered])
  | goaway first =>
    cases carries
    exact on_time _ rfl rfl first

/-- A step counts a frame exactly if it delivers a late one. -/
theorem Wired.ignored_step (wired : p.Wired S) {a : Action} {p' : Pair} (moved : p.step a = some p')
    (x : Side) : (p'.mux x).stats.ignoredFrames =
      (p.mux x).stats.ignoredFrames + (deliversLate x p a).toNat := by
  cases a with
  | deliver y env =>
    obtain ⟨f, rest, e, arriving, stepped, rfl⟩ := step_deliver moved
    by_cases same : y = x
    · subst same
      have arrival := (Host.step_message (h := (p.mux y).host env) (wired.accounted y) stepped).2.1
      rw [Message.frame_message] at arrival
      simpa [deliversLate] using wired.ignored_deliver arriving arrival
    · simp [deliversLate, same, Ne.symm same]
  | act y env a =>
    obtain ⟨e, stepped, notMessage, rfl⟩ := step_act moved
    by_cases same : y = x
    · subst same
      suffices e.host.mux.stats.ignoredFrames = (p.mux y).stats.ignoredFrames by
        simpa [deliversLate] using this
      cases here : a.isLocal with
      | true => exact (Host.step_local stepped here).ignoredFrames
      | false =>
        cases a with
        | message msg => cases notMessage
        | connectionLost =>
          simp only [Host.step] at stepped
          split at stepped
          · cases stepped
            exact congrArg Stats.ignoredFrames Host.Kept.finish.2.2.2.1
          · cases stepped
        | openStream sent =>
          rcases (Host.step_openStream stepped).2 with ⟨same, -⟩ | ⟨-, mux, -⟩
          · rw [same]; rfl
          · rw [mux]; rfl
        | _ => cases here
    · simp [deliversLate, Ne.symm same]

/-- Along a run, the counter of a side is the number of late frames it was delivered. -/
theorem ignored_run {as : List Action} {p' : Pair} (wired : p.Wired S)
    (ran : Transition.run step p as = some p') (x : Side) :
    (p'.mux x).stats.ignoredFrames =
      (p.mux x).stats.ignoredFrames + Transition.tally step (deliversLate x) p as := by
  induction as generalizing p with
  | nil => cases ran; rfl
  | cons a as ih =>
    obtain ⟨p₁, moved, rest⟩ := Transition.run_cons_iff.mp ran
    rw [ih (wired.step moved) rest, wired.ignored_step moved x]
    simp only [Transition.tally, moved]
    omega

end

/-- The limit on ignored frames cuts off neither side of a run exactly if each was
delivered fewer late frames than the limit. -/
theorem ignored_lt_iff {S : Setup} {as : List Action} {p : Pair}
    (ran : Transition.run step (new S) as = some p) :
    (∀ x, (p.mux x).stats.ignoredFrames < maxIgnoredFrames) ↔
      ∀ x, Transition.tally step (deliversLate x) (new S) as < maxIgnoredFrames := by
  have counted : ∀ x, (p.mux x).stats.ignoredFrames =
      Transition.tally step (deliversLate x) (new S) as := by
    intro x
    rw [ignored_run (wired_new S) ran x]
    exact Nat.zero_add _
  simp only [counted]

/-! ### Late frames add up -/

/-- The server opens the `n`th stream and sends a byte on it; before the byte arrives the
agent resets the stream, as it does when the local service cannot be reached. -/
def crossRound (n : Nat) : List Action :=
  openRound n ++
    [.act .server free (.send (nth n) [0] true), .act .agent free (.reset (nth n) true)]

/-- The byte arrives late, and the RESET ends the server's end. -/
def lateRound (n : Nat) : List Action :=
  crossRound n ++
    [.deliver .agent free, .act .server free (.sendResume (nth n) true), .deliver .server free]

/-- One round delivers one late frame. -/
theorem ignored_lt_iff_after_round :
    ∃ p, Transition.run step (new .narrow) (lateRound 1) = some p ∧
      ((∀ x, (p.mux x).stats.ignoredFrames < maxIgnoredFrames) ↔
        ∀ x, Transition.tally step (deliversLate x) (new .narrow) (lateRound 1) < maxIgnoredFrames) := by
  have ran : (Transition.run step (new .narrow) (lateRound 1)).isSome := by decide
  exact ⟨_, (Option.some_get ran).symm, ignored_lt_iff (Option.some_get ran).symm⟩

/-- A byte and a RESET for the `n`th stream cross each other. -/
structure Crossing (S : Setup) (p : Pair) (n active ignored : Nat) : Prop where
  wired : p.Wired S
  nextId : (p.mux .server).nextId = n + 1
  settled : ∀ x, (p.mux x).opening = []
  steady : ∀ x, (p.mux x).draining = false
  running : ∀ x, (p.mux x).running = true
  active_agent : (p.mux .agent).activeStreams = active
  active_server : (p.mux .server).activeStreams = active + 1
  absent : (p.mux .agent).registered (UInt32.ofNat n) = none
  counted : (p.mux .agent).stats.ignoredFrames = ignored
  sending : ∃ s, (p.mux .server).heap (nth n) = some s ∧ s.sender = some (.data [] true) ∧
    s.closed = false
  forth : p.wire .server = [⟨.data, UInt32.ofNat n, [0]⟩]
  back : p.wire .agent = [⟨.reset, UInt32.ofNat n, []⟩]

section

variable {S : Setup} {p : Pair} {n active : Nat}

theorem Steady.crossRound (steady : p.Steady S n active) (some_room : ∀ x, active < S.maxStreams x)
    (small : n < 0xFFFFFFFF) :
    ∃ p', Transition.run step p (crossRound (n + 1)) = some p' ∧
      p'.Crossing S (n + 1) active (p.mux .agent).stats.ignoredFrames := by
  obtain ⟨p₁, ran, idle, fresh, -, -, ignored⟩ := steady.openRound some_room small
  have window := S.flowWindow.one_le
  obtain ⟨p₂, moved₂, server₂, agent₂, wire₂, back₂⟩ := exists_step_act (x := .server)
    (Host.step_send_of_credit (h := (p₁.mux .server).host free) (b := 0) (idle.settled .server)
      (fresh .server) rfl rfl (by
        simp only [Stream.new, Config.window, Setup.config]
        omega)) rfl
  have agent : p₂.mux .agent = p₁.mux .agent := agent₂
  obtain ⟨p₃, moved₃, agent₃, server₃, back₃, wire₃⟩ := exists_step_act (x := .agent)
    (Host.step_reset_of_live (h := (p₂.mux .agent).host free) (r := nth (n + 1))
      (by rw [agent]; exact idle.settled .agent) (by rw [agent]; exact fresh .agent) rfl) rfl
  have server : p₃.mux .server = (p₁.mux .server).setStream (nth (n + 1))
      { Stream.new (S.config .server) with
        sendWindow := (Stream.new (S.config .server)).sendWindow - 1
        sender := some (.data [] true) } := by
    rw [show p₃.mux .server = p₂.mux .server from server₃, server₂]
    rfl
  have closed := Host.closeLocal_live (h := (p₁.mux .agent).host free) (t := .reset) (fresh .agent) rfl
  have agent' : p₃.mux .agent = { (((p₁.mux .agent).host free).closeLocal (nth (n + 1)) .reset).mux with
      stats := { (((p₁.mux .agent).host free).closeLocal (nth (n + 1)) .reset).mux.stats with
        resetLocal :=
          (((p₁.mux .agent).host free).closeLocal (nth (n + 1)) .reset).mux.stats.resetLocal + 1 } } := by
    rw [agent₃, agent]
    rfl
  rw [closed] at agent'
  have wired := (idle.wired.step moved₂).step moved₃
  have entry := (idle.wired.accounted .agent).entry (fresh .agent) rfl
  refine ⟨p₃, ?_, wired, ?_, ?_, ?_, ?_, ?_, ?_, ?_, ?_, ?_, ?_, ?_⟩
  · rw [Pair.crossRound, Transition.run_append ran]
    simp only [Transition.run, moved₂, moved₃, Option.bind_some]
  · rw [server]; exact idle.nextId
  · intro x
    cases x with
    | server => rw [server]; exact idle.settled .server
    | agent => rw [agent']; exact idle.settled .agent
  · intro x
    cases x with
    | server => rw [server]; exact idle.steady .server
    | agent => rw [agent']; exact idle.steady .agent
  · intro x
    cases x with
    | server => rw [server]; exact idle.running .server
    | agent => rw [agent']; exact idle.running .agent
  · rw [agent']
    show ((p₁.mux .agent).streams.erase _).entries.length = _
    have shrunk := AList.length_erase entry
    have before : (p₁.mux .agent).streams.entries.length = active + 1 := idle.active .agent
    omega
  · rw [server]; exact idle.active .server
  · rw [agent']
    show (((p₁.mux .agent).streams.erase (nth (n + 1)).sid).lookup (nth (n + 1)).sid).map _ = none
    rw [AList.lookup_erase]
    rfl
  · rw [agent']
    exact ignored
  · refine ⟨{ Stream.new (S.config .server) with
      sendWindow := (Stream.new (S.config .server)).sendWindow - 1
      sender := some (.data [] true) }, ?_, rfl, rfl⟩
    rw [server]
    exact Mux.heap_setStream_self _ _ _
  · rw [show p₃.wire .server = p₂.wire .server from wire₃, wire₂, idle.quiet]
    rfl
  · rw [back₃, show p₂.wire .agent = p₁.wire .agent from back₂, idle.quiet]
    rfl

/-- One more late frame is counted. -/
theorem Crossing.late {ignored : Nat} (crossing : p.Crossing S n active ignored) :
    ∃ p', p.step (.deliver .agent free) = some p' ∧
      (p'.mux .agent).stats.ignoredFrames = ignored + 1 := by
  obtain ⟨p', moved, agent, -, -, -⟩ := exists_step_deliver (x := .agent) crossing.forth
    (Host.step_unknown (h := (p.mux .agent).host free) (crossing.running .agent) crossing.absent)
  refine ⟨p', moved, ?_⟩
  rw [agent, (Host.stats_ignoreFrame _).1]
  exact congrArg (· + 1) crossing.counted

/-- After the late frame and the RESET the connection is as it was, one id further. -/
theorem Crossing.settle {ignored : Nat} (crossing : p.Crossing S n active ignored)
    (below : ignored + 1 < maxIgnoredFrames) :
    ∃ p', Transition.run step p [.deliver .agent free, .act .server free (.sendResume (nth n) true),
        .deliver .server free] = some p' ∧ p'.Steady S n active ∧
      (p'.mux .agent).stats.ignoredFrames = ignored + 1 := by
  obtain ⟨s, found, busy, live⟩ := crossing.sending
  obtain ⟨p₁, moved₁, agent₁, server₁, wire₁, back₁⟩ := exists_step_deliver (x := .agent)
    crossing.forth
    (Host.step_unknown (h := (p.mux .agent).host free) (crossing.running .agent) crossing.absent)
  have server : p₁.mux .server = p.mux .server := server₁
  have agent : p₁.mux .agent = { p.mux .agent with
      stats := { (p.mux .agent).stats with
        ignoredFrames := (p.mux .agent).stats.ignoredFrames + 1 } } := by
    rw [agent₁]
    have few : ((p.mux .agent).host free).mux.stats.ignoredFrames + 1 < maxIgnoredFrames := by
      show (p.mux .agent).stats.ignoredFrames + 1 < _
      rw [crossing.counted]
      exact below
    simp only [Host.ignoreFrame, if_pos few]
    rfl
  obtain ⟨p₂, moved₂, server₂, agent₂, wire₂, back₂⟩ := exists_step_act (x := .server)
    (Host.step_sendResume_of_sent (h := (p₁.mux .server).host free) (r := nth n)
      (by rw [server]; exact crossing.settled .server) (by rw [server]; exact found) busy) rfl
  have back : p₂.wire .agent = [⟨.reset, (nth n).sid, []⟩] := back₂.trans (back₁.trans crossing.back)
  have server' : p₂.mux .server = (p.mux .server).setStream (nth n) { s with sender := none } := by
    rw [server₂, server]
    rfl
  have found' : (p₂.mux .server).heap (nth n) = some { s with sender := none } := by
    rw [server']
    exact Mux.heap_setStream_self _ _ _
  have wired₂ := (crossing.wired.step moved₁).step moved₂
  have acc := wired₂.accounted .server
  have entry := acc.entry found' live
  obtain ⟨p₃, moved₃, server₃, agent₃, back₃, wire₃⟩ := exists_step_deliver (x := .server) back
    (Host.step_reset_arrives (h := (p₂.mux .server).host free)
      (by rw [server']; exact crossing.running .server) (acc.fresh _ _ found').2
      (Mux.registered_eq_some.mpr ⟨rfl, entry⟩))
  have closed := Host.closeLocal_live (h := ((p₂.mux .server).host free).updateMux fun m =>
    { m with stats := { m.stats with resetPeer := m.stats.resetPeer + 1 } }) (t := .reset) found' live
  rw [closed] at server₃
  have agent' : p₃.mux .agent = p₁.mux .agent := agent₃.trans agent₂
  refine ⟨p₃, ?_, ⟨wired₂.step moved₃, ?_, ?_, ?_, ?_, ?_, ?_⟩, ?_⟩
  · simp only [Transition.run, moved₁, moved₂, moved₃, Option.bind_some]
  · rw [server₃]
    show (p₂.mux .server).nextId = _
    rw [server']
    exact crossing.nextId
  · intro x
    cases x with
    | server =>
      rw [server₃]
      show (p₂.mux .server).opening = _
      rw [server']
      exact crossing.settled .server
    | agent => rw [agent', agent]; exact crossing.settled .agent
  · intro x
    cases x with
    | server =>
      rw [server₃]
      show (p₂.mux .server).draining = _
      rw [server']
      exact crossing.steady .server
    | agent => rw [agent', agent]; exact crossing.steady .agent
  · intro x
    cases x with
    | server =>
      rw [server₃]
      show ((p₂.mux .server).streams.erase _).entries.length = _
      have shrunk := AList.length_erase entry
      have before : (p₂.mux .server).streams.entries.length = active + 1 := by
        rw [server']
        exact crossing.active_server
      omega
    | agent => rw [agent', agent]; exact crossing.active_agent
  · intro x
    cases x with
    | server =>
      rw [server₃]
      show (p₂.mux .server).running = _
      rw [server']
      exact crossing.running .server
    | agent => rw [agent', agent]; exact crossing.running .agent
  · intro x
    cases x with
    | server =>
      rw [show p₃.wire .server = p₂.wire .server from wire₃, wire₂,
        show p₁.wire .server = [] from wire₁]
      rfl
    | agent => exact back₃
  · rw [agent', agent]
    exact congrArg (· + 1) crossing.counted

/-- The first `n` streams are each reset with a byte in flight. -/
def crossings : Nat → List Action
  | 0 => []
  | n + 1 => crossings n ++ lateRound (n + 1)

theorem steady_crossings (some_room : ∀ x, 0 < S.maxStreams x) (n : Nat)
    (below : n < maxIgnoredFrames) :
    ∃ p, Transition.run step (new S) (crossings n) = some p ∧ p.Steady S n 0 ∧
      (p.mux .agent).stats.ignoredFrames = n := by
  induction n with
  | zero => exact ⟨new S, rfl, steady_new S, rfl⟩
  | succ n ih =>
    have bound : maxIgnoredFrames = 65536 := rfl
    obtain ⟨p, ran, steady, ignored⟩ := ih (by omega)
    obtain ⟨p₁, ran₁, crossing⟩ := steady.crossRound some_room (by omega)
    obtain ⟨p₂, ran₂, steady₂, ignored₂⟩ := crossing.settle (by rw [ignored]; exact below)
    refine ⟨p₂, ?_, steady₂, by rw [ignored₂, ignored]⟩
    rw [crossings, Transition.run_append ran, lateRound, Transition.run_append ran₁]
    exact ran₂

end

/-- Ordinary resets reach the limit, whatever the window and the number of streams. -/
theorem exists_ignored_eq_max {S : Setup} (some_room : ∀ x, 0 < S.maxStreams x) :
    ∃ as p, Transition.run step (new S) as = some p ∧
      (p.mux .agent).stats.ignoredFrames = maxIgnoredFrames := by
  have bound : maxIgnoredFrames = 65536 := rfl
  obtain ⟨p, ran, steady, ignored⟩ := steady_crossings some_room 65535 (by omega)
  obtain ⟨p₁, ran₁, crossing⟩ := steady.crossRound some_room (by omega)
  obtain ⟨p₂, moved, last⟩ := crossing.late
  refine ⟨crossings 65535 ++ (crossRound 65536 ++ [.deliver .agent free]), p₂, ?_, ?_⟩
  · rw [Transition.run_append ran, Transition.run_append ran₁]
    simp only [Transition.run, moved, Option.bind_some]
  · rw [last, ignored]
    rfl

/-- A server and an agent in their default configuration are cut off. -/
theorem ignored_reaches_max : ¬∀ as p, Transition.run step (new .standard) as = some p →
    ∀ x, (p.mux x).stats.ignoredFrames < maxIgnoredFrames := by
  intro never
  obtain ⟨as, p, ran, reached⟩ := exists_ignored_eq_max (S := .standard) (fun _ => Nat.succ_pos _)
  exact absurd reached (never as p ran .agent).ne

end Pair

end Chute
