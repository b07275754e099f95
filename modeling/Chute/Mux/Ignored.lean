import Chute.Mux.Balance

/-!
# Messages without effect

`_ignore_frame` is meant to bound the messages that a peer can send to no effect.
`Mux.escapes` lists the messages it misses; in a run without them the bound holds.
-/
namespace Chute

structure StreamView where
  recv : RecvState
  incoming : List (Option Bytes)
  sendWindow : Int
  deriving DecidableEq

def Stream.view (s : Stream) : StreamView := ⟨s.recv, s.incoming, s.sendWindow⟩

/-- What can be seen of a connection: its registry with the receive states, queues
and send windows of the streams in it, and the going-away flags. -/
structure Observation where
  streams : List (StreamId × Option StreamView)
  goingAway : Bool
  peerGoingAway : Bool
  deriving DecidableEq

namespace Mux

def observe (m : Mux) : Observation where
  streams := m.streams.entries.map fun e => (e.1, (m.heap ⟨e.1, e.2⟩).map Stream.view)
  goingAway := m.goingAway
  peerGoingAway := m.peerGoingAway

/-- The message leaves everything observable as it was. -/
def idles (m : Mux) (x : Env × Action) : Bool :=
  match x.2 with
  | .message msg =>
    match (m.host x.1).onMessage msg with
    | .ok h => h.mux.observe = m.observe
    | .error _ => false
  | _ => false

/-- The frames that are dropped without being counted: an OPEN that the responder
refuses, DATA that is empty or comes after the end, a repeated EOF, credit for a
window that is full already. -/
def uncounted (m : Mux) (f : Frame) : Bool :=
  match f.ftype with
  | .open_ =>
    f.sid ≠ 0 && m.config.acceptsOpen && (f.payload ≠ [] || m.draining ||
      (m.registered f.sid).isSome || m.config.maxStreams ≤ m.activeStreams)
  | .data => ((m.registered f.sid).bind m.heap).any fun s => s.recv ≠ .open_ || f.payload = []
  | .eof => ((m.registered f.sid).bind m.heap).any fun s => s.recv ≠ .open_ && f.payload = []
  | .windowUpdate =>
    ((m.registered f.sid).bind m.heap).any fun s =>
      s.sendWindow = maxSendWindow && f.payload.length = 4 && unpackU32 f.payload ≠ some 0
  | .reset => false
  | .goaway => false

def escapes (m : Mux) : Action → Bool
  | .message msg => msg.frame.any m.uncounted
  | _ => false

/-! ### Which arrivals show -/

section

variable {m m' : Mux}

/-- A change of one registered stream shows unless its view stays the same. -/
theorem observe_setStream {r : Ref} {s : Stream} (entry : m.streams.lookup r.sid = some r.gen)
    (found : m.heap r = some s) (t : Stream) :
    (m.setStream r t).observe = m.observe ↔ t.view = s.view := by
  have each : (∀ e ∈ m.streams.entries, (e.1, ((m.setStream r t).heap ⟨e.1, e.2⟩).map Stream.view) =
      (e.1, (m.heap ⟨e.1, e.2⟩).map Stream.view)) ↔ t.view = s.view := by
    constructor
    · intro same
      have here := same ⟨r.sid, r.gen⟩ (AList.mem_entries_iff.mpr entry)
      simpa [found] using here
    · intro same e _
      by_cases here : (⟨e.1, e.2⟩ : Ref) = r
      · simp [here, found, same]
      · rw [heap_setStream_ne m t here]
  rw [← each, ← List.map_inj_left]
  simp [observe, setStream]

/-- A change in the number of streams shows. -/
theorem observe_ne_of_length (length : m'.streams.entries.length ≠ m.streams.entries.length) :
    m'.observe ≠ m.observe := by
  intro same
  have streams := congrArg (fun o => o.streams.length) same
  simp only [observe, List.length_map] at streams
  exact length streams

end

end Mux

namespace Host

section

variable {h h' : Host}

theorem stats_ignoreFrame (h : Host) :
    h.ignoreFrame.mux.stats.ignoredFrames = h.mux.stats.ignoredFrames + 1 ∧
      (h.ignoreFrame.mux.transportAborted = false → h.mux.transportAborted = false ∧
        h.mux.stats.ignoredFrames + 1 < maxIgnoredFrames) := by
  unfold ignoreFrame
  simp only
  split
  next below => exact ⟨rfl, fun alive => ⟨alive, below⟩⟩
  next reached =>
    have kept := kept_abortAll (h.updateMux fun m => { m with
      stats := { m.stats with
        ignoredFrames := m.stats.ignoredFrames + 1
        ignoredFrameLimit := m.stats.ignoredFrameLimit + 1 }
      transportAborted := true }) h.mux.streams.entries
    constructor
    · exact congrArg Stats.ignoredFrames kept.stats
    · intro alive
      exact absurd (alive.symm.trans kept.transportAborted) (by simp)

/-- Stream 0 does not exist. -/
theorem registered_zero (acc : h.mux.Accounted) : h.mux.registered 0 = none := by
  cases found : h.mux.registered 0 with
  | none => rfl
  | some r =>
    obtain ⟨sid, s, there, -⟩ := acc.registered found
    exact absurd sid (acc.fresh r s there).2

theorem Ignorable.counted (acc : h.mux.Accounted) {f : Option Frame} (why : Ignorable h f) :
    f.any h.mux.uncounted = false := by
  cases why with
  | malformed => rfl
  | zeroSid f zero type =>
    obtain ⟨ftype, sid, payload⟩ := f
    cases zero
    cases ftype <;> simp [Mux.uncounted, registered_zero acc]
  | openNotAccepted f type server => simp [Mux.uncounted, type, server]
  | unknown f type absent =>
    obtain ⟨ftype, sid, payload⟩ := f
    cases ftype <;> simp_all [Mux.uncounted]
  | zeroGrant f type unpacked =>
    simp only [Option.any_some, Mux.uncounted, type, unpacked, ne_eq, not_true_eq_false,
      decide_false, Bool.and_false]
    cases (h.mux.registered f.sid).bind h.mux.heap <;> rfl
  | badGoaway f type bad => simp [Mux.uncounted, type]
  | duplicateGoaway f type twice => simp [Mux.uncounted, type]

theorem stats_resetMalformed (h : Host) (r : Ref) :
    (h.resetMalformed r).mux.stats.ignoredFrames = h.mux.stats.ignoredFrames ∧
      (h.resetMalformed r).mux.transportAborted = h.mux.transportAborted ∧
      (h.resetMalformed r).mux.streams = (h.closeLocal r .reset).mux.streams := by
  have kept := kept_closeLocal h r .reset
  have spawned : ∀ m : Mux, (m.sendReset r.sid).stats = m.stats ∧
      (m.sendReset r.sid).transportAborted = m.transportAborted ∧
      (m.sendReset r.sid).streams = m.streams := by
    intro m
    unfold Mux.sendReset
    split
    · exact ⟨rfl, rfl, rfl⟩
    · split <;> exact ⟨rfl, rfl, rfl⟩
  unfold resetMalformed resetLocalNow
  cases found : h.mux.heap r with
  | none => rw [closeLocal_none found]; exact ⟨rfl, rfl, rfl⟩
  | some s =>
    simp only
    cases s.closed with
    | true => exact ⟨by rw [← kept.stats]; rfl, kept.transportAborted, rfl⟩
    | false =>
      obtain ⟨stats, aborted, streams⟩ := spawned { (h.closeLocal r .reset).mux with
        stats := { (h.closeLocal r .reset).mux.stats with
          resetLocal := (h.closeLocal r .reset).mux.stats.resetLocal + 1 } }
      refine ⟨?_, aborted.trans kept.transportAborted, streams⟩
      have same := congrArg Stats.ignoredFrames kept.stats
      exact (congrArg Stats.ignoredFrames stats).trans same

/-- Tearing down a registered stream shows. -/
theorem observe_closeLocal (acc : h.mux.Accounted) {r : Ref}
    (registered : h.mux.registered r.sid = some r) (t : RecvState) :
    (h.closeLocal r t).mux.streams.entries.length ≠ h.mux.streams.entries.length := by
  obtain ⟨-, s, found, live⟩ := acc.registered registered
  have shrunk := AList.length_erase (acc.entry found live)
  rw [closeLocal_live found live]
  simp only
  omega

/-- A message is counted, or it shows, or it is one of those that escape. -/
theorem Arrival.counts (acc : h.mux.Accounted) {f : Option Frame} (arrival : Arrival h f h') :
    f.any h.mux.uncounted = false ∧ h' = h.ignoreFrame ∨
      h'.mux.stats.ignoredFrames = h.mux.stats.ignoredFrames ∧
        h'.mux.transportAborted = h.mux.transportAborted ∧
        (h'.mux.observe = h.mux.observe ↔ f.any h.mux.uncounted = true) := by
  cases arrival with
  | ignored why => exact Or.inl ⟨why.counted acc, rfl⟩
  | refused sid payload nonzero responder why =>
    have spawned : ∀ m : Mux, (m.sendReset sid).stats = m.stats ∧
        (m.sendReset sid).transportAborted = m.transportAborted ∧
        (m.sendReset sid).observe = m.observe := by
      intro m
      unfold Mux.sendReset
      split
      · exact ⟨rfl, rfl, rfl⟩
      · split <;> exact ⟨rfl, rfl, rfl⟩
    obtain ⟨stats, aborted, observe⟩ := spawned h.mux
    refine Or.inr ⟨congrArg Stats.ignoredFrames stats, aborted, iff_of_true observe ?_⟩
    simp only [Option.any_some, Mux.uncounted, responder, Bool.and_eq_true, Bool.or_eq_true,
      decide_eq_true_eq]
    exact ⟨⟨nonzero, trivial⟩, by tauto⟩
  | accepted sid nonzero responder steady new room =>
    have fresh : sid ∉ h.mux.streams := by
      rw [← AList.lookup_eq_none]
      simpa [Mux.registered] using new
    refine Or.inr ⟨rfl, rfl, iff_of_false ?_ ?_⟩
    · apply Mux.observe_ne_of_length
      show (h.mux.streams.insert sid (h.mux.made sid)).entries.length ≠ _
      rw [AList.length_insert _ fresh]
      omega
    · simp [Mux.uncounted, steady, new, room]
  | dropped r s payload registered found why =>
    refine Or.inr ⟨rfl, rfl, iff_of_true rfl ?_⟩
    simpa [Mux.uncounted, registered, found] using why
  | overflow r s payload registered found accepting some_data why refused =>
    have entry := (Mux.registered_eq_some.mp registered).2
    refine Or.inr ⟨rfl, rfl, (Mux.observe_setStream entry found (s.endRecv .reset)).trans ?_⟩
    simp [Mux.uncounted, registered, found, accepting, some_data, Stream.view,
      Stream.recv_endRecv]
  | fed r s payload registered found accepting some_data h' admitted =>
    have entry := (Mux.registered_eq_some.mp registered).2
    obtain ⟨mux, account⟩ := h'
    have same : mux = h.mux := admitted.mux
    subst same
    refine Or.inr ⟨rfl, rfl, (Mux.observe_setStream entry found _).trans ?_⟩
    simp [Mux.uncounted, registered, found, accepting, some_data, Stream.view]
  | ended r s registered found =>
    have entry := (Mux.registered_eq_some.mp registered).2
    refine Or.inr ⟨rfl, rfl, (Mux.observe_setStream entry found s.feedEof).trans ?_⟩
    by_cases accepting : s.recv = .open_
    · simp [Mux.uncounted, registered, found, accepting, Stream.view, Stream.feedEof,
        Stream.recv_endRecv]
    · simp [Mux.uncounted, registered, found, accepting, Stream.feedEof, Stream.endRecv]
  | malformed f r sid registered bad =>
    obtain ⟨stats, aborted, streams⟩ := stats_resetMalformed h r
    refine Or.inr ⟨stats, aborted, iff_of_false ?_ ?_⟩
    · apply Mux.observe_ne_of_length
      rw [streams]
      exact observe_closeLocal acc registered .reset
    · obtain ⟨-, s, found, -⟩ := acc.registered registered
      rcases bad with ⟨type, payload⟩ | ⟨type, length⟩
      · simp [Mux.uncounted, type, sid, registered, found, payload]
      · simp [Mux.uncounted, type, sid, registered, found, length]
  | granted r s payload delta registered found four unpacked nonzero =>
    have entry := (Mux.registered_eq_some.mp registered).2
    have positive : 0 < delta.toNat := UInt32.pos_iff_ne_zero.mpr nonzero
    have window := (acc.tallied r s found).window
    refine Or.inr ⟨rfl, rfl, (Mux.observe_setStream entry found (s.grant delta.toNat)).trans ?_⟩
    simp only [Stream.view, Stream.grant, StreamView.mk.injEq, true_and, Option.any_some,
      Mux.uncounted, registered, found, Option.bind_some, four, unpacked, Option.some.injEq,
      ne_eq, nonzero, not_false_eq_true, decide_true, Bool.and_true, decide_eq_true_eq]
    omega
  | aborted r payload registered =>
    have kept := kept_closeLocal (h.updateMux fun m =>
      { m with stats := { m.stats with resetPeer := m.stats.resetPeer + 1 } }) r .reset
    have stats := congrArg Stats.ignoredFrames kept.stats
    refine Or.inr ⟨stats, kept.transportAborted, iff_of_false ?_ (by simp [Mux.uncounted])⟩
    apply Mux.observe_ne_of_length
    exact observe_closeLocal (h := h.updateMux fun m =>
      { m with stats := { m.stats with resetPeer := m.stats.resetPeer + 1 } })
      (acc.congr rfl rfl rfl rfl rfl rfl rfl) registered .reset
  | goaway first =>
    refine Or.inr ⟨rfl, rfl, iff_of_false ?_ (by simp [Mux.uncounted])⟩
    intro same
    have flags := congrArg Observation.peerGoingAway same
    simp only [Mux.observe, mux_updateMux] at flags
    rw [first] at flags
    cases flags

end

end Host

namespace Mux

/-! ### Runs -/

/-- The list of escaping messages is exact. -/
theorem escapes_iff {m m' : Mux} {env : Env} {msg : Message} (acc : m.Accounted)
    (moved : m.step (env, .message msg) = some m') :
    m.escapes (.message msg) = true ↔
      m'.observe = m.observe ∧ m'.stats.ignoredFrames = m.stats.ignoredFrames := by
  obtain ⟨e, stepped, rfl⟩ := Option.map_eq_some_iff.mp moved
  have arrival := (Host.step_message (h := m.host env) acc stepped).2.1
  rcases arrival.counts (h := m.host env) acc with ⟨caught, ignored⟩ | ⟨stats, -, shows⟩
  · have more := (Host.stats_ignoreFrame (m.host env)).1
    rw [← ignored] at more
    refine iff_of_false (by simp only [escapes]; exact ne_true_of_eq_false caught) ?_
    rintro ⟨-, same⟩
    exact absurd (more.symm.trans same) (Nat.succ_ne_self _)
  · exact shows.symm.trans (and_iff_left stats).symm

/-- Messages that change nothing, so far, against the counter. -/
theorem idles_step {m m' : Mux} {x : Env × Action} (acc : m.Accounted)
    (counted : m.escapes x.2 = false) (moved : m.step x = some m') :
    (m.idles x).toNat + m.stats.ignoredFrames ≤ m'.stats.ignoredFrames ∧
      (m'.transportAborted = false → m.transportAborted = false ∧
        (m.stats.ignoredFrames < maxIgnoredFrames →
          m'.stats.ignoredFrames < maxIgnoredFrames)) := by
  obtain ⟨env, a⟩ := x
  obtain ⟨e, stepped, rfl⟩ := Option.map_eq_some_iff.mp moved
  cases here : a.isLocal with
  | true =>
    have kept := Host.step_local stepped here
    have quiet : m.idles (env, a) = false := by cases a <;> first | rfl | cases here
    have same : e.host.mux.stats.ignoredFrames = m.stats.ignoredFrames := kept.ignoredFrames
    rw [quiet, same]
    exact ⟨by simp, fun alive => ⟨kept.aborted alive, id⟩⟩
  | false =>
    cases a with
    | message msg =>
      obtain ⟨h', ok, arrival⟩ := Host.onMessage_arrival (h := m.host env) acc msg
      have after : e.host = h' := by
        simp only [Host.step, ok] at stepped
        split at stepped
        · cases stepped; rfl
        · cases stepped
      rw [after]
      simp only [idles, ok]
      rcases arrival.counts (h := m.host env) acc with ⟨-, rfl⟩ | ⟨stats, aborted, shows⟩
      · obtain ⟨more, alive⟩ := Host.stats_ignoreFrame (m.host env)
        have start : (m.host env).mux = m := rfl
        rw [start] at more alive
        have small := Bool.toNat_le (decide ((m.host env).ignoreFrame.mux.observe = m.observe))
        refine ⟨by omega, fun still => ⟨(alive still).1, fun _ => ?_⟩⟩
        rw [more]
        exact (alive still).2
      · have seen : h'.mux.observe ≠ m.observe := by
          intro same
          have caught : msg.frame.any m.uncounted = false := counted
          exact absurd (shows.mp same) (by rw [show (m.host env).mux = m from rfl, caught]; simp)
        have kept : h'.mux.stats.ignoredFrames = m.stats.ignoredFrames := stats
        rw [kept]
        simp only [seen, decide_false, Bool.toNat_false]
        exact ⟨by omega, fun alive => ⟨aborted.symm.trans alive, id⟩⟩
    | connectionLost =>
      simp only [Host.step] at stepped
      split at stepped
      · cases stepped
        obtain ⟨-, -, -, stats, aborted⟩ := Host.Kept.finish (h := m.host env)
        rw [stats, aborted]
        exact ⟨by simp [idles, host], fun alive => ⟨alive, id⟩⟩
      · cases stepped
    | openStream sent =>
      have kept : e.host.mux.stats = m.stats ∧ e.host.mux.transportAborted = m.transportAborted := by
        rcases (Host.step_openStream stepped).2 with ⟨same, -⟩ | ⟨-, mux, -⟩
        · rw [same]; exact ⟨rfl, rfl⟩
        · rw [mux]; exact ⟨rfl, rfl⟩
      rw [kept.1, kept.2]
      exact ⟨by simp [idles], fun alive => ⟨alive, id⟩⟩
    | _ => cases here

theorem idles_run {m m' : Mux} {as : List (Env × Action)} (acc : m.Accounted)
    (counted : Transition.Along step (fun m x => m.escapes x.2 = false) m as)
    (ran : Transition.run step m as = some m') :
    Transition.tally step idles m as + m.stats.ignoredFrames ≤ m'.stats.ignoredFrames ∧
      (m'.transportAborted = false → m.transportAborted = false ∧
        (m.stats.ignoredFrames < maxIgnoredFrames →
          m'.stats.ignoredFrames < maxIgnoredFrames)) := by
  induction as generalizing m with
  | nil =>
    cases ran
    exact ⟨by simp [Transition.tally], fun alive => ⟨alive, id⟩⟩
  | cons x as ih =>
    obtain ⟨m₁, moved, rest⟩ := Transition.run_cons_iff.mp ran
    obtain ⟨more, alive⟩ := idles_step acc counted.1 moved
    obtain ⟨count, later⟩ := ih (acc.step moved) (counted.2 m₁ moved) rest
    simp only [Transition.tally, moved]
    refine ⟨by omega, fun still => ?_⟩
    obtain ⟨between, below⟩ := later still
    exact ⟨(alive between).1, fun start => below ((alive between).2 start)⟩

/-- **Messages without effect are bounded**, in runs without the messages that
`_ignore_frame` misses: each one is counted, and the connection is aborted before
there are `_MAX_IGNORED_FRAMES` of them. -/
theorem idles_lt_of_run (c : Config) {as : List (Env × Action)} {m : Mux}
    (counted : Transition.Along step (fun m x => m.escapes x.2 = false) (Mux.new c) as)
    (ran : Transition.run step (Mux.new c) as = some m) :
    Transition.tally step idles (Mux.new c) as ≤ m.stats.ignoredFrames ∧
      (m.transportAborted = false →
        Transition.tally step idles (Mux.new c) as < maxIgnoredFrames) := by
  obtain ⟨count, alive⟩ := idles_run (accounted_new c) counted ran
  have start : (Mux.new c).stats.ignoredFrames = 0 := rfl
  rw [start] at count alive
  refine ⟨by omega, fun still => ?_⟩
  have below := (alive still).2 (by decide)
  omega

/-- DATA without a payload, for a stream of the connection. -/
def emptyData (sid : StreamId) : Action := .message (.binary (encode FrameType.data.code sid []))

/-- Such a frame comes to nothing, and nothing keeps count of it. -/
theorem step_emptyData {m : Mux} {r : Ref} {s : Stream} (running : m.running = true)
    (nonzero : r.sid ≠ 0) (registered : m.registered r.sid = some r) (found : m.heap r = some s)
    (env : Env) :
    m.step (env, emptyData r.sid) = some m ∧ m.idles (env, emptyData r.sid) = true := by
  have handled : (m.host env).onMessage (.binary (encode FrameType.data.code r.sid [])) =
      .ok (m.host env) := by
    have registered' : (m.host env).mux.registered r.sid = some r := registered
    have found' : (m.host env).mux.heap r = some s := found
    simp only [Host.onMessage, decode_encode, Host.onFrame, FrameType.ofCode_code, Host.onData,
      nonzero, if_false, registered', found', Host.feed, if_true, ite_self]
  have running' : (m.host env).mux.running = true := running
  constructor
  · simp only [step, emptyData, Host.step, running', if_true, handled, Option.map_some]
    rfl
  · simp only [idles, emptyData, handled]
    exact decide_eq_true rfl

/-- An opened stream, and the peer's empty DATA frames for it. -/
def emptyDataFlood (n : Nat) : List (Env × Action) :=
  (⟨0, none⟩, .openStream true) :: List.replicate n (⟨0, none⟩, emptyData 1)

theorem tally_emptyDataFlood (w : FlowWindow) (n : Nat) :
    ∃ m, Transition.run step (Mux.new (.server w)) (emptyDataFlood n) = some m ∧
      m.transportAborted = false ∧
      Transition.tally step idles (Mux.new (.server w)) (emptyDataFlood n) = n := by
  obtain ⟨m, opened⟩ : ∃ m, (Mux.new (.server w)).step (⟨0, none⟩, .openStream true) = some m :=
    ⟨_, rfl⟩
  have facts : m.running = true ∧ m.registered 1 = some ⟨1, 0⟩ ∧
      m.heap ⟨1, 0⟩ = some (Stream.new (.server w)) ∧ m.transportAborted = false := by
    cases opened
    exact ⟨rfl, rfl, rfl, rfl⟩
  obtain ⟨running, registered, found, alive⟩ := facts
  obtain ⟨fixed, idle⟩ := step_emptyData (r := ⟨1, 0⟩) running (by decide) registered found ⟨0, none⟩
  refine ⟨m, ?_, alive, ?_⟩
  · simp only [emptyDataFlood, Transition.run, opened, Option.bind_some]
    exact Transition.run_replicate fixed n
  · simp only [emptyDataFlood, Transition.tally, opened, idles, Bool.toNat_false, zero_add]
    exact Transition.tally_replicate fixed idle n

/-- Nothing stops a peer that sends empty DATA frames. -/
theorem idles_unbounded : ¬∀ (c : Config) (as : List (Env × Action)) (m : Mux),
    Transition.run step (Mux.new c) as = some m → m.transportAborted = false →
      Transition.tally step idles (Mux.new c) as < maxIgnoredFrames := by
  intro bounded
  obtain ⟨m, ran, alive, count⟩ := tally_emptyDataFlood .default maxIgnoredFrames
  exact absurd (bounded _ _ m ran alive) (by rw [count]; exact lt_irrefl _)

/-- A stray text message is counted: the run satisfies the condition. -/
theorem idles_lt_after_text : ∃ m,
    Transition.run step (Mux.new (.server .default)) [(⟨0, none⟩, .message (.text "x"))] = some m ∧
      Transition.tally step idles (Mux.new (.server .default))
        [(⟨0, none⟩, .message (.text "x"))] = 1 ∧ 1 ≤ m.stats.ignoredFrames := by
  have counted : Transition.Along step (fun m x => m.escapes x.2 = false)
      (Mux.new (.server .default)) [(⟨0, none⟩, .message (.text "x"))] :=
    ⟨rfl, fun _ _ => trivial⟩
  have one : Transition.tally step idles (Mux.new (.server .default))
      [(⟨0, none⟩, .message (.text "x"))] = 1 := by decide
  exact ⟨_, rfl, one, one ▸ (idles_lt_of_run (.server .default) counted rfl).1⟩

end Mux

end Chute
