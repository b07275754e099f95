import Chute.Mux.Balance

/-!
# What a step says about one stream

Senders, ackers, the demultiplexer loop and spawned resets all send frames for the same
stream. Each of them checks the state of the stream in the step in which it hands its
frame to `_send`; `Says` states what that gives for one stream of the initiator and one
step (`says_step`).
-/
namespace Chute

/-- The credit a message brings to a stream. -/
def Mux.credited (m : Mux) (sid : StreamId) : Action → Nat
  | .message msg =>
    match msg.frame with
    | some f =>
      if f.ftype = .windowUpdate ∧ f.sid = sid ∧ f.payload.length = 4 ∧
          (m.registered sid).isSome then
        ((unpackU32 f.payload).map UInt32.toNat).getD 0
      else 0
    | none => 0
  | _ => 0

/-! ### Counting frames -/

/-- The payload bytes of the DATA frames of a list. -/
def dataBytes (frames : List Frame) : Nat :=
  ((frames.filter fun f => f.ftype = .data).map fun f => f.payload.length).sum

def resetsOf (frames : List Frame) : Nat := frames.countP fun f => f.ftype = .reset

theorem about_append (sid : StreamId) (first second : List Frame) :
    about sid (first ++ second) = about sid first ++ about sid second :=
  List.filter_append _ _

theorem about_eq_nil {sid : StreamId} {frames : List Frame} (away : ∀ f ∈ frames, f.sid ≠ sid) :
    about sid frames = [] := by
  apply List.filter_eq_nil_iff.mpr
  intro f member
  simpa using away f member

theorem dataBytes_append (first second : List Frame) :
    dataBytes (first ++ second) = dataBytes first + dataBytes second := by
  simp [dataBytes]

theorem resetsOf_append (first second : List Frame) :
    resetsOf (first ++ second) = resetsOf first + resetsOf second :=
  List.countP_append

/-! ### Spawned resets -/

namespace Host

theorem tasks_resetLocalNow (h : Host) (r : Ref) :
    (h.resetLocalNow r).1.mux.tasks = h.mux.tasks := by
  have kept := (kept_closeLocal h r .reset).tasks
  unfold resetLocalNow
  split
  · rfl
  · simp only
    split
    · exact kept
    · exact kept

theorem tasks_reset (h : Host) (r : Ref) (sent : Bool) :
    (h.reset r sent).host.mux.tasks = h.mux.tasks := by
  have kept := tasks_resetLocalNow h r
  unfold reset
  split
  next now reset => rw [reset] at kept; exact kept
  next now reset => rw [reset] at kept; exact kept

/-- Only arrivals and the spawned coroutines themselves change what is spawned. -/
theorem tasks_local {h : Host} {a : Action} {e : Effect} (moved : h.step a = some e)
    (here : a.isLocal = true) (idle : ∀ t sent, a ≠ .runTask t sent) :
    e.host.mux.tasks = h.mux.tasks := by
  cases a with
  | message msg => cases here
  | connectionLost => cases here
  | openStream sent => cases here
  | openReturn r =>
    simp only [Host.step] at moved
    split at moved
    · cases moved; rfl
    · cases moved
  | openRaise r =>
    simp only [Host.step] at moved
    split at moved
    · cases moved
      exact (kept_closeLocal (h.updateMux fun m =>
        { m with opening := m.opening.filter fun e => e.1 != r }) r .eof).tasks
    · cases moved
  | send r data sent =>
    obtain ⟨s, held, moved⟩ := Option.bind_eq_some_iff.mp moved
    split at moved
    · cases moved; rfl
    · cases moved
  | sendEof r sent =>
    obtain ⟨s, held, moved⟩ := Option.bind_eq_some_iff.mp moved
    split at moved
    · cases moved
      unfold sendEof
      split <;> rfl
    · cases moved
  | sendResume r sent =>
    obtain ⟨s, held, moved⟩ := Option.bind_eq_some_iff.mp moved
    unfold sendResume at moved
    repeat' split at moved
    all_goals cases moved
    all_goals rfl
  | sendTimeout r =>
    obtain ⟨s, held, moved⟩ := Option.bind_eq_some_iff.mp moved
    unfold sendTimeout at moved
    split at moved
    · cases moved; rfl
    · cases moved
  | sendRaise r =>
    obtain ⟨s, held, moved⟩ := Option.bind_eq_some_iff.mp moved
    unfold sendRaise at moved
    split at moved
    · cases moved
    · cases moved; rfl
  | read r =>
    obtain ⟨s, held, moved⟩ := Option.bind_eq_some_iff.mp moved
    unfold Host.read at moved
    repeat' split at moved
    all_goals cases moved
    · rfl
    · rfl
    · rw [mux_releaseBuffer]
      rfl
  | ack r n sent =>
    obtain ⟨s, held, rfl⟩ := Option.map_eq_some_iff.mp moved
    unfold Host.ack
    repeat' split
    all_goals rfl
  | reset r sent =>
    obtain ⟨s, held, rfl⟩ := Option.map_eq_some_iff.mp moved
    exact tasks_reset h r sent
  | close r =>
    obtain ⟨s, held, rfl⟩ := Option.map_eq_some_iff.mp moved
    exact (kept_closeLocal h r .eof).tasks
  | runTask t sent => exact absurd rfl (idle t sent)
  | goaway sent => cases moved; rfl
  | rearmIdle =>
    simp only [Host.step] at moved
    split at moved
    · cases moved
    · cases moved; rfl
  | writeStall => cases moved; rfl
  | closeStall => cases moved; rfl

/-- What an arrival spawns on the initiator's side: a RESET for a stream it tears down. -/
theorem pending_arrival {h h' : Host} (acc : h.mux.Accounted)
    (server : h.mux.config.acceptsOpen = false) {f : Option Frame} (arrival : Arrival h f h')
    (sid : StreamId) :
    h'.mux.tasks.count (.sendOnce sid) ≤ h.mux.tasks.count (.sendOnce sid) ∨
      ∃ r s, r.sid = sid ∧ h.mux.heap r = some s ∧ s.closed = false ∧
        h'.mux.heap r = some (s.shut .reset) ∧
        h'.mux.tasks.count (.sendOnce sid) ≤ h.mux.tasks.count (.sendOnce sid) + 1 := by
  cases arrival with
  | ignored why =>
    refine Or.inl ?_
    unfold ignoreFrame
    simp only
    split
    · exact le_refl _
    · simp [finish_eq]
  | refused sid' payload nonzero responder why => rw [server] at responder; cases responder
  | accepted sid' nonzero responder steady new room => rw [server] at responder; cases responder
  | overflow r s payload registered found accepting some_data why refused =>
    exact Or.inl (by simp [Mux.spawn, Mux.setStream, List.count_append])
  | fed r s payload registered found accepting some_data h' admitted =>
    exact Or.inl (by simp [Mux.setStream, admitted.mux])
  | malformed f r same registered bad =>
    obtain ⟨-, s, found, live⟩ := acc.registered registered
    have heap : (h.resetMalformed r).mux.heap r = some (s.shut .reset) := by
      rw [heap_resetMalformed, heap_closeLocal, if_pos rfl, found]
      simp [live]
    have tasks : (h.resetMalformed r).mux.tasks = h.mux.tasks ∨
        (h.resetMalformed r).mux.tasks = h.mux.tasks ++ [.sendOnce r.sid] := by
      have kept := tasks_resetLocalNow h r
      unfold resetMalformed
      split
      next now reset =>
        rw [reset] at kept
        rw [← kept]
        exact tasks_sendReset now.mux r.sid
      next now reset =>
        rw [reset] at kept
        exact Or.inl kept
    rcases tasks with kept | more
    · exact Or.inl (by rw [kept])
    · by_cases here : r.sid = sid
      · exact Or.inr ⟨r, s, here, found, live, heap, by simp [more, here]⟩
      · exact Or.inl (by simp [more, here])
  | aborted r payload registered =>
    exact Or.inl (by rw [(kept_closeLocal (h.updateMux _) r .reset).tasks]; exact le_refl _)
  | _ => exact Or.inl (le_refl _)

end Host

/-! ### One step, seen from one stream -/

/-- What a frame about a stream tells of the stream when it was handed over. -/
def Spoke (f : Frame) (s t : Stream) : Prop :=
  f.ftype = .data ∧ s.sendDone = false ∨ f.ftype = .eof ∧ s.sendDone = false ∧ t.sendEnded = true ∨
    f.ftype = .windowUpdate ∧ s.closed = false ∨ f.ftype = .reset

/-- What a step says about a stream that is `s` before and `t` after it. -/
structure Says (h : Host) (sid : StreamId) (a : Action) (s t : Stream) (e : Effect) : Prop where
  ended : s.sendEnded = true → t.sendEnded = true
  closed : s.closed = true → t.closed = true
  window : dataBytes (about sid e.out) + t.sendWindow ≤ s.sendWindow + h.mux.credited sid a
  frames : about sid e.out = [] ∨ ∃ f, about sid e.out = [f] ∧ Spoke f s t
  resets : resetsOf (about sid e.out) + e.host.mux.tasks.count (.sendOnce sid) + s.closed.toNat ≤
    h.mux.tasks.count (.sendOnce sid) + t.closed.toNat

theorem about_emit (sent : Bool) (type : FrameType) (sid : StreamId) (payload : Bytes) :
    about sid (emit sent type sid payload) = emit sent type sid payload := by
  cases sent <;> simp [emit, about]

theorem toNat_le_toNat {a b : Bool} (imp : a = true → b = true) : a.toNat ≤ b.toNat := by
  cases a <;> cases b <;> simp_all

section

variable {h : Host} {r : Ref} {s t : Stream} {a : Action} {e : Effect}

/-- No step takes back the end of a send direction or adds credit that did not arrive. -/
theorem Host.Touch.send {out : List Frame} {res : Result} (touch : h.Touch r s a out res t) :
    (s.sendEnded = true → t.sendEnded = true) ∧ (s.closed = true → t.closed = true) ∧
      t.sendWindow ≤ s.sendWindow + h.mux.credited r.sid a := by
  cases touch with
  | shut other terminal past live => exact ⟨by simp, by simp, by simp⟩
  | overflow data carries registered accepting some_data why refused =>
    exact ⟨by simp, by simp, by simp⟩
  | ended carries registered =>
    exact ⟨by simp [Stream.feedEof], by simp [Stream.feedEof], by simp [Stream.feedEof]⟩
  | granted payload delta carries registered four unpacked nonzero =>
    refine ⟨id, id, ?_⟩
    simp only [Stream.grant, Mux.credited, carries, registered, four, unpacked]
    simp
  | started data sent o free going sends =>
    obtain ⟨_, _, _, _, _, ended, closed⟩ := sends.frame
    have window := sends.window.1
    exact ⟨by simp [ended], by simp [closed], by omega⟩
  | resumed view sent o busy sends =>
    obtain ⟨_, _, _, _, _, ended, closed⟩ := sends.frame
    have window := sends.window.1
    exact ⟨by simp [ended], by simp [closed], by omega⟩
  | eof sent free going => exact ⟨by simp, id, by simp⟩
  | _ => exact ⟨id, id, by simp⟩

/-- A step that sends nothing about the stream. -/
theorem says_of_silence {sid : StreamId}
    (sends : (s.sendEnded = true → t.sendEnded = true) ∧ (s.closed = true → t.closed = true) ∧
      t.sendWindow ≤ s.sendWindow + h.mux.credited sid a) (silent : about sid e.out = [])
    (tasks : e.host.mux.tasks.count (.sendOnce sid) + s.closed.toNat ≤
      h.mux.tasks.count (.sendOnce sid) + t.closed.toNat) : Says h sid a s t e := by
  refine ⟨sends.1, sends.2.1, ?_, Or.inl silent, ?_⟩
  · rw [silent]
    simpa [dataBytes] using sends.2.2
  · rw [silent]
    simpa [resetsOf] using tasks

/-- A segment of `send` hands over at most one chunk, within its window. -/
theorem says_sends {view : Bytes} {sent : Bool} {o : Stream × Option Bytes × Result}
    (sends : Stream.Sends s view sent o) {g : Host} (tasks : g.mux.tasks = h.mux.tasks) :
    Says h r.sid a s o.1 ⟨g, (h.afterSend r sent o).out, o.2.2⟩ := by
  obtain ⟨_, _, _, _, _, ended, closed⟩ := sends.frame
  have window := sends.window.1
  have silence : o.2.1 = none → Says h r.sid a s o.1 ⟨g, (h.afterSend r sent o).out, o.2.2⟩ := by
    intro none
    refine says_of_silence ⟨by simp [ended], by simp [closed], by omega⟩ ?_ ?_
    · simp [Host.afterSend, none, about]
    · simp [tasks, closed]
  cases sends with
  | returns empty => exact silence rfl
  | raises left done => exact silence rfl
  | parks left going dry => exact silence rfl
  | emits n going pos fits credit frame =>
    have out : about r.sid (emit sent .data r.sid (view.take n)) = emit sent .data r.sid (view.take n) :=
      about_emit sent .data r.sid (view.take n)
    have length : (view.take n).length = n := by simp; omega
    refine ⟨id, id, ?_, ?_, ?_⟩
    · simp only [Host.afterSend, out]
      cases sent
      · simp [emit, dataBytes]
        omega
      · simp [emit, dataBytes, length]
    · simp only [Host.afterSend, out]
      cases sent
      · exact Or.inl rfl
      · exact Or.inr ⟨_, rfl, Or.inl ⟨rfl, going⟩⟩
    · simp only [Host.afterSend, out, tasks]
      cases sent <;> simp [emit, resetsOf]

/-- A step that hands over one frame about the stream, neither DATA nor RESET. -/
theorem says_emit {type : FrameType} {payload : Bytes} (sent : Bool)
    (plain : type ≠ .data ∧ type ≠ .reset) (spoke : Spoke ⟨type, r.sid, payload⟩ s t)
    (sends : (s.sendEnded = true → t.sendEnded = true) ∧ (s.closed = true → t.closed = true) ∧
      t.sendWindow ≤ s.sendWindow + h.mux.credited r.sid a) {g : Host} (o : Result)
    (tasks : g.mux.tasks.count (.sendOnce r.sid) + s.closed.toNat ≤
      h.mux.tasks.count (.sendOnce r.sid) + t.closed.toNat) :
    Says h r.sid a s t ⟨g, emit sent type r.sid payload, o⟩ := by
  have out := about_emit sent type r.sid payload
  refine ⟨sends.1, sends.2.1, ?_, ?_, ?_⟩
  · rw [out]
    cases sent <;> simpa [emit, dataBytes, plain.1] using sends.2.2
  · rw [out]
    cases sent
    · exact Or.inl rfl
    · exact Or.inr ⟨_, rfl, spoke⟩
  · rw [out]
    cases sent <;> simpa [emit, resetsOf, plain.2] using tasks

theorem isLocal_of_target (target : a.target = some r) : a.isLocal = true := by
  cases a <;> first | rfl | cases target

/-- A call on the stream itself. -/
theorem says_target (acc : h.mux.Accounted) (found : h.mux.heap r = some s)
    (moved : h.step a = some e) (target : a.target = some r) :
    ∃ t, e.host.mux.heap r = some t ∧ Says h r.sid a s t e := by
  have tasks := Host.tasks_local moved (isLocal_of_target target)
    (by rintro t sent rfl; cases target)
  obtain ⟨t, after, touch⟩ := Host.step_touch acc found moved
  refine ⟨t, after, ?_⟩
  obtain ⟨g, out, res⟩ := e
  have sends := touch.send
  have count : g.mux.tasks.count (.sendOnce r.sid) + s.closed.toNat ≤
      h.mux.tasks.count (.sendOnce r.sid) + t.closed.toNat := by
    have mono := toNat_le_toNat sends.2.1
    rw [tasks]
    omega
  cases touch with
  | pass other => exact absurd target other
  | shut other => exact absurd target other
  | fed => cases target
  | overflow => cases target
  | ended => cases target
  | granted => cases target
  | started data sent o free going segment => exact says_sends segment tasks
  | resumed view sent o busy segment => exact says_sends segment tasks
  | eof sent free going =>
    exact says_emit sent (by decide) (Or.inr (Or.inl ⟨rfl, going, rfl⟩)) sends _ count
  | ackFlush n sent live whole pos large =>
    exact says_emit _ (by decide) (Or.inr (Or.inr (Or.inl ⟨rfl, live⟩))) sends _ count
  | _ => exact says_of_silence sends rfl count

/-- `Stream.reset` on some object, seen from one stream. -/
theorem says_reset {sid : StreamId} {r' : Ref} {g : Host} (sent : Bool)
    (found : h.mux.heap ⟨sid, 0⟩ = some s) (heap : g.mux.heap = h.mux.heap)
    (sole : ∀ r s, h.mux.heap r = some s → r.gen = 0)
    (after : (g.reset r' sent).host.mux.heap ⟨sid, 0⟩ = some t)
    (sends : (s.sendEnded = true → t.sendEnded = true) ∧ (s.closed = true → t.closed = true) ∧
      t.sendWindow ≤ s.sendWindow + h.mux.credited sid a)
    (tasks : g.mux.tasks.count (.sendOnce sid) ≤ h.mux.tasks.count (.sendOnce sid)) :
    Says h sid a s t (g.reset r' sent) := by
  have mono := toNat_le_toNat sends.2.1
  have count : (g.reset r' sent).host.mux.tasks.count (.sendOnce sid) + s.closed.toNat ≤
      h.mux.tasks.count (.sendOnce sid) + t.closed.toNat := by
    rw [Host.tasks_reset]
    omega
  cases there : g.mux.heap r' with
  | none =>
    exact says_of_silence sends (by simp [Host.reset, Host.resetLocalNow, there, about]) count
  | some s' =>
    cases closed : s'.closed with
    | true =>
      exact says_of_silence sends (by simp [Host.reset, Host.resetLocalNow, there, closed, about])
        count
    | false =>
      have out : (g.reset r' sent).out = emit sent .reset r'.sid [] := by
        simp [Host.reset, Host.resetLocalNow, there, closed]
      by_cases here : r'.sid = sid
      · -- the stream itself: it was live, and is closed now
        have same : r' = ⟨sid, 0⟩ := by
          obtain ⟨sid', gen⟩ := r'
          have zero := sole _ _ (heap ▸ there)
          simp only at here zero
          rw [here, zero]
        subst same
        rw [heap, found] at there
        cases there
        have shut : t = s.shut .reset := by
          rw [Host.heap_reset, Host.heap_closeLocal, if_pos rfl, heap, found] at after
          simpa [closed] using after.symm
        have about_out : about sid (g.reset ⟨sid, 0⟩ sent).out = emit sent .reset sid [] := by
          rw [out]
          exact about_emit sent .reset sid []
        refine ⟨sends.1, sends.2.1, ?_, ?_, ?_⟩
        · rw [about_out]
          cases sent <;> simpa [emit, dataBytes] using sends.2.2
        · rw [about_out]
          cases sent
          · exact Or.inl rfl
          · exact Or.inr ⟨_, rfl, Or.inr (Or.inr (Or.inr rfl))⟩
        · rw [about_out, Host.tasks_reset, shut, closed, Stream.closed_shut]
          cases sent <;> simp [emit, resetsOf] <;> omega
      · refine says_of_silence sends (about_eq_nil fun f member => ?_) count
        rw [out] at member
        rw [Host.mem_emit member]
        exact here

/-- The spawned coroutines, seen from one stream. -/
theorem says_task {sid : StreamId} {task : Task} {sent : Bool}
    (found : h.mux.heap ⟨sid, 0⟩ = some s) (sole : ∀ r s, h.mux.heap r = some s → r.gen = 0)
    (inside : task ∈ h.mux.tasks)
    (after : (h.runTask task sent).host.mux.heap ⟨sid, 0⟩ = some t)
    (sends : (s.sendEnded = true → t.sendEnded = true) ∧ (s.closed = true → t.closed = true) ∧
      t.sendWindow ≤ s.sendWindow + h.mux.credited sid a) :
    Says h sid a s t (h.runTask task sent) := by
  have mono := toNat_le_toNat sends.2.1
  unfold Host.runTask at after ⊢
  cases task with
  | reset r' =>
    exact says_reset sent found rfl sole after sends
      (List.erase_sublist.count_le _)
  | sendOnce sid' =>
    by_cases here : sid' = sid
    · subst here
      have once : 0 < h.mux.tasks.count (.sendOnce sid') := List.count_pos_iff.mpr inside
      have out := about_emit sent .reset sid' []
      refine ⟨sends.1, sends.2.1, ?_, ?_, ?_⟩
      · simp only [out]
        cases sent <;> simpa [emit, dataBytes] using sends.2.2
      · simp only [out]
        cases sent
        · exact Or.inl rfl
        · exact Or.inr ⟨_, rfl, Or.inr (Or.inr (Or.inr rfl))⟩
      · simp only [out, Host.mux_updateMux, Mux.spawn, List.count_append, List.count_erase_self]
        cases sent <;> simp [emit, resetsOf] <;> omega
    · refine says_of_silence sends (about_eq_nil fun f member => ?_) ?_
      · rw [Host.mem_emit member]
        exact here
      · simp [Mux.spawn, List.count_append, List.count_erase, here, mono]
  | sendOnceSent sid' =>
    refine says_of_silence sends rfl ?_
    simp [mono]

/-- A call on one stream sends nothing about another. -/
theorem silent_of_target {sid : StreamId} (acc : h.mux.Accounted)
    (sole : ∀ r s, h.mux.heap r = some s → r.gen = 0) (moved : h.step a = some e)
    (target : a.target = some r) (other : r ≠ ⟨sid, 0⟩) : about sid e.out = [] := by
  have away : ∀ r' s', h.mux.heap r' = some s' → a.target = some r' → r'.sid ≠ sid := by
    intro r' s' there target'
    rw [target] at target'
    cases target'
    obtain ⟨sid', gen⟩ := r
    have zero := sole _ _ there
    simp only at zero
    subst zero
    rintro rfl
    exact other rfl
  refine about_eq_nil fun f member => ?_
  cases Host.step_out acc moved member with
  | data r' s' target' there chunk some_data => exact away r' s' there target'
  | eof r' s' target' there => exact away r' s' there target'
  | windowUpdate r' s' target' there delta nonzero => exact away r' s' there target'
  | reset none r' s' there => rw [target] at none; cases none
  | open_ sent => cases target
  | resetOnce sid' sent task => cases target
  | goaway sent => cases target

/-- **One step, seen from a stream of the initiator.** -/
theorem says_step {sid : StreamId} (acc : h.mux.Accounted)
    (server : h.mux.config.acceptsOpen = false)
    (sole : ∀ r s, h.mux.heap r = some s → r.gen = 0) (found : h.mux.heap ⟨sid, 0⟩ = some s)
    (moved : h.step a = some e) :
    ∃ t, e.host.mux.heap ⟨sid, 0⟩ = some t ∧ Says h sid a s t e := by
  by_cases target : a.target = some ⟨sid, 0⟩
  · exact says_target acc found moved target
  obtain ⟨t, after, touch⟩ := Host.step_touch acc found moved
  refine ⟨t, after, ?_⟩
  have sends := touch.send
  have mono := toNat_le_toNat sends.2.1
  have nonzero : sid ≠ 0 := (acc.fresh _ s found).2
  have called : ∀ r', a.target = some r' → Says h sid a s t e := by
    intro r' there
    refine says_of_silence sends (silent_of_target acc sole moved there ?_) ?_
    · rintro rfl
      exact target there
    · rw [Host.tasks_local moved (isLocal_of_target there) (by rintro t sent rfl; cases there)]
      omega
  have quiet : a.isLocal = true → (∀ t sent, a ≠ .runTask t sent) → about sid e.out = [] →
      Says h sid a s t e := by
    intro here idle silent
    refine says_of_silence sends silent ?_
    rw [Host.tasks_local moved here idle]
    omega
  cases a with
  | message msg =>
    obtain ⟨-, arrival, out⟩ := Host.step_message acc moved
    refine says_of_silence sends (by rw [out]; rfl) ?_
    rcases Host.pending_arrival acc server arrival sid with fewer | ⟨r', s', here, there, live, shut, more⟩
    · omega
    · obtain ⟨sid', gen⟩ := r'
      have zero := sole _ _ there
      simp only at here zero
      subst here zero
      rw [found] at there
      cases there
      rw [after] at shut
      cases shut
      simp only [Stream.closed_shut, live, Bool.toNat_true, Bool.toNat_false]
      omega
  | connectionLost =>
    simp only [Host.step] at moved
    split at moved
    · cases moved
      refine says_of_silence sends rfl ?_
      simp only [Host.finish_eq, Host.mux_updateMux, List.count_nil]
      omega
    · cases moved
  | openStream sent =>
    rcases (Host.step_openStream moved).2 with ⟨same, out⟩ | ⟨small, mux, out⟩
    · refine says_of_silence sends (by rw [out]; rfl) ?_
      rw [same]
      omega
    · refine says_of_silence sends (about_eq_nil fun f member => ?_) ?_
      · rw [out] at member
        rw [Host.mem_emit member]
        rintro rfl
        have made := (acc.fresh _ s found).1
        have below := acc.ids server _ (Nat.zero_lt_of_lt made)
        simp only [UInt32.toNat_ofNat'] at below
        omega
      · rw [mux]
        simp only [Host.opened, Mux.register, Mux.setStream]
        omega
  | reset r' sent =>
    obtain ⟨s', held, rfl⟩ := Option.map_eq_some_iff.mp moved
    exact says_reset sent found rfl sole after sends (le_refl _)
  | runTask task sent =>
    simp only [Host.step] at moved
    split at moved
    next inside =>
      cases moved
      exact says_task found sole inside after sends
    · cases moved
  | openReturn r' =>
    simp only [Host.step] at moved
    split at moved
    · cases moved; exact quiet rfl (by simp) rfl
    · cases moved
  | openRaise r' =>
    simp only [Host.step] at moved
    split at moved
    · cases moved; exact quiet rfl (by simp) rfl
    · cases moved
  | close r' =>
    obtain ⟨s', held, rfl⟩ := Option.map_eq_some_iff.mp moved
    exact quiet rfl (by simp) rfl
  | goaway sent =>
    cases moved
    refine quiet rfl (by simp) (about_eq_nil fun f member => ?_)
    rw [Host.mem_emit member]
    exact nonzero.symm
  | rearmIdle =>
    simp only [Host.step] at moved
    split at moved
    · cases moved
    · cases moved; exact quiet rfl (by simp) rfl
  | writeStall => cases moved; exact quiet rfl (by simp) rfl
  | closeStall => cases moved; exact quiet rfl (by simp) rfl
  | send r' data sent => exact called r' rfl
  | sendEof r' sent => exact called r' rfl
  | sendResume r' sent => exact called r' rfl
  | sendTimeout r' => exact called r' rfl
  | sendRaise r' => exact called r' rfl
  | read r' => exact called r' rfl
  | ack r' n sent => exact called r' rfl

end

end Chute
