import Chute.Mux.Steps

/-!
# The receive direction between the calls of its owner

`Listens` lists what can happen to the queue and the receive state of a stream object
while none of its own calls runs. Only an EOF frame ends the direction cleanly, and
`tears` tells which steps tear the stream down.
-/
namespace Chute

/-- A call of the owner of the stream object, or of the `open` that made it. -/
def Action.calls (r : Ref) : Action → Bool
  | .reset r' _ => r' = r
  | .close r' => r' = r
  | .openRaise r' => r' = r
  | a => a.target = some r

/-- The action brings this frame to the stream. -/
def Action.Brings (a : Action) (f : Frame) : Prop := ∃ msg, a = .message msg ∧ msg.frame = some f

theorem brings_message {msg : Message} {f : Frame} :
    (Action.message msg).Brings f ↔ msg.frame = some f := by
  constructor
  · rintro ⟨msg', same, carries⟩
    cases same
    exact carries
  · exact fun carries => ⟨msg, rfl, carries⟩

namespace Host

/-- The message ends in `_ignore_frame`. -/
def ignores (h : Host) : Option Frame → Bool
  | none => true
  | some f =>
    match f.ftype with
    | .open_ => f.sid = 0 || h.mux.config.acceptsOpen = false
    | .goaway => f.sid ≠ 0 || f.payload ≠ [] || h.mux.peerGoingAway
    | .windowUpdate =>
      f.sid = 0 || (h.mux.registered f.sid).isNone || unpackU32 f.payload = some 0
    | _ => f.sid = 0 || (h.mux.registered f.sid).isNone

/-- A step that is no call of the owner and tears the stream down if it is live: a RESET
or a malformed frame of the peer, the spawned `reset` after an overflow, and the end of
the connection, which one ignored frame too many brings about as well. -/
def tears (h : Host) (r : Ref) : Action → Bool
  | .message msg =>
    h.ignores msg.frame && decide (maxIgnoredFrames ≤ h.mux.stats.ignoredFrames + 1) ||
      match msg.frame with
      | none => false
      | some f =>
        f.sid = r.sid && match f.ftype with
          | .reset => true
          | .eof => f.payload ≠ []
          | .windowUpdate => f.payload.length ≠ 4
          | _ => false
  | .connectionLost => true
  | .runTask (.reset r') _ => r' = r
  | _ => false

/-- What becomes of the receive direction of `r`, now `s`, in a step that is no call of its
owner. -/
inductive Listens (h : Host) (r : Ref) (s : Stream) (a : Action) (t : Stream) : Prop
  | still (queue : t.incoming = s.incoming) (recv : t.recv = s.recv) (closed : t.closed = s.closed)
      (silent : s.recv = .open_ → (∀ data, a.Brings ⟨.data, r.sid, data⟩ → data = []) ∧
        ∀ payload, ¬a.Brings ⟨.eof, r.sid, payload⟩)
  | fed (data : Bytes) (brings : a.Brings ⟨.data, r.sid, data⟩) (accepting : s.recv = .open_)
      (queue : t.incoming = s.incoming ++ [some data]) (recv : t.recv = s.recv)
      (closed : t.closed = s.closed)
  | overflow (data : Bytes) (brings : a.Brings ⟨.data, r.sid, data⟩) (accepting : s.recv = .open_)
      (queue : t.incoming = s.incoming ++ [none]) (recv : t.recv = .reset)
      (closed : t.closed = s.closed)
  | ended (brings : a.Brings ⟨.eof, r.sid, []⟩) (accepting : s.recv = .open_)
      (queue : t.incoming = s.incoming ++ [none]) (recv : t.recv = .eof)
      (closed : t.closed = s.closed)
  | torn (tears : h.tears r a = true) (live : s.closed = false) (shut : t = s.shut .reset)

section

variable {h : Host} {r : Ref} {s : Stream}

private theorem ignores_of_ignorable {f : Option Frame} (why : Ignorable h f) :
    h.ignores f = true := by
  cases why with
  | malformed => rfl
  | zeroSid f zero type => cases type' : f.ftype <;> simp_all [ignores]
  | openNotAccepted f type server => simp [ignores, type, server]
  | unknown f type absent => cases type' : f.ftype <;> simp_all [ignores]
  | zeroGrant f type unpacked => simp [ignores, type, unpacked]
  | badGoaway f type bad => rcases bad with bad | bad <;> simp [ignores, type, bad]
  | duplicateGoaway f type twice => simp [ignores, type, twice]

/-- Only what a message brings can concern a stream between its calls. -/
private theorem listens_still {a : Action} (mute : ∀ f, a.Brings f → f.sid = r.sid →
    s.recv = .open_ → f.ftype = .data ∧ f.payload = [] ∨ f.ftype ≠ .data ∧ f.ftype ≠ .eof) :
    Listens h r s a s := by
  refine .still rfl rfl rfl fun accepting => ⟨fun data brings => ?_, fun payload brings => ?_⟩
  · rcases mute _ brings rfl accepting with ⟨-, empty⟩ | ⟨other, -⟩
    · exact empty
    · exact absurd rfl other
  · rcases mute _ brings rfl accepting with ⟨other, -⟩ | ⟨-, other⟩
    · cases other
    · exact absurd rfl other

private theorem listens_unbrought {a : Action} (local_ : a.isMessage = false) :
    Listens h r s a s := by
  refine listens_still fun f brings => ?_
  obtain ⟨msg, rfl, -⟩ := brings
  cases local_

/-- A live stream is registered. -/
private theorem registered_of_live (acc : h.mux.Accounted) (found : h.mux.heap r = some s)
    (live : s.closed = false) : h.mux.registered r.sid = some r :=
  Mux.registered_eq_some.mpr ⟨rfl, (acc.registry r).mpr ⟨s, found, live⟩⟩

private theorem live_of_accepting (acc : h.mux.Accounted) (found : h.mux.heap r = some s)
    (accepting : s.recv = .open_) : s.closed = false := by
  cases closed : s.closed with
  | false => rfl
  | true => exact absurd accepting ((acc.tallied r s found).dead closed).2.2

/-- The `finally` of `run` tears down what is registered. -/
private theorem listens_finish (acc : h.mux.Accounted) (found : h.mux.heap r = some s)
    {a : Action} (torn : h.tears r a = true) {h' : Host} (heap : h'.mux.heap = h.mux.heap)
    (streams : h'.mux.streams = h.mux.streams) :
    ∃ t, h'.finish.mux.heap r = some t ∧ Listens h r s a t := by
  rw [heap_finish, heap, streams]
  split
  next registered =>
    obtain ⟨s', found', live⟩ := (acc.registry r).mp registered
    cases found.symm.trans found'
    exact ⟨s.shut .reset, by simp [found, live], .torn torn live rfl⟩
  next away =>
    have closed : s.closed = true := by
      cases closed : s.closed with
      | true => rfl
      | false => exact absurd ((acc.registry r).mpr ⟨s, found, closed⟩) away
    refine ⟨s, found, listens_still fun f _ _ accepting => ?_⟩
    exact absurd accepting ((acc.tallied r s found).dead closed).2.2

private theorem listens_ignored (acc : h.mux.Accounted) (found : h.mux.heap r = some s)
    {msg : Message} (why : Ignorable h msg.frame) :
    ∃ t, h.ignoreFrame.mux.heap r = some t ∧ Listens h r s (.message msg) t := by
  unfold ignoreFrame
  simp only
  split
  next few =>
    refine ⟨s, found, listens_still ?_⟩
    intro f brings sid accepting
    rw [brings_message.mp brings] at why
    -- a frame for an accepting stream is ignored only for its type
    have here := registered_of_live acc found (live_of_accepting acc found accepting)
    cases why with
    | zeroSid f zero type => exact absurd (sid.symm.trans zero) (acc.fresh r s found).2
    | openNotAccepted f type server => exact Or.inr (by simp [type])
    | unknown f type absent => rw [sid, here] at absent; cases absent
    | zeroGrant f type unpacked => exact Or.inr (by simp [type])
    | badGoaway f type bad => exact Or.inr (by simp [type])
    | duplicateGoaway f type twice => exact Or.inr (by simp [type])
  next many =>
    refine listens_finish acc found ?_ rfl rfl
    have last : maxIgnoredFrames ≤ h.mux.stats.ignoredFrames + 1 := not_lt.mp many
    simp [tears, ignores_of_ignorable why, last]

/-- A change of one object by a message, seen from any object. -/
private theorem listens_setStream (found : h.mux.heap r = some s) {r' : Ref} {s' t' : Stream}
    (there : h.mux.heap r' = some s') {f : Frame} {msg : Message} (carries : msg.frame = some f)
    (here : h.mux.registered f.sid = some r') (acc : h.mux.Accounted)
    (listens : Listens h r' s' (.message msg) t') :
    ∃ t, (h.setStream r' t').mux.heap r = some t ∧ Listens h r s (.message msg) t := by
  by_cases same : r = r'
  · subst same
    cases found.symm.trans there
    exact ⟨t', by simp, listens⟩
  · refine ⟨s, by simp [Mux.setStream, same, found], listens_still ?_⟩
    intro f' brings sid accepting
    -- an accepting stream is the registered one of its id
    cases carries.symm.trans (brings_message.mp brings)
    have mine := registered_of_live acc found (live_of_accepting acc found accepting)
    rw [sid, mine] at here
    exact absurd (Option.some.inj here) same

private theorem listens_torn (acc : h.mux.Accounted) (found : h.mux.heap r = some s) {a : Action}
    {q : Ref} (torn : r = q → h.tears r a = true)
    (others : r ≠ q → s.recv = .open_ → ∀ f, a.Brings f → f.sid ≠ r.sid) :
    ∃ t, (h.closeLocal q .reset).mux.heap r = some t ∧ Listens h r s a t := by
  rw [heap_closeLocal]
  split
  next same =>
    subst same
    rw [found]
    cases closed : s.closed with
    | true =>
      refine ⟨s, by simp [closed], listens_still fun f _ _ accepting => ?_⟩
      exact absurd accepting ((acc.tallied r s found).dead closed).2.2
    | false => exact ⟨s.shut .reset, by simp [closed], .torn (torn rfl) closed rfl⟩
  next apart =>
    exact ⟨s, found, listens_still fun f brings sid accepting =>
      absurd sid (others apart accepting f brings)⟩

/-- A frame for another registered object is none for an accepting stream. -/
private theorem elsewhere (acc : h.mux.Accounted) (found : h.mux.heap r = some s) {r' : Ref}
    {f : Frame} {msg : Message} (carries : msg.frame = some f)
    (here : h.mux.registered f.sid = some r') (apart : r ≠ r') (accepting : s.recv = .open_)
    (f' : Frame) (brings : (Action.message msg).Brings f') : f'.sid ≠ r.sid := by
  cases carries.symm.trans (brings_message.mp brings)
  intro sid
  have mine := registered_of_live acc found (live_of_accepting acc found accepting)
  rw [sid, mine] at here
  exact apart (Option.some.inj here)

private theorem listens_arrival (acc : h.mux.Accounted) (found : h.mux.heap r = some s)
    {msg : Message} {h' : Host} (arrival : Arrival h msg.frame h') :
    ∃ t, h'.mux.heap r = some t ∧ Listens h r s (.message msg) t := by
  have typed : ∀ f, msg.frame = some f → f.ftype ≠ .data → f.ftype ≠ .eof →
      Listens h r s (.message msg) s := by
    intro f carries data eof
    refine listens_still ?_
    intro f' brings _ _
    cases carries.symm.trans (brings_message.mp brings)
    exact Or.inr ⟨data, eof⟩
  generalize carries : msg.frame = f at arrival
  cases arrival with
  | ignored why => exact listens_ignored acc found (carries ▸ why)
  | refused sid payload nonzero responder why =>
    exact ⟨s, by simpa using found, typed _ carries (by simp) (by simp)⟩
  | accepted sid nonzero responder steady new room =>
    refine ⟨s, ?_, typed _ carries (by simp) (by simp)⟩
    have apart : r ≠ ⟨sid, h.mux.made sid⟩ := by
      rintro rfl
      exact lt_irrefl _ (acc.fresh _ s found).1
    simp [Mux.register, Mux.setStream, apart, found]
  | dropped r' s' payload registered there why =>
    refine ⟨s, found, listens_still ?_⟩
    intro f' brings sid accepting
    cases carries.symm.trans (brings_message.mp brings)
    by_cases same : r = r'
    · subst same
      cases found.symm.trans there
      rcases why with past | empty
      · exact absurd accepting past
      · exact Or.inl ⟨rfl, empty⟩
    · exact absurd sid (elsewhere acc found carries registered same accepting _ brings)
  | overflow r' s' payload registered there accepting some_data why refused =>
    refine listens_setStream found there carries registered acc
      (.overflow payload (brings_message.mpr carries) accepting ?_ ?_ ?_)
    · simp [Stream.endRecv, accepting]
    · simp [Stream.endRecv, accepting]
    · simp
  | fed r' s' payload registered there accepting some_data h' admitted =>
    have listens : Listens h r' s' (.message msg)
        { s' with
          incoming := s'.incoming ++ [some payload]
          recvBuffered := s'.recvBuffered + payload.length
          recvFrames := s'.recvFrames + 1 } :=
      .fed payload (brings_message.mpr carries) accepting rfl rfl rfl
    obtain ⟨t, after, listens⟩ := listens_setStream found there carries registered acc listens
    refine ⟨t, ?_, listens⟩
    simpa [Mux.setStream, admitted.mux] using after
  | ended r' s' registered there =>
    refine listens_setStream found there carries registered acc ?_
    by_cases accepting : s'.recv = .open_
    · refine .ended (brings_message.mpr carries) accepting ?_ ?_ ?_ <;>
        simp [Stream.feedEof, Stream.endRecv, accepting]
    · rw [Stream.feedEof, Stream.endRecv, if_neg accepting]
      exact listens_still fun _ _ _ accepting' => absurd accepting' accepting
  | malformed f r' sid registered bad =>
    rw [heap_resetMalformed]
    have here : h.mux.registered f.sid = some r' := by rw [sid]; exact registered
    refine listens_torn acc found ?_ fun apart accepting =>
      elsewhere acc found carries here apart accepting
    rintro rfl
    rcases bad with ⟨type, bad⟩ | ⟨type, bad⟩ <;> simp [tears, carries, sid, type, bad]
  | granted r' s' payload delta registered there four unpacked nonzero =>
    refine listens_setStream found there carries registered acc (.still rfl rfl rfl fun _ => ?_)
    refine ⟨fun _ brings => ?_, fun _ brings => ?_⟩
    · cases carries.symm.trans (brings_message.mp brings)
    · cases carries.symm.trans (brings_message.mp brings)
  | aborted r' payload registered =>
    have heap : (h.updateMux fun m =>
      { m with stats := { m.stats with resetPeer := m.stats.resetPeer + 1 } }).mux.heap =
        h.mux.heap := rfl
    obtain ⟨t, after, listens⟩ := listens_torn acc found (a := .message msg) (q := r')
      (by rintro rfl; simp [tears, carries])
      fun apart accepting => elsewhere acc found carries registered apart accepting
    refine ⟨t, ?_, listens⟩
    rw [heap_closeLocal] at after ⊢
    rw [heap]
    exact after
  | goaway first => exact ⟨s, found, typed _ carries (by simp) (by simp)⟩

/-- A call on one object leaves the others alone. -/
private theorem heap_target {a : Action} {e : Effect} (moved : h.step a = some e) {r' : Ref}
    (target : a.target = some r') (apart : r ≠ r') : e.host.mux.heap r = h.mux.heap r := by
  have away : ∀ (g : Host) (t : Stream), (g.setStream r' t).mux.heap r = g.mux.heap r :=
    fun g t => Mux.heap_setStream_ne g.mux t apart
  cases a with
  | send r'' data sent =>
    cases target
    obtain ⟨s, held, moved⟩ := Option.bind_eq_some_iff.mp moved
    split at moved
    · cases moved; exact away h _
    · cases moved
  | sendEof r'' sent =>
    cases target
    obtain ⟨s, held, moved⟩ := Option.bind_eq_some_iff.mp moved
    split at moved
    · cases moved
      unfold sendEof
      split
      · rfl
      · exact away h _
    · cases moved
  | sendResume r'' sent =>
    cases target
    obtain ⟨s, held, moved⟩ := Option.bind_eq_some_iff.mp moved
    unfold sendResume at moved
    repeat' split at moved
    all_goals cases moved
    all_goals exact away h _
  | sendTimeout r'' =>
    cases target
    obtain ⟨s, held, moved⟩ := Option.bind_eq_some_iff.mp moved
    unfold sendTimeout at moved
    split at moved
    · cases moved; exact away h _
    · cases moved
  | sendRaise r'' =>
    cases target
    obtain ⟨s, held, moved⟩ := Option.bind_eq_some_iff.mp moved
    unfold sendRaise at moved
    split at moved
    · cases moved
    · cases moved; exact away h _
  | read r'' =>
    cases target
    obtain ⟨s, held, moved⟩ := Option.bind_eq_some_iff.mp moved
    unfold Host.read at moved
    repeat' split at moved
    all_goals cases moved
    all_goals try rw [mux_releaseBuffer]
    all_goals exact away h _
  | ack r'' n sent =>
    cases target
    obtain ⟨s, held, rfl⟩ := Option.map_eq_some_iff.mp moved
    unfold Host.ack
    repeat' split
    all_goals first
      | rfl
      | exact away h _
  | _ => cases target

/-- **`Listens` is complete**: what a step that is no call of the owner does. -/
theorem step_listens (acc : h.mux.Accounted) (found : h.mux.heap r = some s) {a : Action}
    (other : a.calls r = false) {e : Effect} (moved : h.step a = some e) :
    ∃ t, e.host.mux.heap r = some t ∧ Listens h r s a t := by
  have still : a.isMessage = false → e.host.mux.heap r = h.mux.heap r →
      ∃ t, e.host.mux.heap r = some t ∧ Listens h r s a t :=
    fun local_ same => ⟨s, same.trans found, listens_unbrought local_⟩
  -- the object is another one than that of a `_close_local`
  have apart : ∀ {g : Host} {r' : Ref} {terminal : RecvState}, r' ≠ r →
      g.mux.heap = h.mux.heap → (g.closeLocal r' terminal).mux.heap r = h.mux.heap r := by
    intro g r' terminal ne same
    rw [heap_closeLocal, if_neg (Ne.symm ne), same]
  have called : ∀ {r'}, a.target = some r' → a.isMessage = false →
      ∃ t, e.host.mux.heap r = some t ∧ Listens h r s a t := by
    intro r' target local_
    refine still local_ (heap_target moved target ?_)
    rintro rfl
    cases a <;> simp_all [Action.calls, Action.target]
  cases a with
  | message msg => exact listens_arrival acc found (step_message acc moved).2.1
  | connectionLost =>
    simp only [Host.step] at moved
    split at moved
    · cases moved
      exact listens_finish acc found rfl rfl rfl
    · cases moved
  | openStream sent =>
    simp only [Host.step] at moved
    split at moved
    · cases moved
    · cases moved
      refine still rfl ?_
      unfold openStream
      simp only
      split
      · rfl
      · have apart : r ≠ ⟨UInt32.ofNat h.mux.nextId, h.mux.made (UInt32.ofNat h.mux.nextId)⟩ := by
          rintro rfl
          exact lt_irrefl _ (acc.fresh _ s found).1
        simp only [Mux.register, Mux.setStream, Function.update_of_ne apart]
  | openReturn r' =>
    simp only [Host.step] at moved
    split at moved
    · cases moved; exact still rfl rfl
    · cases moved
  | openRaise r' =>
    simp only [Host.step] at moved
    split at moved
    · cases moved
      exact still rfl (apart (by simpa [Action.calls] using other) rfl)
    · cases moved
  | reset r' sent =>
    obtain ⟨s', held, rfl⟩ := Option.map_eq_some_iff.mp moved
    refine still rfl ?_
    rw [heap_reset]
    exact apart (by simpa [Action.calls] using other) rfl
  | close r' =>
    obtain ⟨s', held, rfl⟩ := Option.map_eq_some_iff.mp moved
    exact still rfl (apart (by simpa [Action.calls] using other) rfl)
  | runTask task sent =>
    simp only [Host.step] at moved
    split at moved
    · cases moved
      cases task with
      | reset r' =>
        simp only [runTask]
        rw [heap_reset]
        obtain ⟨t, after, listens⟩ := listens_torn acc found (a := .runTask (.reset r') sent)
          (q := r') (by rintro rfl; simp [tears]) (fun _ _ f brings => by
            obtain ⟨msg, same, -⟩ := brings
            cases same)
        refine ⟨t, ?_, listens⟩
        rw [heap_closeLocal] at after ⊢
        exact after
      | sendOnce sid => exact still rfl rfl
      | sendOnceSent sid => exact still rfl rfl
    · cases moved
  | goaway sent => cases moved; exact still rfl rfl
  | rearmIdle =>
    simp only [Host.step] at moved
    split at moved
    · cases moved
    · cases moved; exact still rfl rfl
  | writeStall => cases moved; exact still rfl rfl
  | closeStall => cases moved; exact still rfl rfl
  | send r' data sent => exact called rfl rfl
  | sendEof r' sent => exact called rfl rfl
  | sendResume r' sent => exact called rfl rfl
  | sendTimeout r' => exact called rfl rfl
  | sendRaise r' => exact called rfl rfl
  | read r' => exact called rfl rfl
  | ack r' n sent => exact called rfl rfl

/-! ### The calls of the owner -/

/-- Nothing of the receive direction changed. -/
def SameSide (s t : Stream) : Prop :=
  t.incoming = s.incoming ∧ t.recv = s.recv ∧ t.closed = s.closed

/-- Only a message or a teardown changes what the owner will read. -/
theorem Listens.same {a : Action} {t : Stream} (listens : Listens h r s a t)
    (local_ : a.isMessage = false) (spared : h.tears r a = false) : SameSide s t := by
  have unbrought : ∀ f, ¬a.Brings f := by
    rintro f ⟨msg, rfl, -⟩
    cases local_
  cases listens with
  | still queue recv closed silent => exact ⟨queue, recv, closed⟩
  | fed data brings accepting queue recv closed => exact absurd brings (unbrought _)
  | overflow data brings accepting queue recv closed => exact absurd brings (unbrought _)
  | ended brings accepting queue recv closed => exact absurd brings (unbrought _)
  | torn tears live shut => rw [spared] at tears; cases tears

/-- The calls that send or acknowledge leave the receive direction alone. -/
theorem step_sending (acc : h.mux.Accounted) (found : h.mux.heap r = some s) {a : Action}
    (own : a.target = some r) (unread : a ≠ .read r) {e : Effect} (moved : h.step a = some e) :
    ∃ t, e.host.mux.heap r = some t ∧ SameSide s t := by
  obtain ⟨t, after, touch⟩ := step_touch acc found moved
  refine ⟨t, after, ?_⟩
  generalize e.out = out at touch
  generalize e.result = res at touch
  cases touch with
  | pass other => exact absurd own other
  | shut other terminal past live => exact absurd own other
  | fed data carries registered accepting some_data h' admitted => cases own
  | overflow data carries registered accepting some_data why refused => cases own
  | ended carries registered => cases own
  | granted payload delta carries registered four unpacked nonzero => cases own
  | started data sent o free going sends =>
    obtain ⟨incoming, recv, -, -, -, -, closed⟩ := sends.frame
    exact ⟨incoming, recv, closed⟩
  | resumed view sent o busy sends =>
    obtain ⟨incoming, recv, -, -, -, -, closed⟩ := sends.frame
    exact ⟨incoming, recv, closed⟩
  | readEnd tail first => exact absurd rfl unread
  | readLate chunk tail first closed => exact absurd rfl unread
  | read chunk tail first live => exact absurd rfl unread
  | _ => exact ⟨rfl, rfl, rfl⟩

/-- `read` takes the first entry of the queue. -/
theorem step_read (acc : h.mux.Accounted) (found : h.mux.heap r = some s) {e : Effect}
    (moved : h.step (.read r) = some e) :
    ∃ t c, e.host.mux.heap r = some t ∧ e.result = .chunk c ∧ s.incoming = c :: t.incoming ∧
      t.recv = s.recv ∧ t.closed = s.closed := by
  obtain ⟨t, after, touch⟩ := step_touch acc found moved
  generalize e.out = out at touch
  generalize e.result = res at touch ⊢
  cases touch with
  | pass other => exact absurd rfl other
  | shut other terminal past live => exact absurd rfl other
  | readEnd tail first => exact ⟨_, none, after, rfl, first, rfl, rfl⟩
  | readLate chunk tail first closed => exact ⟨_, some chunk, after, rfl, first, rfl, rfl⟩
  | read chunk tail first live => exact ⟨_, some chunk, after, rfl, first, rfl, rfl⟩

/-- What a call of the owner does to the receive direction, and what it returns. -/
structure Answers (r : Ref) (s : Stream) (call : Action) (res : Result) (t : Stream) : Prop where
  plain : call.target = some r ∧ call ≠ .read r ∨ call = .openReturn r → SameSide s t
  read : call = .read r →
    ∃ c, res = .chunk c ∧ s.incoming = c :: t.incoming ∧ t.recv = s.recv ∧ t.closed = s.closed
  reset : ∀ sent, call = .reset r sent → t = if s.closed then s else s.shut .reset
  close : call = .close r ∨ call = .openRaise r → t = if s.closed then s else s.shut .eof

/-- **Every call of the owner is described.** -/
theorem step_answers (acc : h.mux.Accounted) (found : h.mux.heap r = some s) {call : Action}
    {e : Effect} (moved : h.step call = some e) :
    ∃ t, e.host.mux.heap r = some t ∧ Answers r s call e.result t := by
  obtain ⟨t, after, -⟩ := step_touch acc found moved
  refine ⟨t, after, ?_, ?_, ?_, ?_⟩
  · rintro (⟨own, unread⟩ | rfl)
    · obtain ⟨t', after', side⟩ := step_sending acc found own unread moved
      cases after.symm.trans after'
      exact side
    · simp only [Host.step] at moved
      split at moved
      · cases moved
        cases after.symm.trans found
        exact ⟨rfl, rfl, rfl⟩
      · cases moved
  · rintro rfl
    obtain ⟨t', c, after', result, queue, recv, closed⟩ := step_read acc found moved
    cases after.symm.trans after'
    exact ⟨c, result, queue, recv, closed⟩
  · rintro sent rfl
    obtain ⟨s', held, rfl⟩ := Option.map_eq_some_iff.mp moved
    rw [heap_reset, heap_closeLocal, if_pos rfl, found, Option.map_some] at after
    exact (Option.some.inj after).symm
  · rintro (rfl | rfl)
    · obtain ⟨s', held, rfl⟩ := Option.map_eq_some_iff.mp moved
      simp only [heap_closeLocal, if_true, found, Option.map_some] at after
      exact (Option.some.inj after).symm
    · simp only [Host.step] at moved
      split at moved
      · cases moved
        simp only [heap_closeLocal, if_true, mux_updateMux, found, Option.map_some] at after
        exact (Option.some.inj after).symm
      · cases moved

end

end Host

end Chute
