import Chute.Pair.Lanes

/-!
# Every run of the pair is a run of its lanes

An end of a stream that does not exist is read as the object that an OPEN in flight
will make, or, once there is no such OPEN any more, as an object already torn down.
-/
namespace Chute

open Relation (ReflTransGen)

/-- What the arrival of a frame does to a stream of the receiving side. -/
inductive Receives (f : Frame) (sid : StreamId) (s : Stream) (l : Ledger) : Stream → Ledger → Prop
  | other (away : f.sid ≠ sid ∨ f.ftype = .open_ ∨ f.ftype = .reset ∨ f.ftype = .goaway) :
      Receives f sid s l s l
  | shut (away : f.sid ≠ sid ∨ f.ftype = .open_ ∨ f.ftype = .reset ∨ f.ftype = .goaway)
      (terminal : RecvState) (past : terminal ≠ .open_) : Receives f sid s l (s.shut terminal) l
  | late (here : f.sid = sid) (dead : s.closed = true) (past : s.recv ≠ .open_) :
      Receives f sid s l s l
  | dropped (here : f.sid = sid) (type : f.ftype = .data ∨ f.ftype = .eof)
      (past : s.recv ≠ .open_) : Receives f sid s l s l
  | fed (here : f.sid = sid) (type : f.ftype = .data) (accepting : s.recv = .open_) :
      Receives f sid s l { s with
        incoming := s.incoming ++ [some f.payload]
        recvBuffered := s.recvBuffered + f.payload.length
        recvFrames := s.recvFrames + 1 } l
  | overflow (here : f.sid = sid) (type : f.ftype = .data) (accepting : s.recv = .open_) :
      Receives f sid s l (s.endRecv .reset) l
  | ended (here : f.sid = sid) (type : f.ftype = .eof) (accepting : s.recv = .open_) :
      Receives f sid s l s.feedEof { l with byEof := true }
  | granted (here : f.sid = sid) (type : f.ftype = .windowUpdate) (delta : UInt32)
      (payload : f.payload = packU32 delta) (live : s.closed = false) :
      Receives f sid s l (s.grant delta.toNat) l

section

variable {P : Lane.Params} {mode : Lane.Mode} {f : Frame} {rest : List Frame} {sid : StreamId}
  {s s' t : Stream} {l l' k : Ledger} {link : List (Lane.Packet UInt8)} {back : List Nat}

private theorem packets_away
    (away : f.sid ≠ sid ∨ f.ftype = .open_ ∨ f.ftype = .reset ∨ f.ftype = .goaway) :
    packets sid (f :: rest) = packets sid rest := by
  rcases away with other | type | type | type <;> simp [packets, *]

private theorem credits_away
    (away : f.sid ≠ sid ∨ f.ftype = .open_ ∨ f.ftype = .reset ∨ f.ftype = .goaway) :
    credits sid (f :: rest) = credits sid rest := by
  rcases away with other | type | type | type <;> simp [credits, *]

private theorem packets_data (here : f.sid = sid) (type : f.ftype = .data) :
    packets sid (f :: rest) = .data f.payload :: packets sid rest := by
  simp [packets, here, type]

private theorem packets_eof (here : f.sid = sid) (type : f.ftype = .eof) :
    packets sid (f :: rest) = .fin :: packets sid rest := by
  simp [packets, here, type]

/-- What arrives is delivered by the lane towards this side. -/
theorem Receives.receiver (receives : Receives f sid s l s' l') :
    ReflTransGen (Lane.Step P mode) (laneView t s k l (packets sid (f :: rest)) back)
      (laneView t s' k l' (packets sid rest) back) := by
  cases receives with
  | other away => rw [packets_away away]
  | shut away terminal past =>
    rw [packets_away away]
    exact .single (lane_shut_receiver past)
  | late here dead past =>
    have closed : (laneView t s k l (packets sid (f :: rest)) back).phase ≠ .open_ := by
      simpa [laneView] using past
    cases type : f.ftype with
    | data =>
      rw [packets_data here type] at closed ⊢
      exact .single (.drop _ _ rfl (Or.inl closed))
    | eof =>
      rw [packets_eof here type] at closed ⊢
      exact .single (.drop _ _ rfl (Or.inl closed))
    | windowUpdate => simp [packets, here, type, ReflTransGen.refl]
    | open_ => rw [packets_away (Or.inr (Or.inl type))]
    | reset => rw [packets_away (Or.inr (Or.inr (Or.inl type)))]
    | goaway => rw [packets_away (Or.inr (Or.inr (Or.inr type)))]
  | dropped here type past =>
    have closed : (laneView t s k l (packets sid (f :: rest)) back).phase ≠ .open_ := by
      simpa [laneView] using past
    rcases type with type | type
    · rw [packets_data here type] at closed ⊢
      exact .single (.drop _ _ rfl (Or.inl closed))
    · rw [packets_eof here type] at closed ⊢
      exact .single (.drop _ _ rfl (Or.inl closed))
  | fed here type accepting =>
    rw [packets_data here type]
    have after : Lane.Step P mode
        (laneView t s k l (.data f.payload :: packets sid rest) back) _ :=
      .deliver f.payload _ rfl (by simp [laneView, accepting])
    refine .single ?_
    convert after using 1
    simp [laneView, Stream.chunks, List.reduceOption_append]
  | overflow here type accepting =>
    rw [packets_data here type]
    have after : Lane.Step P mode
        (laneView t s k l (.data f.payload :: packets sid rest) back) _ :=
      .overflow f.payload _ rfl (by simp [laneView, accepting])
    refine .single ?_
    convert after using 1
    simp [laneView, Stream.recv_endRecv, accepting, RecvState.phase]
  | ended here type accepting =>
    rw [packets_eof here type]
    have after : Lane.Step P mode (laneView t s k l (.fin :: packets sid rest) back) _ :=
      .deliverFin _ rfl (by simp [laneView, accepting])
    refine .single ?_
    convert after using 1
    simp [laneView, Stream.feedEof, Stream.recv_endRecv, accepting, RecvState.phase]
  | granted here type delta payload live =>
    convert ReflTransGen.refl using 1
    simp [laneView, packets, here, type, Stream.grant, Stream.chunks]

/-- What arrives is taken in by the lane away from this side. -/
theorem Receives.sender (receives : Receives f sid s l s' l')
    (paid : mode.honest = true → ∀ delta : UInt32, f.sid = sid → f.ftype = .windowUpdate →
      f.payload = packU32 delta → s.sendWindow + delta.toNat ≤ maxSendWindow) :
    ReflTransGen (Lane.Step P mode) (laneView s t l k link (credits sid (f :: rest)))
      (laneView s' t l' k link (credits sid rest)) := by
  cases receives with
  | other away => rw [credits_away away]
  | shut away terminal past =>
    rw [credits_away away]
    exact .single lane_shut_sender
  | late here dead past =>
    cases type : f.ftype with
    | windowUpdate =>
      cases unpacked : unpackU32 f.payload with
      | none => simp [credits, here, type, unpacked, ReflTransGen.refl]
      | some delta =>
        have more : credits sid (f :: rest) = delta.toNat :: credits sid rest := by
          simp [credits, here, type, unpacked]
        rw [more]
        exact .single (.dropCredit _ _ rfl (Or.inl dead))
    | data => simp [credits, here, type, ReflTransGen.refl]
    | eof => simp [credits, here, type, ReflTransGen.refl]
    | open_ => rw [credits_away (Or.inr (Or.inl type))]
    | reset => rw [credits_away (Or.inr (Or.inr (Or.inl type)))]
    | goaway => rw [credits_away (Or.inr (Or.inr (Or.inr type)))]
  | dropped here type past =>
    rcases type with type | type <;> simp [credits, here, type, ReflTransGen.refl]
  | fed here type accepting =>
    convert ReflTransGen.refl using 1
    simp [laneView, credits, here, type]
  | overflow here type accepting =>
    convert ReflTransGen.refl using 1
    simp [laneView, credits, here, type]
  | ended here type accepting =>
    convert ReflTransGen.refl using 1
    simp [laneView, credits, here, type, Stream.feedEof]
  | granted here type delta payload live =>
    have more : credits sid (f :: rest) = delta.toNat :: credits sid rest := by
      simp [credits, here, type, payload]
    rw [more]
    have after : Lane.Step P mode
        (laneView s t l k link (delta.toNat :: credits sid rest)) _ :=
      .grant delta.toNat (credits sid rest) (min (s.sendWindow + delta.toNat) maxSendWindow) rfl
        (fun fair => min_eq_left (paid fair delta here type payload)) live
    exact .single after

end

namespace Pair

variable {S : Setup} {p : Pair}

/-- The server has allocated the id, and its OPEN has come to nothing. -/
def lost (p : Pair) (sid : StreamId) : Prop :=
  0 < (p.mux .server).made sid ∧ opensOf sid (p.wire .server) = 0

instance (p : Pair) (sid : StreamId) : Decidable (p.lost sid) :=
  inferInstanceAs (Decidable (_ ∧ _))

/-- The end of a stream at one side. -/
def stream (S : Setup) (p : Pair) (x : Side) (sid : StreamId) : Stream :=
  match (p.mux x).heap ⟨sid, 0⟩ with
  | some s => s
  | none =>
    if p.lost sid then (Stream.new (S.config x)).shut .reset else Stream.new (S.config x)

/-- The direction of a stream in which `x` sends. -/
def lane (S : Setup) (p : Pair) (x : Side) (sid : StreamId) : Lane.State UInt8 :=
  laneView (p.stream S x sid) (p.stream S x.other sid) (p.ledger x ⟨sid, 0⟩)
    (p.ledger x.other ⟨sid, 0⟩) (packets sid (p.wire x)) (credits sid (p.wire x.other))

theorem stream_of_heap {x : Side} {sid : StreamId} {s : Stream}
    (found : (p.mux x).heap ⟨sid, 0⟩ = some s) : p.stream S x sid = s := by
  simp [stream, found]

/-- An object the server does not have was never allocated. -/
theorem Wired.unmade (wired : p.Wired S) {sid : StreamId}
    (absent : (p.mux .server).heap ⟨sid, 0⟩ = none) : (p.mux .server).made sid = 0 := by
  by_contra made
  obtain ⟨s, found⟩ := wired.objects .server ⟨sid, 0⟩ (Nat.pos_of_ne_zero made)
  rw [absent] at found
  cases found

/-- A frame about a stream finds the server's object, and it finds the agent's unless
the OPEN was refused. -/
theorem Wired.lost_of_arriving (wired : p.Wired S) {x : Side} {f : Frame} {rest : List Frame}
    (arriving : p.wire x.other = f :: rest) (type : f.ftype ≠ .goaway) (notOpen : f.ftype ≠ .open_)
    (absent : (p.mux x).heap ⟨f.sid, 0⟩ = none) : p.lost f.sid := by
  have known := wired.known x.other f (by simp [arriving]) type
  cases x with
  | server => exact absurd (wired.unmade absent) (by omega)
  | agent =>
    refine ⟨known, ?_⟩
    by_contra some_open
    obtain ⟨tail, first⟩ := wired.order f.sid (Nat.pos_of_ne_zero some_open)
    rw [show p.wire .server = f :: rest from arriving] at first
    simp only [about, List.filter_cons, decide_true, if_true, List.cons.injEq] at first
    exact notOpen (congrArg Frame.ftype first.1)

/-- Arrivals are noted at the object a frame is for. -/
theorem arrived_of_ne {m : Mux} {ledger : Ref → Ledger} {f : Frame} {r : Ref}
    (other : f.ftype = .eof → m.registered f.sid = some r → ∀ s, m.heap r = some s →
      s.recv ≠ .open_) : arrived m ledger f r = ledger r := by
  unfold arrived
  split
  next noted =>
    obtain ⟨type, registered, accepting⟩ := noted
    obtain ⟨s, found, recv⟩ := (Option.any_eq_true _ _).mp accepting
    exact absurd (by simpa using recv) (other type registered s found)
  · rfl

/-- What the arrival of a frame does to an object that exists. -/
theorem receives_object (wired : p.Wired S) {x : Side} {env : Env} {f : Frame}
    {rest : List Frame} {h' : Host} (arriving : p.wire x.other = f :: rest)
    (arrival : ((p.mux x).host env).Arrival (some f) h') {sid : StreamId} {s : Stream}
    (found : (p.mux x).heap ⟨sid, 0⟩ = some s) :
    ∃ t, h'.mux.heap ⟨sid, 0⟩ = some t ∧
      Receives f sid s (p.ledger x ⟨sid, 0⟩) t (arrived (p.mux x) (p.ledger x) f ⟨sid, 0⟩) := by
  have acc := wired.accounted x
  have formed := wired.formed x.other f (by simp [arriving])
  have only : ∀ r : Ref, ∀ s', (p.mux x).heap r = some s' → r.sid = sid →
      r = ⟨sid, 0⟩ ∧ s' = s := by
    intro r s' there same
    have zero := (wired.known_of_heap there).1
    have here : r = ⟨sid, 0⟩ := by cases r; simp_all
    subst here
    exact ⟨rfl, Option.some.inj (there.symm.trans found)⟩
  -- the object survives; it is torn down at most, and the ledger is left alone
  have aside : ∀ t, Host.Shuts s t →
      (f.sid ≠ sid ∨ f.ftype = .open_ ∨ f.ftype = .reset ∨ f.ftype = .goaway) →
      Receives f sid s (p.ledger x ⟨sid, 0⟩) t (arrived (p.mux x) (p.ledger x) f ⟨sid, 0⟩) := by
    intro t shuts away
    have kept : arrived (p.mux x) (p.ledger x) f ⟨sid, 0⟩ = p.ledger x ⟨sid, 0⟩ := by
      apply arrived_of_ne
      intro type registered
      rcases away with other | open_ | reset | goaway
      · exact absurd (Mux.registered_eq_some.mp registered).1.symm other
      · rw [open_] at type; cases type
      · rw [reset] at type; cases type
      · rw [goaway] at type; cases type
    rw [kept]
    rcases shuts with rfl | ⟨-, terminal, past, rfl⟩
    · exact .other away
    · exact .shut away terminal past
  generalize carries : some f = g at arrival
  cases arrival with
  | ignored why =>
    obtain ⟨t, after, shuts⟩ := Host.shuts_ignoreFrame (h := (p.mux x).host env) found
    refine ⟨t, after, ?_⟩
    cases why with
    | malformed => cases carries
    | zeroSid f zero type => cases carries; exact absurd zero (formed.sid_ne_zero type)
    | openNotAccepted f type server => cases carries; exact aside t shuts (Or.inr (Or.inl type))
    | unknown f type absent =>
      cases carries
      by_cases same : f.sid = sid
      · -- an object that is not registered is closed, and stays as it is
        have dead : s.closed = true := by
          by_contra live
          have entry := acc.entry found (by simpa using live)
          have : (p.mux x).registered f.sid = some ⟨sid, 0⟩ :=
            Mux.registered_eq_some.mpr ⟨same.symm, by rw [same]; exact entry⟩
          rw [show ((p.mux x).host env).mux = p.mux x from rfl, this] at absent
          cases absent
        have still : t = s := by
          rcases shuts with rfl | ⟨live, -⟩
          · rfl
          · rw [dead] at live; cases live
        subst still
        have kept : arrived (p.mux x) (p.ledger x) f ⟨sid, 0⟩ = p.ledger x ⟨sid, 0⟩ := by
          apply arrived_of_ne
          intro _ registered
          rw [show (p.mux x).registered f.sid = none from absent] at registered
          cases registered
        rw [kept]
        exact .late same dead ((acc.tallied _ t found).dead dead).2.2
      · exact aside t shuts (Or.inl same)
    | zeroGrant f type unpacked =>
      cases carries
      simp only [Frame.WellFormed, type] at formed
      obtain ⟨-, delta, nonzero, payload⟩ := formed
      rw [payload, unpackU32_packU32_self] at unpacked
      exact absurd (Option.some.inj unpacked) nonzero
    | badGoaway f type bad => cases carries; exact aside t shuts (Or.inr (Or.inr (Or.inr type)))
    | duplicateGoaway f type twice =>
      cases carries; exact aside t shuts (Or.inr (Or.inr (Or.inr type)))
  | refused sid' payload nonzero responder why =>
    cases carries
    refine ⟨s, ?_, aside s (.refl s) (Or.inr (Or.inl rfl))⟩
    rw [Host.mux_updateMux, Host.heap_sendReset]
    exact found
  | accepted sid' nonzero responder steady new room =>
    cases carries
    refine ⟨s, ?_, aside s (.refl s) (Or.inr (Or.inl rfl))⟩
    have apart : (⟨sid, 0⟩ : Ref) ≠ ⟨sid', (p.mux x).made sid'⟩ := by
      intro same
      have fresh := (acc.fresh ⟨sid, 0⟩ s found).1
      simp only [Ref.mk.injEq] at same
      obtain ⟨rfl, zero⟩ := same
      exact absurd zero fresh.ne
    exact (Function.update_of_ne apart _ _).trans found
  | dropped r s' payload registered there why =>
    cases carries
    refine ⟨s, found, ?_⟩
    by_cases same : r.sid = sid
    · obtain ⟨rfl, rfl⟩ := only r s' there same
      rw [arrived_of_ne (by simp)]
      rcases why with past | empty
      · exact .dropped rfl (Or.inl rfl) past
      · exact absurd empty formed.2
    · exact aside s (.refl s) (Or.inl same)
  | overflow r s' payload registered there accepting some_data why refused =>
    cases carries
    by_cases same : r.sid = sid
    · obtain ⟨rfl, rfl⟩ := only r s' there same
      refine ⟨_, by simp [Mux.spawn]; rfl, ?_⟩
      rw [arrived_of_ne (by simp)]
      exact .overflow rfl rfl accepting
    · refine ⟨s, ?_, aside s (.refl s) (Or.inl same)⟩
      have apart : (⟨sid, 0⟩ : Ref) ≠ r := by rintro rfl; exact same rfl
      exact (Mux.heap_setStream_ne _ _ apart).trans found
  | fed r s' payload registered there accepting some_data h'' admitted =>
    cases carries
    obtain ⟨mux, account⟩ := h''
    have kept : mux = p.mux x := admitted.mux
    subst kept
    by_cases same : r.sid = sid
    · obtain ⟨rfl, rfl⟩ := only r s' there same
      refine ⟨_, Mux.heap_setStream_self _ _ _, ?_⟩
      rw [arrived_of_ne (by simp)]
      exact .fed rfl rfl accepting
    · refine ⟨s, ?_, aside s (.refl s) (Or.inl same)⟩
      have apart : (⟨sid, 0⟩ : Ref) ≠ r := by rintro rfl; exact same rfl
      exact (Mux.heap_setStream_ne _ _ apart).trans found
  | ended r s' registered there =>
    cases carries
    by_cases same : r.sid = sid
    · obtain ⟨rfl, rfl⟩ := only r s' there same
      refine ⟨_, Mux.heap_setStream_self _ _ _, ?_⟩
      by_cases accepting : s'.recv = .open_
      · have noted : arrived (p.mux x) (p.ledger x) ⟨.eof, sid, []⟩ ⟨sid, 0⟩ =
            { p.ledger x ⟨sid, 0⟩ with byEof := true } := by
          rw [arrived, if_pos]
          exact ⟨rfl, registered, by rw [found]; simpa using accepting⟩
        rw [noted]
        exact .ended rfl rfl accepting
      · have kept : arrived (p.mux x) (p.ledger x) ⟨.eof, sid, []⟩ ⟨sid, 0⟩ =
            p.ledger x ⟨sid, 0⟩ := by
          apply arrived_of_ne
          intro _ _ s'' there'
          cases (there.symm.trans there')
          exact accepting
        rw [kept]
        simp only [Stream.feedEof, Stream.endRecv, accepting, if_false]
        exact .dropped rfl (Or.inr rfl) accepting
    · refine ⟨s, ?_, aside s (.refl s) (Or.inl same)⟩
      have apart : (⟨sid, 0⟩ : Ref) ≠ r := by rintro rfl; exact same rfl
      exact (Mux.heap_setStream_ne _ _ apart).trans found
  | malformed f r same registered bad =>
    cases carries
    rcases bad with ⟨type, payload⟩ | ⟨type, length⟩
    · simp only [Frame.WellFormed, type] at formed
      exact absurd formed.2 payload
    · simp only [Frame.WellFormed, type] at formed
      obtain ⟨-, delta, -, packed⟩ := formed
      rw [packed] at length
      exact absurd (length_packU32 delta) length
  | granted r s' payload delta registered there four unpacked nonzero =>
    cases carries
    by_cases same : r.sid = sid
    · obtain ⟨rfl, rfl⟩ := only r s' there same
      refine ⟨_, Mux.heap_setStream_self _ _ _, ?_⟩
      rw [arrived_of_ne (by simp)]
      obtain ⟨-, delta', -, packed⟩ := formed
      have packed' : payload = packU32 delta' := packed
      have same : delta' = delta := by
        rw [packed', unpackU32_packU32_self] at unpacked
        exact Option.some.inj unpacked
      subst same
      obtain ⟨-, s'', there', live⟩ := acc.registered registered
      cases there.symm.trans there'
      exact .granted rfl rfl delta' packed' live
    · refine ⟨s, ?_, aside s (.refl s) (Or.inl same)⟩
      have apart : (⟨sid, 0⟩ : Ref) ≠ r := by rintro rfl; exact same rfl
      exact (Mux.heap_setStream_ne _ _ apart).trans found
  | aborted r payload registered =>
    cases carries
    obtain ⟨t, after, shuts⟩ := Host.shuts_closeLocal (h := ((p.mux x).host env).updateMux fun m =>
      { m with stats := { m.stats with resetPeer := m.stats.resetPeer + 1 } })
      (r := ⟨sid, 0⟩) found r .reset (by decide)
    exact ⟨t, after, aside t shuts (Or.inr (Or.inr (Or.inl rfl)))⟩
  | goaway first =>
    cases carries
    exact ⟨s, found, aside s (.refl s) (Or.inr (Or.inr (Or.inr rfl)))⟩

theorem stream_congr {p p' : Pair} {x : Side} {sid : StreamId}
    (heap : (p'.mux x).heap ⟨sid, 0⟩ = (p.mux x).heap ⟨sid, 0⟩) (lost : p'.lost sid ↔ p.lost sid) :
    p'.stream S x sid = p.stream S x sid := by
  simp only [stream, heap, lost]

/-- The server's end is new until the server opens the stream. -/
theorem Wired.stream_server (wired : p.Wired S) {sid : StreamId}
    (absent : (p.mux .server).heap ⟨sid, 0⟩ = none) :
    p.stream S .server sid = Stream.new (S.config .server) := by
  have unmade := wired.unmade absent
  simp [stream, absent, lost, unmade]

/-- What the arrival of a frame does to a stream of the side it arrives at. -/
theorem Wired.receives (wired : p.Wired S) {x : Side} {env : Env} {f : Frame} {rest : List Frame}
    {e : Effect} (arriving : p.wire x.other = f :: rest)
    (stepped : ((p.mux x).host env).step (.message (.binary f.message)) = some e) {p' : Pair}
    (mux : p'.mux = Function.update p.mux x e.host.mux)
    (wire : p'.wire = Function.update p.wire x.other rest) (wired' : p'.Wired S) (sid : StreamId) :
    Receives f sid (p.stream S x sid) (p.ledger x ⟨sid, 0⟩) (p'.stream S x sid)
      (arrived (p.mux x) (p.ledger x) f ⟨sid, 0⟩) := by
  have acc := wired.accounted x
  have arrival := (Host.step_message (h := (p.mux x).host env) acc stepped).2.1
  rw [Message.frame_message] at arrival
  have heap' : (p'.mux x).heap = e.host.mux.heap := by rw [mux, Function.update_self]
  cases before : (p.mux x).heap ⟨sid, 0⟩ with
  | some s =>
    obtain ⟨t, after, receives⟩ := receives_object wired arriving arrival before
    rw [stream_of_heap before, stream_of_heap (by rw [heap']; exact after)]
    exact receives
  | none =>
    have kept : arrived (p.mux x) (p.ledger x) f ⟨sid, 0⟩ = p.ledger x ⟨sid, 0⟩ := by
      apply arrived_of_ne
      intro _ _ s found
      rw [before] at found
      cases found
    rw [kept]
    have made : (p'.mux .server).made sid = (p.mux .server).made sid := by
      rw [mux]
      exact wired.server_made stepped sid
    have after := Host.step_absent (h := (p.mux x).host env) acc before stepped
    have config : Stream.new ((p.mux x).host env).mux.config = Stream.new (S.config x) := by
      rw [← wired.config x]
      rfl
    rw [config, ← heap'] at after
    cases x with
    | server =>
      have same : p'.stream S .server sid = Stream.new (S.config .server) := by
        rcases after with absent | ⟨created, -, -⟩
        · exact wired'.stream_server absent
        · exact stream_of_heap created
      rw [same, wired.stream_server before]
      refine .other ?_
      by_contra away
      simp only [not_or, not_not] at away
      have known := wired.known .agent f (by rw [show p.wire .agent = f :: rest from arriving]; simp)
        away.2.2.2
      rw [away.1, wired.unmade before] at known
      cases known
    | agent =>
      have all : p.wire .server = f :: rest := arriving
      have less : p'.wire .server = rest := by rw [wire]; rfl
      by_cases opening : f.ftype = .open_ ∧ f.sid = sid
      · obtain ⟨type, here⟩ := opening
        have counted : opensOf sid (p.wire .server) = opensOf sid rest + 1 := by
          simp [all, opensOf, type, here]
        have coming : ¬p.lost sid := by
          rintro ⟨-, none⟩
          omega
        rw [show p.stream S .agent sid = Stream.new (S.config .agent) by
          simp [stream, before, coming]]
        rcases after with absent | ⟨created, -, -⟩
        · have gone : p'.lost sid := by
            have known := wired.known .server f (by simp [all]) (by simp [type])
            have opens := wired.opens sid
            have once := wired.once sid
            rw [here] at known
            exact ⟨by omega, by rw [less]; omega⟩
          rw [show p'.stream S .agent sid = (Stream.new (S.config .agent)).shut .reset by
            simp [stream, absent, gone]]
          exact .shut (Or.inr (Or.inl type)) .reset (by decide)
        · rw [stream_of_heap created]
          exact .other (Or.inr (Or.inl type))
      · have absent : (p'.mux .agent).heap ⟨sid, 0⟩ = none := by
          rcases after with absent | ⟨-, -, opens⟩
          · exact absent
          · exfalso
            cases opens with
            | peer msg carries =>
              rw [Message.frame_message] at carries
              cases carries
              exact opening ⟨rfl, rfl⟩
        have same : p'.stream S .agent sid = p.stream S .agent sid := by
          apply stream_congr
          · rw [absent, before]
          · have counted : opensOf sid (p.wire .server) = opensOf sid rest := by
              rw [all, opensOf, opensOf, List.countP_cons_of_neg]
              simpa using opening
            rw [lost, lost, made, less, counted]
        rw [same]
        by_cases away : f.sid ≠ sid ∨ f.ftype = .open_ ∨ f.ftype = .reset ∨ f.ftype = .goaway
        · exact .other away
        · simp only [not_or, not_not] at away
          obtain ⟨here, notOpen, -, notGoaway⟩ := away
          subst here
          have gone := wired.lost_of_arriving arriving notGoaway notOpen before
          have view : p.stream S .agent f.sid = (Stream.new (S.config .agent)).shut .reset := by
            simp [stream, before, gone]
          exact .late rfl (by simp [view]) (by simp [view, Stream.recv_shut, Stream.new])

/-- An arrival does not touch the other end of a stream. -/
theorem Wired.stream_other (wired : p.Wired S) {x : Side} {env : Env} {f : Frame}
    {rest : List Frame} {e : Effect}
    (stepped : ((p.mux x).host env).step (.message (.binary f.message)) = some e) {p' : Pair}
    (mux : p'.mux = Function.update p.mux x e.host.mux)
    (wire : p'.wire = Function.update p.wire x.other rest) (wired' : p'.Wired S) (sid : StreamId) :
    p'.stream S x.other sid = p.stream S x.other sid := by
  have heap : (p'.mux x.other).heap = (p.mux x.other).heap := by simp [mux]
  cases x with
  | agent =>
    cases before : (p.mux .server).heap ⟨sid, 0⟩ with
    | some s =>
      exact (stream_of_heap ((congrFun heap _).trans before)).trans (stream_of_heap before).symm
    | none =>
      exact (wired'.stream_server ((congrFun heap _).trans before)).trans
        (wired.stream_server before).symm
  | server =>
    apply stream_congr (congrFun heap _)
    have made : (p'.mux .server).made sid = (p.mux .server).made sid := by
      rw [mux]
      exact wired.server_made stepped sid
    have same : p'.wire .server = p.wire .server := by rw [wire]; rfl
    rw [lost, lost, made, same]

/-! ### Local steps -/

/-- Every frame the step hands to the connection gets onto it. -/
def Action.lossless : Action → Bool
  | .act _ _ a => a.lossless
  | .deliver _ _ => true

/-- A step that acknowledges data acknowledges a chunk that was read, for the first time. -/
def Honest (p : Pair) : Action → Prop
  | .act x _ (.ack r n _) => n ∈ (p.ledger x r).pending
  | _ => True

instance (p : Pair) (a : Action) : Decidable (p.Honest a) := by
  unfold Honest
  split <;> infer_instance

/-- Frames about a stream are sent by a call on its object. -/
theorem Wired.silent (wired : p.Wired S) {x : Side} {env : Env} {a : Chute.Action} {e : Effect}
    (stepped : ((p.mux x).host env).step a = some e) {sid : StreamId}
    (other : ∀ s, (p.mux x).heap ⟨sid, 0⟩ = some s → a.target ≠ some ⟨sid, 0⟩) :
    packets sid e.out = [] ∧ credits sid e.out = [] := by
  have away : ∀ f ∈ e.out, f.sid = sid →
      f.ftype ≠ .data ∧ f.ftype ≠ .eof ∧ f.ftype ≠ .windowUpdate := by
    intro f member here
    have apart : ∀ (r : Ref) s, a.target = some r → (p.mux x).heap r = some s → r.sid ≠ sid := by
      intro r s target found same
      have zero := (wired.known_of_heap found).1
      have here : r = ⟨sid, 0⟩ := by cases r; simp_all
      subst here
      exact other s found target
    cases Host.step_out (h := (p.mux x).host env) (wired.accounted x) stepped member with
    | data r s target found chunk some_data => exact absurd here (apart r s target found)
    | eof r s target found => exact absurd here (apart r s target found)
    | windowUpdate r s target found delta nonzero => exact absurd here (apart r s target found)
    | _ => simp
  constructor
  · apply List.filterMap_eq_nil_iff.mpr
    intro f member
    split
    next here =>
      obtain ⟨notData, notEof, -⟩ := away f member here
      split <;> simp_all
    · rfl
  · apply List.filterMap_eq_nil_iff.mpr
    intro f member
    split
    next here =>
      obtain ⟨-, -, notGrant⟩ := away f member here
      split <;> simp_all
    · rfl

section

variable {mode : Lane.Mode} {x : Side} {env : Env} {a : Chute.Action} {e : Effect} {p' : Pair}
  {t : Stream} {k : Ledger} {link : List (Lane.Packet UInt8)} {back : List Nat}

/-- A local step at a side that has no object for the stream. -/
theorem Wired.act_absent (wired : p.Wired S) (wired' : p'.Wired S)
    (stepped : ((p.mux x).host env).step a = some e) (notMessage : a.isMessage = false)
    (mux : p'.mux = Function.update p.mux x e.host.mux)
    (wire : p'.wire = Function.update p.wire x (p.wire x ++ e.out)) {sid : StreamId}
    (absent : (p.mux x).heap ⟨sid, 0⟩ = none) : p'.stream S x sid = p.stream S x sid := by
  have acc := wired.accounted x
  have after := Host.step_absent (h := (p.mux x).host env) acc absent stepped
  have heap' : (p'.mux x).heap = e.host.mux.heap := by rw [mux, Function.update_self]
  have config : Stream.new ((p.mux x).host env).mux.config = Stream.new (S.config x) := by
    rw [← wired.config x]
    rfl
  rw [config, ← heap'] at after
  cases x with
  | server =>
    rw [wired.stream_server absent]
    rcases after with none | ⟨created, -, -⟩
    · exact wired'.stream_server none
    · exact stream_of_heap created
  | agent =>
    apply stream_congr
    · rcases after with none | ⟨-, -, opens⟩
      · rw [none, absent]
      · exfalso
        cases opens with
        | local_ sent id =>
          have initiator := (Host.step_openStream stepped).1
          rw [show ((p.mux .agent).host env).mux = p.mux .agent from rfl, wired.config] at initiator
          cases initiator
        | peer msg carries => cases notMessage
    · have made : (p'.mux .server).made sid = (p.mux .server).made sid := by rw [mux]; rfl
      have same : p'.wire .server = p.wire .server := by rw [wire]; rfl
      rw [lost, lost, made, same]

/-- A local step is taken by the lanes away from the side. -/
theorem Wired.act_sender (wired : p.Wired S) (wired' : p'.Wired S)
    (stepped : ((p.mux x).host env).step a = some e) (notMessage : a.isMessage = false)
    (mux : p'.mux = Function.update p.mux x e.host.mux)
    (wire : p'.wire = Function.update p.wire x (p.wire x ++ e.out)) (sid : StreamId)
    (lossless : mode.lossless = true → a.lossless = true) :
    Relation.ReflTransGen (Lane.Step S.lane mode)
      (laneView (p.stream S x sid) t (p.ledger x ⟨sid, 0⟩) k (packets sid (p.wire x)) back)
      (laneView (p'.stream S x sid) t (noted (p.mux x) (p.ledger x) a e.result ⟨sid, 0⟩) k
        (packets sid (p.wire x ++ e.out)) back) := by
  rw [packets_append]
  cases before : (p.mux x).heap ⟨sid, 0⟩ with
  | none =>
    have quiet : packets sid e.out = [] := (wired.silent stepped (by simp [before])).1
    rw [wired.act_absent wired' stepped notMessage mux wire before, quiet, List.append_nil]
    simp only [noted, before]
    exact .refl
  | some s =>
    obtain ⟨s', after, touch⟩ := Host.step_touch (h := (p.mux x).host env) (wired.accounted x) before
      stepped
    rw [stream_of_heap before, stream_of_heap (s := s') (by rw [mux, Function.update_self]; exact after)]
    simp only [noted, before]
    exact lane_sender touch notMessage lossless
      (fun other => (wired.silent stepped (fun _ _ => other)).1)

/-- A local step is taken by the lanes towards the side. -/
theorem Wired.act_receiver (wired : p.Wired S) (wired' : p'.Wired S)
    (closed : (p.mux x).Sealed) (stepped : ((p.mux x).host env).step a = some e)
    (notMessage : a.isMessage = false) (mux : p'.mux = Function.update p.mux x e.host.mux)
    (wire : p'.wire = Function.update p.wire x (p.wire x ++ e.out)) (sid : StreamId)
    (lossless : mode.lossless = true → a.lossless = true)
    (honest : mode.honest = true → p.Honest (.act x env a))
    (bound : mode.honest = true → (p.stream S x sid).unacked + (p.ledger x ⟨sid, 0⟩).pending.sum < 2 ^ 32) :
    Relation.ReflTransGen (Lane.Step S.lane mode)
      (laneView t (p.stream S x sid) k (p.ledger x ⟨sid, 0⟩) link (credits sid (p.wire x)))
      (laneView t (p'.stream S x sid) k (noted (p.mux x) (p.ledger x) a e.result ⟨sid, 0⟩) link
        (credits sid (p.wire x ++ e.out))) := by
  rw [credits_append]
  cases before : (p.mux x).heap ⟨sid, 0⟩ with
  | none =>
    have quiet : credits sid e.out = [] := (wired.silent stepped (by simp [before])).2
    rw [wired.act_absent wired' stepped notMessage mux wire before, quiet, List.append_nil]
    simp only [noted, before]
    exact .refl
  | some s =>
    obtain ⟨s', after, touch⟩ := Host.step_touch (h := (p.mux x).host env) (wired.accounted x) before
      stepped
    rw [stream_of_heap before] at bound ⊢
    rw [stream_of_heap (s := s') (by rw [mux, Function.update_self]; exact after)]
    simp only [noted, before]
    refine lane_receiver touch notMessage (closed _ s before) ?_ lossless ?_
      (fun other => (wired.silent stepped (fun _ _ => other)).2)
    · show (p.mux x).config.windowUpdateThreshold = S.lane.threshold
      rw [wired.config]
      rfl
    · rintro fair n sent rfl
      have member : n ∈ (p.ledger x ⟨sid, 0⟩).pending := honest fair
      have less := List.single_le_sum (by simp) n member
      have := bound fair
      exact ⟨member, by omega⟩

/-- A local step does not bring an OPEN back that has come to nothing. -/
theorem Wired.act_lost (wired : p.Wired S) (stepped : ((p.mux x).host env).step a = some e)
    (notMessage : a.isMessage = false) (mux : p'.mux = Function.update p.mux x e.host.mux)
    (wire : p'.wire = Function.update p.wire x (p.wire x ++ e.out)) {sid : StreamId}
    (lost : p.lost sid) : p'.lost sid := by
  cases x with
  | agent =>
    have made : (p'.mux .server).made sid = (p.mux .server).made sid := by rw [mux]; rfl
    have same : p'.wire .server = p.wire .server := by rw [wire]; rfl
    exact ⟨by rw [made]; exact lost.1, by rw [same]; exact lost.2⟩
  | server =>
    have made : (p'.mux .server).made = e.host.mux.made := by rw [mux]; rfl
    have more : p'.wire .server = p.wire .server ++ e.out := by rw [wire]; rfl
    obtain ⟨made_pos, none⟩ := lost
    have closed : (∀ sent, a ≠ .openStream sent) → opensOf sid e.out = 0 := by
      intro closed
      refine opensOf_eq_zero fun f member => ?_
      have emitted := Host.step_out (h := (p.mux .server).host env) (wired.accounted .server) stepped
        member
      exact (wired.emitted emitted closed).2.2
    have kept : e.host.mux.made sid = (p.mux .server).made sid → opensOf sid e.out = 0 →
        p'.lost sid := by
      intro same quiet
      exact ⟨by rw [made, same]; exact made_pos, by rw [more, opensOf_append, none, quiet]⟩
    cases here : a.isLocal with
    | true =>
      exact kept (congrFun (Host.step_local stepped here).made sid) (closed (by rintro sent rfl; cases here))
    | false =>
      cases a with
      | message msg => cases notMessage
      | connectionLost =>
        refine kept ?_ (closed (by simp))
        simp only [Host.step] at stepped
        split at stepped
        · cases stepped; exact congrFun Host.Kept.finish.2.1 sid
        · cases stepped
      | openStream sent =>
        rcases (Host.step_openStream stepped).2 with ⟨same, out⟩ | ⟨small, opened, out⟩
        · exact kept (by rw [same]; rfl) (by rw [out]; rfl)
        · have unmade := (wired.unheard small).1
          have apart : sid ≠ UInt32.ofNat (p.mux .server).nextId := by
            rintro rfl
            omega
          refine kept ?_ ?_
          · rw [opened]
            exact Function.update_of_ne apart _ _
          · rw [out]
            cases sent with
            | false => rfl
            | true =>
              have away : UInt32.ofNat ((p.mux .server).host env).mux.nextId ≠ sid := apart.symm
              simp [emit, opensOf, away]
      | _ => cases here

/-- A local step leaves the other end of a stream alone, unless it was the opening and
the OPEN got lost. -/
theorem Wired.act_other (wired : p.Wired S) (stepped : ((p.mux x).host env).step a = some e)
    (notMessage : a.isMessage = false) (mux : p'.mux = Function.update p.mux x e.host.mux)
    (wire : p'.wire = Function.update p.wire x (p.wire x ++ e.out)) (sid : StreamId) :
    p'.stream S x.other sid = p.stream S x.other sid ∨
      p'.stream S x.other sid = (p.stream S x.other sid).shut .reset := by
  have heap : (p'.mux x.other).heap = (p.mux x.other).heap := by simp [mux]
  cases before : (p.mux x.other).heap ⟨sid, 0⟩ with
  | some s =>
    exact Or.inl ((stream_of_heap ((congrFun heap _).trans before)).trans
      (stream_of_heap before).symm)
  | none =>
    by_cases was : p.lost sid
    · refine Or.inl (stream_congr (congrFun heap _) ?_)
      exact iff_of_true (wired.act_lost stepped notMessage mux wire was) was
    · have view : p.stream S x.other sid = Stream.new (S.config x.other) := by
        simp [stream, before, was]
      have view' : p'.stream S x.other sid = Stream.new (S.config x.other) ∨
          p'.stream S x.other sid = (Stream.new (S.config x.other)).shut .reset := by
        simp only [stream, (congrFun heap _).trans before]
        split
        · exact Or.inr rfl
        · exact Or.inl rfl
      rw [view]
      exact view'

end

/-! ### Runs -/

/-- The pair, with every direction of every stream a reachable lane. -/
structure Linked (S : Setup) (mode : Lane.Mode) (p : Pair) : Prop where
  wired : p.Wired S
  closed : ∀ x, (p.mux x).Sealed
  lanes : ∀ x sid, Lane.Reachable S.lane mode (p.lane S x sid)

theorem linked_new (S : Setup) (mode : Lane.Mode) : (new S).Linked S mode := by
  refine ⟨wired_new S, fun x r s found => (nomatch found), fun x sid => ?_⟩
  have fresh : (new S).lane S x sid = Lane.fresh S.lane := by
    simp [lane, laneView, stream, new, Mux.new, Stream.new, Lane.fresh, Setup.lane, Ledger.new,
      lost, packets, credits, Sender.view, Sender.doomed, Sender.asleep, Stream.chunks,
      RecvState.phase, Setup.window, Config.window, Setup.config]
  rw [fresh]
  exact .refl

section

variable {mode : Lane.Mode}

/-- In an honest lane, what the receiving end holds and returns fits the window. -/
theorem Linked.room (linked : p.Linked S mode) (fair : mode.honest = true) (x : Side) (sid : StreamId) :
    0 ≤ (p.stream S x sid).sendWindow ∧
      (p.stream S x sid).sendWindow + (credits sid (p.wire x.other)).sum +
        (p.stream S x.other sid).unacked + (p.ledger x.other ⟨sid, 0⟩).pending.sum +
        ((p.stream S x.other sid).chunks.map List.length).sum +
        ((packets sid (p.wire x)).map fun q => q.items.length).sum ≤ S.window := by
  have credit := Lane.credit_of_reachable fair (linked.lanes x sid)
  have nonneg := credit.nonneg
  have bound := credit.bound
  simp only [Lane.total, lane, laneView, Setup.lane] at nonneg bound
  refine ⟨nonneg, ?_⟩
  push_cast at bound ⊢
  omega

theorem window_le (S : Setup) : S.window ≤ 2 ^ 24 := S.flowWindow.le_max

/-- Every step of the pair is taken by its lanes. -/
theorem Linked.lane_step (linked : p.Linked S mode) {a : Action} {p' : Pair}
    (lossless : mode.lossless = true → a.lossless = true) (honest : mode.honest = true → p.Honest a)
    (moved : p.step a = some p') (y : Side) (sid : StreamId) :
    Relation.ReflTransGen (Lane.Step S.lane mode) (p.lane S y sid) (p'.lane S y sid) := by
  have wired := linked.wired
  have wired' := wired.step moved
  cases a with
  | deliver x env =>
    obtain ⟨f, rest, e, arriving, stepped, rfl⟩ := step_deliver moved
    have receives := wired.receives arriving stepped rfl rfl wired' sid
    have other := wired.stream_other stepped rfl rfl wired' sid
    by_cases towards : y = x.other
    · subst towards
      rw [lane, arriving, Side.other_other]
      refine receives.receiver.trans ?_
      simp [lane, other, Relation.ReflTransGen.refl]
    · have same : y = x := by cases x <;> cases y <;> simp_all [Side.other]
      subst same
      have paid : mode.honest = true → ∀ delta : UInt32, f.sid = sid → f.ftype = .windowUpdate →
          f.payload = packU32 delta →
          (p.stream S y sid).sendWindow + delta.toNat ≤ maxSendWindow := by
        intro fair delta here type payload
        obtain ⟨-, room⟩ := linked.room fair y sid
        have window := window_le S
        have head : credits sid (f :: rest) = delta.toNat :: credits sid rest := by
          simp [credits, here, type, payload]
        rw [arriving, head, List.sum_cons] at room
        simp only [maxSendWindow]
        omega
      rw [lane, arriving]
      refine (receives.sender paid).trans ?_
      simp [lane, other, Relation.ReflTransGen.refl]
  | act x env a =>
    obtain ⟨e, stepped, notMessage, after⟩ := step_act moved
    have mux : p'.mux = Function.update p.mux x e.host.mux := by rw [after]
    have wire : p'.wire = Function.update p.wire x (p.wire x ++ e.out) := by rw [after]
    have ledger : p'.ledger = Function.update p.ledger x (noted (p.mux x) (p.ledger x) a e.result) := by
      rw [after]
    have other := wired.act_other stepped notMessage mux wire sid
    by_cases away : y = x
    · subst away
      have taken : Relation.ReflTransGen (Lane.Step S.lane mode) (p.lane S y sid) _ :=
        wired.act_sender wired' stepped notMessage mux wire sid lossless
      refine taken.trans ?_
      rcases other with same | shut
      · simp [lane, same, wire, ledger, Relation.ReflTransGen.refl]
      · simpa [lane, shut, wire, ledger] using
          Relation.ReflTransGen.single (lane_shut_receiver (by decide))
    · have towards : y = x.other := by cases x <;> cases y <;> simp_all [Side.other]
      subst towards
      have bound : mode.honest = true → (p.stream S x sid).unacked +
          (p.ledger x ⟨sid, 0⟩).pending.sum < 2 ^ 32 := by
        intro fair
        obtain ⟨nonneg, room⟩ := linked.room fair x.other sid
        have window := window_le S
        rw [Side.other_other] at room
        omega
      rw [lane, Side.other_other]
      refine (wired.act_receiver wired' (linked.closed x) stepped notMessage mux wire sid lossless
        honest bound).trans ?_
      rcases other with same | shut
      · simp [lane, same, wire, ledger, Relation.ReflTransGen.refl]
      · simpa [lane, shut, wire, ledger] using Relation.ReflTransGen.single lane_shut_sender

theorem Linked.step (linked : p.Linked S mode) {a : Action} {p' : Pair}
    (lossless : mode.lossless = true → a.lossless = true) (honest : mode.honest = true → p.Honest a)
    (moved : p.step a = some p') : p'.Linked S mode := by
  refine ⟨linked.wired.step moved, ?_, fun y sid =>
    (linked.lanes y sid).trans (linked.lane_step lossless honest moved y sid)⟩
  have stepped : ∀ {x env b e}, ((p.mux x).host env).step b = some e → e.host.mux.Sealed :=
    fun {x} _ _ _ => Host.closed_step (linked.wired.accounted x) (linked.closed x)
  have updated : ∀ {x : Side} {m : Mux}, m.Sealed → ∀ y, (Function.update p.mux x m y).Sealed := by
    intro x m closed y
    by_cases same : y = x
    · subst same; simpa using closed
    · simpa [same] using linked.closed y
  cases a with
  | deliver x env =>
    obtain ⟨f, rest, e, -, here, rfl⟩ := step_deliver moved
    exact updated (stepped here)
  | act x env a =>
    obtain ⟨e, here, -, rfl⟩ := step_act moved
    exact updated (stepped here)

/-- Every run of the pair keeps all its lanes reachable. -/
theorem linked_of_run {as : List Action} (ran : Transition.run Pair.step (new S) as = some p) :
    p.Linked S ⟨false, false⟩ :=
  Transition.run_invariant' (fun _ _ _ held moved => Linked.step held (by simp) (by simp) moved)
    (linked_new S _) ran

/-- The lanes of a run with honest acknowledgements are honest. -/
theorem linked_of_honest {as : List Action} (honest : Transition.Along Pair.step Honest (new S) as)
    (ran : Transition.run Pair.step (new S) as = some p) : p.Linked S ⟨false, true⟩ :=
  Transition.run_invariant
    (fun _ _ _ held allowed moved => Linked.step held (by simp) (fun _ => allowed) moved)
    (linked_new S _) honest ran

/-- What conservation of credit rests on: nothing that is sent gets lost, and
acknowledgements are honest. -/
def Strict (p : Pair) (a : Action) : Prop := a.lossless = true ∧ p.Honest a

instance (p : Pair) (a : Action) : Decidable (p.Strict a) := inferInstanceAs (Decidable (_ ∧ _))

theorem linked_of_strict {as : List Action} (strictly : Transition.Along Pair.step Strict (new S) as)
    (ran : Transition.run Pair.step (new S) as = some p) : p.Linked S ⟨true, true⟩ :=
  Transition.run_invariant
    (fun _ _ _ held allowed moved => Linked.step held (fun _ => allowed.1) (fun _ => allowed.2) moved)
    (linked_new S _) strictly ran

end

end Pair

end Chute
