import Chute.Transit.Waiting

/-!
# No byte is stuck between the pumps

While the relay of a visitor and the handler of its stream pump, there is always something to do for
one of them until what has come from either socket is written to the other one: no pump waits for a
pump that waits for it.
-/
namespace Chute

open Transition

namespace Conduit

variable {S : Setup} {kept : Bool} {c c' : Conduit} {x : Side} {r : Ref} {o o' : Owner} {s t : Stream}

/-! ### Streams that were handed out -/

/-- Only `open` itself changes which of its calls are under way. -/
private theorem opening_of_step {p p' : Pair} (acc : ∀ x, (p.mux x).Accounted) {b : Pair.Action}
    (moved : p.step b = some p') (other : ∀ y env call, b = .act y env call → call.opens = false) (x : Side) :
    (p'.mux x).opening = (p.mux x).opening := by
  cases b with
  | act y env call =>
    obtain ⟨e, stepped, -, rfl⟩ := Pair.step_act moved
    by_cases same : x = y
    · subst same
      show (Function.update p.mux x e.host.mux x).opening = _
      rw [Function.update_self]
      exact Host.opens_step (h := (p.mux x).host env) (acc x) stepped (other _ _ _ rfl)
    · simp [same]
  | deliver y env =>
    obtain ⟨f, rest, e, -, stepped, rfl⟩ := Pair.step_deliver moved
    by_cases same : x = y
    · subst same
      show (Function.update p.mux x e.host.mux x).opening = _
      rw [Function.update_self]
      exact Host.opens_step (h := (p.mux x).host env) (acc x) stepped rfl
    · simp [same]

private theorem opening_of_perform {p p' : Pair} {y : Side} {env : Env} {call : Option Chute.Action} {res : Result}
    (acc : ∀ x, (p.mux x).Accounted) (performed : perform p y env call = some (p', res))
    (other : ∀ c, call = some c → c.opens = false) (x : Side) : (p'.mux x).opening = (p.mux x).opening := by
  rcases Pair.step_of_perform performed with ⟨-, rfl⟩ | ⟨b, rfl, moved⟩
  · rfl
  · apply opening_of_step acc moved
    rintro y' env' call ⟨⟩
    exact other b rfl

/-- The tasks have the pumps that they wait for, and `open` has handed out the streams that it is
not busy with. -/
structure Poised (c : Conduit) : Prop where
  relays : ∀ v ∈ c.visits, v.2.Sane
  handlers : ∀ h ∈ c.handlers, h.2.Sane
  opening : ∀ e ∈ (c.pair.mux .server).opening, ∃ (k : Nat) (v : Ref × Relay),
    c.visits[k]? = some v ∧ v.1 = e.1 ∧ v.2.phase = .opening
  once : ((c.pair.mux .server).opening.map Prod.fst).Nodup
  agent : (c.pair.mux .agent).opening = []

theorem poised_start (S : Setup) : (start S).Poised where
  relays v member := by cases member
  handlers h member := by cases member
  opening e member := by cases member
  once := List.nodup_nil
  agent := rfl

/-- A step that is no part of a call of `open`, and no turn of a visitor's relay. -/
private theorem Poised.keep (poised : c.Poised) {p : Pair} {handlers : List (Ref × Handler)}
    (same : ∀ x, (p.mux x).opening = (c.pair.mux x).opening) (sane : ∀ h ∈ handlers, h.2.Sane) :
    { c with pair := p, handlers := handlers }.Poised where
  relays := poised.relays
  handlers := sane
  opening e member := by
    rw [same] at member
    exact poised.opening e member
  once := by
    rw [same]
    exact poised.once
  agent := by
    rw [same]
    exact poised.agent

/-- A turn of a visitor's relay. -/
private theorem Poised.relay (sound : c.Sound S kept) (poised : c.Poised) {k : Nat} {v : Ref × Relay}
    (visit : c.visits[k]? = some v) {env : Env} {a : Relay.Action} {u : Turn Relay}
    (took : v.2.turn (c.pair.mux .server) v.1 a = some u) {p : Pair} {res : Result}
    (performed : perform c.pair .server env u.call = some (p, res)) :
    { c with pair := p, visits := c.visits.set k (v.1, u.next res) }.Poised := by
  have acc := sound.linked.wired.accounted
  have formed := (sound.visits.each k v visit).1
  -- the relay that has its turn keeps its invariant, and the others are as they were
  have sane := Relay.sane_of_turn (poised.relays v (List.mem_of_getElem? visit)) took res
  have relays : ∀ w ∈ c.visits.set k (v.1, u.next res), w.2.Sane := by
    intro w member
    rcases List.mem_or_eq_of_mem_set member with before | rfl
    · exact poised.relays w before
    · exact sane
  rcases Relay.opens_of_turn formed took with ⟨phase, calls⟩ | ⟨other, phase⟩
  · -- the call of `open` is over, and no other one is about this stream
    obtain ⟨call, called, ends⟩ : ∃ call, u.call = some call ∧ (call = .openReturn v.1 ∨ call = .openRaise v.1) := by
      rcases calls with called | called
      · exact ⟨_, called, .inl rfl⟩
      · exact ⟨_, called, .inr rfl⟩
    rw [called] at performed
    rcases Pair.step_of_perform performed with ⟨none_, -⟩ | ⟨b, same, moved⟩
    · cases none_
    cases same
    obtain ⟨e, stepped, -, rfl⟩ := Pair.step_act moved
    obtain ⟨fewer, apart⟩ := Host.opens_close (h := (c.pair.mux .server).host env) stepped ends poised.once
    refine ⟨relays, poised.handlers, fun entry member => ?_, ?_, ?_⟩
    · simp only [Function.update_self] at member
      obtain ⟨j, w, there, ref, opening⟩ := poised.opening entry (fewer.subset member)
      have here : j ≠ k := by
        rintro rfl
        cases there.symm.trans visit
        exact apart entry member ref.symm
      exact ⟨j, w, by rw [List.getElem?_set_ne (Ne.symm here)]; exact there, ref, opening⟩
    · simp only [Function.update_self]
      exact poised.once.sublist (fewer.map _)
    · simpa using poised.agent
  · -- the calls of `open` are the same, and a relay in one of them is still there
    have same := opening_of_perform acc performed other
    refine ⟨relays, poised.handlers, fun e member => ?_, ?_, ?_⟩
    · rw [same] at member
      obtain ⟨j, w, there, ref, opening⟩ := poised.opening e member
      by_cases here : j = k
      · subst here
        cases there.symm.trans visit
        refine ⟨j, _, List.getElem?_set_self (List.getElem?_eq_some_iff.mp visit).1, ref, phase opening res⟩
      · exact ⟨j, w, by rw [List.getElem?_set_ne (Ne.symm here)]; exact there, ref, opening⟩
    · rw [same]
      exact poised.once
    · rw [same]
      exact poised.agent

/-- A turn of the handler of a stream. -/
private theorem Poised.handle (sound : c.Sound S kept) (poised : c.Poised) {k : Nat} {h : Ref × Handler}
    (handles : c.handlers[k]? = some h) {env : Env} {a : Handler.Action} {u : Turn Handler}
    (took : h.2.turn (c.pair.mux .agent) h.1 a = some u) {p : Pair} {res : Result}
    (performed : perform c.pair .agent env u.call = some (p, res)) :
    { c with pair := p, handlers := c.handlers.set k (h.1, u.next res) }.Poised := by
  have same := opening_of_perform sound.linked.wired.accounted performed
    fun call calls => Handler.opens_of_turn took calls
  have sane := Handler.sane_of_turn (poised.handlers h (List.mem_of_getElem? handles)) took res
  apply poised.keep same
  intro w member
  rcases List.mem_or_eq_of_mem_set member with before | rfl
  · exact poised.handlers w before
  · exact sane

/-- A visitor's handler calls `mux.open`, which has an id for its stream, or none. -/
private theorem Poised.visit (sound' : c'.Sound S kept) (poised : c.Poised) {env : Env} {initial : Bytes}
    {canWriteEof watched sent : Bool} (moved : c.step (.visit env initial canWriteEof watched sent) = some c') :
    c'.Poised := by
  obtain ⟨⟨p, res⟩, performed, rfl⟩ := Option.map_eq_some_iff.mp moved
  obtain ⟨e, stepped, rest⟩ := Option.bind_eq_some_iff.mp performed
  obtain ⟨q, acted, same⟩ := Option.map_eq_some_iff.mp rest
  cases same
  obtain ⟨e', stepped', -, rfl⟩ := Pair.step_act acted
  cases stepped.symm.trans stepped'
  have agent : (Function.update c.pair.mux .server e.host.mux .agent).opening = [] := by simpa using poised.agent
  have apart := sound'.visits.apart
  rcases Host.opens_openStream stepped with ⟨raised, unchanged⟩ | ⟨suspended, opens⟩
  · -- there is no room for another stream
    rw [raised] at apart ⊢
    simp only [reduceCtorEq, if_false, List.append_nil] at apart ⊢
    refine ⟨poised.relays, poised.handlers, fun entry member => ?_, ?_, agent⟩
    · simp only [Function.update_self, unchanged] at member
      exact poised.opening entry member
    · simp only [Function.update_self, unchanged]
      exact poised.once
  · rw [suspended] at apart ⊢
    simp only [if_true] at apart ⊢
    rw [List.map_append, List.nodup_append] at apart
    refine ⟨fun v member => ?_, poised.handlers, fun entry member => ?_, ?_, agent⟩
    · rcases List.mem_append.mp member with before | new
      · exact poised.relays v before
      · rw [List.mem_singleton.mp new]
        exact Relay.sane_new initial canWriteEof watched
    · simp only [Function.update_self, opens] at member
      rcases List.mem_append.mp member with before | new
      · obtain ⟨j, w, there, ref, opening⟩ := poised.opening entry before
        exact ⟨j, w, by rw [List.getElem?_append_left (List.getElem?_eq_some_iff.mp there).1]; exact there, ref, opening⟩
      · refine ⟨c.visits.length, _, List.getElem?_concat_length, ?_, rfl⟩
        rw [List.mem_singleton.mp new]
        rfl
    · simp only [Function.update_self, opens]
      rw [List.map_append, List.nodup_append]
      refine ⟨poised.once, List.nodup_singleton _, ?_⟩
      -- the id is none of those that are being opened
      rintro ref inside other new rfl
      obtain ⟨entry, member, rfl⟩ := List.mem_map.mp inside
      obtain ⟨j, w, there, ref, -⟩ := poised.opening entry member
      have known : w.1 ∈ c.visits.map Prod.fst := List.mem_map_of_mem (List.mem_of_getElem? there)
      exact apart.2.2 w.1 known entry.1 new ref

theorem Poised.step (sound : c.Sound S false) (poised : c.Poised) {a : Action} (moved : c.step a = some c') :
    c'.Poised := by
  have acc := sound.linked.wired.accounted
  have sound' : c'.Sound S false := Sound.step sound (by simp) moved
  cases a with
  | net y env b =>
    simp only [Conduit.step] at moved
    split at moved
    next alone =>
      obtain ⟨p, stepped, rfl⟩ := Option.map_eq_some_iff.mp moved
      have same := opening_of_step acc stepped fun y' env' call equal => by
        cases equal
        cases b <;> simp_all [Traffic.unattended, Chute.Action.opens]
      exact poised.keep same poised.handlers
    · cases moved
  | deliver y env =>
    obtain ⟨p, stepped, rfl⟩ := Option.map_eq_some_iff.mp moved
    have same := opening_of_step acc stepped fun y' env' call equal => by cases equal
    apply poised.keep same
    intro h member
    rcases List.mem_append.mp member with before | new
    · exact poised.handlers h before
    · -- the handler of a stream that the agent has just accepted
      unfold spawned at new
      repeat' split at new
      all_goals simp only [List.not_mem_nil, List.mem_singleton] at new
      rw [new]
      exact Handler.sane_new
  | visit env initial canWriteEof watched sent => exact poised.visit sound' moved
  | relay k env b =>
    obtain ⟨v, visit, turns⟩ := Option.bind_eq_some_iff.mp moved
    obtain ⟨u, took, performs⟩ := Option.bind_eq_some_iff.mp turns
    obtain ⟨⟨p, res⟩, performed, rfl⟩ := Option.map_eq_some_iff.mp performs
    exact poised.relay sound visit took performed
  | handle k env b =>
    obtain ⟨h, handles, turns⟩ := Option.bind_eq_some_iff.mp moved
    obtain ⟨u, took, performs⟩ := Option.bind_eq_some_iff.mp turns
    obtain ⟨⟨p, res⟩, performed, rfl⟩ := Option.map_eq_some_iff.mp performs
    exact poised.handle sound handles took performed

theorem poised_of_run {as : List Action} (ran : run step (start S) as = some c) : c.Poised := by
  have kept : ∀ (c : Conduit) (a : Action) (c' : Conduit), (c.Sound S false ∧ c.Poised) →
      Conduit.step c a = some c' → (c'.Sound S false ∧ c'.Poised) := by
    rintro c a c' ⟨sound, poised⟩ moved
    exact ⟨Sound.step sound (by simp) moved, poised.step sound moved⟩
  exact (run_invariant' kept ⟨sound_start S false, poised_start S⟩ ran).2

/-! ### One direction -/

/-- Nothing is sent, on its way or queued: all that was passed to `send` was read. -/
private theorem taken_of_idle (sound : c.Sound S kept) (sender : (c.pair.mux x).heap r = some s)
    (receiver : (c.pair.mux x.other).heap r = some t) (accepting : t.recv = .open_) (empty : t.incoming = [])
    (still : about r.sid (c.pair.wire x) = []) (ok : (c.pair.ledger x r).failed = false)
    (silent : Sender.view s.sender = none ∧ Sender.doomed s.sender = false) :
    (c.pair.ledger x.other r).taken.flatten = (c.pair.ledger x r).passed.flatten := by
  have ref := sound.ref_eq sender
  rw [ref] at sender receiver ok ⊢
  have whole := (Lane.ordered_of_reachable (sound.linked.lanes x r.sid)).whole
  simp only [Pair.lane, laneView, Pair.stream_of_heap sender, Pair.stream_of_heap receiver, accepting,
    RecvState.phase, silent.1, silent.2, ok, Pair.packets_eq_nil still, Lane.got, Lane.air, Lane.rest, Stream.chunks,
    empty, forall_const] at whole
  simpa using whole

/-- While the pump of an open direction waits for data, everything that came is written. -/
private theorem Sound.settled_of_idle (sound : c.Sound S true) (diligent : c.Diligent)
    (owns : (r, o) ∈ c.owners x) (between : c.Between x r s t o') (feeds : o.reader.Waits o.socket s)
    (sane : ∀ how, o.reader = .done how → how = .returned) (idle : Idle o' t)
    (forth : about r.sid (c.pair.wire x) = []) (back : about r.sid (c.pair.wire x.other) = [])
    (going : o'.socket.ended = none) : o'.socket.written = o.lead ++ o.socket.arrived := by
  obtain ⟨s', sender, fine⟩ := sound.fine owns
  obtain ⟨t', receiver, fine'⟩ := sound.fine between.owner
  cases sender.symm.trans between.sender
  cases receiver.symm.trans between.receiver
  have locked := Owner.locked fine (diligent x r o s owns sender).1
  -- the end of the direction would be in the queue
  have accepting : t.recv = .open_ := by
    by_contra past
    have ends := (diligent x.other r o' t between.owner receiver).1.hears (by rw [idle.reading]; rfl) past
    rw [idle.nothing] at ends
    cases ends
  -- the pump has nothing in hand
  have written : o'.socket.written = (c.pair.ledger x.other r).taken.flatten := by
    have wrote := fine'.going going
    rw [idle.reading] at wrote
    simpa [WriterPump.held] using wrote
  have fed := fine.fed
  generalize reads : o.reader = feed at feeds fed locked
  cases feeds with
  | socket whole read open_ =>
    -- nothing is unread, so all that arrived was passed to `send`
    obtain ⟨ok, all⟩ := fed
    rw [written, taken_of_idle sound sender receiver accepting idle.nothing forth ok (locked.silent (by simp)), all,
      read, List.append_nil]
  | credit view busy dry =>
    -- credit is on its way, or the other pump has something to acknowledge
    rcases sound.awake between ⟨⟨view, busy⟩, dry⟩ idle with moving | moving
    · exact absurd forth moving
    · exact absurd back moving
  | done how =>
    -- the pump has sent everything, and the end of the direction after it
    cases sane how reads
    obtain ⟨ok, all, -⟩ := fed
    rw [written, taken_of_idle sound sender receiver accepting idle.nothing forth ok (locked.silent (by simp)), all]

/-- Both pumps of a direction wait, and nothing is on its way: everything that came is written. -/
theorem Sound.settled (sound : c.Sound S true) (diligent : c.Diligent) (truthful : c.Truthful false)
    (owns : (r, o) ∈ c.owners x) (between : c.Between x r s t o') (feeds : o.reader.Waits o.socket s)
    (sane : ∀ how, o.reader = .done how → how = .returned) (drains : o'.writer.Waits t)
    (uncut : ¬(o.cuts = true ∧ ∃ dropped, o.writer = .done .returned dropped)) (here : o'.left = false)
    (unbroken : o'.writer.broke = false)
    (forth : about r.sid (c.pair.wire x) = []) (back : about r.sid (c.pair.wire x.other) = [])
    (going : o'.socket.ended = none ∨ o'.socket.ended = some .fin) :
    o'.socket.written = o.lead ++ o.socket.arrived := by
  rcases going with going | fin
  · generalize writes : o'.writer = drain at drains
    cases drains with
    | data empty => exact sound.settled_of_idle diligent owns between feeds sane ⟨writes, empty⟩ forth back going
    | done how dropped =>
      -- a pump that has come to the end has ended its socket
      obtain ⟨-, through⟩ := diligent x.other r o' t between.owner between.receiver
      cases how with
      | returned => exact absurd going (through dropped writes)
      | raised | cancelled =>
        rw [writes] at unbroken
        cases unbroken
  · -- a socket that ended cleanly has all
    rcases truthful.whole sound owns between.owner (.inr here) fin with ⟨written, -⟩ | cut
    · exact written
    · exact absurd cut uncut

/-! ### Both directions -/

/-- This end has not given the stream up, and nothing about it is on its way from here. -/
def quiet (c : Conduit) (r : Ref) (x : Side) : Bool :=
  ((c.pair.mux x).heap r).all (fun s => !s.closed && s.recv != .reset) && (about r.sid (c.pair.wire x)).isEmpty

/-- The relay of a visitor and the handler of its stream pump, and nothing is on its way. -/
structure Pumping (c : Conduit) (k j : Nat) (v : Ref × Relay) (h : Ref × Handler) : Prop where
  visit : c.visits[k]? = some v
  handles : c.handlers[j]? = some h
  same : h.1 = v.1
  relay : v.2.phase = .waiting ∨ v.2.phase = .halfClosed
  handler : h.2.phase = .pumping
  quiet : ∀ x, c.quiet v.1 x = true

/-- Neither of the two tasks nor one of their pumps can go on by itself. -/
def rests (c : Conduit) (env : Env) (k j : Nat) : Bool :=
  Relay.onward.all (fun a => (c.step (.relay k env a)).isNone) &&
    Handler.onward.all fun a => (c.step (.handle j env a)).isNone

/-- What has come from either socket is written to the other one, which nobody broke off. -/
structure Carried (v : Relay) (app : Socket) : Prop where
  request : app.ended = none ∨ app.ended = some .fin → app.written = v.initial ++ v.socket.arrived
  response : v.socket.ended = none ∨ v.socket.ended = some .fin → v.socket.written = app.arrived

private theorem stuck_of_perform {p : Pair} {env : Env} {call : Option Chute.Action}
    (local_ : ∀ c, call = some c → c.target = some r) (blocked : perform p x env call = none) :
    ((p.mux x).host env).Stuck call := by
  cases called : call with
  | none =>
    rw [called] at blocked
    cases blocked
  | some c =>
    refine ⟨c, rfl, ?_⟩
    have plain : c.isMessage = false := by
      have target := local_ c called
      cases c <;> simp_all [Chute.Action.target, Chute.Action.isMessage]
    cases stepped : ((p.mux x).host env).step c with
    | none => rfl
    | some e =>
      rw [called] at blocked
      simp [perform, Pair.step, plain, stepped] at blocked

section

variable {env : Env} {k j : Nat} {v : Ref × Relay} {h : Ref × Handler}

/-- The stream of a pump was handed out. -/
private theorem Poised.held (sound : c.Sound S kept) (poised : c.Poised) (visits : v ∈ c.visits)
    (later : v.2.phase ≠ .opening) (found : (c.pair.mux .server).heap v.1 = some s) :
    (c.pair.mux .server).held v.1 = some s := by
  have handed : (c.pair.mux .server).opening.any (fun e => e.1 == v.1) = false := by
    rw [List.any_eq_false]
    intro e member same
    obtain ⟨i, w, there, ref, opening⟩ := poised.opening e member
    have one := List.inj_on_of_nodup_map sound.visits.apart (List.mem_of_getElem? there) visits
      (ref.trans (by simpa using same))
    exact later (one ▸ opening)
  rw [Mux.held, handed, if_neg (by simp), found]

private theorem relay_stuck (visit : c.visits[k]? = some v)
    (blocked : ∀ a ∈ Relay.onward, (c.step (.relay k env a)).isNone = true) {a : Relay.Action}
    (member : a ∈ Relay.onward) {u : Turn Relay} (took : v.2.turn (c.pair.mux .server) v.1 a = some u)
    (own : ∀ call, u.call = some call → call.target = some v.1) : ((c.pair.mux .server).host env).Stuck u.call := by
  have none_ := blocked a member
  simp only [Conduit.step, visit, Option.bind_some, took, Option.isNone_iff_eq_none,
    Option.map_eq_none_iff] at none_
  exact stuck_of_perform own none_

private theorem handler_stuck (handles : c.handlers[j]? = some h)
    (blocked : ∀ a ∈ Handler.onward, (c.step (.handle j env a)).isNone = true) {a : Handler.Action}
    (member : a ∈ Handler.onward) {u : Turn Handler} (took : h.2.turn (c.pair.mux .agent) h.1 a = some u)
    (own : ∀ call, u.call = some call → call.target = some h.1) : ((c.pair.mux .agent).host env).Stuck u.call := by
  have none_ := blocked a member
  simp only [Conduit.step, handles, Option.bind_some, took, Option.isNone_iff_eq_none,
    Option.map_eq_none_iff] at none_
  exact stuck_of_perform own none_

/-- What the relay of a visitor waits for. -/
private theorem relay_waits (visit : c.visits[k]? = some v) (sane : v.2.Sane)
    (waits : v.2.phase = .waiting ∨ v.2.phase = .halfClosed) (held : (c.pair.mux .server).held v.1 = some s)
    (locked : s.Locked v.2.owner.reader v.2.owner.ending)
    (blocked : ∀ a ∈ Relay.onward, (c.step (.relay k env a)).isNone = true) :
    v.2.owner.reader.Waits v.2.owner.socket s ∧ v.2.owner.writer.Waits s ∧ v.2.owner.writer.isDone = false ∧
      ∀ how, v.2.owner.reader = .done how → how = .returned := by
  have still : v.2.wake = none := by
    by_contra going
    obtain ⟨q, woke⟩ := Option.ne_none_iff_exists'.mp going
    exact Host.not_stuck_none (relay_stuck visit blocked (a := .wake) (by simp [Relay.onward])
      (u := .quiet q) (by simp [Relay.turn, woke]) (by simp [Turn.quiet]))
  obtain ⟨feed, drain, reader, writer, running, returned⟩ := Relay.running_of_wake sane waits still
  have reads : v.2.owner.reader = feed := by simp [Relay.owner, Relay.feeder, reader]
  have writes : v.2.owner.writer = drain := by simp [Relay.owner, writer]
  have free : v.2.owner.ending = false := by
    rcases waits with phase | phase
    · simp [Relay.owner, phase]
    · simp [Relay.owner, phase]
  rw [reads, free] at locked
  rw [reads, writes]
  refine ⟨?_, ?_, running, returned⟩
  · apply ReaderPump.waits_of_stuck (h := (c.pair.mux .server).host env) held locked
    intro a onward t took
    obtain ⟨member, u, took', same⟩ := Relay.reader_onward reader onward took
    rw [← same]
    exact relay_stuck visit blocked member took' fun call calls => (ReaderPump.turn_target took (same ▸ calls)).1
  · apply WriterPump.waits_of_stuck (h := (c.pair.mux .server).host env) held
    intro a onward t took
    obtain ⟨member, u, took', same⟩ := Relay.writer_onward writer onward took
    rw [← same]
    exact relay_stuck visit blocked member took' fun call calls => WriterPump.turn_target took (same ▸ calls)

/-- What the handler of a stream waits for. -/
private theorem handler_waits (handles : c.handlers[j]? = some h) (sane : h.2.Sane) (pumping : h.2.phase = .pumping)
    (held : (c.pair.mux .agent).held h.1 = some s) (locked : s.Locked h.2.owner.reader h.2.owner.ending)
    (blocked : ∀ a ∈ Handler.onward, (c.step (.handle j env a)).isNone = true) :
    h.2.socket = some h.2.owner.socket ∧ h.2.owner.reader.Waits h.2.owner.socket s ∧ h.2.owner.writer.Waits s ∧
      h.2.owner.writer.broke = false ∧ ∀ how, h.2.owner.reader = .done how → how = .returned := by
  have still : h.2.wake = none := by
    by_contra going
    obtain ⟨q, woke⟩ := Option.ne_none_iff_exists'.mp going
    exact Host.not_stuck_none (handler_stuck handles blocked (a := .wake) (by simp [Handler.onward])
      (u := .quiet q) (by simp [Handler.turn, woke]) (by simp [Turn.quiet]))
  obtain ⟨app, feed, drain, connected, reader, writer, whole, returned⟩ := Handler.running_of_wake sane pumping still
  have reads : h.2.owner.reader = feed := by simp [Handler.owner, reader]
  have writes : h.2.owner.writer = drain := by simp [Handler.owner, writer]
  have socket : h.2.owner.socket = app := by simp [Handler.owner, connected]
  rw [reads, show h.2.owner.ending = false from rfl] at locked
  rw [reads, writes, socket]
  refine ⟨connected, ?_, ?_, whole, returned⟩
  · apply ReaderPump.waits_of_stuck (h := (c.pair.mux .agent).host env) held locked
    intro a onward t took
    obtain ⟨member, u, took', same⟩ := Handler.reader_onward connected reader onward took
    rw [← same]
    exact handler_stuck handles blocked member took' fun call calls => (ReaderPump.turn_target took (same ▸ calls)).1
  · apply WriterPump.waits_of_stuck (h := (c.pair.mux .agent).host env) held
    intro a onward t took
    obtain ⟨member, u, took', same⟩ := Handler.writer_onward connected writer onward took
    rw [← same]
    exact handler_stuck handles blocked member took' fun call calls => WriterPump.turn_target took (same ▸ calls)

/-- **No byte is stuck.** In every run in which nothing that is sent gets lost, when a visitor's relay
and the handler of its stream pump and can do nothing more by themselves, with nothing on its way
between them, everything that has come from either socket is written to the other one. -/
theorem carried_of_rest {as : List Action} (all : Along step (fun c a => c.lossless a = true) (start S) as)
    (ran : run step (start S) as = some c) (pumping : c.Pumping k j v h) (still : c.rests env k j = true) :
    ∃ app, h.2.socket = some app ∧ Carried v.2 app := by
  have sound := sound_of_lossless all ran
  have diligent := diligent_of_lossless all ran
  have truthful : c.Truthful false := (truthful_of_run (along_of_forall (by simp) _) ran).2
  have poised := poised_of_run ran
  obtain ⟨visit, handles, same, waits, group, quiet⟩ := pumping
  obtain ⟨live, empty⟩ : (∀ x s, (c.pair.mux x).heap v.1 = some s → s.closed = false ∧ s.recv ≠ .reset) ∧
      ∀ x, about v.1.sid (c.pair.wire x) = [] := by
    simp only [Conduit.quiet, Bool.and_eq_true, List.isEmpty_iff] at quiet
    refine ⟨fun x s found => ?_, fun x => (quiet x).2⟩
    have live := (quiet x).1
    rw [found] at live
    simpa using live
  have visits := List.mem_of_getElem? visit
  have handled := List.mem_of_getElem? handles
  simp only [rests, Bool.and_eq_true, List.all_eq_true] at still
  have owns : (v.1, v.2.owner) ∈ c.owners .server := List.mem_map.mpr ⟨v, visits, rfl⟩
  have owns' : (v.1, h.2.owner) ∈ c.owners .agent := List.mem_map.mpr ⟨h, handled, by rw [same]⟩
  obtain ⟨s, found, fine⟩ := sound.fine owns
  obtain ⟨t, found', fine'⟩ := sound.fine owns'
  have open_ : v.2.phase ≠ .opening ∧ v.2.owner.left = false := by
    rcases waits with phase | phase
    · simp [Relay.owner, phase, RelayPhase.gone]
    · simp [Relay.owner, phase, RelayPhase.gone]
  have open' : h.2.owner.left = false := by simp [Handler.owner, group]
  have held' : (c.pair.mux .agent).held h.1 = some t := by
    rw [Mux.held, poised.agent, same]
    exact found'
  -- no pump has failed, and each waits for its socket or for the one at the other end
  have locked := Owner.locked fine (diligent .server v.1 _ s owns found).1
  have locked' := Owner.locked fine' (diligent .agent v.1 _ t owns' found').1
  obtain ⟨feeds, drains, running, sane⟩ := relay_waits visit (poised.relays v visits) waits
    (poised.held sound visits open_.1 found) locked still.1
  obtain ⟨connected, feeds', drains', whole, sane'⟩ :=
    handler_waits handles (poised.handlers h handled) group held' locked' still.2
  refine ⟨_, connected, ?_, ?_⟩
  · have between : c.Between .server v.1 s t h.2.owner :=
      ⟨found, found', owns', (live .server s found).1, live .agent t found'⟩
    apply sound.settled diligent truthful owns between feeds sane drains' ?_ open' whole (empty _) (empty _)
    rintro ⟨-, dropped, over_⟩
    rw [over_] at running
    cases running
  · have between : c.Between .agent v.1 t s v.2.owner :=
      ⟨found', found, owns, (live .agent t found').1, live .server s found⟩
    -- the handler never cuts the request off, and the visitor's pump still runs
    have unbroken : v.2.owner.writer.broke = false := by
      cases pump : v.2.owner.writer with
      | done how dropped =>
        rw [pump] at running
        cases running
      | _ => rfl
    apply sound.settled diligent truthful owns' between feeds' sane' drains ?_ open_.2 unbroken (empty _) (empty _)
    rintro ⟨cuts, -⟩
    cases cuts

end

/-- The byte and its answer are through, and both ends have acknowledged what they got. -/
def answeredTrip : List Action :=
  let env : Env := ⟨0, none⟩
  roundTrip ++ [.relay 0 env (.writer (.drained true)), .deliver .agent env]

theorem carried_of_rest_answered : ∃ c v h app, run step (start .narrow) answeredTrip = some c ∧
    c.Pumping 0 0 v h ∧ h.2.socket = some app ∧ app.written = [71] ∧ Carried v.2 app := by
  have seen : ((run step (start .narrow) answeredTrip).bind fun c => (c.visits[0]?).bind fun v =>
      (c.handlers[0]?).map fun h =>
        (decide (h.1 = v.1 ∧ v.2.phase = .waiting ∧ h.2.phase = .pumping) && c.quiet v.1 .server &&
          c.quiet v.1 .agent && c.rests ⟨0, none⟩ 0 0, h.2.socket.map Socket.written)) = some (true, some [71]) := by
    decide +kernel
  obtain ⟨c, ran, seen⟩ := Option.bind_eq_some_iff.mp seen
  obtain ⟨v, visit, seen⟩ := Option.bind_eq_some_iff.mp seen
  obtain ⟨h, handles, seen⟩ := Option.map_eq_some_iff.mp seen
  simp only [Prod.mk.injEq, Bool.and_eq_true, decide_eq_true_eq] at seen
  obtain ⟨⟨⟨⟨⟨same, relay, handler⟩, server⟩, agent⟩, still⟩, written⟩ := seen
  have quiet : ∀ x, c.quiet v.1 x = true := by
    intro x
    cases x with
    | server => exact server
    | agent => exact agent
  have pumping : c.Pumping 0 0 v h := ⟨visit, handles, same, .inl relay, handler, quiet⟩
  obtain ⟨app, connected, carried⟩ := carried_of_rest (by decide +kernel) ran pumping still
  rw [connected] at written
  exact ⟨c, v, h, app, ran, pumping, connected, by simpa using written, carried⟩

end Conduit

end Chute
