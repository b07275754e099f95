import Chute.Pair.Delivery
import Chute.Transit.Fine

/-!
# Visitors and the local app

A connection between a relay and its agent with the owners of its streams at both ends: the
relays of any number of visitors, and a handler of the agent for each stream that it accepts.
Nobody else calls a stream.
-/
namespace Chute

open Transition

structure Conduit where
  pair : Pair
  visits : List (Ref × Relay)
  handlers : List (Ref × Handler)

namespace Conduit

inductive Action
  /-- Something happens at one end that no owner does. -/
  | net (x : Side) (env : Env) (a : Chute.Action)
  | deliver (x : Side) (env : Env)
  /-- A visitor's handler calls `mux.open`. -/
  | visit (env : Env) (initial : Bytes) (canWriteEof watched : Bool) (sent : Bool)
  | relay (k : Nat) (env : Env) (a : Relay.Action)
  | handle (k : Nat) (env : Env) (a : Handler.Action)

def start (S : Setup) : Conduit := ⟨Pair.new S, [], []⟩

/-- An owner runs to its next `await`, with at most one call on its stream. -/
def perform (p : Pair) (x : Side) (env : Env) : Option Chute.Action → Option (Pair × Result)
  | none => some (p, .returned)
  | some call =>
    (((p.mux x).host env).step call).bind fun e =>
      (p.step (.act x env call)).map fun p' => (p', e.result)

/-- The handler of a stream that the agent has just accepted. -/
def spawned (p p' : Pair) : Side → List (Ref × Handler)
  | .agent =>
    match p.wire .server with
    | f :: _ =>
      if (p'.mux .agent).made f.sid = (p.mux .agent).made f.sid then []
      else [(⟨f.sid, (p.mux .agent).made f.sid⟩, .new)]
    | [] => []
  | .server => []

def step (c : Conduit) : Action → Option Conduit
  | .net x env a =>
    if Traffic.unattended a then
      (c.pair.step (.act x env a)).map fun p => { c with pair := p }
    else none
  | .deliver x env =>
    (c.pair.step (.deliver x env)).map fun p =>
      { c with pair := p, handlers := c.handlers ++ spawned c.pair p x }
  | .visit env initial canWriteEof watched sent =>
    let m := c.pair.mux .server
    (perform c.pair .server env (some (.openStream sent))).map fun (p, res) =>
      { c with
        pair := p
        visits := c.visits ++ if res = .suspended then
            [(⟨UInt32.ofNat m.nextId, m.made (UInt32.ofNat m.nextId)⟩,
              Relay.new initial canWriteEof watched)]
          else [] }
  | .relay k env a =>
    (c.visits[k]?).bind fun v =>
      (v.2.turn (c.pair.mux .server) v.1 a).bind fun t =>
        (perform c.pair .server env t.call).map fun (p, res) =>
          { c with pair := p, visits := c.visits.set k (v.1, t.next res) }
  | .handle k env a =>
    (c.handlers[k]?).bind fun h =>
      (h.2.turn (c.pair.mux .agent) h.1 a).bind fun t =>
        (perform c.pair .agent env t.call).map fun (p, res) =>
          { c with pair := p, handlers := c.handlers.set k (h.1, t.next res) }

end Conduit

/-! ### Owners under a step of the connection -/

namespace Pair

variable {p p' : Pair} {x y : Side} {r : Ref} {s : Stream} {o o' : Owner}

/-- A stream stands a step that is no call of its owner. -/
theorem fine_step (acc : (p.mux y).Accounted) (found : (p.mux y).heap r = some s)
    (fine : o.Fine s.sender (p.ledger y r)) {a : Action} (moved : p.step a = some p')
    (other : ∀ env call, a = .act y env call → call.target ≠ some r) :
    ∃ t, (p'.mux y).heap r = some t ∧ o.Fine t.sender (p'.ledger y r) := by
  cases a with
  | act x env call =>
    obtain ⟨e, stepped, -, rfl⟩ := step_act moved
    by_cases here : y = x
    · subst here
      obtain ⟨t, after, touch⟩ := Host.step_touch (h := (p.mux y).host env) acc found stepped
      refine ⟨t, by simpa using after, ?_⟩
      simp only [Function.update_self, noted, found, Ledger.after, if_neg (other env call rfl)]
      rw [Owner.sender_of_touch touch (other env call rfl)]
      exact fine
    · refine ⟨s, by simpa [here] using found, ?_⟩
      simpa [here] using fine
  | deliver x env =>
    obtain ⟨f, rest, e, -, stepped, rfl⟩ := step_deliver moved
    by_cases here : y = x
    · subst here
      obtain ⟨t, after, touch⟩ := Host.step_touch (h := (p.mux y).host env) acc found stepped
      refine ⟨t, by simpa using after, ?_⟩
      rw [Owner.sender_of_touch touch (by simp [Chute.Action.target])]
      simp only [Function.update_self, arrived]
      split
      · exact ⟨fine.locks, fine.ending, fine.clean, fine.part, fine.fed, fine.marked, fine.going,
          fine.wrote, fine.owes⟩
      · exact fine
    · refine ⟨s, by simpa [here] using found, ?_⟩
      simpa [here] using fine

/-- The call of a turn, at its stream and in its ledger. -/
theorem ran_of_perform {env : Env} {call : Option Chute.Action} {res : Result} (acc : (p.mux x).Accounted)
    (found : (p.mux x).heap r = some s)
    (performed : Conduit.perform p x env call = some (p', res)) :
    ∃ s', (p'.mux x).heap r = some s' ∧
      Owner.Ran ((p.mux x).host env) r s (p.ledger x r) call res s' (p'.ledger x r) := by
  cases call with
  | none =>
    cases performed
    exact ⟨s, found, rfl, rfl⟩
  | some c =>
    obtain ⟨e, stepped, rest⟩ := Option.bind_eq_some_iff.mp performed
    obtain ⟨q, moved, same⟩ := Option.map_eq_some_iff.mp rest
    cases same
    obtain ⟨e', stepped', -, rfl⟩ := step_act moved
    cases stepped.symm.trans stepped'
    obtain ⟨t, after, touch⟩ := Host.step_touch (h := (p.mux x).host env) acc found stepped
    refine ⟨t, by simpa using after, ⟨e.out, touch⟩, ?_⟩
    simp [noted, found]

/-- What a performed call does is a step of the pair. -/
theorem step_of_perform {env : Env} {call : Option Chute.Action} {res : Result}
    (performed : Conduit.perform p x env call = some (p', res)) :
    call = none ∧ p' = p ∨ ∃ c, call = some c ∧ p.step (.act x env c) = some p' := by
  cases call with
  | none =>
    cases performed
    exact .inl ⟨rfl, rfl⟩
  | some c =>
    obtain ⟨e, -, rest⟩ := Option.bind_eq_some_iff.mp performed
    obtain ⟨q, moved, same⟩ := Option.map_eq_some_iff.mp rest
    cases same
    exact .inr ⟨c, rfl, moved⟩

/-- An object that is there stays. -/
theorem heap_lasts (acc : (p.mux x).Accounted) (found : (p.mux x).heap r = some s) {a : Action}
    (moved : p.step a = some p') : ∃ t, (p'.mux x).heap r = some t := by
  cases a with
  | act y env call =>
    obtain ⟨e, stepped, -, rfl⟩ := step_act moved
    by_cases here : x = y
    · subst here
      obtain ⟨t, after, -⟩ := Host.step_touch (h := (p.mux x).host env) acc found stepped
      exact ⟨t, by simpa using after⟩
    · exact ⟨s, by simpa [here] using found⟩
  | deliver y env =>
    obtain ⟨f, rest, e, -, stepped, rfl⟩ := step_deliver moved
    by_cases here : x = y
    · subst here
      obtain ⟨t, after, -⟩ := Host.step_touch (h := (p.mux x).host env) acc found stepped
      exact ⟨t, by simpa using after⟩
    · exact ⟨s, by simpa [here] using found⟩

/-- The ledger of what is not there is blank. -/
def Blank (p : Pair) : Prop := ∀ x r, (p.mux x).heap r = none → p.ledger x r = .new

theorem blank_new (S : Setup) : (new S).Blank := fun _ _ _ => rfl

/-- Nothing is noted of what is not there. -/
theorem ledger_absent (absent : (p.mux x).heap r = none) {a : Action} (moved : p.step a = some p') :
    p.ledger x r = p'.ledger x r := by
  cases a with
  | act y env call =>
    obtain ⟨e, -, -, rfl⟩ := step_act moved
    by_cases here : x = y
    · subst here
      simp [noted, absent]
    · simp [here]
  | deliver y env =>
    obtain ⟨f, rest, e, -, -, rfl⟩ := step_deliver moved
    by_cases here : x = y
    · subst here
      simp only [Function.update_self, arrived]
      rw [if_neg]
      rintro ⟨-, -, any⟩
      rw [absent] at any
      cases any
    · simp [here]

theorem Blank.step (blank : p.Blank) (acc : ∀ x, (p.mux x).Accounted) {a : Action}
    (moved : p.step a = some p') : p'.Blank := by
  intro x r absent
  cases found : (p.mux x).heap r with
  | none => rw [← ledger_absent found moved, blank x r found]
  | some s =>
    obtain ⟨t, after⟩ := heap_lasts (acc x) found moved
    rw [after] at absent
    cases absent

/-- Only `open` makes a stream without an arrival. -/
theorem absent_act (acc : (p.mux y).Accounted) {env : Env} {a : Chute.Action}
    (moved : p.step (.act x env a) = some p') (local_ : ∀ sent, a ≠ .openStream sent)
    (absent : (p.mux y).heap r = none) : (p'.mux y).heap r = none := by
  obtain ⟨e, stepped, notMessage, rfl⟩ := step_act moved
  by_cases here : y = x
  · subst here
    rcases Host.step_absent (h := (p.mux y).host env) acc absent stepped with still | ⟨-, -, opens⟩
    · simpa using still
    · cases opens with
      | local_ sent => exact absurd rfl (local_ sent)
      | peer => cases notMessage
  · simpa [here] using absent

/-- A delivery makes a stream at the agent only, and where the count of its id goes up. -/
theorem absent_deliver {S : Setup} (wired : p.Wired S) (wired' : p'.Wired S) {env : Env}
    (moved : p.step (.deliver x env) = some p') (absent : (p.mux y).heap r = none)
    (unmade : x = .agent → y = .agent → ∀ f rest, p.wire .server = f :: rest →
      r = ⟨f.sid, (p.mux .agent).made f.sid⟩ →
        (p'.mux .agent).made f.sid = (p.mux .agent).made f.sid) : (p'.mux y).heap r = none := by
  obtain ⟨f, rest, e, arriving, stepped, rfl⟩ := step_deliver moved
  by_cases here : y = x
  · subst here
    rcases Host.step_absent (h := (p.mux y).host env) (wired.accounted y) absent stepped with
      still | ⟨new, gen, opens⟩
    · simpa using still
    · exfalso
      have fresh := ((wired'.accounted y).fresh r (Stream.new ((p.mux y).host env).mux.config)
        (by simpa using new)).1
      cases opens with
      | peer _ carries =>
        rw [Message.frame_message] at carries
        cases carries
        cases y with
        | server =>
          rw [show ((p.mux .server).host env).mux = p.mux .server from rfl] at gen
          rw [wired.server_made stepped, gen] at fresh
          exact lt_irrefl _ fresh
        | agent =>
          have same := unmade rfl rfl _ rest arriving (by rw [Ref.mk.injEq]; exact ⟨rfl, gen⟩)
          rw [same] at fresh
          exact lt_irrefl _ (gen ▸ fresh)
  · simpa [here] using absent

end Pair

namespace Conduit

section

variable {σ : Type} {owner : σ → Owner} {formed : σ → Prop} {own : List (Ref × σ)} {p p' : Pair} {x : Side}
  {S : Setup}

/-- Every stream at this end has an owner, and one only. -/
structure Manned (owner : σ → Owner) (formed : σ → Prop) (p : Pair) (x : Side) (own : List (Ref × σ)) :
    Prop where
  each : ∀ (k : Nat) v, own[k]? = some v → formed v.2 ∧
    ∃ s, (p.mux x).heap v.1 = some s ∧ (owner v.2).Fine s.sender (p.ledger x v.1)
  apart : (own.map Prod.fst).Nodup
  all : ∀ r s, (p.mux x).heap r = some s → r ∈ own.map Prod.fst

/-- A step that calls nothing of an owner and makes no stream. -/
theorem Manned.quiet (manned : Manned owner formed p x own) (acc : (p.mux x).Accounted) {a : Pair.Action}
    (moved : p.step a = some p')
    (other : ∀ env call, a = .act x env call → ∀ v ∈ own, call.target ≠ some v.1)
    (none_ : ∀ r, (p.mux x).heap r = none → (p'.mux x).heap r = none) : Manned owner formed p' x own where
  each k v here := by
    obtain ⟨formed, s, found, fine⟩ := manned.each k v here
    have member := List.mem_of_getElem? here
    exact ⟨formed, Pair.fine_step acc found fine moved fun env call same => other env call same v member⟩
  apart := manned.apart
  all r s found := by
    cases before : (p.mux x).heap r with
    | none =>
      rw [none_ r before] at found
      cases found
    | some s => exact manned.all r s before

/-- An owner calls nothing but its own stream. -/
theorem target_of_moves {o o' : Owner} {m : Mux} {r : Ref} {c : Chute.Action} {res : Result}
    (moves : o.Moves m r (some c) res o') : c.target = some r ∨ c.target = none := by
  generalize called : some c = call at moves
  cases moves with
  | quiet | socket => cases called
  | reader throttle a t took => exact .inl (ReaderPump.turn_target took called.symm).1
  | stops throttle a t took => exact .inl (ReaderPump.turn_target took called.symm).1
  | writer throttle a t here took => exact .inl (WriterPump.turn_target took called.symm)
  | endStart | endResume | endRaise =>
    cases called
    exact .inl rfl
  | openReturn | openRaise | reset | close | leave =>
    cases called
    exact .inr rfl

private theorem keys_set {k : Nat} {v : Ref × σ} (here : own[k]? = some v) (next : σ) :
    (own.set k (v.1, next)).map Prod.fst = own.map Prod.fst := by
  obtain ⟨short, rfl⟩ := List.getElem?_eq_some_iff.mp here
  rw [List.map_set, ← List.getElem_map Prod.fst (h := by rwa [List.length_map]), List.set_getElem_self]

/-- The turn of an owner. -/
theorem Manned.turn (manned : Manned owner formed p x own) (acc : (p.mux x).Accounted) {k : Nat} {v : Ref × σ}
    (here : own[k]? = some v) {env : Env} {call : Option Chute.Action} {res : Result}
    (performed : perform p x env call = some (p', res)) {next : σ} {m : Mux}
    (moves : (owner v.2).Moves m v.1 call res (owner next)) (formed' : formed next)
    (none_ : ∀ r, (p.mux x).heap r = none → (p'.mux x).heap r = none) :
    Manned owner formed p' x (own.set k (v.1, next)) where
  each j w there := by
    by_cases same : j = k
    · subst same
      rw [List.getElem?_set_self (List.getElem?_eq_some_iff.mp here).1] at there
      cases there
      obtain ⟨-, s, found, fine⟩ := manned.each j v here
      obtain ⟨s', after, ran⟩ := Pair.ran_of_perform acc found performed
      exact ⟨formed', s', after, fine.moves moves ran⟩
    · rw [List.getElem?_set_ne (Ne.symm same)] at there
      obtain ⟨formed, s, found, fine⟩ := manned.each j w there
      refine ⟨formed, ?_⟩
      rcases Pair.step_of_perform performed with ⟨-, rfl⟩ | ⟨c, rfl, moved⟩
      · exact ⟨s, found, fine⟩
      · apply Pair.fine_step acc found fine moved
        rintro env' call ⟨⟩
        rcases target_of_moves moves with target | target
        · rw [target]
          intro equal
          -- the refs of two owners are apart
          have keys : (own.map Prod.fst)[j]? = (own.map Prod.fst)[k]? := by
            rw [List.getElem?_map, List.getElem?_map, there, here, Option.map_some, Option.map_some,
              Option.some.inj equal]
          have short : j < (own.map Prod.fst).length := by
            rw [List.length_map]
            exact (List.getElem?_eq_some_iff.mp there).1
          exact same ((List.getElem?_inj short manned.apart).mp keys)
        · simp [target]
  apart := by
    rw [keys_set here]
    exact manned.apart
  all r s found := by
    rw [keys_set here]
    cases before : (p.mux x).heap r with
    | none =>
      rw [none_ r before] at found
      cases found
    | some s => exact manned.all r s before

/-- A new stream gets its owner. -/
theorem Manned.grow (manned : Manned owner formed p x own) (acc : (p.mux x).Accounted) {a : Pair.Action}
    (moved : p.step a = some p') (blank : p.Blank)
    (other : ∀ env call, a = .act x env call → call.target = none) {r : Ref} {new : σ}
    (absent : (p.mux x).heap r = none) {s : Stream} (found : (p'.mux x).heap r = some s) (formed' : formed new)
    (fine : (owner new).Fine s.sender .new)
    (none_ : ∀ r', r' ≠ r → (p.mux x).heap r' = none → (p'.mux x).heap r' = none) :
    Manned owner formed p' x (own ++ [(r, new)]) where
  each k v here := by
    by_cases short : k < own.length
    · rw [List.getElem?_append_left short] at here
      obtain ⟨formed, s, there, fine⟩ := manned.each k v here
      refine ⟨formed, Pair.fine_step acc there fine moved ?_⟩
      intro env call same
      rw [other env call same]
      simp
    · rw [List.getElem?_append_right (by omega), List.getElem?_singleton] at here
      split at here <;> cases here
      refine ⟨formed', s, found, ?_⟩
      have unnoted : p'.ledger x r = .new := by
        rw [← blank x r absent]
        exact (Pair.ledger_absent absent moved).symm
      rw [unnoted]
      exact fine
  apart := by
    rw [List.map_append, List.map_singleton]
    refine List.Nodup.append manned.apart (List.nodup_singleton r) ?_
    intro r' member equal
    obtain ⟨v, there, rfl⟩ := List.mem_map.mp member
    obtain ⟨k, here⟩ := List.getElem?_of_mem there
    obtain ⟨-, s', found', -⟩ := manned.each k v here
    rw [List.mem_singleton.mp equal, absent] at found'
    cases found'
  all r' s' found' := by
    rw [List.map_append, List.mem_append]
    by_cases same : r' = r
    · right
      simp [same]
    · left
      cases before : (p.mux x).heap r' with
      | none =>
        rw [none_ r' same before] at found'
        cases found'
      | some s => exact manned.all r' s before

end

/-- What `_mux._send` is handed in the step gets on the connection. -/
def lossless (c : Conduit) : Action → Bool
  | .net _ _ a => a.lossless
  | .deliver _ _ => true
  | .visit _ _ _ _ sent => sent
  | .relay k _ a => (c.visits[k]?).all fun v =>
      (v.2.turn (c.pair.mux .server) v.1 a).all fun t => t.call.all Chute.Action.lossless
  | .handle k _ a => (c.handlers[k]?).all fun h =>
      (h.2.turn (c.pair.mux .agent) h.1 a).all fun t => t.call.all Chute.Action.lossless

structure Sound (S : Setup) (kept : Bool) (c : Conduit) : Prop where
  linked : c.pair.Linked S ⟨kept, true⟩
  blank : c.pair.Blank
  visits : Manned Relay.owner Relay.Formed c.pair .server c.visits
  handlers : Manned Handler.owner Handler.Formed c.pair .agent c.handlers

theorem sound_start (S : Setup) (kept : Bool) : (start S).Sound S kept where
  linked := Pair.linked_new S _
  blank := Pair.blank_new S
  visits := ⟨by simp [start], by simp [start], fun r s found => by cases found⟩
  handlers := ⟨by simp [start], by simp [start], fun r s found => by cases found⟩

/-- A pump acknowledges what it has read, once. -/
theorem honest_of_moves {o o' : Owner} {sender : Option Sender} {l : Ledger} (fine : o.Fine sender l) {r r' : Ref}
    {m : Mux} {n : Nat} {sent : Bool} {res : Result}
    (moves : o.Moves m r (some (.ack r' n sent)) res o') : r' = r ∧ n ∈ l.pending := by
  generalize called : some (Chute.Action.ack r' n sent) = call at moves
  have unread : ∀ {throttle : Bool} {a : ReaderPump.Action} {t : Turn (Socket × ReaderPump)},
      o.reader.turn r throttle o.socket a = some t → t.call ≠ some (.ack r' n sent) := by
    intro throttle a t took
    unfold ReaderPump.turn at took
    repeat' split at took
    all_goals cases took
    all_goals simp [Turn.quiet]
  cases moves with
  | quiet | socket | endStart | endResume | endRaise | openReturn | openRaise | reset | close | leave =>
    cases called
  | reader throttle a t took => exact absurd called.symm (unread took)
  | stops throttle a t took => exact absurd called.symm (unread took)
  | writer throttle a t here took =>
    have owes := fine.owes
    unfold WriterPump.turn at took
    split at took
    all_goals cases took
    all_goals cases called
    next draining =>
      rw [draining] at owes
      simp only [WriterPump.Owes] at owes
      exact ⟨rfl, by simp [owes]⟩

theorem target_of_unattended {a : Chute.Action} (alone : Traffic.unattended a = true) : a.target = none := by
  cases a <;> first | rfl | cases alone

variable {S : Setup} {kept : Bool} {c c' : Conduit}

private theorem fine_visit (cfg : Config) (initial : Bytes) (canWriteEof watched : Bool) :
    (Relay.new initial canWriteEof watched).owner.Fine (Stream.new cfg).sender .new := by
  constructor <;> simp [Relay.new, Relay.owner, Relay.feeder, Stream.new, Ledger.new, ReaderPump.Locks,
    ReaderPump.Fed, Owner.Marked, WriterPump.held, WriterPump.Owes, Socket.new]

private theorem fine_handler (cfg : Config) : Handler.new.owner.Fine (Stream.new cfg).sender .new := by
  constructor <;> simp [Handler.new, Handler.owner, Stream.new, Ledger.new, ReaderPump.Locks, ReaderPump.Fed,
    Owner.Marked, WriterPump.held, WriterPump.Owes, Socket.new]

/-- What an owner calls is honest, and makes no stream. -/
private theorem sound_perform {p p' : Pair} {x : Side} {env : Env} {o o' : Owner} {sender : Option Sender}
    {r : Ref} {m : Mux} {call : Option Chute.Action} {res : Result} (linked : p.Linked S ⟨kept, true⟩)
    (lossless : kept = true → call.all Chute.Action.lossless = true) (blank : p.Blank)
    (fine : o.Fine sender (p.ledger x r)) (moves : o.Moves m r call res o')
    (performed : perform p x env call = some (p', res)) :
    p'.Linked S ⟨kept, true⟩ ∧ p'.Blank ∧
      ∀ y r, (p.mux y).heap r = none → (p'.mux y).heap r = none := by
  rcases Pair.step_of_perform performed with ⟨-, rfl⟩ | ⟨a, rfl, moved⟩
  · exact ⟨linked, blank, fun _ _ absent => absent⟩
  · have honest : p.Honest (.act x env a) := by
      cases a with
      | ack r' n sent =>
        obtain ⟨rfl, owed⟩ := honest_of_moves fine moves
        exact owed
      | _ => trivial
    have local_ : ∀ sent, a ≠ .openStream sent := by
      rintro sent rfl
      generalize called : some (Chute.Action.openStream sent) = call at moves
      cases moves with
      | reader throttle a t took => cases (ReaderPump.turn_target took called.symm).1
      | stops throttle a t took => cases (ReaderPump.turn_target took called.symm).1
      | writer throttle a t here took => cases WriterPump.turn_target took called.symm
      | _ => cases called
    exact ⟨linked.step (a := .act x env a) lossless (fun _ => honest) moved, blank.step linked.wired.accounted moved,
      fun y r absent => Pair.absent_act (linked.wired.accounted y) moved local_ absent⟩

/-- The agent gives a stream that it accepts to a handler. -/
private theorem Sound.handlers_deliver (sound : c.Sound S kept) {x : Side} {env : Env} {p : Pair}
    (wired : p.Wired S) (stepped : c.pair.step (.deliver x env) = some p) :
    Manned Handler.owner Handler.Formed p .agent (c.handlers ++ spawned c.pair p x) := by
  have acc := sound.linked.wired.accounted
  have quiet : (x = .agent → ∀ f rest, c.pair.wire .server = f :: rest →
      (p.mux .agent).made f.sid = (c.pair.mux .agent).made f.sid) →
      Manned Handler.owner Handler.Formed p .agent c.handlers := by
    intro unmade
    refine sound.handlers.quiet (acc .agent) stepped (by simp) fun r absent => ?_
    exact Pair.absent_deliver sound.linked.wired wired stepped absent fun here _ f rest arriving _ =>
      unmade here f rest arriving
  cases x with
  | server =>
    rw [spawned, List.append_nil]
    exact quiet (by simp)
  | agent =>
    obtain ⟨f, rest, e, arriving, took, after⟩ := Pair.step_deliver stepped
    rw [Side.other] at arriving
    rw [spawned, arriving]
    simp only
    split
    next unmade =>
      rw [List.append_nil]
      apply quiet
      intro _ g rest' arriving'
      cases arriving.symm.trans arriving'
      exact unmade
    next made =>
      have arrived := (Host.step_message (h := (c.pair.mux .agent).host env) (acc .agent) took).2.1.arrived
        (acc .agent)
      have mux : p.mux .agent = e.host.mux := by rw [after]; simp
      rw [mux] at made
      rcases arrived.made with same | ⟨sid, carries, -, -, new⟩
      · exact absurd (congrFun same f.sid) made
      · rw [Message.frame_message] at carries
        cases carries
        refine sound.handlers.grow (acc .agent) stepped sound.blank (by simp) ?_ (mux ▸ new)
          Handler.formed_new (fine_handler _) ?_
        · -- an object of this number was never there
          cases there : (c.pair.mux .agent).heap ⟨sid, (c.pair.mux .agent).made sid⟩ with
          | none => rfl
          | some s => exact absurd ((acc .agent).fresh _ s there).1 (lt_irrefl _)
        · intro r apart absent
          refine Pair.absent_deliver sound.linked.wired wired stepped absent ?_
          intro _ _ g rest' arriving' same
          cases arriving.symm.trans arriving'
          exact absurd same apart

/-- The relay gives the stream that it opens to the visitor. -/
private theorem Sound.visits_visit (sound : c.Sound S kept) {env : Env} {p : Pair} {sent : Bool} {e : Effect}
    {initial : Bytes} {canWriteEof watched : Bool}
    (took : ((c.pair.mux .server).host env).step (.openStream sent) = some e)
    (stepped : c.pair.step (.act .server env (.openStream sent)) = some p) :
    Manned Relay.owner Relay.Formed p .server (c.visits ++ if e.result = .suspended then
      [(⟨UInt32.ofNat (c.pair.mux .server).nextId,
          (c.pair.mux .server).made (UInt32.ofNat (c.pair.mux .server).nextId)⟩,
        Relay.new initial canWriteEof watched)]
      else []) := by
  have acc := sound.linked.wired.accounted
  obtain ⟨e', took', -, after⟩ := Pair.step_act stepped
  cases took.symm.trans took'
  have mux : p.mux .server = e.host.mux := by rw [after]; simp
  simp only [Host.step] at took
  split at took
  · cases took
  · cases took
    unfold Host.openStream at mux ⊢
    simp only at mux ⊢
    split at mux
    next full =>
      rw [if_pos full, if_neg (by simp), List.append_nil]
      refine sound.visits.quiet (acc .server) stepped ?_ ?_
      · rintro env' call ⟨⟩ v -
        simp [Chute.Action.target]
      · intro r absent
        rw [mux]
        exact absent
    next room =>
      rw [if_neg room, if_pos rfl]
      refine sound.visits.grow (acc .server) stepped sound.blank ?_ ?_ ?_ (Relay.formed_new _ _ _)
        (fine_visit (c.pair.mux .server).config _ _ _) ?_
      · rintro env' call ⟨⟩
        rfl
      · cases there : (c.pair.mux .server).heap ⟨UInt32.ofNat (c.pair.mux .server).nextId,
          (c.pair.mux .server).made (UInt32.ofNat (c.pair.mux .server).nextId)⟩ with
        | none => rfl
        | some s => exact absurd ((acc .server).fresh _ s there).1 (lt_irrefl _)
      · rw [mux]
        simp [Mux.register, Mux.setStream, Mux.host]
      · intro r apart absent
        rw [mux]
        simp only [Mux.register, Mux.setStream, Mux.host]
        rw [Function.update_of_ne apart]
        exact absent

/-- **Every stream has an owner that keeps its promises**, in every state of every run. -/
theorem Sound.step (sound : c.Sound S kept) {a : Action} (lossless : kept = true → c.lossless a = true)
    (moved : c.step a = some c') : c'.Sound S kept := by
  have acc := sound.linked.wired.accounted
  cases a with
  | net x env a =>
    simp only [Conduit.step] at moved
    split at moved
    next alone =>
      obtain ⟨p, stepped, rfl⟩ := Option.map_eq_some_iff.mp moved
      have target := target_of_unattended alone
      have honest : c.pair.Honest (.act x env a) := by
        cases a with
        | ack => cases alone
        | _ => trivial
      have local_ : ∀ sent, a ≠ .openStream sent := by
        rintro sent rfl
        cases alone
      have other : ∀ y env' call, Pair.Action.act x env a = .act y env' call → ∀ r, call.target ≠ some r := by
        rintro y env' call ⟨⟩ r
        simp [target]
      exact ⟨sound.linked.step (a := .act x env a) lossless (fun _ => honest) stepped, sound.blank.step acc stepped,
        sound.visits.quiet (acc .server) stepped (fun env' call same v _ => other .server env' call same v.1)
          fun r => Pair.absent_act (acc .server) stepped local_,
        sound.handlers.quiet (acc .agent) stepped (fun env' call same v _ => other .agent env' call same v.1)
          fun r => Pair.absent_act (acc .agent) stepped local_⟩
    · cases moved
  | deliver x env =>
    obtain ⟨p, stepped, rfl⟩ := Option.map_eq_some_iff.mp moved
    have honest : c.pair.Honest (.deliver x env) := trivial
    have linked := sound.linked.step (fun _ => rfl) (fun _ => honest) stepped
    refine ⟨linked, sound.blank.step acc stepped, ?_, ?_⟩
    · refine sound.visits.quiet (acc .server) stepped (by simp) fun r absent => ?_
      exact Pair.absent_deliver sound.linked.wired linked.wired stepped absent (by simp)
    · exact sound.handlers_deliver linked.wired stepped
  | visit env initial canWriteEof watched sent =>
    obtain ⟨⟨p, res⟩, performed, rfl⟩ := Option.map_eq_some_iff.mp moved
    obtain ⟨e, took, rest⟩ := Option.bind_eq_some_iff.mp performed
    obtain ⟨q, stepped, same⟩ := Option.map_eq_some_iff.mp rest
    cases same
    have honest : c.pair.Honest (.act .server env (.openStream sent)) := trivial
    have linked := sound.linked.step (a := .act .server env (.openStream sent)) lossless (fun _ => honest) stepped
    refine ⟨linked, sound.blank.step acc stepped, ?_, ?_⟩
    · exact sound.visits_visit took stepped
    · refine sound.handlers.quiet (acc .agent) stepped (by simp) fun r absent => ?_
      obtain ⟨e', -, -, rfl⟩ := Pair.step_act stepped
      simpa using absent
  | relay k env a =>
    obtain ⟨v, here, moved⟩ := Option.bind_eq_some_iff.mp moved
    obtain ⟨t, took, moved⟩ := Option.bind_eq_some_iff.mp moved
    obtain ⟨⟨p, res⟩, performed, rfl⟩ := Option.map_eq_some_iff.mp moved
    obtain ⟨formed, s, found, fine⟩ := sound.visits.each k v here
    obtain ⟨moves, formed'⟩ := Relay.moves_of_turn formed took res
    have sent : kept = true → t.call.all Chute.Action.lossless = true := by
      intro all
      simpa [Conduit.lossless, here, took] using lossless all
    obtain ⟨linked, blank, none_⟩ := sound_perform sound.linked sent sound.blank fine moves performed
    refine ⟨linked, blank, sound.visits.turn (acc .server) here performed moves formed' (none_ .server), ?_⟩
    rcases Pair.step_of_perform performed with ⟨-, rfl⟩ | ⟨call, called, stepped⟩
    · exact sound.handlers
    · exact sound.handlers.quiet (acc .agent) stepped (by simp) (none_ .agent)
  | handle k env a =>
    obtain ⟨h, here, moved⟩ := Option.bind_eq_some_iff.mp moved
    obtain ⟨t, took, moved⟩ := Option.bind_eq_some_iff.mp moved
    obtain ⟨⟨p, res⟩, performed, rfl⟩ := Option.map_eq_some_iff.mp moved
    obtain ⟨formed, s, found, fine⟩ := sound.handlers.each k h here
    obtain ⟨moves, formed'⟩ := Handler.moves_of_turn formed took res
    have sent : kept = true → t.call.all Chute.Action.lossless = true := by
      intro all
      simpa [Conduit.lossless, here, took] using lossless all
    obtain ⟨linked, blank, none_⟩ := sound_perform sound.linked sent sound.blank fine moves performed
    refine ⟨linked, blank, ?_, sound.handlers.turn (acc .agent) here performed moves formed' (none_ .agent)⟩
    rcases Pair.step_of_perform performed with ⟨-, rfl⟩ | ⟨call, called, stepped⟩
    · exact sound.visits
    · exact sound.visits.quiet (acc .server) stepped (by simp) (none_ .server)

end Conduit

end Chute
