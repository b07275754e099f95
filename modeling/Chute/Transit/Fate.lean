import Chute.Transit.Flow

/-!
# What a step means for an owner

Of all owners in a conduit a step moves one at most; for the others the connection moves, or
nothing does. `fate_of_step` says it once, for invariants that relate an owner to its stream.
-/
namespace Chute

namespace Conduit

/-- The receiving end `s` was told that nothing more comes, and all that came was written. -/
def Spent (s : Stream) (o : Owner) : Prop := s.recv = .eof ∧ s.chunks = [] ∧ o.writer.held = []

instance (s : Stream) (o : Owner) : Decidable (Spent s o) := inferInstanceAs (Decidable (_ ∧ _ ∧ _))

def spent (c : Conduit) (x : Side) (r : Ref) (o : Owner) : Bool :=
  ((c.pair.mux x).heap r).any fun s => decide (Spent s o)

/-- The step does not close a socket that nobody has ended before everything that was sent to it
was written. -/
def endsWell (c : Conduit) : Action → Bool
  | .relay k _ .close => (c.visits[k]?).all fun v => v.2.socket.ended.isSome || c.spent .server v.1 v.2.owner
  | .handle k _ .close => (c.handlers[k]?).all fun h =>
      h.2.socket.all fun app => app.ended.isSome || c.spent .agent h.1 h.2.owner
  | _ => true

end Conduit

namespace Owner

/-- The owner is at its start. -/
inductive Fresh : Owner → Prop
  | visit (initial : Bytes) (canWriteEof watched : Bool) : Fresh (Relay.new initial canWriteEof watched).owner
  | handler : Fresh Handler.new.owner

/-- The move ends no open socket by its `close` in the middle of what is sent to it. -/
def Well (o : Owner) (r : Ref) (s : Stream) (call : Option Action) (o' : Owner) : Prop :=
  call = some (.close r) → o.socket.ended = none → o'.socket.ended ≠ none → Conduit.Spent s o

theorem calls_of_moves {o o' : Owner} {m : Mux} {r : Ref} {c : Action} {res : Result}
    (moves : o.Moves m r (some c) res o') : c.calls r = true ∨ c = .openReturn r := by
  have own : c.target = some r → c.calls r = true := by
    intro target
    cases c <;> simp_all [Action.calls, Action.target]
  generalize called : some c = call at moves
  cases moves with
  | quiet | socket => cases called
  | reader throttle a t took => exact .inl (own (ReaderPump.turn_target took called.symm).1)
  | stops throttle a t took => exact .inl (own (ReaderPump.turn_target took called.symm).1)
  | writer throttle a t here took => exact .inl (own (WriterPump.turn_target took called.symm))
  | endStart | endResume | endRaise =>
    cases called
    exact .inl (own rfl)
  | openReturn =>
    cases called
    exact .inr rfl
  | openRaise | reset | close | leave =>
    cases called
    exact .inl (by simp [Action.calls])

end Owner

/-- Only the last action of `_relay` closes the stream. -/
private theorem Relay.close_of_call {m : Mux} {r : Ref} {p : Relay} {a : Relay.Action} {t : Turn Relay}
    (took : p.turn m r a = some t) (called : t.call = some (.close r)) : a = .close := by
  cases Relay.turns_of_turn took with
  | socket | idle => cases called
  | reader a pump t running reads =>
    obtain ⟨target, -⟩ := pump.turn_target reads called
    cases target
  | writer a pump t running writes => cases pump.turn_target writes called
  | main a t goes =>
    rcases goes.call _ called with ⟨target, -⟩ | opens
    · cases target
    · cases opens
  | refused | reset => cases called
  | close => rfl

/-- Only the last action of `_handle_stream` closes the stream. -/
private theorem Handler.close_of_call {m : Mux} {r : Ref} {p : Handler} {a : Handler.Action} {t : Turn Handler}
    (took : p.turn m r a = some t) (called : t.call = some (.close r)) : a = .close := by
  cases a with
  | close => rfl
  | reader a =>
    simp only [turn] at took
    split at took
    · cases took
    · obtain ⟨k, -, took⟩ := Option.bind_eq_some_iff.mp took
      obtain ⟨pump, -, took⟩ := Option.bind_eq_some_iff.mp took
      obtain ⟨t', took', rfl⟩ := Option.map_eq_some_iff.mp took
      obtain ⟨target, -⟩ := pump.turn_target took' called
      cases target
  | writer a =>
    simp only [turn] at took
    split at took
    · cases took
    · obtain ⟨k, -, took⟩ := Option.bind_eq_some_iff.mp took
      obtain ⟨pump, -, took⟩ := Option.bind_eq_some_iff.mp took
      obtain ⟨t', took', rfl⟩ := Option.map_eq_some_iff.mp took
      cases pump.turn_target took' called
  | socket e =>
    simp only [turn] at took
    split at took
    · cases took
    · obtain ⟨k, -, took⟩ := Option.bind_eq_some_iff.mp took
      obtain ⟨k', -, rfl⟩ := Option.map_eq_some_iff.mp took
      cases called
  | wake =>
    obtain ⟨q, -, rfl⟩ := Option.map_eq_some_iff.mp took
    cases called
  | cancel =>
    obtain ⟨q, -, rfl⟩ := Option.map_eq_some_iff.mp took
    cases called
  | connected | unreachable | failed | reset =>
    simp only [turn] at took
    split at took
    · cases took
      cases called
    · cases took

namespace Conduit

/-- How the owner `o'` of `r` comes out of a step. -/
inductive Fate (c : Conduit) (a : Action) (c' : Conduit) (x : Side) (r : Ref) (o' : Owner) : Prop
  | idle (owns : (r, o') ∈ c.owners x) (same : c'.pair = c.pair)
  | other (owns : (r, o') ∈ c.owners x) (b : Pair.Action) (moved : c.pair.step b = some c'.pair)
      (other : ∀ env call, b = .act x env call → call.calls r = false)
  | own (o : Owner) (owns : (r, o) ∈ c.owners x) (env : Env) (call : Option Chute.Action) (res : Result)
      (moves : o.Moves (c.pair.mux x) r call res o') (performed : perform c.pair x env call = some (c'.pair, res))
      (well : c.endsWell a = true → ∀ s, (c.pair.mux x).heap r = some s → o.Well r s call o')
      (sent : c.lossless a = true → call.all Chute.Action.lossless = true)
  | new (b : Pair.Action) (moved : c.pair.step b = some c'.pair) (unowned : ∀ o, (r, o) ∉ c.owners x)
      (fresh : o'.Fresh)

section

variable {σ : Type} {owner : σ → Owner} {own : List (Ref × σ)}

private theorem owner_set {k : Nat} {v : Ref × σ} (here : own[k]? = some v) (apart : (own.map Prod.fst).Nodup)
    {next : σ} {r : Ref} {o' : Owner}
    (member : (r, o') ∈ (own.set k (v.1, next)).map fun w => (w.1, owner w.2)) :
    r = v.1 ∧ o' = owner next ∨ r ≠ v.1 ∧ (r, o') ∈ own.map fun w => (w.1, owner w.2) := by
  obtain ⟨w, inside, same⟩ := List.mem_map.mp member
  cases same
  obtain ⟨j, there⟩ := List.getElem?_of_mem inside
  by_cases this_ : j = k
  · subst this_
    rw [List.getElem?_set_self (List.getElem?_eq_some_iff.mp here).1] at there
    cases there
    exact .inl ⟨rfl, rfl⟩
  · rw [List.getElem?_set_ne (Ne.symm this_)] at there
    refine .inr ⟨fun equal => this_ ?_, List.mem_map.mpr ⟨w, List.mem_of_getElem? there, rfl⟩⟩
    have keys : (own.map Prod.fst)[j]? = (own.map Prod.fst)[k]? := by
      rw [List.getElem?_map, List.getElem?_map, there, here, Option.map_some, Option.map_some, equal]
    have short : j < (own.map Prod.fst).length := by
      rw [List.length_map]
      exact (List.getElem?_eq_some_iff.mp there).1
    exact (List.getElem?_inj short apart).mp keys

/-- The owner that comes last is new. -/
private theorem unowned_last {r : Ref} {new : σ} (apart : ((own ++ [(r, new)]).map Prod.fst).Nodup) (o : Owner) :
    (r, o) ∉ own.map fun w => (w.1, owner w.2) := by
  intro member
  obtain ⟨w, inside, same⟩ := List.mem_map.mp member
  cases same
  rw [List.map_append, List.nodup_append] at apart
  exact apart.2.2 w.1 (List.mem_map.mpr ⟨w, inside, rfl⟩) w.1 (by simp) rfl

end

variable {S : Setup} {kept : Bool} {c c' : Conduit} {x y : Side} {r r' : Ref} {o' : Owner}

/-- An owner, while another has a turn. -/
private theorem fate_aside {a : Action} {env : Env} {o next : Owner} {m : Mux} {call : Option Chute.Action}
    {res : Result} (moves : o.Moves m r call res next) (performed : perform c.pair x env call = some (c'.pair, res))
    (apart : y = x → r' ≠ r) (owns : (r', o') ∈ c.owners y) : Fate c a c' y r' o' := by
  rcases Pair.step_of_perform performed with ⟨-, same⟩ | ⟨b, rfl, moved⟩
  · exact .idle owns same
  · refine .other owns _ moved ?_
    rintro env' call ⟨⟩
    exact calls_other (Owner.calls_of_moves moves) (apart rfl)

/-- **What a step means for an owner.** -/
theorem fate_of_step (sound : c.Sound S kept) (sound' : c'.Sound S kept) {a : Action} (moved : c.step a = some c')
    (owns : (r, o') ∈ c'.owners x) : Fate c a c' x r o' := by
  cases a with
  | net y env a =>
    simp only [Conduit.step] at moved
    split at moved
    next alone =>
      obtain ⟨p, stepped, rfl⟩ := Option.map_eq_some_iff.mp moved
      have still : (r, o') ∈ c.owners x := by cases x <;> exact owns
      refine .other still _ stepped ?_
      rintro env' call ⟨⟩
      exact Traffic.calls_of_unattended alone r
    · cases moved
  | deliver y env =>
    obtain ⟨p, stepped, rfl⟩ := Option.map_eq_some_iff.mp moved
    cases x with
    | server => exact .other owns _ stepped (by simp)
    | agent =>
      have apart := sound'.handlers.apart
      simp only [owners, List.map_append] at owns apart
      rcases List.mem_append.mp owns with old | new
      · exact .other old _ stepped (by simp)
      · unfold spawned at new apart
        split at new
        next =>
          split at new
          next f rest arriving =>
            split at new
            · cases new
            next made =>
              rw [List.map_singleton, List.mem_singleton] at new
              cases new
              refine .new _ stepped ?_ .handler
              simp only [arriving, if_neg made] at apart
              rw [← List.map_append] at apart
              exact unowned_last apart
          · cases new
        · cases new
  | visit env initial canWriteEof watched sent =>
    obtain ⟨⟨p, res⟩, performed, rfl⟩ := Option.map_eq_some_iff.mp moved
    rcases Pair.step_of_perform performed with ⟨none_, -⟩ | ⟨b, same, stepped⟩
    · cases none_
    · cases same
      have silent : ∀ env' call, Pair.Action.act .server env (.openStream sent) = .act x env' call →
          call.calls r = false := by
        rintro env' call ⟨⟩
        simp [Action.calls, Action.target]
      cases x with
      | agent => exact .other owns _ stepped silent
      | server =>
        have apart := sound'.visits.apart
        simp only [owners, List.map_append] at owns
        rcases List.mem_append.mp owns with old | new
        · exact .other old _ stepped silent
        · split at new
          next opened =>
            rw [List.map_singleton, List.mem_singleton] at new
            cases new
            refine .new _ stepped ?_ (.visit initial canWriteEof watched)
            simp only [if_pos opened] at apart
            exact unowned_last apart
          next => cases new
  | relay k env a =>
    obtain ⟨v, here, moved⟩ := Option.bind_eq_some_iff.mp moved
    obtain ⟨t, took, moved⟩ := Option.bind_eq_some_iff.mp moved
    obtain ⟨⟨p, res⟩, performed, rfl⟩ := Option.map_eq_some_iff.mp moved
    obtain ⟨formed, -⟩ := sound.visits.each k v here
    obtain ⟨moves, -⟩ := Relay.moves_of_turn formed took res
    cases x with
    | agent => exact fate_aside moves performed (by simp) owns
    | server =>
      rcases owner_set here sound.visits.apart owns with ⟨rfl, rfl⟩ | ⟨apart, still⟩
      · have mine : (v.1, v.2.owner) ∈ c.owners .server :=
          List.mem_map.mpr ⟨v, List.mem_of_getElem? here, rfl⟩
        refine .own v.2.owner mine env t.call res moves performed ?_ ?_
        rotate_left
        · intro sent
          simpa [Conduit.lossless, here, took] using sent
        intro ends s found called open_ ended
        obtain rfl := Relay.close_of_call took called
        have unended : v.2.socket.ended.isSome = false := by
          rw [show v.2.socket.ended = none from open_]
          rfl
        simpa [endsWell, here, unended, spent, found] using ends
      · exact fate_aside moves performed (fun _ => apart) still
  | handle k env a =>
    obtain ⟨h, here, moved⟩ := Option.bind_eq_some_iff.mp moved
    obtain ⟨t, took, moved⟩ := Option.bind_eq_some_iff.mp moved
    obtain ⟨⟨p, res⟩, performed, rfl⟩ := Option.map_eq_some_iff.mp moved
    obtain ⟨formed, -⟩ := sound.handlers.each k h here
    obtain ⟨moves, -⟩ := Handler.moves_of_turn formed took res
    cases x with
    | server => exact fate_aside moves performed (by simp) owns
    | agent =>
      rcases owner_set here sound.handlers.apart owns with ⟨rfl, rfl⟩ | ⟨apart, still⟩
      · have mine : (h.1, h.2.owner) ∈ c.owners .agent :=
          List.mem_map.mpr ⟨h, List.mem_of_getElem? here, rfl⟩
        refine .own h.2.owner mine env t.call res moves performed ?_ ?_
        rotate_left
        · intro sent
          simpa [Conduit.lossless, here, took] using sent
        intro ends s found called open_ ended
        obtain rfl := Handler.close_of_call took called
        simp only [Handler.turn] at took
        split at took
        next =>
          cases took
          cases connected : h.2.socket with
          | none =>
            -- there is no socket to close
            simp [Handler.owner, connected, Socket.new] at ended
          | some app =>
            have unended : app.ended = none := by simpa [Handler.owner, connected] using open_
            simpa [endsWell, here, connected, unended, spent, found] using ends
        · cases took
      · exact fate_aside moves performed (fun _ => apart) still

end Conduit

end Chute
