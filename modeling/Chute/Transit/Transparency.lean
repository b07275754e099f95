import Chute.Transit.Conduit

/-!
# Visitors reach the local app

Through the pumps at both ends, the frames between them and the flow control, a visitor and the
local app are connected as by a wire: what either reads is what the other has sent, from its
beginning and in order.
-/
namespace Chute

/-- What one owner has written is what the owner at the other end was given to send. -/
theorem Pair.Linked.written_prefix {S : Setup} {mode : Lane.Mode} {p : Pair} (linked : p.Linked S mode)
    (x : Side) {sid : StreamId} {o o' : Owner} {sender sender' : Option Sender}
    (fine : o.Fine sender (p.ledger x ⟨sid, 0⟩)) (fine' : o'.Fine sender' (p.ledger x.other ⟨sid, 0⟩)) :
    o'.socket.written <+: o.lead ++ o.socket.arrived := by
  have taken := (linked.delivered x sid).part fine.clean
  exact (fine'.wrote.trans taken).trans fine.part

namespace Conduit

open Transition

/-! ### Streams and their owners -/

section

variable {σ : Type} {owner : σ → Owner} {formed : σ → Prop} {own : List (Ref × σ)} {p : Pair} {x : Side}

theorem Manned.fine (manned : Manned owner formed p x own) {v : Ref × σ} (member : v ∈ own) :
    ∃ s, (p.mux x).heap v.1 = some s ∧ (owner v.2).Fine s.sender (p.ledger x v.1) := by
  obtain ⟨k, here⟩ := List.getElem?_of_mem member
  exact (manned.each k v here).2

theorem Manned.owned (manned : Manned owner formed p x own) {r : Ref} {s : Stream}
    (found : (p.mux x).heap r = some s) : ∃ v ∈ own, v.1 = r := by
  obtain ⟨v, member, same⟩ := List.mem_map.mp (manned.all r s found)
  exact ⟨v, member, same⟩

end

variable {S : Setup} {kept : Bool} {c : Conduit}

theorem sound_of_run {as : List Action} (ran : run step (start S) as = some c) : c.Sound S false :=
  run_invariant' (fun _ _ _ sound moved => Sound.step sound (by simp) moved) (sound_start S false) ran

theorem sound_of_lossless {as : List Action} (all : Along step (fun c a => c.lossless a = true) (start S) as)
    (ran : run step (start S) as = some c) : c.Sound S true :=
  run_invariant (fun _ _ _ sound sent moved => Sound.step sound (fun _ => sent) moved) (sound_start S true) all ran

/-- The ids of the server are used once. -/
theorem Sound.ref_eq (sound : c.Sound S kept) {x : Side} {r : Ref} {s : Stream}
    (found : (c.pair.mux x).heap r = some s) : r = ⟨r.sid, 0⟩ := by
  have first := (sound.linked.wired.known_of_heap found).1
  cases r
  simp only at first
  rw [first]

/-! ### What visitors and the local app get from each other -/

structure Joined (v : Relay) (app : Socket) : Prop where
  request : app.written <+: v.initial ++ v.socket.arrived
  response : v.socket.written <+: app.arrived

structure Transparent (c : Conduit) : Prop where
  visitors : (c.visits.map Prod.fst).Nodup
  handlers : (c.handlers.map Prod.fst).Nodup
  /-- The agent connects to the local app for visitors only. -/
  called : ∀ h ∈ c.handlers, ∃ v ∈ c.visits, v.1 = h.1
  joined : ∀ v ∈ c.visits, ∀ h ∈ c.handlers, h.1 = v.1 → ∀ app, h.2.socket = some app → Joined v.2 app
  /-- Nothing but the local app answers a visitor. -/
  answered : ∀ v ∈ c.visits, v.2.socket.written ≠ [] →
    ∃ h ∈ c.handlers, h.1 = v.1 ∧ ∃ app, h.2.socket = some app

private theorem Sound.called (sound : c.Sound S kept) {h : Ref × Handler} (member : h ∈ c.handlers) :
    ∃ v ∈ c.visits, v.1 = h.1 := by
  obtain ⟨s, found, -⟩ := sound.handlers.fine member
  obtain ⟨first, -, known⟩ := sound.linked.wired.known_of_heap found
  obtain ⟨t, opened⟩ := sound.linked.wired.objects .server h.1 (by omega)
  exact sound.visits.owned opened

private theorem Sound.joined (sound : c.Sound S kept) {v : Ref × Relay} {h : Ref × Handler} {app : Socket}
    (visits : v ∈ c.visits) (handles : h ∈ c.handlers) (same : h.1 = v.1) (connected : h.2.socket = some app) :
    Joined v.2 app := by
  obtain ⟨s, found, fine⟩ := sound.visits.fine visits
  obtain ⟨s', -, fine'⟩ := sound.handlers.fine handles
  rw [same] at fine'
  rw [sound.ref_eq found] at fine fine'
  have request := sound.linked.written_prefix .server fine fine'
  have response := sound.linked.written_prefix .agent fine' fine
  simp only [Handler.owner, connected, Option.getD_some, List.nil_append] at request response
  exact ⟨request, response⟩

/-- What was written to a visitor was sent by a handler, which had read it somewhere. -/
private theorem Sound.answered (sound : c.Sound S kept) {v : Ref × Relay} (visits : v ∈ c.visits)
    (got : v.2.socket.written ≠ []) :
    ∃ h ∈ c.handlers, h.1 = v.1 ∧ ∃ app, h.2.socket = some app := by
  obtain ⟨s, found, fine⟩ := sound.visits.fine visits
  have ref := sound.ref_eq found
  rw [ref] at fine
  have taken := fine.wrote
  cases there : (c.pair.mux .agent).heap v.1 with
  | none =>
    -- the agent has sent nothing on a stream that it never had
    have unsent := sound.blank .agent v.1 there
    rw [ref] at unsent
    have part := (sound.linked.delivered .agent v.1.sid).part (by rw [unsent]; rfl)
    rw [unsent] at part
    have nothing := List.prefix_nil.mp (taken.trans part)
    exact absurd nothing got
  | some s' =>
    obtain ⟨h, handles, same⟩ := sound.handlers.owned there
    refine ⟨h, handles, same, ?_⟩
    obtain ⟨t, -, fine'⟩ := sound.handlers.fine handles
    rw [same, ref] at fine'
    cases connected : h.2.socket with
    | some app => exact ⟨app, rfl⟩
    | none =>
      have response := sound.linked.written_prefix .agent fine' fine
      simp only [Handler.owner, connected, Option.getD_none, Socket.new, List.nil_append] at response
      exact absurd (List.prefix_nil.mp response) got

/-- A visitor sends a byte and gets two. -/
def roundTrip : List Action :=
  let env : Env := ⟨0, none⟩
  [.visit env [71] true false true, .relay 0 env .opened, .relay 0 env .announced,
    .relay 0 env (.throttled true), .relay 0 env (.start true), .relay 0 env (.resume true),
    .deliver .agent env, .deliver .agent env, .handle 0 env .connected, .handle 0 env (.writer .read),
    .handle 0 env (.writer (.drained true)), .handle 0 env (.socket (.arrive [7, 8])),
    .handle 0 env (.reader .read), .handle 0 env (.reader (.start true)),
    .handle 0 env (.reader (.resume true)), .deliver .server env, .deliver .server env,
    .relay 0 env (.writer .read), .relay 0 env (.writer (.throttled true))]

end Conduit

end Chute
