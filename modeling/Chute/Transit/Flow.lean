import Chute.Pair.Backstops
import Chute.Transit.Transparency

/-!
# The pumps and flow control

The callers of `Pair.Credit` acknowledge what they have read, and once. The pumps do, so that
their connections conserve credit; and what a pump has read and not acknowledged is the one chunk
that it is busy with. A pump that waits for credit therefore never waits for one that waits for data.
-/
namespace Chute

namespace WriterPump

/-- The bytes of the chunk that is being written. -/
def owing : WriterPump → Nat
  | .throttling chunk => chunk.length
  | .draining n => n
  | .reading => 0
  | .done _ _ => 0

/-- The pump was stopped between a chunk and its acknowledgement, or failed. -/
def broke : WriterPump → Bool
  | .done .raised _ => true
  | .done .cancelled _ => true
  | .done .returned _ => false
  | .reading => false
  | .throttling _ => false
  | .draining _ => false

theorem Owes.sum_eq {pending : List Nat} {pump : WriterPump} (owes : pump.Owes pending) (sane : pump.broke = false) :
    pending.sum = pump.owing := by
  cases pump with
  | reading =>
    rw [show pending = [] from owes]
    rfl
  | throttling chunk =>
    rw [show pending = [chunk.length] from owes, List.sum_singleton]
    rfl
  | draining n =>
    rw [show pending = [n] from owes, List.sum_singleton]
    rfl
  | done how dropped =>
    cases how with
    | returned =>
      rw [show pending = [] from owes]
      rfl
    | raised | cancelled => cases sane

end WriterPump

namespace Conduit

open Transition
open Pair (dataInFlight creditInFlight)

/-- The owners of the streams at one end. -/
def owners (c : Conduit) : Side → List (Ref × Owner)
  | .server => c.visits.map fun v => (v.1, v.2.owner)
  | .agent => c.handlers.map fun h => (h.1, h.2.owner)

variable {S : Setup} {kept : Bool} {c : Conduit}

theorem Sound.fine (sound : c.Sound S kept) {x : Side} {r : Ref} {o : Owner} (owns : (r, o) ∈ c.owners x) :
    ∃ s, (c.pair.mux x).heap r = some s ∧ o.Fine s.sender (c.pair.ledger x r) := by
  cases x with
  | server =>
    obtain ⟨v, member, same⟩ := List.mem_map.mp owns
    cases same
    exact sound.visits.fine member
  | agent =>
    obtain ⟨h, member, same⟩ := List.mem_map.mp owns
    cases same
    exact sound.handlers.fine member

/-- The pump `o` waits in `read`. -/
structure Idle (o : Owner) (t : Stream) : Prop where
  reading : o.writer = .reading
  nothing : t.incoming = []

/-- A stream between two ends that neither has given up. -/
structure Between (c : Conduit) (x : Side) (r : Ref) (s t : Stream) (o : Owner) : Prop where
  sender : (c.pair.mux x).heap r = some s
  receiver : (c.pair.mux x.other).heap r = some t
  owner : (r, o) ∈ c.owners x.other
  live : s.closed = false ∧ t.closed = false ∧ t.recv ≠ .reset

structure Flows (S : Setup) (c : Conduit) : Prop where
  conserved : c.pair.Conserved S
  /-- All credit is accounted for, with the chunk that the pump is writing. -/
  balance : ∀ x r s t o, c.Between x r s t o → o.writer.broke = false →
    s.sendWindow + dataInFlight r.sid (c.pair.wire x) + t.queuedBytes + o.writer.owing + t.unacked +
      creditInFlight r.sid (c.pair.wire x.other) = S.window
  /-- No `send` waits for credit while the pump at the other end waits for data, unless there is
  something about the stream on its way between the two. -/
  awake : ∀ x r s t o, c.Between x r s t o → s.Parked → Idle o t →
    about r.sid (c.pair.wire x) ≠ [] ∨ about r.sid (c.pair.wire x.other) ≠ []
  /-- No stream is given up for what it holds, where the connection has room for a window each. -/
  uncut : ∀ x env, env.maxBufferedBytes = none → S.maxStreams x * S.window ≤ 1048576 →
    c.pair.overflows x env = false

private theorem Sound.balance (sound : c.Sound S true) {x : Side} {r : Ref} {s t : Stream} {o : Owner}
    (between : c.Between x r s t o) (sane : o.writer.broke = false) :
    s.sendWindow + dataInFlight r.sid (c.pair.wire x) + t.queuedBytes + o.writer.owing + t.unacked +
      creditInFlight r.sid (c.pair.wire x.other) = S.window := by
  obtain ⟨t', -, fine⟩ := sound.fine between.owner
  obtain ⟨sending, receiving, accepting⟩ := between.live
  have ref := sound.ref_eq between.sender
  have sender := between.sender
  have receiver := between.receiver
  rw [ref] at sender receiver fine
  have balance := sound.linked.conserved.balance x r.sid
  rw [Pair.stream_of_heap sender, Pair.stream_of_heap receiver] at balance
  have pending := fine.owes.sum_eq sane
  rw [← pending]
  exact balance sending receiving accepting

theorem Sound.awake (sound : c.Sound S true) {x : Side} {r : Ref} {s t : Stream} {o : Owner}
    (between : c.Between x r s t o) (parked : s.Parked) (idle : Idle o t) :
    about r.sid (c.pair.wire x) ≠ [] ∨ about r.sid (c.pair.wire x.other) ≠ [] := by
  by_contra still
  obtain ⟨forth, back⟩ := not_or.mp still
  obtain ⟨t', -, fine⟩ := sound.fine between.owner
  obtain ⟨sending, receiving, accepting⟩ := between.live
  have ref := sound.ref_eq between.sender
  have sender := between.sender
  have receiver := between.receiver
  have owes := fine.owes
  rw [ref] at sender receiver owes
  have stalled : c.pair.Stalled x r.sid := by
    refine ⟨⟨s, sender, sending⟩, ⟨t, receiver, receiving, accepting, ?_⟩, not_not.mp forth, not_not.mp back, ?_⟩
    · rw [Stream.chunks, idle.nothing]
      rfl
    · rw [idle.reading] at owes
      exact owes
  obtain ⟨dry, -⟩ := sound.linked.alert sender parked
  have credit := sound.linked.window_pos stalled
  rw [Pair.stream_of_heap sender] at credit
  omega

/-- **Flow control works for the pumps**, in every run in which nothing that is sent gets lost. -/
theorem flows_of_run {as : List Action} (all : Along step (fun c a => c.lossless a = true) (start S) as)
    (ran : run step (start S) as = some c) : c.Flows S where
  conserved := (sound_of_lossless all ran).linked.conserved
  balance _ _ _ _ _ between sane := (sound_of_lossless all ran).balance between sane
  awake _ _ _ _ _ between parked idle := (sound_of_lossless all ran).awake between parked idle
  uncut _ _ unlimited small := (sound_of_lossless all ran).linked.not_overflows rfl unlimited small

/-- A visitor whose first bytes are more than the window lets through. -/
def tooMuch : List Action :=
  let env : Env := ⟨0, none⟩
  [.visit env [1, 2, 3] true false true, .relay 0 env .opened, .relay 0 env .announced,
    .relay 0 env (.throttled true), .relay 0 env (.start true), .relay 0 env (.resume true), .deliver .agent env]

theorem flows_of_run_tooMuch : ∃ c s, run step (start .narrow) tooMuch = some c ∧
    (c.pair.mux .server).heap ⟨1, 0⟩ = some s ∧ s.Parked ∧ c.Flows .narrow := by
  have waits : ((run step (start .narrow) tooMuch).bind fun c => (c.pair.mux .server).heap ⟨1, 0⟩) =
      some { Stream.new (Setup.narrow.config .server) with
        sendWindow := 0
        sender := some (.credit [3]) } := by decide +kernel
  obtain ⟨c, ran, found⟩ := Option.bind_eq_some_iff.mp waits
  refine ⟨c, _, ran, found, ⟨⟨[3], rfl⟩, rfl⟩, flows_of_run ?_ ran⟩
  decide +kernel

end Conduit

end Chute
