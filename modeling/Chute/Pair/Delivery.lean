import Chute.Pair.Simulation

/-!
# In-order and complete delivery

What `read` has returned at one end of a stream is a prefix of what was given to `send`
at the other, in every run: with any callers, resets, closes and losses. The ledgers
hold both sequences.
-/
namespace Chute

namespace Pair

/-- What the reader of a stream was given, beside what was sent to it. -/
structure Delivered (sent got : Ledger) : Prop where
  /-- In order, without loss, duplicate or foreign byte, unless something was sent after
  a call that failed. -/
  part : sent.clean = true → got.taken.flatten <+: sent.passed.flatten
  /-- A reader that saw the end after an EOF frame has everything that was sent before
  the EOF, unless a call had failed before it. -/
  whole : got.byEof = true → got.told = true → ∃ given failed, sent.mark = some (given, failed) ∧
    (failed = false → got.taken.flatten = given.flatten)

theorem Linked.delivered {S : Setup} {mode : Lane.Mode} {p : Pair} (linked : p.Linked S mode)
    (x : Side) (sid : StreamId) :
    Delivered (p.ledger x ⟨sid, 0⟩) (p.ledger x.other ⟨sid, 0⟩) where
  part := Lane.taken_prefix (linked.lanes x sid)
  whole := by
    intro fin told
    obtain ⟨given, failed, mark⟩ := Lane.mark_of_fin (linked.lanes x sid) fin
    refine ⟨given, failed, mark, ?_⟩
    rintro rfl
    exact Lane.taken_complete (linked.lanes x sid) given mark fin told

/-- **Exact in-order delivery**, for every stream and direction, in every state of every
run. -/
theorem delivered_of_run {S : Setup} {as : List Action} {p : Pair}
    (ran : Transition.run Pair.step (new S) as = some p) (x : Side) (sid : StreamId) :
    Delivered (p.ledger x ⟨sid, 0⟩) (p.ledger x.other ⟨sid, 0⟩) :=
  (linked_of_run ran).delivered x sid

/-- The server sends two bytes and the end of its direction; the agent reads both. -/
def message : List Action :=
  let env : Env := ⟨0, none⟩
  [.act .server env (.openStream true), .act .server env (.openReturn ⟨1, 0⟩),
    .act .server env (.send ⟨1, 0⟩ [7, 8] true), .act .server env (.sendResume ⟨1, 0⟩ true),
    .act .server env (.sendEof ⟨1, 0⟩ true), .deliver .agent env, .deliver .agent env,
    .deliver .agent env, .act .agent env (.read ⟨1, 0⟩), .act .agent env (.read ⟨1, 0⟩)]

theorem delivered_after_message :
    ∃ p, Transition.run Pair.step (new .narrow) message = some p ∧
      (p.ledger .agent ⟨1, 0⟩).byEof = true ∧ (p.ledger .agent ⟨1, 0⟩).told = true ∧
      Delivered (p.ledger .server ⟨1, 0⟩) (p.ledger .agent ⟨1, 0⟩) := by
  have told : (Transition.run Pair.step (new .narrow) message).map (fun p => p.ledger .agent ⟨1, 0⟩) =
      some ⟨[], false, true, none, [[7, 8]], [2], true, true⟩ := by decide +kernel
  obtain ⟨p, ran, after⟩ := Option.map_eq_some_iff.mp told
  exact ⟨p, ran, by rw [after], by rw [after], delivered_of_run ran .server 1⟩

end Pair

end Chute
