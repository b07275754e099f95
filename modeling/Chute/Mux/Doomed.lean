import Chute.Mux.Balance
import Chute.Mux.Listens
import Chute.Mux.Says

/-!
# Streams that are given up

An overflow ends the receive direction at once and leaves the reset of the stream to a coroutine
that it spawns. Until that one has run its stream is not closed, and it is the only such stream.
-/
namespace Chute

/-- A stream that was reset is closed, or its reset is spawned. -/
def Mux.Doomed (m : Mux) : Prop :=
  ∀ r s, m.heap r = some s → s.recv = .reset → s.closed = true ∨ Task.reset r ∈ m.tasks

theorem Mux.doomed_new (c : Config) : (Mux.new c).Doomed := by
  intro r s found
  cases found

namespace Host

section

variable {h : Host} {r : Ref} {s : Stream}

/-- Nothing that `run` leaves behind is live. -/
private theorem closed_finish (acc : h.mux.Accounted) {h' : Host} (heap : h'.mux.heap = h.mux.heap)
    (streams : h'.mux.streams = h.mux.streams) {t : Stream} (found : h'.finish.mux.heap r = some t) :
    t.closed = true := by
  rw [heap_finish, heap, streams] at found
  split at found
  · obtain ⟨s, -, rfl⟩ := Option.map_eq_some_iff.mp found
    split
    next closed => exact closed
    next live => exact Stream.closed_shut _ _
  next away =>
    cases closed : t.closed with
    | true => rfl
    | false => exact absurd ((acc.registry r).mpr ⟨t, found, closed⟩) away

/-- A reset that is spawned stays so until the stream is closed, for all that arrives. -/
private theorem reset_arrival (acc : h.mux.Accounted) {f : Option Frame} {h' : Host} (arrival : Arrival h f h')
    (spawned : Task.reset r ∈ h.mux.tasks) :
    Task.reset r ∈ h'.mux.tasks ∨ ∀ t, h'.mux.heap r = some t → t.closed = true := by
  have sends : ∀ (m : Mux) sid, Task.reset r ∈ m.tasks → Task.reset r ∈ (m.sendReset sid).tasks := by
    intro m sid inside
    rcases tasks_sendReset m sid with same | more
    · exact same ▸ inside
    · rw [more]
      exact List.mem_append_left _ inside
  cases arrival with
  | ignored why =>
    unfold ignoreFrame
    simp only
    split
    · exact .inl spawned
    · right
      intro t found
      refine closed_finish acc ?_ ?_ found
      · rfl
      · rfl
  | refused sid payload nonzero responder why => exact .inl (sends _ sid spawned)
  | overflow r' s payload registered found accepting some_data why refused =>
    exact .inl (by simp [Mux.spawn, Mux.setStream, spawned])
  | fed r' s payload registered found accepting some_data h' admitted =>
    exact .inl (by simp [Mux.setStream, admitted.mux, spawned])
  | malformed f r' same registered bad =>
    left
    have kept := tasks_resetLocalNow h r'
    unfold resetMalformed
    split
    next now reset =>
      rw [reset] at kept
      exact sends _ _ (kept ▸ spawned)
    next now reset =>
      rw [reset] at kept
      exact kept ▸ spawned
  | aborted r' payload registered =>
    left
    rw [(kept_closeLocal (h.updateMux _) r' .reset).tasks]
    exact spawned
  | _ => exact .inl spawned

/-- A reset that is spawned stays so until the stream is closed. -/
private theorem reset_step (acc : h.mux.Accounted) {a : Action} {e : Effect} (moved : h.step a = some e)
    (spawned : Task.reset r ∈ h.mux.tasks) :
    Task.reset r ∈ e.host.mux.tasks ∨ ∀ t, e.host.mux.heap r = some t → t.closed = true := by
  cases a with
  | message msg => exact reset_arrival acc (step_message acc moved).2.1 spawned
  | connectionLost =>
    simp only [Host.step] at moved
    split at moved
    · cases moved
      right
      intro t found
      exact closed_finish acc rfl rfl found
    · cases moved
  | openStream sent =>
    simp only [Host.step] at moved
    split at moved
    · cases moved
    · cases moved
      left
      unfold openStream
      simp only
      split
      · exact spawned
      · exact spawned
  | runTask task sent =>
    simp only [Host.step] at moved
    split at moved
    next inside =>
      cases moved
      by_cases own : task = .reset r
      · right
        subst own
        intro t found
        simp only [runTask, heap_reset, heap_closeLocal, if_pos] at found
        obtain ⟨s, -, rfl⟩ := Option.map_eq_some_iff.mp found
        split
        next closed => exact closed
        next live => exact Stream.closed_shut _ _
      · left
        have kept : Task.reset r ∈ h.mux.tasks.erase task := (List.mem_erase_of_ne (Ne.symm own)).mpr spawned
        cases task with
        | reset r' =>
          simp only [runTask, tasks_reset]
          exact kept
        | sendOnce sid =>
          simp only [runTask, mux_updateMux, Mux.spawn]
          exact List.mem_append_left _ kept
        | sendOnceSent sid => exact kept
    · cases moved
  | openReturn | openRaise | send | sendEof | sendResume | sendTimeout | sendRaise | read | ack | reset | close |
      goaway | rearmIdle | writeStall | closeStall =>
    left
    rw [tasks_local moved rfl (by simp)]
    exact spawned

/-- An overflow spawns the reset of its stream. -/
private theorem reset_overflow (acc : h.mux.Accounted) (found : h.mux.heap r = some s)
    (accepting : s.recv = .open_) {data : Bytes} {h' : Host} (arrival : Arrival h (some ⟨.data, r.sid, data⟩) h')
    {t : Stream} (after : h'.mux.heap r = some t) (given : t.recv = .reset) (live : t.closed = false) :
    Task.reset r ∈ h'.mux.tasks := by
  have open_ : s.closed = false := by
    cases closed : s.closed with
    | false => rfl
    | true => exact absurd accepting ((acc.tallied r s found).dead closed).2.2
  have here : h.mux.registered r.sid = some r :=
    Mux.registered_eq_some.mpr ⟨rfl, (acc.registry r).mpr ⟨s, found, open_⟩⟩
  have unmoved : h'.mux.heap r = h.mux.heap r → Task.reset r ∈ h'.mux.tasks := by
    intro same
    rw [same, found] at after
    cases after
    rw [accepting] at given
    cases given
  generalize carries : some (Frame.mk .data r.sid data) = f at arrival
  cases arrival with
  | ignored why =>
    unfold ignoreFrame at after ⊢
    simp only at after ⊢
    split at after
    next few =>
      rw [mux_updateMux, found] at after
      cases after
      rw [accepting] at given
      cases given
    next many =>
      have closed : t.closed = true := by
        refine closed_finish acc ?_ ?_ after
        · rfl
        · rfl
      rw [live] at closed
      cases closed
  | overflow r' s' payload registered there accepting' some_data why refused =>
    obtain ⟨sid, -⟩ := by simpa using carries
    rw [← sid, here] at registered
    cases registered
    simp [Mux.spawn]
  | fed r' s' payload registered there accepting' some_data h'' admitted =>
    obtain ⟨sid, -⟩ := by simpa using carries
    rw [← sid, here] at registered
    cases registered
    rw [mux_updateMux] at after
    simp only [mux_setStream, Mux.heap_setStream_self] at after
    cases after
    rw [accepting'] at given
    cases given
  | malformed f r' sid registered bad =>
    cases carries
    rcases bad with ⟨type, -⟩ | ⟨type, -⟩
    · cases type
    · cases type
  | dropped | refused | accepted | ended | granted | aborted | goaway => exact unmoved (by first | rfl | cases carries)

/-- A call that leaves its stream live leaves its receive state as it was. -/
private theorem given_calls (acc : h.mux.Accounted) (found : h.mux.heap r = some s) {a : Action} {e : Effect}
    (moved : h.step a = some e) (own : a.calls r = true) {t : Stream} (after : e.host.mux.heap r = some t)
    (live : t.closed = false) : t.recv = s.recv ∧ s.closed = false := by
  obtain ⟨t', after', answers⟩ := step_answers acc found moved
  cases after.symm.trans after'
  have shut : ∀ terminal, t = (if s.closed then s else s.shut terminal) → t.recv = s.recv ∧ s.closed = false := by
    rintro terminal rfl
    split at live
    next closed =>
      rw [closed] at live
      cases live
    next =>
      rw [Stream.closed_shut] at live
      cases live
  cases a with
  | reset r' sent =>
    obtain rfl : r' = r := by simpa [Action.calls] using own
    exact shut .reset (answers.reset sent rfl)
  | close r' =>
    obtain rfl : r' = r := by simpa [Action.calls] using own
    exact shut .eof (answers.close (.inl rfl))
  | openRaise r' =>
    obtain rfl : r' = r := by simpa [Action.calls] using own
    exact shut .eof (answers.close (.inr rfl))
  | read r' =>
    obtain rfl : r' = r := by simpa [Action.calls, Action.target] using own
    obtain ⟨c, -, -, recv, closed⟩ := answers.read rfl
    exact ⟨recv, closed ▸ live⟩
  | _ =>
    obtain ⟨-, recv, closed⟩ := answers.plain (.inl ⟨by simpa [Action.calls] using own, by simp⟩)
    exact ⟨recv, closed ▸ live⟩

private theorem given_listens (acc : h.mux.Accounted) (found : h.mux.heap r = some s) {a : Action} {e : Effect}
    (moved : h.step a = some e) (other : a.calls r = false) {t : Stream} (after : e.host.mux.heap r = some t)
    (given : t.recv = .reset) (live : t.closed = false) :
    s.recv = .reset ∧ s.closed = false ∨ Task.reset r ∈ e.host.mux.tasks := by
  obtain ⟨t', after', listens⟩ := step_listens acc found other moved
  cases after.symm.trans after'
  cases listens with
  | still queue recv closed silent => exact .inl ⟨recv ▸ given, closed ▸ live⟩
  | fed data brings accepting queue recv closed =>
    rw [recv, accepting] at given
    cases given
  | overflow data brings accepting queue recv closed =>
    right
    obtain ⟨msg, rfl, carries⟩ := brings
    have arrival := (step_message acc moved).2.1
    rw [carries] at arrival
    exact reset_overflow acc found accepting arrival after given live
  | ended brings accepting queue recv closed =>
    rw [recv] at given
    cases given
  | torn tears open_ shut =>
    rw [shut, Stream.closed_shut] at live
    cases live

/-- **What was given up is reset**, after every step. -/
theorem doomed_step (acc : h.mux.Accounted) (doomed : h.mux.Doomed) {a : Action} {e : Effect}
    (moved : h.step a = some e) : e.host.mux.Doomed := by
  intro r t after given
  cases live : t.closed with
  | true => exact .inl rfl
  | false =>
    right
    cases found : h.mux.heap r with
    | none =>
      -- a new stream is open
      rcases step_absent acc found moved with absent | ⟨new, -, -⟩
      · rw [absent] at after
        cases after
      · cases after.symm.trans new
        cases given
    | some s =>
      have before : s.recv = .reset ∧ s.closed = false ∨ Task.reset r ∈ e.host.mux.tasks := by
        cases own : a.calls r with
        | true =>
          obtain ⟨recv, closed⟩ := given_calls acc found moved own after live
          exact .inl ⟨recv ▸ given, closed⟩
        | false => exact given_listens acc found moved own after given live
      rcases before with ⟨reset, open_⟩ | spawned
      · rcases doomed r s found reset with closed | spawned
        · rw [open_] at closed
          cases closed
        · rcases reset_step acc moved spawned with kept | shut
          · exact kept
          · rw [shut t after] at live
            cases live
      · exact spawned

end

end Host

end Chute
