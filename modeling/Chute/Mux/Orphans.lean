import Chute.Mux.Says

/-!
# Streams after the connection has ended

The `finally` of `Mux.run` aborts the streams it finds. `Mux.open` does not look at
whether the loop still runs: what happens to a stream that is opened afterwards depends
on the send of its OPEN alone.
-/
namespace Chute

namespace Mux

/-- After the cleanup of `run`, every stream a caller holds is out of the registry and
its receive direction has ended. -/
def Parted (m : Mux) : Prop :=
  m.running = false → ∀ r s, m.held r = some s → m.registered r.sid ≠ some r ∧ s.recv ≠ .open_

/-- `open` raises before it allocates an id. -/
def refuses (m : Mux) : Bool :=
  m.draining || decide (m.activeStreams ≥ m.config.maxStreams) || decide (m.nextId > 0xFFFFFFFF)

/-- An `open` after the cleanup that is not refused and whose OPEN the socket takes. -/
def opensLate (m : Mux) : Action → Bool
  | .openStream sent => sent && !m.running && !m.refuses
  | _ => false

/-- After the cleanup, the streams that are left belong to `open` calls whose OPEN
will fail. -/
def Abandoned (m : Mux) : Prop :=
  m.running = false → ∀ r s, m.heap r = some s → s.closed = true ∨ (r, false) ∈ m.opening

end Mux

namespace Host

variable {h : Host} {a : Action} {e : Effect}

private theorem opening_reset (h : Host) (r : Ref) (sent : Bool) :
    (h.reset r sent).host.mux.opening = h.mux.opening := by
  have kept := (kept_closeLocal h r .reset).opening
  unfold reset resetLocalNow
  cases h.mux.heap r with
  | none => rfl
  | some s => cases closed : s.closed <;> simpa [closed] using kept

/-- A call to `open` that waits is forgotten only when it returns or raises. -/
theorem opening_step (moved : h.step a = some e) (quiet : h.mux.running = false) {x : Ref × Bool}
    (waits : x ∈ h.mux.opening) :
    x ∈ e.host.mux.opening ∨ a = .openReturn x.1 ∧ x.2 = true ∨ a = .openRaise x.1 := by
  cases a with
  | message msg => simp [Host.step, quiet] at moved
  | connectionLost => simp [Host.step, quiet] at moved
  | openStream sent =>
    rcases (step_openStream moved).2 with ⟨same, -⟩ | ⟨-, mux, -⟩
    · exact Or.inl (by rw [same]; exact waits)
    · exact Or.inl (by rw [mux]; simp [opened, waits])
  | openReturn r =>
    simp only [Host.step] at moved
    split at moved
    · cases moved
      by_cases same : x = (r, true)
      · exact Or.inr (Or.inl (by rw [same]; exact ⟨rfl, rfl⟩))
      · exact Or.inl ((List.mem_erase_of_ne same).mpr waits)
    · cases moved
  | openRaise r =>
    simp only [Host.step] at moved
    split at moved
    · cases moved
      by_cases same : x.1 = r
      · exact Or.inr (Or.inr (by rw [same]))
      · rw [(kept_closeLocal _ r .eof).opening]
        exact Or.inl (List.mem_filter.mpr ⟨waits, by simpa using same⟩)
    · cases moved
  | send r data sent =>
    obtain ⟨s, held, moved⟩ := Option.bind_eq_some_iff.mp moved
    split at moved
    · cases moved; exact Or.inl waits
    · cases moved
  | sendEof r sent =>
    obtain ⟨s, held, moved⟩ := Option.bind_eq_some_iff.mp moved
    split at moved
    · cases moved
      unfold sendEof
      split <;> exact Or.inl waits
    · cases moved
  | sendResume r sent =>
    obtain ⟨s, held, moved⟩ := Option.bind_eq_some_iff.mp moved
    unfold sendResume at moved
    repeat' split at moved
    all_goals cases moved
    all_goals exact Or.inl waits
  | sendTimeout r =>
    obtain ⟨s, held, moved⟩ := Option.bind_eq_some_iff.mp moved
    unfold sendTimeout at moved
    split at moved
    · cases moved; exact Or.inl waits
    · cases moved
  | sendRaise r =>
    obtain ⟨s, held, moved⟩ := Option.bind_eq_some_iff.mp moved
    unfold sendRaise at moved
    split at moved
    · cases moved
    · cases moved; exact Or.inl waits
  | read r =>
    obtain ⟨s, held, moved⟩ := Option.bind_eq_some_iff.mp moved
    unfold Host.read at moved
    repeat' split at moved
    all_goals cases moved
    · exact Or.inl waits
    · exact Or.inl waits
    · rw [mux_releaseBuffer]
      exact Or.inl waits
  | ack r n sent =>
    obtain ⟨s, held, rfl⟩ := Option.map_eq_some_iff.mp moved
    unfold Host.ack
    repeat' split
    all_goals exact Or.inl waits
  | reset r sent =>
    obtain ⟨s, held, rfl⟩ := Option.map_eq_some_iff.mp moved
    rw [opening_reset]
    exact Or.inl waits
  | close r =>
    obtain ⟨s, held, rfl⟩ := Option.map_eq_some_iff.mp moved
    rw [(kept_closeLocal h r .eof).opening]
    exact Or.inl waits
  | runTask t sent =>
    simp only [Host.step] at moved
    split at moved
    · cases moved
      unfold Host.runTask
      cases t with
      | reset r =>
        simp only
        rw [opening_reset]
        exact Or.inl waits
      | sendOnce sid => exact Or.inl waits
      | sendOnceSent sid => exact Or.inl waits
    · cases moved
  | goaway sent => cases moved; exact Or.inl waits
  | rearmIdle =>
    simp only [Host.step] at moved
    split at moved
    · cases moved
    · cases moved; exact Or.inl waits
  | writeStall => cases moved; exact Or.inl waits
  | closeStall => cases moved; exact Or.inl waits

/-- A failed `open` closes the stream it made. -/
theorem closed_openRaise {r : Ref} {s : Stream} (found : h.mux.heap r = some s)
    (moved : h.step (.openRaise r) = some e) :
    ∃ t, e.host.mux.heap r = some t ∧ t.closed = true := by
  simp only [Host.step] at moved
  split at moved
  · cases moved
    rw [heap_closeLocal, if_pos rfl]
    show ∃ t, (h.mux.heap r).map _ = some t ∧ _
    rw [found]
    refine ⟨_, rfl, ?_⟩
    simp only
    split
    next closed => exact closed
    · simp
  · cases moved

theorem step_openStream_refused {sent : Bool} (refuses : h.mux.refuses = true)
    (moved : h.step (.openStream sent) = some e) : e.host = h := by
  simp only [Host.step] at moved
  split at moved
  · cases moved
  · cases moved
    simp only [Mux.refuses, Bool.or_eq_true, decide_eq_true_eq, or_assoc] at refuses
    simp only [openStream, refuses, if_true]

/-- **Only an `open` after the cleanup whose OPEN is taken can leave a live stream.** -/
theorem abandoned_step (acc : h.mux.Accounted) (after : e.host.mux.Accounted)
    (left : h.mux.Abandoned) (early : h.mux.opensLate a = false) (moved : h.step a = some e) :
    e.host.mux.Abandoned := by
  intro ended r t now
  rcases rests_step acc moved with running | empty
  · have quiet : h.mux.running = false := running.symm.trans ended
    cases before : h.mux.heap r with
    | none =>
      rcases step_absent acc before moved with absent | ⟨-, gen, opens⟩
      · rw [absent] at now
        cases now
      -- a new object: `open` registered it, and it waits for an OPEN that fails
      cases opens with
      | peer msg carries => simp [Host.step, quiet] at moved
      | local_ sent id =>
        cases refuses : h.mux.refuses with
        | true =>
          rw [step_openStream_refused refuses moved, before] at now
          cases now
        | false =>
          have failing : sent = false := by simpa [Mux.opensLate, quiet, refuses] using early
          rcases (step_openStream moved).2 with ⟨same, -⟩ | ⟨-, mux, -⟩
          · rw [same, before] at now
            cases now
          · rw [mux, failing]
            obtain ⟨sid, n⟩ := r
            simp only at id gen
            simp [opened, gen, id]
    | some s =>
      obtain ⟨t', same, touch⟩ := step_touch acc before moved
      rw [now] at same
      cases same
      rcases left quiet r s before with closed | waits
      · exact Or.inl (touch.send.2.1 closed)
      · rcases opening_step moved quiet waits with still | ⟨-, taken⟩ | raised
        · exact Or.inr still
        · cases taken
        · subst raised
          obtain ⟨t', same, closed⟩ := closed_openRaise before moved
          rw [now] at same
          cases same
          exact Or.inl closed
  · -- the cleanup itself: what is not in the registry is closed
    cases closed : t.closed with
    | true => exact Or.inl rfl
    | false =>
      have entry := after.entry now closed
      rw [empty] at entry
      cases entry

end Host

namespace Mux

variable {m : Mux}

/-- The invariant of a run without late openings. -/
theorem Abandoned.step (left : m.Abandoned) (acc : m.Accounted) {x : Env × Action} {m' : Mux}
    (early : m.opensLate x.2 = false) (moved : m.step x = some m') : m'.Abandoned := by
  have after := acc.step moved
  obtain ⟨e, stepped, rfl⟩ := Option.map_eq_some_iff.mp moved
  exact Host.abandoned_step (h := m.host x.1) acc after left early stepped

/-- A stream that is handed out is not one whose `open` still waits. -/
theorem Abandoned.parted (left : m.Abandoned) (acc : m.Accounted) : m.Parted := by
  intro ended r s held
  have found := held_heap held
  have closed : s.closed = true := by
    rcases left ended r s found with closed | waits
    · exact closed
    · have any : m.opening.any (fun e => e.1 == r) = true :=
        List.any_eq_true.mpr ⟨(r, false), waits, beq_self_eq_true r⟩
      simp [Mux.held, any] at held
  refine ⟨fun registered => ?_, (acc.tallied r s found).dead closed |>.2.2⟩
  obtain ⟨-, t, there, live⟩ := acc.registered registered
  rw [found] at there
  cases there
  rw [closed] at live
  cases live

/-- One stream is opened before the connection is lost, and another afterwards whose
OPEN fails. -/
def cleanEnd : List (Env × Action) :=
  let env : Env := ⟨0, none⟩
  [(env, .openStream true), (env, .openReturn ⟨1, 0⟩), (env, .connectionLost),
    (env, .openStream false), (env, .openRaise ⟨2, 0⟩)]

/-- A peer that sends text messages until the relay aborts the transport, and a visitor
whose `open` comes before the connection-lost callback. -/
def lateOpen : List (Env × Action) :=
  List.replicate maxIgnoredFrames (⟨0, none⟩, .message (.text "x")) ++
    [(⟨0, none⟩, .openStream true), (⟨0, none⟩, .openReturn ⟨1, 0⟩)]

/-- A fresh connection of the relay that has counted `n` stray messages. -/
private def strayed (n : Nat) : Mux :=
  { Mux.new (.server .default) with
    stats := { (Mux.new (.server .default)).stats with ignoredFrames := n } }

private theorem step_strayed {n : Nat} (below : n + 1 < maxIgnoredFrames) :
    (strayed n).step (⟨0, none⟩, .message (.text "x")) = some (strayed (n + 1)) := by
  have counted : ((strayed n).host ⟨0, none⟩).ignoreFrame.mux = strayed (n + 1) := by
    unfold Host.ignoreFrame
    simp only
    split
    · rfl
    next reached => exact absurd below reached
  exact congrArg some counted

private theorem run_strayed {n k : Nat} (below : n + k < maxIgnoredFrames) :
    Transition.run step (strayed n) (List.replicate k (⟨0, none⟩, .message (.text "x"))) =
      some (strayed (n + k)) := by
  induction k generalizing n with
  | zero => rfl
  | succ k ih =>
    rw [List.replicate_succ, Transition.run, step_strayed (by omega), Option.bind_some,
      ih (by omega), Nat.add_assoc, Nat.add_comm 1 k]

end Mux

end Chute
