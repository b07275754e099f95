import Chute.Mux.Steps

/-!
# Calls that can go on

Which calls of a connection wait for something, and for what: `open` for its OPEN, `send` and
`send_eof` for the lock, a `send` with the lock for credit, and `read` for a chunk. Nothing else
waits.
-/
namespace Chute

/-- The action is part of a call of `open`. -/
def Action.opens : Action → Bool
  | .openStream _ | .openReturn _ | .openRaise _ => true
  | _ => false

/-- A call on a stream is no call of `open`. -/
theorem Action.opens_of_target {a : Action} {r : Ref} (calls : a.target = some r) : a.opens = false := by
  cases a <;> simp_all [target, opens]

namespace Host

variable {h : Host} {r : Ref} {s : Stream}

/-! ### Calls of `open` -/

theorem opens_reset (h : Host) (r : Ref) (sent : Bool) : (h.reset r sent).host.mux.opening = h.mux.opening := by
  have kept := (kept_closeLocal h r .reset).opening
  unfold reset resetLocalNow
  cases h.mux.heap r with
  | none => rfl
  | some s =>
    simp only
    cases s.closed
    · exact kept
    · exact kept

theorem opens_finish (h : Host) : h.finish.mux.opening = h.mux.opening := by
  have fold : ∀ (entries : List (Sigma fun _ : StreamId => Nat)) (g : Host),
      (entries.foldl (fun h e => h.closeLocal ⟨e.1, e.2⟩ .reset) g).mux.opening = g.mux.opening := by
    intro entries
    induction entries with
    | nil =>
      intro g
      rfl
    | cons e entries ih =>
      intro g
      exact (ih _).trans (kept_closeLocal g ⟨e.1, e.2⟩ .reset).opening
  unfold finish
  exact fold _ h

private theorem opens_sendReset (m : Mux) (sid : StreamId) : (m.sendReset sid).opening = m.opening := by
  unfold Mux.sendReset
  split
  · rfl
  · split
    · rfl
    · rfl

private theorem opens_arrival {f : Option Frame} {h' : Host} (arrival : Arrival h f h') :
    h'.mux.opening = h.mux.opening := by
  cases arrival with
  | ignored why =>
    unfold ignoreFrame
    simp only
    split
    · rfl
    · rw [opens_finish]
      rfl
  | refused sid payload nonzero responder why => exact opens_sendReset _ _
  | fed r s payload registered found accepting some_data h' admitted => simp [Mux.setStream, admitted.mux]
  | malformed f r sid registered bad =>
    have kept : (h.resetLocalNow r).1.mux.opening = h.mux.opening := by
      have closed := (kept_closeLocal h r .reset).opening
      unfold resetLocalNow
      cases h.mux.heap r with
      | none => rfl
      | some s =>
        simp only
        cases s.closed
        · exact closed
        · exact closed
    unfold resetMalformed
    split
    next now reset =>
      rw [reset] at kept
      exact (opens_sendReset _ _).trans kept
    next now reset =>
      rw [reset] at kept
      exact kept
  | aborted r payload registered => exact (kept_closeLocal _ r .reset).opening
  | _ => rfl

/-- Only `open` itself changes which of its calls are under way. -/
theorem opens_step (acc : h.mux.Accounted) {a : Action} {e : Effect} (moved : h.step a = some e)
    (other : a.opens = false) :
    e.host.mux.opening = h.mux.opening := by
  cases a with
  | message msg => exact opens_arrival (step_message acc moved).2.1
  | connectionLost =>
    simp only [Host.step] at moved
    split at moved
    · cases moved
      exact opens_finish h
    · cases moved
  | openStream | openReturn | openRaise => cases other
  | send r data sent =>
    obtain ⟨s, -, moved⟩ := Option.bind_eq_some_iff.mp moved
    split at moved
    · cases moved
      rfl
    · cases moved
  | sendEof r sent =>
    obtain ⟨s, -, moved⟩ := Option.bind_eq_some_iff.mp moved
    split at moved
    · cases moved
      unfold sendEof
      split
      · rfl
      · rfl
    · cases moved
  | sendResume r sent =>
    obtain ⟨s, -, moved⟩ := Option.bind_eq_some_iff.mp moved
    unfold sendResume at moved
    repeat' split at moved
    all_goals cases moved
    all_goals rfl
  | sendTimeout r =>
    obtain ⟨s, -, moved⟩ := Option.bind_eq_some_iff.mp moved
    unfold sendTimeout at moved
    split at moved
    · cases moved
      rfl
    · cases moved
  | sendRaise r =>
    obtain ⟨s, -, moved⟩ := Option.bind_eq_some_iff.mp moved
    unfold sendRaise at moved
    split at moved
    · cases moved
    · cases moved
      rfl
  | read r =>
    obtain ⟨s, -, moved⟩ := Option.bind_eq_some_iff.mp moved
    unfold Host.read at moved
    repeat' split at moved
    all_goals cases moved
    · rfl
    · rfl
    · rw [mux_releaseBuffer]
      rfl
  | ack r n sent =>
    obtain ⟨s, -, rfl⟩ := Option.map_eq_some_iff.mp moved
    unfold Host.ack
    repeat' split
    all_goals rfl
  | reset r sent =>
    obtain ⟨s, -, rfl⟩ := Option.map_eq_some_iff.mp moved
    exact opens_reset h r sent
  | close r =>
    obtain ⟨s, -, rfl⟩ := Option.map_eq_some_iff.mp moved
    exact (kept_closeLocal h r .eof).opening
  | runTask t sent =>
    simp only [Host.step] at moved
    split at moved
    · cases moved
      cases t with
      | reset r => exact opens_reset _ r sent
      | sendOnce sid => rfl
      | sendOnceSent sid => rfl
    · cases moved
  | goaway | writeStall | closeStall =>
    cases moved
    rfl
  | rearmIdle =>
    simp only [Host.step] at moved
    split at moved
    · cases moved
    · cases moved
      rfl

theorem opens_openStream {sent : Bool} {e : Effect} (moved : h.step (.openStream sent) = some e) :
    e.result = .raised ∧ e.host = h ∨ e.result = .suspended ∧ e.host.mux.opening =
      h.mux.opening ++ [(⟨UInt32.ofNat h.mux.nextId, h.mux.made (UInt32.ofNat h.mux.nextId)⟩, sent)] := by
  simp only [Host.step] at moved
  split at moved
  · cases moved
  · cases moved
    unfold openStream
    simp only
    split
    · exact .inl ⟨rfl, rfl⟩
    · exact .inr ⟨rfl, rfl⟩

/-- When a call of `open` comes to its end, the calls of the others go on. -/
theorem opens_close {a : Action} {e : Effect} (moved : h.step a = some e) (ends : a = .openReturn r ∨ a = .openRaise r)
    (once : (h.mux.opening.map Prod.fst).Nodup) :
    e.host.mux.opening.Sublist h.mux.opening ∧ ∀ entry ∈ e.host.mux.opening, entry.1 ≠ r := by
  rcases ends with rfl | rfl
  · simp only [Host.step] at moved
    split at moved
    next ready =>
      cases moved
      refine ⟨List.erase_sublist, ?_⟩
      rintro entry member rfl
      obtain ⟨other, before⟩ := (List.Nodup.mem_erase_iff (List.Nodup.of_map _ once)).mp member
      exact other (List.inj_on_of_nodup_map once before ready rfl)
    · cases moved
  · simp only [Host.step] at moved
    split at moved
    · cases moved
      have same : ((h.updateMux fun m => { m with opening := m.opening.filter fun e => e.1 != r }).closeLocal r
          .eof).mux.opening = h.mux.opening.filter fun e => e.1 != r := (kept_closeLocal _ r .eof).opening
      simp only
      rw [same]
      refine ⟨List.filter_sublist, fun entry member => ?_⟩
      simpa using (List.mem_filter.mp member).2
    · cases moved

/-! ### Calls on a stream -/

/-- A coroutine that holds the stream can send on it when nobody else does. -/
theorem ready_send (held : h.mux.held r = some s) (free : s.sender = none) (data : Bytes) (sent : Bool) :
    ∃ e, h.step (.send r data sent) = some e :=
  ⟨h.afterSend r sent (s.sendStart data sent), by simp [Host.step, held, free]⟩

theorem ready_sendEof (held : h.mux.held r = some s) (free : s.sender = none) (sent : Bool) :
    ∃ e, h.step (.sendEof r sent) = some e := ⟨h.sendEof r s sent, by simp [Host.step, held, free]⟩

theorem ready_read (held : h.mux.held r = some s) (waiting : s.incoming ≠ []) : ∃ e, h.step (.read r) = some e := by
  cases queue : s.incoming with
  | nil => exact absurd queue waiting
  | cons c rest =>
    have some_chunk : (h.read r s).isSome = true := by
      unfold Host.read
      rw [queue]
      cases c with
      | none => rfl
      | some chunk =>
        simp only
        split
        · rfl
        · rfl
    obtain ⟨e, took⟩ := Option.isSome_iff_exists.mp some_chunk
    exact ⟨e, by simp [Host.step, held, took]⟩

theorem ready_ack (held : h.mux.held r = some s) (n : Nat) (sent : Bool) :
    ∃ e, h.step (.ack r n sent) = some e := ⟨h.ack r s n sent, by simp [Host.step, held]⟩

/-- A call that has the lock waits for credit, or for a frame that never gets onto the connection. -/
theorem ready_sendResume (held : h.mux.held r = some s) (busy : s.sender ≠ none)
    (data : ∀ view ok, s.sender = some (.data view ok) → ok = true)
    (eof : ∀ ok, s.sender = some (.eof ok) → ok = true)
    (awake : ∀ view, s.sender = some (.credit view) → s.windowWaiter = true) (sent : Bool) :
    ∃ e, h.step (.sendResume r sent) = some e := by
  cases sender : s.sender with
  | none => exact absurd sender busy
  | some call =>
    cases call with
    | credit view =>
      have wake := awake view sender
      exact ⟨_, by simp only [Host.step, held, Option.bind_some, sendResume, sender, wake, if_true]; rfl⟩
    | data view ok =>
      cases data view ok sender
      exact ⟨_, by simp only [Host.step, held, Option.bind_some, sendResume, sender]; rfl⟩
    | eof ok =>
      cases eof ok sender
      exact ⟨_, by simp only [Host.step, held, Option.bind_some, sendResume, sender]; rfl⟩

end Host

end Chute
