import Chute.Lib.Registry
import Chute.Lib.Transition
import Chute.Mux.Teardown

/-!
# Buffer and registry accounting

Four counters at three levels describe the unread data of a connection: two on
the stream, two on the multiplexer, and the booking of its account. `Booked` says
that they agree with the queues and with each other, and every step of
`Host.step`, whatever the peer sends, keeps it.
-/
namespace Chute

/-- The receive counters of a stream agree with its queue and respect the caps. -/
structure Stream.Tallied (c : Config) (s : Stream) : Prop where
  live : s.closed = false → s.recvBuffered = s.queuedBytes ∧ s.recvFrames = s.chunks.length
  dead : s.closed = true → s.recvBuffered = 0 ∧ s.recvFrames = 0 ∧ s.recv ≠ .open_
  bytes : s.recvBuffered ≤ c.streamHardMax
  frames : s.recvFrames ≤ c.maxQueuedFrames
  window : 0 ≤ s.sendWindow ∧ s.sendWindow ≤ maxSendWindow

namespace Mux

/-- A quantity of a stream object, 0 where there is none. -/
def valueOf (m : Mux) (f : Stream → Int) (sid : StreamId) (gen : Nat) : Int :=
  (m.heap ⟨sid, gen⟩).elim 0 f

structure Accounted (m : Mux) : Prop where
  /-- The registry holds exactly the streams that are not closed. -/
  registry : ∀ r, m.streams.lookup r.sid = some r.gen ↔
    ∃ s, m.heap r = some s ∧ s.closed = false
  fresh : ∀ r s, m.heap r = some s → r.gen < m.made r.sid ∧ r.sid ≠ 0
  ids : m.config.acceptsOpen = false → ∀ sid, 0 < m.made sid → sid.toNat < m.nextId
  nextId_pos : 1 ≤ m.nextId
  tallied : ∀ r s, m.heap r = some s → s.Tallied m.config
  buffered : m.buffered = m.streams.sumBy (m.valueOf Stream.recvBuffered)
  frames : m.frames = m.streams.sumBy (m.valueOf Stream.recvFrames)
  buffered_le : m.buffered ≤ maxConnBuffered
  frames_le : m.frames ≤ maxConnFrames
  streams_le : m.activeStreams ≤ m.config.maxStreams

/-- The part of the account's booking that stems from this connection. -/
def booked (m : Mux) : Int := if m.config.budgeted then m.buffered else 0

end Mux

theorem Stream.Tallied.counters_nonneg {c : Config} {s : Stream} (tallied : s.Tallied c) :
    0 ≤ s.recvBuffered ∧ 0 ≤ s.recvFrames := by
  cases closed : s.closed with
  | true =>
    have := tallied.dead closed
    omega
  | false =>
    have := tallied.live closed
    omega

theorem Stream.tallied_new (c : Config) : (Stream.new c).Tallied c := by
  have small := c.flowWindow.le_max
  refine ⟨fun _ => ⟨rfl, rfl⟩, by simp [Stream.new], by simp [Stream.new], by simp [Stream.new], ?_⟩
  simp only [Stream.new, Config.window, maxSendWindow]
  simp only [maxFlowWindow] at small
  omega

/-- Ending the receive direction leaves the counters alone. -/
theorem Stream.Tallied.endRecv {c : Config} {s : Stream} (tallied : s.Tallied c) {t : RecvState}
    (past : t ≠ .open_) : (s.endRecv t).Tallied c := by
  obtain ⟨live, dead, bytes, frames, window⟩ := tallied
  refine ⟨?_, ?_, by simpa using bytes, by simpa using frames, by simpa using window⟩
  · simpa [Stream.queuedBytes] using live
  · intro closed
    have := dead (by simpa using closed)
    refine ⟨by simpa using this.1, by simpa using this.2.1, ?_⟩
    rw [Stream.recv_endRecv]
    split
    · exact past
    · assumption

theorem Stream.Tallied.shut {c : Config} {s : Stream} (tallied : s.Tallied c) {t : RecvState}
    (past : t ≠ .open_) : (s.shut t).Tallied c := by
  refine ⟨by simp, fun _ => ⟨by simp [Stream.shut], by simp [Stream.shut], ?_⟩, by simp [Stream.shut],
    by simp [Stream.shut], by simpa [Stream.shut] using tallied.window⟩
  simp only [Stream.shut, Stream.recv_endRecv]
  split
  · exact past
  · assumption

namespace Mux

/-- A sum over the registry when one registered stream changes. -/
theorem sumBy_setStream {m m' : Mux} {r : Ref} {s s' : Stream} (f : Stream → Int)
    (entry : m.streams.lookup r.sid = some r.gen) (found : m.heap r = some s)
    (heap : m'.heap = Function.update m.heap r (some s')) :
    m.streams.sumBy (m'.valueOf f) = m.streams.sumBy (m.valueOf f) + (f s' - f s) := by
  have now : m'.valueOf f r.sid r.gen = f s' := by simp [valueOf, heap]
  have before : m.valueOf f r.sid r.gen = f s := by simp [valueOf, found]
  rw [AList.sumBy_update (f := m.valueOf f) (g := m'.valueOf f) entry, now, before]
  intro sid gen ne _
  have apart : (⟨sid, gen⟩ : Ref) ≠ r := by
    rintro rfl
    exact ne rfl
  simp [valueOf, heap, apart]

/-- A sum over entries other than the changed stream. -/
theorem sumBy_setStream_of_absent {m m' : Mux} {r : Ref} {s' : Stream} (f : Stream → Int)
    (streams : AList fun _ : StreamId => Nat) (absent : streams.lookup r.sid ≠ some r.gen)
    (heap : m'.heap = Function.update m.heap r (some s')) :
    streams.sumBy (m'.valueOf f) = streams.sumBy (m.valueOf f) := by
  apply AList.sumBy_congr
  intro sid gen entry
  have apart : (⟨sid, gen⟩ : Ref) ≠ r := by
    rintro rfl
    exact absent entry
  simp [valueOf, heap, apart]

/-- Fields the books do not depend on may change. -/
theorem Accounted.congr {m m' : Mux} (acc : m.Accounted) (config : m'.config = m.config)
    (heap : m'.heap = m.heap) (made : m'.made = m.made) (streams : m'.streams = m.streams)
    (nextId : m'.nextId = m.nextId) (buffered : m'.buffered = m.buffered)
    (frames : m'.frames = m.frames) : m'.Accounted := by
  have same : ∀ f, m'.valueOf f = m.valueOf f := fun f => by
    funext sid gen
    simp [valueOf, heap]
  constructor
  · rw [heap, streams]; exact acc.registry
  · rw [heap, made]; exact acc.fresh
  · rw [config, made, nextId]; exact acc.ids
  · rw [nextId]; exact acc.nextId_pos
  · rw [heap, config]; exact acc.tallied
  · rw [buffered, streams, same]; exact acc.buffered
  · rw [frames, streams, same]; exact acc.frames
  · rw [buffered]; exact acc.buffered_le
  · rw [frames]; exact acc.frames_le
  · rw [activeStreams, streams, config]; exact acc.streams_le

/-- A live stream is registered. -/
theorem Accounted.entry {m : Mux} (acc : m.Accounted) {r : Ref} {s : Stream}
    (found : m.heap r = some s) (live : s.closed = false) :
    m.streams.lookup r.sid = some r.gen :=
  (acc.registry r).mpr ⟨s, found, live⟩

/-- What the registry leads to exists and is live. -/
theorem Accounted.registered {m : Mux} (acc : m.Accounted) {sid : StreamId} {r : Ref}
    (found : m.registered sid = some r) :
    r.sid = sid ∧ ∃ s, m.heap r = some s ∧ s.closed = false := by
  obtain ⟨rfl, entry⟩ := registered_eq_some.mp found
  exact ⟨rfl, (acc.registry r).mp entry⟩

/-- Replacing a stream object by one with the same receive books. -/
theorem Accounted.setStream {m : Mux} (acc : m.Accounted) {r : Ref} {s s' : Stream}
    (found : m.heap r = some s) (closed : s'.closed = s.closed)
    (bytes : s'.recvBuffered = s.recvBuffered) (frames : s'.recvFrames = s.recvFrames)
    (tallied : s'.Tallied m.config) : (m.setStream r s').Accounted := by
  have same : ∀ f : Stream → Int, f s' = f s →
      m.streams.sumBy ((m.setStream r s').valueOf f) = m.streams.sumBy (m.valueOf f) := by
    intro f equal
    by_cases entry : m.streams.lookup r.sid = some r.gen
    · rw [sumBy_setStream f entry found rfl, equal]; omega
    · exact sumBy_setStream_of_absent f _ entry rfl
  refine ⟨?_, ?_, acc.ids, acc.nextId_pos, ?_, ?_, ?_, acc.buffered_le, acc.frames_le, acc.streams_le⟩
  · intro r'
    rw [show (m.setStream r s').streams = m.streams from rfl, acc.registry r']
    by_cases same : r' = r
    · subst same
      simp [found, closed]
    · rw [heap_setStream_ne m s' same]
  · intro r' s'' found'
    by_cases same : r' = r
    · subst same
      exact acc.fresh r' s found
    · rw [heap_setStream_ne m s' same] at found'
      exact acc.fresh r' s'' found'
  · intro r' s'' found'
    by_cases same : r' = r
    · subst same
      rw [heap_setStream_self] at found'
      cases found'
      exact tallied
    · rw [heap_setStream_ne m s' same] at found'
      exact acc.tallied r' s'' found'
  · rw [show (m.setStream r s').buffered = m.buffered from rfl,
      show (m.setStream r s').streams = m.streams from rfl, same _ bytes]
    exact acc.buffered
  · rw [show (m.setStream r s').frames = m.frames from rfl,
      show (m.setStream r s').streams = m.streams from rfl, same _ frames]
    exact acc.frames

theorem Accounted.over_nonneg {m : Mux} (acc : m.Accounted) (sid : StreamId) (gen : Nat) :
    0 ≤ m.valueOf Stream.recvBuffered sid gen ∧ 0 ≤ m.valueOf Stream.recvFrames sid gen := by
  unfold valueOf
  cases found : m.heap ⟨sid, gen⟩ with
  | none => simp
  | some s => exact (acc.tallied _ s found).counters_nonneg

theorem Accounted.totals_nonneg {m : Mux} (acc : m.Accounted) : 0 ≤ m.buffered ∧ 0 ≤ m.frames := by
  rw [acc.buffered, acc.frames]
  constructor
  · apply List.sum_nonneg
    intro x member
    obtain ⟨e, -, rfl⟩ := List.mem_map.mp member
    exact (acc.over_nonneg e.1 e.2).1
  · apply List.sum_nonneg
    intro x member
    obtain ⟨e, -, rfl⟩ := List.mem_map.mp member
    exact (acc.over_nonneg e.1 e.2).2

/-- The connection's counters bound those of each of its streams. -/
theorem Accounted.le_totals {m : Mux} (acc : m.Accounted) {r : Ref} {s : Stream}
    (found : m.heap r = some s) :
    s.recvBuffered ≤ m.buffered ∧ s.recvFrames ≤ m.frames ∧ 0 ≤ m.buffered ∧ 0 ≤ m.frames := by
  have totals := acc.totals_nonneg
  cases closed : s.closed with
  | true =>
    have zero := (acc.tallied r s found).dead closed
    omega
  | false =>
    have entry := acc.entry found closed
    have here := AList.le_sumBy (f := m.valueOf Stream.recvBuffered)
      (fun a b _ => (acc.over_nonneg a b).1) entry
    have here' := AList.le_sumBy (f := m.valueOf Stream.recvFrames)
      (fun a b _ => (acc.over_nonneg a b).2) entry
    simp only [valueOf, found, Option.elim_some] at here here'
    rw [← acc.buffered] at here
    rw [← acc.frames] at here'
    exact ⟨here, here', totals⟩

/-- Shutting a live stream takes its share out of the books. -/
theorem Accounted.shut {m : Mux} (acc : m.Accounted) {r : Ref} {s : Stream} {t : RecvState}
    (found : m.heap r = some s) (live : s.closed = false) (past : t ≠ .open_) :
    ({ m with
        heap := Function.update m.heap r (some (s.shut t))
        streams := m.streams.erase r.sid
        buffered := m.buffered - s.recvBuffered
        frames := m.frames - s.recvFrames
        idle := m.idle || (m.streams.erase r.sid).entries.isEmpty } : Mux).Accounted := by
  have entry := acc.entry found live
  have gone : (m.streams.erase r.sid).lookup r.sid ≠ some r.gen := by simp
  have sums : ∀ f : Stream → Int, ∀ m' : Mux,
      m'.heap = Function.update m.heap r (some (s.shut t)) →
      (m.streams.erase r.sid).sumBy (m'.valueOf f) = m.streams.sumBy (m.valueOf f) - f s := by
    intro f m' heap
    rw [sumBy_setStream_of_absent f _ gone heap, AList.sumBy_erase (m.valueOf f) entry]
    simp [Mux.valueOf, found]
  have totals := acc.le_totals found
  have counters := (acc.tallied r s found).counters_nonneg
  refine ⟨?_, ?_, acc.ids, acc.nextId_pos, ?_, ?_, ?_, ?_, ?_, ?_⟩
  · intro r'
    by_cases same : r' = r
    · subst same
      simp
    · simp only [Function.update_of_ne same, ← acc.registry r']
      by_cases sid : r'.sid = r.sid
      · -- another object under the id of the registered one is closed already
        rw [sid, AList.lookup_erase, entry]
        simp only [reduceCtorEq, Option.some.injEq, false_iff]
        intro gen
        exact same (by cases r; cases r'; simp_all)
      · rw [AList.lookup_erase_ne sid]
  · intro r' s' found'
    by_cases same : r' = r
    · subst same
      exact acc.fresh r' s found
    · exact acc.fresh r' s' (by simpa [same] using found')
  · intro r' s' found'
    by_cases same : r' = r
    · subst same
      have shut : s' = s.shut t := by simpa using found'.symm
      subst shut
      exact (acc.tallied r' s found).shut past
    · exact acc.tallied r' s' (by simpa [same] using found')
  · rw [sums Stream.recvBuffered _ rfl, ← acc.buffered]
  · rw [sums Stream.recvFrames _ rfl, ← acc.frames]
  · have := acc.buffered_le
    simp only; omega
  · have := acc.frames_le
    simp only; omega
  · exact (AList.length_erase_le _ _).trans acc.streams_le

/-- Adding a fresh stream changes no total. -/
theorem Accounted.register {m : Mux} (acc : m.Accounted) {sid : StreamId} (new : sid ∉ m.streams)
    (room : m.activeStreams < m.config.maxStreams) (nonzero : sid ≠ 0) (nextId : Nat)
    (below : m.config.acceptsOpen = false → sid.toNat < nextId) (grows : m.nextId ≤ nextId)
    (opening : List (Ref × Bool)) (stats : Stats) :
    ({ m.register sid with nextId := nextId, opening := opening, stats := stats } : Mux).Accounted := by
  have empty : m.heap ⟨sid, m.made sid⟩ = none := by
    by_contra found
    obtain ⟨s, found⟩ := Option.ne_none_iff_exists'.mp found
    exact lt_irrefl _ (acc.fresh _ s found).1
  have absent : m.streams.lookup sid ≠ some (m.made sid) := by
    rw [AList.lookup_eq_none.mpr new]
    simp
  have sums : ∀ f : Stream → Int, f (Stream.new m.config) = 0 → ∀ m' : Mux,
      m'.heap = Function.update m.heap ⟨sid, m.made sid⟩ (some (Stream.new m.config)) →
      (m.streams.insert sid (m.made sid)).sumBy (m'.valueOf f) = m.streams.sumBy (m.valueOf f) := by
    intro f zero m' heap
    rw [AList.sumBy_insert _ _ new,
      sumBy_setStream_of_absent (r := ⟨sid, m.made sid⟩) f _ absent heap]
    simp [valueOf, heap, zero]
  refine ⟨?_, ?_, ?_, by have := acc.nextId_pos; simp only; omega, ?_, ?_, ?_, acc.buffered_le,
    acc.frames_le, ?_⟩
  · intro r
    simp only [Mux.register, Mux.setStream]
    by_cases same : r = ⟨sid, m.made sid⟩
    · subst same
      simp [Stream.new]
    · rw [Function.update_of_ne same, ← acc.registry r]
      by_cases here : r.sid = sid
      · have fresh : r.gen ≠ m.made sid := fun gen => same (by cases r; simp_all)
        rw [here, AList.lookup_insert, AList.lookup_eq_none.mpr new]
        simp only [Option.some.injEq, reduceCtorEq, iff_false]
        exact fun gen => fresh gen.symm
      · rw [AList.lookup_insert_ne here]
  · intro r s found
    simp only [Mux.register, Mux.setStream] at found ⊢
    by_cases same : r = ⟨sid, m.made sid⟩
    · subst same
      simp [nonzero]
    · rw [Function.update_of_ne same] at found
      have old := acc.fresh r s found
      refine ⟨?_, old.2⟩
      by_cases here : r.sid = sid
      · subst here
        simp only [Function.update_self]
        omega
      · simpa [here] using old.1
  · intro server sid' made
    simp only [Mux.register, Mux.setStream] at made ⊢
    by_cases here : sid' = sid
    · subst here
      exact below server
    · rw [Function.update_of_ne here] at made
      exact (acc.ids server sid' made).trans_le grows
  · intro r s found
    simp only [Mux.register, Mux.setStream] at found ⊢
    by_cases same : r = ⟨sid, m.made sid⟩
    · subst same
      rw [Function.update_self] at found
      cases found
      exact Stream.tallied_new m.config
    · rw [Function.update_of_ne same] at found
      exact acc.tallied r s found
  · exact acc.buffered.trans (sums Stream.recvBuffered rfl _ rfl).symm
  · exact acc.frames.trans (sums Stream.recvFrames rfl _ rfl).symm
  · show (m.streams.insert sid (m.made sid)).entries.length ≤ m.config.maxStreams
    rw [AList.length_insert _ new]
    exact room

/-- Changing the receive counters of a registered stream and of the connection by the
same amounts. -/
theorem Accounted.move {m : Mux} (acc : m.Accounted) {r : Ref} {s t : Stream}
    (found : m.heap r = some s) (live : s.closed = false) (live' : t.closed = false)
    (tallied : t.Tallied m.config) (buffered frames : Int)
    (bytes : buffered = m.buffered + (t.recvBuffered - s.recvBuffered))
    (count : frames = m.frames + (t.recvFrames - s.recvFrames))
    (bytes_le : buffered ≤ maxConnBuffered) (frames_le : frames ≤ maxConnFrames) :
    ({ m.setStream r t with buffered := buffered, frames := frames } : Mux).Accounted := by
  have entry := acc.entry found live
  refine ⟨?_, ?_, acc.ids, acc.nextId_pos, ?_, ?_, ?_, bytes_le, frames_le, acc.streams_le⟩
  · intro r'
    simp only [Mux.setStream]
    rw [acc.registry r']
    by_cases same : r' = r
    · subst same
      simp [found, live, live']
    · rw [Function.update_of_ne same]
  · intro r' u found'
    simp only [Mux.setStream] at found' ⊢
    by_cases same : r' = r
    · subst same
      exact acc.fresh r' s found
    · rw [Function.update_of_ne same] at found'
      exact acc.fresh r' u found'
  · intro r' u found'
    simp only [Mux.setStream] at found' ⊢
    by_cases same : r' = r
    · subst same
      rw [Function.update_self] at found'
      cases found'
      exact tallied
    · rw [Function.update_of_ne same] at found'
      exact acc.tallied r' u found'
  · rw [bytes, acc.buffered]
    exact (sumBy_setStream Stream.recvBuffered entry found rfl).symm
  · rw [count, acc.frames]
    exact (sumBy_setStream Stream.recvFrames entry found rfl).symm

end Mux

/-! ### Bookings

`rest` is what the account owes to its other connections; it stays fixed while
this one moves. -/

structure Host.Booked (h : Host) (rest : Int) : Prop where
  mux : h.mux.Accounted
  account : h.account.buffered = h.mux.booked + rest
  rest_nonneg : 0 ≤ rest

namespace Host

theorem Booked.congr {h h' : Host} {rest : Int} (booked : h.Booked rest)
    (account : h'.account = h.account) (config : h'.mux.config = h.mux.config)
    (heap : h'.mux.heap = h.mux.heap) (made : h'.mux.made = h.mux.made)
    (streams : h'.mux.streams = h.mux.streams) (nextId : h'.mux.nextId = h.mux.nextId)
    (buffered : h'.mux.buffered = h.mux.buffered) (frames : h'.mux.frames = h.mux.frames) :
    h'.Booked rest := by
  refine ⟨booked.mux.congr config heap made streams nextId buffered frames, ?_, booked.rest_nonneg⟩
  rw [account, booked.account, Mux.booked, Mux.booked, config, buffered]

theorem Booked.setStream {h : Host} {rest : Int} (booked : h.Booked rest) {r : Ref} {s t : Stream}
    (found : h.mux.heap r = some s) (closed : t.closed = s.closed)
    (bytes : t.recvBuffered = s.recvBuffered) (frames : t.recvFrames = s.recvFrames)
    (tallied : t.Tallied h.mux.config) : (h.setStream r t).Booked rest :=
  ⟨booked.mux.setStream found closed bytes frames tallied, booked.account, booked.rest_nonneg⟩

/-- Releasing what was booked takes it off. -/
theorem account_releaseBuffer {h : Host} {n : Int} (budgeted : h.mux.config.budgeted = true)
    (nonneg : 0 ≤ n) (le : n ≤ h.account.buffered) :
    (h.releaseBuffer n).account.buffered = h.account.buffered - n := by
  unfold releaseBuffer
  split
  next none =>
    have zero : n = 0 := by
      rcases none with small | unbudgeted
      · omega
      · simp [budgeted] at unbudgeted
    simp [zero]
  · unfold Account.release
    split <;> simp only
    omega

theorem account_releaseBuffer_of_unbudgeted {h : Host} {n : Int}
    (budgeted : h.mux.config.budgeted = false) : (h.releaseBuffer n).account = h.account := by
  simp [releaseBuffer, budgeted]

theorem Booked.closeLocal {h : Host} {rest : Int} (booked : h.Booked rest) (r : Ref) {t : RecvState}
    (past : t ≠ .open_) : (h.closeLocal r t).Booked rest := by
  cases found : h.mux.heap r with
  | none => rw [closeLocal_none found]; exact booked
  | some s =>
    cases closed : s.closed with
    | true => rw [closeLocal_closed found closed]; exact booked
    | false =>
      rw [closeLocal_live found closed]
      refine ⟨booked.mux.shut found closed past, ?_, booked.rest_nonneg⟩
      have share := booked.account
      have totals := booked.mux.le_totals found
      have counters := (booked.mux.tallied r s found).counters_nonneg
      simp only [Mux.booked] at share ⊢
      cases budgeted : h.mux.config.budgeted with
      | true =>
        rw [budgeted, if_pos rfl] at share
        have rest_nonneg := booked.rest_nonneg
        rw [account_releaseBuffer budgeted counters.1 (by omega), if_pos rfl]
        omega
      | false =>
        rw [budgeted, if_neg Bool.false_ne_true] at share
        rw [account_releaseBuffer_of_unbudgeted budgeted, share, if_neg Bool.false_ne_true]

theorem Booked.abortAll {h : Host} {rest : Int} (booked : h.Booked rest)
    (entries : List (Sigma fun _ : StreamId => Nat)) : (h.abortAll entries).Booked rest := by
  induction entries generalizing h with
  | nil => exact booked
  | cons e entries ih =>
    rw [abortAll_cons]
    exact ih (booked.closeLocal _ (by decide))

/-- Once the loop of the `finally` is through, the registry is empty by itself. -/
theorem streams_abortAll {h : Host} {rest : Int} (booked : h.Booked rest) :
    (h.abortAll h.mux.streams.entries).mux.streams = ∅ := by
  have acc := (booked.abortAll h.mux.streams.entries).mux
  apply AList.ext
  rw [AList.empty_entries, List.eq_nil_iff_forall_not_mem]
  rintro ⟨sid, gen⟩ member
  obtain ⟨s, found, live⟩ := (acc.registry ⟨sid, gen⟩).mp (AList.mem_entries_iff.mp member)
  rw [heap_abortAll] at found
  split at found
  · obtain ⟨old, _, rfl⟩ := Option.map_eq_some_iff.mp found
    by_cases closed : old.closed = true <;> simp [closed] at live
  next absent =>
    exact absent (AList.mem_entries_iff.mpr ((booked.mux.registry _).mpr ⟨s, found, live⟩))

theorem Booked.finish {h : Host} {rest : Int} (booked : h.Booked rest) : h.finish.Booked rest := by
  rw [finish_eq]
  exact (booked.abortAll _).congr rfl rfl rfl rfl (streams_abortAll booked).symm rfl rfl rfl

theorem Booked.ignoreFrame {h : Host} {rest : Int} (booked : h.Booked rest) :
    h.ignoreFrame.Booked rest := by
  unfold Host.ignoreFrame
  simp only
  split
  · exact booked.congr rfl rfl rfl rfl rfl rfl rfl rfl
  · apply Booked.finish
    exact booked.congr rfl rfl rfl rfl rfl rfl rfl rfl

theorem Booked.sendReset {h : Host} {rest : Int} (booked : h.Booked rest) (sid : StreamId) :
    (h.updateMux fun m => m.sendReset sid).Booked rest := by
  have same : ∀ m : Mux, (m.sendReset sid).config = m.config ∧ (m.sendReset sid).heap = m.heap ∧
      (m.sendReset sid).made = m.made ∧ (m.sendReset sid).streams = m.streams ∧
      (m.sendReset sid).nextId = m.nextId ∧ (m.sendReset sid).buffered = m.buffered ∧
      (m.sendReset sid).frames = m.frames := by
    intro m
    unfold Mux.sendReset
    split
    · simp
    · split <;> simp [Mux.spawn]
  obtain ⟨config, heap, made, streams, nextId, buffered, frames⟩ := same h.mux
  exact booked.congr rfl config heap made streams nextId buffered frames

theorem Booked.resetLocalNow {h : Host} {rest : Int} (booked : h.Booked rest) (r : Ref) :
    (h.resetLocalNow r).1.Booked rest := by
  unfold Host.resetLocalNow
  split
  · exact booked
  · have shut := booked.closeLocal r (t := .reset) (by decide)
    simp only
    split
    · exact shut
    · exact shut.congr rfl rfl rfl rfl rfl rfl rfl rfl

theorem Booked.resetMalformed {h : Host} {rest : Int} (booked : h.Booked rest) (r : Ref) :
    (h.resetMalformed r).Booked rest := by
  have shut := booked.resetLocalNow r
  unfold Host.resetMalformed
  split
  next now reset =>
    rw [reset] at shut
    exact shut.sendReset r.sid
  next now reset =>
    rw [reset] at shut
    exact shut

/-- The branch of `_feed` that queues the frame: what every test in its chain let
through. -/
structure Admitted (h : Host) (s : Stream) (data : Bytes) (h' : Host) : Prop where
  streamBytes : s.recvBuffered + data.length ≤ h.mux.config.streamHardMax
  streamFrames : s.recvFrames + 1 ≤ h.mux.config.maxQueuedFrames
  connectionBytes : h.mux.buffered + data.length ≤ maxConnBuffered
  connectionFrames : h.mux.frames + 1 ≤ maxConnFrames
  mux : h'.mux = h.mux
  maxBufferedBytes : h'.account.maxBufferedBytes = h.account.maxBufferedBytes
  account : h'.account.buffered =
    h.account.buffered + if h.mux.config.budgeted then (data.length : Int) else 0
  limit : h.mux.config.budgeted = true → ∀ limit, h.account.maxBufferedBytes = some limit →
    h'.account.buffered ≤ limit

theorem admitted_of_feedLimit {h h' : Host} {s : Stream} {data : Bytes} (some_data : data ≠ [])
    (passed : h.feedLimit s data = (none, h')) : Admitted h s data h' := by
  have positive : ¬((data.length : Int) ≤ 0) := by
    have := List.length_pos_iff.mpr some_data
    omega
  unfold feedLimit at passed
  split at passed
  · cases passed
  · split at passed
    · cases passed
    · split at passed
      · cases passed
      · split at passed
        · cases passed
        · cases budgeted : h.mux.config.budgeted with
          | false =>
            simp only [reserveBuffer, budgeted, or_true, if_true, Prod.mk.injEq, true_and] at passed
            subst passed
            exact ⟨by omega, by omega, by omega, by omega, rfl, rfl, by simp [budgeted],
              by simp [budgeted]⟩
          | true =>
            simp only [reserveBuffer, budgeted, positive, Bool.true_eq_false, or_self,
              if_false] at passed
            cases limited : h.account.maxBufferedBytes with
            | none =>
              simp only [Account.tryReserve, limited, Prod.mk.injEq, true_and] at passed
              subst passed
              exact ⟨by omega, by omega, by omega, by omega, rfl, by simp [limited],
                by simp [budgeted], by simp [limited]⟩
            | some limit =>
              by_cases refused : limit < 0 ∨ h.account.buffered + data.length > limit
              · simp only [Account.tryReserve, limited, refused, if_true, Prod.mk.injEq,
                  reduceCtorEq, false_and] at passed
              · simp only [Account.tryReserve, limited, refused, if_false, Prod.mk.injEq,
                  true_and] at passed
                subst passed
                refine ⟨by omega, by omega, by omega, by omega, rfl, by simp [limited],
                  by simp [budgeted], ?_⟩
                intro _ limit' same
                simp only [limited, Option.some.injEq] at same
                simp only
                omega

theorem reserveBuffer_refused {h h' : Host} {n : Int} (refused : h.reserveBuffer n = (false, h')) :
    h' = h := by
  unfold reserveBuffer at refused
  split at refused
  · cases refused
  · simp only [Prod.mk.injEq] at refused
    obtain ⟨no, rfl⟩ := refused
    cases limited : h.account.maxBufferedBytes with
    | none => simp [Account.tryReserve, limited] at no
    | some limit =>
      by_cases past : limit < 0 ∨ h.account.buffered + n > limit
      · simp only [Account.tryReserve, limited, if_pos past]
      · simp only [Account.tryReserve, limited, if_neg past, Bool.true_eq_false] at no

/-- A refused frame leaves the bookings alone. -/
theorem refused_of_feedLimit {h h' : Host} {s : Stream} {data : Bytes} {why : Limit}
    (refused : h.feedLimit s data = (some why, h')) : h' = h := by
  unfold feedLimit at refused
  repeat' split at refused
  all_goals first | (cases refused; rfl) | skip
  · cases refused
  next reserved =>
    simp only [Prod.mk.injEq] at refused
    obtain ⟨-, rfl⟩ := refused
    exact reserveBuffer_refused reserved

/-- Queueing an admitted frame books it at all three levels. -/
theorem Booked.fed {h h' : Host} {rest : Int} (booked : h.Booked rest) {r : Ref} {s : Stream}
    (found : h.mux.heap r = some s) (live : s.closed = false) {data : Bytes}
    (admitted : Admitted h s data h') :
    ((h'.setStream r { s with
      incoming := s.incoming ++ [some data]
      recvBuffered := s.recvBuffered + data.length
      recvFrames := s.recvFrames + 1 }).updateMux fun m =>
        { m with buffered := m.buffered + data.length, frames := m.frames + 1 }).Booked rest := by
  have tallied := booked.mux.tallied r s found
  have counts := tallied.live live
  obtain ⟨mux, account⟩ := h'
  have same : mux = h.mux := admitted.mux
  subst same
  refine ⟨?_, ?_, booked.rest_nonneg⟩
  · apply booked.mux.move found live
      (t := { s with
        incoming := s.incoming ++ [some data]
        recvBuffered := s.recvBuffered + data.length
        recvFrames := s.recvFrames + 1 }) live
    · refine ⟨fun _ => ?_, by simp [live], admitted.streamBytes, admitted.streamFrames,
        tallied.window⟩
      simp only [Stream.queuedBytes, Stream.chunks, List.reduceOption_append] at counts ⊢
      simp only [List.reduceOption_cons_of_some, List.reduceOption_nil, List.map_append,
        List.map_cons, List.map_nil, List.sum_append, List.sum_cons, List.sum_nil,
        List.length_append, List.length_cons, List.length_nil]
      omega
    · show h.mux.buffered + data.length =
        h.mux.buffered + (s.recvBuffered + data.length - s.recvBuffered)
      omega
    · show h.mux.frames + 1 = h.mux.frames + (s.recvFrames + 1 - s.recvFrames)
      omega
    · exact admitted.connectionBytes
    · exact admitted.connectionFrames
  · have share := booked.account
    have charged := admitted.account
    simp only [Mux.booked] at share charged
    show account.buffered =
      (if h.mux.config.budgeted = true then h.mux.buffered + data.length else 0) + rest
    by_cases budgeted : h.mux.config.budgeted = true
    · rw [if_pos budgeted] at share charged ⊢
      omega
    · rw [if_neg budgeted] at share charged ⊢
      omega

theorem Booked.read {h : Host} {rest : Int} (booked : h.Booked rest) {r : Ref} {s : Stream}
    (found : h.mux.heap r = some s) {e : Effect} (taken : h.read r s = some e) :
    e.host.Booked rest := by
  have tallied := booked.mux.tallied r s found
  unfold Host.read at taken
  split at taken
  · cases taken
  next tail incoming =>
    cases taken
    refine booked.setStream found ?_ ?_ ?_ ?_
    · rfl
    · rfl
    · rfl
    refine ⟨fun live => ?_, tallied.dead, tallied.bytes, tallied.frames, tallied.window⟩
    have := tallied.live live
    simpa [Stream.queuedBytes, Stream.chunks, incoming] using this
  next chunk tail incoming =>
    split at taken
    next closed =>
      cases taken
      refine booked.setStream found ?_ ?_ ?_ ?_
      · rfl
      · rfl
      · rfl
      exact ⟨by simp [closed], tallied.dead, tallied.bytes, tallied.frames, tallied.window⟩
    next open_ =>
      cases taken
      have live : s.closed = false := by simpa using open_
      have counts := tallied.live live
      have totals := booked.mux.le_totals found
      simp only [Stream.queuedBytes, Stream.chunks, incoming, List.reduceOption_cons_of_some,
        List.map_cons, List.sum_cons, List.length_cons] at counts
      have bytes_le := booked.mux.buffered_le
      have frames_le := booked.mux.frames_le
      have moved := booked.mux.move found live
        (t := { s with
          incoming := tail
          recvBuffered := s.recvBuffered - chunk.length
          recvFrames := s.recvFrames - 1 }) live
        ⟨fun _ => by simp only [Stream.queuedBytes, Stream.chunks]; omega, by simp [live],
          by have := tallied.bytes; simp only; omega, by have := tallied.frames; simp only; omega,
          tallied.window⟩
        (h.mux.buffered - chunk.length) (h.mux.frames - 1) (by simp only; omega)
        (by simp only; omega) (by omega) (by omega)
      refine ⟨by rw [mux_releaseBuffer]; exact moved, ?_, booked.rest_nonneg⟩
      have share := booked.account
      have rest_nonneg := booked.rest_nonneg
      simp only [Mux.booked] at share
      have released : ∀ h' : Host, h'.mux.config = h.mux.config → h'.account = h.account →
          (h'.releaseBuffer chunk.length).account.buffered =
            (if h.mux.config.budgeted = true then h.mux.buffered - chunk.length else 0) + rest := by
        intro h' config account
        by_cases budgeted : h.mux.config.budgeted = true
        · rw [if_pos budgeted] at share ⊢
          rw [account_releaseBuffer (by rw [config]; exact budgeted) (by omega)
            (by rw [account]; omega), account]
          omega
        · rw [if_neg budgeted] at share ⊢
          rw [account_releaseBuffer_of_unbudgeted (by rw [config]; simpa using budgeted), account]
          exact share
      rw [Mux.booked, mux_releaseBuffer]
      exact released _ rfl rfl

end Host
end Chute
