import Chute.Mux.Balance

/-!
# The relay's account bookings

Any number of connections share the booking of their account. A registration stays
in the list after it was superseded or retired, for as long as its streams drain.
-/
namespace Chute

/-- What the buffer callbacks of a connection are bound to. -/
structure TunnelRegistration where
  accountId : String
  mux : Mux
  /-- The `max_buffered_bytes` that `_account_budget` yields for it at the moment. -/
  maxBufferedBytes : Option Int

structure RelayServer where
  registrations : List TunnelRegistration
  /-- `_account_buffered`, where a missing entry reads as 0. -/
  accountBuffered : String → Int

namespace RelayServer

inductive Action
  | register (accountId : String) (config : Config) (maxBufferedBytes : Option Int)
  | setBudget (i : Nat) (maxBufferedBytes : Option Int)
  | act (i : Nat) (a : Chute.Action)

def new : RelayServer := ⟨[], fun _ => 0⟩

/-- A connection together with what its callbacks see. -/
def host (s : RelayServer) (reg : TunnelRegistration) : Host :=
  ⟨reg.mux, ⟨s.accountBuffered reg.accountId, reg.maxBufferedBytes⟩⟩

def step (s : RelayServer) : Action → Option RelayServer
  | .register accountId config limit =>
    some { s with registrations := s.registrations ++ [⟨accountId, Mux.new config, limit⟩] }
  | .setBudget i limit =>
    (s.registrations[i]?).map fun reg =>
      { s with registrations := s.registrations.set i { reg with maxBufferedBytes := limit } }
  | .act i a =>
    (s.registrations[i]?).bind fun reg =>
      ((s.host reg).step a).map fun e =>
        { registrations := s.registrations.set i { reg with mux := e.host.mux }
          accountBuffered :=
            Function.update s.accountBuffered reg.accountId e.host.account.buffered }

/-- What a registration contributes to the booking of an account. -/
def share (accountId : String) (reg : TunnelRegistration) : Int :=
  if reg.accountId = accountId then reg.mux.booked else 0

/-- The total over all registrations of an account. -/
def owed (s : RelayServer) (accountId : String) : Int :=
  (s.registrations.map (share accountId)).sum

structure Sound (s : RelayServer) : Prop where
  muxes : ∀ reg ∈ s.registrations, reg.mux.Accounted
  settled : ∀ reg ∈ s.registrations, (s.host reg).Settled
  account : ∀ accountId, s.accountBuffered accountId = s.owed accountId

theorem sound_new : new.Sound :=
  ⟨by simp [new], by simp [new], fun _ => rfl⟩

theorem booked_nonneg {m : Mux} (acc : m.Accounted) : 0 ≤ m.booked := by
  unfold Mux.booked
  split
  · exact acc.totals_nonneg.1
  · exact le_refl _

theorem share_nonneg {s : RelayServer} (sound : s.Sound) (accountId : String)
    {reg : TunnelRegistration} (member : reg ∈ s.registrations) : 0 ≤ share accountId reg := by
  unfold share
  split
  · exact booked_nonneg (sound.muxes reg member)
  · exact le_refl _

/-- A registration, and what the others of its account hold. -/
theorem Sound.booked {s : RelayServer} (sound : s.Sound) {front back : List TunnelRegistration}
    {reg : TunnelRegistration} (split : s.registrations = front ++ reg :: back) :
    (s.host reg).Booked ((front.map (share reg.accountId)).sum +
      (back.map (share reg.accountId)).sum) := by
  have member : reg ∈ s.registrations := by simp [split]
  refine ⟨sound.muxes reg member, ?_, ?_⟩
  · show s.accountBuffered reg.accountId = reg.mux.booked + _
    rw [sound.account, owed, split, List.map_append, List.map_cons, List.sum_append, List.sum_cons]
    simp only [share, if_true]
    omega
  · have first : 0 ≤ (front.map (share reg.accountId)).sum := by
      apply List.sum_nonneg
      intro x inside
      obtain ⟨other, other_mem, rfl⟩ := List.mem_map.mp inside
      exact share_nonneg sound _ (by simp [split, other_mem])
    have last : 0 ≤ (back.map (share reg.accountId)).sum := by
      apply List.sum_nonneg
      intro x inside
      obtain ⟨other, other_mem, rfl⟩ := List.mem_map.mp inside
      exact share_nonneg sound _ (by simp [split, other_mem])
    omega

/-- Where a registration stands in the list. -/
theorem split_of_getElem? {s : RelayServer} {i : Nat} {reg : TunnelRegistration}
    (found : s.registrations[i]? = some reg) :
    ∃ front back, s.registrations = front ++ reg :: back ∧
      ∀ reg', s.registrations.set i reg' = front ++ reg' :: back := by
  obtain ⟨short, rfl⟩ := List.getElem?_eq_some_iff.mp found
  have set : ∀ reg', s.registrations.set i reg' =
      s.registrations.take i ++ reg' :: s.registrations.drop (i + 1) := fun reg' => by
    rw [List.set_eq_take_append_cons_drop, if_pos short]
  exact ⟨_, _, by rw [← set, List.set_getElem_self], set⟩

theorem Sound.step {s s' : RelayServer} (sound : s.Sound) {a : Action}
    (moved : s.step a = some s') : s'.Sound := by
  cases a with
  | register accountId config limit =>
    cases moved
    refine ⟨?_, ?_, ?_⟩
    · intro reg member
      simp only [List.mem_append, List.mem_singleton] at member
      rcases member with old | rfl
      · exact sound.muxes reg old
      · exact Mux.accounted_new config
    · intro reg member
      simp only [List.mem_append, List.mem_singleton] at member
      rcases member with old | rfl
      · exact sound.settled reg old
      · intro ended
        cases ended
    · intro accountId'
      have before := sound.account accountId'
      have fresh : share accountId' ⟨accountId, Mux.new config, limit⟩ = 0 := by
        unfold share
        split
        · unfold Mux.booked
          split <;> rfl
        · rfl
      simpa [owed, fresh] using before
  | setBudget i limit =>
    obtain ⟨reg, found, rfl⟩ := Option.map_eq_some_iff.mp moved
    obtain ⟨front, back, split, set⟩ := split_of_getElem? found
    have member : reg ∈ s.registrations := by simp [split]
    have each : ∀ reg' ∈ s.registrations.set i { reg with maxBufferedBytes := limit },
        ∃ old ∈ s.registrations, reg'.mux = old.mux := by
      intro reg' inside
      rw [set] at inside
      simp only [List.mem_append, List.mem_cons] at inside
      rcases inside with first | rfl | last
      · exact ⟨reg', by simp [split, first], rfl⟩
      · exact ⟨reg, member, rfl⟩
      · exact ⟨reg', by simp [split, last], rfl⟩
    refine ⟨?_, ?_, ?_⟩
    · intro reg' inside
      obtain ⟨old, old_mem, same⟩ := each reg' inside
      rw [same]
      exact sound.muxes old old_mem
    · intro reg' inside
      obtain ⟨old, old_mem, same⟩ := each reg' inside
      have before := sound.settled old old_mem
      unfold Host.Settled host at before ⊢
      simpa [same] using before
    · intro accountId
      have before := sound.account accountId
      simp only [owed, set, List.map_append, List.map_cons]
      simp only [owed, split, List.map_append, List.map_cons] at before
      exact before
  | act i a =>
    obtain ⟨reg, found, moved⟩ := Option.bind_eq_some_iff.mp moved
    obtain ⟨e, stepped, rfl⟩ := Option.map_eq_some_iff.mp moved
    obtain ⟨front, back, split, set⟩ := split_of_getElem? found
    have member : reg ∈ s.registrations := by simp [split]
    have booked := sound.booked split
    have after := booked.step stepped
    have each : ∀ reg' ∈ s.registrations.set i { reg with mux := e.host.mux },
        reg' = { reg with mux := e.host.mux } ∨ reg' ∈ s.registrations := by
      intro reg' inside
      rw [set] at inside
      simp only [List.mem_append, List.mem_cons] at inside
      rcases inside with first | rfl | last
      · exact Or.inr (by simp [split, first])
      · exact Or.inl rfl
      · exact Or.inr (by simp [split, last])
    refine ⟨?_, ?_, ?_⟩
    · intro reg' inside
      rcases each reg' inside with rfl | old
      · exact after.mux
      · exact sound.muxes reg' old
    · intro reg' inside
      rcases each reg' inside with rfl | old
      · exact (sound.settled reg member).step booked stepped
      · exact sound.settled reg' old
    · intro accountId
      simp only [owed, set, List.map_append, List.map_cons, List.sum_append, List.sum_cons]
      by_cases same : accountId = reg.accountId
      · subst same
        rw [Function.update_self, after.account]
        simp only [share, if_true]
        omega
      · have before := sound.account accountId
        simp only [owed, split, List.map_append, List.map_cons, List.sum_append,
          List.sum_cons] at before
        rw [Function.update_of_ne same, before]
        simp [share, Ne.symm same]

theorem sound_of_run {as : List Action} {s : RelayServer}
    (ran : Transition.run step new as = some s) : s.Sound :=
  Transition.run_invariant' (fun _ _ _ held moved => Sound.step held moved) sound_new ran

/-- What the books of a relay say and what they bound, at one moment. -/
structure Balanced (s : RelayServer) : Prop where
  /-- No message can make `run` raise. -/
  no_raise : ∀ reg ∈ s.registrations, ∀ msg, ∃ h, (s.host reg).onMessage msg = .ok h
  /-- The registry maps an id to a stream exactly while that stream is not closed. -/
  registry : ∀ reg ∈ s.registrations, ∀ r,
    reg.mux.registered r.sid = some r ↔ ∃ st, reg.mux.heap r = some st ∧ st.closed = false
  buffered : ∀ reg ∈ s.registrations,
    reg.mux.buffered = reg.mux.streams.sumBy (reg.mux.valueOf Stream.recvBuffered)
  frames : ∀ reg ∈ s.registrations,
    reg.mux.frames = reg.mux.streams.sumBy (reg.mux.valueOf Stream.recvFrames)
  queues : ∀ reg ∈ s.registrations, ∀ r st, reg.mux.heap r = some st → st.closed = false →
    st.recvBuffered = st.queuedBytes ∧ st.recvFrames = st.chunks.length
  account : ∀ accountId, s.accountBuffered accountId =
    ((s.registrations.filter fun reg => reg.accountId = accountId ∧ reg.mux.config.budgeted).map
      fun reg => reg.mux.buffered).sum
  account_nonneg : ∀ accountId, 0 ≤ s.accountBuffered accountId
  mux_nonneg : ∀ reg ∈ s.registrations, 0 ≤ reg.mux.buffered ∧ 0 ≤ reg.mux.frames
  stream_nonneg : ∀ reg ∈ s.registrations, ∀ r st, reg.mux.heap r = some st →
    0 ≤ st.recvBuffered ∧ 0 ≤ st.recvFrames
  stream_caps : ∀ reg ∈ s.registrations, ∀ r st, reg.mux.heap r = some st →
    st.recvBuffered ≤ 2 * reg.mux.config.window ∧ st.recvFrames ≤ reg.mux.config.window
  window_caps : ∀ reg ∈ s.registrations, ∀ r st, reg.mux.heap r = some st →
    0 ≤ st.sendWindow ∧ st.sendWindow ≤ 2 ^ 31 - 1
  mux_caps : ∀ reg ∈ s.registrations, reg.mux.buffered ≤ 64 * 1024 * 1024 ∧
    reg.mux.frames ≤ 1048576 ∧ reg.mux.activeStreams ≤ reg.mux.config.maxStreams
  /-- A step that lengthens a queue had room for it under the limit in force. -/
  limit : ∀ i reg, s.registrations[i]? = some reg → reg.mux.config.budgeted = true →
    ∀ limit, reg.maxBufferedBytes = some limit →
    ∀ a s' reg', s.step (.act i a) = some s' → s'.registrations[i]? = some reg' →
    ∀ r st st', reg.mux.heap r = some st → reg'.mux.heap r = some st' →
    st.queuedBytes < st'.queuedBytes →
    s.accountBuffered reg.accountId + (st'.queuedBytes - st.queuedBytes) ≤ limit
  /-- Nothing is left behind: not without streams, not once `run` has ended. -/
  drained : ∀ reg ∈ s.registrations, reg.mux.activeStreams = 0 ∨ reg.mux.running = false →
    reg.mux.buffered = 0 ∧ reg.mux.frames = 0

theorem Sound.limit {s s' : RelayServer} (sound : s.Sound) {i : Nat} {reg reg' : TunnelRegistration}
    (found : s.registrations[i]? = some reg) (budgeted : reg.mux.config.budgeted = true)
    {limit : Int} (limited : reg.maxBufferedBytes = some limit) {a : Chute.Action}
    (moved : s.step (.act i a) = some s') (found' : s'.registrations[i]? = some reg') {r : Ref}
    {st st' : Stream} (before : reg.mux.heap r = some st) (after : reg'.mux.heap r = some st')
    (longer : st.queuedBytes < st'.queuedBytes) :
    s.accountBuffered reg.accountId + (st'.queuedBytes - st.queuedBytes) ≤ limit := by
  obtain ⟨reg₁, found₁, moved⟩ := Option.bind_eq_some_iff.mp moved
  cases found₁.symm.trans found
  obtain ⟨e, stepped, rfl⟩ := Option.map_eq_some_iff.mp moved
  obtain ⟨front, back, split, -⟩ := split_of_getElem? found
  have booked := sound.booked split
  have now : reg' = { reg with mux := e.host.mux } := by
    have inside := (List.getElem?_eq_some_iff.mp found).1
    simpa [inside, eq_comm] using found'
  subst now
  obtain ⟨t, after', touch⟩ := Host.step_touch booked.mux before stepped
  cases after.symm.trans after'
  rcases touch.queue (booked.mux.tallied r st before) with less | ⟨msg, data, h', -, some_data, admitted, grown⟩
  · omega
  · have fits := admitted.limit budgeted limit limited
    have charged := admitted.account
    rw [show (s.host reg).mux.config.budgeted = true from budgeted, if_pos rfl] at charged
    have here : (s.host reg).account.buffered = s.accountBuffered reg.accountId := rfl
    omega

/-- The total of an account, over the connections that were given its callbacks. -/
theorem owed_eq (s : RelayServer) (accountId : String) :
    s.owed accountId =
      ((s.registrations.filter fun reg => reg.accountId = accountId ∧ reg.mux.config.budgeted).map
        fun reg => reg.mux.buffered).sum := by
  unfold owed
  induction s.registrations with
  | nil => rfl
  | cons reg regs ih =>
    rw [List.map_cons, List.sum_cons, ih, List.filter_cons]
    by_cases same : reg.accountId = accountId
    · cases budgeted : reg.mux.config.budgeted <;> simp [share, Mux.booked, same, budgeted]
    · simp [share, same]

/-- **Buffer and registry accounting.** In every state that any interleaving of
messages, calls and connection losses on any number of connections leads to, the
books are right and the caps hold. -/
theorem balanced_of_run {as : List Action} {s : RelayServer}
    (ran : Transition.run step new as = some s) : s.Balanced := by
  have sound := sound_of_run ran
  have nonneg : ∀ reg ∈ s.registrations, 0 ≤ reg.mux.buffered ∧ 0 ≤ reg.mux.frames :=
    fun reg member => (sound.muxes reg member).totals_nonneg
  constructor
  · intro reg member msg
    obtain ⟨h, ok, -⟩ := Host.onMessage_arrival (h := s.host reg) (sound.muxes reg member) msg
    exact ⟨h, ok⟩
  · intro reg member r
    rw [← (sound.muxes reg member).registry r, Mux.registered_eq_some]
    simp
  · exact fun reg member => (sound.muxes reg member).buffered
  · exact fun reg member => (sound.muxes reg member).frames
  · exact fun reg member r st found live => ((sound.muxes reg member).tallied r st found).live live
  · exact fun accountId => (sound.account accountId).trans (owed_eq s accountId)
  · intro accountId
    rw [sound.account accountId]
    apply List.sum_nonneg
    intro x inside
    obtain ⟨reg, member, rfl⟩ := List.mem_map.mp inside
    exact share_nonneg sound accountId member
  · exact nonneg
  · exact fun reg member r st found => ((sound.muxes reg member).tallied r st found).counters_nonneg
  · intro reg member r st found
    have tallied := (sound.muxes reg member).tallied r st found
    exact ⟨by simpa [Config.streamHardMax] using tallied.bytes, tallied.frames⟩
  · exact fun reg member r st found => ((sound.muxes reg member).tallied r st found).window
  · intro reg member
    have acc := sound.muxes reg member
    exact ⟨acc.buffered_le, acc.frames_le, acc.streams_le⟩
  · intro i reg found budgeted limit limited a s' reg' moved found' r st st' before after longer
    exact sound.limit found budgeted limited moved found' before after longer
  · intro reg member past
    have acc := sound.muxes reg member
    rcases past with empty | ended
    · have none : reg.mux.streams = ∅ := AList.ext (List.length_eq_zero_iff.mp empty)
      rw [acc.buffered, acc.frames, none]
      exact ⟨rfl, rfl⟩
    · exact sound.settled reg member ended

/-- Three bytes arrive for an account that may hold four. -/
def oneArrival : List Action :=
  [.register "a" (.server .default) (some 4), .act 0 (.openStream true),
    .act 0 (.message (.binary (encode FrameType.data.code 1 [7, 8, 9])))]

theorem balanced_after_arrival : ∃ s, Transition.run step new oneArrival = some s ∧
    s.accountBuffered "a" = 3 ∧ s.Balanced := by
  have booked : (Transition.run step new oneArrival).any (fun s => s.accountBuffered "a" = 3) :=
    by decide +kernel
  obtain ⟨s, ran, three⟩ := Option.any_eq_true _ _ |>.mp booked
  exact ⟨s, ran, by simpa using three, balanced_of_run ran⟩

end RelayServer
end Chute
