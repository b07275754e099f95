import Chute.Lib.Pacing
import Chute.Server.Scope

/-!
# The byte schedule of an account

All chunks of an account, in both directions and for all its visitors, take their places in
one schedule. It lasts as long as the account has local work, so the chunks are paced.
-/
namespace Chute
namespace Server

open Pacing (Chunk Paced bytesWithin)

variable {s s' : Server} {accountId : String} {i n rate : Nat} {reg : TunnelRegistration}

/-- A call of `_throttle_account_bytes` for the account that returns: when it was made, its
bytes, and when its sleep is over. -/
def released (accountId : String) (s : Server) : Action → Option (Chunk ℚ)
  | .throttle i n =>
    (s.registration? i).bind fun reg =>
      if reg.accountId = accountId then
        (s.throttleAccountBytes reg n).1.map fun delay => ⟨s.monotonic, n, s.monotonic + delay⟩
      else none
  | _ => none

/-- The chunks of the account along a run, in the order of the calls. -/
def releases (accountId : String) : Server → List Action → List (Chunk ℚ)
  | _, [] => []
  | s, a :: as =>
    match s.step a with
    | none => []
    | some s' => (s.released accountId a).toList ++ releases accountId s' as

/-- A call of the account has bytes and finds the rate as its limit. No pump passes an empty
chunk: a reader ends at one, and a stream drops it. -/
def LimitedAt (accountId : String) (rate : Nat) (s : Server) : Action → Prop
  | .throttle i n => ∀ reg ∈ s.registration? i, reg.accountId = accountId →
    0 < n ∧ (s.accountBudget reg).maxBytesPerSec = some rate
  | _ => True

/-- The account has local work all along the run, and one limit at all its calls. -/
def Metered (accountId : String) (rate : Nat) : Server → List Action → Prop
  | s, [] => s.accountHasLocalWork accountId = true
  | s, a :: as =>
    s.accountHasLocalWork accountId = true ∧ s.LimitedAt accountId rate a ∧
      ∀ s' ∈ s.step a, Metered accountId rate s' as

instance (a : Action) : Decidable (s.LimitedAt accountId rate a) := by
  cases a <;> unfold LimitedAt <;> infer_instance

instance decidableMetered : ∀ (s : Server) (as : List Action),
    Decidable (s.Metered accountId rate as)
  | _, [] => inferInstanceAs (Decidable (_ = true))
  | s, _ :: as =>
    have : ∀ s' : Server, Decidable (s'.Metered accountId rate as) := fun s' => decidableMetered s' as
    inferInstanceAs (Decidable (_ = true ∧ s.LimitedAt accountId rate _ ∧ ∀ s' ∈ s.step _, _))

theorem Metered.busy {as : List Action} (metered : s.Metered accountId rate as) :
    s.accountHasLocalWork accountId = true := by
  cases as with
  | nil => exact metered
  | cons a as => exact metered.1

/-! ### One step -/

@[simp] theorem monotonic_dropAccountBandwidthIfIdle (s : Server) (accountId : String) :
    (s.dropAccountBandwidthIfIdle accountId).monotonic = s.monotonic := by
  unfold dropAccountBandwidthIfIdle
  split <;> rfl

theorem monotonic_sweepIdleBandwidth (s : Server) : s.sweepIdleBandwidth.monotonic = s.monotonic := by
  unfold sweepIdleBandwidth
  generalize s.accountBandwidth.keys = accountIds
  induction accountIds generalizing s with
  | nil => rfl
  | cons accountId rest ih => exact (ih _).trans (monotonic_dropAccountBandwidthIfIdle s accountId)

/-- The sweep that makes room for a schedule. -/
private theorem clears_swept (s : Server) : Clears s (if bandwidthMaxAccounts ≤
    s.accountBandwidth.keys.length then s.sweepIdleBandwidth else s) := by
  split
  · exact clears_sweepIdleBandwidth s
  · exact .refl s

private theorem monotonic_swept (s : Server) : (if bandwidthMaxAccounts ≤
    s.accountBandwidth.keys.length then s.sweepIdleBandwidth else s).monotonic = s.monotonic := by
  split
  · exact monotonic_sweepIdleBandwidth s
  · rfl

/-- What a call of the account does to its schedule, if the account has a limit: the chunk
starts when the chunks before it are through and it is there, and takes its bytes' time. Where
the call raises there was no schedule, and there is none. -/
theorem throttle_own (limited : (s.accountBudget reg).maxBytesPerSec = some rate)
    (positive : 0 < rate) (bytes : 0 < n) :
    (∃ start, (s.throttleAccountBytes reg n).1 = some (start - s.monotonic) ∧
      s.monotonic ≤ start ∧ (∀ next, s.accountBandwidth.lookup reg.accountId = some next → next ≤ start) ∧
      (s.throttleAccountBytes reg n).2.accountBandwidth.lookup reg.accountId =
        some (start + (n : ℚ) / rate)) ∨
    (s.throttleAccountBytes reg n).1 = none ∧
      s.accountBandwidth.lookup reg.accountId = none ∧
      (s.throttleAccountBytes reg n).2.accountBandwidth.lookup reg.accountId = none := by
  unfold throttleAccountBytes
  rw [limited]
  simp only
  rw [if_neg bytes.ne', if_neg positive.ne']
  cases found : s.accountBandwidth.lookup reg.accountId with
  | some next =>
    left
    refine ⟨max next s.monotonic, rfl, le_max_right _ _, ?_, AList.lookup_insert _⟩
    rintro _ ⟨⟩
    exact le_max_left _ _
  | none =>
    have same := monotonic_swept s
    have swept := (clears_swept s).schedules reg.accountId
    rw [found, or_iff_left_of_imp And.left] at swept
    simp only
    generalize (if bandwidthMaxAccounts ≤ s.accountBandwidth.keys.length then
      s.sweepIdleBandwidth else s) = t at same swept
    split
    · exact .inr ⟨rfl, trivial, swept⟩
    · left
      refine ⟨max 0 t.monotonic, ?_, ?_, nofun, AList.lookup_insert _⟩
      · rw [← same]
        rfl
      · rw [same]
        exact le_max_right _ _

/-- A chunk of another account leaves the schedule, if the account has work. -/
theorem throttle_other (other : reg.accountId ≠ accountId)
    (busy : (s.throttleAccountBytes reg n).2.accountHasLocalWork accountId = true) :
    (s.throttleAccountBytes reg n).2.accountBandwidth.lookup accountId =
      s.accountBandwidth.lookup accountId := by
  unfold throttleAccountBytes at busy ⊢
  split
  · rfl
  · split
    · rfl
    · split
      · rfl
      next limit limited bytes positive =>
        rw [limited] at busy
        simp only [if_neg bytes, if_neg positive] at busy
        split
        · exact AList.lookup_insert_ne other.symm
        next missing =>
          rw [missing] at busy
          have swept := (clears_swept s).schedules accountId
          simp only at busy ⊢
          generalize (if bandwidthMaxAccounts ≤ s.accountBandwidth.keys.length then
            s.sweepIdleBandwidth else s) = t at swept busy
          have working : t.accountHasLocalWork accountId = true := by
            split at busy
            · exact busy
            · exact busy
          have same := swept.resolve_right fun lost => by
            rw [working] at lost
            exact absurd lost.2 (by simp)
          split
          · exact same
          · exact (AList.lookup_insert_ne other.symm).trans same

private theorem bandwidth_budgets (budgets : List (String × Budget)) (s : Server) :
    (budgets.foldl (fun s b => s.setAccountBudget b.1 b.2) s).accountBandwidth =
      s.accountBandwidth := by
  induction budgets generalizing s with
  | nil => rfl
  | cons b rest ih => exact (ih _).trans (bandwidth_setAccountBudget s b.1 b.2)

/-- Nothing else changes the schedule of an account that has work after the step. -/
theorem Coherent.schedule_step (coherent : s.Coherent) {a : Action} (moved : s.step a = some s')
    (busy : s'.accountHasLocalWork accountId = true)
    (others : ∀ i n reg, a = .throttle i n → s.registration? i = some reg →
      reg.accountId ≠ accountId) :
    s'.accountBandwidth.lookup accountId = s.accountBandwidth.lookup accountId := by
  have spared : ∀ {t : Server}, Frees s t → t.accountHasLocalWork accountId = true →
      t.accountBandwidth.lookup accountId = s.accountBandwidth.lookup accountId := by
    intro t frees working
    refine (frees.schedules accountId).resolve_right fun lost => ?_
    rw [working] at lost
    exact absurd lost.2 (by simp)
  by_cases policy : ∃ update, a = .applyPolicyUpdate update
  · obtain ⟨update, rfl⟩ := policy
    cases moved
    unfold applyPolicyUpdate at busy ⊢
    split at busy
    · rfl
    next u valid =>
      have revoked := clears_foldl (fun t (r : String × RevocationAction) =>
        clears_revokeLease t r.1 r.2) u.revocations s
      obtain ⟨same, -, -⟩ := budgets_overrides (validPolicyUpdate_some valid).2.1
        (u.revocations.foldl (fun s r => (s.revokeLease r.1 r.2).2) s)
      refine (congrArg _ (bandwidth_budgets _ _)).trans (spared revoked.toFrees ?_)
      rw [← same.eq accountId]
      exact busy
  · by_cases throttled : ∃ i n, a = .throttle i n
    · obtain ⟨i, n, rfl⟩ := throttled
      simp only [Server.step] at moved
      split at moved
      · obtain ⟨reg, found, rfl⟩ := Option.map_eq_some_iff.mp moved
        exact throttle_other (others i n reg rfl found) busy
      · cases moved
    · exact spared (coherent.frees_step moved (fun update same => policy ⟨update, same⟩)
        fun i n same => throttled ⟨i, n, same⟩) busy

/-! ### The whole run -/

theorem released_some {a : Action} {c : Chunk ℚ} (call : s.released accountId a = some c) :
    ∃ i n reg delay, a = .throttle i n ∧ s.registration? i = some reg ∧ reg.accountId = accountId ∧
      (s.throttleAccountBytes reg n).1 = some delay ∧
      c = ⟨s.monotonic, n, s.monotonic + delay⟩ := by
  unfold released at call
  split at call
  next i n =>
    obtain ⟨reg, found, call⟩ := Option.bind_eq_some_iff.mp call
    split at call
    next own =>
      obtain ⟨delay, waits, rfl⟩ := Option.map_eq_some_iff.mp call
      exact ⟨i, n, reg, delay, rfl, found, own, waits, rfl⟩
    · cases call
  · cases call

/-- One step of a metered run: a chunk of the account starts in time and moves the schedule on,
and without one the schedule stays. -/
theorem Coherent.metered_step (coherent : s.Coherent) {a : Action} {as : List Action}
    (positive : 0 < rate) (metered : s.Metered accountId rate (a :: as))
    (moved : s.step a = some s') :
    (∃ c, s.released accountId a = some c ∧ c.request ≤ c.release ∧
      (∀ next, s.accountBandwidth.lookup accountId = some next → next ≤ c.release) ∧
      s'.accountBandwidth.lookup accountId = some (c.release + (c.bytes : ℚ) / rate)) ∨
    s.released accountId a = none ∧
      s'.accountBandwidth.lookup accountId = s.accountBandwidth.lookup accountId := by
  obtain ⟨-, calls, later⟩ := metered
  by_cases own : ∃ i n reg, a = .throttle i n ∧ s.registration? i = some reg ∧
      reg.accountId = accountId
  · obtain ⟨i, n, reg, rfl, found, rfl⟩ := own
    obtain ⟨bytes, limited⟩ := calls reg found rfl
    simp only [Server.step] at moved
    split at moved
    · rw [found] at moved
      cases moved
      have call : s.released reg.accountId (.throttle i n) =
          (s.throttleAccountBytes reg n).1.map
            fun delay => ⟨s.monotonic, n, s.monotonic + delay⟩ := by
        unfold released
        simp only [found, Option.bind_some, if_true]
      rw [call]
      rcases throttle_own limited positive bytes with ⟨start, waits, there, free, next⟩ | ⟨raised, none, gone⟩
      · left
        rw [waits]
        refine ⟨_, rfl, ?_, ?_, ?_⟩
        · simpa using there
        · simpa using free
        · simpa using next
      · right
        rw [raised]
        exact ⟨rfl, gone.trans none.symm⟩
    · cases moved
  · right
    constructor
    · cases call : s.released accountId a with
      | none => rfl
      | some c =>
        obtain ⟨i, n, reg, -, same, found, account, -⟩ := released_some call
        exact absurd ⟨i, n, reg, same, found, account⟩ own
    · exact coherent.schedule_step moved (later s' moved).busy fun i n reg same found account =>
        own ⟨i, n, reg, same, found, account⟩

/-- The chunks of a metered run are paced, from where the schedule is free. -/
theorem Coherent.paced (coherent : s.Coherent) {as : List Action} (positive : 0 < rate)
    (metered : s.Metered accountId rate as) :
    (∀ c ∈ releases accountId s as, c.request ≤ c.release) ∧
      ∃ free, (∀ next, s.accountBandwidth.lookup accountId = some next → next ≤ free) ∧
        Paced (rate : ℚ) free (releases accountId s as) := by
  have nothing : ∀ s : Server, ∃ free : ℚ,
      (∀ next, s.accountBandwidth.lookup accountId = some next → next ≤ free) ∧
        Paced (rate : ℚ) free [] := by
    intro s
    refine ⟨(s.accountBandwidth.lookup accountId).getD 0, fun next found => ?_, trivial⟩
    rw [found]
    exact le_rfl
  induction as generalizing s with
  | nil => exact ⟨fun _ member => absurd member List.not_mem_nil, nothing s⟩
  | cons a as ih =>
    rw [releases]
    cases moved : s.step a with
    | none => exact ⟨fun _ member => absurd member List.not_mem_nil, nothing s⟩
    | some s' =>
      obtain ⟨asked, free, after, paced⟩ := ih (coherent.step moved) (metered.2.2 s' moved)
      rcases coherent.metered_step positive metered moved with
        ⟨c, call, waited, before, next⟩ | ⟨quiet, same⟩
      · simp only [call, Option.toList_some, List.singleton_append]
        constructor
        · intro d member
          rcases List.mem_cons.mp member with rfl | later
          · exact waited
          · exact asked d later
        · exact ⟨c.release, before, le_rfl, paced.earlier (after _ next)⟩
      · simp only [quiet, Option.toList_none, List.nil_append]
        rw [same] at after
        exact ⟨asked, free, after, paced⟩

/-- **The byte rate of an account with local work.** Whatever else the relay does, no chunk
starts before it is asked for, the chunks of the account start in the order of their calls,
and those that start within an interval have at most the rate's bytes for its length and one
chunk more. -/
theorem throttle_schedule {config : ServerConfig} {now monotonic : ℚ} {prior as : List Action}
    (ran : Transition.run step (start config now monotonic) prior = some s) (positive : 0 < rate)
    (metered : s.Metered accountId rate as) :
    (∀ c ∈ releases accountId s as, c.request ≤ c.release) ∧
    (releases accountId s as).Pairwise (fun c d => c.release ≤ d.release) ∧
    ∀ (first length : ℚ) (largest : Nat), 0 ≤ length →
      (∀ c ∈ releases accountId s as, c.bytes ≤ largest) →
      (bytesWithin first (first + length) (releases accountId s as) : ℚ) ≤
        rate * length + largest := by
  have positive' : (0 : ℚ) < rate := Nat.cast_pos.mpr positive
  obtain ⟨asked, free, -, paced⟩ := (coherent_of_run ran).paced positive metered
  exact ⟨asked, paced.ordered positive', fun first length largest forward bounded =>
    paced.bytesWithin_le positive' bounded forward⟩

/-- A tunnel of an account with a limit of 100 bytes a second, and a visitor. -/
def slowTunnel : List Action :=
  .admitTunnel (.tunnelAdmission (.tunnelLease (.str "first") (.str "a") .none .none (.int 0))
      (.int 1) .none (.budget .none (.int 100) .none .none)) (some "x") .http .default ::
    setUp 0 ++ [.visit "x" true, .visitorOpened 0]

/-- Two chunks after an idle time: the second waits until the first is through. -/
def twoChunks : List Action :=
  [.clock 10 10, .throttle 0 200, .clock 11 11, .throttle 0 50]

theorem throttle_schedule_slow : ∃ s, Transition.run step (start smallRelay 0 0) slowTunnel = some s ∧
    releases "a" s twoChunks = [⟨10, 200, 10⟩, ⟨11, 50, 12⟩] ∧
    (bytesWithin (10 : ℚ) (10 + 1) (releases "a" s twoChunks) : ℚ) ≤ 100 * 1 + 200 := by
  have metered : ((Transition.run step (start smallRelay 0 0) slowTunnel).map fun s =>
      (decide (s.Metered "a" 100 twoChunks), releases "a" s twoChunks)) =
        some (true, [⟨10, 200, 10⟩, ⟨11, 50, 12⟩]) := by
    decide +kernel
  obtain ⟨s, ran, found⟩ := Option.map_eq_some_iff.mp metered
  simp only [Prod.mk.injEq, decide_eq_true_eq] at found
  obtain ⟨metered, chunks⟩ := found
  refine ⟨s, ran, chunks, (throttle_schedule ran (by decide) metered).2.2 10 1 200 (by decide) ?_⟩
  rw [chunks]
  decide

end Server
end Chute
