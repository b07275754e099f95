import Mathlib.Algebra.Order.Field.Basic
import Mathlib.Algebra.Order.Field.Rat
import Mathlib.Tactic.Linarith
import Mathlib.Tactic.NormNum
import Mathlib.Tactic.Positivity
import Mathlib.Tactic.Ring
import Chute.Lib.Transition

/-!
# The supervisory loop of the agent

`Tunnel.serve_forever` runs one connection after the other. After one that failed it waits,
longer from one failure to the next; after one that ended cleanly it starts again from the
shortest wait. A connection that was ready and broke off counts as a failure like any other.
-/
namespace Chute

/-- What the server's `ready` reply says. -/
structure ReadyReply where
  publicUrl : String
  subdomain : Option String
  flowWindow : Nat
  deriving DecidableEq, Repr

/-- How `_run_once` ends. -/
inductive RunOnce
  /-- With an error before the tunnel was ready. -/
  | failed
  /-- With an error after it was ready. -/
  | broken (ready : ReadyReply)
  | clean (ready : ReadyReply)
  | fatal (reason : String)
  deriving DecidableEq, Repr

structure Tunnel where
  maxBackoff : ℚ
  attempt : Nat
  stop : Bool
  /-- `_connected` -/
  connected : Bool
  readyError : Option String
  publicUrl : Option String
  subdomain : Option String
  negotiatedMuxFlowWindow : Option Nat
  /-- `serve_forever` has returned or raised. -/
  ended : Bool
  deriving DecidableEq

/-- What one pass of the loop meets: how its attempt ends, whether a stop is asked for before
that, `random.random()`, and whether a stop is asked for during the wait. -/
structure Pass where
  outcome : RunOnce
  stopped : Bool
  draw : ℚ
  woken : Bool
  deriving DecidableEq

namespace Tunnel

def new (maxBackoff : ℚ) : Tunnel where
  maxBackoff := maxBackoff
  attempt := 0
  stop := false
  connected := false
  readyError := none
  publicUrl := none
  subdomain := none
  negotiatedMuxFlowWindow := none
  ended := false

/-- The delay after so many failures. -/
def backoff (maxBackoff : ℚ) (attempt : Nat) (draw : ℚ) : ℚ :=
  min maxBackoff (2 ^ min attempt 6) * (1 / 2 + draw / 2)

/-- The lines before `_run_once`. -/
def clear (t : Tunnel) : Tunnel :=
  { t with
    connected := false
    readyError := none
    publicUrl := none
    subdomain := none
    negotiatedMuxFlowWindow := none }

/-- `_run_once` when the tunnel is ready. -/
def ready (t : Tunnel) (reply : ReadyReply) : Tunnel :=
  { t with
    publicUrl := some reply.publicUrl
    readyError := none
    subdomain := reply.subdomain
    negotiatedMuxFlowWindow := some reply.flowWindow
    connected := true }

/-- `except Exception`: how long the loop waits, `none` where it breaks. -/
def retry (t : Tunnel) (x : Pass) : Option ℚ × Tunnel :=
  let t := { t with attempt := t.attempt + 1 }
  if x.stopped then (none, { t with stop := true, ended := true })
  else (some (backoff t.maxBackoff t.attempt x.draw), { t with stop := x.woken })

/-- One pass of the loop of `serve_forever`, `none` where the loop is over. -/
def serveOnce (t : Tunnel) (x : Pass) : Option (Option ℚ × Tunnel) :=
  if t.ended || t.stop then none
  else
    let t := t.clear
    match x.outcome with
    | .failed => some (t.retry x)
    | .broken reply => some ((t.ready reply).retry x)
    -- a clean disconnect, such as a restart of the server
    | .clean reply => some (none, { t.ready reply with attempt := 0, stop := x.stopped })
    | .fatal reason =>
      some (none, { t with readyError := some reason, connected := true, stop := x.stopped, ended := true })

def step (t : Tunnel) (x : Pass) : Option Tunnel := (t.serveOnce x).map (·.2)

end Tunnel

/-! ### The failures since the tunnel was last ready -/

/-- Failed attempts since the tunnel was last ready; a tunnel that was ready and broke off
counts for one. -/
def failuresSinceReady (k : Nat) : RunOnce → Nat
  | .failed => k + 1
  | .broken _ => 1
  | .clean _ => 0
  | .fatal _ => k

/-- The attempt ends in a way that is tried again. -/
def RunOnce.transient : RunOnce → Bool
  | .failed => true
  | .broken _ => true
  | _ => false

def RunOnce.isBroken : RunOnce → Bool
  | .broken _ => true
  | _ => false

namespace Tunnel

/-- Whatever is drawn, the wait of the pass is within the bound for `k` failures before it. -/
def Bounded (k : Nat) (t : Tunnel) (x : Pass) : Prop :=
  ∀ draw, 0 ≤ draw → draw < 1 → ∀ delay t', t.serveOnce { x with draw := draw } = some (some delay, t') →
    delay ≤ min t.maxBackoff (2 ^ min (failuresSinceReady k x.outcome) 6)

/-- And so for all passes. -/
def BoundedFrom : Nat → Tunnel → List Pass → Prop
  | _, _, [] => True
  | k, t, x :: xs => Bounded k t x ∧
    ∀ t', t.step x = some t' → BoundedFrom (failuresSinceReady k x.outcome) t' xs

/-- If the pass is followed by a wait: the longest wait is no less than 0, and it is 2 seconds
at most, or the tunnel did not break off after another failure since its last clean end. -/
def Calm (t : Tunnel) (x : Pass) : Prop :=
  t.ended = false → t.stop = false → x.outcome.transient = true → x.stopped = false →
    0 ≤ t.maxBackoff ∧ (t.maxBackoff ≤ 2 ∨ (x.outcome.isBroken = true → t.attempt = 0))

variable {t t' : Tunnel} {x : Pass} {maxBackoff : ℚ} {k : Nat}

/-! ### The waits of one pass -/

theorem serveOnce_waits (running : t.ended = false) (unstopped : t.stop = false)
    (transient : x.outcome.transient = true) (going : x.stopped = false) :
    ∃ t', t.serveOnce x = some (some (backoff t.maxBackoff (t.attempt + 1) x.draw), t') := by
  unfold serveOnce
  rw [running, unstopped]
  cases outcome : x.outcome with
  | failed | broken =>
    simp only [Bool.or_self, Bool.false_eq_true, if_false, retry, going, Option.some.injEq,
      Prod.mk.injEq]
    exact ⟨_, rfl, rfl⟩
  | clean | fatal =>
    rw [outcome] at transient
    cases transient

theorem waits_of_serveOnce {delay : ℚ} (waits : t.serveOnce x = some (some delay, t')) :
    t.ended = false ∧ t.stop = false ∧ x.outcome.transient = true ∧ x.stopped = false ∧
      delay = backoff t.maxBackoff (t.attempt + 1) x.draw := by
  unfold serveOnce at waits
  split at waits
  · cases waits
  next going =>
    simp only [Bool.or_eq_true, not_or, Bool.not_eq_true] at going
    cases outcome : x.outcome with
    | failed | broken =>
      simp only [outcome, retry] at waits
      split at waits
      · cases waits
      next unstopped =>
        cases waits
        exact ⟨going.1, going.2, rfl, (Bool.not_eq_true _).mp unstopped, rfl⟩
    | clean | fatal =>
      simp only [outcome] at waits
      cases waits

/-- A wait drawn from half a time up to the time is bounded just if the time is. -/
private theorem draws_le_iff {limit p q : ℚ} (pos_p : 0 < p) (pos_q : 0 < q) :
    (∀ draw, 0 ≤ draw → draw < 1 → min limit p * (1 / 2 + draw / 2) ≤ min limit q) ↔
      0 ≤ limit ∧ min limit p ≤ min limit q := by
  constructor
  · intro all
    have nonneg : 0 ≤ limit := by
      by_contra negative
      rw [not_le] at negative
      have half := all 0 le_rfl one_pos
      rw [min_eq_left (negative.le.trans pos_p.le), min_eq_left (negative.le.trans pos_q.le)] at half
      linarith
    refine ⟨nonneg, ?_⟩
    by_contra longer
    rw [not_le] at longer
    -- a draw that reaches the middle between the two
    have bound : 0 ≤ min limit q := le_min nonneg pos_q.le
    have positive : 0 < min limit p := bound.trans_lt longer
    have drawn := all (min limit q / min limit p) (div_nonneg bound positive.le)
      ((div_lt_one positive).mpr longer)
    have scaled : min limit p * (min limit q / min limit p) = min limit q :=
      mul_div_cancel₀ _ positive.ne'
    have middle : min limit p * (1 / 2 + min limit q / min limit p / 2) =
        (min limit p + min limit p * (min limit q / min limit p)) / 2 := by ring
    rw [middle, scaled] at drawn
    linarith
  · rintro ⟨nonneg, ordered⟩ draw _ below
    have bound : 0 ≤ min limit p := le_min nonneg pos_p.le
    have shorter : min limit p * (1 / 2 + draw / 2) ≤ min limit p * 1 :=
      mul_le_mul_of_nonneg_left (by linarith) bound
    rw [mul_one] at shorter
    exact shorter.trans ordered

/-- The wait of a pass is bounded whatever is drawn just if the longest one is. -/
theorem bounded_iff (running : t.ended = false) (unstopped : t.stop = false)
    (transient : x.outcome.transient = true) (going : x.stopped = false) :
    Bounded k t x ↔ 0 ≤ t.maxBackoff ∧ min t.maxBackoff (2 ^ min (t.attempt + 1) 6) ≤
      min t.maxBackoff (2 ^ min (failuresSinceReady k x.outcome) 6) := by
  rw [← draws_le_iff (by positivity) (by positivity)]
  constructor
  · intro bounded draw low high
    obtain ⟨t', waits⟩ := @serveOnce_waits t { x with draw := draw } running unstopped transient going
    exact bounded draw low high _ t' waits
  · intro all draw low high delay t' waits
    obtain ⟨-, -, -, -, rfl⟩ := waits_of_serveOnce waits
    exact all draw low high

theorem calm_of_bounded (bounded : Bounded k t x) : t.Calm x := by
  intro running unstopped transient going
  obtain ⟨nonneg, ordered⟩ := (bounded_iff running unstopped transient going).mp bounded
  refine ⟨nonneg, ?_⟩
  by_contra other
  rw [not_or, not_le, Classical.not_imp] at other
  obtain ⟨long, broke, again⟩ := other
  -- two seconds are allowed, and four are waited
  have one : failuresSinceReady k x.outcome = 1 := by
    cases outcome : x.outcome with
    | broken => rfl
    | failed | clean | fatal =>
      rw [outcome] at broke
      cases broke
  have allowed : min t.maxBackoff (2 ^ min (failuresSinceReady k x.outcome) 6) ≤ (2 : ℚ) := by
    rw [one]
    exact (min_le_right _ _).trans (by norm_num)
  have four : (2 : ℚ) ^ 2 ≤ 2 ^ min (t.attempt + 1) 6 :=
    pow_le_pow_right₀ one_le_two (by omega)
  have waited : (2 : ℚ) < min t.maxBackoff (2 ^ min (t.attempt + 1) 6) :=
    lt_min long (lt_of_lt_of_le (by norm_num) four)
  linarith

/-- As long as the passes are calm, the loop has counted what the bound counts, where that
makes a difference. -/
def Tied (k : Nat) (t : Tunnel) : Prop :=
  t.ended = true ∨ t.stop = true ∨ t.maxBackoff ≤ 2 ∨ t.attempt = k

theorem bounded_of_calm (tied : Tied k t) (calm : t.Calm x) : Bounded k t x := by
  by_cases waits : t.ended = false ∧ t.stop = false ∧ x.outcome.transient = true ∧ x.stopped = false
  · obtain ⟨running, unstopped, transient, going⟩ := waits
    obtain ⟨nonneg, short⟩ := calm running unstopped transient going
    rw [bounded_iff running unstopped transient going]
    refine ⟨nonneg, ?_⟩
    have counted : 1 ≤ failuresSinceReady k x.outcome := by
      cases outcome : x.outcome with
      | failed => exact Nat.succ_pos k
      | broken => exact Nat.le_refl 1
      | clean | fatal =>
        rw [outcome] at transient
        cases transient
    have within : t.maxBackoff ≤ 2 → min t.maxBackoff (2 ^ min (t.attempt + 1) 6) ≤
        min t.maxBackoff (2 ^ min (failuresSinceReady k x.outcome) 6) := by
      intro small
      have two : (2 : ℚ) ^ 1 ≤ 2 ^ min (failuresSinceReady k x.outcome) 6 :=
        pow_le_pow_right₀ one_le_two (by omega)
      rw [pow_one] at two
      rw [min_eq_left (small.trans two)]
      exact min_le_left _ _
    rcases tied with ended | stop | small | same
    · rw [running] at ended
      cases ended
    · rw [unstopped] at stop
      cases stop
    · exact within small
    · rcases short with small | first
      · exact within small
      · have equal : failuresSinceReady k x.outcome = t.attempt + 1 := by
          cases outcome : x.outcome with
          | failed =>
            rw [same]
            rfl
          | broken =>
            rw [first (by rw [outcome]; rfl)]
            rfl
          | clean | fatal =>
            rw [outcome] at transient
            cases transient
        rw [equal]
  · intro draw _ _ delay t' moved
    obtain ⟨running, unstopped, transient, going, -⟩ := waits_of_serveOnce moved
    exact absurd ⟨running, unstopped, transient, going⟩ waits

/-- One calm pass keeps the counts tied. -/
theorem Tied.step (tied : Tied k t) (calm : t.Calm x) (moved : t.step x = some t') :
    Tied (failuresSinceReady k x.outcome) t' := by
  obtain ⟨⟨delay, after⟩, served, rfl⟩ := Option.map_eq_some_iff.mp moved
  unfold serveOnce at served
  split at served
  · cases served
  next going =>
    simp only [Bool.or_eq_true, not_or, Bool.not_eq_true] at going
    have before : t.maxBackoff ≤ 2 ∨ t.attempt = k := by
      rcases tied with ended | stop | rest
      · rw [going.1] at ended
        cases ended
      · rw [going.2] at stop
        cases stop
      · exact rest
    unfold Calm at calm
    cases outcome : x.outcome with
    | failed =>
      simp only [outcome, retry] at served
      split at served <;> cases served
      · exact .inl rfl
      · exact .inr (.inr (before.imp_right fun same => congrArg (· + 1) same))
    | broken reply =>
      simp only [outcome, retry] at served
      split at served
      · cases served
        exact .inl rfl
      next unstopped =>
        cases served
        have short := (calm going.1 going.2 (by rw [outcome]; rfl) ((Bool.not_eq_true _).mp unstopped)).2
        refine .inr (.inr (short.imp_right fun first => ?_))
        exact congrArg (· + 1) (first (by rw [outcome]; rfl))
    | clean reply =>
      simp only [outcome] at served
      cases served
      exact .inr (.inr (.inr rfl))
    | fatal reason =>
      simp only [outcome] at served
      cases served
      exact .inl rfl

/-- **When the waits are bounded by the failures since the tunnel was last ready.** In a run
of the loop every wait is, whatever is drawn, just if in every pass that is followed by a wait
the longest wait is not negative, and is 2 seconds at most or the tunnel did not break off
after another failure since its last clean end. -/
theorem backoff_bounded_iff (xs : List Pass) :
    BoundedFrom 0 (new maxBackoff) xs ↔
      Transition.Along step (fun t x => t.Calm x) (new maxBackoff) xs := by
  have forward : ∀ xs k t, BoundedFrom k t xs → Transition.Along step (fun t x => t.Calm x) t xs := by
    intro xs
    induction xs with
    | nil => exact fun _ _ _ => trivial
    | cons x xs ih =>
      rintro k t ⟨here, later⟩
      exact ⟨calm_of_bounded here, fun t' moved => ih _ t' (later t' moved)⟩
  have backward : ∀ xs k t, Tied k t → Transition.Along step (fun t x => t.Calm x) t xs →
      BoundedFrom k t xs := by
    intro xs
    induction xs with
    | nil => exact fun _ _ _ _ => trivial
    | cons x xs ih =>
      rintro k t tied ⟨here, later⟩
      exact ⟨bounded_of_calm tied here, fun t' moved => ih _ t' (tied.step here moved) (later t' moved)⟩
  exact ⟨forward xs 0 _, backward xs 0 _ (.inr (.inr (.inr rfl)))⟩

/-- The tunnel breaks off three times, each time after it was ready. -/
def threeBreaks : List Pass :=
  List.replicate 3 ⟨.broken ⟨"https://x.relay.test/", some "x", 262144⟩, false, 0, false⟩

/-- The third wait is four seconds at least, where two are the bound. -/
theorem backoff_counts_ready : ¬ BoundedFrom 0 (new 30) threeBreaks := by
  intro bounded
  have calm := (bounded.2 _ rfl).2 _ rfl
  have waited := calm.1 0 le_rfl one_pos _ _ rfl
  revert waited
  decide +kernel

end Tunnel

end Chute
