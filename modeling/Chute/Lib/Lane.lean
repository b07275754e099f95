import Mathlib.Algebra.BigOperators.Group.List.Basic
import Mathlib.Logic.Relation
import Mathlib.Tactic.Linarith

/-!
# Credit-controlled lanes

One direction of a multiplexed stream, in general terms. A sending end may put at
most `window` items on the link; the receiving end queues what arrives, hands it
to a consumer, and returns credit over a link of its own once the consumer has
acknowledged enough. Either end can be torn down at any time.

A lane is *lossless* when nothing handed to a link is lost, and *honest* when what is
acknowledged was taken, once. Of every lane reachable from a fresh one it is proved that

* no sender sleeps through a wake-up (`Shaped`);
* an honest lane never has more credit than the window, and it conserves credit if it
  is lossless too (`Credit`);
* what the consumer has taken is what the sender was given, in order (`Ordered`).
-/
namespace Lane

/-- What the forward link carries: a piece of data or the end mark. -/
inductive Packet (α : Type*)
  | data (xs : List α)
  | fin

inductive Phase
  | open_
  | ended
  | aborted
  deriving DecidableEq

/-- `window` is the initial credit; credit goes back once `threshold` items were
acknowledged. -/
structure Params where
  window : Nat
  threshold : Nat
  one_le_threshold : 1 ≤ threshold
  threshold_le : threshold ≤ window

/-- What is assumed of a lane: that it loses nothing, and that its consumer acknowledges
what it took and nothing else. -/
structure Mode where
  lossless : Bool
  honest : Bool

/-- The state of a lane. The last seven components are history: what the callers of
the sending end passed and what the consumer at the other end was given. -/
structure State (α : Type*) where
  window : Int
  call : Option (List α)
  doomed : Bool
  asleep : Bool
  wake : Bool
  ended : Bool
  senderDead : Bool
  link : List (Packet α)
  back : List Nat
  queue : List (List α)
  phase : Phase
  held : Nat
  unacked : Nat
  receiverDead : Bool
  passed : List (List α)
  failed : Bool
  clean : Bool
  mark : Option (List (List α) × Bool)
  taken : List (List α)
  byFin : Bool
  told : Bool

variable {α : Type*}

def fresh (P : Params) : State α where
  window := P.window
  call := none
  doomed := false
  asleep := false
  wake := false
  ended := false
  senderDead := false
  link := []
  back := []
  queue := []
  phase := .open_
  held := 0
  unacked := 0
  receiverDead := false
  passed := []
  failed := false
  clean := true
  mark := none
  taken := []
  byFin := false
  told := false

def Packet.items : Packet α → List α
  | data xs => xs
  | fin => []

/-- What can happen on a lane. -/
inductive Step (P : Params) (mode : Mode) : State α → State α → Prop
  /-- A call gets the sending end for itself. -/
  | begin {s} (xs : List α) (free : s.call = none) (live : s.senderDead = false)
      (going : s.ended = false) :
      Step P mode s { s with
        call := some xs, doomed := false, asleep := false
        passed := s.passed ++ [xs], clean := s.clean && !s.failed }
  /-- A call is refused outright. -/
  | refuse {s} (xs : List α) (free : s.call = none) :
      Step P mode s { s with
        passed := s.passed ++ [xs], clean := s.clean && !s.failed, failed := true }
  | transmit {s} (view : List α) (n : Nat) (busy : s.call = some view) (able : s.doomed = false)
      (pos : 0 < n) (fits : n ≤ view.length) (credit : (n : Int) ≤ s.window)
      (live : s.senderDead = false) (going : s.ended = false) :
      Step P mode s { s with
        window := s.window - n, call := some (view.drop n), asleep := false
        link := s.link ++ [.data (view.take n)] }
  /-- The piece is charged to the window but never reaches the link. -/
  | lose {s} (view : List α) (n : Nat) (busy : s.call = some view)
      (credit : (n : Int) ≤ s.window) (loose : mode.lossless = false) :
      Step P mode s { s with
        window := s.window - n, call := some (view.drop n), doomed := true, asleep := false }
  | sleep {s} (view : List α) (busy : s.call = some view) (able : s.doomed = false)
      (dry : s.window ≤ 0) (live : s.senderDead = false) (going : s.ended = false) :
      Step P mode s { s with asleep := true, wake := false }
  | finish {s} (busy : s.call = some []) (able : s.doomed = false) :
      Step P mode s { s with call := none, asleep := false }
  | fail {s} (view : List α) (busy : s.call = some view) :
      Step P mode s { s with call := none, doomed := false, asleep := false, failed := true }
  /-- The end mark; `sent` is false when it never reaches the link. -/
  | hangUp {s} (sent : Bool) (free : s.call = none) (live : s.senderDead = false)
      (going : s.ended = false) :
      Step P mode s { s with
        ended := true, mark := some (s.passed, s.failed)
        link := s.link ++ if sent then [.fin] else [] }
  | grant {s} (credit : Nat) (rest : List Nat) (window : Int) (arrives : s.back = credit :: rest)
      (paid : mode.honest = true → window = s.window + credit) (live : s.senderDead = false) :
      Step P mode s { s with back := rest, window := window, wake := true }
  | dropCredit {s} (credit : Nat) (rest : List Nat) (arrives : s.back = credit :: rest)
      (why : s.senderDead = true ∨ credit = 0) :
      Step P mode s { s with back := rest }
  | deliver {s} (xs : List α) (rest : List (Packet α)) (arrives : s.link = .data xs :: rest)
      (accepting : s.phase = .open_) :
      Step P mode s { s with link := rest, queue := s.queue ++ [xs] }
  /-- The receiving end gives the lane up instead of queueing the piece. -/
  | overflow {s} (xs : List α) (rest : List (Packet α)) (arrives : s.link = .data xs :: rest)
      (accepting : s.phase = .open_) :
      Step P mode s { s with link := rest, phase := .aborted }
  | drop {s} (packet : Packet α) (rest : List (Packet α)) (arrives : s.link = packet :: rest)
      (why : s.phase ≠ .open_ ∨ packet = .data []) :
      Step P mode s { s with link := rest }
  | deliverFin {s} (rest : List (Packet α)) (arrives : s.link = .fin :: rest)
      (accepting : s.phase = .open_) :
      Step P mode s { s with link := rest, phase := .ended, byFin := true }
  | read {s} (xs : List α) (rest : List (List α)) (first : s.queue = xs :: rest) :
      Step P mode s { s with
        queue := rest, taken := s.taken ++ [xs], held := s.held + xs.length }
  | readEnd {s} (empty : s.queue = []) (past : s.phase ≠ .open_) :
      Step P mode s { s with told := true }
  | ackLate {s} (held : Nat) (why : s.receiverDead = true ∨ s.phase = .aborted)
      (less : held ≤ s.held) :
      Step P mode s { s with held := held }
  | ack {s} (n held : Nat) (honest : mode.honest = true → held + n = s.held)
      (small : s.unacked + n < P.threshold) :
      Step P mode s { s with held := held, unacked := s.unacked + n }
  | flush {s} (n held : Nat) (sent : Bool) (honest : mode.honest = true → held + n = s.held)
      (kept : mode.honest = true → mode.lossless = true → sent = true) (pos : 0 < n) :
      Step P mode s { s with
        held := held, unacked := 0
        back := s.back ++ if sent then [s.unacked + n] else [] }
  | killSender {s} : Step P mode s { s with senderDead := true, wake := true }
  | killReceiver {s} (phase : Phase) (past : phase ≠ .open_) :
      Step P mode s { s with
        receiverDead := true
        phase := if s.phase = .open_ then phase else s.phase }

/-- A lane some run of steps leads to. -/
def Reachable (P : Params) (mode : Mode) (s : State α) : Prop :=
  Relation.ReflTransGen (Step P mode) (fresh P) s

/-! ### Shape -/

/-- How the flags of a lane hang together. -/
structure Shaped (s : State α) : Prop where
  quiet : s.ended = false → Packet.fin ∉ s.link ∧ s.mark = none
  marked : s.ended = true → s.mark ≠ none
  last : ∀ before after, s.link = before ++ .fin :: after → after = []
  past : s.byFin = true → s.link = [] ∧ s.phase = .ended ∧ s.ended = true
  dead : s.receiverDead = true → s.phase ≠ .open_
  why_ended : s.phase = .ended → s.receiverDead = false → s.byFin = true
  told : s.told = true → s.queue = [] ∧ s.phase ≠ .open_
  idle : s.call = none → s.doomed = false ∧ s.asleep = false
  alert : s.asleep = true → s.wake = true ∨
    s.window ≤ 0 ∧ s.senderDead = false ∧ s.ended = false

theorem shaped_fresh (P : Params) : Shaped (fresh P : State α) := by
  constructor <;> simp [fresh]

private theorem last_append {link : List (Packet α)} (none : Packet.fin ∉ link) (xs : List α)
    (before after : List (Packet α)) (split : link ++ [.data xs] = before ++ .fin :: after) :
    after = [] := by
  have member : Packet.fin ∈ link ++ [Packet.data xs] := by simp [split]
  simp [none] at member

private theorem last_fin {link : List (Packet α)} (none : Packet.fin ∉ link)
    (before after : List (Packet α)) (split : link ++ [.fin] = before ++ .fin :: after) :
    after = [] := by
  rcases List.eq_nil_or_concat after with rfl | ⟨front, final, rfl⟩
  · rfl
  · exfalso
    have cut : link = before ++ .fin :: front := by
      have shape : before ++ Packet.fin :: front.concat final =
          (before ++ .fin :: front) ++ [final] := by simp
      exact (List.append_inj' (split.trans shape) rfl).1
    exact none (by simp [cut])

private theorem last_tail {link rest : List (Packet α)} {packet : Packet α}
    (last : ∀ before after, link = before ++ .fin :: after → after = [])
    (arrives : link = packet :: rest) (before after : List (Packet α))
    (split : rest = before ++ .fin :: after) : after = [] :=
  last (packet :: before) after (by rw [arrives, split]; rfl)

private theorem quiet_tail {ended : Bool} {link rest : List (Packet α)} {packet : Packet α}
    {unmarked : Prop} (quiet : ended = false → Packet.fin ∉ link ∧ unmarked)
    (arrives : link = packet :: rest) (going : ended = false) :
    Packet.fin ∉ rest ∧ unmarked := by
  have none := (quiet going).1
  rw [arrives] at none
  exact ⟨fun member => none (List.mem_cons_of_mem _ member), (quiet going).2⟩

theorem shaped_step {P : Params} {mode : Mode} {s t : State α} (shaped : Shaped s)
    (step : Step P mode s t) : Shaped t := by
  obtain ⟨quiet, marked, last, past, dead, why_ended, told, idle, alert⟩ := shaped
  cases step with
  | begin xs free live going => exact ⟨quiet, marked, last, past, dead, why_ended, told, by simp, by simp⟩
  | refuse xs free => exact ⟨quiet, marked, last, past, dead, why_ended, told, idle, alert⟩
  | transmit view n busy able pos fits credit live going =>
    have none := (quiet going).1
    refine ⟨fun _ => ⟨by simpa using none, (quiet going).2⟩, marked, last_append none _, ?_, dead, why_ended,
      told, by simp, by simp⟩
    intro fin
    simp [going] at past
    simp [past] at fin
  | lose view n busy credit loose => exact ⟨quiet, marked, last, past, dead, why_ended, told, by simp, by simp⟩
  | sleep view busy able dry live going =>
    exact ⟨quiet, marked, last, past, dead, why_ended, told, by simp [busy], fun _ => Or.inr ⟨dry, live, going⟩⟩
  | finish busy able => exact ⟨quiet, marked, last, past, dead, why_ended, told, fun _ => ⟨able, rfl⟩, by simp⟩
  | fail view busy => exact ⟨quiet, marked, last, past, dead, why_ended, told, by simp, by simp⟩
  | hangUp sent free live going =>
    have none := (quiet going).1
    refine ⟨by simp, by simp, ?_, ?_, dead, why_ended, told, idle, ?_⟩
    · intro before after split
      cases sent with
      | false =>
        simp only [Bool.false_eq_true, if_false, List.append_nil] at split
        exact last before after split
      | true => exact last_fin none before after (by simpa using split)
    · intro fin
      simp [going] at past
      simp [past] at fin
    · intro asleep
      simp [(idle free).2] at asleep
  | grant credit rest window arrives paid live =>
    exact ⟨quiet, marked, last, past, dead, why_ended, told, idle, fun _ => Or.inl rfl⟩
  | dropCredit credit rest arrives why => exact ⟨quiet, marked, last, past, dead, why_ended, told, idle, alert⟩
  | deliver xs rest arrives accepting =>
    refine ⟨quiet_tail quiet arrives, marked, last_tail last arrives, ?_, dead, why_ended, ?_, idle, alert⟩
    · intro fin
      simp [accepting] at past
      simp [past] at fin
    · intro told'
      exact absurd accepting (told told').2
  | overflow xs rest arrives accepting =>
    refine ⟨quiet_tail quiet arrives, marked, last_tail last arrives, ?_, by simp, by simp, ?_, idle, alert⟩
    · intro fin
      simp [accepting] at past
      simp [past] at fin
    · intro told'
      exact absurd accepting (told told').2
  | drop packet rest arrives why =>
    refine ⟨quiet_tail quiet arrives, marked, last_tail last arrives, ?_, dead, why_ended, told, idle, alert⟩
    intro fin
    simp [arrives] at past
    simp [past] at fin
  | deliverFin rest arrives accepting =>
    have empty : rest = [] := last [] rest (by simp [arrives])
    have ended : s.ended = true := by
      by_contra going
      simp [arrives, going] at quiet
    refine ⟨by simp [ended], marked, by simp [empty], fun _ => ⟨empty, rfl, ended⟩, by simp, fun _ _ => rfl, ?_, idle,
      alert⟩
    intro told'
    exact absurd accepting (told told').2
  | read xs rest first =>
    refine ⟨quiet, marked, last, past, dead, why_ended, ?_, idle, alert⟩
    intro told'
    simp [first] at told
    simp [told] at told'
  | readEnd empty past' =>
    exact ⟨quiet, marked, last, past, dead, why_ended, fun _ => ⟨empty, past'⟩, idle, alert⟩
  | ackLate held why less => exact ⟨quiet, marked, last, past, dead, why_ended, told, idle, alert⟩
  | ack n held honest small => exact ⟨quiet, marked, last, past, dead, why_ended, told, idle, alert⟩
  | flush n held sent honest kept pos => exact ⟨quiet, marked, last, past, dead, why_ended, told, idle, alert⟩
  | killSender => exact ⟨quiet, marked, last, past, dead, why_ended, told, idle, fun _ => Or.inl rfl⟩
  | killReceiver phase past' =>
    have shut : (if s.phase = .open_ then phase else s.phase) ≠ .open_ := by
      split <;> assumption
    refine ⟨quiet, marked, last, ?_, fun _ => shut, by simp, fun t => ⟨(told t).1, shut⟩, idle, alert⟩
    intro fin
    have ended := (past fin).2.1
    exact ⟨(past fin).1, by simp [ended], (past fin).2.2⟩

/-! ### Credit -/

/-- Everything the initial credit has become: still with the sender, on the link,
queued, taken but not acknowledged, acknowledged but not returned, on its way back. -/
def total (s : State α) : Int :=
  s.window + ((s.link.map fun p => p.items.length).sum + (s.queue.map List.length).sum +
    s.held + s.unacked + s.back.sum : Nat)

structure Credit (P : Params) (mode : Mode) (s : State α) : Prop where
  nonneg : 0 ≤ s.window
  linked : ∀ xs, Packet.data xs ∈ s.link → xs ≠ []
  queued : ∀ xs ∈ s.queue, xs ≠ []
  credits : ∀ c ∈ s.back, 0 < c
  below : s.unacked < P.threshold
  bound : total s ≤ P.window
  conserved : mode.lossless = true → s.senderDead = false → s.receiverDead = false → s.phase ≠ .aborted →
    total s = P.window

theorem credit_fresh (P : Params) (mode : Mode) : Credit P mode (fresh P : State α) := by
  have := P.one_le_threshold
  constructor <;> simp [fresh, total]
  omega

theorem credit_step {P : Params} {mode : Mode} {s t : State α} (fair : mode.honest = true)
    (shaped : Shaped s) (credit : Credit P mode s) (step : Step P mode s t) : Credit P mode t := by
  obtain ⟨nonneg, linked, queued, credits, below, bound, conserved⟩ := credit
  cases step with
  | begin xs free live going => exact ⟨nonneg, linked, queued, credits, below, bound, conserved⟩
  | refuse xs free => exact ⟨nonneg, linked, queued, credits, below, bound, conserved⟩
  | transmit view n busy able pos fits enough live going =>
    have same : total { s with
        window := s.window - n, call := some (view.drop n), asleep := false
        link := s.link ++ [.data (view.take n)] } = total s := by
      simp only [total, List.map_append, List.map_cons, List.map_nil, List.sum_append, List.sum_cons,
        List.sum_nil, Packet.items, List.length_take]
      omega
    refine ⟨by simp only; omega, ?_, queued, credits, below, by rw [same]; exact bound, ?_⟩
    · intro xs member
      simp only [List.mem_append, List.mem_singleton, Packet.data.injEq] at member
      rcases member with old | rfl
      · exact linked xs old
      · intro empty
        have := congrArg List.length empty
        simp only [List.length_take, List.length_nil] at this
        omega
    · rw [same]; exact conserved
  | lose view n busy enough loose =>
    have less : total { s with
        window := s.window - n, call := some (view.drop n), doomed := true, asleep := false } + n =
        total s := by
      simp only [total]
      omega
    exact ⟨by simp only; omega, linked, queued, credits, below, by omega, by simp [loose]⟩
  | sleep view busy able dry live going => exact ⟨nonneg, linked, queued, credits, below, bound, conserved⟩
  | finish busy able => exact ⟨nonneg, linked, queued, credits, below, bound, conserved⟩
  | fail view busy => exact ⟨nonneg, linked, queued, credits, below, bound, conserved⟩
  | hangUp sent free live going =>
    have same : total { s with
        ended := true, mark := some (s.passed, s.failed)
        link := s.link ++ if sent then [.fin] else [] } = total s := by
      cases sent <;> simp [total, Packet.items]
    refine ⟨nonneg, ?_, queued, credits, below, by rw [same]; exact bound, by rw [same]; exact conserved⟩
    intro xs member
    cases sent <;> simp at member <;> exact linked xs member
  | grant n rest window arrives paid live =>
    have same : total { s with back := rest, window := window, wake := true } = total s := by
      simp only [total, arrives, List.sum_cons, paid fair]
      omega
    have credit : 0 ≤ window := by rw [paid fair]; omega
    refine ⟨credit, linked, queued, ?_, below, by rw [same]; exact bound, by rw [same]; exact conserved⟩
    intro c member
    exact credits c (by simp [arrives, member])
  | dropCredit n rest arrives why =>
    have less : total { s with back := rest } + n = total s := by
      simp only [total, arrives, List.sum_cons]
      omega
    refine ⟨nonneg, linked, queued, ?_, below, by omega, ?_⟩
    · intro c member
      exact credits c (by simp [arrives, member])
    · intro whole alive
      rcases why with gone | rfl
      · simp [gone] at alive
      · intro receiver phase
        have := conserved whole alive receiver phase
        omega
  | deliver xs rest arrives accepting =>
    have same : total { s with link := rest, queue := s.queue ++ [xs] } = total s := by
      simp only [total, arrives, List.map_append, List.map_cons, List.map_nil, List.sum_append,
        List.sum_cons, List.sum_nil, Packet.items]
      omega
    refine ⟨nonneg, ?_, ?_, credits, below, by rw [same]; exact bound, by rw [same]; exact conserved⟩
    · intro ys member
      exact linked ys (by simp [arrives, member])
    · intro ys member
      simp only [List.mem_append, List.mem_singleton] at member
      rcases member with old | rfl
      · exact queued ys old
      · exact linked ys (by simp [arrives])
  | overflow xs rest arrives accepting =>
    have less : total { s with link := rest, phase := .aborted } + xs.length = total s := by
      simp only [total, arrives, List.map_cons, List.sum_cons, Packet.items]
      omega
    refine ⟨nonneg, ?_, queued, credits, below, by omega, by simp⟩
    intro ys member
    exact linked ys (by simp [arrives, member])
  | drop packet rest arrives why =>
    have less : total { s with link := rest } + packet.items.length = total s := by
      simp only [total, arrives, List.map_cons, List.sum_cons]
      omega
    refine ⟨nonneg, ?_, queued, credits, below, by omega, ?_⟩
    · intro ys member
      exact linked ys (by simp [arrives, member])
    · -- a live lane past its end mark has an empty link, so nothing of value is dropped
      intro whole sender receiver phase
      rcases why with past | rfl
      · have ended : s.phase = .ended := by
          cases h : s.phase <;> simp_all
        have := (shaped.past (shaped.why_ended ended receiver)).1
        simp [arrives] at this
      · have := conserved whole sender receiver phase
        simp only [Packet.items, List.length_nil] at less
        omega
  | deliverFin rest arrives accepting =>
    have same : total { s with link := rest, phase := .ended, byFin := true } = total s := by
      simp [total, arrives, Packet.items]
    refine ⟨nonneg, ?_, queued, credits, below, by rw [same]; exact bound, ?_⟩
    · intro ys member
      exact linked ys (by simp [arrives, member])
    · intro whole sender receiver _
      rw [same]
      exact conserved whole sender receiver (by simp [accepting])
  | read xs rest first =>
    have same : total { s with
        queue := rest, taken := s.taken ++ [xs], held := s.held + xs.length } = total s := by
      simp only [total, first, List.map_cons, List.sum_cons]
      omega
    refine ⟨nonneg, linked, ?_, credits, below, by rw [same]; exact bound, by rw [same]; exact conserved⟩
    intro ys member
    exact queued ys (by simp [first, member])
  | readEnd empty past => exact ⟨nonneg, linked, queued, credits, below, bound, conserved⟩
  | ackLate held why less =>
    refine ⟨nonneg, linked, queued, credits, below, ?_, ?_⟩
    · simp only [total] at bound ⊢; omega
    · intro _ _ receiver phase
      rcases why with gone | gone <;> simp_all
  | ack n held honest small =>
    have same : total { s with held := held, unacked := s.unacked + n } = total s := by
      simp only [total, ← honest fair]; omega
    exact ⟨nonneg, linked, queued, credits, small, by rw [same]; exact bound, by rw [same]; exact conserved⟩
  | flush n held sent honest kept pos =>
    have less : total { s with
        held := held, unacked := 0
        back := s.back ++ if sent then [s.unacked + n] else [] } +
        (if sent then 0 else s.unacked + n : Nat) = total s := by
      cases sent <;> simp [total, ← honest fair] <;> omega
    refine ⟨nonneg, linked, queued, ?_, P.one_le_threshold, by omega, ?_⟩
    · intro c member
      simp only [List.mem_append] at member
      rcases member with old | new
      · exact credits c old
      · cases sent with
        | false => cases new
        | true =>
          rw [if_pos rfl, List.mem_singleton] at new
          omega
    · intro whole sender receiver phase
      have before := conserved whole sender receiver phase
      have sent' := kept fair whole
      subst sent'
      simp only [if_true, Nat.cast_zero, add_zero] at less ⊢
      rw [less]
      exact before
  | killSender => exact ⟨nonneg, linked, queued, credits, below, bound, by simp⟩
  | killReceiver phase past => exact ⟨nonneg, linked, queued, credits, below, bound, by simp⟩

theorem shaped_of_reachable {P : Params} {mode : Mode} {s : State α}
    (reachable : Reachable P mode s) : Shaped s := by
  induction reachable with
  | refl => exact shaped_fresh P
  | tail _ step ih => exact shaped_step ih step

/-- **Credit conservation** on honest lanes. -/
theorem credit_of_reachable {P : Params} {mode : Mode} (fair : mode.honest = true) {s : State α}
    (reachable : Reachable P mode s) : Credit P mode s := by
  induction reachable with
  | refl => exact credit_fresh P mode
  | tail before step ih => exact credit_step fair (shaped_of_reachable before) ih step

/-- A live lane with nothing in motion has credit at the sending end: what
the receiving end sits on is below the threshold, and so below the window. -/
theorem window_pos_of_still {P : Params} {s : State α} (reachable : Reachable P ⟨true, true⟩ s)
    (sender : s.senderDead = false) (receiver : s.receiverDead = false) (phase : s.phase ≠ .aborted)
    (link : s.link = []) (queue : s.queue = []) (held : s.held = 0) (back : s.back = []) :
    0 < s.window := by
  have credit := credit_of_reachable rfl reachable
  have conserved := credit.conserved rfl sender receiver phase
  have below := credit.below
  have fits := P.threshold_le
  simp only [total, link, queue, held, back, List.map_nil, List.sum_nil] at conserved
  omega

/-! ### Order -/

/-- What the consumer was given or will be given next. -/
def got (s : State α) : List α := s.taken.flatten ++ s.queue.flatten

/-- What is on the link. -/
def air (s : State α) : List α := (s.link.map Packet.items).flatten

/-- What the call in progress has not transmitted yet. -/
def rest (s : State α) : List α := s.call.getD []

structure Ordered (s : State α) : Prop where
  clean_of_ok : s.failed = false → s.clean = true
  ok_of_busy : s.call ≠ none → s.clean = true → s.failed = false
  whole : s.phase = .open_ → s.failed = false → s.doomed = false →
    got s ++ air s ++ rest s = s.passed.flatten
  part : s.phase = .open_ → s.clean = true → got s ++ air s <+: s.passed.flatten
  shut : s.clean = true → got s <+: s.passed.flatten
  marked : ∀ given, s.mark = some (given, false) → Packet.fin ∈ s.link → s.phase = .open_ →
    got s ++ air s = given.flatten
  closed : ∀ given, s.mark = some (given, false) → s.byFin = true → got s = given.flatten

theorem ordered_fresh (P : Params) : Ordered (fresh P : State α) := by
  constructor <;> simp [fresh, got, air, rest]

theorem ordered_step {P : Params} {mode : Mode} {s t : State α} (shaped : Shaped s)
    (ordered : Ordered s) (step : Step P mode s t) : Ordered t := by
  obtain ⟨clean_of_ok, ok_of_busy, whole, part, shut, marked, closed⟩ := ordered
  cases step with
  | begin xs free live going =>
    have still := (shaped.idle free).1
    have unmarked := (shaped.quiet going).2
    have grown : ∀ {ys : List α}, ys <+: s.passed.flatten → ys <+: (s.passed ++ [xs]).flatten :=
      fun h => by rw [List.flatten_append]; exact h.trans (List.prefix_append _ _)
    refine ⟨?_, ?_, ?_, ?_, ?_, ?_, ?_⟩
    · intro ok
      simp [clean_of_ok ok, show s.failed = false from ok]
    · intro _ clean
      simp only [Bool.and_eq_true, Bool.not_eq_true'] at clean
      exact clean.2
    · intro accepting ok _
      have before := whole accepting ok still
      simp only [got, air, rest, free, Option.getD_none, Option.getD_some, List.append_nil,
        List.flatten_append, List.flatten_cons, List.flatten_nil] at before ⊢
      rw [before]
    · intro accepting clean
      simp only [Bool.and_eq_true] at clean
      exact grown (part accepting clean.1)
    · intro clean
      simp only [Bool.and_eq_true] at clean
      exact grown (shut clean.1)
    · intro given mark
      simp [unmarked] at mark
    · intro given mark
      simp [unmarked] at mark
  | refuse xs free =>
    have grown : ∀ {ys : List α}, ys <+: s.passed.flatten → ys <+: (s.passed ++ [xs]).flatten :=
      fun h => by rw [List.flatten_append]; exact h.trans (List.prefix_append _ _)
    refine ⟨by simp, ?_, by simp, ?_, ?_, marked, closed⟩
    · intro busy
      exact absurd free busy
    · intro accepting clean
      simp only [Bool.and_eq_true] at clean
      exact grown (part accepting clean.1)
    · intro clean
      simp only [Bool.and_eq_true] at clean
      exact grown (shut clean.1)
  | transmit view n busy able pos fits credit live going =>
    have unmarked := (shaped.quiet going).2
    have moved : s.phase = .open_ → s.failed = false →
        got s ++ (air s ++ view.take n) ++ view.drop n = s.passed.flatten := by
      intro accepting ok
      have before := whole accepting ok able
      simp only [rest, busy, Option.getD_some] at before
      simpa using before
    have aired : air { s with
        window := s.window - n, call := some (view.drop n), asleep := false
        link := s.link ++ [.data (view.take n)] } = air s ++ view.take n := by
      simp [air, Packet.items]
    refine ⟨clean_of_ok, fun _ => ok_of_busy (by simp [busy]), ?_, ?_, shut, ?_, ?_⟩
    · intro accepting ok _
      rw [aired]
      exact moved accepting ok
    · intro accepting clean
      rw [aired]
      exact ⟨view.drop n, moved accepting (ok_of_busy (by simp [busy]) clean)⟩
    · intro given mark
      simp [unmarked] at mark
    · intro given mark
      simp [unmarked] at mark
  | lose view n busy credit loose =>
    exact ⟨clean_of_ok, fun _ => ok_of_busy (by simp [busy]), by simp, part, shut, marked, closed⟩
  | sleep view busy able dry live going =>
    exact ⟨clean_of_ok, ok_of_busy, whole, part, shut, marked, closed⟩
  | finish busy able =>
    refine ⟨clean_of_ok, by simp, ?_, part, shut, marked, closed⟩
    intro accepting ok _
    have before := whole accepting ok able
    simpa [got, air, rest, busy] using before
  | fail view busy =>
    exact ⟨by simp, by simp, by simp, part, shut, marked, closed⟩
  | hangUp sent free live going =>
    have none := (shaped.quiet going).1
    have still := (shaped.idle free).1
    have aired : air { s with
        ended := true, mark := some (s.passed, s.failed)
        link := s.link ++ if sent then [.fin] else [] } = air s := by
      cases sent <;> simp [air, Packet.items]
    refine ⟨clean_of_ok, ok_of_busy, ?_, ?_, shut, ?_, ?_⟩
    · intro accepting ok able
      rw [aired]
      exact whole accepting ok able
    · intro accepting clean
      rw [aired]
      exact part accepting clean
    · intro given mark _ accepting
      simp only [Option.some.injEq, Prod.mk.injEq] at mark
      obtain ⟨rfl, ok⟩ := mark
      have before := whole accepting ok still
      rw [aired]
      simpa [got, rest, free] using before
    · intro given _ fin
      have := (shaped.past fin).2.2
      simp [going] at this
  | grant credit rest window arrives paid live =>
    exact ⟨clean_of_ok, ok_of_busy, whole, part, shut, marked, closed⟩
  | dropCredit credit rest arrives why =>
    exact ⟨clean_of_ok, ok_of_busy, whole, part, shut, marked, closed⟩
  | deliver xs tail arrives accepting =>
    have same : got { s with link := tail, queue := s.queue ++ [xs] } ++
        air { s with link := tail, queue := s.queue ++ [xs] } = got s ++ air s := by
      simp [got, air, arrives, Packet.items]
    refine ⟨clean_of_ok, ok_of_busy, ?_, ?_, ?_, ?_, ?_⟩
    · intro _ ok able
      rw [same]
      exact whole accepting ok able
    · intro _ clean
      rw [same]
      exact part accepting clean
    · intro clean
      refine List.IsPrefix.trans ?_ (part accepting clean)
      rw [← same]
      exact List.prefix_append _ _
    · intro given mark fin _
      rw [same]
      exact marked given mark (by rw [arrives]; exact List.mem_cons_of_mem _ fin) accepting
    · intro given mark fin
      have := (shaped.past fin).1
      simp [arrives] at this
  | overflow xs tail arrives accepting =>
    exact ⟨clean_of_ok, ok_of_busy, by simp, by simp, shut, by simp, closed⟩
  | drop packet tail arrives why =>
    rcases why with past | rfl
    · exact ⟨clean_of_ok, ok_of_busy, fun accepting => absurd accepting past,
        fun accepting => absurd accepting past, shut, fun _ _ _ accepting => absurd accepting past,
        closed⟩
    · have aired : air { s with link := tail } = air s := by
        simp [air, arrives, Packet.items]
      refine ⟨clean_of_ok, ok_of_busy, ?_, ?_, shut, ?_, closed⟩
      · intro accepting ok able
        rw [aired]
        exact whole accepting ok able
      · intro accepting clean
        rw [aired]
        exact part accepting clean
      · intro given mark fin accepting
        rw [aired]
        exact marked given mark (by rw [arrives]; exact List.mem_cons_of_mem _ fin) accepting
  | deliverFin tail arrives accepting =>
    have empty : tail = [] := shaped.last [] tail (by rw [arrives]; rfl)
    have still : air s = [] := by simp [air, arrives, empty, Packet.items]
    refine ⟨clean_of_ok, ok_of_busy, by simp, by simp, shut, by simp, ?_⟩
    intro given mark _
    have before := marked given mark (by simp [arrives]) accepting
    simpa [got, still] using before
  | read xs tail first =>
    have same : got { s with
        queue := tail, taken := s.taken ++ [xs], held := s.held + xs.length } = got s := by
      simp [got, first]
    refine ⟨clean_of_ok, ok_of_busy, ?_, ?_, ?_, ?_, ?_⟩
    · rw [same]; exact whole
    · rw [same]; exact part
    · rw [same]; exact shut
    · rw [same]; exact marked
    · rw [same]; exact closed
  | readEnd empty past => exact ⟨clean_of_ok, ok_of_busy, whole, part, shut, marked, closed⟩
  | ackLate held why less => exact ⟨clean_of_ok, ok_of_busy, whole, part, shut, marked, closed⟩
  | ack n held honest small => exact ⟨clean_of_ok, ok_of_busy, whole, part, shut, marked, closed⟩
  | flush n held sent honest kept pos =>
    exact ⟨clean_of_ok, ok_of_busy, whole, part, shut, marked, closed⟩
  | killSender => exact ⟨clean_of_ok, ok_of_busy, whole, part, shut, marked, closed⟩
  | killReceiver phase past =>
    have shut' : (if s.phase = .open_ then phase else s.phase) ≠ .open_ := by
      split <;> assumption
    exact ⟨clean_of_ok, ok_of_busy, fun accepting => absurd accepting shut',
      fun accepting => absurd accepting shut', shut, fun _ _ _ accepting => absurd accepting shut',
      closed⟩

theorem ordered_of_reachable {P : Params} {mode : Mode} {s : State α}
    (reachable : Reachable P mode s) : Ordered s := by
  induction reachable with
  | refl => exact ordered_fresh P
  | tail before step ih => exact ordered_step (shaped_of_reachable before) ih step

/-- **In-order delivery**: what the consumer has taken is a prefix of what the sender
was given, as long as nothing was given to it after a failed call. -/
theorem taken_prefix {P : Params} {mode : Mode} {s : State α} (reachable : Reachable P mode s)
    (clean : s.clean = true) : s.taken.flatten <+: s.passed.flatten :=
  (List.prefix_append _ _).trans ((ordered_of_reachable reachable).shut clean)

/-- An end mark that arrived was sent. -/
theorem mark_of_fin {P : Params} {mode : Mode} {s : State α} (reachable : Reachable P mode s)
    (fin : s.byFin = true) : ∃ given failed, s.mark = some (given, failed) := by
  have shaped := shaped_of_reachable reachable
  obtain ⟨⟨given, failed⟩, mark⟩ := Option.ne_none_iff_exists'.mp (shaped.marked (shaped.past fin).2.2)
  exact ⟨given, failed, mark⟩

/-- **Complete delivery**: a consumer told of an end that the end mark caused has
taken all that was given before the mark, if no call had failed by then. -/
theorem taken_complete {P : Params} {mode : Mode} {s : State α}
    (reachable : Reachable P mode s) (given : List (List α)) (mark : s.mark = some (given, false))
    (fin : s.byFin = true) (told : s.told = true) : s.taken.flatten = given.flatten := by
  have all := (ordered_of_reachable reachable).closed given mark fin
  have empty := ((shaped_of_reachable reachable).told told).1
  simpa [got, empty] using all

end Lane
