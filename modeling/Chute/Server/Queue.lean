import Mathlib.Data.List.Perm.Basic
import Mathlib.Data.List.Range
import Chute.Server.Events

/-!
# The accounts of the event queue

Best-effort events wait in a bounded queue for the one worker that hands them to the sink. A
failed event goes back into the queue, which others fill in the meantime. Each event is
numbered here, so that it can be followed through its retries.
-/
namespace Chute

/-- The event that the worker holds, if any. -/
def EventWorker.item : EventWorker → Option QueuedEvent
  | .getting => none
  | .sending item => some item
  | .waiting item => some item

namespace Events

/-- The calls of `_emit_event`, and what the worker does between two waits. -/
inductive QueueAction
  | emitEvent (event : LifecycleEvent)
  | emitOpened (event : LifecycleEvent) (sent : Bool)
  | workerGet
  | workerSent (delivered : Bool)
  | workerRetry
  deriving DecidableEq, Repr

def queueStep (e : Events) : QueueAction → Option Events
  | .emitEvent event => some (e.emitEvent event).2
  | .emitOpened event sent => some ((e.generate event.method).emitOpened event sent).2
  | .workerGet => e.workerGet
  | .workerSent delivered => e.workerSent delivered
  | .workerRetry => e.workerRetry

/-- The call is for a best-effort event, and the sink is a real one. -/
def bestEffort (e : Events) : QueueAction → Bool
  | .emitEvent _ => !e.noop
  | .emitOpened _ _ => !e.noop && !e.required
  | _ => false

/-- The queue with a number for each best-effort event. -/
structure Tracked where
  events : Events
  /-- The number of the next event. -/
  next : Nat
  /-- The numbers of what is in the queue, in its order. -/
  queued : List Nat
  held : Option Nat
  /-- The events handed to the sink, each once for each time. -/
  handed : List Nat
  /-- The events delivered or dropped. -/
  settled : List Nat

namespace Tracked

def start (noop required : Bool) : Tracked := ⟨Events.start noop required, 0, [], none, [], []⟩

/-- The event has gone into the queue, or it was dropped; the counter tells. -/
def put (t : Tracked) (number : Nat) (after : Events) : Tracked :=
  if after.dropped = t.events.dropped then { t with events := after, queued := t.queued ++ [number] }
  else { t with events := after, settled := t.settled ++ [number] }

/-- The numbers follow a step of the queue. -/
def follow (t : Tracked) (a : QueueAction) (after : Events) : Tracked :=
  match a with
  | .emitEvent _ | .emitOpened _ _ =>
    if t.events.bestEffort a then { t.put t.next after with next := t.next + 1 }
    else { t with events := after }
  | .workerGet =>
    { t with
      events := after
      queued := t.queued.tail
      held := t.queued.head?
      handed := t.handed ++ t.queued.head?.toList }
  | .workerSent _ =>
    match after.worker with
    | .waiting _ => { t with events := after }
    | _ => { t with events := after, held := none, settled := t.settled ++ t.held.toList }
  | .workerRetry =>
    match t.held with
    | some number => { t.put number after with held := none }
    | none => { t with events := after }

def step (t : Tracked) (a : QueueAction) : Option Tracked :=
  (t.events.queueStep a).map (t.follow a)

/-! ### What is accounted for -/

/-- Every event has one place. The sink was given an event in the queue as often as it was
retried, and the one that the worker holds once more. -/
structure Accounted (t : Tracked) : Prop where
  numbered : (t.settled ++ (t.queued ++ t.held.toList)).Perm (List.range t.next)
  settled : t.settled.length = t.events.delivered + t.events.dropped
  queue : List.Forall₂ (fun number item => t.handed.count number = item.attempts ∧
    item.attempts < eventRetryAttempts) t.queued t.events.queue
  held : t.events.worker.item = none ∧ t.held = none ∨
    ∃ item number, t.events.worker.item = some item ∧ t.held = some number ∧
      t.handed.count number = item.attempts + 1 ∧ item.attempts < eventRetryAttempts
  waiting : ∀ item, t.events.worker = .waiting item → item.attempts + 1 < eventRetryAttempts
  bounded : t.events.queue.length ≤ eventQueueMax
  handed : ∀ number, t.handed.count number ≤ eventRetryAttempts
  unhanded : ∀ number, t.next ≤ number → t.handed.count number = 0

variable {t t' : Tracked} {e : Events}

theorem accounted_start (noop required : Bool) : (start noop required).Accounted where
  numbered := .refl _
  settled := rfl
  queue := .nil
  held := .inl ⟨rfl, rfl⟩
  waiting := nofun
  bounded := Nat.zero_le _
  handed _ := Nat.zero_le _
  unhanded _ _ := rfl

/-- What is accounted for does not depend on what else is counted. -/
theorem Accounted.same (accounted : t.Accounted) (queue : e.queue = t.events.queue)
    (worker : e.worker = t.events.worker) (delivered : e.delivered = t.events.delivered)
    (dropped : e.dropped = t.events.dropped) : { t with events := e }.Accounted where
  numbered := accounted.numbered
  settled := by simpa only [delivered, dropped] using accounted.settled
  queue := by simpa only [queue] using accounted.queue
  held := by simpa only [worker] using accounted.held
  waiting := by simpa only [worker] using accounted.waiting
  bounded := by simpa only [queue] using accounted.bounded
  handed := accounted.handed
  unhanded := accounted.unhanded

/-! ### One step -/

/-- A call for a best-effort event puts it into the queue or drops it. -/
theorem enqueue_cases (e : Events) (event : LifecycleEvent) :
    e.queue.length < eventQueueMax ∧ (e.enqueue event).2 =
        { e with queue := e.queue ++ [⟨event, 0⟩], enqueued := e.enqueued + 1 } ∨
      (e.enqueue event).2 = { e with dropped := e.dropped + 1 } := by
  unfold enqueue putNowait
  split
  next full =>
    split at full
    · cases full
    · exact .inr rfl
  next taken =>
    split at taken
    next room =>
      cases taken
      exact .inl ⟨room, rfl⟩
    · cases taken

/-- The calls of `_emit_event` by what they do to the queue. -/
theorem queueStep_emit {a : QueueAction} {after : Events} (moved : t.events.queueStep a = some after)
    (emits : (∃ event, a = .emitEvent event) ∨ ∃ event sent, a = .emitOpened event sent) :
    ∃ event, t.events.bestEffort a = true ∧ after = ((t.events.generate event.method).enqueue event).2 ∨
      t.events.bestEffort a = false ∧ after = t.events.generate event.method := by
  rcases emits with ⟨event, rfl⟩ | ⟨event, sent, rfl⟩
  · cases moved
    refine ⟨event, ?_⟩
    unfold emitEvent bestEffort
    have same : (t.events.generate event.method).noop = t.events.noop := rfl
    cases real : t.events.noop with
    | true => simp [same, real]
    | false => simp [same, real]
  · cases moved
    refine ⟨event, ?_⟩
    unfold emitOpened bestEffort
    have same : (t.events.generate event.method).noop = t.events.noop := rfl
    have also : (t.events.generate event.method).required = t.events.required := rfl
    cases real : t.events.noop with
    | true => simp [same, real]
    | false =>
      cases needed : t.events.required with
      | true => simp [same, also, real, needed]
      | false => simp [same, also, real, needed]

theorem Accounted.nodup (accounted : t.Accounted) :
    (t.settled ++ (t.queued ++ t.held.toList)).Nodup :=
  accounted.numbered.nodup_iff.mpr List.nodup_range

/-- A new event gets the next number. -/
theorem Accounted.emit (accounted : t.Accounted) (event : LifecycleEvent) :
    { t.put t.next ((t.events.generate event.method).enqueue event).2 with
      next := t.next + 1 }.Accounted := by
  have last : List.range (t.next + 1) = List.range t.next ++ [t.next] := List.range_succ
  have fresh : ∀ number, t.next + 1 ≤ number → t.handed.count number = 0 :=
    fun number later => accounted.unhanded number (by omega)
  rcases enqueue_cases (t.events.generate event.method) event with ⟨room, taken⟩ | full
  · have kept : ((t.events.generate event.method).enqueue event).2.dropped = t.events.dropped := by
      rw [taken]
      rfl
    rw [put, if_pos kept, taken]
    constructor
    · rw [last]
      refine List.Perm.trans ?_ (accounted.numbered.append_right [t.next])
      simp only [List.append_assoc]
      exact ((List.perm_append_comm).append_left _).append_left _
    · exact accounted.settled
    · refine List.rel_append accounted.queue (.cons ⟨accounted.unhanded _ le_rfl, ?_⟩ .nil)
      exact Nat.succ_pos 2
    · exact accounted.held
    · exact accounted.waiting
    · rw [List.length_append]
      exact room
    · exact accounted.handed
    · exact fresh
  · have lost : ((t.events.generate event.method).enqueue event).2.dropped ≠ t.events.dropped := by
      rw [full]
      exact Nat.succ_ne_self _
    rw [put, if_neg lost, full]
    constructor
    · rw [last]
      refine List.Perm.trans ?_ (accounted.numbered.append_right [t.next])
      simp only [List.append_assoc]
      refine List.Perm.append_left _ ?_
      simpa only [List.append_assoc] using
        @List.perm_append_comm _ [t.next] (t.queued ++ t.held.toList)
    · rw [List.length_append, accounted.settled]
      rfl
    · exact accounted.queue
    · exact accounted.held
    · exact accounted.waiting
    · exact accounted.bounded
    · exact accounted.handed
    · exact fresh

private theorem forall₂_of_mem {α β : Type} {R S : α → β → Prop} {as : List α} {bs : List β}
    (related : List.Forall₂ R as bs) (each : ∀ a ∈ as, ∀ b, R a b → S a b) :
    List.Forall₂ S as bs := by
  induction related with
  | nil => exact .nil
  | cons first _ ih =>
    exact .cons (each _ List.mem_cons_self _ first)
      (ih fun a member => each a (List.mem_cons_of_mem _ member))

/-- The worker takes the first event of the queue to the sink. -/
theorem Accounted.get (accounted : t.Accounted) {after : Events}
    (moved : t.events.workerGet = some after) : (t.follow .workerGet after).Accounted := by
  unfold workerGet at moved
  split at moved
  next item rest getting waiting =>
    cases moved
    have queue := accounted.queue
    rw [waiting] at queue
    obtain ⟨number, numbers, ⟨times, few⟩, others, queued⟩ := List.forall₂_cons_right_iff.mp queue
    have idle : t.held = none := by
      rcases accounted.held with ⟨-, none⟩ | ⟨_, _, holds, -⟩
      · exact none
      · rw [getting] at holds
        cases holds
    have nodup := accounted.nodup
    have numbered := accounted.numbered
    rw [queued, idle, Option.toList_none, List.append_nil] at nodup numbered
    have apart : ∀ other ∈ numbers, other ≠ number := by
      intro other member same
      have inner := (List.nodup_append.mp nodup).2.1
      exact (List.nodup_cons.mp inner).1 (same ▸ member)
    have old : number < t.next := by
      have member := numbered.subset (a := number) (by simp)
      exact List.mem_range.mp member
    have count : ∀ other, (t.handed ++ [number]).count other =
        t.handed.count other + if other = number then 1 else 0 := by
      intro other
      rw [List.count_append, List.count_singleton]
      by_cases same : other = number
      · simp [same]
      · simp [same, Ne.symm same]
    unfold follow
    simp only [queued, List.tail_cons, List.head?_cons, Option.toList_some]
    constructor
    · refine List.Perm.trans ?_ numbered
      refine List.Perm.append_left _ ?_
      exact @List.perm_append_comm _ numbers [number]
    · exact accounted.settled
    · refine forall₂_of_mem others fun other member item ⟨times, few⟩ => ?_
      rw [count, if_neg (apart other member)]
      exact ⟨times, few⟩
    · exact .inr ⟨item, number, rfl, rfl, by rw [count, if_pos rfl, times], few⟩
    · exact nofun
    · have bounded := accounted.bounded
      rw [waiting, List.length_cons] at bounded
      exact (Nat.le_succ _).trans bounded
    · intro other
      rw [count]
      split
      next same =>
        rw [same, times]
        exact few
      · exact accounted.handed other
    · intro other later
      have different : other ≠ number := by
        have later : t.next ≤ other := later
        omega
      rw [count, if_neg different]
      exact accounted.unhanded other later
  · cases moved

/-- The worker is through with the event that it holds. -/
theorem Accounted.settle (accounted : t.Accounted) {number : Nat} (held : t.held = some number)
    (getting : e.worker = .getting) (queue : e.queue = t.events.queue)
    (counted : e.delivered + e.dropped = t.events.delivered + t.events.dropped + 1) :
    { t with events := e, held := none, settled := t.settled ++ [number] }.Accounted := by
  constructor
  · refine List.Perm.trans ?_ accounted.numbered
    rw [held, Option.toList_none, List.append_nil, List.append_assoc]
    exact List.Perm.append_left _ List.perm_append_comm
  · rw [List.length_append, accounted.settled]
    exact counted.symm
  · simpa only [queue] using accounted.queue
  · exact .inl ⟨by rw [getting]; rfl, rfl⟩
  · intro item waiting
    rw [getting] at waiting
    cases waiting
  · simpa only [queue] using accounted.bounded
  · exact accounted.handed
  · exact accounted.unhanded

/-- The event that the worker has. -/
theorem Accounted.holds (accounted : t.Accounted) {item : QueuedEvent}
    (busy : t.events.worker.item = some item) : ∃ number, t.held = some number ∧
      t.handed.count number = item.attempts + 1 ∧ item.attempts < eventRetryAttempts := by
  rcases accounted.held with ⟨none, -⟩ | ⟨other, number, holds, held, count, few⟩
  · rw [none] at busy
    cases busy
  · rw [holds] at busy
    cases busy
    exact ⟨number, held, count, few⟩

/-- The sink is through with the event, or has failed. -/
theorem Accounted.sent (accounted : t.Accounted) {delivered : Bool} {after : Events}
    (moved : t.events.workerSent delivered = some after) :
    (t.follow (.workerSent delivered) after).Accounted := by
  unfold workerSent at moved
  split at moved
  next item sending =>
    obtain ⟨number, held, count, few⟩ := @Accounted.holds _ accounted item (by rw [sending]; rfl)
    split at moved
    · cases moved
      unfold follow
      simp only [held, Option.toList_some]
      exact accounted.settle held rfl rfl (by simp only; omega)
    · split at moved
      · cases moved
        unfold follow
        simp only [held, Option.toList_some]
        exact accounted.settle held rfl rfl (by simp only; omega)
      next again =>
        cases moved
        constructor
        · exact accounted.numbered
        · exact accounted.settled
        · exact accounted.queue
        · exact .inr ⟨item, number, rfl, held, count, few⟩
        · rintro _ ⟨⟩
          omega
        · exact accounted.bounded
        · exact accounted.handed
        · exact accounted.unhanded
  · cases moved

/-- The event goes back into the queue, if there is still room. -/
theorem Accounted.retry (accounted : t.Accounted) {after : Events}
    (moved : t.events.workerRetry = some after) : (t.follow .workerRetry after).Accounted := by
  unfold workerRetry at moved
  split at moved
  next item waiting =>
    obtain ⟨number, held, count, -⟩ := @Accounted.holds _ accounted item (by rw [waiting]; rfl)
    have few := accounted.waiting item waiting
    cases moved
    unfold follow putNowait
    simp only [held]
    by_cases room : t.events.queue.length < eventQueueMax
    · simp only [if_pos room, put, if_true]
      constructor
      · refine List.Perm.trans ?_ accounted.numbered
        rw [held]
        simp only [Option.toList_some, Option.toList_none, List.append_nil]
        exact .refl _
      · exact accounted.settled
      · exact List.rel_append accounted.queue (.cons ⟨count, few⟩ .nil)
      · exact .inl ⟨rfl, rfl⟩
      · exact nofun
      · rw [List.length_append]
        exact room
      · exact accounted.handed
      · exact accounted.unhanded
    · simp only [if_neg room, put, if_neg (Nat.succ_ne_self _)]
      exact accounted.settle held rfl rfl (by simp only; omega)
  · cases moved

theorem Accounted.step (accounted : t.Accounted) {a : QueueAction} (moved : t.step a = some t') :
    t'.Accounted := by
  obtain ⟨after, stepped, rfl⟩ := Option.map_eq_some_iff.mp moved
  have emitted : (∃ event, a = .emitEvent event) ∨ (∃ event sent, a = .emitOpened event sent) →
      (t.follow a after).Accounted := by
    intro emits
    have same : t.follow a after = if t.events.bestEffort a then
        { t.put t.next after with next := t.next + 1 } else { t with events := after } := by
      rcases emits with ⟨event, rfl⟩ | ⟨event, sent, rfl⟩ <;> rfl
    rw [same]
    obtain ⟨event, ⟨real, rfl⟩ | ⟨spared, rfl⟩⟩ := queueStep_emit stepped emits
    · rw [if_pos real]
      exact accounted.emit event
    · rw [if_neg (by simp [spared])]
      exact accounted.same rfl rfl rfl rfl
  cases a with
  | emitEvent event => exact emitted (.inl ⟨event, rfl⟩)
  | emitOpened event sent => exact emitted (.inr ⟨event, sent, rfl⟩)
  | workerGet => exact accounted.get stepped
  | workerSent delivered => exact accounted.sent stepped
  | workerRetry => exact accounted.retry stepped

/-! ### The whole run -/

theorem queueStep_config {a : QueueAction} {after : Events} (moved : e.queueStep a = some after) :
    after.noop = e.noop ∧ after.required = e.required := by
  have put : ∀ (e : Events) item after, e.putNowait item = some after →
      after.noop = e.noop ∧ after.required = e.required := by
    intro e item after taken
    unfold putNowait at taken
    split at taken
    · cases taken
      exact ⟨rfl, rfl⟩
    · cases taken
  have enqueue : ∀ (e : Events) event, (e.enqueue event).2.noop = e.noop ∧
      (e.enqueue event).2.required = e.required := by
    intro e event
    rcases enqueue_cases e event with ⟨-, taken⟩ | full
    · rw [taken]
      exact ⟨rfl, rfl⟩
    · rw [full]
      exact ⟨rfl, rfl⟩
  cases a with
  | emitEvent event =>
    cases moved
    unfold emitEvent
    simp only
    split
    · exact ⟨rfl, rfl⟩
    · exact enqueue _ event
  | emitOpened event sent =>
    cases moved
    unfold emitOpened
    split
    · exact ⟨rfl, rfl⟩
    · split
      · exact ⟨rfl, rfl⟩
      · exact enqueue _ event
  | workerGet =>
    simp only [queueStep, workerGet] at moved
    split at moved <;> cases moved
    exact ⟨rfl, rfl⟩
  | workerSent delivered =>
    simp only [queueStep, workerSent] at moved
    split at moved
    · split at moved
      · cases moved
        exact ⟨rfl, rfl⟩
      · split at moved <;> cases moved <;> exact ⟨rfl, rfl⟩
    · cases moved
  | workerRetry =>
    simp only [queueStep, workerRetry] at moved
    split at moved
    · cases moved
      split
      · exact ⟨rfl, rfl⟩
      next taken =>
        obtain ⟨noop, required⟩ := put _ _ _ taken
        exact ⟨noop, required⟩
    · cases moved

theorem put_fields (t : Tracked) (number : Nat) (after : Events) :
    (t.put number after).events = after ∧ (t.put number after).next = t.next ∧
      (t.put number after).handed = t.handed ∧
      ∀ other ∈ t.settled, other ∈ (t.put number after).settled := by
  unfold put
  split
  · exact ⟨rfl, rfl, rfl, fun _ => id⟩
  · exact ⟨rfl, rfl, rfl, fun _ member => List.mem_append_left _ member⟩

/-- A step follows the code, generates an event if it is a call for one, and hands over at
most the first of the queue. -/
theorem follow_fields (t : Tracked) (a : QueueAction) (after : Events) :
    (t.follow a after).events = after ∧
      (t.follow a after).next = t.next + (t.events.bestEffort a).toNat ∧
      (∀ other ∈ t.settled, other ∈ (t.follow a after).settled) ∧
      ((t.follow a after).handed = t.handed ∨
        (t.follow a after).handed = t.handed ++ t.queued.head?.toList) := by
  have emitted : ∀ real : Bool,
      (if real then { t.put t.next after with next := t.next + 1 }
        else { t with events := after }).events = after ∧
      (if real then { t.put t.next after with next := t.next + 1 }
        else { t with events := after }).next = t.next + real.toNat ∧
      (∀ other ∈ t.settled, other ∈ (if real then { t.put t.next after with next := t.next + 1 }
        else { t with events := after }).settled) ∧
      (if real then { t.put t.next after with next := t.next + 1 }
        else { t with events := after }).handed = t.handed := by
    intro real
    obtain ⟨events, -, handed, settled⟩ := put_fields t t.next after
    cases real with
    | true => exact ⟨events, rfl, settled, handed⟩
    | false => exact ⟨rfl, rfl, fun _ => id, rfl⟩
  cases a with
  | emitEvent event =>
    obtain ⟨events, next, settled, handed⟩ := emitted (t.events.bestEffort (.emitEvent event))
    exact ⟨events, next, settled, .inl handed⟩
  | emitOpened event sent =>
    obtain ⟨events, next, settled, handed⟩ := emitted (t.events.bestEffort (.emitOpened event sent))
    exact ⟨events, next, settled, .inl handed⟩
  | workerGet => exact ⟨rfl, rfl, fun _ => id, .inr rfl⟩
  | workerSent delivered =>
    unfold follow
    simp only
    split
    · exact ⟨rfl, rfl, fun _ => id, .inl rfl⟩
    · exact ⟨rfl, rfl, fun _ member => List.mem_append_left _ member, .inl rfl⟩
  | workerRetry =>
    unfold follow
    simp only
    split
    next number held =>
      obtain ⟨events, next, handed, settled⟩ := put_fields t number after
      exact ⟨events, next, settled, .inl handed⟩
    · exact ⟨rfl, rfl, fun _ => id, .inl rfl⟩

/-- What is settled stays so and is not handed to the sink again. -/
theorem Accounted.settled_step (accounted : t.Accounted) {a : QueueAction}
    (moved : t.step a = some t') {number : Nat} (settled : number ∈ t.settled) :
    number ∈ t'.settled ∧ t'.handed.count number = t.handed.count number := by
  obtain ⟨after, stepped, rfl⟩ := Option.map_eq_some_iff.mp moved
  obtain ⟨-, -, kept, handed⟩ := follow_fields t a after
  refine ⟨kept number settled, ?_⟩
  rcases handed with same | first
  · rw [same]
  · rw [first, List.count_append]
    have apart : number ∉ t.queued.head?.toList := by
      intro member
      have queued : number ∈ t.queued := List.mem_of_head? (Option.mem_toList.mp member)
      have apart := (List.nodup_append.mp accounted.nodup).2.2
      exact apart number settled number (List.mem_append_left _ queued) rfl
    rw [List.count_eq_zero_of_not_mem apart, Nat.add_zero]

theorem Accounted.settled_run (accounted : t.Accounted) {as : List QueueAction}
    (ran : Transition.run Tracked.step t as = some t') {number : Nat} (settled : number ∈ t.settled) :
    t'.handed.count number = t.handed.count number := by
  induction as generalizing t with
  | nil =>
    cases ran
    rfl
  | cons a as ih =>
    obtain ⟨u, moved, rest⟩ := Transition.run_cons_iff.mp ran
    obtain ⟨kept, same⟩ := accounted.settled_step moved settled
    exact (ih (accounted.step moved) rest kept).trans same

/-- The events of a run are the best-effort calls in it. -/
theorem generated_run {as : List QueueAction} (ran : Transition.run step t as = some t') :
    t'.next = t.next + (as.filter t.events.bestEffort).length := by
  induction as generalizing t with
  | nil =>
    cases ran
    rfl
  | cons a as ih =>
    obtain ⟨u, moved, rest⟩ := Transition.run_cons_iff.mp ran
    obtain ⟨after, stepped, rfl⟩ := Option.map_eq_some_iff.mp moved
    obtain ⟨events, next, -, -⟩ := follow_fields t a after
    obtain ⟨noop, required⟩ := queueStep_config stepped
    have same : (t.follow a after).events.bestEffort = t.events.bestEffort := by
      rw [events]
      funext a
      unfold bestEffort
      rw [noop, required]
    rw [ih rest, next, same]
    cases real : t.events.bestEffort a with
    | true =>
      rw [List.filter_cons_of_pos real, List.length_cons, Bool.toNat_true]
      omega
    | false =>
      rw [List.filter_cons_of_neg (by simp [real]), Bool.toNat_false, Nat.add_zero]

theorem accounted_of_run {noop required : Bool} {as : List QueueAction}
    (ran : Transition.run step (start noop required) as = some t) : t.Accounted :=
  Transition.run_invariant' (fun _ _ _ accounted moved => accounted.step moved)
    (accounted_start noop required) ran

/-- **The event queue loses nothing and repeats nothing.** In every run the best-effort events
for a real sink are those delivered, those dropped, those in the queue and the one the worker
holds. The sink is given an event no more than three times, and not again after it was
delivered or dropped, and the queue keeps its bound. -/
theorem event_queue_conserved {noop required : Bool} {as : List QueueAction}
    (ran : Transition.run step (start noop required) as = some t) :
    (as.filter (Events.start noop required).bestEffort).length =
        t.events.delivered + t.events.dropped + t.events.queue.length +
          t.events.worker.item.toList.length ∧
      (∀ number, t.handed.count number ≤ eventRetryAttempts) ∧
      (t.settled.Nodup ∧ t.settled.length = t.events.delivered + t.events.dropped) ∧
      (∀ bs t', Transition.run step t bs = some t' → ∀ number ∈ t.settled,
        t'.handed.count number = t.handed.count number) ∧
      t.events.queue.length ≤ eventQueueMax := by
  have accounted := accounted_of_run ran
  refine ⟨?_, accounted.handed, ⟨(List.nodup_append.mp accounted.nodup).1, accounted.settled⟩, fun bs t' later number => accounted.settled_run later,
    accounted.bounded⟩
  have generated := generated_run ran
  have placed := accounted.numbered.length_eq
  have queued := accounted.queue.length_eq
  have held : t.events.worker.item.toList.length = t.held.toList.length := by
    rcases accounted.held with ⟨idle, none⟩ | ⟨item, number, busy, some, -⟩
    · rw [idle, none]
      rfl
    · rw [busy, some]
      rfl
  rw [List.length_append, List.length_append, accounted.settled, List.length_range] at placed
  have counted : t.next = (as.filter (Events.start noop required).bestEffort).length :=
    generated.trans (Nat.zero_add _)
  omega

/-- An event fails once, another one is put before it, and then the sink takes both. -/
def retried : List QueueAction :=
  [.emitEvent .authRejected, .workerGet, .workerSent false, .emitEvent .relayStats, .workerRetry,
    .workerGet, .workerSent true, .workerGet, .workerSent true]

theorem event_queue_conserved_retried : ∃ t, Transition.run step (start false false) retried = some t ∧
    t.events.delivered = 2 ∧ t.handed = [0, 1, 0] ∧
    (retried.filter (Events.start false false).bestEffort).length =
      t.events.delivered + t.events.dropped + t.events.queue.length +
        t.events.worker.item.toList.length := by
  have done : ((Transition.run step (start false false) retried).map fun t =>
      (t.events.delivered, t.handed)) = some (2, [0, 1, 0]) := by
    decide
  obtain ⟨t, ran, found⟩ := Option.map_eq_some_iff.mp done
  simp only [Prod.mk.injEq] at found
  exact ⟨t, ran, found.1, found.2, (event_queue_conserved ran).1⟩

end Tracked

end Events
end Chute
