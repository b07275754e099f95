import Chute.Transit.Owner

/-!
# What an owner does to its stream

The ledger of a stream says what its owner has passed to `send` and what `read` has given it.
Both agree with the socket: the bytes that arrived there were passed in order, up to those the
pump still holds, and what was read was written there. The lock of `send` belongs to the coroutine
that believes to have it.
-/
namespace Chute

namespace Sender

/-- A call of `send` has the lock. -/
def sends : Option Sender → Bool
  | some (.credit _) | some (.data _ _) => true
  | _ => false

/-- A call of `send_eof` has the lock. -/
def ends : Option Sender → Bool
  | some (.eof _) => true
  | _ => false

end Sender

namespace ReaderPump

/-- How far the pump has got with the bytes that come ahead and those that arrived. -/
def Fed (lead : Bytes) (k : Socket) (l : Ledger) : ReaderPump → Prop
  | .reading | .sending => l.failed = false ∧ lead ++ k.arrived = l.passed.flatten ++ k.unread
  | .throttling data | .queued data =>
    l.failed = false ∧ lead ++ k.arrived = l.passed.flatten ++ (data ++ k.unread)
  | .ending | .ended | .done .returned =>
    l.failed = false ∧ lead ++ k.arrived = l.passed.flatten ∧ k.atEof = true
  | .done _ => True

/-- The pump has the lock exactly in these states. -/
def Locks (sender : Option Sender) : ReaderPump → Prop
  | .sending => Sender.sends sender = true
  | .ended => Sender.ends sender = true
  | _ => True

end ReaderPump

namespace WriterPump

/-- What the pump has read and not acknowledged: one chunk at most, which it is busy with. -/
def Owes (pending : List Nat) : WriterPump → Prop
  | .reading => pending = []
  | .throttling chunk => pending = [chunk.length]
  | .draining n => pending = [n]
  | .done .returned _ => pending = []
  | .done .raised _ => True
  | .done .cancelled _ => True

end WriterPump

namespace Owner

/-- The owner has sent the end of its direction: after the last byte of a socket that has come to
its end, or once the other direction was over. -/
def Marked (o : Owner) (l : Ledger) : Prop :=
  ∀ given failed, l.mark = some (given, failed) →
    (failed = false ∧ given.flatten = o.lead ++ o.socket.arrived ∧ o.socket.atEof = true) ∨
      o.cuts = true ∧ ∃ dropped, o.writer = .done .returned dropped

structure Fine (o : Owner) (sender : Option Sender) (l : Ledger) : Prop where
  locks : o.reader.Locks sender
  ending : o.ending = true → Sender.ends sender = true ∧ o.reader ≠ .ended
  clean : l.clean = true
  part : l.passed.flatten <+: o.lead ++ o.socket.arrived
  fed : o.reader.Fed o.lead o.socket l
  marked : o.Marked l
  /-- What was read is written, or held by the pump. -/
  going : o.socket.ended = none → o.socket.written ++ o.writer.held = l.taken.flatten
  wrote : o.socket.written <+: l.taken.flatten
  owes : o.writer.Owes l.pending

variable {o o' : Owner} {sender : Option Sender} {l : Ledger}

/-- The socket may end, and its reader may come to the end of the bytes it has. -/
theorem Fine.still (fine : o.Fine sender l) {k : Socket} (arrived : k.arrived = o.socket.arrived)
    (unread : k.unread = o.socket.unread) (atEof : o.socket.atEof = true → k.atEof = true)
    (written : k.written = o.socket.written) (ended : k.ended = none → o.socket.ended = none) :
    { o with socket := k }.Fine sender l where
  locks := fine.locks
  ending := fine.ending
  clean := fine.clean
  part := arrived ▸ fine.part
  fed := by
    have fed := fine.fed
    simp only
    cases reader : o.reader with
    | reading | sending | throttling | queued =>
      rw [reader] at fed
      simp only [ReaderPump.Fed, arrived, unread] at fed ⊢
      exact fed
    | ending | ended =>
      rw [reader] at fed
      simp only [ReaderPump.Fed, arrived] at fed ⊢
      exact ⟨fed.1, fed.2.1, atEof fed.2.2⟩
    | done how =>
      rw [reader] at fed
      cases how with
      | returned =>
        simp only [ReaderPump.Fed, arrived] at fed ⊢
        exact ⟨fed.1, fed.2.1, atEof fed.2.2⟩
      | raised | cancelled => trivial
  marked given failed mark := by
    rcases fine.marked given failed mark with ⟨ok, whole, eof⟩ | over_
    · exact .inl ⟨ok, by rw [whole, arrived], atEof eof⟩
    · exact .inr over_
  going open_ := by
    rw [written]
    exact fine.going (ended open_)
  wrote := written ▸ fine.wrote
  owes := fine.owes

/-- The socket gets more to read. -/
theorem Fine.arrive (fine : o.Fine sender l) (data : Bytes) (open_ : o.socket.atEof = false) :
    { o with socket := { o.socket with
      arrived := o.socket.arrived ++ data, unread := o.socket.unread ++ data } }.Fine sender l where
  locks := fine.locks
  ending := fine.ending
  clean := fine.clean
  part := by
    rw [← List.append_assoc]
    exact fine.part.trans (List.prefix_append _ _)
  fed := by
    have fed := fine.fed
    simp only
    cases reader : o.reader with
    | reading | sending | throttling | queued =>
      rw [reader] at fed
      obtain ⟨ok, all⟩ := fed
      refine ⟨ok, ?_⟩
      simp only [← List.append_assoc] at all ⊢
      rw [all]
    | ending | ended =>
      rw [reader] at fed
      obtain ⟨-, -, eof⟩ := fed
      rw [open_] at eof
      cases eof
    | done how =>
      cases how with
      | returned =>
        rw [reader] at fed
        obtain ⟨-, -, eof⟩ := fed
        rw [open_] at eof
        cases eof
      | raised | cancelled => trivial
  marked given failed mark := by
    rcases fine.marked given failed mark with ⟨-, -, eof⟩ | over_
    · rw [open_] at eof
      cases eof
    · exact .inr over_
  going := fine.going
  wrote := fine.wrote
  owes := fine.owes

/-- What the socket does on its own. -/
theorem Fine.event (fine : o.Fine sender l) {e : Socket.Event} {k : Socket}
    (event : o.socket.event e = some k) : { o with socket := k }.Fine sender l := by
  cases e with
  | arrive data =>
    simp only [Socket.event] at event
    split at event
    · cases event
    next going =>
      cases event
      simp only [Bool.or_eq_true, not_or, Bool.not_eq_true] at going
      exact fine.arrive data going.1.1
  | peerEof =>
    simp only [Socket.event] at event
    split at event
    · cases event
    · split at event
      · cases event
        exact fine.still rfl rfl (fun _ => rfl) rfl id
      · cases event
        refine fine.still rfl rfl (fun _ => rfl) rfl fun open_ => ?_
        simp at open_
  | peerReset =>
    cases event
    refine fine.still rfl rfl id rfl fun open_ => ?_
    simp at open_
  | dropped =>
    simp only [Socket.event] at event
    split at event
    · cases event
      exact fine.still rfl rfl (fun _ => rfl) rfl id
    · cases event

/-! ### The reader pump -/

/-- A turn of the reader pump leaves the other direction alone. -/
private theorem Fine.feeds (fine : o.Fine sender l) {k : Socket} {pump : ReaderPump} {sender' : Option Sender}
    {l' : Ledger} (arrived : k.arrived = o.socket.arrived) (atEof : k.atEof = o.socket.atEof)
    (written : k.written = o.socket.written) (ended : k.ended = o.socket.ended)
    (taken : l'.taken = l.taken) (pending : l'.pending = l.pending) (locks : pump.Locks sender')
    (ending : o.ending = true → Sender.ends sender' = true ∧ pump ≠ .ended) (clean : l'.clean = true)
    (part : l'.passed.flatten <+: o.lead ++ o.socket.arrived) (fed : pump.Fed o.lead k l')
    (marked : l'.mark = l.mark ∨ l'.mark = some (l.passed, false) ∧
      l.passed.flatten = o.lead ++ o.socket.arrived ∧ o.socket.atEof = true) :
    { o with socket := k, reader := pump }.Fine sender' l' where
  locks := locks
  ending := ending
  clean := clean
  part := arrived ▸ part
  fed := fed
  marked given failed mark := by
    rcases marked with same | ⟨mine, whole, eof⟩
    · rcases fine.marked given failed (same ▸ mark) with ⟨ok, whole, eof⟩ | over_
      · exact .inl ⟨ok, by rw [whole, arrived], by rw [atEof, eof]⟩
      · exact .inr over_
    · cases mine.symm.trans mark
      exact .inl ⟨rfl, by rw [whole, arrived], by rw [atEof, eof]⟩
  going open_ := by
    rw [written, taken]
    exact fine.going (ended ▸ open_)
  wrote := by
    rw [written, taken]
    exact fine.wrote
  owes := pending ▸ fine.owes

/-- What a turn leaves of the stream and of its ledger. -/
def Ran (h : Host) (r : Ref) (s : Stream) (l : Ledger) : Option Action → Result → Stream → Ledger → Prop
  | none, _, s', l' => s' = s ∧ l' = l
  | some call, res, s', l' => (∃ out, h.Touch r s call out res s') ∧ l' = l.after r s call res

variable {h : Host} {r : Ref} {s s' : Stream} {l' : Ledger}

/-- While a call of `send` has the lock, nobody is in `send_eof`. -/
private theorem Fine.not_ending (fine : o.Fine sender l) (sends : Sender.sends sender = true) :
    o.ending ≠ true := by
  intro ending
  have ends := (fine.ending ending).1
  cases sender with
  | none => cases ends
  | some call => cases call <;> simp [Sender.sends, Sender.ends] at sends ends

private theorem Fine.not_ending_of_free (fine : o.Fine sender l) (free : sender = none) : o.ending ≠ true := by
  intro ending
  have ends := (fine.ending ending).1
  rw [free] at ends
  cases ends

/-- The chunk that a pump hands to `send` is the next one. -/
private theorem Fine.send (fine : o.Fine s.sender l) {data : Bytes} {sent : Bool} {res : Result}
    (queued : o.reader = .queued data) (ran : Ran h r s l (some (.send r data sent)) res s' l') :
    { o with reader := ReaderPump.afterSend res }.Fine s'.sender l' := by
  obtain ⟨⟨out, touch⟩, rfl⟩ := ran
  have fed := fine.fed
  rw [queued] at fed
  obtain ⟨ok, all⟩ := fed
  have passed : (l.passed ++ [data]).flatten <+: o.lead ++ o.socket.arrived := by
    rw [all, List.flatten_append, ← List.append_assoc]
    simp
  have noted : l.after r s (.send r data sent) res = { l with
      passed := l.passed ++ [data]
      clean := l.clean && !l.failed
      failed := l.failed || res == .raised } := by
    simp [Ledger.after, Action.target, Ledger.note]
  rw [noted]
  have clean : (l.clean && !l.failed) = true := by simp [fine.clean, ok]
  have next : o.lead ++ o.socket.arrived = (l.passed ++ [data]).flatten ++ o.socket.unread := by
    rw [all]
    simp
  cases touch with
  | refused _ _ free =>
    refine fine.feeds rfl rfl rfl rfl rfl rfl trivial ?_ clean passed trivial (.inl rfl)
    exact fun ending => absurd ending (fine.not_ending_of_free free)
  | started _ _ o' free going sends =>
    have idle := fine.not_ending_of_free free
    cases sends with
    | returns =>
      refine fine.feeds rfl rfl rfl rfl rfl rfl trivial ?_ clean passed ⟨?_, next⟩ (.inl rfl)
      · exact fun ending => absurd ending idle
      · simp [ok]
    | raises =>
      refine fine.feeds rfl rfl rfl rfl rfl rfl trivial ?_ clean passed trivial (.inl rfl)
      exact fun ending => absurd ending idle
    | parks | emits =>
      refine fine.feeds rfl rfl rfl rfl rfl rfl rfl ?_ clean passed ⟨?_, next⟩ (.inl rfl)
      · exact fun ending => absurd ending idle
      · simp [ok]
  | pass other => exact absurd rfl other
  | shut other => exact absurd rfl other

/-- The call of `send` goes on. -/
private theorem Fine.resume (fine : o.Fine s.sender l) {sent : Bool} {res : Result}
    (sending : o.reader = .sending) (ran : Ran h r s l (some (.sendResume r sent)) res s' l') :
    { o with reader := ReaderPump.afterSend res }.Fine s'.sender l' := by
  obtain ⟨⟨out, touch⟩, rfl⟩ := ran
  have locks := fine.locks
  have fed := fine.fed
  rw [sending] at fed locks
  obtain ⟨ok, all⟩ := fed
  have idle := fine.not_ending locks
  have noted : l.after r s (.sendResume r sent) res = { l with failed := l.failed || res == .raised } := by
    simp [Ledger.after, Action.target, Ledger.note]
  rw [noted]
  cases touch with
  | resumed view _ o' busy sends =>
    cases sends with
    | returns =>
      refine fine.feeds rfl rfl rfl rfl rfl rfl trivial ?_ fine.clean fine.part ⟨?_, all⟩ (.inl rfl)
      · exact fun ending => absurd ending idle
      · simp [ok]
    | raises =>
      refine fine.feeds rfl rfl rfl rfl rfl rfl trivial ?_ fine.clean fine.part trivial (.inl rfl)
      exact fun ending => absurd ending idle
    | parks | emits =>
      refine fine.feeds rfl rfl rfl rfl rfl rfl rfl ?_ fine.clean fine.part ⟨?_, all⟩ (.inl rfl)
      · exact fun ending => absurd ending idle
      · simp [ok]
  | eofSent _ busy =>
    rw [busy] at locks
    cases locks
  | pass other => exact absurd rfl other
  | shut other => exact absurd rfl other

/-- A call that has the lock gives it back and ends its pump. -/
private theorem Fine.gives (fine : o.Fine s.sender l) {call : Action} {res : Result} {how : Outcome}
    (busy : o.reader = .sending ∨ o.reader = .ended) (failed : how ≠ .returned)
    (gives : call = .sendTimeout r ∨ call = .sendRaise r) (ran : Ran h r s l (some call) res s' l') :
    { o with reader := .done how }.Fine s'.sender l' := by
  obtain ⟨⟨out, touch⟩, rfl⟩ := ran
  have idle : o.ending ≠ true := by
    intro ending
    have locks := fine.locks
    rcases busy with sending | ended
    · rw [sending] at locks
      exact fine.not_ending locks ending
    · exact (fine.ending ending).2 ended
  have done : ∀ {k : Ledger}, (ReaderPump.done how).Fed o.lead o.socket k := by
    intro k
    cases how with
    | returned => exact absurd rfl failed
    | raised | cancelled => trivial
  have noted : ∃ failed, l.after r s call res = { l with failed := failed } := by
    rcases gives with rfl | rfl
    · exact ⟨true, by simp [Ledger.after, Action.target, Ledger.note]⟩
    · simp only [Ledger.after, Action.target, if_true, Ledger.note]
      split
      · exact ⟨l.failed, rfl⟩
      · exact ⟨true, rfl⟩
  obtain ⟨failed', noted⟩ := noted
  rw [noted]
  have free : ∀ {sender' : Option Sender}, o.ending = true →
      Sender.ends sender' = true ∧ ReaderPump.done how ≠ .ended := fun ending => absurd ending idle
  rcases gives with rfl | rfl
  · cases touch with
    | timedOut => exact fine.feeds rfl rfl rfl rfl rfl rfl trivial free fine.clean fine.part done (.inl rfl)
    | pass other => exact absurd rfl other
    | shut other => exact absurd rfl other
  · cases touch with
    | raised => exact fine.feeds rfl rfl rfl rfl rfl rfl trivial free fine.clean fine.part done (.inl rfl)
    | pass other => exact absurd rfl other
    | shut other => exact absurd rfl other

/-- The end of the socket goes on as the end of the stream. -/
private theorem Fine.sendEof (fine : o.Fine s.sender l) {sent : Bool} {res : Result}
    (ends : o.reader = .ending) (ran : Ran h r s l (some (.sendEof r sent)) res s' l') :
    { o with reader := ReaderPump.afterEof res }.Fine s'.sender l' := by
  obtain ⟨⟨out, touch⟩, rfl⟩ := ran
  have fed := fine.fed
  rw [ends] at fed
  obtain ⟨ok, all, eof⟩ := fed
  cases touch with
  | eofLate _ free =>
    have noted : l.after r s (.sendEof r sent) .returned = l := by
      simp [Ledger.after, Action.target, Ledger.note]
    rw [noted]
    refine fine.feeds rfl rfl rfl rfl rfl rfl trivial ?_ fine.clean fine.part ⟨ok, all, eof⟩ (.inl rfl)
    exact fun ending => absurd ending (fine.not_ending_of_free free)
  | eof _ free =>
    have noted : l.after r s (.sendEof r sent) .suspended = { l with mark := some (l.passed, l.failed) } := by
      simp [Ledger.after, Action.target, Ledger.note]
    rw [noted]
    refine fine.feeds rfl rfl rfl rfl rfl rfl rfl ?_ fine.clean fine.part ⟨ok, all, eof⟩ (.inr ⟨?_, all.symm, eof⟩)
    · exact fun ending => absurd ending (fine.not_ending_of_free free)
    · rw [ok]
  | pass other => exact absurd rfl other
  | shut other => exact absurd rfl other

/-- `send_eof` returns. -/
private theorem Fine.endResume (fine : o.Fine s.sender l) {sent : Bool} {res : Result}
    (ended : o.reader = .ended) (ran : Ran h r s l (some (.sendResume r sent)) res s' l') :
    { o with reader := ReaderPump.afterEof res }.Fine s'.sender l' := by
  obtain ⟨⟨out, touch⟩, rfl⟩ := ran
  have locks := fine.locks
  have fed := fine.fed
  rw [ended] at fed locks
  cases touch with
  | resumed view _ o' busy =>
    rcases busy with ⟨busy, -⟩ | busy
    · rw [busy] at locks
      cases locks
    · rw [busy] at locks
      cases locks
  | eofSent =>
    have ok : (Result.returned == Result.raised) = false := rfl
    have noted : l.after r s (.sendResume r sent) .returned = l := by
      simp [Ledger.after, Action.target, Ledger.note, ok]
    rw [noted]
    refine fine.feeds rfl rfl rfl rfl rfl rfl trivial ?_ fine.clean fine.part fed (.inl rfl)
    exact fun ending => absurd ended (fine.ending ending).2
  | pass other => exact absurd rfl other
  | shut other => exact absurd rfl other

/-- A turn without a call. -/
private theorem Fine.silent (fine : o.Fine sender l) {k : Socket} {pump : ReaderPump}
    (arrived : k.arrived = o.socket.arrived) (atEof : k.atEof = o.socket.atEof)
    (written : k.written = o.socket.written) (ended : k.ended = o.socket.ended)
    (unlocked : pump ≠ .sending ∧ pump ≠ .ended) (fed : pump.Fed o.lead k l) :
    { o with socket := k, reader := pump }.Fine sender l := by
  refine fine.feeds arrived atEof written ended rfl rfl ?_ ?_ fine.clean fine.part fed (.inl rfl)
  · cases pump with
    | sending => exact absurd rfl unlocked.1
    | ended => exact absurd rfl unlocked.2
    | _ => trivial
  · exact fun ending => ⟨(fine.ending ending).1, unlocked.2⟩

/-- **A turn of the reader pump.** -/
theorem Fine.reader (fine : o.Fine s.sender l) {throttle : Bool} {a : ReaderPump.Action}
    {t : Turn (Socket × ReaderPump)} (took : o.reader.turn r throttle o.socket a = some t) {res : Result}
    (ran : Ran h r s l t.call res s' l') :
    { o with socket := (t.next res).1, reader := (t.next res).2 }.Fine s'.sender l' := by
  have fed := fine.fed
  generalize state : o.reader = pump at took fed
  unfold ReaderPump.turn at took
  split at took
  next =>
    split at took
    -- the read of a broken socket raises
    next =>
      cases took
      obtain ⟨rfl, rfl⟩ := ran
      simp only [Turn.quiet]
      exact fine.silent rfl rfl rfl rfl (by simp) trivial
    next =>
      split at took
      -- what is read is passed on to the throttle or to the lane, and nothing of it is sent yet
      next =>
        cases took
        obtain ⟨rfl, rfl⟩ := ran
        obtain ⟨ok, all⟩ := fed
        have next : o.lead ++ o.socket.arrived = l'.passed.flatten ++
            (o.socket.unread.take pumpChunkSize ++ o.socket.unread.drop pumpChunkSize) := by
          rw [List.take_append_drop, all]
        simp only [Turn.quiet]
        split
        · exact fine.silent rfl rfl rfl rfl (by simp) ⟨ok, next⟩
        · exact fine.silent rfl rfl rfl rfl (by simp) ⟨ok, next⟩
      next empty =>
        split at took
        -- nothing is left unread at the end of the socket, so all of it has been sent
        next eof =>
          cases took
          obtain ⟨rfl, rfl⟩ := ran
          obtain ⟨ok, all⟩ := fed
          simp only [Turn.quiet]
          refine fine.silent rfl rfl rfl rfl (by simp) ⟨ok, ?_, eof⟩
          rw [all, not_not.mp empty, List.append_nil]
        next => cases took
  next data ok =>
    cases took
    obtain ⟨rfl, rfl⟩ := ran
    simp only [Turn.quiet]
    split
    · exact fine.silent rfl rfl rfl rfl (by simp) fed
    · exact fine.silent rfl rfl rfl rfl (by simp) trivial
  -- the calls on the stream: starting, waking up and giving up
  next data sent =>
    cases took
    exact fine.send state ran
  next sent =>
    cases took
    exact fine.resume state ran
  next =>
    cases took
    exact fine.gives (.inl state) (by simp) (.inl rfl) ran
  next =>
    cases took
    exact fine.gives (.inl state) (by simp) (.inr rfl) ran
  next sent =>
    cases took
    exact fine.sendEof state ran
  next sent =>
    cases took
    exact fine.endResume state ran
  next =>
    cases took
    exact fine.gives (.inr state) (by simp) (.inr rfl) ran
  -- a cancelled call gives the lock back, and outside a call there is none to give back
  next =>
    cases took
    exact fine.gives (.inl state) (by simp) (.inr rfl) ran
  next =>
    cases took
    exact fine.gives (.inr state) (by simp) (.inr rfl) ran
  next => cases took
  next =>
    cases took
    obtain ⟨rfl, rfl⟩ := ran
    simp only [Turn.quiet]
    exact fine.silent rfl rfl rfl rfl (by simp) trivial
  next => cases took

/-- The pump forgets how it ended. -/
theorem Fine.forget (fine : o.Fine sender l) :
    { o with reader := .done .raised }.Fine sender l where
  locks := trivial
  ending busy := ⟨(fine.ending busy).1, by simp⟩
  clean := fine.clean
  part := fine.part
  fed := trivial
  marked := fine.marked
  going := fine.going
  wrote := fine.wrote
  owes := fine.owes

/-! ### The writer pump -/

/-- A turn of the writer pump leaves the other direction alone. -/
private theorem Fine.drains (fine : o.Fine sender l) {k : Socket} {pump : WriterPump}
    (running : o.writer.isDone = false) (arrived : k.arrived = o.socket.arrived)
    (unread : k.unread = o.socket.unread) (atEof : k.atEof = o.socket.atEof)
    (send : l'.passed = l.passed ∧ l'.failed = l.failed ∧ l'.clean = l.clean ∧ l'.mark = l.mark)
    {extra : Bytes} (taken : l'.taken.flatten = l.taken.flatten ++ extra)
    (wrote : o.socket.Wrote o.writer.held extra k pump.held) (owes : pump.Owes l'.pending) :
    { o with socket := k, writer := pump }.Fine sender l' := by
  obtain ⟨passed, failed, clean, mark⟩ := send
  constructor
  case locks => exact fine.locks
  case ending => exact fine.ending
  case clean => exact clean ▸ fine.clean
  case part =>
    rw [passed]
    exact arrived ▸ fine.part
  case fed =>
    have fed := fine.fed
    simp only
    cases reader : o.reader with
    | done how =>
      rw [reader] at fed
      cases how <;> simp only [ReaderPump.Fed, arrived, atEof, passed, failed] at fed ⊢
      exact fed
    | _ =>
      rw [reader] at fed
      simp only [ReaderPump.Fed, arrived, unread, atEof, passed, failed] at fed ⊢
      exact fed
  case marked =>
    intro given failed' marked
    rw [mark] at marked
    rcases fine.marked given failed' marked with ⟨ok, whole, eof⟩ | ⟨-, dropped, over_⟩
    · exact .inl ⟨ok, by rw [whole, arrived], by rw [atEof, eof]⟩
    · rw [over_] at running
      cases running
  case going =>
    intro open_
    simp only at open_ ⊢
    rw [wrote.ended] at open_
    rw [wrote.going open_, fine.going open_, taken]
  case wrote =>
    simp only
    cases state : o.socket.ended with
    | none =>
      have all := wrote.going state
      rw [fine.going state, ← taken] at all
      exact ⟨_, all⟩
    | some how =>
      rw [wrote.still (by simp [state]), taken]
      exact fine.wrote.trans (List.prefix_append _ _)
  case owes => exact owes

/-- The pump ends, and what it had read and not written is dropped. -/
private theorem Fine.drained (fine : o.Fine sender l) {k : Socket} {pump : WriterPump}
    (running : o.writer.isDone = false) (idle : o.writer.held = []) (arrived : k.arrived = o.socket.arrived)
    (unread : k.unread = o.socket.unread) (atEof : k.atEof = o.socket.atEof)
    (written : k.written = o.socket.written) (ended : k.ended = none → o.socket.ended = none)
    (held : pump.held = []) (owes : pump.Owes l'.pending)
    (send : l'.passed = l.passed ∧ l'.failed = l.failed ∧ l'.clean = l.clean ∧ l'.mark = l.mark)
    (taken : l'.taken = l.taken) : { o with socket := k, writer := pump }.Fine sender l' := by
  have still := fine.still arrived unread (fun eof => atEof ▸ eof) written ended
  have none_ : l'.taken.flatten = l.taken.flatten ++ [] := by rw [taken, List.append_nil]
  refine Fine.drains (o := { o with socket := k }) still running rfl rfl rfl send none_ ?_ owes
  exact ⟨rfl, fun _ => by simp [idle, held], fun _ => rfl⟩

/-- **A turn of the writer pump.** -/
theorem Fine.writer (fine : o.Fine s.sender l) {throttle reset : Bool} {a : WriterPump.Action}
    {t : Turn (Socket × WriterPump)} (took : o.writer.turn r throttle reset o.socket a = some t)
    {res : Result} (ran : Ran h r s l t.call res s' l') :
    { o with socket := (t.next res).1, writer := (t.next res).2 }.Fine s'.sender l' := by
  have running := WriterPump.turn_running took
  -- most turns leave the socket as it is
  have still : ∀ held, o.socket.Wrote held [] o.socket held := fun held =>
    ⟨rfl, fun _ => by simp, fun _ => rfl⟩
  have write : ∀ chunk, (o.socket.write chunk).arrived = o.socket.arrived ∧
      (o.socket.write chunk).unread = o.socket.unread ∧ (o.socket.write chunk).atEof = o.socket.atEof := by
    intro chunk
    unfold Socket.write
    split
    · exact ⟨rfl, rfl, rfl⟩
    · exact ⟨rfl, rfl, rfl⟩
  have owes := fine.owes
  generalize state : o.writer = pump at took owes
  unfold WriterPump.turn at took
  split at took
  next =>
    cases took
    obtain ⟨⟨out, touch⟩, rfl⟩ := ran
    have held : o.writer.held = [] := by rw [state]; rfl
    have settled : l.pending = [] := owes
    -- a chunk of the stream is held by the throttle or written at once
    have chunks : ∀ chunk : Bytes,
        { o with
          socket := (if throttle then (o.socket, WriterPump.throttling chunk)
            else (o.socket.write chunk, WriterPump.draining chunk.length)).1
          writer := (if throttle then (o.socket, WriterPump.throttling chunk)
            else (o.socket.write chunk, WriterPump.draining chunk.length)).2 }.Fine s.sender
          (l.after r s (.read r) (.chunk (some chunk))) := by
      intro chunk
      have noted : l.after r s (.read r) (.chunk (some chunk)) = { l with
          taken := l.taken ++ [chunk], pending := l.pending ++ [chunk.length] } := by
        simp [Ledger.after, Action.target, Ledger.note]
      rw [noted]
      have more : (l.taken ++ [chunk]).flatten = l.taken.flatten ++ chunk := by simp
      split
      · refine fine.drains running rfl rfl rfl ⟨rfl, rfl, rfl, rfl⟩ more ?_ ?_
        · exact ⟨rfl, fun _ => by rw [held]; simp [WriterPump.held], fun _ => rfl⟩
        · simp only [WriterPump.Owes, settled, List.nil_append]
      · obtain ⟨arrived, unread, atEof⟩ := write chunk
        have wrote := o.socket.wrote_write chunk
        refine fine.drains running arrived unread atEof ⟨rfl, rfl, rfl, rfl⟩ more ?_ ?_
        · refine ⟨wrote.ended, fun open_ => ?_, wrote.still⟩
          rw [held]
          simpa [WriterPump.held] using wrote.going open_
        · simp only [WriterPump.Owes, settled, List.nil_append]
    cases touch with
    -- the end of the stream finishes the socket, and nothing is held then
    | readEnd =>
      have noted : l.after r s (.read r) (.chunk none) = { l with told := true } := by
        simp [Ledger.after, Action.target, Ledger.note]
      rw [noted]
      have finish : (o.socket.finish reset).arrived = o.socket.arrived ∧
          (o.socket.finish reset).unread = o.socket.unread ∧ (o.socket.finish reset).atEof = o.socket.atEof ∧
          (o.socket.finish reset).written = o.socket.written ∧
          ((o.socket.finish reset).ended = none → o.socket.ended = none) := by
        unfold Socket.finish
        split
        · exact ⟨rfl, rfl, rfl, rfl, by simp [Socket.abort]⟩
        · split
          · exact ⟨rfl, rfl, rfl, rfl, by simp [Socket.writeEof]⟩
          · exact ⟨rfl, rfl, rfl, rfl, by simp [Socket.close]⟩
      obtain ⟨arrived, unread, atEof, written, ended⟩ := finish
      exact fine.drained running held arrived unread atEof written ended rfl settled ⟨rfl, rfl, rfl, rfl⟩ rfl
    | readLate chunk => exact chunks chunk
    | read chunk => exact chunks chunk
    | pass other => exact absurd rfl other
    | shut other => exact absurd rfl other
  -- the throttle lets the chunk go, or raises with the chunk in hand
  next chunk ok =>
    cases took
    obtain ⟨rfl, rfl⟩ := ran
    have held : o.writer.held = chunk := by rw [state]; rfl
    simp only [Turn.quiet]
    split
    · obtain ⟨arrived, unread, atEof⟩ := write chunk
      refine fine.drains running arrived unread atEof ⟨rfl, rfl, rfl, rfl⟩ (List.append_nil _).symm ?_ owes
      rw [held]
      exact o.socket.wrote_write chunk
    · refine fine.drains running rfl rfl rfl ⟨rfl, rfl, rfl, rfl⟩ (List.append_nil _).symm ?_ trivial
      rw [held]
      exact still chunk
  -- the write has drained, and the chunk is acknowledged
  next n sent =>
    cases took
    obtain ⟨⟨out, touch⟩, rfl⟩ := ran
    have held : o.writer.held = [] := by rw [state]; rfl
    have noted : l.after r s (.ack r n sent) res = { l with pending := l.pending.erase n } := by
      simp [Ledger.after, Action.target, Ledger.note]
    rw [noted]
    have acked : { o with writer := .reading }.Fine s.sender { l with pending := l.pending.erase n } := by
      have settled : l.pending.erase n = [] := by
        rw [show l.pending = [n] from owes]
        simp
      refine fine.drains running rfl rfl rfl ⟨rfl, rfl, rfl, rfl⟩ (List.append_nil _).symm ?_ settled
      rw [held]
      exact still []
    cases touch with
    | ackVoid => exact acked
    | ackKept => exact acked
    | ackFlush => exact acked
    | pass other => exact absurd rfl other
    | shut other => exact absurd rfl other
  -- the drain raised before the chunk was acknowledged
  next n =>
    cases took
    obtain ⟨rfl, rfl⟩ := ran
    have held : o.writer.held = [] := by rw [state]; rfl
    refine fine.drains running rfl rfl rfl ⟨rfl, rfl, rfl, rfl⟩ (List.append_nil _).symm ?_ trivial
    rw [held]
    exact still []
  -- a cancelled pump drops what the throttle held and nothing else
  next =>
    cases took
    obtain ⟨rfl, rfl⟩ := ran
    have held : o.writer.held = [] := by rw [state]; rfl
    refine fine.drains running rfl rfl rfl ⟨rfl, rfl, rfl, rfl⟩ (List.append_nil _).symm ?_ trivial
    rw [held]
    exact still []
  next chunk =>
    cases took
    obtain ⟨rfl, rfl⟩ := ran
    have held : o.writer.held = chunk := by rw [state]; rfl
    refine fine.drains running rfl rfl rfl ⟨rfl, rfl, rfl, rfl⟩ (List.append_nil _).symm ?_ trivial
    rw [held]
    exact still chunk
  next n =>
    cases took
    obtain ⟨rfl, rfl⟩ := ran
    have held : o.writer.held = [] := by rw [state]; rfl
    refine fine.drains running rfl rfl rfl ⟨rfl, rfl, rfl, rfl⟩ (List.append_nil _).symm ?_ trivial
    rw [held]
    exact still []
  next => cases took

/-! ### All moves -/

/-- With the lock free, or in another's hands, no call of the reader pump has it. -/
private theorem Fine.unlocked (fine : o.Fine sender l) (sends : Sender.sends sender = false)
    (ended : o.reader ≠ .ended) (sender' : Option Sender) : o.reader.Locks sender' := by
  have locks := fine.locks
  cases reader : o.reader with
  | sending =>
    rw [reader, ReaderPump.Locks, sends] at locks
    cases locks
  | ended => exact absurd reader ended
  | _ => trivial

private theorem Fine.task (fine : o.Fine sender l) {sender' : Option Sender} {ending : Bool} {l' : Ledger}
    (locks : o.reader.Locks sender')
    (busy : ending = true → Sender.ends sender' = true ∧ o.reader ≠ .ended)
    (same : l' = { l with mark := l'.mark })
    (marked : l'.mark = l.mark ∨ o.cuts = true ∧ ∃ dropped, o.writer = .done .returned dropped) :
    { o with ending := ending }.Fine sender' l' := by
  rw [same]
  constructor
  case locks => exact locks
  case ending => exact busy
  case clean => exact fine.clean
  case part => exact fine.part
  case fed => exact fine.fed
  case marked =>
    intro given failed mark
    rcases marked with unmarked | over_
    · exact fine.marked given failed (unmarked ▸ mark)
    · exact .inr over_
  case going => exact fine.going
  case wrote => exact fine.wrote
  case owes => exact fine.owes

/-- The task ends the request itself. -/
private theorem Fine.endStart (fine : o.Fine s.sender l) {sent : Bool} {res : Result} (cuts : o.cuts = true)
    (over_ : ∃ dropped, o.writer = .done .returned dropped)
    (ran : Ran h r s l (some (.sendEof r sent)) res s' l') :
    { o with ending := res == Result.suspended }.Fine s'.sender l' := by
  obtain ⟨⟨out, touch⟩, rfl⟩ := ran
  have free_ended : s.sender = none → o.reader ≠ .ended := by
    intro free ended
    have locks := fine.locks
    rw [ended, free] at locks
    cases locks
  cases touch with
  | eofLate _ free =>
    have noted : l.after r s (.sendEof r sent) .returned = l := by
      simp [Ledger.after, Action.target, Ledger.note]
    rw [noted]
    exact fine.task fine.locks (by simp) rfl (.inl rfl)
  | eof _ free =>
    have noted : l.after r s (.sendEof r sent) .suspended = { l with mark := some (l.passed, l.failed) } := by
      simp [Ledger.after, Action.target, Ledger.note]
    rw [noted]
    have ended := free_ended free
    refine fine.task (fine.unlocked (by rw [free]; rfl) ended _) (fun _ => ⟨rfl, ended⟩) rfl (.inr ⟨cuts, over_⟩)
  | pass other => exact absurd rfl other
  | shut other => exact absurd rfl other

/-- The task's `send_eof` comes to its end. -/
private theorem Fine.endGives (fine : o.Fine s.sender l) {call : Action} {res : Result} {ending : Bool}
    (busy : o.ending = true)
    (gives : (∃ sent, call = .sendResume r sent ∧ ending = (res == .suspended)) ∨
      call = .sendRaise r ∧ ending = false) (ran : Ran h r s l (some call) res s' l') :
    { o with ending := ending }.Fine s'.sender l' := by
  obtain ⟨⟨out, touch⟩, rfl⟩ := ran
  obtain ⟨ends, ended⟩ := fine.ending busy
  have sends : Sender.sends s.sender = false := by
    cases state : s.sender with
    | none => rfl
    | some call =>
      rw [state] at ends
      cases call <;> simp [Sender.ends, Sender.sends] at ends ⊢
  rcases gives with ⟨sent, rfl, rfl⟩ | ⟨rfl, rfl⟩
  · cases touch with
    | resumed view _ o' holds =>
      rcases holds with ⟨holds, -⟩ | holds
      · rw [holds] at ends
        cases ends
      · rw [holds] at ends
        cases ends
    | eofSent =>
      have noted : l.after r s (.sendResume r sent) .returned = l := by
        have ok : (Result.returned == Result.raised) = false := rfl
        simp [Ledger.after, Action.target, Ledger.note, ok]
      rw [noted]
      exact fine.task (fine.unlocked sends ended _) (by simp) rfl (.inl rfl)
    | pass other => exact absurd rfl other
    | shut other => exact absurd rfl other
  · cases touch with
    | raised sender holds =>
      have noted : l.after r s (.sendRaise r) .raised = l := by
        rw [holds] at ends
        cases sender <;> simp [Sender.ends] at ends
        simp [Ledger.after, Action.target, Ledger.note, holds]
      rw [noted]
      exact fine.task (fine.unlocked sends ended _) (by simp) rfl (.inl rfl)
    | pass other => exact absurd rfl other
    | shut other => exact absurd rfl other

/-- Nothing depends on whether the task has closed its stream. -/
theorem Fine.leave (fine : o.Fine sender l) : { o with left := true }.Fine sender l :=
  ⟨fine.locks, fine.ending, fine.clean, fine.part, fine.fed, fine.marked, fine.going, fine.wrote, fine.owes⟩

/-- A step that is no call of `send`, `send_eof`, `read` or `ack` leaves the lock as it is. -/
theorem sender_of_touch {a : Action} {out : List Frame} {res : Result} (touch : h.Touch r s a out res s')
    (other : a.target ≠ some r) : s'.sender = s.sender := by
  cases touch with
  | pass => rfl
  | shut => simp
  | fed => rfl
  | overflow | ended => simp [Stream.feedEof]
  | granted => rfl
  | _ => exact absurd rfl other

/-- **Every move of an owner keeps its promises.** -/
theorem Fine.moves (fine : o.Fine s.sender l) {m : Mux} {call : Option Action} {res : Result}
    (moves : o.Moves m r call res o') (ran : Ran h r s l call res s' l') : o'.Fine s'.sender l' := by
  have plain : ∀ {a : Action}, a.target ≠ some r → Ran h r s l (some a) res s' l' →
      o.Fine s'.sender l' := by
    intro a other ran
    obtain ⟨⟨out, touch⟩, rfl⟩ := ran
    rw [sender_of_touch touch other, Ledger.after, if_neg other]
    exact fine
  cases moves with
  | quiet =>
    obtain ⟨rfl, rfl⟩ := ran
    exact fine
  | socket e k event =>
    obtain ⟨rfl, rfl⟩ := ran
    exact fine.event event
  | reader throttle a t took => exact fine.reader took ran
  | stops throttle a t took => exact (fine.reader took ran).forget
  | writer throttle a t here took => exact fine.writer took ran
  | endStart sent idle cuts late => exact fine.endStart cuts late ran
  | endResume sent busy => exact fine.endGives busy (.inl ⟨sent, rfl, rfl⟩) ran
  | endRaise busy => exact fine.endGives busy (.inr ⟨rfl, rfl⟩) ran
  | openReturn => exact plain (by simp [Action.target]) ran
  | openRaise => exact (plain (by simp [Action.target]) ran).leave
  | reset sent => exact plain (by simp [Action.target]) ran
  | close =>
    have kept := plain (by simp [Action.target]) ran
    have closed : { o with socket := o.socket.close }.Fine s'.sender l' :=
      kept.still rfl rfl id rfl (by simp [Socket.close])
    exact closed.leave
  | leave => exact (plain (by simp [Action.target]) ran).leave

end Owner

end Chute
