import Chute.Mux.Doomed
import Chute.Transit.Fate

/-!
# How sockets end

A socket that ends cleanly says that nothing is missing. The relay and the agent keep that promise
to each other and to what is connected to them, unless a task gives up in the middle and closes its
socket all the same: a visitor who reads an end of file has the complete response of the local app,
and the local app that reads one has the complete request, or the response was over.
-/
namespace Chute

open Transition

/-! ### The receive direction of a stream in a step -/

/-- What was received stays received. -/
structure Later (s t : Stream) (l l' : Ledger) : Prop where
  closed : s.closed = true → t.closed = true
  settled : s.recv ≠ .open_ → t.recv = s.recv ∧ t.chunks = s.chunks
  byEof : l.byEof = true → l'.byEof = true
  taken : l'.taken = l.taken

theorem Later.refl (s : Stream) (l : Ledger) : Later s s l l := ⟨id, fun _ => ⟨rfl, rfl⟩, id, rfl⟩

/-- An end that came with an EOF frame is noted. -/
def Heeds (s t : Stream) (l' : Ledger) : Prop := t.recv = .eof → s.recv = .eof ∨ l'.byEof = true

namespace Ledger

variable {l : Ledger} {r : Ref} {s : Stream} {c : Action} {res : Result}

theorem byEof_after : (l.after r s c res).byEof = l.byEof := by
  unfold after note
  split
  · cases c with
    | sendRaise =>
      simp only
      split <;> rfl
    | sendEof =>
      simp only
      split <;> rfl
    | read =>
      simp only
      split <;> rfl
    | _ => rfl
  · rfl

theorem taken_after (unread : c ≠ .read r) : (l.after r s c res).taken = l.taken := by
  unfold after
  split
  next own =>
    unfold note
    cases c with
    | sendRaise =>
      simp only
      split <;> rfl
    | sendEof =>
      simp only
      split <;> rfl
    | read r' =>
      obtain rfl : r' = r := by simpa [Action.target] using own
      exact absurd rfl unread
    | _ => rfl
  · rfl

/-- Only `send_eof` marks the end of a direction. -/
theorem mark_after (other : ∀ sent, c ≠ .sendEof r sent) : (l.after r s c res).mark = l.mark := by
  unfold after
  split
  next own =>
    unfold note
    cases c with
    | sendRaise =>
      simp only
      split <;> rfl
    | sendEof r' sent =>
      obtain rfl : r' = r := by simpa [Action.target] using own
      exact absurd rfl (other sent)
    | read =>
      simp only
      split <;> rfl
    | _ => rfl
  · rfl

end Ledger

namespace Stream

theorem later_shut (s : Stream) (terminal : RecvState) (l : Ledger) {l' : Ledger}
    (byEof : l.byEof = true → l'.byEof = true) (taken : l'.taken = l.taken) :
    Later s (if s.closed then s else s.shut terminal) l l' := by
  split
  next closed => exact ⟨id, fun _ => ⟨rfl, rfl⟩, byEof, taken⟩
  next =>
    refine ⟨fun _ => closed_shut s terminal, fun past => ⟨?_, chunks_shut s terminal⟩, byEof, taken⟩
    rw [recv_shut, if_neg past]

end Stream

namespace Pair

variable {p p' : Pair} {x y : Side} {r : Ref} {s : Stream}

/-- What a step means for a stream whose owner does not call it. -/
private theorem later_listens {h : Host} {a : Chute.Action} {t : Stream} {l l' : Ledger}
    (listens : Host.Listens h r s a t) (byEof : l.byEof = true → l'.byEof = true) (taken : l'.taken = l.taken)
    (noted : a.Brings ⟨.eof, r.sid, []⟩ → s.recv = .open_ → l'.byEof = true) :
    Later s t l l' ∧ Heeds s t l' := by
  cases listens with
  | still queue recv closed silent =>
    refine ⟨⟨fun shut => closed ▸ shut, fun _ => ⟨recv, by rw [Stream.chunks, queue]; rfl⟩, byEof, taken⟩, ?_⟩
    exact fun ended => .inl (recv ▸ ended)
  | fed data brings accepting queue recv closed =>
    refine ⟨⟨fun shut => closed ▸ shut, fun past => absurd accepting past, byEof, taken⟩, fun ended => ?_⟩
    rw [recv, accepting] at ended
    cases ended
  | overflow data brings accepting queue recv closed =>
    refine ⟨⟨fun shut => closed ▸ shut, fun past => absurd accepting past, byEof, taken⟩, fun ended => ?_⟩
    rw [recv] at ended
    cases ended
  | ended brings accepting queue recv closed =>
    exact ⟨⟨fun shut => closed ▸ shut, fun past => absurd accepting past, byEof, taken⟩,
      fun _ => .inr (noted brings accepting)⟩
  | torn tears live shut =>
    have later := s.later_shut .reset l byEof taken
    rw [if_neg (by simp [live]), ← shut] at later
    refine ⟨later, fun ended => .inl ?_⟩
    rw [shut, Stream.recv_shut] at ended
    split at ended
    · cases ended
    · exact ended

/-- **A stream that its owner does not call.** -/
theorem later_step (acc : (p.mux x).Accounted) (found : (p.mux x).heap r = some s) {b : Pair.Action}
    (moved : p.step b = some p') (other : ∀ env call, b = .act x env call → call.calls r = false) :
    ∃ t, (p'.mux x).heap r = some t ∧ Later s t (p.ledger x r) (p'.ledger x r) ∧ Heeds s t (p'.ledger x r) ∧
      (p'.ledger x r).mark = (p.ledger x r).mark := by
  cases b with
  | act y env call =>
    obtain ⟨e, stepped, here, rfl⟩ := step_act moved
    by_cases same : x = y
    · subst same
      have uncalled := other env call rfl
      obtain ⟨t, after, listens⟩ := Host.step_listens (h := (p.mux x).host env) acc found uncalled stepped
      have unnoted : noted (p.mux x) (p.ledger x) call e.result r = p.ledger x r := by
        have aside : call.target ≠ some r := by
          intro own
          cases call <;> simp_all [Chute.Action.calls, Chute.Action.target]
        simp [noted, found, Ledger.after, aside]
      refine ⟨t, by simpa using after, ?_⟩
      simp only [Function.update_self, unnoted]
      obtain ⟨later, heeds⟩ := later_listens (l := p.ledger x r) listens id rfl (by
        rintro ⟨msg, rfl, -⟩
        cases here)
      exact ⟨later, heeds, trivial⟩
    · refine ⟨s, by simpa [same] using found, ?_⟩
      simp only [Function.update_of_ne same]
      exact ⟨.refl s _, .inl, trivial⟩
  | deliver y env =>
    obtain ⟨f, rest, e, -, stepped, rfl⟩ := step_deliver moved
    by_cases same : x = y
    · subst same
      obtain ⟨t, after, listens⟩ := Host.step_listens (h := (p.mux x).host env) acc found rfl stepped
      refine ⟨t, by simpa using after, ?_⟩
      simp only [Function.update_self]
      have noted : (Chute.Action.message (.binary f.message)).Brings ⟨.eof, r.sid, []⟩ → s.recv = .open_ →
          (arrived (p.mux x) (p.ledger x) f r).byEof = true := by
        intro brings accepting
        have carries := brings_message.mp brings
        rw [Message.frame_message] at carries
        cases carries
        -- only what is open is still registered
        have open_ : s.closed = false := by
          cases closed : s.closed with
          | false => rfl
          | true => exact absurd accepting ((acc.tallied r s found).dead closed).2.2
        have here : (p.mux x).registered r.sid = some r :=
          Mux.registered_eq_some.mpr ⟨rfl, (acc.registry r).mpr ⟨s, found, open_⟩⟩
        simp [arrived, here, found, accepting]
      have byEof : (p.ledger x r).byEof = true → (arrived (p.mux x) (p.ledger x) f r).byEof = true := by
        intro heard
        unfold arrived
        split
        · rfl
        · exact heard
      have rest : (arrived (p.mux x) (p.ledger x) f r).taken = (p.ledger x r).taken ∧
          (arrived (p.mux x) (p.ledger x) f r).mark = (p.ledger x r).mark := by
        unfold arrived
        split
        · exact ⟨rfl, rfl⟩
        · exact ⟨rfl, rfl⟩
      obtain ⟨later, heeds⟩ := later_listens listens byEof rest.1 noted
      exact ⟨later, heeds, rest.2⟩
    · refine ⟨s, by simpa [same] using found, ?_⟩
      simp only [Function.update_of_ne same]
      exact ⟨.refl s _, .inl, trivial⟩

/-- The call of a turn, with its answer. -/
theorem answers_of_perform {env : Env} {call : Chute.Action} {res : Result} (acc : (p.mux x).Accounted)
    (found : (p.mux x).heap r = some s) (performed : Conduit.perform p x env (some call) = some (p', res)) :
    ∃ t, (p'.mux x).heap r = some t ∧ Host.Answers r s call res t ∧
      p'.ledger x r = (p.ledger x r).after r s call res := by
  obtain ⟨e, stepped, rest⟩ := Option.bind_eq_some_iff.mp performed
  obtain ⟨q, moved, same⟩ := Option.map_eq_some_iff.mp rest
  cases same
  obtain ⟨e', stepped', -, rfl⟩ := step_act moved
  cases stepped.symm.trans stepped'
  obtain ⟨t, after, answers⟩ := Host.step_answers (h := (p.mux x).host env) acc found stepped
  refine ⟨t, by simpa using after, answers, ?_⟩
  simp [noted, found]

/-- A turn that neither reads nor closes. -/
theorem later_of_plain {env : Env} {call : Option Chute.Action} {res : Result} (acc : (p.mux x).Accounted)
    (found : (p.mux x).heap r = some s) (performed : Conduit.perform p x env call = some (p', res))
    (plain : ∀ c, call = some c → c.target = some r ∧ c ≠ .read r ∨ c = .openReturn r) :
    ∃ t, (p'.mux x).heap r = some t ∧ Later s t (p.ledger x r) (p'.ledger x r) ∧ t.recv = s.recv := by
  cases call with
  | none =>
    cases performed
    exact ⟨s, found, .refl s _, rfl⟩
  | some c =>
    obtain ⟨t, after, answers, ledger⟩ := answers_of_perform acc found performed
    obtain ⟨incoming, recv, closed⟩ := answers.plain (plain c rfl)
    have unread : c ≠ .read r := by
      rcases plain c rfl with ⟨-, unread⟩ | rfl
      · exact unread
      · simp
    refine ⟨t, after, ⟨fun shut => closed ▸ shut, fun _ => ⟨recv, by rw [Stream.chunks, incoming]; rfl⟩, ?_, ?_⟩, recv⟩
    · rw [ledger, Ledger.byEof_after]
      exact id
    · rw [ledger, Ledger.taken_after unread]

/-- Who marks the end of a direction finds its stream open. -/
theorem mark_of_perform {env : Env} {call : Option Chute.Action} {res : Result} (acc : (p.mux x).Accounted)
    (found : (p.mux x).heap r = some s) (performed : Conduit.perform p x env call = some (p', res)) :
    (p'.ledger x r).mark = (p.ledger x r).mark ∨ (∃ sent, call = some (.sendEof r sent)) ∧ s.closed = false := by
  cases call with
  | none =>
    cases performed
    exact .inl rfl
  | some c =>
    obtain ⟨t, -, ⟨out, touch⟩, ledger⟩ := ran_of_perform acc found performed
    by_cases ends : ∃ sent, c = .sendEof r sent
    · obtain ⟨sent, rfl⟩ := ends
      cases touch with
      | eofLate _ free =>
        left
        rw [ledger]
        simp [Ledger.after, Chute.Action.target, Ledger.note]
      | eof _ free going =>
        right
        simp only [Stream.sendDone, Bool.or_eq_false_iff] at going
        exact ⟨⟨sent, rfl⟩, going.1⟩
      | pass other => exact absurd rfl other
      | shut other => exact absurd rfl other
    · left
      rw [ledger, Ledger.mark_after fun sent same => ends ⟨sent, same⟩]

end Pair

namespace Owner

variable {o o' : Owner} {s t : Stream} {l l' : Ledger} {r : Ref}

/-! ### What a clean end says -/

/-- Until the task has closed its stream, only the peer ends the receive direction cleanly; and a
socket that ended cleanly has all that came before that end. Where `strict` holds, the task keeps to
that when it closes its socket, too. -/
structure Ended (strict : Bool) (o : Owner) (s : Stream) (l : Ledger) : Prop where
  heard : o.left = false → s.recv = .eof → l.byEof = true
  whole : strict = true ∨ o.left = false → o.socket.ended = some .fin →
    l.byEof = true ∧ s.recv ≠ .open_ ∧ s.chunks = [] ∧ o.socket.written = l.taken.flatten

variable {strict : Bool}

theorem Ended.later (ended : o.Ended strict s l) (later : Later s t l l')
    (heeds : o'.left = false → o.left = false ∧ Heeds s t l')
    (socket : o'.socket.ended = some .fin → o.socket.ended = some .fin ∧ o'.socket.written = o.socket.written) :
    o'.Ended strict t l' where
  heard here eof := by
    obtain ⟨before, heeds⟩ := heeds here
    rcases heeds eof with already | heard
    · exact later.byEof (ended.heard before already)
    · exact heard
  whole here fin := by
    obtain ⟨before, written⟩ := socket fin
    have there : strict = true ∨ o.left = false := here.imp_right fun here => (heeds here).1
    obtain ⟨byEof, past, empty, all⟩ := ended.whole there before
    obtain ⟨recv, chunks⟩ := later.settled past
    refine ⟨later.byEof byEof, recv ▸ past, chunks ▸ empty, ?_⟩
    rw [written, all, later.taken]

/-- The event loop ends no socket cleanly. -/
private theorem fin_of_event {k k' : Socket} {e : Socket.Event} (event : k.event e = some k')
    (fin : k'.ended = some .fin) : k.ended = some .fin ∧ k'.written = k.written := by
  have lost : k.ended.or (some .lost) = some SocketEnd.fin → k.ended = some .fin := by
    cases k.ended with
    | none => simp
    | some how => simp
  cases e with
  | arrive data =>
    simp only [Socket.event] at event
    split at event <;> cases event
    exact ⟨fin, rfl⟩
  | peerEof =>
    simp only [Socket.event] at event
    split at event
    · cases event
    · split at event <;> cases event
      · exact ⟨fin, rfl⟩
      · exact ⟨lost fin, rfl⟩
  | peerReset =>
    cases event
    exact ⟨lost fin, rfl⟩
  | dropped =>
    simp only [Socket.event] at event
    split at event <;> cases event
    exact ⟨fin, rfl⟩

/-- The last `read` of a stream that was not given up, by a task that is still there. -/
private theorem Ended.finish (ended : o.Ended strict s l) (fine : o.Fine s.sender l) (sealed_ : s.Sealed)
    (here : o.left = false) (reading : o.writer = .reading) {tail : List (Option Bytes)}
    (first : s.incoming = none :: tail) (fin : (o.socket.finish (s.recv == .reset)).ended = some .fin) :
    l.byEof = true ∧ s.recv ≠ .open_ ∧ s.chunks = [] ∧
      (o.socket.finish (s.recv == .reset)).written = l.taken.flatten := by
  have past : s.recv ≠ .open_ := sealed_.past (by simp [first])
  have none_left : tail = [] := sealed_.last [] tail (by simp [first])
  have empty : s.chunks = [] := by
    rw [Stream.chunks, first, none_left]
    rfl
  have written : (o.socket.finish (s.recv == .reset)).written = o.socket.written := by
    unfold Socket.finish
    split
    · rfl
    · split <;> rfl
  rw [written]
  cases state : o.socket.ended with
  | some how =>
    have before : o.socket.ended = some .fin := by
      rw [state]
      unfold Socket.finish at fin
      split at fin
      · simpa [Socket.abort, state] using fin
      · split at fin
        · simpa [Socket.writeEof, state] using fin
        · simpa [Socket.close, state] using fin
    obtain ⟨byEof, -, -, all⟩ := ended.whole (.inr here) before
    exact ⟨byEof, past, empty, all⟩
  | none =>
    have all := fine.going state
    rw [reading, show WriterPump.reading.held = [] from rfl, List.append_nil] at all
    have eof : s.recv = .eof := by
      cases recv : s.recv with
      | open_ => exact absurd recv past
      | eof => rfl
      | reset =>
        rw [recv] at fin
        simp [Socket.finish, Socket.abort, state] at fin
    exact ⟨ended.heard here eof, past, empty, all⟩

section

variable {p p' : Pair} {x : Side} {env : Env} {call : Option Action} {res : Result}

/-- A turn that neither reads nor closes. -/
private theorem Ended.plain (acc : (p.mux x).Accounted) (found : (p.mux x).heap r = some s)
    (ended : o.Ended strict s (p.ledger x r)) (performed : Conduit.perform p x env call = some (p', res))
    (plain : ∀ c, call = some c → c.target = some r ∧ c ≠ .read r ∨ c = .openReturn r)
    (left : o'.left = o.left)
    (socket : o'.socket.ended = some .fin → o.socket.ended = some .fin ∧ o'.socket.written = o.socket.written) :
    ∃ t, (p'.mux x).heap r = some t ∧ o'.Ended strict t (p'.ledger x r) := by
  obtain ⟨t, after, later, recv⟩ := Pair.later_of_plain acc found performed plain
  exact ⟨t, after, ended.later later (fun here => ⟨left ▸ here, fun eof => .inl (recv ▸ eof)⟩) socket⟩

/-- The task closes its stream. -/
private theorem Ended.closes (acc : (p.mux x).Accounted) (found : (p.mux x).heap r = some s)
    (ended : o.Ended strict s (p.ledger x r)) {c : Action} (closes : c = .close r ∨ c = .openRaise r)
    (performed : Conduit.perform p x env (some c) = some (p', res)) (left : o'.left = true)
    (socket : strict = true → o'.socket.ended = some .fin →
      o.socket.ended = some .fin ∧ o'.socket.written = o.socket.written ∨
        (p.ledger x r).byEof = true ∧ s.recv ≠ .open_ ∧ s.chunks = [] ∧
          o'.socket.written = (p.ledger x r).taken.flatten) :
    ∃ t, (p'.mux x).heap r = some t ∧ o'.Ended strict t (p'.ledger x r) := by
  obtain ⟨t, after, answers, ledger⟩ := Pair.answers_of_perform acc found performed
  have later : Later s t (p.ledger x r) (p'.ledger x r) := by
    rw [answers.close closes, ledger]
    refine s.later_shut .eof _ (by rw [Ledger.byEof_after]; exact id) (Ledger.taken_after ?_)
    rcases closes with rfl | rfl <;> simp
  refine ⟨t, after, fun here => ?_, fun here fin => ?_⟩
  · rw [left] at here
    cases here
  · have keeps : strict = true := by
      rcases here with keeps | here
      · exact keeps
      · rw [left] at here
        cases here
    have whole : (p.ledger x r).byEof = true ∧ s.recv ≠ .open_ ∧ s.chunks = [] ∧
        o'.socket.written = (p.ledger x r).taken.flatten := by
      rcases socket keeps fin with ⟨before, written⟩ | whole
      · obtain ⟨byEof, past, empty, all⟩ := ended.whole (.inl keeps) before
        exact ⟨byEof, past, empty, written ▸ all⟩
      · exact whole
    obtain ⟨byEof, past, empty, all⟩ := whole
    obtain ⟨recv, chunks⟩ := later.settled past
    exact ⟨later.byEof byEof, recv ▸ past, chunks ▸ empty, by rw [all, later.taken]⟩

/-- The writer pump. -/
private theorem Ended.writer (acc : (p.mux x).Accounted) (found : (p.mux x).heap r = some s) (sealed_ : s.Sealed)
    (fine : o.Fine s.sender (p.ledger x r)) (ended : o.Ended strict s (p.ledger x r)) {throttle : Bool}
    {a : WriterPump.Action} {t : Turn (Socket × WriterPump)} (here : o.left = false)
    (took : o.writer.turn r throttle (s.recv == .reset) o.socket a = some t)
    (performed : Conduit.perform p x env t.call = some (p', res)) :
    ∃ u, (p'.mux x).heap r = some u ∧
      { o with socket := (t.next res).1, writer := (t.next res).2 }.Ended strict u (p'.ledger x r) := by
  rcases WriterPump.turn_cases took with ⟨reading, called, wrote, finish⟩ | ⟨unread, wrote⟩
  · rw [called] at performed
    obtain ⟨u, after, answers, ledger⟩ := Pair.answers_of_perform acc found performed
    obtain ⟨c, rfl, first, recv, closed⟩ := answers.read rfl
    refine ⟨u, after, fun left eof => ?_, fun there fin => ?_⟩
    · rw [ledger, Ledger.byEof_after]
      exact ended.heard here (recv ▸ eof)
    · rw [ledger, Ledger.byEof_after]
      cases c with
      | some chunk =>
        -- a socket that has ended would have been all read
        have before : o.socket.ended = some .fin := (wrote chunk).ended ▸ fin
        obtain ⟨-, -, empty, -⟩ := ended.whole there before
        rw [Stream.chunks, first] at empty
        simp at empty
      | none =>
        simp only [finish] at fin ⊢
        obtain ⟨byEof, past, empty, all⟩ := ended.finish fine sealed_ here reading first fin
        rw [Stream.chunks, first] at empty
        refine ⟨byEof, recv ▸ past, empty, all.trans ?_⟩
        simp [Ledger.after, Action.target, Ledger.note]
  · refine ended.plain acc found performed ?_ rfl ?_
    · intro c called
      refine .inl ⟨WriterPump.turn_target took called, ?_⟩
      rintro rfl
      exact unread called
    · intro fin
      have before : o.socket.ended = some .fin := (wrote res).ended ▸ fin
      exact ⟨before, (wrote res).still (by simp [before])⟩

/-- **A turn of the owner keeps what a clean end says.** -/
theorem Ended.step (acc : (p.mux x).Accounted) (found : (p.mux x).heap r = some s) (sealed_ : s.Sealed)
    (fine : o.Fine s.sender (p.ledger x r)) (ended : o.Ended strict s (p.ledger x r))
    (moves : o.Moves (p.mux x) r call res o') (performed : Conduit.perform p x env call = some (p', res))
    (well : strict = true → o.Well r s call o') :
    ∃ t, (p'.mux x).heap r = some t ∧ o'.Ended strict t (p'.ledger x r) := by
  have same : o.socket.ended = some .fin → o.socket.ended = some .fin ∧ o.socket.written = o.socket.written :=
    fun fin => ⟨fin, rfl⟩
  have task : ∀ c, call = some c → c.target = some r ∧ c ≠ .read r →
      ∀ c', call = some c' → c'.target = some r ∧ c' ≠ .read r ∨ c' = .openReturn r := by
    intro c called own c' called'
    cases called.symm.trans called'
    exact .inl own
  cases moves with
  | quiet => exact ended.plain acc found performed (by simp) rfl same
  | socket e k event order =>
    exact ended.plain acc found performed (by simp) rfl fun fin => fin_of_event event fin
  | reader throttle a t took =>
    refine ended.plain acc found performed (fun c called => .inl (ReaderPump.turn_target took called)) rfl fun fin => ?_
    obtain ⟨written, still⟩ := ReaderPump.turn_socket took res
    exact ⟨still ▸ fin, written⟩
  | stops throttle a t took =>
    refine ended.plain acc found performed (fun c called => .inl (ReaderPump.turn_target took called)) rfl fun fin => ?_
    obtain ⟨written, still⟩ := ReaderPump.turn_socket took res
    exact ⟨still ▸ fin, written⟩
  | writer throttle a t here took =>
    have reset : ((p.mux x).heap r).any Stream.resetByPeer = (s.recv == .reset) := by
      rw [found]
      rfl
    rw [reset] at took
    exact ended.writer acc found sealed_ fine here took performed
  | endStart | endResume | endRaise =>
    exact ended.plain acc found performed (task _ rfl ⟨rfl, by simp⟩) rfl same
  | openReturn =>
    refine ended.plain acc found performed ?_ rfl same
    rintro c ⟨⟩
    exact .inr rfl
  -- the three calls that close the stream
  | openRaise => exact ended.closes acc found (.inr rfl) performed rfl fun _ fin => .inl (same fin)
  | leave => exact ended.closes acc found (.inl rfl) performed rfl fun _ fin => .inl (same fin)
  | close here done =>
    refine ended.closes acc found (.inl rfl) performed rfl fun keeps fin => ?_
    cases state : o.socket.ended with
    | some how =>
      left
      exact ⟨by simpa [Socket.close, state] using fin, rfl⟩
    | none =>
      right
      obtain ⟨eof, empty, held⟩ := well keeps rfl state (by simp [Socket.close, state])
      -- the socket was closed by this call, so the stream was read to its end
      have all := fine.going state
      rw [held, List.append_nil] at all
      exact ⟨ended.heard here eof, by simp [eof], empty, all⟩
  -- a stream shut by a reset has ended only if it had before
  | reset sent =>
    obtain ⟨t, after, answers, ledger⟩ := Pair.answers_of_perform acc found performed
    have shut := answers.reset sent rfl
    have later : Later s t (p.ledger x r) (p'.ledger x r) := by
      rw [shut, ledger]
      exact s.later_shut .reset _ (by rw [Ledger.byEof_after]; exact id) (Ledger.taken_after (by simp))
    refine ⟨t, after, ended.later later (fun here => ⟨here, fun eof => .inl ?_⟩) same⟩
    rw [shut] at eof
    split at eof
    · exact eof
    · rw [Stream.recv_shut] at eof
      split at eof
      · cases eof
      · exact eof

end

/-! ### What the end of a request or a response means -/

/-- Where a socket can be closed by halves, its reader comes to an end because the peer has ended
its direction, or when nothing of it will be sent any more. -/
structure Cut (o : Owner) (s : Stream) (l : Ledger) : Prop where
  halves : o.cuts = false → o.socket.canWriteEof = true
  atEof : o.socket.canWriteEof = true → o.socket.atEof = true →
    o.socket.peerEnded = true ∨ s.closed = true ∨ o.reader.isDone = true
  closing : o.socket.canWriteEof = true → o.socket.closing = true →
    o.socket.broken = true ∨ o.socket.peerEnded = true ∨ s.recv = .reset ∨ o.reader.isDone = true
  mark : o.socket.canWriteEof = true → l.mark ≠ none →
    o.socket.peerEnded = true ∨ o.cuts = true ∧ ∃ dropped, o.writer = .done .returned dropped

/-- What the event loop decides about a socket is the same, or there is a reason. -/
structure Alike (o : Owner) (s : Stream) (o' : Owner) : Prop where
  cuts : o'.cuts = o.cuts
  half : o'.socket.canWriteEof = o.socket.canWriteEof
  peer : o.socket.peerEnded = true → o'.socket.peerEnded = true
  broken : o.socket.broken = true → o'.socket.broken = true
  atEof : o.socket.canWriteEof = true → o'.socket.atEof = true → o.socket.atEof = true ∨
    o'.socket.peerEnded = true ∨ s.closed = true ∨ o'.reader.isDone = true
  closing : o.socket.canWriteEof = true → o'.socket.closing = true → o.socket.closing = true ∨
    o'.socket.broken = true ∨ s.recv = .reset ∨ o'.reader.isDone = true
  reader : o.reader.isDone = true → o'.reader.isDone = true
  writer : ∀ dropped, o.writer = .done .returned dropped → o'.writer = .done .returned dropped

theorem Alike.of_same (cuts : o'.cuts = o.cuts) (socket : o'.socket = o.socket) (reader : o'.reader = o.reader)
    (writer : o'.writer = o.writer) : o.Alike s o' where
  cuts := cuts
  half := socket ▸ rfl
  peer := by rw [socket]; exact id
  broken := by rw [socket]; exact id
  atEof _ := by rw [socket]; exact .inl
  closing _ := by rw [socket]; exact .inl
  reader := by rw [reader]; exact id
  writer _ := by rw [writer]; exact id

theorem Cut.later (cut : o.Cut s l) (alike : o.Alike s o') (closed : s.closed = true → t.closed = true)
    (reset : s.recv = .reset → t.recv = .reset)
    (mark : l'.mark = l.mark ∨ (o.socket.canWriteEof = true → o.socket.peerEnded = true ∨
      o.cuts = true ∧ ∃ dropped, o.writer = .done .returned dropped)) : o'.Cut t l' where
  halves plain := by
    rw [alike.half]
    exact cut.halves (alike.cuts ▸ plain)
  atEof half eof := by
    rw [alike.half] at half
    rcases alike.atEof half eof with before | peer | shut | done
    · rcases cut.atEof half before with peer | shut | done
      · exact .inl (alike.peer peer)
      · exact .inr (.inl (closed shut))
      · exact .inr (.inr (alike.reader done))
    · exact .inl peer
    · exact .inr (.inl (closed shut))
    · exact .inr (.inr done)
  closing half closing := by
    rw [alike.half] at half
    rcases alike.closing half closing with before | broken | given | done
    · rcases cut.closing half before with broken | peer | given | done
      · exact .inl (alike.broken broken)
      · exact .inr (.inl (alike.peer peer))
      · exact .inr (.inr (.inl (reset given)))
      · exact .inr (.inr (.inr (alike.reader done)))
    · exact .inl broken
    · exact .inr (.inr (.inl (reset given)))
    · exact .inr (.inr (.inr done))
  mark half marked := by
    rw [alike.half] at half
    have before : o.socket.peerEnded = true ∨ o.cuts = true ∧ ∃ dropped, o.writer = .done .returned dropped := by
      rcases mark with same | why
      · exact cut.mark half (same ▸ marked)
      · exact why half
    rcases before with peer | ⟨cuts, dropped, over_⟩
    · exact .inl (alike.peer peer)
    · exact .inr ⟨alike.cuts ▸ cuts, dropped, alike.writer dropped over_⟩

/-- What the event loop does to a socket is its peer's doing, or comes after the stream was closed. -/
private theorem Cut.event (cut : o.Cut s l) {m : Mux} (doomed : m.Doomed) (found : m.heap r = some s)
    {e : Socket.Event} {k : Socket} (event : o.socket.event e = some k)
    (order : e = .dropped → Task.reset r ∉ m.tasks) : o.Alike s { o with socket := k } := by
  cases e with
  | arrive data =>
    simp only [Socket.event] at event
    split at event <;> cases event
    exact ⟨rfl, rfl, id, id, fun _ => .inl, fun _ => .inl, id, fun _ => id⟩
  | peerEof =>
    simp only [Socket.event] at event
    split at event
    · cases event
    · split at event <;> cases event
      · exact ⟨rfl, rfl, fun _ => rfl, id, fun _ _ => .inr (.inl rfl), fun _ => .inl, id, fun _ => id⟩
      next tls =>
        refine ⟨rfl, rfl, fun _ => rfl, id, fun half => absurd half tls, fun half => absurd half tls, id, fun _ => id⟩
  | peerReset =>
    cases event
    exact ⟨rfl, rfl, id, fun _ => rfl, fun _ => .inl, fun _ _ => .inr (.inl rfl), id, fun _ => id⟩
  | dropped =>
    simp only [Socket.event] at event
    split at event
    next closing =>
      cases event
      simp only [Bool.and_eq_true, Bool.not_eq_true'] at closing
      refine ⟨rfl, rfl, id, id, fun half _ => ?_, fun _ => .inl, id, fun _ => id⟩
      rcases cut.closing half closing.1 with broken | peer | given | done
      · rw [closing.2] at broken
        cases broken
      · exact .inr (.inl peer)
      · -- the reset that was spawned has run
        rcases doomed r s found given with shut | pending
        · exact .inr (.inr (.inl shut))
        · exact absurd pending (order rfl)
      · exact .inr (.inr (.inr done))
    · cases event

section

variable {p p' : Pair} {x : Side} {env : Env} {call : Option Action} {res : Result}

/-- Whatever a turn calls, a stream that was closed stays so, and one that was given up. -/
private theorem lasts_of_perform (acc : (p.mux x).Accounted) (found : (p.mux x).heap r = some s)
    (performed : Conduit.perform p x env call = some (p', res)) :
    ∃ t, (p'.mux x).heap r = some t ∧ (s.closed = true → t.closed = true) ∧
      (s.recv = .reset → t.recv = .reset) := by
  obtain ⟨t, after, ran⟩ := Pair.ran_of_perform acc found performed
  refine ⟨t, after, ?_⟩
  cases call with
  | none =>
    obtain ⟨rfl, -⟩ := ran
    exact ⟨id, id⟩
  | some c =>
    obtain ⟨⟨out, touch⟩, -⟩ := ran
    cases touch with
    | shut other terminal past live =>
      refine ⟨fun _ => s.closed_shut terminal, fun given => ?_⟩
      rw [Stream.recv_shut, if_neg (by simp [given]), given]
    | overflow data carries registered accepting =>
      refine ⟨fun shut => by rw [Stream.closed_endRecv, shut], fun given => ?_⟩
      rw [accepting] at given
      cases given
    | ended carries registered =>
      refine ⟨fun shut => by rw [Stream.feedEof, Stream.closed_endRecv, shut], fun given => ?_⟩
      rw [Stream.feedEof, Stream.recv_endRecv, if_neg (by simp [given]), given]
    | started data sent o free going sends =>
      obtain ⟨-, recv, -, -, -, -, closed⟩ := sends.frame
      exact ⟨fun shut => closed ▸ shut, fun given => recv ▸ given⟩
    | resumed view sent o busy sends =>
      obtain ⟨-, recv, -, -, -, -, closed⟩ := sends.frame
      exact ⟨fun shut => closed ▸ shut, fun given => recv ▸ given⟩
    | _ => exact ⟨id, id⟩

/-- What the end of a socket's direction leaves of the socket. -/
private theorem alike_finish (fine : o.writer.isDone = false) {u : WriterPump} :
    o.Alike s { o with socket := o.socket.finish (s.recv == .reset), writer := u } := by
  have writer : ∀ dropped, o.writer = .done .returned dropped → u = .done .returned dropped := by
    intro dropped over_
    rw [over_] at fine
    cases fine
  unfold Socket.finish
  split
  next reset =>
    have given : s.recv = .reset := by simpa using reset
    exact ⟨rfl, rfl, id, id, fun _ => .inl, fun _ _ => .inr (.inr (.inl given)), id, writer⟩
  · split
    · exact ⟨rfl, rfl, id, id, fun _ => .inl, fun _ => .inl, id, writer⟩
    next tls =>
      exact ⟨rfl, rfl, id, id, fun _ => .inl, fun half => absurd half tls, id, writer⟩

/-- The writer pump decides nothing about the socket but its end. -/
private theorem alike_writer {throttle : Bool} {a : WriterPump.Action} {t : Turn (Socket × WriterPump)}
    (took : o.writer.turn r throttle (s.recv == .reset) o.socket a = some t) (res : Result) :
    o.Alike s { o with socket := (t.next res).1, writer := (t.next res).2 } := by
  have running := WriterPump.turn_running took
  have writer : ∀ {u : WriterPump} dropped, o.writer = .done .returned dropped → u = .done .returned dropped := by
    intro u dropped over_
    rw [over_] at running
    cases running
  have same : ∀ u, o.Alike s { o with writer := u } := fun u =>
    ⟨rfl, rfl, id, id, fun _ => .inl, fun _ => .inl, id, writer⟩
  have write : ∀ chunk u, o.Alike s { o with socket := o.socket.write chunk, writer := u } := by
    intro chunk u
    unfold Socket.write
    split
    · exact ⟨rfl, rfl, id, id, fun _ => .inl, fun _ => .inl, id, writer⟩
    · exact same u
  unfold WriterPump.turn at took
  split at took
  next =>
    cases took
    simp only
    split
    -- a chunk of the stream is held by the throttle or written at once
    · split
      · exact same _
      · exact write _ _
    -- the end of the stream is the one turn that decides about the socket
    · exact alike_finish running
    · exact same _
  next chunk ok =>
    cases took
    simp only [Turn.quiet]
    split
    · exact write _ _
    · exact same _
  next => cases took; exact same _
  next => cases took; exact same _
  next => cases took; exact same _
  next => cases took; exact same _
  next => cases took; exact same _
  next => cases took

/-- The reader pump decides nothing about the socket. -/
private theorem alike_reader {throttle : Bool} {a : ReaderPump.Action} {t : Turn (Socket × ReaderPump)}
    (took : o.reader.turn r throttle o.socket a = some t) (res : Result) (pump : ReaderPump) :
    o.Alike s { o with socket := (t.next res).1, reader := pump } := by
  have running := ReaderPump.turn_running took
  have reader : o.reader.isDone = true → pump.isDone = true := by
    intro done
    rw [running] at done
    cases done
  have same : ∀ unread, o.Alike s { o with socket := { o.socket with unread := unread }, reader := pump } :=
    fun unread => ⟨rfl, rfl, id, id, fun _ => .inl, fun _ => .inl, reader, fun _ => id⟩
  unfold ReaderPump.turn at took
  split at took
  all_goals (repeat' split at took)
  all_goals cases took
  all_goals exact same _

/-- The reader pump sends an end only at the end of its socket. -/
private theorem Cut.reader (cut : o.Cut s l) (fine : o.Fine s.sender l) {throttle : Bool} {a : ReaderPump.Action}
    {t : Turn (Socket × ReaderPump)} (took : o.reader.turn r throttle o.socket a = some t)
    (mark : l'.mark = l.mark ∨ (∃ sent, t.call = some (.sendEof r sent)) ∧ s.closed = false) :
    l'.mark = l.mark ∨ (o.socket.canWriteEof = true → o.socket.peerEnded = true ∨
      o.cuts = true ∧ ∃ dropped, o.writer = .done .returned dropped) := by
  rcases mark with same | ⟨⟨sent, called⟩, open_⟩
  · exact .inl same
  · right
    intro half
    left
    have running := ReaderPump.turn_running took
    -- only a pump at the end of its socket calls `send_eof`
    have ending : o.reader = .ending := by
      unfold ReaderPump.turn at took
      split at took
      all_goals (repeat' split at took)
      all_goals cases took
      all_goals first | assumption | cases called
    have fed := fine.fed
    rw [ending] at fed
    obtain ⟨-, -, eof⟩ := fed
    rcases cut.atEof half eof with peer | shut | done
    · exact peer
    · rw [open_] at shut
      cases shut
    · rw [running] at done
      cases done

/-- **A turn of the owner keeps what an end means.** -/
theorem Cut.step (acc : (p.mux x).Accounted) (doomed : (p.mux x).Doomed) (found : (p.mux x).heap r = some s)
    (fine : o.Fine s.sender (p.ledger x r)) (cut : o.Cut s (p.ledger x r))
    (moves : o.Moves (p.mux x) r call res o') (performed : Conduit.perform p x env call = some (p', res)) :
    ∃ t, (p'.mux x).heap r = some t ∧ o'.Cut t (p'.ledger x r) := by
  obtain ⟨t, after, closed, reset⟩ := lasts_of_perform acc found performed
  refine ⟨t, after, ?_⟩
  have marks := Pair.mark_of_perform acc found performed
  have plain : (∀ sent, call ≠ some (.sendEof r sent)) → (p'.ledger x r).mark = (p.ledger x r).mark := by
    intro other
    rcases marks with same | ⟨⟨sent, called⟩, -⟩
    · exact same
    · exact absurd called (other sent)
  cases moves with
  | quiet => exact cut.later (.of_same rfl rfl rfl rfl) closed reset (.inl (plain (by simp)))
  | socket e k event order =>
    exact cut.later (cut.event doomed found event order) closed reset (.inl (plain (by simp)))
  | reader throttle a t took =>
    exact cut.later (alike_reader took res _) closed reset (cut.reader fine took marks)
  | stops throttle a t took =>
    exact cut.later (alike_reader took res _) closed reset (cut.reader fine took marks)
  | writer throttle a t here took =>
    have given : ((p.mux x).heap r).any Stream.resetByPeer = (s.recv == .reset) := by
      rw [found]
      rfl
    rw [given] at took
    refine cut.later (alike_writer took res) closed reset (.inl (plain ?_))
    intro sent called
    unfold WriterPump.turn at took
    split at took
    all_goals cases took
    all_goals cases called
  | endStart sent idle cuts over_ =>
    exact cut.later (.of_same rfl rfl rfl rfl) closed reset (.inr fun _ => .inr ⟨cuts, over_⟩)
  | endResume | endRaise | openReturn | openRaise | leave | reset =>
    exact cut.later (.of_same rfl rfl rfl rfl) closed reset (.inl (plain (by simp)))
  | close here done =>
    refine cut.later ⟨rfl, rfl, id, id, fun _ => .inl, fun _ _ => .inr (.inr (.inr done)), id, fun _ => id⟩ closed reset
      (.inl (plain (by simp)))

end

end Owner

/-! ### Runs -/

namespace Pair

variable {S : Setup} {p p' : Pair} {x : Side} {r : Ref}

theorem doomed_step (acc : ∀ x, (p.mux x).Accounted) (doomed : ∀ x, (p.mux x).Doomed) {b : Pair.Action}
    (moved : p.step b = some p') (x : Side) : (p'.mux x).Doomed := by
  have update : ∀ {y env a e}, ((p.mux y).host env).step a = some e →
      (Function.update p.mux y e.host.mux x).Doomed := by
    intro y env a e stepped
    by_cases same : x = y
    · subst same
      rw [Function.update_self]
      exact Host.doomed_step (h := (p.mux x).host env) (acc x) (doomed x) stepped
    · rw [Function.update_of_ne same]
      exact doomed x
  cases b with
  | act y env a =>
    obtain ⟨e, stepped, -, rfl⟩ := step_act moved
    exact update stepped
  | deliver y env =>
    obtain ⟨f, rest, e, -, stepped, rfl⟩ := step_deliver moved
    exact update stepped

/-- How a stream begins. -/
theorem new_of_absent (acc : (p.mux x).Accounted) (absent : (p.mux x).heap r = none) {b : Pair.Action}
    (moved : p.step b = some p') {t : Stream} (found : (p'.mux x).heap r = some t) : ∃ cfg, t = Stream.new cfg := by
  have update : ∀ {y env a e}, ((p.mux y).host env).step a = some e →
      Function.update p.mux y e.host.mux x = p'.mux x → ∃ cfg, t = Stream.new cfg := by
    intro y env a e stepped after
    by_cases same : x = y
    · subst same
      rw [Function.update_self] at after
      rw [← after] at found
      rcases Host.step_absent (h := (p.mux x).host env) acc absent stepped with still | ⟨new, -, -⟩
      · rw [still] at found
        cases found
      · cases found.symm.trans new
        exact ⟨_, rfl⟩
    · rw [Function.update_of_ne same] at after
      rw [← after, absent] at found
      cases found
  cases b with
  | act y env a =>
    obtain ⟨e, stepped, -, rfl⟩ := step_act moved
    exact update stepped rfl
  | deliver y env =>
    obtain ⟨f, rest, e, -, stepped, rfl⟩ := step_deliver moved
    exact update stepped rfl

/-- A direction that ended with its EOF frame is read to its end. -/
theorem Linked.complete {mode : Lane.Mode} (linked : p.Linked S mode) (x : Side) {sid : StreamId}
    (fin : (p.ledger x.other ⟨sid, 0⟩).byEof = true) {t : Stream}
    (found : (p.mux x.other).heap ⟨sid, 0⟩ = some t) (empty : t.chunks = []) :
    ∃ given failed, (p.ledger x ⟨sid, 0⟩).mark = some (given, failed) ∧
      (failed = false → (p.ledger x.other ⟨sid, 0⟩).taken.flatten = given.flatten) := by
  obtain ⟨given, failed, mark⟩ := Lane.mark_of_fin (linked.lanes x sid) fin
  refine ⟨given, failed, mark, ?_⟩
  rintro rfl
  have all := (Lane.ordered_of_reachable (linked.lanes x sid)).closed given mark fin
  have queue : (p.lane S x sid).queue = [] := by
    rw [← empty, ← stream_of_heap (S := S) found]
    rfl
  rw [Lane.got, queue, List.flatten_nil, List.append_nil] at all
  exact all

end Pair

namespace Conduit

variable {S : Setup} {kept : Bool} {c c' : Conduit} {x : Side} {r : Ref}

theorem pair_of_step {a : Action} (moved : c.step a = some c') :
    c'.pair = c.pair ∨ ∃ b, c.pair.step b = some c'.pair := by
  have performs : ∀ {y env call} {p : Pair} {res : Result}, perform c.pair y env call = some (p, res) →
      p = c.pair ∨ ∃ b, c.pair.step b = some p := by
    intro y env call p res performed
    rcases Pair.step_of_perform performed with ⟨-, same⟩ | ⟨b, -, stepped⟩
    · exact .inl same
    · exact .inr ⟨_, stepped⟩
  cases a with
  | net y env a =>
    simp only [Conduit.step] at moved
    split at moved
    · obtain ⟨p, stepped, rfl⟩ := Option.map_eq_some_iff.mp moved
      exact .inr ⟨_, stepped⟩
    · cases moved
  | deliver y env =>
    obtain ⟨p, stepped, rfl⟩ := Option.map_eq_some_iff.mp moved
    exact .inr ⟨_, stepped⟩
  | visit env initial canWriteEof watched sent =>
    obtain ⟨⟨p, res⟩, performed, rfl⟩ := Option.map_eq_some_iff.mp moved
    exact performs performed
  | relay k env a =>
    obtain ⟨v, -, moved⟩ := Option.bind_eq_some_iff.mp moved
    obtain ⟨t, -, moved⟩ := Option.bind_eq_some_iff.mp moved
    obtain ⟨⟨p, res⟩, performed, rfl⟩ := Option.map_eq_some_iff.mp moved
    exact performs performed
  | handle k env a =>
    obtain ⟨h, -, moved⟩ := Option.bind_eq_some_iff.mp moved
    obtain ⟨t, -, moved⟩ := Option.bind_eq_some_iff.mp moved
    obtain ⟨⟨p, res⟩, performed, rfl⟩ := Option.map_eq_some_iff.mp moved
    exact performs performed

theorem Sound.owned (sound : c.Sound S kept) {s : Stream} (found : (c.pair.mux x).heap r = some s) :
    ∃ o, (r, o) ∈ c.owners x := by
  cases x with
  | server =>
    obtain ⟨v, member, rfl⟩ := sound.visits.owned found
    exact ⟨_, List.mem_map.mpr ⟨v, member, rfl⟩⟩
  | agent =>
    obtain ⟨h, member, rfl⟩ := sound.handlers.owned found
    exact ⟨_, List.mem_map.mpr ⟨h, member, rfl⟩⟩

/-- Every socket keeps to what its end says. -/
structure Truthful (strict : Bool) (c : Conduit) : Prop where
  doomed : ∀ x, (c.pair.mux x).Doomed
  ends : ∀ x r o s, (r, o) ∈ c.owners x → (c.pair.mux x).heap r = some s →
    o.Ended strict s (c.pair.ledger x r) ∧ o.Cut s (c.pair.ledger x r)

variable {strict : Bool}

theorem truthful_start (S : Setup) : (start S).Truthful strict where
  doomed _ := Mux.doomed_new _
  ends x r o s owns := by cases x <;> cases owns

private theorem ended_of_fresh {o : Owner} (fresh : o.Fresh) {s : Stream} (accepting : s.recv = .open_) :
    o.Ended strict s .new ∧ o.Cut s .new := by
  have unheard : s.recv ≠ .eof := by simp [accepting]
  cases fresh with
  | visit initial canWriteEof watched =>
    refine ⟨⟨fun _ eof => absurd eof unheard, fun _ fin => by cases fin⟩, ?_, ?_, ?_, ?_⟩
    · intro plain
      cases plain
    · intro _ eof
      cases eof
    · intro _ closing
      cases closing
    · intro _ marked
      exact absurd rfl marked
  | handler =>
    refine ⟨⟨fun _ eof => absurd eof unheard, fun _ fin => by cases fin⟩, fun _ => rfl, ?_, ?_, ?_⟩
    · intro _ eof
      cases eof
    · intro _ closing
      cases closing
    · intro _ marked
      exact absurd rfl marked

theorem Truthful.step (sound : c.Sound S false) (truthful : c.Truthful strict) {a : Action}
    (well : strict = true → c.endsWell a = true) (moved : c.step a = some c') : c'.Truthful strict := by
  have acc := sound.linked.wired.accounted
  have sound' : c'.Sound S false := Sound.step sound (by simp) moved
  constructor
  · rcases pair_of_step moved with same | ⟨b, stepped⟩
    · rw [same]
      exact truthful.doomed
    · exact Pair.doomed_step acc truthful.doomed stepped
  · intro x r o' t owns found
    cases fate_of_step sound sound' moved owns with
    | idle owned same =>
      rw [same] at found ⊢
      exact truthful.ends x r o' t owned found
    | other owned b stepped aside =>
      obtain ⟨s, before, -⟩ := sound.fine owned
      obtain ⟨ended, cut⟩ := truthful.ends x r o' s owned before
      obtain ⟨t', after, later, heeds, mark⟩ := Pair.later_step (acc x) before stepped aside
      cases found.symm.trans after
      refine ⟨ended.later later (fun here => ⟨here, heeds⟩) fun fin => ⟨fin, rfl⟩, ?_⟩
      refine cut.later (.of_same rfl rfl rfl rfl) later.closed (fun given => ?_) (.inl mark)
      exact (later.settled (by simp [given])).1.trans given
    | own o owned env call res moves performed ends sent =>
      obtain ⟨s, before, fine⟩ := sound.fine owned
      obtain ⟨ended, cut⟩ := truthful.ends x r o s owned before
      have sealed_ := sound.linked.closed x r s before
      obtain ⟨t₁, after₁, ended'⟩ := ended.step (acc x) before sealed_ fine moves performed
        fun keeps => ends (well keeps) s before
      obtain ⟨t₂, after₂, cut'⟩ := cut.step (acc x) (truthful.doomed x) before fine moves performed
      cases found.symm.trans after₁
      cases found.symm.trans after₂
      exact ⟨ended', cut'⟩
    | new b stepped unowned fresh =>
      have absent : (c.pair.mux x).heap r = none := by
        cases before : (c.pair.mux x).heap r with
        | none => rfl
        | some s =>
          obtain ⟨o, owned⟩ := sound.owned before
          exact absurd owned (unowned o)
      obtain ⟨cfg, rfl⟩ := Pair.new_of_absent (acc x) absent stepped found
      rw [← Pair.ledger_absent absent stepped, sound.blank x r absent]
      exact ended_of_fresh fresh rfl

theorem truthful_of_run {as : List Action}
    (well : Along step (fun c a => strict = true → c.endsWell a = true) (start S) as)
    (ran : run step (start S) as = some c) : c.Sound S false ∧ c.Truthful strict := by
  have kept : ∀ (c : Conduit) (a : Action) (c' : Conduit), (c.Sound S false ∧ c.Truthful strict) →
      (strict = true → c.endsWell a = true) → Conduit.step c a = some c' →
        (c'.Sound S false ∧ c'.Truthful strict) := by
    rintro c a c' ⟨sound, truthful⟩ ends moved
    exact ⟨Sound.step sound (by simp) moved, truthful.step sound ends moved⟩
  exact run_invariant kept ⟨sound_start S false, truthful_start S⟩ well ran

/-- A socket that ended cleanly has all that the socket at the other end of its stream got, unless
the task there cut its direction off. -/
theorem Truthful.whole (sound : c.Sound S kept) (truthful : c.Truthful strict) {o o' : Owner}
    (owns : (r, o) ∈ c.owners x) (owns' : (r, o') ∈ c.owners x.other) (here : strict = true ∨ o'.left = false)
    (fin : o'.socket.ended = some .fin) :
    (o'.socket.written = o.lead ++ o.socket.arrived ∧ o.socket.atEof = true ∧
        (o.socket.canWriteEof = true → o.socket.peerEnded = true)) ∨
      o.cuts = true ∧ ∃ dropped, o.writer = .done .returned dropped := by
  obtain ⟨s, found, fine⟩ := sound.fine owns
  obtain ⟨s', found', -⟩ := sound.fine owns'
  obtain ⟨-, cut⟩ := truthful.ends x r o s owns found
  obtain ⟨ended, -⟩ := truthful.ends x.other r o' s' owns' found'
  obtain ⟨byEof, -, empty, written⟩ := ended.whole here fin
  have ref := sound.ref_eq found
  rw [ref] at byEof found' written
  obtain ⟨given, failed, mark, whole⟩ := sound.linked.complete x byEof found' empty
  rw [← ref] at mark whole written
  by_cases cutOff : o.cuts = true ∧ ∃ dropped, o.writer = .done .returned dropped
  · exact .inr cutOff
  · left
    rcases fine.marked given failed mark with ⟨ok, all, eof⟩ | over_
    · refine ⟨by rw [written, whole ok, all], eof, fun half => ?_⟩
      rcases cut.mark half (by rw [mark]; simp) with peer | over_
      · exact peer
      · exact absurd over_ cutOff
    · exact absurd over_ cutOff

/-- What the ends of all sockets say is true. -/
structure Complete (c : Conduit) : Prop where
  /-- A visitor's socket ends cleanly after all that the local app has sent, and it has ended. -/
  response : ∀ v ∈ c.visits, v.2.socket.ended = some .fin → ∃ h ∈ c.handlers, h.1 = v.1 ∧
    ∃ app, h.2.socket = some app ∧ v.2.socket.written = app.arrived ∧ app.peerEnded = true
  /-- The socket of a local app ends cleanly after all that its visitor has sent, or once the
  response was over. -/
  request : ∀ v ∈ c.visits, ∀ h ∈ c.handlers, h.1 = v.1 → ∀ app, h.2.socket = some app →
    app.ended = some .fin →
      (app.written = v.2.initial ++ v.2.socket.arrived ∧ v.2.socket.atEof = true ∧
          (v.2.socket.canWriteEof = true → v.2.socket.peerEnded = true)) ∨
        ∃ dropped, v.2.writer = some (.done .returned dropped)

private theorem Truthful.response (sound : c.Sound S false) (truthful : c.Truthful true) {v : Ref × Relay}
    (visits : v ∈ c.visits) (fin : v.2.socket.ended = some .fin) : ∃ h ∈ c.handlers, h.1 = v.1 ∧
      ∃ app, h.2.socket = some app ∧ v.2.socket.written = app.arrived ∧ app.peerEnded = true := by
  have owns' : (v.1, v.2.owner) ∈ c.owners .server := List.mem_map.mpr ⟨v, visits, rfl⟩
  obtain ⟨s', found', -⟩ := sound.fine owns'
  obtain ⟨ended, -⟩ := truthful.ends .server v.1 _ s' owns' found'
  obtain ⟨byEof, -, empty, -⟩ := ended.whole (.inl rfl) fin
  -- the agent has marked the end of a stream that it has
  obtain ⟨s, found⟩ : ∃ s, (c.pair.mux .agent).heap v.1 = some s := by
    cases there : (c.pair.mux .agent).heap v.1 with
    | some s => exact ⟨s, rfl⟩
    | none =>
      have ref := sound.ref_eq found'
      have blank := sound.blank .agent v.1 there
      rw [ref] at byEof found' blank
      obtain ⟨given, failed, mark, -⟩ := sound.linked.complete .agent byEof found' empty
      rw [blank] at mark
      cases mark
  obtain ⟨h, handles, same⟩ := sound.handlers.owned found
  have owns : (v.1, h.2.owner) ∈ c.owners .agent := List.mem_map.mpr ⟨h, handles, by rw [same]⟩
  refine ⟨h, handles, same, ?_⟩
  obtain ⟨t, found'', -⟩ := sound.fine owns
  obtain ⟨-, cut⟩ := truthful.ends .agent v.1 _ t owns found''
  rcases truthful.whole sound owns owns' (.inl rfl) fin with ⟨written, eof, peer⟩ | ⟨cuts, -⟩
  · cases connected : h.2.socket with
    | none =>
      -- nothing comes to an end before it is connected
      simp [Handler.owner, connected, Socket.new] at eof
    | some app =>
      have half : h.2.owner.socket.canWriteEof = true := cut.halves rfl
      have peer := peer half
      simp only [Handler.owner, connected, Option.getD_some, List.nil_append] at written peer
      exact ⟨app, rfl, written, peer⟩
  · cases cuts

private theorem Truthful.request (sound : c.Sound S false) (truthful : c.Truthful true) {v : Ref × Relay}
    {h : Ref × Handler} (visits : v ∈ c.visits) (handles : h ∈ c.handlers) (same : h.1 = v.1) {app : Socket}
    (connected : h.2.socket = some app) (fin : app.ended = some .fin) :
    (app.written = v.2.initial ++ v.2.socket.arrived ∧ v.2.socket.atEof = true ∧
        (v.2.socket.canWriteEof = true → v.2.socket.peerEnded = true)) ∨
      ∃ dropped, v.2.writer = some (.done .returned dropped) := by
  have owns : (v.1, v.2.owner) ∈ c.owners .server := List.mem_map.mpr ⟨v, visits, rfl⟩
  have owns' : (v.1, h.2.owner) ∈ c.owners .agent := List.mem_map.mpr ⟨h, handles, by rw [same]⟩
  have here : h.2.owner.socket = app := by simp [Handler.owner, connected]
  rcases truthful.whole sound owns owns' (.inl rfl) (here ▸ fin) with whole | ⟨-, dropped, over_⟩
  · left
    rw [here] at whole
    exact whole
  · right
    refine ⟨dropped, ?_⟩
    simp only [Relay.owner] at over_
    cases pump : v.2.writer with
    | none =>
      rw [pump] at over_
      cases over_
    | some w =>
      rw [pump] at over_
      exact congrArg some over_

/-- The local app ends its response, and the visitor hears of it. -/
def farewell : List Action :=
  let env : Env := ⟨0, none⟩
  roundTrip ++ [.relay 0 env (.writer (.drained true)), .handle 0 env (.socket .peerEof),
    .handle 0 env (.reader .read), .handle 0 env (.reader (.start true)),
    .handle 0 env (.reader (.resume true)), .deliver .server env, .deliver .agent env,
    .relay 0 env (.writer .read)]

end Conduit

end Chute
