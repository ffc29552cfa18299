import Cmall.Websocket
import Mathlib.Data.List.Perm.Basic

/-!
Replies and notifications on a WebSocket connection.

Nobody looks at the result of `try_send`, and the channel has one place: while `do_ws_write`
is in `async_write`, the second message is dropped. Whenever the place is free at a
`try_send`, every message is written once.
-/

namespace Cmall.Websocket
open Transition

/-! ## What is to hold -/

/-- The message is a reply with the id of the request, if that has one. -/
def Carries (id : Option Json) (message : Message) : Prop :=
  ∃ object, message = .reply object ∧ ∀ v, id = some v → Json.at? object "id" = some v

/-- The replies so far. -/
def State.replies (s : State) : List Message := s.handlers.filterMap (·.reply)

/-- Handlers and notification writers have finished and the writer waits on an empty channel. -/
structure Quiet (s : State) : Prop where
  handlers : ∀ h ∈ s.handlers, h.reply.isSome
  writers : ∀ w ∈ s.writers, w.sent = true
  waiting : s.doWsWrite = .waiting
  empty : s.channel = none

/-- Nothing was discarded, and in a quiet state every request has a reply with its id, and
what was written are these replies and the notifications, each once. -/
structure NothingLost (s : State) : Prop where
  discarded : s.discarded = []
  replied : Quiet s → ∀ h ∈ s.handlers, ∃ message, h.reply = some message ∧ Carries h.id message
  written : Quiet s → s.written.Perm (s.replies ++ s.notified)

/-- The channel has room for a message that is sent. -/
def HasRoom (s : State) : Step → Prop
  | .trySend n => ∀ message, s.writers[n]? = some ⟨message, false⟩ → s.channel = none
  | _ => True

/-! ## The invariant -/

/-- What `do_ws_write` has received and not written. -/
def WriterPhase.held : WriterPhase → List Message
  | .received message => [message]
  | _ => []

/-- What was passed to `websocket_write`, and what was sent into the channel. -/
def State.passed (s : State) : List Message := s.writers.map (·.message)
def State.sent (s : State) : List Message := (s.writers.filter (·.sent)).map (·.message)

structure Inv (s : State) : Prop where
  passed : s.passed.Perm (s.replies ++ s.notified)
  sent : s.sent.Perm (s.channel.toList ++ s.doWsWrite.held ++ s.written)
  carries : ∀ h ∈ s.handlers, ∀ message, h.reply = some message → Carries h.id message
  discarded : s.discarded = []

theorem Inv.nothingLost {s : State} (h : Inv s) : NothingLost s := by
  refine ⟨h.discarded, fun hq x hx => ?_, fun hq => ?_⟩
  · obtain ⟨message, hm⟩ := Option.isSome_iff_exists.mp (hq.handlers x hx)
    exact ⟨message, hm, h.carries x hx message hm⟩
  · have hall : s.writers.filter (·.sent) = s.writers := List.filter_eq_self.mpr hq.writers
    have hsent := h.sent
    rw [State.sent, hall, hq.waiting, hq.empty] at hsent
    exact hsent.symm.trans h.passed

/-! ## Lists with one element replaced -/

theorem filterMap_set {l : List Handler} {n : Nat} {id : Option Json} (message : Message)
    (hn : l[n]? = some ⟨id, none⟩) :
    ((l.set n ⟨id, some message⟩).filterMap (·.reply)).Perm (message :: l.filterMap (·.reply)) := by
  obtain ⟨hlt, hget⟩ := List.getElem?_eq_some_iff.mp hn
  obtain ⟨l₁, l₂, hl, _, hset⟩ := List.exists_of_set (α := Handler) hlt
  rw [hget] at hl
  rw [hset, hl]
  simp [List.filterMap_append, List.perm_middle]

theorem sent_set {l : List Writer} {n : Nat} {message : Message}
    (hn : l[n]? = some ⟨message, false⟩) :
    (((l.set n ⟨message, true⟩).filter (·.sent)).map (·.message)).Perm
      (message :: (l.filter (·.sent)).map (·.message)) := by
  obtain ⟨hlt, hget⟩ := List.getElem?_eq_some_iff.mp hn
  obtain ⟨l₁, l₂, hl, _, hset⟩ := List.exists_of_set (α := Writer) hlt
  rw [hget] at hl
  rw [hset, hl]
  simp [List.filter_append, List.perm_middle]

theorem passed_set {l : List Writer} {n : Nat} {message : Message}
    (hn : l[n]? = some ⟨message, false⟩) :
    (l.set n ⟨message, true⟩).map (·.message) = l.map (·.message) := by
  obtain ⟨hlt, hget⟩ := List.getElem?_eq_some_iff.mp hn
  obtain ⟨l₁, l₂, hl, _, hset⟩ := List.exists_of_set (α := Writer) hlt
  rw [hget] at hl
  rw [hset, hl]
  simp

theorem carries_withId (id : Option Json) (object : JsonObject) :
    Carries id (.reply (withId id object)) := by
  refine ⟨_, rfl, fun v hv => ?_⟩
  subst hv
  simp [withId, Json.at?]

/-! ## Steps -/

theorem inv_request {s : State} (h : Inv s) (id : Option Json) : Inv (step s (.request id)) := by
  refine ⟨?_, h.sent, fun x hx message hm => ?_, h.discarded⟩
  · have hreplies : (step s (.request id)).replies = s.replies := by
      simp [State.replies, step]
    rw [hreplies]
    exact h.passed
  · rcases List.mem_append.mp hx with hx | hx
    · exact h.carries x hx message hm
    · rw [List.mem_singleton.mp hx] at hm
      cases hm

/-- A message passed to `websocket_write` is not sent yet. -/
theorem sent_websocketWrite (s : State) (message : Message) :
    (s.websocketWrite message).sent = s.sent := by
  simp [State.sent, State.websocketWrite]

theorem passed_websocketWrite (s : State) (message : Message) :
    (s.websocketWrite message).passed = s.passed ++ [message] := by
  simp [State.passed, State.websocketWrite]

theorem inv_handled {s : State} (h : Inv s) (n : Nat) (outcome : Outcome) :
    Inv (step s (.handled n outcome)) := by
  simp only [step]
  split
  · next id hn =>
    refine ⟨?_, ?_, fun x hx message hm => ?_, h.discarded⟩
    · rw [passed_websocketWrite]
      have hreplies := filterMap_set (.reply (withId id (replayMessage outcome))) hn
      exact (List.perm_append_singleton _ _).trans
        ((h.passed.cons _).trans (hreplies.symm.append_right s.notified))
    · rw [sent_websocketWrite]
      exact h.sent
    · rcases List.mem_or_eq_of_mem_set hx with hx | rfl
      · exact h.carries x hx message hm
      · cases hm
        exact carries_withId id _
  · exact h

theorem inv_notify {s : State} (h : Inv s) (text : Text) : Inv (step s (.notify text)) := by
  refine ⟨?_, ?_, h.carries, h.discarded⟩
  · simp only [step]
    rw [passed_websocketWrite]
    show (s.passed ++ [_]).Perm (s.replies ++ (s.notified ++ [_]))
    rw [← List.append_assoc]
    exact h.passed.append_right _
  · simp only [step]
    rw [sent_websocketWrite]
    exact h.sent

theorem inv_trySend {s : State} (h : Inv s) (n : Nat) (hroom : HasRoom s (.trySend n)) :
    Inv (step s (.trySend n)) := by
  simp only [step]
  split
  · next message hn =>
    have hempty : s.channel = none := hroom message hn
    have hpassed : State.passed { s with writers := s.writers.set n ⟨message, true⟩ } = s.passed :=
      passed_set hn
    have hsent : (State.sent { s with writers := s.writers.set n ⟨message, true⟩ }).Perm
        (message :: s.sent) := sent_set hn
    have hflow := h.sent
    rw [hempty] at hflow
    cases hphase : s.doWsWrite
    all_goals
      rw [hphase] at hflow
      simp only [State.trySend, hempty]
      exact ⟨hpassed ▸ h.passed, hsent.trans (hflow.cons message), h.carries, h.discarded⟩
  · exact h

theorem isEmpty_eq_false (message : Message) : message.isEmpty = false := by
  cases message with
  | reply object => rfl
  | notification t => simp [Message.isEmpty, t.nonempty]

theorem inv_receive {s : State} (h : Inv s) : Inv (step s .receive) := by
  simp only [step]
  split
  · next message hphase =>
    rw [isEmpty_eq_false]
    have hflow := h.sent
    rw [hphase] at hflow
    refine ⟨h.passed, ?_, h.carries, h.discarded⟩
    show s.sent.Perm (s.channel.toList ++ [] ++ (s.written ++ [message]))
    refine hflow.trans ?_
    simp only [WriterPhase.held, List.append_nil, List.append_assoc]
    exact (List.perm_append_comm).append_left _
  · exact h

theorem inv_wrote {s : State} (h : Inv s) : Inv (step s .wrote) := by
  simp only [step]
  split
  · next hphase =>
    have hflow := h.sent
    rw [hphase] at hflow
    cases hchannel : s.channel with
    | none =>
      rw [hchannel] at hflow
      simp only [State.asyncReceive, hchannel]
      exact ⟨h.passed, hflow, h.carries, h.discarded⟩
    | some message =>
      rw [hchannel] at hflow
      simp only [State.asyncReceive, hchannel]
      exact ⟨h.passed, hflow, h.carries, h.discarded⟩
  · exact h

theorem inv_step {s : State} {l : Step} (h : Inv s) (hl : HasRoom s l) : Inv (step s l) := by
  cases l with
  | request id => exact inv_request h id
  | handled n outcome => exact inv_handled h n outcome
  | notify text => exact inv_notify h text
  | trySend n => exact inv_trySend h n hl
  | receive => exact inv_receive h
  | wrote => exact inv_wrote h

/-- Whenever the channel has room at every `try_send`, no reply and no notification is lost
or written twice. -/
theorem websocket_nothing_lost {ls : List Step} (h : Meets step HasRoom State.opened ls) :
    NothingLost (run step State.opened ls) := by
  have hopened : Inv State.opened :=
    ⟨List.Perm.refl _, List.Perm.refl _, (fun x hx => by cases hx), rfl⟩
  exact (h.invariant (fun _ _ => inv_step) hopened).nothingLost

/-- Two requests; the second reply waits in the channel while the first is written. -/
theorem websocket_nothing_lost_two :
    NothingLost (run step State.opened [.request (some (.int64 1)), .request (some (.int64 2)),
      .handled 1 .exception, .handled 0 (.returned []), .trySend 0, .receive, .trySend 1, .wrote,
      .receive, .wrote]) := by
  refine websocket_nothing_lost ?_
  simp [Meets, HasRoom, step, State.opened, State.websocketWrite, State.trySend, Message.isEmpty]

/-- Three replies while the first is written: the third is dropped. -/
theorem websocket_reply_dropped :
    ¬ NothingLost (run step State.opened [.request (some (.int64 1)), .request (some (.int64 2)),
      .request (some (.int64 3)), .handled 0 (.returned []), .handled 1 (.returned []),
      .handled 2 (.returned []), .trySend 0, .receive, .trySend 1, .trySend 2, .wrote, .receive,
      .wrote]) := by
  intro h
  have hdiscarded := h.discarded
  simp [run, step, State.opened, State.websocketWrite, State.trySend, State.asyncReceive,
    Message.isEmpty] at hdiscarded

end Cmall.Websocket
