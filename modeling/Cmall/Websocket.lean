import Cmall.Json
import Cmall.Transition

/-!
A WebSocket connection: `cmall_do_websocket.cpp`.

`do_ws_read` starts a handler for every request. A handler and `send_notify_message` pass
their message to `websocket_write`, which starts a coroutine that calls `try_send` on the
channel of the connection; `do_ws_write` receives from it and writes. The channel has one
place; `try_send` hands the message to a receiver that waits, else stores it if the place is
free, else does nothing and returns false.
-/

namespace Cmall.Websocket

/-- A text that is written is not empty: `do_ws_write` ends at an empty one. -/
structure Text where
  text : String
  nonempty : text ≠ ""

inductive Message where
  /-- A reply, as the object that is serialised. -/
  | reply (object : JsonObject)
  | notification (text : Text)

/-- A serialised object has its braces. -/
def Message.isEmpty : Message → Bool
  | .reply _ => false
  | .notification t => t.text = ""

/-- How `handle_jsonrpc_call` ends, as far as the reply depends on it. -/
inductive Outcome where
  | returned (replayMessage : JsonObject)
  | systemError (code : Int) (message : String)
  | exception

def error (code : Int) (message : String) : JsonObject :=
  [("error", .object [("code", .int64 code), ("message", .string message)])]

/-- `replay_message` after the handlers of exceptions. -/
def replayMessage : Outcome → JsonObject
  | .returned object => object
  | .systemError code message => error code message
  | .exception => error 502 "internal server error"

/-- `insert_or_assign("id", id)`, if the request has an id. -/
def withId (id : Option Json) (object : JsonObject) : JsonObject :=
  match id with
  | none => object
  | some id => ("id", id) :: object.filter fun kv => kv.1 ≠ "id"

/-- A request: its id, and the reply it has passed to `websocket_write`. -/
structure Handler where
  id : Option Json
  reply : Option Message

/-- A coroutine of `websocket_write`. -/
structure Writer where
  message : Message
  sent : Bool

inductive WriterPhase where
  /-- In `async_receive`, with nothing to receive. -/
  | waiting
  /-- `async_receive` has its message. -/
  | received (message : Message)
  /-- In `async_write`. -/
  | writing
  /-- `do_ws_write` has returned. -/
  | returned

structure State where
  handlers : List Handler
  writers : List Writer
  /-- The place of the channel. -/
  channel : Option Message
  doWsWrite : WriterPhase
  /-- What notifications were sent to this connection. -/
  notified : List Message
  /-- What was handed to `ws.async_write`. -/
  written : List Message
  /-- What `try_send` returned false for. -/
  discarded : List Message

def State.opened : State :=
  { handlers := [], writers := [], channel := none, doWsWrite := .waiting, notified := [],
    written := [], discarded := [] }

inductive Step where
  /-- `do_ws_read` reads a request. -/
  | request (id : Option Json)
  /-- A handler is done with its call. -/
  | handled (n : Nat) (outcome : Outcome)
  /-- `send_notify_message` writes to this connection. -/
  | notify (text : Text)
  /-- A coroutine of `websocket_write` runs. -/
  | trySend (n : Nat)
  /-- `do_ws_write` goes on with the message it received. -/
  | receive
  /-- `async_write` is done. -/
  | wrote

/-- `websocket_write`. -/
def State.websocketWrite (s : State) (message : Message) : State :=
  { s with writers := s.writers ++ [⟨message, false⟩] }

/-- `message_channel.try_send`, whose result nobody looks at. -/
def State.trySend (s : State) (message : Message) : State :=
  match s.doWsWrite, s.channel with
  | .waiting, none => { s with doWsWrite := .received message }
  | _, none => { s with channel := some message }
  | _, some _ => { s with discarded := s.discarded ++ [message] }

/-- `message_deque.async_receive`. -/
def State.asyncReceive (s : State) : State :=
  match s.channel with
  | none => { s with doWsWrite := .waiting }
  | some message => { s with channel := none, doWsWrite := .received message }

def step (s : State) : Step → State
  | .request id => { s with handlers := s.handlers ++ [⟨id, none⟩] }
  | .handled n outcome =>
    match s.handlers[n]? with
    | some ⟨id, none⟩ =>
      let message := Message.reply (withId id (replayMessage outcome))
      { s with handlers := s.handlers.set n ⟨id, some message⟩ }.websocketWrite message
    | _ => s
  | .notify text =>
    { s with notified := s.notified ++ [Message.notification text] }.websocketWrite
      (.notification text)
  | .trySend n =>
    match s.writers[n]? with
    | some ⟨message, false⟩ =>
      { s with writers := s.writers.set n ⟨message, true⟩ }.trySend message
    | _ => s
  | .receive =>
    match s.doWsWrite with
    | .received message =>
      if message.isEmpty then { s with doWsWrite := .returned }
      else { s with doWsWrite := .writing, written := s.written ++ [message] }
    | _ => s
  | .wrote =>
    match s.doWsWrite with
    | .writing => s.asyncReceive
    | _ => s

end Cmall.Websocket
