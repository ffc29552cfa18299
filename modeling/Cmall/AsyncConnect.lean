import Cmall.Transition

/-!
`utils/async_connect.hpp`: `do_async_connect`, which connects to all endpoints at once, to those of
IPv4 after 200 ms when there are also some of IPv6.
-/

namespace Cmall.AsyncConnect

inductive Family where
  | v4 | v6
  deriving DecidableEq, Repr

/-- How far the connector of an endpoint is. -/
inductive Attempt where
  /-- It has not run: its turn has not come yet, or its timer is pending. -/
  | waiting
  | connecting
  | rejected
  /-- Its timer has found the flag set. -/
  | skipped
  | failed
  | connected
  deriving DecidableEq, Repr

inductive Error where
  | noData | notFound | connectFailed
  deriving DecidableEq, Repr

/-- What the handler is invoked with: the error, and the endpoint whose iterator it is given. -/
structure Completion where
  error : Option Error
  endpoint : Nat
  deriving DecidableEq, Repr

/-- The members of `connect_context`, the counter `reject`, and what has come out. -/
structure State where
  flag : Bool := false
  num : Int
  reject : Int := 0
  /-- The endpoint whose socket has been moved into the stream. -/
  stream : Option Nat := none
  attempts : List Attempt
  /-- The invocations of the handler that have been posted. -/
  posted : List Completion := []
  deriving DecidableEq, Repr

def State.settle (s : State) (i : Nat) (a : Attempt) : State :=
  { s with attempts := s.attempts.set i a }

def State.callback (s : State) (error : Option Error) (i : Nat) : State :=
  { s with posted := s.posted ++ [⟨error, i⟩] }

/-- A connector: it asks the condition and starts to connect. -/
def connFunc (accept : Nat → Bool) (i : Nat) (s : State) : State :=
  if accept i then s.settle i .connecting
  else
    let s := { s.settle i .rejected with reject := s.reject + 1 }
    if s.reject = s.num then s.callback (some .notFound) i else s

/-- The handler of `async_connect` of a socket. Sockets that are canceled report an error later. -/
def connectHandler (i : Nat) (error : Option Error) (s : State) : State :=
  let s := s.settle i (if error = none then .connected else .failed)
  if error = none ∧ s.flag then s
  else
    let s := if error = none then { s with flag := true, stream := some i } else s
    let s := { s with num := s.num - 1 }
    if error ≠ none ∧ (s.flag ∨ s.num ≠ 0) then s else s.callback error i

/-- The handler of a delay timer. -/
def timerHandler (accept : Nat → Bool) (i : Nat) (s : State) : State :=
  if s.flag then s.settle i .skipped else connFunc accept i s

def useHappyEyeball (endpoints : List Family) : Bool := .v6 ∈ endpoints ∧ .v4 ∈ endpoints

/-- The loop over the connectors; those that wait for a timer are left out. -/
def startConnectors (endpoints : List Family) (accept : Nat → Bool) : List Nat → State → State
  | [], s => s
  | i :: is, s =>
    startConnectors endpoints accept is
      (if useHappyEyeball endpoints ∧ endpoints[i]? = some .v4 then s else connFunc accept i s)

def doAsyncConnect (endpoints : List Family) (accept : Nat → Bool) : State :=
  let s : State :=
    { num := endpoints.length, attempts := List.replicate endpoints.length .waiting }
  if s.num = 0 then s.callback (some .noData) 0
  else startConnectors endpoints accept (List.range endpoints.length) s

/-! ## Runs -/

/-- What can happen next: a timer, or the end of an attempt. -/
inductive Event where
  | timer (i : Nat)
  | success (i : Nat)
  | failure (i : Nat)
  deriving DecidableEq, Repr

def step (accept : Nat → Bool) (s : State) : Event → State
  | .timer i => timerHandler accept i s
  | .success i => connectHandler i none s
  | .failure i => connectHandler i (some .connectFailed) s

/-- Only pending timers and attempts report. -/
def Enabled (s : State) : Event → Prop
  | .timer i => s.attempts[i]? = some .waiting
  | .success i => s.attempts[i]? = some .connecting
  | .failure i => s.attempts[i]? = some .connecting

instance (s : State) : ∀ e, Decidable (Enabled s e)
  | .timer i => inferInstanceAs (Decidable (s.attempts[i]? = some .waiting))
  | .success i => inferInstanceAs (Decidable (s.attempts[i]? = some .connecting))
  | .failure i => inferInstanceAs (Decidable (s.attempts[i]? = some .connecting))

/-- The events of a run from the call on. -/
def Run (endpoints : List Family) (accept : Nat → Bool) (events : List Event) : Prop :=
  Transition.Meets (step accept) Enabled (doAsyncConnect endpoints accept) events

def final (endpoints : List Family) (accept : Nat → Bool) (events : List Event) : State :=
  Transition.run (step accept) (doAsyncConnect endpoints accept) events

/-- An attempt or a timer is pending. -/
def Attempt.pending : Attempt → Bool
  | .waiting | .connecting => true
  | _ => false

def State.Quiet (s : State) : Prop := ∀ a ∈ s.attempts, a.pending = false

end Cmall.AsyncConnect
