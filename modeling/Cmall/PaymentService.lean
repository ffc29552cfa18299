import Cmall.Transition
import Mathlib.Data.Finset.Basic

/-!
The payment service: `payment_service.cpp`, `get_payurl`.

A call inserts its order into `awaiting_orders`, runs the script of the merchant and erases
the order again when it is left, by a value or by an exception. A call that finds its order
there sleeps for 50 ms and looks again. Between two suspension points a call runs under
`exclude_run`, so a step is one such segment.
-/

namespace Cmall.Payment

/-- The arguments of a call. -/
structure Params where
  scriptContent : String
  orderid : String
  nthTry : Int
  orderAmount : String
  paymentmethod : String
  deriving DecidableEq, Repr

inductive Phase where
  /-- In `t.async_wait()`. -/
  | waiting
  /-- In `nodejs.run_script` with these arguments. -/
  | running (scriptArg : List String)
  | returned (uri : String)
  | failed
  deriving DecidableEq, Repr

structure Call where
  params : Params
  phase : Phase
  deriving DecidableEq, Repr

structure State where
  awaitingOrders : Finset String
  calls : List Call
  deriving DecidableEq

def State.idle : State := { awaitingOrders := ∅, calls := [] }

/-- What a suspended call is resumed with: its timer or its script is done, or the operation
failed or was cancelled. -/
inductive Result where
  | done (output : String)
  | error
  deriving DecidableEq, Repr

inductive Step where
  | call (p : Params)
  | resume (n : Nat) (result : Result)
  deriving DecidableEq, Repr

def Params.scriptArg (p : Params) : List String :=
  ["--order-id", p.orderid, "--order-amount", p.orderAmount, "--method", p.paymentmethod]

/-- The test of `awaiting_orders`, made at the start and after every sleep. -/
def acquire (awaiting : Finset String) (p : Params) : Finset String × Phase :=
  if p.orderid ∈ awaiting then (awaiting, .waiting)
  else (insert p.orderid awaiting, .running p.scriptArg)

/-- `pop_back` on what the script printed. -/
def popBack (output : String) : String := String.ofList output.toList.dropLast

/-- One segment of a call. The guard `scoped_exit` erases the order wherever the call ends
after it was made, also in a call that has not inserted it. -/
def segment (awaiting : Finset String) (p : Params) (result : Result) :
    Phase → Finset String × Phase
  | .waiting =>
    match result with
    | .done _ => acquire awaiting p
    | .error => (awaiting.erase p.orderid, .failed)
  | .running _ =>
    match result with
    | .done output => (awaiting.erase p.orderid, .returned (popBack output))
    | .error => (awaiting.erase p.orderid, .failed)
  | .returned uri => (awaiting, .returned uri)
  | .failed => (awaiting, .failed)

/-- `get_payurl` up to its first suspension point. -/
def getPayurl (awaiting : Finset String) (p : Params) : Finset String × Phase :=
  if p.scriptContent = "" then (awaiting, .failed) else acquire awaiting p

def step (s : State) : Step → State
  | .call p =>
    let x := getPayurl s.awaitingOrders p
    { awaitingOrders := x.1, calls := s.calls ++ [⟨p, x.2⟩] }
  | .resume n result =>
    match s.calls[n]? with
    | none => s
    | some c =>
      let x := segment s.awaitingOrders c.params result c.phase
      { awaitingOrders := x.1, calls := s.calls.set n ⟨c.params, x.2⟩ }

end Cmall.Payment
