import Cmall.PaymentService

/-!
Payment scripts of one order.

`awaiting_orders` is a lock made by hand. Its guard is armed before the lock is taken, so a
call that is cancelled while it waits gives away the lock of another call. As long as no
waiting call is cancelled while its order is taken, scripts of one order do not overlap and
no order is left behind.
-/

namespace Cmall.Payment
open Transition

/-- The call is between its insertion into `awaiting_orders` and the end of its script. -/
def Call.Runs (oid : String) (c : Call) : Prop :=
  c.params.orderid = oid ∧ ∃ args, c.phase = .running args

/-- The call has not ended. -/
def Call.Active (oid : String) (c : Call) : Prop :=
  c.params.orderid = oid ∧ (c.phase = .waiting ∨ ∃ args, c.phase = .running args)

def Call.runs (oid : String) (c : Call) : Bool :=
  c.params.orderid = oid && match c.phase with
    | .running _ => true
    | _ => false

theorem Call.runs_iff (oid : String) (c : Call) : c.runs oid = true ↔ c.Runs oid := by
  cases h : c.phase <;> simp [Call.runs, Call.Runs, h]

/-- The calls that run a script of the order. -/
def State.running (s : State) (oid : String) : List Call := s.calls.filter (·.runs oid)

/-- What the lock is for. -/
structure Exclusive (s : State) (oid : String) : Prop where
  atMostOne : (s.running oid).length ≤ 1
  released : (∀ c ∈ s.calls, ¬ c.Active oid) → oid ∉ s.awaitingOrders

/-- A waiting call is not cancelled while its order is taken. -/
def NoWaiterCancelled (s : State) : Step → Prop
  | .resume n .error =>
    ∀ c, s.calls[n]? = some c → c.phase = .waiting → c.params.orderid ∉ s.awaitingOrders
  | _ => True

/-- An order is in the set just when one call runs its script. -/
def Held (s : State) : Prop :=
  ∀ oid, (s.running oid).length = if oid ∈ s.awaitingOrders then 1 else 0

/-! ## One segment -/

/-- What a phase counts for an order. -/
def weight (oid : String) (p : Params) (phase : Phase) : Nat :=
  if (Call.mk p phase).runs oid then 1 else 0

@[simp] theorem weight_running (oid : String) (p : Params) (args : List String) :
    weight oid p (.running args) = if p.orderid = oid then 1 else 0 := by
  simp [weight, Call.runs]

@[simp] theorem weight_waiting (oid : String) (p : Params) : weight oid p .waiting = 0 := by
  simp [weight, Call.runs]

@[simp] theorem weight_returned (oid : String) (p : Params) (uri : String) :
    weight oid p (.returned uri) = 0 := by
  simp [weight, Call.runs]

@[simp] theorem weight_failed (oid : String) (p : Params) : weight oid p .failed = 0 := by
  simp [weight, Call.runs]

/-- How often the set has the order. -/
def taken (oid : String) (awaiting : Finset String) : Nat := if oid ∈ awaiting then 1 else 0

/-- Taking the lock adds the call to those that run and the order to the set. -/
theorem acquire_balance (awaiting : Finset String) (p : Params) (oid : String) :
    weight oid p (acquire awaiting p).2 + taken oid awaiting = taken oid (acquire awaiting p).1 := by
  by_cases h : p.orderid ∈ awaiting
  · simp [acquire, h]
  · by_cases ho : p.orderid = oid
    · subst ho
      simp [acquire, h, taken]
    · have hne : oid ≠ p.orderid := fun he => ho he.symm
      simp [acquire, h, ho, hne, taken]

/-- A segment changes the set by what it changes among the calls that run, if a call that is
cancelled while it waits finds its order free. -/
theorem segment_balance (awaiting : Finset String) (p : Params) (result : Result) (phase : Phase)
    (oid : String) (hrun : weight p.orderid p phase ≤ taken p.orderid awaiting)
    (hcancel : result = .error → phase = .waiting → p.orderid ∉ awaiting) :
    weight oid p (segment awaiting p result phase).2 + taken oid awaiting =
      weight oid p phase + taken oid (segment awaiting p result phase).1 := by
  have herase : ∀ awaiting : Finset String, oid ≠ p.orderid →
      taken oid (awaiting.erase p.orderid) = taken oid awaiting := by
    intro awaiting hne
    simp [taken, hne]
  cases phase with
  | returned uri => simp [segment]
  | failed => simp [segment]
  | waiting =>
    cases result with
    | done output => simpa [segment] using acquire_balance awaiting p oid
    | error =>
      have hfree : awaiting.erase p.orderid = awaiting :=
        Finset.erase_eq_of_notMem (hcancel rfl rfl)
      simp [segment, hfree]
  | running args =>
    have hmem : p.orderid ∈ awaiting := by
      by_contra h
      simp [taken, h] at hrun
    have hend : taken oid awaiting =
        (if p.orderid = oid then 1 else 0) + taken oid (awaiting.erase p.orderid) := by
      by_cases ho : p.orderid = oid
      · subst ho
        simp [taken, hmem]
      · rw [herase awaiting fun he => ho he.symm]
        simp [ho]
    cases result with
    | done output => simp [segment, hend]
    | error => simp [segment, hend]

/-! ## The run -/

theorem running_append (s : State) (oid : String) (c : Call) (awaiting : Finset String) :
    (State.running ⟨awaiting, s.calls ++ [c]⟩ oid).length =
      (s.running oid).length + weight oid c.params c.phase := by
  by_cases h : c.runs oid = true
  · simp [State.running, List.filter_append, weight, h]
  · simp [State.running, List.filter_append, weight, h]

/-- One call replaced by another. -/
theorem running_set {s : State} {n : Nat} {c : Call} (hc : s.calls[n]? = some c) (oid : String)
    (c' : Call) (awaiting : Finset String) :
    (State.running ⟨awaiting, s.calls.set n c'⟩ oid).length + weight oid c.params c.phase =
      (s.running oid).length + weight oid c'.params c'.phase := by
  obtain ⟨hn, hget⟩ := List.getElem?_eq_some_iff.mp hc
  simp only [State.running, ← List.countP_eq_length_filter, List.countP_set hn, hget, weight]
  have hpos : c.runs oid = true → 0 < s.calls.countP (·.runs oid) := by
    intro h
    exact List.countP_pos_iff.mpr ⟨c, List.mem_of_getElem? hc, h⟩
  split
  · next h =>
    have := hpos h
    split <;> omega
  · split <;> omega

theorem held_step {s : State} {l : Step} (hs : Held s) (hl : NoWaiterCancelled s l) :
    Held (step s l) := by
  intro oid
  cases l with
  | call p =>
    have happ := running_append s oid ⟨p, (getPayurl s.awaitingOrders p).2⟩
      (getPayurl s.awaitingOrders p).1
    have hheld : (s.running oid).length = taken oid s.awaitingOrders := hs oid
    have hbal : weight oid p (getPayurl s.awaitingOrders p).2 + taken oid s.awaitingOrders =
        taken oid (getPayurl s.awaitingOrders p).1 := by
      simp only [getPayurl]
      split
      · simp
      · exact acquire_balance s.awaitingOrders p oid
    show (State.running _ oid).length = taken oid (getPayurl s.awaitingOrders p).1
    dsimp only [step] at happ ⊢
    omega
  | resume n result =>
    cases hc : s.calls[n]? with
    | none => simpa [step, hc] using hs oid
    | some c =>
      have hset := running_set hc oid
        ⟨c.params, (segment s.awaitingOrders c.params result c.phase).2⟩
        (segment s.awaitingOrders c.params result c.phase).1
      have hheld : ∀ oid, (s.running oid).length = taken oid s.awaitingOrders := hs
      have hrun : weight c.params.orderid c.params c.phase ≤
          taken c.params.orderid s.awaitingOrders := by
        rw [← hheld, weight]
        split
        · next h =>
          have hmem : c ∈ s.running c.params.orderid :=
            List.mem_filter.mpr ⟨List.mem_of_getElem? hc, h⟩
          exact List.length_pos_of_mem hmem
        · omega
      have hbal := segment_balance s.awaitingOrders c.params result c.phase oid hrun (by
        rintro rfl hwait
        exact hl c hc hwait)
      have hoid := hheld oid
      show (State.running (step s (.resume n result)) oid).length = taken oid _
      simp only [step, hc]
      dsimp only at hset
      omega

theorem Held.exclusive {s : State} (h : Held s) (oid : String) : Exclusive s oid := by
  have hoid := h oid
  constructor
  · rw [hoid]
    split <;> omega
  · intro hactive hmem
    rw [if_pos hmem] at hoid
    obtain ⟨c, hc⟩ := List.length_pos_iff_exists_mem.mp (show 0 < (s.running oid).length by omega)
    obtain ⟨hcs, hrun⟩ := List.mem_filter.mp hc
    obtain ⟨ho, hargs⟩ := (c.runs_iff oid).mp hrun
    exact hactive c hcs ⟨ho, .inr hargs⟩

/-- In every run in which no waiting call is cancelled while its order is taken, the scripts
of an order do not overlap, and an order without an active call is free. -/
theorem payment_scripts_exclusive {ls : List Step}
    (h : Meets step NoWaiterCancelled State.idle ls) (oid : String) :
    Exclusive (run step State.idle ls) oid := by
  have hidle : Held State.idle := fun oid => rfl
  exact (h.invariant (fun _ _ => held_step) hidle).exclusive oid

/-- A call for order 1. -/
def payOrder : Params :=
  { scriptContent := "pay()", orderid := "1", nthTry := 0, orderAmount := "5", paymentmethod := "wx" }

/-- The second call waits for the first, then has the order to itself. -/
theorem payment_scripts_exclusive_twice :
    Exclusive (run step State.idle [.call payOrder, .call payOrder, .resume 1 (.done ""),
      .resume 0 (.done "url\n"), .resume 1 (.done "")]) "1" :=
  payment_scripts_exclusive (by simp [Meets, NoWaiterCancelled]) "1"

/-- The second call is cancelled while it waits, and the third runs beside the first. -/
theorem payment_scripts_overlap :
    ¬ Exclusive (run step State.idle [.call payOrder, .call payOrder, .resume 1 .error,
      .call payOrder]) "1" := by
  intro h
  have hlen := h.atMostOne
  revert hlen
  decide

end Cmall.Payment
