import Cmall.Safety.OrderUpdates

/-!
What makes an order a paid one.

Besides the confirmations of a payment, `merchant_delete_sold_orders` sets the time
of payment too. As long as it is only used on paid orders, and nobody writes back a
row that has changed since it was loaded, an order becomes a paid one only through
a confirmation.
-/

namespace Cmall
open Coroutine Protocol

/-! ## The condition -/

/-- A row is written back only while nobody else has written it since it was loaded,
and only paid orders are deleted. -/
def rowKeptDeletePayed : Guard := fun r q p i s =>
  rowKept r q p i s ∧ ∀ x ∈ p.spot.stores, x.1.isDelete = true → s.db.payed x.2.id = true

instance (r : Nat) (q : Request) (p : Point) (i : Input) (s : Mem) :
    Decidable (rowKeptDeletePayed r q p i s) :=
  inferInstanceAs (Decidable (_ ∧ ∀ x ∈ p.spot.stores, _ → _))

def paymentProtocol (cfg : Config) : Protocol Request Mem Input Point :=
  orderProtocol cfg rowKeptDeletePayed fun _ _ => True

instance (cfg : Config) (r : Nat) (q : Request) (p : Point) (i : Input) (s : Mem) :
    Decidable ((paymentProtocol cfg).guard r q p i s) :=
  inferInstanceAs (Decidable (rowKeptDeletePayed r q p i s))

instance (cfg : Config) (q : Request) (s : Mem) : Decidable ((paymentProtocol cfg).permit q s) :=
  .isTrue trivial

/-! ## Confirmations -/

section Steps

variable {cfg : Config} {r : Nat} {q : Request} {s t : Mem}

/-- The payment of the order was confirmed by request `r`: its seller marked it
paid, `checkpay.js` printed `payed` for it, or WeChat reported success for it. -/
inductive Confirmed (r : Nat) (q : Request) (o : CmallOrder) (trace : List Event) : Prop where
  | marked (old : CmallOrder) (hq : q.method = some .merchantSoldOrdersMarkPayed)
      (hident : old.ident = o.ident) (hload : LoadedBy r (.seller o.seller) old trace)
  | checked (out : String)
      (hq : q.method = some .orderCheckPayment ∨ q.method = some .merchantSoldOrdersCheckPayment)
      (hout : .checkpay r o.oid out ∈ trace) (hpayed : out = "payed" ∨ out = "payed\n")
  | notified (msg : NotifyMessage) (hq : q = .wxCallback msg) (hstate : msg.tradeState = .success)
      (hoid : msg.outTradeNo = o.oid)

theorem CmallOrder.seller_of_ident {o o' : CmallOrder} (h : o.ident = o'.ident) :
    o.seller = o'.seller := congrArg (·.2.2.2) h

theorem Confirmed.mono {o o' : CmallOrder} {tr tr' : List Event} (h : Confirmed r q o tr)
    (hsub : ∀ e ∈ tr, e ∈ tr') (hident : o.ident = o'.ident) : Confirmed r q o' tr' := by
  cases h with
  | marked old hq hold hload =>
    obtain ⟨rows, he, hrow⟩ := hload
    exact .marked old hq (hold.trans hident)
      ⟨rows, CmallOrder.seller_of_ident hident ▸ hsub _ he, hrow⟩
  | checked out hq hout hpayed =>
    exact .checked out hq (CmallOrder.oid_of_ident hident ▸ hsub _ hout) hpayed
  | notified msg hq hstate hoid =>
    exact .notified msg hq hstate (hoid.trans (CmallOrder.oid_of_ident hident))

/-- Every paid order was paid in `s₀`, or request `r` has confirmed its payment. -/
def PayedSince (s₀ : Mem) (r : Nat) (q : Request) (s : Mem) : Prop :=
  ∀ id o, s.db.findOrder id = some o → o.payedAt.isSome = true →
    s₀.db.payed id = true ∨ Confirmed r q o s.trace

theorem OrderStep.payedSince {s₀ : Mem} (h : OrderStep cfg rowKeptDeletePayed r q s t)
    (hf : RowsFresh s) (hs : PayedSince s₀ r q s) : PayedSince s₀ r q t := by
  intro id o ho hpayed
  have hsame : ∀ {tr}, (∀ e ∈ s.trace, e ∈ tr) → s.db.findOrder id = some o →
      s₀.db.payed id = true ∨ Confirmed r q o tr := fun hsub ho =>
    (hs id o ho hpayed).imp_right fun hc => hc.mono hsub rfl
  cases h with
  | other horders hseq huuids htrace =>
    obtain ⟨es, hes, -⟩ := htrace
    refine hsame (fun e he => hes ▸ List.mem_append_right _ he) ?_
    simpa [Db.findOrder, horders] using ho
  | load who rows hrows => exact hsame (fun e he => List.mem_cons_of_mem _ he) ho
  | store ctx i c old cur hguard hload hcause hcur hident =>
    cases old_eq_cur hf hguard.1 hload hcur
    have hsub : ∀ e ∈ s.trace, e ∈ Event.orderStored r c (c.apply s.clock old) :: s.trace :=
      fun e he => List.mem_cons_of_mem _ he
    change Db.findOrder { s.db with orders := _ } id = some o at ho
    rw [findOrder_store hcur] at ho
    split at ho
    · rename_i hid
      subst hid
      have ho' := (Option.some.inj ho).symm
      subst ho'
      have hident' := (c.apply_ident s.clock old).symm
      -- a change that is no payment leaves the payment of the row as it was
      have hkept : old.payedAt.isSome = true → s₀.db.payed old.id = true ∨
          Confirmed r q (c.apply s.clock old)
            (.orderStored r c (c.apply s.clock old) :: s.trace) := fun h =>
        (hs _ old hcur h).imp_right fun hc => hc.mono hsub hident'
      cases c with
      | alterPrice p k => exact hkept hpayed
      | addKuaidi info => exact hkept hpayed
      | delete time =>
        refine hkept ?_
        have hdb : s.db.payed old.id = true := hguard.2 _ rfl rfl
        simpa [Db.payed, hcur] using hdb
      | markPayed time =>
        rcases hcause with ⟨hq, hl⟩ | ⟨hq, out, he, hout⟩
        · obtain ⟨rows, he, hrow⟩ := hl
          exact .inr (.marked old hq rfl ⟨rows, hsub _ he, hrow⟩)
        · exact .inr (.checked out hq (hsub _ he) hout)
      | wxPayed time =>
        obtain ⟨msg, hq, hstate, hoid, -⟩ := hcause
        exact .inr (.notified msg hq hstate hoid)
    · exact hsame hsub ho
  | persist order n hoid hn hfresh hnone =>
    rcases findOrder_persist ho with ho | rfl
    · exact hsame (fun _ he => he) ho
    · simp [hnone] at hpayed
  | prepay ctx i order hguard hload => exact hsame (fun e he => List.mem_cons_of_mem _ he) ho

end Steps

/-- In every run in which a row is written back only while nobody else has written
it, and only paid orders are deleted, a step after which an order is paid that was
not paid before is a step of a request that confirms the payment. -/
theorem payed_only_when_confirmed (cfg : Config) (m : Mem) (ls : List (Label Request Input))
    (r : Nat) (i : Input) (hm : FreshStart m)
    (hls : (paymentProtocol cfg).Admissible (prog cfg) (Sys.idle m) (ls ++ [.resume r i])) :
    let s := (Sys.idle m : Service).run (prog cfg) ls
    let t := (Sys.idle m : Service).run (prog cfg) (ls ++ [.resume r i])
    ∃ p, s.procs[r]? = some p ∧ ∀ id o, t.mem.db.findOrder id = some o → o.payedAt.isSome = true →
      s.mem.db.payed id = true ∨ Confirmed r p.req o t.mem.trace := by
  have hprog := programs_order cfg rowKeptDeletePayed fun _ _ => True
  have hgood := hm.good cfg rowKeptDeletePayed fun _ _ => True
  obtain ⟨p, hp, hsteps⟩ := run_guar hprog hgood hls
  obtain ⟨hinv, hfresh⟩ := order_run (J := fun _ => RowsFresh) hm (admissible_append.mp hls).1
    (fun _ _ _ _ h => h) (fun _ _ _ _ _ hi _ hstep h => hstep.rowsFresh hi h) hm.rowsFresh
  refine ⟨p, hp, ?_⟩
  have hsince := order_steps (J := fun s => RowsFresh s ∧
      PayedSince ((Sys.idle m : Service).run (prog cfg) ls).mem r p.req s) hsteps hinv
    (fun s t hi hstep h => ⟨hstep.rowsFresh hi h.1, hstep.payedSince h.1 h.2⟩)
    ⟨hfresh, fun id o ho hpayed => .inl (by simp [Db.payed, ho, hpayed])⟩
  exact hsince.2.2

/-! ## A deletion -/

/-- The seller marks the order paid. -/
theorem payed_only_when_confirmed_by_seller :
    let s := (Sys.idle oneSoldOrder : Service).run (prog bareConfig)
      (sold .merchantSoldOrdersMarkPayed [] :: resumes 0 3)
    let t := (Sys.idle oneSoldOrder : Service).run (prog bareConfig)
      (sold .merchantSoldOrdersMarkPayed [] :: resumes 0 3 ++ [.resume 0 {}])
    ∃ p, s.procs[0]? = some p ∧ ∀ id o, t.mem.db.findOrder id = some o → o.payedAt.isSome = true →
      s.mem.db.payed id = true ∨ Confirmed 0 p.req o t.mem.trace :=
  payed_only_when_confirmed bareConfig oneSoldOrder _ 0 {} oneSoldOrder_freshStart (by decide)

/-- The deletion of an unpaid order makes it a paid one. -/
theorem deletion_marks_payed :
    let s := (Sys.idle oneSoldOrder : Service).run (prog bareConfig)
      (sold .merchantDeleteSoldOrders [] :: resumes 0 3)
    let t := (Sys.idle oneSoldOrder : Service).run (prog bareConfig)
      (sold .merchantDeleteSoldOrders [] :: resumes 0 3 ++ [.resume 0 {}])
    ¬ ∃ p, s.procs[0]? = some p ∧ ∀ id o, t.mem.db.findOrder id = some o →
      o.payedAt.isSome = true → s.mem.db.payed id = true ∨ Confirmed 0 p.req o t.mem.trace := by
  intro s t h
  obtain ⟨p, hp, hall⟩ := h
  have hreq : (s.procs[0]?).map (fun p => p.req.method) = some (some .merchantDeleteSoldOrders) := by
    decide
  have hq : p.req.method = some .merchantDeleteSoldOrders := by
    rw [hp] at hreq
    exact Option.some.inj hreq
  obtain ⟨o, ho, hpayed⟩ : ∃ o, t.mem.db.findOrder 1 = some o ∧ o.payedAt.isSome = true := by
    have hdec : (t.mem.db.findOrder 1).any (fun o => o.payedAt.isSome) = true := by decide
    simpa [Option.any_eq_true_iff_get, Option.eq_some_iff_get_eq] using hdec
  rcases hall 1 o ho hpayed with hs | hc
  · exact absurd hs (by decide)
  · cases hc with
    | marked old hq' => simp [hq] at hq'
    | checked out hq' => simp [hq] at hq'
    | notified msg hq' => simp [hq', Request.method] at hq

end Cmall
