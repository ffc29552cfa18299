import Cmall.Safety.OrderSteps
import Cmall.Safety.PhoneVerification

/-!
Lost updates of orders.

The six requests that change an order write back the whole row they loaded. As
long as nobody else has written the row in between, the rows are what the changes
make of them, one after the other.
-/

namespace Cmall
open Coroutine Protocol

/-! ## The condition -/

/-- Request `r` has loaded the row, and nobody has written it since. -/
def isFresh (r id : Nat) : List Event → Bool
  | [] => false
  | .orderStored _ _ row :: rest => row.id ≠ id && isFresh r id rest
  | .ordersLoaded r' _ rows :: rest =>
    r' = r && (Table.find CmallOrder.id rows id).isSome || isFresh r id rest
  | _ :: rest => isFresh r id rest

/-- The row about to be written back, and why. -/
def Spot.stores : Spot → Option (OrderChange × CmallOrder)
  | .storeOrder c row => some (c, row)
  | _ => none

/-- A row is written back only while nobody else has written it since it was loaded. -/
def rowKept : Guard := fun r _ p _ s => ∀ x ∈ p.spot.stores, isFresh r x.2.id s.trace = true

/-- The order is a paid one. -/
def Db.payed (db : Db) (id : Nat) : Bool := (db.findOrder id).any fun o => o.payedAt.isSome

instance (r : Nat) (q : Request) (p : Point) (i : Input) (s : Mem) :
    Decidable (rowKept r q p i s) :=
  inferInstanceAs (Decidable (∀ x ∈ p.spot.stores, isFresh r x.2.id s.trace = true))

def updateProtocol (cfg : Config) : Protocol Request Mem Input Point :=
  orderProtocol cfg rowKept fun _ _ => True

instance (cfg : Config) (r : Nat) (q : Request) (p : Point) (i : Input) (s : Mem) :
    Decidable ((updateProtocol cfg).guard r q p i s) :=
  inferInstanceAs (Decidable (rowKept r q p i s))

instance (cfg : Config) (q : Request) (s : Mem) : Decidable ((updateProtocol cfg).permit q s) :=
  .isTrue trivial

/-! ## Fresh rows -/

theorem isFresh_append {r id : Nat} {es trace : List Event} (h : ∀ e ∈ es, e.tracked = false) :
    isFresh r id (es ++ trace) = isFresh r id trace := by
  induction es with
  | nil => rfl
  | cons e es ih =>
    have hrest := ih fun e' he' => h e' (List.mem_cons_of_mem _ he')
    have he := h e (List.mem_cons_self ..)
    cases e <;> first | exact hrest | simp [Event.tracked] at he

/-- A fresh row is the row that is in the table. -/
def RowsFresh (s : Mem) : Prop :=
  ∀ r id v, isFresh r id s.trace = true → lastLoaded r id s.trace = some v →
    s.db.findOrder id = some v

section Steps

variable {cfg : Config} {G : Guard} {r : Nat} {q : Request} {s t : Mem}

/-- A row after a step was there before, or has been written, or is new. -/
theorem findOrder_persist {db : Db} {order o : CmallOrder} {id : Nat}
    (h : (db.persistOrder order).findOrder id = some o) :
    db.findOrder id = some o ∨ o = { order with id := db.seq.order + 1 } := by
  have happ : ((db.orders ++ [{ order with id := db.seq.order + 1 }]).find?
      fun x => x.id = id) = some o := h
  rw [List.find?_append] at happ
  rcases Option.or_eq_some_iff.mp happ with h | ⟨-, h⟩
  · exact .inl h
  · exact .inr (List.mem_singleton.mp (List.mem_of_find?_eq_some h))

theorem findOrder_store {db : Db} {c : OrderChange} {old cur : CmallOrder} {now : PTime}
    (hcur : db.findOrder old.id = some cur) (id : Nat) :
    ({ db with orders := Table.update CmallOrder.id db.orders (c.apply now old) } : Db).findOrder id =
      if id = old.id then some (c.apply now old) else db.findOrder id := by
  have hid := c.apply_id now old
  split
  · rename_i heq
    have hsome : (Table.find CmallOrder.id db.orders (c.apply now old).id).isSome := by
      rw [hid]
      exact Option.isSome_iff_exists.mpr ⟨cur, hcur⟩
    have := Table.find_update_self hsome
    rwa [hid, ← heq] at this
  · rename_i hne
    exact Table.find_update_ne (by rw [hid]; exact hne)

theorem OrderStep.rowsFresh (h : OrderStep cfg G r q s t) (hi : OrderInv s) (hf : RowsFresh s) :
    RowsFresh t := by
  intro r' id v hfresh hlast
  cases h with
  | other horders hseq huuids htrace =>
    obtain ⟨es, hes, hown⟩ := htrace
    have huntracked : ∀ e ∈ es, e.tracked = false := fun e he => (hown e he).2.1
    rw [hes, isFresh_append huntracked] at hfresh
    rw [hes, lastLoaded_append fun e he _ => huntracked e he] at hlast
    simpa [Db.findOrder, horders] using hf r' id v hfresh hlast
  | load who rows hrows =>
    simp only [isFresh, Bool.or_eq_true, Bool.and_eq_true, decide_eq_true_eq] at hfresh
    by_cases hr : r = r'
    · subst hr
      simp only [lastLoaded, if_true] at hlast
      rcases Option.or_eq_some_iff.mp hlast with hrow | ⟨hnone, hlast⟩
      · have hid : v.id = id := Table.find_key hrow
        exact hid ▸ findOrder_of_mem hi.nodup (hrows v (Table.mem_of_find hrow))
      · rcases hfresh with hfresh | hfresh
        · simp [hnone] at hfresh
        · exact hf r id v hfresh hlast
    · simp only [lastLoaded, hr, if_false] at hlast
      rcases hfresh with hfresh | hfresh
      · exact absurd hfresh.1 hr
      · exact hf r' id v hfresh hlast
  | store ctx i c old cur hguard hload hcause hcur hident =>
    simp only [isFresh, Bool.and_eq_true, decide_eq_true_eq, c.apply_id] at hfresh
    have hold := hf r' id v hfresh.2 hlast
    show Db.findOrder { s.db with orders := _ } id = some v
    rw [findOrder_store hcur, if_neg (Ne.symm hfresh.1)]
    exact hold
  | persist order n hoid hn hfresh' hpayed =>
    exact Table.find_append_of_some (hf r' id v hfresh hlast)
  | prepay ctx i order hguard hload => exact hf r' id v hfresh hlast

/-- Under the guard the row that is written back was made from the row it replaces. -/
theorem old_eq_cur {ctx : Ctx} {i : Input} {c : OrderChange} {old cur : CmallOrder}
    (hf : RowsFresh s) (hguard : rowKept r q ⟨ctx, .storeOrder c (c.draft old)⟩ i s)
    (hload : lastLoaded r old.id s.trace = some old)
    (hcur : s.db.findOrder old.id = some cur) : old = cur := by
  have hid : (c.draft old).id = old.id := by cases c <;> rfl
  have hfresh : isFresh r old.id s.trace = true := hid ▸ hguard _ rfl
  exact Option.some.inj ((hf r old.id old hfresh hload).symm.trans hcur)

end Steps

theorem FreshStart.rowsFresh {m : Mem} (h : FreshStart m) : RowsFresh m := by
  intro r id v hfresh
  simp [h.trace, isFresh] at hfresh

/-! ## Rows as the changes make them -/

/-- `o` is what the changes (the last one first) make of `o₀`. -/
inductive Replays (o₀ : CmallOrder) : List OrderChange → CmallOrder → Prop where
  | nil : Replays o₀ [] o₀
  | cons {cs : List OrderChange} {o : CmallOrder} (c : OrderChange) (now : PTime)
      (h : Replays o₀ cs o) : Replays o₀ (c :: cs) (c.apply now o)

namespace OrderChange

def newPrice : OrderChange → Option CppNumeric
  | .alterPrice price _ => price
  | _ => none

def newKuaidifei : OrderChange → Option CppNumeric
  | .alterPrice _ kuaidifei => kuaidifei
  | _ => none

def newKuaidi : OrderChange → Option KuaidiInfo
  | .addKuaidi info => some info
  | _ => none

def isPayment : OrderChange → Bool
  | .markPayed _ | .wxPayed _ => true
  | _ => false

def isDelete : OrderChange → Bool
  | .delete _ => true
  | _ => false

end OrderChange

/-- The row shows the changes (the last one first): the last price and kuaidifei,
every kuaidi entry in its order, the payment and the deletion. -/
structure CmallOrder.Reflects (o : CmallOrder) (cs : List OrderChange) : Prop where
  price : ∀ p, (cs.filterMap OrderChange.newPrice).head? = some p → o.price = p
  kuaidifei : ∀ k, (cs.filterMap OrderChange.newKuaidifei).head? = some k → o.kuaidifei = k
  kuaidi : (cs.filterMap OrderChange.newKuaidi).reverse.Sublist o.kuaidi
  payed : ∀ c ∈ cs, c.isPayment = true → o.payedAt.isSome = true
  deleted : ∀ c ∈ cs, c.isDelete = true → o.deletedAt.isSome = true

/-- One more change. -/
theorem CmallOrder.Reflects.cons {o : CmallOrder} {cs : List OrderChange} (h : o.Reflects cs)
    (c : OrderChange) (now : PTime) : (c.apply now o).Reflects (c :: cs) := by
  cases c with
  | alterPrice p k =>
    refine ⟨fun x hx => ?_, fun x hx => ?_, h.kuaidi, fun c hc hpay => ?_, fun c hc hdel => ?_⟩
    · cases p with
      | none => exact h.price x hx
      | some p => exact Option.some.inj hx
    · cases k with
      | none => exact h.kuaidifei x hx
      | some k => exact Option.some.inj hx
    · rcases List.mem_cons.mp hc with rfl | hc
      · cases hpay
      · exact h.payed c hc hpay
    · rcases List.mem_cons.mp hc with rfl | hc
      · cases hdel
      · exact h.deleted c hc hdel
  | addKuaidi info =>
    refine ⟨h.price, h.kuaidifei, ?_, fun c hc hpay => ?_, fun c hc hdel => ?_⟩
    · have hcons : ((OrderChange.addKuaidi info :: cs).filterMap OrderChange.newKuaidi).reverse =
          (cs.filterMap OrderChange.newKuaidi).reverse ++ [info] := by
        simp [OrderChange.newKuaidi]
      rw [hcons]
      exact h.kuaidi.append (List.Sublist.refl _)
    · rcases List.mem_cons.mp hc with rfl | hc
      · cases hpay
      · exact h.payed c hc hpay
    · rcases List.mem_cons.mp hc with rfl | hc
      · cases hdel
      · exact h.deleted c hc hdel
  | markPayed t =>
    refine ⟨h.price, h.kuaidifei, h.kuaidi, fun _ _ _ => rfl, fun c hc hdel => ?_⟩
    rcases List.mem_cons.mp hc with rfl | hc
    · cases hdel
    · exact h.deleted c hc hdel
  | wxPayed t =>
    refine ⟨h.price, h.kuaidifei, h.kuaidi, fun _ _ _ => rfl, fun c hc hdel => ?_⟩
    rcases List.mem_cons.mp hc with rfl | hc
    · cases hdel
    · exact h.deleted c hc hdel
  | delete t => exact ⟨h.price, h.kuaidifei, h.kuaidi, fun _ _ _ => rfl, fun _ _ _ => rfl⟩

theorem Replays.reflects {o₀ o : CmallOrder} {cs : List OrderChange} (h : Replays o₀ cs o) :
    o.Reflects cs := by
  induction h with
  | nil => exact ⟨by simp, by simp, by simp, by simp, by simp⟩
  | cons c now _ ih => exact ih.cons c now

/-! ## Acknowledged changes -/

/-- The changes of the order that were written, with their requests, the last one
first. -/
def storesOf (id : Nat) : List Event → List (Nat × OrderChange)
  | [] => []
  | .orderStored r c row :: rest =>
    if row.id = id then (r, c) :: storesOf id rest else storesOf id rest
  | _ :: rest => storesOf id rest

/-- Those of them whose requests were answered with `true`. -/
def ackedChanges (id : Nat) (trace : List Event) : List OrderChange :=
  ((storesOf id trace).filter fun x => .replied x.1 (.bool true) ∈ trace).map Prod.snd

theorem mem_storesOf {id r : Nat} {c : OrderChange} {trace : List Event} :
    (r, c) ∈ storesOf id trace ↔ ∃ row, .orderStored r c row ∈ trace ∧ row.id = id := by
  induction trace with
  | nil => simp [storesOf]
  | cons e trace ih =>
    cases e with
    | orderStored r' c' row' =>
      unfold storesOf
      split
      · rename_i hid
        rw [List.mem_cons, ih]
        constructor
        · rintro (heq | ⟨row, he, hrow⟩)
          · cases heq
            exact ⟨row', List.mem_cons_self .., hid⟩
          · exact ⟨row, List.mem_cons_of_mem _ he, hrow⟩
        · rintro ⟨row, he, hrow⟩
          rcases List.mem_cons.mp he with heq | he
          · cases heq
            exact .inl rfl
          · exact .inr ⟨row, he, hrow⟩
      · rename_i hid
        rw [ih]
        constructor
        · rintro ⟨row, he, hrow⟩
          exact ⟨row, List.mem_cons_of_mem _ he, hrow⟩
        · rintro ⟨row, he, hrow⟩
          rcases List.mem_cons.mp he with heq | he
          · cases heq
            exact absurd hrow hid
          · exact ⟨row, he, hrow⟩
    | _ => simp [storesOf, ih]

theorem storesOf_append {id : Nat} {es trace : List Event} (h : ∀ e ∈ es, e.tracked = false) :
    storesOf id (es ++ trace) = storesOf id trace := by
  induction es with
  | nil => rfl
  | cons e es ih =>
    have hrest := ih fun e' he' => h e' (List.mem_cons_of_mem _ he')
    have he := h e (List.mem_cons_self ..)
    cases e <;> first | exact hrest | simp [Event.tracked] at he

/-- When every price change has been acknowledged, the row shows what has been. -/
theorem CmallOrder.Reflects.acked {o : CmallOrder} {id : Nat} {trace : List Event}
    (h : o.Reflects ((storesOf id trace).map Prod.snd))
    (hack : ∀ r p k, (r, .alterPrice p k) ∈ storesOf id trace →
      .replied r (.bool true) ∈ trace) : o.Reflects (ackedChanges id trace) := by
  have hsub : (ackedChanges id trace).Sublist ((storesOf id trace).map Prod.snd) :=
    List.filter_sublist.map _
  have hprice : ∀ {f : OrderChange → Option CppNumeric},
      (∀ c, (f c).isSome = true → ∃ p k, c = .alterPrice p k) →
      (ackedChanges id trace).filterMap f = ((storesOf id trace).map Prod.snd).filterMap f := by
    intro f hf
    simp only [ackedChanges, List.filterMap_map, List.filterMap_filter]
    refine List.filterMap_congr fun x hx => ?_
    cases hfx : f x.2 with
    | none => simp [hfx]
    | some y =>
      obtain ⟨p, k, hc⟩ := hf x.2 (by simp [hfx])
      have hr := hack x.1 p k (hc ▸ hx)
      simp [hr, hfx]
  refine ⟨fun p hp => h.price p ?_, fun k hk => h.kuaidifei k ?_, ?_, fun c hc => ?_, fun c hc => ?_⟩
  · rwa [hprice fun c hc => by cases c <;> simp_all [OrderChange.newPrice]] at hp
  · rwa [hprice fun c hc => by cases c <;> simp_all [OrderChange.newKuaidifei]] at hk
  · exact (hsub.filterMap _).reverse.trans h.kuaidi
  · exact h.payed c (hsub.subset hc)
  · exact h.deleted c (hsub.subset hc)

/-! ## The invariant -/

/-- What holds of the requests `qs` and the memory in a run without stale rows. -/
structure UpdateInv (cfg : Config) (qs : List Request) (s : Mem) : Prop where
  fresh : RowsFresh s
  /-- Every row is what its changes make of its first version. -/
  replay : ∀ id o, s.db.findOrder id = some o →
    ∃ o₀, Replays o₀ ((storesOf id s.trace).map Prod.snd) o
  stored : ∀ r c row, .orderStored r c row ∈ s.trace →
    ∃ o, s.db.findOrder row.id = some o ∧ o.ident = row.ident
  payed : ∀ r who v, LoadedBy r who v s.trace → v.payedAt.isSome = true →
    ∃ o, s.db.findOrder v.id = some o ∧ o.ident = v.ident ∧ o.payedAt.isSome = true
  own : ∀ e ∈ s.trace, e.req < qs.length
  cause : ∀ r p k row, .orderStored r (.alterPrice p k) row ∈ s.trace →
    ∃ q, qs[r]? = some q ∧ q.method = some .merchantAlterOrderPrice
  done : ∀ r q, qs[r]? = some q → .replied r (.bool true) ∈ s.trace → q.Done cfg r s.trace

theorem UpdateInv.spawn {cfg : Config} {qs : List Request} {s : Mem} (h : UpdateInv cfg qs s)
    (q : Request) : UpdateInv cfg (qs ++ [q]) s where
  fresh := h.fresh
  replay := h.replay
  stored := h.stored
  payed := h.payed
  own e he := Nat.lt_of_lt_of_le (h.own e he) (by simp)
  cause r p k row he := by
    obtain ⟨q', hq', hm⟩ := h.cause r p k row he
    have hr : r < qs.length := h.own _ he
    exact ⟨q', by rw [List.getElem?_append_left hr]; exact hq', hm⟩
  done r q' hq' he := by
    have hr : r < qs.length := h.own _ he
    rw [List.getElem?_append_left hr] at hq'
    exact h.done r q' hq' he

section Update

variable {cfg : Config} {r : Nat} {q : Request} {s t : Mem}

/-- A change leaves a paid row paid. -/
theorem OrderChange.apply_payed {c : OrderChange} {now : PTime} {o : CmallOrder}
    (h : o.payedAt.isSome = true) : (c.apply now o).payedAt.isSome = true := by
  cases c <;> first | exact h | rfl

/-- Rows stay, and paid rows stay paid. -/
theorem OrderStep.keeps_row (h : OrderStep cfg rowKept r q s t) (hf : RowsFresh s) {id : Nat}
    {o : CmallOrder} (ho : s.db.findOrder id = some o) :
    ∃ o', t.db.findOrder id = some o' ∧ o'.ident = o.ident ∧
      (o.payedAt.isSome = true → o'.payedAt.isSome = true) := by
  cases h with
  | other horders hseq huuids htrace =>
    exact ⟨o, by simpa [Db.findOrder, horders] using ho, rfl, fun h => h⟩
  | load who rows hrows => exact ⟨o, ho, rfl, fun h => h⟩
  | store ctx i c old cur hguard hload hcause hcur hident =>
    cases old_eq_cur hf hguard hload hcur
    show ∃ o', Db.findOrder { s.db with orders := _ } id = some o' ∧ _
    rw [findOrder_store hcur]
    split
    · rename_i hid
      subst hid
      cases hcur.symm.trans ho
      exact ⟨_, rfl, c.apply_ident _ _, OrderChange.apply_payed⟩
    · exact ⟨o, ho, rfl, fun h => h⟩
  | persist order n hoid hn hfresh hpayed =>
    exact ⟨o, Table.find_append_of_some ho, rfl, fun h => h⟩
  | prepay ctx i order hguard hload => exact ⟨o, ho, rfl, fun h => h⟩

theorem OrderStep.keeps_payed (h : OrderStep cfg rowKept r q s t) (hf : RowsFresh s) {id : Nat}
    (hp : s.db.payed id = true) : t.db.payed id = true := by
  unfold Db.payed at hp ⊢
  cases ho : s.db.findOrder id with
  | none => simp [ho] at hp
  | some o =>
    obtain ⟨o', ho', -, hpay⟩ := h.keeps_row hf ho
    rw [ho']
    exact hpay (by simpa [ho] using hp)

/-- The last change of a row is the one just written. -/
theorem OrderStep.replay {qs : List Request} (h : OrderStep cfg rowKept r q s t)
    (hi : OrderInv s) (hu : UpdateInv cfg qs s) {id : Nat} {o : CmallOrder}
    (ho : t.db.findOrder id = some o) :
    ∃ o₀, Replays o₀ ((storesOf id t.trace).map Prod.snd) o := by
  cases h with
  | other horders hseq huuids htrace =>
    obtain ⟨es, hes, hown⟩ := htrace
    rw [hes, storesOf_append fun e he => (hown e he).2.1]
    exact hu.replay id o (by simpa [Db.findOrder, horders] using ho)
  | load who rows hrows => exact hu.replay id o ho
  | store ctx i c old cur hguard hload hcause hcur hident =>
    cases old_eq_cur hu.fresh hguard hload hcur
    change Db.findOrder { s.db with orders := _ } id = some o at ho
    rw [findOrder_store hcur] at ho
    simp only [storesOf, c.apply_id]
    split at ho
    · rename_i hid
      subst hid
      obtain ⟨o₀, hr⟩ := hu.replay _ _ hcur
      cases ho
      rw [if_pos rfl]
      exact ⟨o₀, .cons c s.clock hr⟩
    · rename_i hid
      rw [if_neg (Ne.symm hid)]
      exact hu.replay id o ho
  | persist order n hoid hn hfresh hpayed =>
    rcases findOrder_persist ho with ho' | rfl
    · exact hu.replay id o ho'
    · -- nothing has been written under the new id
      have hid : id = s.db.seq.order + 1 := (Table.find_key ho).symm
      have hnone : storesOf id s.trace = [] := by
        refine List.eq_nil_iff_forall_not_mem.mpr fun x hx => ?_
        obtain ⟨row, he, hrow⟩ := mem_storesOf.mp hx
        obtain ⟨o', ho', -⟩ := hu.stored _ _ _ he
        have hle := hi.seq o' (Table.mem_of_find ho')
        have hkey : o'.id = row.id := Table.find_key ho'
        omega
      exact ⟨_, by rw [hnone]; exact .nil⟩
  | prepay ctx i order hguard hload => exact hu.replay id o ho

/-- The events of a step: what is new is an observation of its own. -/
theorem OrderStep.stored_cases {G : Guard} (h : OrderStep cfg G r q s t) {r' : Nat}
    {c : OrderChange} {row : CmallOrder} (he : .orderStored r' c row ∈ t.trace) :
    .orderStored r' c row ∈ s.trace ∨
      r' = r ∧ t.db.findOrder row.id = some row ∧ ∃ old, c.Cause r q old s.trace := by
  cases h with
  | other horders hseq huuids htrace =>
    obtain ⟨es, hes, hown⟩ := htrace
    rcases List.mem_append.mp (hes ▸ he) with he | he
    · have hf := (hown _ he).2.1
      simp [Event.tracked] at hf
    · exact .inl he
  | load who rows hrows => exact .inl (by simpa using he)
  | store ctx i c' old cur hguard hload hcause hcur hident =>
    rcases List.mem_cons.mp he with heq | he
    · cases heq
      refine .inr ⟨rfl, ?_, old, hcause⟩
      show Db.findOrder { s.db with orders := _ } _ = _
      rw [findOrder_store hcur, if_pos (c.apply_id _ _)]
    · exact .inl he
  | persist order n hoid hn hfresh hpayed => exact .inl he
  | prepay ctx i order hguard hload => exact .inl (by simpa using he)

theorem OrderStep.loaded_cases {G : Guard} (h : OrderStep cfg G r q s t) (hi : OrderInv s)
    {r' : Nat} {who : Actor} {v : CmallOrder} (hv : LoadedBy r' who v t.trace) :
    LoadedBy r' who v s.trace ∨ t.db.findOrder v.id = some v := by
  cases h with
  | other horders hseq huuids htrace =>
    obtain ⟨es, hes, hown⟩ := htrace
    exact .inl (loadedBy_append (fun e he => (hown e he).2.1) (hes ▸ hv))
  | load who rows hrows =>
    obtain ⟨rows', he, hv⟩ := hv
    rcases List.mem_cons.mp he with heq | he
    · cases heq
      exact .inr (findOrder_of_mem hi.nodup (hrows v hv))
    · exact .inl ⟨rows', he, hv⟩
  | store ctx i c old cur hguard hload hcause hcur hident =>
    obtain ⟨rows, he, hv⟩ := hv
    exact .inl ⟨rows, by simpa using he, hv⟩
  | persist order n hoid hn hfresh hpayed => exact .inl hv
  | prepay ctx i order hguard hload =>
    obtain ⟨rows, he, hv⟩ := hv
    exact .inl ⟨rows, by simpa using he, hv⟩

theorem OrderStep.replied_cases {G : Guard} (h : OrderStep cfg G r q s t) {r' : Nat}
    (he : .replied r' (.bool true) ∈ t.trace) :
    .replied r' (.bool true) ∈ s.trace ∨ r' = r ∧ q.Done cfg r s.trace := by
  cases h with
  | other horders hseq huuids htrace =>
    obtain ⟨es, hes, hown⟩ := htrace
    rcases List.mem_append.mp (hes ▸ he) with he | he
    · obtain ⟨hr, -, hdone⟩ := hown _ he
      have hr' : r' = r := hr
      subst hr'
      exact .inr ⟨rfl, hdone rfl⟩
    · exact .inl he
  | load who rows hrows => exact .inl (by simpa using he)
  | store ctx i c old cur hguard hload hcause hcur hident => exact .inl (by simpa using he)
  | persist order n hoid hn hfresh hpayed => exact .inl he
  | prepay ctx i order hguard hload => exact .inl (by simpa using he)

theorem UpdateInv.step {qs : List Request} (hu : UpdateInv cfg qs s) (hi : OrderInv s)
    (hq : qs[r]? = some q) (h : OrderStep cfg rowKept r q s t) : UpdateInv cfg qs t := by
  obtain ⟨es, hes, hreq⟩ := h.own
  have hsub : ∀ e ∈ s.trace, e ∈ t.trace := fun e he => hes ▸ List.mem_append_right _ he
  refine ⟨h.rowsFresh hi hu.fresh, fun id o ho => h.replay hi hu ho, fun r' c row he => ?_,
    fun r' who v hv hpayed => ?_, fun e he => ?_, fun r' p k row he => ?_, fun r' q' hq' he => ?_⟩
  · rcases h.stored_cases he with he | ⟨-, hrow, -⟩
    · obtain ⟨o, ho, hident⟩ := hu.stored r' c row he
      obtain ⟨o', ho', hident', -⟩ := h.keeps_row hu.fresh ho
      exact ⟨o', ho', hident'.trans hident⟩
    · exact ⟨row, hrow, rfl⟩
  · rcases h.loaded_cases hi hv with hv | hv
    · obtain ⟨o, ho, hident, hpay⟩ := hu.payed r' who v hv hpayed
      obtain ⟨o', ho', hident', hpay'⟩ := h.keeps_row hu.fresh ho
      exact ⟨o', ho', hident'.trans hident, hpay' hpay⟩
    · exact ⟨v, hv, rfl, hpayed⟩
  · rcases List.mem_append.mp (hes ▸ he) with he | he
    · rw [hreq e he]
      exact (List.getElem?_eq_some_iff.mp hq).1
    · exact hu.own e he
  · rcases h.stored_cases he with he | ⟨rfl, -, old, hcause⟩
    · exact hu.cause r' p k row he
    · exact ⟨q, hq, hcause.1⟩
  · rcases h.replied_cases he with he | ⟨rfl, hdone⟩
    · exact (hu.done r' q' hq' he).mono hsub
    · cases hq.symm.trans hq'
      exact hdone.mono hsub

end Update

/-! ## Runs -/

/-- The order shows that the request was successful; `cs` are the acknowledged
changes of the order. -/
def Request.Applied (cfg : Config) (o : CmallOrder) (cs : List OrderChange) : Request → Prop
  | .jsonrpc _ .merchantAlterOrderPrice params =>
    o.oid = Json.getString params "orderid" ∧
      .alterPrice (numericParam cfg params "new_price") (numericParam cfg params "new_kuaidifei") ∈ cs
  | .jsonrpc _ .merchantSoldOrdersAddKuaidi params =>
    o.oid = Json.getString params "orderid" ∧ .addKuaidi (kuaidiInfo params) ∈ cs ∧
      kuaidiInfo params ∈ o.kuaidi
  | .jsonrpc _ .merchantDeleteSoldOrders params =>
    o.oid = Json.getString params "orderid" ∧ o.deletedAt.isSome = true
  | .jsonrpc _ .merchantSoldOrdersMarkPayed params | .jsonrpc _ .orderCheckPayment params
  | .jsonrpc _ .merchantSoldOrdersCheckPayment params =>
    o.oid = Json.getString params "orderid" ∧ o.payedAt.isSome = true
  | .wxCallback msg => o.oid = msg.outTradeNo ∧ o.payedAt.isSome = true
  | _ => True

/-- The requests `Applied` speaks about. -/
def Request.changesOrder (q : Request) : Bool :=
  match q with
  | .wxCallback _ => true
  | .jsonrpc _ method _ => method ∈ [.merchantAlterOrderPrice, .merchantSoldOrdersAddKuaidi,
      .merchantDeleteSoldOrders, .merchantSoldOrdersMarkPayed, .orderCheckPayment,
      .merchantSoldOrdersCheckPayment]
  | _ => false

section Update

variable {cfg : Config} {r : Nat} {q : Request} {s : Mem} {qs : List Request}

/-- A change that was written is in the row now. -/
theorem UpdateInv.storedFor (hu : UpdateInv cfg qs s) {oid : String} {p : OrderChange → Prop}
    (h : StoredFor r oid p s.trace) :
    ∃ o c, s.db.findOrder o.id = some o ∧ o.oid = oid ∧ p c ∧
      (r, c) ∈ storesOf o.id s.trace ∧ o.Reflects ((storesOf o.id s.trace).map Prod.snd) := by
  obtain ⟨c, row, he, hoid, hc⟩ := h
  obtain ⟨o, ho, hident⟩ := hu.stored r c row he
  have hid : o.id = row.id := CmallOrder.id_of_ident hident
  obtain ⟨o₀, hreplay⟩ := hu.replay _ _ ho
  rw [← hid] at ho hreplay
  exact ⟨o, c, ho, (CmallOrder.oid_of_ident hident).trans hoid, hc,
    mem_storesOf.mpr ⟨row, he, hid.symm⟩, hreplay.reflects⟩

theorem UpdateInv.payedFor (hu : UpdateInv cfg qs s) {oid : String}
    (h : PayedFor r oid s.trace) :
    ∃ o, s.db.findOrder o.id = some o ∧ o.oid = oid ∧ o.payedAt.isSome = true := by
  rcases h with h | ⟨who, v, hv, hoid, hpayed⟩
  · obtain ⟨o, c, ho, hoid, ⟨t, rfl⟩, hmem, hrefl⟩ := hu.storedFor h
    exact ⟨o, ho, hoid, hrefl.payed _ (List.mem_map_of_mem hmem) rfl⟩
  · obtain ⟨o, ho, hident, hpay⟩ := hu.payed r who v hv hpayed
    have hid : o.id = v.id := CmallOrder.id_of_ident hident
    exact ⟨o, hid ▸ ho, (CmallOrder.oid_of_ident hident).trans hoid, hpay⟩

theorem mem_ackedChanges {id : Nat} {c : OrderChange} {trace : List Event}
    (h : (r, c) ∈ storesOf id trace) (hr : .replied r (.bool true) ∈ trace) :
    c ∈ ackedChanges id trace :=
  List.mem_map.mpr ⟨(r, c), List.mem_filter.mpr ⟨h, by simpa using hr⟩, rfl⟩

/-- A request that replied `true` is applied. -/
theorem UpdateInv.applied (hu : UpdateInv cfg qs s) (hq : qs[r]? = some q)
    (hchange : q.changesOrder = true) (hr : .replied r (.bool true) ∈ s.trace) :
    ∃ o ∈ s.db.orders, q.Applied cfg o (ackedChanges o.id s.trace) := by
  have hdone := hu.done r q hq hr
  unfold Request.Done at hdone
  split at hdone
  · obtain ⟨o, c, ho, hoid, rfl, hmem, -⟩ := hu.storedFor hdone
    exact ⟨o, Table.mem_of_find ho, hoid, mem_ackedChanges hmem hr⟩
  · obtain ⟨o, c, ho, hoid, rfl, hmem, hrefl⟩ := hu.storedFor hdone
    refine ⟨o, Table.mem_of_find ho, hoid, mem_ackedChanges hmem hr, hrefl.kuaidi.subset ?_⟩
    exact List.mem_reverse.mpr (List.mem_filterMap.mpr ⟨_, List.mem_map_of_mem hmem, rfl⟩)
  · obtain ⟨o, c, ho, hoid, ⟨t, rfl⟩, hmem, hrefl⟩ := hu.storedFor hdone
    exact ⟨o, Table.mem_of_find ho, hoid, hrefl.deleted _ (List.mem_map_of_mem hmem) rfl⟩
  · obtain ⟨o, ho, hoid, hpay⟩ := hu.payedFor hdone
    exact ⟨o, Table.mem_of_find ho, hoid, hpay⟩
  · obtain ⟨o, ho, hoid, hpay⟩ := hu.payedFor hdone
    exact ⟨o, Table.mem_of_find ho, hoid, hpay⟩
  · obtain ⟨o, ho, hoid, hpay⟩ := hu.payedFor hdone
    exact ⟨o, Table.mem_of_find ho, hoid, hpay⟩
  · obtain ⟨o, c, ho, hoid, rfl, hmem, hrefl⟩ := hu.storedFor hdone
    exact ⟨o, Table.mem_of_find ho, hoid, hrefl.payed _ (List.mem_map_of_mem hmem) rfl⟩
  · exfalso
    cases q with
    | jsonrpc conn method params => cases method <;> simp_all [Request.changesOrder]
    | wxCallback msg => simp_all
    | _ => cases hchange

end Update

/-- When every request has ended, every price that was written was acknowledged. -/
theorem quiet_price_acked {cfg : Config} {s : Service} (hgood : (updateProtocol cfg).Good s)
    (hu : UpdateInv cfg s.reqs s.mem) (hquiet : s.quiet = true) {id r : Nat}
    {p k : Option CppNumeric} (h : (r, .alterPrice p k) ∈ storesOf id s.mem.trace) :
    .replied r (.bool true) ∈ s.mem.trace := by
  obtain ⟨row, he, -⟩ := mem_storesOf.mp h
  obtain ⟨q, hq, hmethod⟩ := hu.cause r p k row he
  obtain ⟨proc, hproc, rfl⟩ : ∃ proc, s.procs[r]? = some proc ∧ proc.req = q := by
    simpa [Sys.reqs] using hq
  have hpost := hgood.post hquiet hproc
  exact (hpost hmethod).resolve_left fun hno => hno _ _ he

/-- In every run in which a row is written back only while nobody else has written
it since it was loaded: an order that is paid in one state is paid in every later
one; and when all requests have ended, every order shows the acknowledged changes,
the last price and kuaidifei among them, and every request that replied `true`
shows in an order. -/
theorem no_order_change_is_lost (cfg : Config) (m : Mem) (ls ms : List (Label Request Input))
    (hm : FreshStart m)
    (hls : (updateProtocol cfg).Admissible (prog cfg) (Sys.idle m) (ls ++ ms)) :
    let s := (Sys.idle m : Service).run (prog cfg) ls
    let t := (Sys.idle m : Service).run (prog cfg) (ls ++ ms)
    (∀ id, s.mem.db.payed id = true → t.mem.db.payed id = true) ∧
      (t.quiet = true →
        (∀ o ∈ t.mem.db.orders, o.Reflects (ackedChanges o.id t.mem.trace)) ∧
        ∀ r q, t.reqs[r]? = some q → q.changesOrder = true →
          .replied r (.bool true) ∈ t.mem.trace →
            ∃ o ∈ t.mem.db.orders, q.Applied cfg o (ackedChanges o.id t.mem.trace)) := by
  have hprog := programs_order cfg rowKept fun _ _ => True
  have hgood := hm.good cfg rowKept fun _ _ => True
  have hstart : UpdateInv cfg [] m := by
    refine ⟨hm.rowsFresh, fun id o _ => ⟨o, ?_⟩, ?_, ?_, ?_, ?_, ?_⟩
    · rw [hm.trace]
      exact .nil
    all_goals simp [hm.trace, LoadedBy]
  have hinv : ∀ {ls}, (updateProtocol cfg).Admissible (prog cfg) (Sys.idle m) ls →
      OrderInv ((Sys.idle m : Service).run (prog cfg) ls).mem ∧
        UpdateInv cfg ((Sys.idle m : Service).run (prog cfg) ls).reqs
          ((Sys.idle m : Service).run (prog cfg) ls).mem := fun hls =>
    order_run (J := UpdateInv cfg) hm hls (fun _ _ q _ h => h.spawn q)
      (fun _ _ _ _ _ hi hq hstep h => h.step hi hq hstep) hstart
  obtain ⟨hl, hr⟩ := admissible_append.mp hls
  intro s t
  refine ⟨fun id hpayed => ?_, fun hquiet => ⟨fun o ho => ?_, fun r q hq hchange hrep => ?_⟩⟩
  · have hst : t = s.run (prog cfg) ms := Sys.run_append (prog cfg) (Sys.idle m) ls ms
    have hlater := run_view (J := fun qs s => UpdateInv cfg qs s ∧ s.db.payed id = true) hprog
      (run_good hprog hgood hl) hr (fun _ _ q _ h => ⟨h.1.spawn q, h.2⟩) ?_
      ⟨(hinv hl).2, hpayed⟩
    · rw [hst]
      exact hlater.2
    · intro qs s t r q hi hq hsteps hJ
      refine (order_steps (J := fun s => UpdateInv cfg qs s ∧ s.db.payed id = true) hsteps hi
        (fun s t hi hstep h => ⟨h.1.step hi hq hstep, ?_⟩) hJ).2
      exact hstep.keeps_payed h.1.fresh h.2
  · obtain ⟨hi, hu⟩ := hinv hls
    obtain ⟨o₀, hreplay⟩ := hu.replay o.id o (findOrder_of_mem hi.nodup ho)
    exact hreplay.reflects.acked fun r p k h =>
      quiet_price_acked (run_good hprog hgood hls) hu hquiet h
  · exact (hinv hls).2.applied hq hchange hrep

/-- The session of every connection is that of merchant 1, who has sold one order. -/
def oneSoldOrder : Mem where
  db :=
    { orders := [{ id := 1, oid := "A", buyer := 2, seller := 1, price := 10 }]
      seq := { order := 1 } }
  heap _ :=
    { sessionId := "s", userInfo := some { uid := 1 }, merchantInfo := some { uid := 1 }
      isMerchant := true }
  heapTop := 1
  conn _ := { sessionInfo := some 0 }

theorem oneSoldOrder_freshStart : FreshStart oneSoldOrder := by
  refine ⟨rfl, by decide, by decide, fun o ho r n h => ?_⟩
  have hoid : o.oid = "A" := by simp_all [oneSoldOrder]
  rw [hoid] at h
  simpa [uuidOf] using congrArg String.toList h

/-- A request of the merchant for the order. -/
def sold (method : ReqMethod) (params : List (String × String)) : Label Request Input :=
  .spawn (.jsonrpc 0 method (stringParams (("orderid", "A") :: params)))

/-- Request 0 adds a kuaidi entry, then request 1 marks the order paid. -/
theorem no_order_change_is_lost_in_sequence :
    let s := (Sys.idle oneSoldOrder : Service).run (prog bareConfig)
      (sold .merchantSoldOrdersAddKuaidi [("kuaidihao", "7")] :: resumes 0 5)
    let t := (Sys.idle oneSoldOrder : Service).run (prog bareConfig)
      (sold .merchantSoldOrdersAddKuaidi [("kuaidihao", "7")] :: resumes 0 5 ++
        sold .merchantSoldOrdersMarkPayed [] :: resumes 1 5)
    (∀ id, s.mem.db.payed id = true → t.mem.db.payed id = true) ∧
      (t.quiet = true →
        (∀ o ∈ t.mem.db.orders, o.Reflects (ackedChanges o.id t.mem.trace)) ∧
        ∀ r q, t.reqs[r]? = some q → q.changesOrder = true →
          .replied r (.bool true) ∈ t.mem.trace →
            ∃ o ∈ t.mem.db.orders, q.Applied bareConfig o (ackedChanges o.id t.mem.trace)) :=
  no_order_change_is_lost bareConfig oneSoldOrder _ _ oneSoldOrder_freshStart (by decide)

/-- Request 0 has loaded the order to add a kuaidi entry when request 1 marks it paid. -/
def staleKuaidi : List (Label Request Input) :=
  [sold .merchantSoldOrdersAddKuaidi [("kuaidihao", "7")], sold .merchantSoldOrdersMarkPayed []] ++
    resumes 0 3 ++ resumes 1 5

/-- Request 0 writes its row back: both requests have replied `true`, and the payment
is lost. -/
theorem stale_row_loses_payment :
    let s := (Sys.idle oneSoldOrder : Service).run (prog bareConfig) staleKuaidi
    let t := (Sys.idle oneSoldOrder : Service).run (prog bareConfig) (staleKuaidi ++ resumes 0 2)
    s.mem.db.payed 1 = true ∧ t.mem.db.payed 1 = false ∧ t.quiet = true ∧
      .replied 0 (.bool true) ∈ t.mem.trace ∧ .replied 1 (.bool true) ∈ t.mem.trace := by
  decide

end Cmall
