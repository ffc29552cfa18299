import Cmall.Footprint.Answers
import Cmall.Footprint.Errors
import Cmall.Safety.OrderGoods

/-!
No request takes the server down, unless an administrator gives a `list` that is no
array or an order without goods is paid.

`get_array` is `noexcept` and lets the exception of `as_array` out; the functions that pay
an order take `bought_goods[0]` without looking.
-/

namespace Cmall
open Coroutine Protocol

/-! ## The steps on which the parameters do harm -/

/-- `get_array("list")` returns. -/
def Request.listReads : Request → Bool
  | .jsonrpc _ _ params => (Json.getArray params "list").isOk
  | _ => true

/-- The step does not read a `list` that is no array, nor load an order without goods that
is to be paid. -/
def harmlessStep (q : Request) (p : Point) (i : Input) (s : Mem) : Bool :=
  match p.spot with
  | .start (some .adminSetIndexGoods) => !s.isAdmin p.ctx.conn || q.listReads
  | .loadToPay uid orderid =>
    !i.dbOk || (Table.queryOne s.db.orders fun o => o.oid = orderid ∧ o.buyer = uid).all
      fun o => o.boughtGoods ≠ []
  | _ => true

/-- Every coroutine does what it likes, in steps that do no harm. -/
def parameterProtocol : Protocol Request Mem Input Point where
  inv _ := True
  rely _ _ _ _ := True
  guar _ _ _ _ := True
  guard _ q p i s := harmlessStep q p i s = true
  permit _ _ := True
  rely_refl _ _ _ := trivial
  rely_trans _ _ _ _ _ _ _ := trivial
  guar_refl _ _ _ := trivial
  guar_trans _ _ _ _ _ _ _ := trivial
  guar_inv _ _ _ _ _ _ := trivial
  guar_rely _ _ _ _ _ _ _ _ _ := trivial

instance (r : Nat) (q : Request) (p : Point) (i : Input) (s : Mem) :
    Decidable (parameterProtocol.guard r q p i s) :=
  inferInstanceAs (Decidable (harmlessStep q p i s = true))

instance (q : Request) (s : Mem) : Decidable (parameterProtocol.permit q s) := .isTrue trivial

section Handlers

variable {r : Nat} {q : Request} {ctx : Ctx} {cfg : Config} {α β : Type} {L : Mem → Prop}

theorem triple_any (x : M α) :
    parameterProtocol.Triple r q (fun _ => True) x (fun _ _ => True) fun _ => True :=
  .each (Co.each_any x) stable_true fun _ _ _ _ _ => ⟨trivial, trivial⟩

theorem raises_of_harmless {x : M α} (hx : x.Throws Exn.Harmless) :
    parameterProtocol.Raises r q L x Exn.Harmless :=
  .conseq (.of_throws hx (triple_any x)) fun _ _ _ => trivial

/-- An operation that can fail harmlessly only, before one that is to be looked at. -/
theorem raises_after {x : M α} {k : α → M β} (hx : x.Throws Exn.Harmless)
    (hk : ∀ b, parameterProtocol.Raises r q (fun _ => True) (k b) Exn.Harmless) :
    parameterProtocol.Raises r q L (x >>= k) Exn.Harmless :=
  .conseq (.bind (triple_any x) (raises_of_harmless hx) hk) fun _ _ _ => trivial

/-! ## Paying an order -/

/-- The order that was loaded has goods. -/
theorem loadOrderToPay_some (a : Nat) (params : JsonObject) :
    parameterProtocol.Triple r q (fun _ => True) (loadOrderToPay ctx a params)
      (fun o _ => o.boughtGoods ≠ []) fun _ => True := by
  refine .bind (triple_any _) fun u => ?_
  have hload : parameterProtocol.Triple r q (fun _ => True)
      (asyncLoadOrder ctx (.buyer u.uid)
        (fun o => o.oid = Json.getString params "orderid" ∧ o.buyer = u.uid)
        (.loadToPay u.uid (Json.getString params "orderid")))
      (fun found _ => ∀ o, found = some o → o.boughtGoods ≠ []) fun _ => True := by
    have hfail : ∀ {L' : Mem → Prop}, parameterProtocol.Triple r q L'
        (do let _ ← Co.suspend ⟨ctx, .back⟩; Co.throw (.system .internalServerError) :
          M (Option CmallOrder))
        (fun found _ => ∀ o, found = some o → o.boughtGoods ≠ []) fun _ => True :=
      .bind (.conseq (triple_any _) (fun _ _ _ => trivial) (fun _ _ _ h => h) fun _ _ h => h)
        fun _ => .throw fun _ _ _ => trivial
    unfold asyncLoadOrder tx
    refine .bind (.suspend (Q := fun i s => harmlessStep q ⟨ctx, .loadToPay u.uid _⟩ i s = true)
      stable_true fun i s _ _ hg => hg) fun i => ?_
    split
    · rename_i hok
      refine .bind (Q := fun x _ => ∀ found, x = some found →
        ∀ o, found = some o → o.boughtGoods ≠ []) (.modifyGet fun s _ hg => ⟨trivial, ?_⟩) fun x => ?_
      · rintro found ⟨⟩ o ho
        simp only [harmlessStep, hok, Bool.not_true, Bool.false_or] at hg
        rw [ho] at hg
        simpa using hg
      · split
        · rename_i found
          refine .bind (Q := fun _ _ => ∀ o, found = some o → o.boughtGoods ≠ [])
            (.suspend (fun _ _ _ _ h => h) fun _ _ _ h _ => h found rfl) fun _ => ?_
          exact .ret fun _ _ h => h
        · exact hfail
    · exact hfail
  refine .bind hload fun found => ?_
  split
  · exact .ret fun s _ h => h _ rfl
  · exact .throw fun _ _ _ => trivial

theorem orderMerchant_harmless {o : CmallOrder} (ho : o.boughtGoods ≠ []) :
    (orderMerchant o).Throws Exn.Harmless := by
  unfold orderMerchant firstGoods
  split
  · refine Co.throws_bind (throws_ret _) fun first => ?_
    split <;> simp
  · rename_i hnil
    exact absurd hnil ho

theorem payment_harmless {a : Nat} {params : JsonObject} {k : CmallOrder → Nat → M β}
    (hk : ∀ o merchantId, (k o merchantId).Throws Exn.Harmless) :
    parameterProtocol.Raises r q L
      (loadOrderToPay ctx a params >>= fun o => orderMerchant o >>= k o) Exn.Harmless := by
  refine .conseq (.bind (loadOrderToPay_some a params)
    (raises_of_harmless (loadOrderToPay_throws a params)) fun o => ?_) fun _ _ _ => trivial
  intro s₀ s hi hg ho
  exact raises_of_harmless (L := fun _ => True)
    (Co.throws_bind (orderMerchant_harmless ho) fun merchantId => hk o merchantId) s₀ s hi hg trivial

theorem handleJsonrpcOrderApi_harmless {method : ReqMethod} {params : JsonObject}
    (hapi : method.api = .order) :
    parameterProtocol.Raises r q L (handleJsonrpcOrderApi cfg ctx method params) Exn.Harmless := by
  simp only [handleJsonrpcOrderApi]
  refine raises_after thisSession_harmless fun a => ?_
  by_cases hp : method.pays = true
  · cases method <;> first | (cases hp; done) | skip
    all_goals
      refine payment_harmless fun o merchantId => ?_
      repeat' first
        | with_reducible refine Co.throws_bind ?_ fun _ => ?_
        | simp; done
        | split
  · cases method <;> first | (cases hapi; done) | exact absurd rfl hp | skip
    all_goals
      refine raises_of_harmless ?_
      simp only [orderCreate, buyerCheckPayment]
      repeat' first
        | with_reducible refine Co.throws_bind ?_ fun _ => ?_
        | simp; done
        | split

/-! ## The index page -/

theorem getArray_harmless {conn : Nat} {method : ReqMethod} {params : JsonObject}
    (h : (Request.jsonrpc conn method params).listReads = true) :
    (liftExcept (Json.getArray params "list")).Throws Exn.Harmless := by
  cases hlist : Json.getArray params "list" with
  | ok list => trivial
  | error e =>
    simp only [Request.listReads, hlist] at h
    cases h

/-- Nobody but an administrator gets past the check. -/
theorem ensureAdmin_false {conn : Nat} :
    parameterProtocol.Triple r q (fun s => s.isAdmin conn = false) (ensureLogin ⟨conn, r⟩ true)
      (fun _ _ => False) fun _ => True := by
  refine .bind (triple_thisSession fun _ _ _ => trivial) fun a => .bind (triple_getSession a) fun c => ?_
  split
  · exact .throw fun _ _ _ => trivial
  · split
    · exact .throw fun _ _ _ => trivial
    · rename_i huser hadmin
      split
      · exact .throw fun _ _ _ => trivial
      · refine .ret fun s _ h => ?_
        obtain ⟨rfl, hconn, hs⟩ := h
        have hu : (s.heap a).userInfo.isSome = true := by simpa [Option.isSome_iff_ne_none] using huser
        have ha : (s.heap a).isAdmin = true := by simpa using hadmin
        simp [Mem.isAdmin, hconn, hu, ha] at hs

/-! ## Every method -/

/-- What the guard says of the first step. -/
def listHarmless (conn : Nat) (method : ReqMethod) (params : JsonObject) (s : Mem) : Prop :=
  method = .adminSetIndexGoods →
    s.isAdmin conn = false ∨ (Request.jsonrpc conn method params).listReads = true

theorem handleJsonrpcAdminApi_harmless {conn : Nat} {method : ReqMethod} {params : JsonObject}
    (hapi : method.api = .admin) :
    parameterProtocol.Raises r q (listHarmless conn method params)
      (ensureLogin ⟨conn, r⟩ true >>= fun _ => handleJsonrpcAdminApi ⟨conn, r⟩ method params)
      Exn.Harmless := by
  by_cases hlist : method = .adminSetIndexGoods →
      (Request.jsonrpc conn method params).listReads = true
  · refine raises_after (ensureLogin_harmless _ _) fun _ => raises_of_harmless ?_
    exact handleJsonrpcAdminApi_throws (.inl hapi) fun hm => getArray_harmless (hlist hm)
  · rw [Classical.not_imp] at hlist
    have hno : parameterProtocol.Raises r q (fun s => s.isAdmin conn = false)
        (ensureLogin ⟨conn, r⟩ true >>= fun _ => handleJsonrpcAdminApi ⟨conn, r⟩ method params)
        Exn.Harmless :=
      .bind ensureAdmin_false (raises_of_harmless (ensureLogin_harmless _ _))
        fun _ _ _ _ _ hfalse => hfalse.elim
    exact .conseq hno fun s _ hs => (hs hlist.1).resolve_right hlist.2

theorem handleJsonrpcCall_harmless {conn : Nat} {method : ReqMethod} {params : JsonObject} :
    parameterProtocol.Raises r q (listHarmless conn method params)
      (handleJsonrpcCall cfg ⟨conn, r⟩ method params) Exn.Harmless := by
  simp only [handleJsonrpcCall]
  refine .bind (Q := fun _ => listHarmless conn method params) (E := fun _ => True)
    (.get fun _ _ h => h) (raises_of_harmless throws_get) fun s => ?_
  split
  · exact raises_of_harmless (harmless_system _)
  cases hapi : method.api with
  | recover => exact raises_of_harmless (recoverSession_throws params)
  | ping => exact raises_of_harmless (throws_pure _)
  | user login =>
    cases login with
    | true =>
      refine raises_after (ensureLogin_harmless _ _) fun _ => ?_
      exact raises_of_harmless (handleJsonrpcUserApi_throws hapi)
    | false => exact raises_of_harmless (handleJsonrpcUserApi_throws hapi)
  | cart =>
    refine raises_after (ensureLogin_harmless _ _) fun _ => ?_
    exact raises_of_harmless (handleJsonrpcCartApi_throws hapi)
  | fav =>
    refine raises_after (ensureLogin_harmless _ _) fun _ => ?_
    exact raises_of_harmless (handleJsonrpcFavApi_throws hapi)
  | order =>
    exact raises_after (ensureLogin_harmless _ _) fun _ => handleJsonrpcOrderApi_harmless hapi
  | goods => exact raises_of_harmless (handleJsonrpcGoodsApi_throws hapi)
  | merchant =>
    refine raises_after (ensureLogin_harmless _ _) fun _ => ?_
    exact raises_of_harmless (handleJsonrpcMerchantApi_throws hapi)
  | admin => exact handleJsonrpcAdminApi_harmless hapi
  | sudoCancel =>
    refine raises_after thisSession_harmless fun a => raises_after (getSession_throws a) fun c => ?_
    split
    · refine raises_of_harmless (handleJsonrpcAdminApi_throws (.inr hapi) fun hm => ?_)
      rw [hm] at hapi
      cases hapi
    · exact raises_of_harmless (harmless_system _)
  | misc => exact raises_of_harmless (handleJsonrpcMiscApi_throws hapi)
  | none => exact raises_of_harmless (harmless_system _)

theorem prog_harmless (m : Mem) :
    (prog cfg r q).Fails parameterProtocol Exn.Harmless r q m := by
  have hfree : (∀ ctx : Ctx, (serve cfg ctx q).Throws Exn.Harmless) →
      (prog cfg r q).Fails parameterProtocol Exn.Harmless r q m := by
    intro h
    exact Raises.fails (L := fun _ => True) stable_true trivial (fun _ _ _ _ _ => trivial)
      fun _ => raises_of_harmless (L := fun _ => True) (h _)
  cases q with
  | jsonrpc conn method params =>
    have hstart : ∀ i s, parameterProtocol.guard r (.jsonrpc conn method params)
        ⟨⟨conn, r⟩, .start (some method)⟩ i s → listHarmless conn method params s := by
      rintro i s hg rfl
      have hstep : (!s.isAdmin conn || (Request.jsonrpc conn .adminSetIndexGoods params).listReads)
          = true := hg
      simpa using hstep
    refine Raises.fails (L := fun _ => True) stable_true trivial
      (fun i s _ _ hg => hstart i s hg) fun _ => ?_
    exact .bind (Q := fun _ _ => True) (.conseq (triple_any _) (fun _ _ _ => trivial)
      (fun _ _ _ h => h) fun _ _ h => h) handleJsonrpcCall_harmless
      fun reply => raises_of_harmless (emit_throws _)
  | connect conn ip cookies alloca =>
    refine hfree fun ctx => ?_
    simp only [serve, clientConnected]
    repeat' first
      | with_reducible refine Co.throws_bind ?_ fun _ => ?_
      | simp; done
      | split
  | wxCallback msg =>
    exact hfree fun ctx =>
      Co.throws_bind (handleOrderWxCallback_throws msg) fun reply => emit_throws _
  | checkAdmin =>
    refine hfree fun ctx => ?_
    simp only [serve, checkAdmin]
    repeat' first
      | with_reducible refine Co.throws_bind ?_ fun _ => ?_
      | simp; done
      | split
  | _ => exact hfree fun ctx => throws_modify _

end Handlers

/-- In every run whose steps do no harm, no request fails but with an exception that is turned
into an error reply, or because a part of the session is not there. -/
theorem requests_end_in_replies (cfg : Config) (m : Mem) (ls : List (Label Request Input))
    (hls : parameterProtocol.Admissible (prog cfg) (Sys.idle m) ls) :
    ∀ p ∈ ((Sys.idle m : Service).run (prog cfg) ls).procs, ∀ e, p.code.error? = some e →
      e.caught = true ∨ e.ofSession = true := by
  have hprog : parameterProtocol.Programs (prog cfg) := by
    intro r q m _ _ _
    exact prog_suspended_of_keeps (fun _ _ _ _ => trivial) fun _ => trivial
  have hfails := run_fails (F := fun _ _ => Exn.Harmless) hprog
    (fun r q m _ _ _ => prog_harmless m)
    (good_idle (P := parameterProtocol) (ε := Exn) (α := Unit) (m := m) trivial fun _ => trivial)
    (fun r p hp => by simp [Sys.idle] at hp) hls
  intro p hp e he
  obtain ⟨r, hr⟩ := List.getElem?_of_mem hp
  exact (hfails r p hr).error he

/-! ## An administrator of the shop -/

/-- The session of the shop belongs to an administrator. -/
def adminShop : Mem :=
  { teaShop with
    heap := fun _ => { sessionId := uuidOf 0 0, userInfo := some { uid := 1 }, isAdmin := true } }

/-- An order of tea is created and paid for, and the index page is set. -/
def teaSteps : List (Label Request Input) :=
  [.spawn (.jsonrpc 0 .orderCreateDirect teaOrder)] ++ resumes 0 8 ++
    [.spawn (.jsonrpc 0 .orderGetPaymethods [("orderid", .string (uuidOf 0 0))])] ++ resumes 1 4 ++
    [.spawn (.jsonrpc 0 .adminSetIndexGoods [("list", .array [.int64 1])])] ++ resumes 2 1

theorem requests_end_in_replies_tea :
    parameterProtocol.Admissible (prog teaConfig) (Sys.idle adminShop) teaSteps ∧
      ∀ p ∈ ((Sys.idle adminShop : Service).run (prog teaConfig) teaSteps).procs,
        ∀ e, p.code.error? = some e → e.caught = true ∨ e.ofSession = true := by
  have hsteps : parameterProtocol.Admissible (prog teaConfig) (Sys.idle adminShop) teaSteps := by
    decide +kernel
  exact ⟨hsteps, requests_end_in_replies teaConfig adminShop teaSteps hsteps⟩

/-- A `list` that is a number takes the server down. -/
theorem list_terminates :
    let s := (Sys.idle adminShop : Service).run (prog teaConfig)
      ([.spawn (.jsonrpc 0 .adminSetIndexGoods [("list", .int64 1)])] ++ resumes 0 1)
    (s.procs[0]?).bind (fun p => p.code.error?) = some .terminate ∧
      Exn.terminate.caught = false ∧ Exn.terminate.ofSession = false := by
  decide

end Cmall
