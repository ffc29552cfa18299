import Cmall.Footprint.Triples

/-!
What a request can do to the session objects.

Every access of every program leaves the objects as they are, makes one of a dozen
kinds of writes to one of them, or adds a new one. A property of sessions that all
of these keep holds in every state of every run.
-/

namespace Cmall
open Coroutine

/-- What is written into a session object `c`. -/
inductive SessionWrite (c : ClientSession) : ClientSession → Prop where
  /-- A login, or the row of the user is loaded again. -/
  | user (u : CmallUser) : SessionWrite c { c with userInfo := some u }
  /-- `load_user_info` finds no row. -/
  | dropUser : SessionWrite c { c with userInfo := none }
  /-- A login or a recovery switches the merchant role on. -/
  | merchant (m : CmallMerchant) :
    SessionWrite c { c with merchantInfo := some m, isMerchant := true }
  /-- `merchant_info` loads the row again. -/
  | merchantInfo (m : CmallMerchant) : SessionWrite c { c with merchantInfo := some m }
  | editMerchant (f : CmallMerchant → CmallMerchant) :
    SessionWrite c { c with merchantInfo := c.merchantInfo.map f }
  /-- A login or a recovery switches the administrator role on. -/
  | admin (d : Administrators) : SessionWrite c { c with adminInfo := some d, isAdmin := true }
  /-- `load_user_info` in sudo mode. -/
  | original (o : Administrators) : SessionWrite c { c with originalUser := some o }
  | telephone (tel : String) : SessionWrite c { c with verifyTelephone := tel }
  | cookie (cookie : Option String) : SessionWrite c { c with verifySessionCookie := cookie }
  | logout : SessionWrite c c.clear
  | sudoTo (u : CmallUser) (m : Option CmallMerchant) : SessionWrite c (c.sudoTo u m)
  | sudoCancel (u : CmallUser) (m : Option CmallMerchant) : SessionWrite c (c.sudoCancel u m)

/-- A session object when it is made. -/
inductive NewSession : ClientSession → Prop where
  | fresh (sessionId : String) : NewSession { sessionId := sessionId }
  | apiToken (sessionId : String) (u : CmallUser) :
    NewSession { sessionId := sessionId, userInfo := some u }
  | stored (row : CmallSession) (sessionId : String) : NewSession (row.toSession sessionId)

/-- What an access does to the session objects. -/
inductive HeapStep (s t : Mem) : Prop where
  | same (heap : t.heap = s.heap) (heapTop : t.heapTop = s.heapTop)
  | write (a : Nat) (c : ClientSession) (h : SessionWrite (s.heap a) c)
    (heap : t.heap = fun b => if b = a then c else s.heap b) (heapTop : t.heapTop = s.heapTop)
  | new (c : ClientSession) (h : NewSession c)
    (heap : t.heap = fun b => if b = s.heapTop then c else s.heap b)
    (heapTop : t.heapTop = s.heapTop + 1)

section Accesses

variable {K : List Part} {r : Nat} {α : Type} {ctx : Ctx} {cfg : Config}

theorem heapStep_of_keeps {s t : Mem} (h : Keeps K r s t) (hK : .heap ∉ K) : HeapStep s t :=
  .same (h.heap hK).1 (h.heap hK).2

/-- The parts that are no session objects. -/
def offHeaps : List Part :=
  [.conn, .codes, .uuids, .accounts, .users, .administrators, .apptokens, .merchants, .orders,
    .carts, .favs, .applys, .kvs, .sessions, .indexGoods, .loginEvents, .accountEvents, .sudoEvents,
    .orderEvents, .otherEvents]

theorem heapStep_of_each {x : M α} (hx : x.Each (Keeps offHeaps r)) : x.Each HeapStep :=
  hx.mono fun _ _ h => heapStep_of_keeps h (by simp [offHeaps])

theorem modifySession_heap {a : Nat} {f : ClientSession → ClientSession}
    (h : ∀ c, SessionWrite c (f c)) : (modifySession a f).Each HeapStep :=
  Co.each_modify fun _ => .write a _ (h _) rfl rfl

theorem newSession_heap {c : ClientSession} (h : NewSession c) :
    (newSession ctx c).Each HeapStep :=
  Co.each_modify fun _ => .new c h rfl rfl

theorem heapStep_overwriteUser (s : Mem) (a : Nat) (row : CmallUser) :
    HeapStep s (s.overwriteUser a row) := by
  unfold Mem.overwriteUser
  split
  · exact .write a _ (.user row) rfl rfl
  · exact .same rfl rfl

theorem reloadUser_heap (a uid : Nat) (after : Bool → Spot) :
    (reloadUser ctx a uid after).Each HeapStep := by
  refine tx_each fun i s => ?_
  cases s.db.findUser uid with
  | none => exact .same rfl rfl
  | some row => exact heapStep_overwriteUser s a row

theorem updateUser_heap (a uid : Nat) (f : CmallUser → CmallUser) :
    (updateUser ctx a uid f).Each HeapStep := by
  refine tx_each fun i s => ?_
  cases s.db.findUser uid with
  | none => exact .same rfl rfl
  | some old =>
    cases heapStep_overwriteUser s a (f old) with
    | same heap heapTop => exact .same heap heapTop
    | write b c h heap heapTop => exact .write b c h heap heapTop
    | new c h heap heapTop => exact .new c h heap heapTop

/-! ## Handlers -/

theorem handleUserLogin_heap (a : Nat) (tel : String) :
    (handleUserLogin ctx a tel).Each HeapStep := by
  simp only [handleUserLogin, loginMerchant, loginAdmin, loginNewUser]
  repeat' first
    | with_reducible refine Co.each_bind ?_ fun _ => ?_
    | (with_reducible refine modifySession_heap ?_
       first
         | exact fun _ => .user _
         | exact fun _ => .merchant _
         | exact fun _ => .admin _
         | exact fun _ => .cookie _)
    | split
    | (refine heapStep_of_each (r := ctx.req) ?_; simp [offHeaps]; done)
    | exact Co.each_modify fun _ => .same rfl rfl

theorem loadUserInfo_heap : (loadUserInfo ctx).Each HeapStep := by
  simp only [loadUserInfo, recoverMerchant, recoverAdmin, recoverSudo]
  repeat' first
    | with_reducible refine Co.each_bind ?_ fun _ => ?_
    | with_reducible exact reloadUser_heap _ _ _
    | (with_reducible refine modifySession_heap ?_
       first
         | exact fun _ => .dropUser
         | exact fun _ => .merchant _
         | exact fun _ => .admin _
         | exact fun _ => .original _)
    | split
    | (refine heapStep_of_each (r := ctx.req) ?_; simp [offHeaps]; done)

theorem allocaSessionid_heap : (allocaSessionid ctx).Each HeapStep := by
  simp only [allocaSessionid, freshSession, Co.bind_assoc, Co.pure_eq, Co.ret_bind]
  refine Co.each_bind (heapStep_of_each (r := ctx.req) (genUuid_each (by simp [offHeaps]))) ?_
  intro sessionId
  refine Co.each_bind (newSession_heap (.fresh sessionId)) fun _ => ?_
  exact heapStep_of_each (r := ctx.req) (saveSession_each (by simp [offHeaps]))

theorem restoreSession_heap (sessionid : String) :
    (restoreSession ctx sessionid).Each HeapStep := by
  simp only [restoreSession, loadSession, Co.bind_assoc]
  refine Co.each_bind (heapStep_of_each (r := ctx.req) (asyncLoad_each _ _)) fun found => ?_
  cases found with
  | none => trivial
  | some row => exact newSession_heap (.stored row sessionid)

theorem recoverSession_heap (params : JsonObject) : (recoverSession ctx params).Each HeapStep := by
  simp only [recoverSession, recoverBySessionid, recoverByApiToken, recoverMerchant, recoverAdmin,
    freshSession, Co.bind_assoc, Co.pure_eq, Co.ret_bind]
  repeat' first
    | with_reducible refine Co.each_bind ?_ fun _ => ?_
    | with_reducible exact allocaSessionid_heap
    | with_reducible exact restoreSession_heap _
    | with_reducible exact loadUserInfo_heap
    | (with_reducible refine modifySession_heap ?_
       first
         | exact fun _ => .merchant _
         | exact fun _ => .admin _)
    | split
    | exact newSession_heap (.apiToken _ _)
    | (refine heapStep_of_each (r := ctx.req) ?_; simp [offHeaps]; done)
    | exact Co.each_modify fun _ => .same rfl rfl

theorem recoverByCookie_heap (cookies : List String) :
    (recoverByCookie ctx cookies).Each HeapStep := by
  induction cookies with
  | nil => trivial
  | cons sessionid rest ih =>
    simp only [recoverByCookie]
    repeat' first
      | with_reducible refine Co.each_bind ?_ fun _ => ?_
      | with_reducible exact restoreSession_heap _
      | with_reducible exact loadUserInfo_heap
      | split
      | exact ih
      | (refine heapStep_of_each (r := ctx.req) ?_; simp [offHeaps]; done)

theorem clientConnected_heap (ip : String) (cookies : List String) (alloca : Bool) :
    (clientConnected ctx ip cookies alloca).Each HeapStep := by
  simp only [clientConnected]
  repeat' first
    | with_reducible refine Co.each_bind ?_ fun _ => ?_
    | with_reducible exact recoverByCookie_heap _
    | with_reducible exact allocaSessionid_heap
    | split
    | (refine heapStep_of_each (r := ctx.req) ?_; simp [offHeaps]; done)

/-- The methods whose footprint has sessions in it. -/
theorem handlerOf_heap {method : ReqMethod} {params : JsonObject} (hm : .heap ∈ method.footprint) :
    (handlerOf cfg ctx method params).Each HeapStep := by
  cases method <;> first | (simp [ReqMethod.footprint] at hm; done) | skip
  case recoverSession => exact recoverSession_heap params
  all_goals
    simp only [handlerOf, ReqMethod.api, handleJsonrpcUserApi, handleJsonrpcOrderApi,
      handleJsonrpcMerchantApi, handleJsonrpcAdminApi, userPrelogin, userLogin, userFastlogin,
      userLogout, userAddRecipientAddress, userEraseReceiptAddress, orderCreate, merchantInfo,
      merchantResetGiteaPassword, merchantAlterName, modifyMerchantInfo, adminSudo, adminSudoTo,
      adminSudoCancel]
  all_goals
    repeat' first
      | with_reducible refine Co.each_bind ?_ fun _ => ?_
      | with_reducible exact handleUserLogin_heap _ _
      | with_reducible exact reloadUser_heap _ _ _
      | with_reducible exact updateUser_heap _ _ _
      | (with_reducible refine modifySession_heap ?_
         first
           | exact fun _ => .telephone _
           | exact fun _ => .cookie _
           | exact fun _ => .merchantInfo _
           | exact fun _ => .editMerchant _
           | exact fun _ => .logout
           | exact fun _ => .sudoTo _ _
           | exact fun _ => .sudoCancel _ _)
      | split
      | (refine heapStep_of_each (r := ctx.req) ?_; simp [offHeaps]; done)
      | exact Co.each_modify fun _ => .same rfl rfl

theorem serve_heap (q : Request) : (serve cfg ctx q).Each HeapStep := by
  by_cases hq : .heap ∈ q.footprint
  · cases q with
    | jsonrpc conn method params =>
      have hm : .heap ∈ method.footprint := by simpa [Request.footprint] using hq
      refine Co.each_bind (handleJsonrpcCall_of_handler (fun _ => .same rfl rfl)
        (handlerOf_heap hm)) fun reply => ?_
      exact Co.each_modify fun _ => .same rfl rfl
    | connect conn ip cookies alloca => exact clientConnected_heap ip cookies alloca
    | _ => simp [Request.footprint] at hq
  · have heach : (serve cfg ctx q).Each (Keeps q.footprint ctx.req) := serve_each q
    exact heach.mono fun _ _ h => heapStep_of_keeps h hq

theorem prog_heap (r : Nat) (q : Request) : (prog cfg r q).Each HeapStep :=
  Co.each_bind (Co.each_suspend _) fun _ => serve_heap q

end Accesses

/-- A property of sessions that every write and every new session has holds of every
session in every state of every run. -/
theorem run_sessions {I : ClientSession → Prop} (hwrite : ∀ c c', SessionWrite c c' → I c → I c')
    (hnew : ∀ c, NewSession c → I c) {m : Mem} (hm : ∀ a, I (m.heap a)) (cfg : Config)
    (ls : List (Label Request Input)) (a : Nat) :
    I (((Sys.idle m : Service).run (prog cfg) ls).mem.heap a) := by
  refine Sys.run_each (J := fun s => ∀ a, I (s.heap a)) prog_heap (fun s t hst hs b => ?_) hm ls a
  cases hst with
  | same heap _ =>
    rw [heap]
    exact hs b
  | write a c h heap _ =>
    rw [heap]
    dsimp only
    split
    · exact hwrite _ c h (hs a)
    · exact hs b
  | new c h heap _ =>
    rw [heap]
    dsimp only
    split
    · exact hnew c h
    · exact hs b

end Cmall
