import Cmall.Footprint.Basic

/-!
The footprint of every method: what the handlers of `handle_jsonrpc_call` and the
other programs of the service can touch.
-/

namespace Cmall
open Coroutine

/-- The parts a JSON-RPC call of the method can touch. -/
def ReqMethod.footprint : ReqMethod → List Part
  | recoverSession => [.heap, .conn, .uuids, .sessions, .loginEvents]
  | userPrelogin => [.heap, .codes, .uuids, .sessions, .loginEvents]
  | userLogin | userFastlogin =>
    [.heap, .accounts, .users, .sessions, .loginEvents, .accountEvents]
  | userLogout => [.heap, .sessions, .otherEvents]
  | userApplyMerchant => [.applys]
  | userListRecipientAddress => [.heap]
  | userAddRecipientAddress | userEraseReceiptAddress => [.heap, .users]
  | user3rdKvPut | user3rdKvPutPubkey => [.kvs]
  | cartAdd => [.carts, .cartEvents, .otherEvents]
  | cartMod | cartDel => [.carts, .otherEvents]
  | cartList => [.carts]
  | favAdd | favDel | favList => [.favs]
  | orderCreateCart | orderCreateDirect => [.heap, .uuids, .orders]
  | orderDetail | orderGetPaymethods | orderGetPayUrl | orderGetWxpayPrepayId
  | merchantGetSoldOrderDetail => [.orderEvents]
  | orderCheckPayment | merchantSoldOrdersCheckPayment | merchantSoldOrdersMarkPayed
  | merchantAlterOrderPrice | merchantSoldOrdersAddKuaidi
  | merchantDeleteSoldOrders => [.orders, .orderEvents]
  | merchantInfo => [.heap]
  | merchantResetGiteaPassword => [.heap, .uuids, .merchants]
  | merchantCreateApptoken => [.uuids, .apptokens]
  | merchantDeleteApptoken => [.apptokens]
  | merchantAlterName => [.heap, .merchants]
  | adminUserBan => [.users, .merchants]
  | adminApproveMerchant => [.uuids, .applys, .merchants, .repos, .otherEvents]
  | adminDenyApplicant => [.applys]
  | adminDisableMerchants | adminReenableMerchants | adminSetMerchantWxpaySubmchid => [.merchants]
  | adminSudo => [.heap, .sessions, .sudoEvents]
  | adminSudoCancel => [.heap, .sessions]
  | adminSetIndexGoods | adminAddIndexGoods | adminRemoveIndexGoods => [.indexGoods]
  | wxDirectPay => [.uuids, .orderEvents]
  | _ => []

section Handlers

variable {K : List Part} {r : Nat} {α : Type} {ctx : Ctx} {cfg : Config}

/-! ## Users -/

@[simp] theorem loadUserByPhone_each (a : Nat) (tel : String) (h : .accountEvents ∈ K) :
    (loadUserByPhone ctx a tel).Each (Keeps K ctx.req) := by
  refine tx_each fun _ s => ?_
  split
  · exact .refl K _ s
  · exact keeps_emit (e := .userMissed ctx.req tel) h

@[simp] theorem addUser_each (u : CmallUser) (h : .accountEvents ∈ K) (hu : .users ∈ K)
    (ha : .accounts ∈ K) : (addUser ctx u).Each (Keeps K ctx.req) := by
  refine tx_each fun _ s => ?_
  exact (keeps_db (Db.persistUser_keeps u hu ha)).trans _ _ _
    (keeps_emit (e := .userAdded ctx.req u.activePhone) h)

@[simp] theorem reloadUser_each (a uid : Nat) (after : Bool → Spot) (h : .heap ∈ K) :
    (reloadUser ctx a uid after).Each (Keeps K r) := by
  refine tx_each fun _ s => ?_
  split
  · exact keeps_overwriteUser h
  · exact .refl K r s

@[simp] theorem updateUser_each (a uid : Nat) (f : CmallUser → CmallUser)
    (hf : ∀ v, (f v).account = v.account) (h : .heap ∈ K) (hu : .users ∈ K) :
    (updateUser ctx a uid f).Each (Keeps K r) := by
  refine tx_each fun _ s => ?_
  split
  · rename_i old hold
    have hdb : (s.overwriteUser a (f old)).db = s.db := by
      unfold Mem.overwriteUser
      split <;> rfl
    have huid : (f old).uid = uid := (congrArg Prod.fst (hf old)).trans (Db.findUser_uid hold)
    refine (keeps_overwriteUser h).trans _ _ _ (keeps_db ?_)
    rw [hdb]
    exact Db.updateUser_keeps old { f old with updatedAt := _ } hu
      (by simpa [huid] using hold) (hf old)
  · exact .refl K r s

@[simp] theorem callCheckAdmin_each (u : CmallUser) :
    (Co.modify fun s => s.callCheckAdmin u : M Unit).Each (Keeps K r) := by
  refine Co.each_modify fun s => ?_
  unfold Mem.callCheckAdmin
  split
  · exact { Keeps.refl K r s with }
  · exact .refl K r s

@[simp] theorem loginMerchant_each (a uid : Nat) (h : .heap ∈ K) :
    (loginMerchant ctx a uid).Each (Keeps K r) := by
  simp only [loginMerchant]
  repeat' first
    | with_reducible refine Co.each_bind ?_ fun _ => ?_
    | simp [h]; done
    | split

@[simp] theorem loginAdmin_each (a uid : Nat) (h : .heap ∈ K) :
    (loginAdmin ctx a uid).Each (Keeps K r) := by
  simp only [loginAdmin]
  repeat' first
    | with_reducible refine Co.each_bind ?_ fun _ => ?_
    | simp [h]; done
    | split

@[simp] theorem loginNewUser_each (h : .heap ∈ K) (he : .loginEvents ∈ K)
    (he' : .accountEvents ∈ K) (hu : .users ∈ K) (ha : .accounts ∈ K) (hs : .sessions ∈ K) :
    (loginNewUser ctx).Each (Keeps K ctx.req) := by
  simp only [loginNewUser]
  repeat' first
    | with_reducible refine Co.each_bind ?_ fun _ => ?_
    | simp [h, he', hu, ha, hs]; done
    | exact emit_each he rfl

@[simp] theorem handleUserLogin_each (a : Nat) (tel : String) (h : .heap ∈ K)
    (he : .loginEvents ∈ K) (he' : .accountEvents ∈ K) (hu : .users ∈ K) (ha : .accounts ∈ K)
    (hs : .sessions ∈ K) : (handleUserLogin ctx a tel).Each (Keeps K ctx.req) := by
  simp only [handleUserLogin]
  repeat' first
    | with_reducible refine Co.each_bind ?_ fun _ => ?_
    | simp [h, he, he', hu, ha, hs]; done
    | exact emit_each he rfl
    | split

@[simp] theorem sendVerifyCode_each (tel : String) (h : .codes ∈ K) (hu : .uuids ∈ K)
    (he : .loginEvents ∈ K) : (sendVerifyCode ctx tel).Each (Keeps K ctx.req) := by
  refine Co.each_bind external_each fun out => Co.each_bind (genUuid_each hu) fun cookie => ?_
  refine Co.each_bind (emit_each he rfl) fun _ => Co.each_bind ?_ fun _ => each_ret _
  refine Co.each_modify fun s => ?_
  unfold Mem.putCode
  split
  · exact .refl K _ s
  · exact { Keeps.refl K ctx.req s with codes := fun hK => absurd h hK }

@[simp] theorem verifyVerifyCode_each (code cookie : String) :
    (verifyVerifyCode code cookie).Each (Keeps K r) :=
  Co.each_bind each_get fun _ => each_ret _

@[simp] theorem kvGet_each (uid : Nat) (keyValue : String) (pub : Bool) :
    (kvGet ctx uid keyValue pub).Each (Keeps K r) := by
  refine Co.each_bind (asyncLoad_each _ _) fun kv => ?_
  split
  · exact each_ret _
  · exact each_throw _

@[simp] theorem userApplyMerchant_each (a : Nat) (h : .applys ∈ K) :
    (userApplyMerchant ctx a).Each (Keeps K r) := by
  simp only [userApplyMerchant]
  repeat' first
    | with_reducible refine Co.each_bind ?_ fun _ => ?_
    | simp [h]; done
    | split

theorem handleJsonrpcUserApi_each (method : ReqMethod) (params : JsonObject)
    (hK : method.footprint ⊆ K) :
    (handleJsonrpcUserApi cfg ctx method params).Each (Keeps K ctx.req) := by
  refine Co.each_bind thisSession_each fun a => ?_
  split
  all_goals
    first
      | exact each_throw _
      | delta ReqMethod.footprint at hK
        simp only [List.cons_subset, List.nil_subset, and_true, userPrelogin,
          userLogin, userFastlogin, userLogout, userAddRecipientAddress, userEraseReceiptAddress,
          user3rdKvPut, user3rdKvGet] at hK ⊢
        repeat' first
          | with_reducible refine Co.each_bind ?_ fun _ => ?_
          | simp [hK]; done
          | exact emit_each (by simp [Event.part, hK]) rfl
          | exact updateUser_each _ _ _ (fun v => rfl) hK.1 hK.2
          | exact updateUser_each _ _ _ (fun v => by split <;> rfl) hK.1 hK.2
          | split

/-! ## Carts and favourites -/

@[simp] theorem fillMerchantName_each {merchantId : α → Nat} {setName : α → String → α}
    (items : List α) (cache : List (Nat × CmallMerchant)) (vanished : List Nat) :
    (fillMerchantName ctx merchantId setName items cache vanished).Each (Keeps K r) := by
  induction items generalizing cache vanished with
  | nil => exact each_ret _
  | cons cc items ih =>
    simp only [fillMerchantName]
    repeat' first
      | with_reducible refine Co.each_bind ?_ fun _ => ?_
      | simp [ih]; done
      | split

@[simp] theorem eraseVanished_each (erase : Db → Nat → Db) (mids : List Nat)
    (h : ∀ db mid, Db.Keeps K db (erase db mid)) :
    (eraseVanished ctx erase mids).Each (Keeps K r) := by
  induction mids with
  | nil => exact each_ret _
  | cons mid rest ih => exact Co.each_bind (by simp [h]) fun _ => ih

@[simp] theorem notifyCartChanged_each (a : Nat) (h : .otherEvents ∈ K) :
    (notifyCartChanged ctx a).Each (Keeps K ctx.req) := by
  refine Co.each_bind (thisUser_each a) fun u => Co.each_bind thisSession_each fun b => ?_
  exact Co.each_bind (getSession_each b) fun c => sendNotifyMessage_each _ _ h

@[simp] theorem cartOwned_each (a itemId : Nat) : (cartOwned ctx a itemId).Each (Keeps K r) := by
  refine Co.each_bind (asyncLoad_each _ _) fun item => ?_
  split
  · exact each_throw _
  · refine Co.each_bind (thisUser_each a) fun u => ?_
    split
    · exact each_throw _
    · exact each_pure _

@[simp] theorem storeCart_each (found : Option CmallCart) (item : CmallCart) (h : .carts ∈ K)
    (he : .cartEvents ∈ K) : (storeCart ctx found item).Each (Keeps K ctx.req) := by
  refine tx_each fun i s => ?_
  have hwrite : s.db.KeepsO K
      (if found.isSome then s.db.updateCart item s.clock else some ((), s.db.persistCart item)) := by
    split <;> simp [h]
  split
  · rename_i db hdb
    exact Keeps.trans s _ _ (keeps_db (hwrite () db hdb)) (keeps_emit (e := .cartStored ctx.req item) he)
  · exact .refl K _ s

theorem handleJsonrpcCartApi_each (method : ReqMethod) (params : JsonObject)
    (hK : method.footprint ⊆ K) :
    (handleJsonrpcCartApi ctx method params).Each (Keeps K ctx.req) := by
  refine Co.each_bind thisSession_each fun a => ?_
  split
  all_goals
    first
      | exact each_throw _
      | delta ReqMethod.footprint at hK
        simp only [List.cons_subset, List.nil_subset, and_true, cartAdd, cartAddTo,
          cartMod, cartDel, cartList] at hK ⊢
        repeat' first
          | with_reducible refine Co.each_bind ?_ fun _ => ?_
          | simp [hK]; done
          | split

theorem handleJsonrpcFavApi_each (method : ReqMethod) (params : JsonObject)
    (hK : method.footprint ⊆ K) :
    (handleJsonrpcFavApi ctx method params).Each (Keeps K ctx.req) := by
  refine Co.each_bind thisSession_each fun a => ?_
  split
  all_goals
    first
      | exact each_throw _
      | delta ReqMethod.footprint at hK
        simp only [List.cons_subset, List.nil_subset, and_true, favAdd, favDel,
          favList] at hK ⊢
        repeat' first
          | with_reducible refine Co.each_bind ?_ fun _ => ?_
          | simp [hK]; done
          | split

/-! ## Orders -/

@[simp] theorem asyncLoadOrders_each (who : Actor) (p : CmallOrder → Bool)
    (h : .orderEvents ∈ K) : (asyncLoadOrders ctx who p).Each (Keeps K ctx.req) :=
  tx_each fun _ _ => keeps_emit (e := .ordersLoaded ctx.req who _) h

@[simp] theorem asyncLoadOrder_each (who : Actor) (p : CmallOrder → Bool) (spot : Spot)
    (h : .orderEvents ∈ K) : (asyncLoadOrder ctx who p spot).Each (Keeps K ctx.req) :=
  tx_each fun _ _ => keeps_emit (e := .ordersLoaded ctx.req who _) h

@[simp] theorem storeOrder_each (change : OrderChange) (row : CmallOrder)
    (stamp : PTime → CmallOrder → CmallOrder) (h : .orders ∈ K) (he : .orderEvents ∈ K) :
    (storeOrder ctx change row stamp).Each (Keeps K ctx.req) := by
  refine tx_each fun _ s => ?_
  split
  · rename_i db hdb
    exact (keeps_db (Db.updateOrder_keeps h hdb)).trans _ _ _
      (keeps_emit (e := .orderStored ctx.req change _) he)
  · exact .refl K _ s

@[simp] theorem loadOneOrder_each (who : Actor) (orderid : String) (h : .orderEvents ∈ K) :
    (loadOneOrder ctx who orderid).Each (Keeps K ctx.req) := by
  refine Co.each_bind (asyncLoadOrders_each _ _ h) fun orders => ?_
  split
  · exact each_ret _
  · exact each_throw _

@[simp] theorem orderMarkPayed_each (order : CmallOrder) (seller : M Nat)
    (hs : seller.Each (Keeps K ctx.req)) (h : .orders ∈ K) (he : .orderEvents ∈ K) :
    (orderMarkPayed ctx order seller).Each (Keeps K ctx.req) := by
  simp only [orderMarkPayed, asyncUpdateOrder]
  repeat' first
    | with_reducible refine Co.each_bind ?_ fun _ => ?_
    | simp [h, he, hs]; done
    | exact emit_each he rfl
    | split

@[simp] theorem orderCheckPayment_each (order : CmallOrder) (seller : M Nat)
    (hs : seller.Each (Keeps K ctx.req)) (h : .orders ∈ K) (he : .orderEvents ∈ K) :
    (orderCheckPayment ctx order seller).Each (Keeps K ctx.req) := by
  simp only [orderCheckPayment]
  repeat' first
    | with_reducible refine Co.each_bind ?_ fun _ => ?_
    | simp [h, he, hs]; done
    | exact emit_each he rfl
    | split

@[simp] theorem handleOrderWxCallback_each (msg : NotifyMessage) (h : .orders ∈ K)
    (he : .orderEvents ∈ K) : (handleOrderWxCallback ctx msg).Each (Keeps K ctx.req) := by
  simp only [handleOrderWxCallback, asyncUpdateOrder]
  repeat' first
    | with_reducible refine Co.each_bind ?_ fun _ => ?_
    | simp [h, he]; done
    | split

@[simp] theorem cachedMerchant_each (cache : List (Nat × CmallMerchant)) (merchantId : Nat) :
    (cachedMerchant ctx cache merchantId).Each (Keeps K r) := by
  simp only [cachedMerchant]
  repeat' first
    | with_reducible refine Co.each_bind ?_ fun _ => ?_
    | simp; done
    | split

@[simp] theorem orderGoodsList_each (goods : List Json) (d : OrderDraft) :
    (orderGoodsList cfg ctx goods d).Each (Keeps K r) := by
  induction goods generalizing d with
  | nil => exact each_ret _
  | cons v goods ih =>
    simp only [orderGoodsList, orderGoods]
    repeat' first
      | with_reducible refine Co.each_bind ?_ fun _ => ?_
      | simp [ih]; done
      | split

@[simp] theorem orderMerchant_each (order : CmallOrder) :
    (orderMerchant order).Each (Keeps K r) := by
  simp only [orderMerchant, firstGoods]
  repeat' first
    | with_reducible refine Co.each_bind ?_ fun _ => ?_
    | simp; done
    | split

@[simp] theorem loadOrderToPay_each (a : Nat) (params : JsonObject) (h : .orderEvents ∈ K) :
    (loadOrderToPay ctx a params).Each (Keeps K ctx.req) := by
  refine Co.each_bind (thisUser_each a) fun u => Co.each_bind (asyncLoadOrder_each _ _ _ h) fun o => ?_
  split
  · exact each_ret _
  · exact each_throw _

@[simp] theorem listOrders_each (params : JsonObject) (mine : CmallOrder → Bool) :
    (listOrders ctx params mine).Each (Keeps K r) := by
  simp only [listOrders]
  repeat' first
    | with_reducible refine Co.each_bind ?_ fun _ => ?_
    | simp; done

theorem handleJsonrpcOrderApi_each (method : ReqMethod) (params : JsonObject)
    (hK : method.footprint ⊆ K) :
    (handleJsonrpcOrderApi cfg ctx method params).Each (Keeps K ctx.req) := by
  refine Co.each_bind thisSession_each fun a => ?_
  split
  all_goals
    first
      | exact each_throw _
      | delta ReqMethod.footprint at hK
        simp only [List.cons_subset, List.nil_subset, and_true, orderCreate,
          orderGetPaymethods, orderGetPayUrl, orderGetWxpayPrepayId, buyerCheckPayment] at hK ⊢
        repeat' first
          | with_reducible refine Co.each_bind ?_ fun _ => ?_
          | simp [hK]; done
          | exact emit_each hK rfl
          | split

/-! ## Goods -/

@[simp] theorem listIndexGoods_each : (listIndexGoods ctx).Each (Keeps K r) := by
  have hloop : ∀ cache rows, (indexGoodsProducts ctx cache rows).Each (Keeps K r) := by
    intro cache rows
    induction rows with
    | nil => exact each_ret _
    | cons g rows ih =>
      refine Co.each_bind (Co.each_tryCatch (getProduct_each _ _ _) fun _ => each_ret _) fun p => ?_
      exact Co.each_bind ih fun _ => each_ret _
  refine Co.each_bind (asyncLoad_each _ _) fun merchants => ?_
  exact Co.each_bind (tx_each fun _ s => .refl K r s) fun rows => hloop _ _

@[simp] theorem searchProducts_each (found : List (Nat × String))
    (cache : List (Nat × CmallMerchant)) : (searchProducts ctx found cache).Each (Keeps K r) := by
  induction found generalizing cache with
  | nil => exact each_ret _
  | cons g found ih =>
    simp only [searchProducts]
    repeat' first
      | with_reducible refine Co.each_bind ?_ fun _ => ?_
      | simp [ih]; done
      | split

theorem handleJsonrpcGoodsApi_each (method : ReqMethod) (params : JsonObject) :
    (handleJsonrpcGoodsApi ctx method params).Each (Keeps K r) := by
  simp only [handleJsonrpcGoodsApi, goodsList, goodsDetail, goodsFile]
  repeat' first
    | with_reducible refine Co.each_bind ?_ fun _ => ?_
    | simp; done
    | split

theorem handleJsonrpcMiscApi_each (method : ReqMethod) (params : JsonObject)
    (hK : method.footprint ⊆ K) :
    (handleJsonrpcMiscApi cfg ctx method params).Each (Keeps K ctx.req) := by
  unfold handleJsonrpcMiscApi
  split
  all_goals
    first
      | exact each_throw _
      | delta ReqMethod.footprint at hK
        simp only [List.cons_subset, List.nil_subset, and_true] at hK
        repeat' first
          | with_reducible refine Co.each_bind ?_ fun _ => ?_
          | simp [hK]; done
          | exact emit_each hK.2 rfl
          | split

/-! ## Merchants and administrators -/

@[simp] theorem thisMerchant_each (a : Nat) : (thisMerchant a).Each (Keeps K r) := by
  refine Co.each_bind (getSession_each a) fun c => ?_
  split
  · exact each_ret _
  · exact each_throw _

@[simp] theorem modifyMerchantInfo_each (a : Nat) (f : CmallMerchant → CmallMerchant)
    (h : .heap ∈ K) : (modifyMerchantInfo a f).Each (Keeps K r) := modifySession_each a _ h

@[simp] theorem newNumeric_each (text : String) : (newNumeric cfg text).Each (Keeps K r) := by
  unfold newNumeric
  split
  · exact each_ret _
  · split
    · exact each_ret _
    · exact each_throw _

@[simp] theorem loadSoldOrder_each (a : Nat) (params : JsonObject) (h : .orderEvents ∈ K) :
    (loadSoldOrder ctx a params).Each (Keeps K ctx.req) :=
  Co.each_bind (thisUser_each a) fun _ => loadOneOrder_each _ _ h

@[simp] theorem merchantEntry_each : (merchantEntry ctx).Each (Keeps K r) := by
  refine Co.each_bind thisSession_each fun a => Co.each_bind (thisUser_each a) fun _ => ?_
  exact Co.each_bind (thisMerchant_each a) fun _ => each_pure a

theorem handleJsonrpcMerchantApi_each (method : ReqMethod) (params : JsonObject)
    (hK : method.footprint ⊆ K) :
    (handleJsonrpcMerchantApi cfg ctx method params).Each (Keeps K ctx.req) := by
  have hs : ∀ a, (do return (← thisMerchant a).uid : M Nat).Each (Keeps K ctx.req) := fun a =>
    Co.each_bind (thisMerchant_each a) fun _ => each_ret _
  refine Co.each_bind merchantEntry_each fun a => ?_
  split
  all_goals
    first
      | exact each_throw _
      | delta ReqMethod.footprint at hK
        simp only [List.cons_subset, List.nil_subset, and_true, merchantInfo,
          merchantSoldOrdersCheckPayment, merchantSoldOrdersMarkPayed, merchantAlterOrderPrice,
          merchantSoldOrdersAddKuaidi, merchantDeleteSoldOrders, merchantResetGiteaPassword,
          merchantCreateApptoken, merchantDeleteApptoken, merchantAlterName, asyncUpdateOrder,
          asyncSoftRemoveOrder] at hK ⊢
        repeat' first
          | with_reducible refine Co.each_bind ?_ fun _ => ?_
          | simp [hK]; done
          | exact orderCheckPayment_each _ _ (hs a) hK.1 hK.2
          | exact orderMarkPayed_each _ _ (hs a) hK.1 hK.2
          | split

@[simp] theorem originalUser_each (a : Nat) : (originalUser a).Each (Keeps K r) := by
  refine Co.each_bind (getSession_each a) fun c => ?_
  repeat' first
    | simp; done
    | split

@[simp] theorem approveTransaction_each (applyId : Nat) (h : .uuids ∈ K) (h' : .applys ∈ K)
    (hm : .merchants ∈ K) : (approveTransaction ctx applyId).Each (Keeps K r) := by
  refine asyncTransacton_each (Co.each_bind (asyncLoad_each _ _) fun found => ?_)
  split
  · exact each_ret _
  · exact each_throw _
  · split
    · exact each_ret _
    · refine Co.each_bind (genUuid_each h) fun password => Co.each_bind ?_ fun _ => each_ret _
      exact asyncWrite_each _ _ _ fun s => by simp [h', hm]

@[simp] theorem denyWaiting_each (applyId : Nat) (reason : String) (h : .applys ∈ K) :
    (denyWaiting ctx applyId reason).Each (Keeps K r) := by
  refine Co.each_bind (asyncLoad_each _ _) fun found => ?_
  split
  · exact asyncWrite_each _ _ _ fun s => by simp [h]
  · exact each_pure _

theorem giteaCreate_each {created : Event} (he : created.part ∈ K) (hr : created.req = r) :
    (giteaCreate ctx created).Each (Keeps K r) := by
  refine Co.each_bind external_each fun status => ?_
  split
  · exact Co.each_bind (emit_each he hr) fun _ => each_ret _
  · exact each_ret _

@[simp] theorem initUser_each (uid : Nat) (h : .otherEvents ∈ K) :
    (initUser ctx uid).Each (Keeps K ctx.req) := by
  refine Co.each_bind (giteaCreate_each h rfl) fun ok => ?_
  split
  · exact giteaCreate_each h rfl
  · exact each_ret _

@[simp] theorem loadMerchantGit_each (uid : Nat) (h : .repos ∈ K) :
    (loadMerchantGit ctx uid).Each (Keeps K r) := by
  refine Co.each_bind external_each fun found => ?_
  split
  · exact each_ret _
  · refine Co.each_bind (Co.each_modify fun s => ?_) fun _ => each_ret _
    exact { Keeps.refl K r s with repos := fun hK => absurd h hK }

@[simp] theorem initMerchant_each (applyId uid : Nat) (h : .repos ∈ K) (he : .otherEvents ∈ K) :
    (initMerchant ctx applyId uid).Each (Keeps K ctx.req) := by
  refine Co.each_bind (initUser_each uid he) fun _ => ?_
  refine Co.each_bind (loadMerchantGit_each uid h) fun _ => ?_
  exact Co.each_bind (sendNotifyMessage_each _ _ he) fun _ => each_ret _

theorem handleJsonrpcAdminApi_each (method : ReqMethod) (params : JsonObject)
    (hK : method.footprint ⊆ K) :
    (handleJsonrpcAdminApi ctx method params).Each (Keeps K ctx.req) := by
  refine Co.each_bind thisSession_each fun a => ?_
  split
  all_goals
    first
      | exact each_throw _
      | delta ReqMethod.footprint at hK
        simp only [List.cons_subset, List.nil_subset, and_true, adminUserBan,
          adminApproveMerchant, adminDenyApplicant, adminSetMerchantStates,
          adminSetMerchantWxpaySubmchid, adminSudo, adminSudoTo, adminSudoCancel, adminSetIndexGoods,
          adminAddIndexGoods, adminRemoveIndexGoods] at hK ⊢
        repeat' first
          | with_reducible refine Co.each_bind ?_ fun _ => ?_
          | simp [hK]; done
          | exact emit_each hK.2.2 rfl
          | exact asyncTransacton_each (asyncWrite_each _ _ _ fun s => Db.setIndexGoods_keeps _ hK)
          | split

/-! ## Sessions -/

@[simp] theorem allocaSessionid_each (h : .heap ∈ K) (hc : .conn ∈ K) (hu : .uuids ∈ K)
    (hs : .sessions ∈ K) (hr : ctx.req = r := by rfl) :
    (allocaSessionid ctx).Each (Keeps K r) := by
  subst hr
  refine Co.each_bind (freshSession_each hu) fun c => ?_
  exact Co.each_bind (newSession_each c h hc) fun _ => saveSession_each hs

@[simp] theorem recoverMerchant_each (uid : Nat) (h : .heap ∈ K) :
    (recoverMerchant ctx uid).Each (Keeps K r) := by
  refine Co.each_bind (asyncLoad_each _ _) fun m => ?_
  split
  · exact Co.each_bind thisSession_each fun a => modifySession_each a _ h
  · exact each_pure _

@[simp] theorem recoverAdmin_each (uid : Nat) (h : .heap ∈ K) :
    (recoverAdmin ctx uid).Each (Keeps K r) := by
  refine Co.each_bind (asyncLoad_each _ _) fun d => ?_
  split
  · exact Co.each_bind thisSession_each fun a => modifySession_each a _ h
  · exact each_pure _

@[simp] theorem recoverSudo_each (h : .heap ∈ K) : (recoverSudo ctx).Each (Keeps K r) := by
  simp only [recoverSudo]
  repeat' first
    | with_reducible refine Co.each_bind ?_ fun _ => ?_
    | simp [h]; done
    | split

@[simp] theorem loadUserInfo_each (h : .heap ∈ K) : (loadUserInfo ctx).Each (Keeps K r) := by
  simp only [loadUserInfo]
  repeat' first
    | with_reducible refine Co.each_bind ?_ fun _ => ?_
    | simp [h]; done
    | split

@[simp] theorem restoreSession_each (sessionid : String) (h : .heap ∈ K) (hc : .conn ∈ K) :
    (restoreSession ctx sessionid).Each (Keeps K r) :=
  Co.each_bind (loadSession_each sessionid) fun c => newSession_each c h hc

@[simp] theorem sessionExists_each (sessionid : String) :
    (sessionExists ctx sessionid).Each (Keeps K r) := asyncLoad_each _ _

@[simp] theorem apiTokenUid_each (apiToken : String) :
    (apiTokenUid ctx apiToken).Each (Keeps K r) := by
  simp only [apiTokenUid]
  repeat' first
    | with_reducible refine Co.each_bind ?_ fun _ => ?_
    | simp; done
    | split

theorem recoverSession_each (params : JsonObject) (hK : ReqMethod.recoverSession.footprint ⊆ K) :
    (recoverSession ctx params).Each (Keeps K ctx.req) := by
  unfold ReqMethod.footprint at hK
  simp only [List.cons_subset, List.nil_subset, and_true] at hK
  simp only [recoverSession, recoverBySessionid, recoverByApiToken]
  repeat' first
    | with_reducible refine Co.each_bind ?_ fun _ => ?_
    | simp [hK]; done
    | exact emit_each hK.2.2.2.2 rfl
    | split

@[simp] theorem recoverByCookie_each (cookies : List String) (h : .heap ∈ K) (hc : .conn ∈ K)
    (hs : .sessions ∈ K) : (recoverByCookie ctx cookies).Each (Keeps K r) := by
  induction cookies with
  | nil => exact each_ret _
  | cons sessionid rest ih =>
    simp only [recoverByCookie]
    repeat' first
      | with_reducible refine Co.each_bind ?_ fun _ => ?_
      | simp [ih, h, hc, hs]
      | split

@[simp] theorem ensureLogin_each (checkAdmin checkMerchant : Bool) :
    (ensureLogin ctx checkAdmin checkMerchant).Each (Keeps K r) := by
  simp only [ensureLogin]
  repeat' first
    | with_reducible refine Co.each_bind ?_ fun _ => ?_
    | simp; done
    | split

/-- A JSON-RPC call keeps to the footprint of its method. -/
theorem handleJsonrpcCall_each (method : ReqMethod) (params : JsonObject)
    (hK : method.footprint ⊆ K) :
    (handleJsonrpcCall cfg ctx method params).Each (Keeps K ctx.req) := by
  refine Co.each_bind each_get fun s => ?_
  split
  · exact each_throw _
  split
  case h_1 h =>
    have hm : method = .recoverSession := by
      cases method <;> first | rfl | cases h
    subst hm
    exact recoverSession_each params hK
  all_goals
    repeat' first
      | with_reducible refine Co.each_bind ?_ fun _ => ?_
      | simp; done
      | exact handleJsonrpcUserApi_each method params hK
      | exact handleJsonrpcCartApi_each method params hK
      | exact handleJsonrpcFavApi_each method params hK
      | exact handleJsonrpcOrderApi_each method params hK
      | exact handleJsonrpcGoodsApi_each method params
      | exact handleJsonrpcMerchantApi_each method params hK
      | exact handleJsonrpcAdminApi_each method params hK
      | exact handleJsonrpcMiscApi_each method params hK
      | split

/-! ## Programs -/

def Request.footprint : Request → List Part
  | .jsonrpc _ method _ => .otherEvents :: method.footprint
  | .connect .. => [.heap, .conn, .uuids, .sessions]
  | .wxCallback _ => [.orders, .orderEvents, .otherEvents]
  | .checkAdmin => [.administrators]
  | .purgeCode _ => [.codes]
  | .setRepo .. => [.repos]
  | _ => []

/-- Every access of a program keeps to the footprint of its request. -/
theorem serve_each (q : Request) : (serve cfg ctx q).Each (Keeps q.footprint ctx.req) := by
  cases q with
  | jsonrpc conn method params =>
    refine Co.each_bind (handleJsonrpcCall_each method params ?_) fun reply => ?_
    · exact fun p hp => List.mem_cons_of_mem _ hp
    · exact emit_each (by simp [Event.part, Request.footprint]) rfl
  | connect conn ip cookies alloca =>
    simp only [serve, clientConnected, Request.footprint]
    repeat' first
      | with_reducible refine Co.each_bind ?_ fun _ => ?_
      | simp; done
      | split
  | disconnect conn => exact eraseActive_each
  | wxCallback msg =>
    refine Co.each_bind (handleOrderWxCallback_each msg ?_ ?_) fun reply => emit_each ?_ rfl
    all_goals simp [Request.footprint, Event.part]
  | checkAdmin =>
    simp only [serve, checkAdmin, Request.footprint]
    refine Co.each_bind each_get fun s => ?_
    split
    · refine Co.each_bind (Co.each_modify fun s => { Keeps.refl _ _ s with }) fun _ => ?_
      repeat' first
        | with_reducible refine Co.each_bind ?_ fun _ => ?_
        | simp; done
        | split
    · exact each_pure _
  | purgeCode cookie =>
    exact Co.each_modify fun s => { Keeps.refl _ _ s with
      codes := fun hK => absurd (by simp [Request.footprint]) hK }
  | setRepo merchantId repo =>
    exact Co.each_modify fun s => { Keeps.refl _ _ s with
      repos := fun hK => absurd (by simp [Request.footprint]) hK }
  | setSearch searchGoods => exact Co.each_modify fun s => { Keeps.refl _ _ s with }
  | tick clock => exact Co.each_modify fun s => { Keeps.refl _ _ s with }

end Handlers

end Cmall
