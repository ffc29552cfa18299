import Cmall.Footprint.Throws

/-!
What the handlers can fail with whatever the parameters are: an exception that
`do_ws_read` catches, or the dereference of a part of the session that is not there.
-/

namespace Cmall
open Coroutine

/-- The handlers of `do_ws_read`, for `system_error` and for `std::exception`, catch it. -/
def Exn.caught : Exn → Bool
  | .system _ => true
  | .std _ => true
  | _ => false

/-- The pointers and optionals of a session that are dereferenced. -/
def sessionParts : List String :=
  ["session_info", "user_info", "merchant_info", "original_user", "original_user->user"]

/-- A part of the session was not there, which no parameter of the request decides. -/
def Exn.ofSession : Exn → Bool
  | .undefined what => what ∈ sessionParts
  | _ => false

/-- The parameters have done no harm. -/
def Exn.Harmless (e : Exn) : Prop := e.caught ∨ e.ofSession

instance (e : Exn) : Decidable e.Harmless := inferInstanceAs (Decidable (_ ∨ _))

@[simp] theorem harmless_system (e : Errc) : (Exn.system e).Harmless := .inl rfl

@[simp] theorem harmless_std (text : String) : (Exn.std text).Harmless := .inl rfl

@[simp] theorem harmless_undefined (what : String) :
    (Exn.undefined what).Harmless ↔ what ∈ sessionParts := by
  simp [Exn.Harmless, Exn.caught, Exn.ofSession]

instance : Usual Exn.Harmless := ⟨harmless_system, harmless_std⟩

/-! ## Parameters -/

section Parameters

variable {F : Exn → Prop} {α β : Type}

theorem liftExcept_throws_bind {x : Except Exn α} {g : α → Except Exn β}
    (hx : (liftExcept x).Throws F) (hg : ∀ a, (liftExcept (g a)).Throws F) :
    (liftExcept (x >>= g)).Throws F := by
  cases x with
  | ok a => exact hg a
  | error e => exact hx

@[simp] theorem liftExcept_ok_throws (a : α) : (liftExcept (.ok a)).Throws F := trivial

@[simp] theorem liftExcept_pure_throws (a : α) : (liftExcept (pure a)).Throws F := trivial

@[simp] theorem liftExcept_error_throws (e : Exn) :
    (liftExcept (.error e : Except Exn α)).Throws F ↔ F e := Iff.rfl

variable [Usual F]

@[simp] theorem asInt64_throws (v : Json) : (liftExcept v.asInt64).Throws F := by
  cases v <;> first | trivial | exact Usual.std _

@[simp] theorem asString_throws (v : Json) : (liftExcept v.asString).Throws F := by
  cases v <;> first | trivial | exact Usual.std _

@[simp] theorem asArray_throws (v : Json) : (liftExcept v.asArray).Throws F := by
  cases v <;> first | trivial | exact Usual.std _

@[simp] theorem asObject_throws (v : Json) : (liftExcept v.asObject).Throws F := by
  cases v <;> first | trivial | exact Usual.std _

@[simp] theorem atKey_throws (kvs : JsonObject) (key : String) :
    (liftExcept (Json.atKey kvs key)).Throws F := by
  unfold Json.atKey
  split
  · trivial
  · exact Usual.std _

@[simp] theorem findOption_throws (title : String) (l : List Json) :
    (liftExcept (findOption title l)).Throws F := by
  induction l with
  | nil => trivial
  | cons v rest ih =>
    refine liftExcept_throws_bind (asObject_throws v) fun obj => ?_
    refine liftExcept_throws_bind (atKey_throws obj _) fun w => ?_
    refine liftExcept_throws_bind (asString_throws w) fun name => ?_
    split
    · trivial
    · exact ih

@[simp] theorem selectOptions_throws (l : List Json) (options : List ProductOption)
    (snap : GoodsSnapshot) : (liftExcept (selectOptions l options snap)).Throws F := by
  induction options generalizing snap with
  | nil => trivial
  | cons option rest ih =>
    refine liftExcept_throws_bind (findOption_throws _ l) fun found => ?_
    split
    · exact Usual.system _
    · refine liftExcept_throws_bind (atKey_throws _ _) fun w => ?_
      dsimp only
      split
      · exact Usual.system _
      · exact ih _

@[simp] theorem snapshotOf_throws (cfg : Config) (merchantId : Nat) (l : List Json) (p : Product) :
    (liftExcept (snapshotOf cfg merchantId l p)).Throws F := by
  unfold snapshotOf
  repeat' first
    | with_reducible refine liftExcept_throws_bind ?_ fun _ => ?_
    | exact selectOptions_throws _ _ _
    | exact Usual.system _
    | exact Usual.std _
    | trivial
    | split

@[simp] theorem push_throws (d : OrderDraft) (cfg : Config) (merchantId : Nat) (l : List Json)
    (p : Product) : (liftExcept (d.push cfg merchantId l p)).Throws F := by
  unfold OrderDraft.push
  repeat' first
    | with_reducible refine liftExcept_throws_bind ?_ fun _ => ?_
    | exact snapshotOf_throws _ _ _ _
    | exact Usual.system _
    | exact Usual.std _
    | trivial
    | split

@[simp] theorem selectionString_throws (l : List Json) :
    (liftExcept (selectionString l)).Throws F := by
  induction l with
  | nil => trivial
  | cons v rest ih =>
    refine liftExcept_throws_bind (asObject_throws v) fun obj => ?_
    exact liftExcept_throws_bind ih fun tail => trivial

@[simp] theorem indexGoodsOf_throws (l : List Json) (n : Int) :
    (liftExcept (indexGoodsOf l n)).Throws F := by
  induction l generalizing n with
  | nil => trivial
  | cons v rest ih =>
    refine liftExcept_throws_bind (asObject_throws v) fun obj => ?_
    refine liftExcept_throws_bind (asInt64_throws _) fun merchantId => ?_
    exact liftExcept_throws_bind (ih _) fun tail => trivial

end Parameters

/-! ## Operations -/

section Operations

variable {cfg : Config} {ctx : Ctx} {α : Type}

@[simp] theorem thisSession_harmless : (thisSession ctx).Throws Exn.Harmless :=
  thisSession_throws (by decide)

@[simp] theorem thisUser_harmless (a : Nat) : (thisUser a).Throws Exn.Harmless :=
  thisUser_throws a (by decide)

@[simp] theorem saveSession_harmless : (saveSession ctx).Throws Exn.Harmless :=
  saveSession_throws (by decide)

@[simp] theorem pushActive_harmless : (pushActive ctx).Throws Exn.Harmless :=
  pushActive_throws (by decide) (by decide)

@[simp] theorem ensureLogin_harmless (checkAdmin checkMerchant : Bool) :
    (ensureLogin ctx checkAdmin checkMerchant).Throws Exn.Harmless :=
  ensureLogin_throws _ _ (by decide)

@[simp] theorem thisMerchant_harmless (a : Nat) : (thisMerchant a).Throws Exn.Harmless := by
  refine Co.throws_bind (getSession_throws a) fun c => ?_
  split
  · exact throws_pure _
  · exact .inr (by decide)

@[simp] theorem originalUser_harmless (a : Nat) : (originalUser a).Throws Exn.Harmless := by
  refine Co.throws_bind (getSession_throws a) fun c => ?_
  split
  · exact .inr (by decide)
  · split
    · exact .inr (by decide)
    · exact throws_pure _

@[simp] theorem genUuid_throws : (genUuid ctx).Throws Exn.Harmless := throws_modifyGet _

@[simp] theorem localTime_throws : localTime.Throws Exn.Harmless :=
  Co.throws_bind throws_get fun _ => throws_pure _

@[simp] theorem became_throws (a : Nat) (op : IdentityOp) :
    (became ctx a op).Throws Exn.Harmless := throws_modify _

@[simp] theorem newSession_throws (c : ClientSession) :
    (newSession ctx c).Throws Exn.Harmless := throws_modify _

@[simp] theorem setConnection_throws (f : Connection → Connection) :
    (setConnection ctx f).Throws Exn.Harmless := throws_modify _

@[simp] theorem eraseActive_throws : (eraseActive ctx).Throws Exn.Harmless := throws_modify _

@[simp] theorem freshSession_throws : (freshSession ctx).Throws Exn.Harmless :=
  Co.throws_bind genUuid_throws fun _ => throws_pure _

@[simp] theorem asyncLoadPage_throws (id : α → Nat) (createdAt : α → PTime) (page pageSize : Int)
    (f : Db → List α) : (asyncLoadPage ctx id createdAt page pageSize f).Throws Exn.Harmless :=
  tx_throws _ _ _

@[simp] theorem sendNotifyMessage_throws (uid : Nat) (msg : String) :
    (sendNotifyMessage ctx uid msg).Throws Exn.Harmless := by
  refine Co.throws_bind throws_get fun s => Co.throws_bind (emit_throws _) fun _ => ?_
  exact Co.throws_bind (throws_suspend _) fun _ => throws_pure _

@[simp] theorem getProduct_throws (merchantId : Nat) (goodsId merchantName : String) :
    (getProduct ctx merchantId goodsId merchantName).Throws Exn.Harmless := by
  refine Co.throws_bind (getMerchantGitRepo_throws _) fun repo => ?_
  refine Co.throws_bind (readRepo_throws _ _ _) fun p => ?_
  split <;> simp

@[simp] theorem loadSession_throws (sessionid : String) :
    (loadSession ctx sessionid).Throws Exn.Harmless := by
  refine Co.throws_bind (asyncLoad_throws _ _) fun row => ?_
  split <;> simp

@[simp] theorem updateLifetime_throws (sessionid : String) :
    (updateLifetime ctx sessionid).Throws Exn.Harmless := by
  refine Co.throws_bind throws_get fun s => Co.throws_bind (asyncLoad_throws _ _) fun row => ?_
  split <;> simp

/-! ## Users -/

@[simp] theorem loadUserByPhone_throws (a : Nat) (tel : String) :
    (loadUserByPhone ctx a tel).Throws Exn.Harmless := tx_throws _ _ _

@[simp] theorem addUser_throws (u : CmallUser) : (addUser ctx u).Throws Exn.Harmless :=
  tx_throws _ _ _

@[simp] theorem updateUser_throws (a uid : Nat) (f : CmallUser → CmallUser) :
    (updateUser ctx a uid f).Throws Exn.Harmless := tx_throws _ _ _

@[simp] theorem handleUserLogin_throws (a : Nat) (tel : String) :
    (handleUserLogin ctx a tel).Throws Exn.Harmless := by
  simp only [handleUserLogin, loginMerchant, loginAdmin, loginNewUser]
  repeat' first
    | with_reducible refine Co.throws_bind ?_ fun _ => ?_
    | simp; done
    | split

@[simp] theorem sendVerifyCode_throws (tel : String) :
    (sendVerifyCode ctx tel).Throws Exn.Harmless := by
  simp only [sendVerifyCode]
  repeat' first
    | with_reducible refine Co.throws_bind ?_ fun _ => ?_
    | simp

@[simp] theorem verifyVerifyCode_throws (code cookie : String) :
    (verifyVerifyCode code cookie).Throws Exn.Harmless :=
  Co.throws_bind throws_get fun _ => throws_pure _

@[simp] theorem kvGet_throws (uid : Nat) (keyValue : String) (pub : Bool) :
    (kvGet ctx uid keyValue pub).Throws Exn.Harmless := by
  refine Co.throws_bind (asyncLoad_throws _ _) fun kv => ?_
  split <;> simp

theorem handleJsonrpcUserApi_throws {method : ReqMethod} {params : JsonObject} {login : Bool}
    (hapi : method.api = .user login) :
    (handleJsonrpcUserApi cfg ctx method params).Throws Exn.Harmless := by
  refine Co.throws_bind thisSession_harmless fun a => ?_
  cases method <;> first | (cases hapi; done) | skip
  all_goals
    simp only [userPrelogin, userLogin, userFastlogin, userLogout, userApplyMerchant,
      userAddRecipientAddress, userEraseReceiptAddress, user3rdKvPut, user3rdKvGet]
    repeat' first
      | with_reducible refine Co.throws_bind ?_ fun _ => ?_
      | simp; done
      | split

/-! ## Carts and favourites -/

@[simp] theorem fillMerchantName_throws {merchantId : α → Nat} {setName : α → String → α}
    (items : List α) (cache : List (Nat × CmallMerchant)) (vanished : List Nat) :
    (fillMerchantName ctx merchantId setName items cache vanished).Throws Exn.Harmless := by
  induction items generalizing cache vanished with
  | nil => exact throws_ret _
  | cons cc items ih =>
    simp only [fillMerchantName]
    repeat' first
      | with_reducible refine Co.throws_bind ?_ fun _ => ?_
      | simp [ih]; done
      | split

@[simp] theorem eraseVanished_throws (erase : Db → Nat → Db) (mids : List Nat) :
    (eraseVanished ctx erase mids).Throws Exn.Harmless := by
  induction mids with
  | nil => exact throws_ret _
  | cons mid rest ih => exact Co.throws_bind (asyncWrite_throws _ _ _) fun _ => ih

@[simp] theorem notifyCartChanged_throws (a : Nat) :
    (notifyCartChanged ctx a).Throws Exn.Harmless := by
  refine Co.throws_bind (thisUser_harmless a) fun u => Co.throws_bind thisSession_harmless fun b => ?_
  exact Co.throws_bind (getSession_throws b) fun c => sendNotifyMessage_throws _ _

@[simp] theorem cartOwned_throws (a itemId : Nat) :
    (cartOwned ctx a itemId).Throws Exn.Harmless := by
  refine Co.throws_bind (asyncLoad_throws _ _) fun item => ?_
  split
  · exact harmless_system _
  · refine Co.throws_bind (thisUser_harmless a) fun u => ?_
    split <;> simp

@[simp] theorem storeCart_throws (found : Option CmallCart) (item : CmallCart) :
    (storeCart ctx found item).Throws Exn.Harmless := tx_throws _ _ _

theorem handleJsonrpcCartApi_throws {method : ReqMethod} {params : JsonObject}
    (hapi : method.api = .cart) :
    (handleJsonrpcCartApi ctx method params).Throws Exn.Harmless := by
  refine Co.throws_bind thisSession_harmless fun a => ?_
  cases method <;> first | (cases hapi; done) | skip
  all_goals
    simp only [cartAdd, cartAddTo, cartMod, cartDel, cartList]
    repeat' first
      | with_reducible refine Co.throws_bind ?_ fun _ => ?_
      | simp; done
      | split

theorem handleJsonrpcFavApi_throws {method : ReqMethod} {params : JsonObject}
    (hapi : method.api = .fav) :
    (handleJsonrpcFavApi ctx method params).Throws Exn.Harmless := by
  refine Co.throws_bind thisSession_harmless fun a => ?_
  cases method <;> first | (cases hapi; done) | skip
  all_goals
    simp only [favAdd, favDel, favList]
    repeat' first
      | with_reducible refine Co.throws_bind ?_ fun _ => ?_
      | simp; done
      | split

/-! ## Orders -/

@[simp] theorem storeOrder_throws (change : OrderChange) (row : CmallOrder)
    (stamp : PTime → CmallOrder → CmallOrder) :
    (storeOrder ctx change row stamp).Throws Exn.Harmless := tx_throws _ _ _

@[simp] theorem loadOneOrder_throws (who : Actor) (orderid : String) :
    (loadOneOrder ctx who orderid).Throws Exn.Harmless := by
  refine Co.throws_bind (tx_throws _ _ _) fun orders => ?_
  split <;> simp

@[simp] theorem orderMarkPayed_throws (order : CmallOrder) (seller : M Nat)
    (hs : seller.Throws Exn.Harmless) : (orderMarkPayed ctx order seller).Throws Exn.Harmless := by
  simp only [orderMarkPayed, asyncUpdateOrder]
  repeat' first
    | with_reducible refine Co.throws_bind ?_ fun _ => ?_
    | simp [hs]; done
    | split

@[simp] theorem orderCheckPayment_throws (order : CmallOrder) (seller : M Nat)
    (hs : seller.Throws Exn.Harmless) :
    (orderCheckPayment ctx order seller).Throws Exn.Harmless := by
  simp only [orderCheckPayment]
  repeat' first
    | with_reducible refine Co.throws_bind ?_ fun _ => ?_
    | simp [hs]; done
    | split

@[simp] theorem handleOrderWxCallback_throws (msg : NotifyMessage) :
    (handleOrderWxCallback ctx msg).Throws Exn.Harmless := by
  simp only [handleOrderWxCallback, asyncUpdateOrder]
  repeat' first
    | with_reducible refine Co.throws_bind ?_ fun _ => ?_
    | simp; done
    | split

@[simp] theorem orderGoodsList_throws (goods : List Json) (d : OrderDraft) :
    (orderGoodsList cfg ctx goods d).Throws Exn.Harmless := by
  induction goods generalizing d with
  | nil => exact throws_ret _
  | cons v goods ih =>
    simp only [orderGoodsList, orderGoods, cachedMerchant]
    repeat' first
      | with_reducible refine Co.throws_bind ?_ fun _ => ?_
      | simp [ih]; done
      | split

@[simp] theorem listOrders_throws (params : JsonObject) (mine : CmallOrder → Bool) :
    (listOrders ctx params mine).Throws Exn.Harmless := by
  simp only [listOrders]
  repeat' first
    | with_reducible refine Co.throws_bind ?_ fun _ => ?_
    | simp

@[simp] theorem loadOrderToPay_throws (a : Nat) (params : JsonObject) :
    (loadOrderToPay ctx a params).Throws Exn.Harmless := by
  refine Co.throws_bind (thisUser_harmless a) fun u => ?_
  refine Co.throws_bind (asyncLoadOrder_throws _ _ _) fun found => ?_
  split <;> simp

/-! ## Goods -/

@[simp] theorem listIndexGoods_throws : (listIndexGoods ctx).Throws Exn.Harmless := by
  have hloop : ∀ cache rows, (indexGoodsProducts ctx cache rows).Throws Exn.Harmless := by
    intro cache rows
    induction rows with
    | nil => exact throws_ret _
    | cons g rows ih =>
      refine Co.throws_bind (Co.throws_tryCatch fun _ => throws_ret _) fun p => ?_
      exact Co.throws_bind ih fun _ => throws_ret _
  refine Co.throws_bind (asyncLoad_throws _ _) fun merchants => ?_
  exact Co.throws_bind (tx_throws _ _ _) fun rows => hloop _ _

@[simp] theorem searchProducts_throws (found : List (Nat × String))
    (cache : List (Nat × CmallMerchant)) :
    (searchProducts ctx found cache).Throws Exn.Harmless := by
  induction found generalizing cache with
  | nil => exact throws_ret _
  | cons g found ih =>
    simp only [searchProducts]
    repeat' first
      | with_reducible refine Co.throws_bind ?_ fun _ => ?_
      | simp [ih]; done
      | split

theorem handleJsonrpcGoodsApi_throws {method : ReqMethod} {params : JsonObject}
    (hapi : method.api = .goods) :
    (handleJsonrpcGoodsApi ctx method params).Throws Exn.Harmless := by
  cases method <;> first | (cases hapi; done) | skip
  all_goals
    simp only [handleJsonrpcGoodsApi, goodsList, goodsDetail, goodsFile]
    repeat' first
      | with_reducible refine Co.throws_bind ?_ fun _ => ?_
      | simp; done
      | split

theorem handleJsonrpcMiscApi_throws {method : ReqMethod} {params : JsonObject}
    (hapi : method.api = .misc) :
    (handleJsonrpcMiscApi cfg ctx method params).Throws Exn.Harmless := by
  cases method <;> first | (cases hapi; done) | skip
  simp only [handleJsonrpcMiscApi]
  repeat' first
    | with_reducible refine Co.throws_bind ?_ fun _ => ?_
    | simp; done
    | split

/-! ## Merchants and administrators -/

@[simp] theorem modifyMerchantInfo_throws (a : Nat) (f : CmallMerchant → CmallMerchant) :
    (modifyMerchantInfo a f).Throws Exn.Harmless := throws_modify _

@[simp] theorem newNumeric_throws (text : String) :
    (newNumeric cfg text).Throws Exn.Harmless := by
  unfold newNumeric
  split
  · exact throws_ret _
  · split <;> simp

@[simp] theorem loadSoldOrder_throws (a : Nat) (params : JsonObject) :
    (loadSoldOrder ctx a params).Throws Exn.Harmless :=
  Co.throws_bind (thisUser_harmless a) fun _ => loadOneOrder_throws _ _

@[simp] theorem merchantEntry_throws : (merchantEntry ctx).Throws Exn.Harmless := by
  refine Co.throws_bind thisSession_harmless fun a => Co.throws_bind (thisUser_harmless a) fun _ => ?_
  exact Co.throws_bind (thisMerchant_harmless a) fun _ => throws_pure a

theorem handleJsonrpcMerchantApi_throws {method : ReqMethod} {params : JsonObject}
    (hapi : method.api = .merchant) :
    (handleJsonrpcMerchantApi cfg ctx method params).Throws Exn.Harmless := by
  have hs : ∀ a, (do return (← thisMerchant a).uid : M Nat).Throws Exn.Harmless := fun a =>
    Co.throws_bind (thisMerchant_harmless a) fun _ => throws_ret _
  refine Co.throws_bind merchantEntry_throws fun a => ?_
  cases method <;> first | (cases hapi; done) | skip
  all_goals
    simp only [merchantInfo, merchantSoldOrdersCheckPayment, merchantSoldOrdersMarkPayed,
      merchantAlterOrderPrice, merchantSoldOrdersAddKuaidi, merchantDeleteSoldOrders,
      merchantResetGiteaPassword, merchantCreateApptoken, merchantDeleteApptoken,
      merchantAlterName, asyncUpdateOrder, asyncSoftRemoveOrder]
    repeat' first
      | with_reducible refine Co.throws_bind ?_ fun _ => ?_
      | simp; done
      | exact orderCheckPayment_throws _ _ (hs a)
      | exact orderMarkPayed_throws _ _ (hs a)
      | split

@[simp] theorem asyncTransacton_throws (x : M α) : (asyncTransacton x).Throws Exn.Harmless :=
  Co.throws_tryCatch fun _ => harmless_std _

@[simp] theorem denyWaiting_throws (applyId : Nat) (reason : String) :
    (denyWaiting ctx applyId reason).Throws Exn.Harmless := by
  refine Co.throws_bind (asyncLoad_throws _ _) fun found => ?_
  split <;> simp

@[simp] theorem initUser_throws (uid : Nat) : (initUser ctx uid).Throws Exn.Harmless := by
  simp only [initUser, giteaCreate]
  repeat' first
    | with_reducible refine Co.throws_bind ?_ fun _ => ?_
    | simp; done
    | split

@[simp] theorem loadMerchantGit_throws (uid : Nat) :
    (loadMerchantGit ctx uid).Throws Exn.Harmless := by
  refine Co.throws_bind external_throws fun found => ?_
  split
  · exact throws_pure _
  · exact Co.throws_bind (throws_modify _) fun _ => throws_pure _

@[simp] theorem initMerchant_throws (applyId uid : Nat) :
    (initMerchant ctx applyId uid).Throws Exn.Harmless := by
  refine Co.throws_bind (initUser_throws uid) fun _ => ?_
  refine Co.throws_bind (loadMerchantGit_throws uid) fun _ => ?_
  exact Co.throws_bind (sendNotifyMessage_throws _ _) fun _ => throws_pure _

/-- `admin_set_index_goods` has its own condition. -/
theorem handleJsonrpcAdminApi_throws {method : ReqMethod} {params : JsonObject}
    (hapi : method.api = .admin ∨ method.api = .sudoCancel)
    (hlist : method = .adminSetIndexGoods →
      (liftExcept (Json.getArray params "list")).Throws Exn.Harmless) :
    (handleJsonrpcAdminApi ctx method params).Throws Exn.Harmless := by
  refine Co.throws_bind thisSession_harmless fun a => ?_
  cases method <;> first | (rcases hapi with h | h <;> cases h; done) | skip
  all_goals
    simp only [adminUserBan, adminApproveMerchant, approveTransaction, adminDenyApplicant,
      adminSetMerchantStates, adminSetMerchantWxpaySubmchid, adminSudo, adminSudoTo,
      adminSudoCancel, adminSetIndexGoods, adminAddIndexGoods, adminRemoveIndexGoods]
    repeat' first
      | with_reducible refine Co.throws_bind ?_ fun _ => ?_
      | exact hlist rfl
      | simp; done
      | split

/-! ## Sessions -/

@[simp] theorem allocaSessionid_throws : (allocaSessionid ctx).Throws Exn.Harmless := by
  refine Co.throws_bind freshSession_throws fun c => ?_
  exact Co.throws_bind (newSession_throws c) fun _ => saveSession_harmless

@[simp] theorem loadUserInfo_throws : (loadUserInfo ctx).Throws Exn.Harmless := by
  simp only [loadUserInfo, recoverMerchant, recoverAdmin, recoverSudo]
  repeat' first
    | with_reducible refine Co.throws_bind ?_ fun _ => ?_
    | simp; done
    | simp [sessionParts]; done
    | split

@[simp] theorem restoreSession_throws (sessionid : String) :
    (restoreSession ctx sessionid).Throws Exn.Harmless :=
  Co.throws_bind (loadSession_throws sessionid) fun c => newSession_throws c

@[simp] theorem sessionExists_throws (sessionid : String) :
    (sessionExists ctx sessionid).Throws Exn.Harmless := asyncLoad_throws _ _

@[simp] theorem apiTokenUid_throws (apiToken : String) :
    (apiTokenUid ctx apiToken).Throws Exn.Harmless := by
  simp only [apiTokenUid]
  repeat' first
    | with_reducible refine Co.throws_bind ?_ fun _ => ?_
    | simp; done
    | split

theorem recoverSession_throws (params : JsonObject) :
    (recoverSession ctx params).Throws Exn.Harmless := by
  simp only [recoverSession, recoverBySessionid, recoverByApiToken, recoverMerchant, recoverAdmin]
  repeat' first
    | with_reducible refine Co.throws_bind ?_ fun _ => ?_
    | simp; done
    | split

@[simp] theorem recoverByCookie_throws (cookies : List String) :
    (recoverByCookie ctx cookies).Throws Exn.Harmless := by
  induction cookies with
  | nil => exact throws_ret _
  | cons sessionid rest ih =>
    simp only [recoverByCookie]
    repeat' first
      | with_reducible refine Co.throws_bind ?_ fun _ => ?_
      | simp [ih]
      | split

end Operations

end Cmall
