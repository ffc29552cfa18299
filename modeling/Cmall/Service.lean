import Cmall.Coroutine.Triple
import Cmall.Json
import Cmall.Schema
import Mathlib.Algebra.Group.Int.Defs
import Mathlib.Algebra.Group.Nat.Defs
import Mathlib.Data.List.Sort
import Mathlib.Data.Nat.Pairing

/-!
The memory of the service and the operations its handlers are made of: the
session objects of `persist_session.hpp`, the asynchronous database layer of
`database.hpp`, the verification codes of `verifycode.cpp` and the stored
sessions of `persist_session.cpp`.

A handler is a coroutine on this memory. A database operation is handed to a
thread pool, so it has two suspension points: the transaction itself runs at
some later time, and the handler continues at a still later one.
-/

namespace Cmall
open Coroutine

/-! ## Products of a merchant repository -/

structure ProductOptionSelect where
  selectionName : String
  selectionPrice : CppNumeric
  deriving DecidableEq, Repr

structure ProductOption where
  optionTitle : String
  selections : List ProductOptionSelect
  deriving DecidableEq, Repr

structure Product where
  productId : String
  productTitle : String
  productDescription : String
  productPrice : String
  kuaidifei : String
  gitVersion : String
  merchantId : Nat
  merchantName : String
  options : List ProductOption
  deriving DecidableEq, Repr

/-- What the service reads from a merchant's git repository. -/
structure Repo where
  getProduct : String → Except Errc Product
  getFileContent : String → Except Errc String
  getSupportedPayment : List String
  getProducts : List Product

/-! ## Sessions and connections -/

structure ClientSession where
  sessionId : String := ""
  userInfo : Option CmallUser := none
  merchantInfo : Option CmallMerchant := none
  adminInfo : Option Administrators := none
  isAdmin : Bool := false
  isMerchant : Bool := false
  verifyTelephone : String := ""
  verifySessionCookie : Option String := none
  sudoMode : Bool := false
  originalUser : Option Administrators := none
  deriving DecidableEq, Repr

/-- `client_session::clear`. -/
def ClientSession.clear (s : ClientSession) : ClientSession :=
  { s with
    userInfo := none
    merchantInfo := none
    adminInfo := none
    isAdmin := false
    isMerchant := false
    verifyTelephone := ""
    verifySessionCookie := none }

/-- `sessionInfo` is the `shared_ptr` to the session object: its address. -/
structure Connection where
  sessionInfo : Option Nat := none
  xRealIp : String := ""
  baseurl : String := ""
  deriving DecidableEq, Repr

/-- Who a session is for: the columns of a stored session that say so. -/
structure Identity where
  uid : Option Nat
  sudoMode : Bool
  originalUser : Option Nat
  deriving DecidableEq, Repr

def ClientSession.identity (c : ClientSession) : Identity :=
  ⟨c.userInfo.map CmallUser.uid, c.sudoMode, c.originalUser.map Administrators.uid⟩

def CmallSession.identity (row : CmallSession) : Identity :=
  ⟨row.cacheContent.uid, row.cacheContent.sudoMode, row.cacheContent.originalUser⟩

/-- The operations that change the identity of a session. -/
inductive IdentityOp where
  | login
  | logout
  /-- `admin_sudo`, asked for by the user `actor`. -/
  | sudo (actor : Nat)
  | sudoCancel
  deriving DecidableEq, Repr

/-! ## WeChat notifications -/

inductive PayStatus where
  | success | refund | notpay | closed | revoked | userpaying | payerror | queryFailed
  deriving DecidableEq, Repr

structure NotifyMessage where
  outTradeNo : String
  tradeState : PayStatus
  orderAmount : CppNumeric
  payedAmount : CppNumeric
  successTime : PTime
  deriving DecidableEq, Repr

/-! ## Requests and replies -/

/-- `req_method`. -/
inductive ReqMethod where
  | recoverSession | ping
  | userFastlogin | userPrelogin | userLogin | userLogout | userIslogin | userInfo
  | userApplyMerchant | userApplyInfo | userAddFace | userSearchByFace
  | userListRecipientAddress | userAddRecipientAddress | userModifyReceiptAddress
  | userEraseReceiptAddress | userGetWxOpenid
  | user3rdKvPut | user3rdKvGet | user3rdKvPutPubkey | user3rdKvGetPubkey
  | cartAdd | cartMod | cartDel | cartList
  | favAdd | favDel | favList
  | orderCreateCart | orderCreateDirect | orderDetail | orderList | orderClose
  | orderGetPaymethods | orderGetPayUrl | orderCheckPayment | orderGetWxpayPrepayId
  | orderGetWxpayObject
  | searchGoods | goodsList | goodsDetail | goodsMarkdown | goodsMerchantIndex
  | merchantInfo | merchantGetSoldOrderDetail | merchantSoldOrdersCheckPayment
  | merchantSoldOrdersMarkPayed | merchantAlterOrderPrice | merchantGoodsList
  | merchantKeywordsList | merchantListSoldOrders | merchantSoldOrdersAddKuaidi
  | merchantDeleteSoldOrders | merchantGetGiteaPassword | merchantResetGiteaPassword
  | merchantCreateApptoken | merchantListApptoken | merchantDeleteApptoken
  | merchantAlterName | merchantUserKvGet
  | adminUserDetail | adminUserList | adminUserBan | adminListApplicants
  | adminApproveMerchant | adminDenyApplicant | adminListMerchants | adminDisableMerchants
  | adminReenableMerchants | adminSetMerchantWxpaySubmchid | adminSetWxpayDetail
  | adminSudo | adminSudoCancel | adminListIndexGoods | adminSetIndexGoods
  | adminAddIndexGoods | adminRemoveIndexGoods | adminSetProfitSharing
  | wxDirectPay
  deriving DecidableEq, Repr

/-- `reply_message`, before `conversion.cpp` turns the rows in it into JSON. -/
inductive Reply where
  | empty
  | null
  | bool (b : Bool)
  | text (s : String)
  | texts (l : List String)
  | login (isMerchant isAdmin isSudo : Bool)
  | loginFailed
  | logout
  | session (sessionId : String) (isAdmin isMerchant isLogin isSudo : Bool)
  | sudoResult (isMerchant isAdmin : Bool)
  | user (u : CmallUser)
  | users (l : List CmallUser)
  | merchant (m : CmallMerchant)
  | merchants (l : List CmallMerchant)
  | applys (l : List CmallApplyForMechant)
  | recipients (l : List Recipient)
  | carts (l : List CmallCart)
  | favs (l : List CmallUserFav)
  | orderid (oid : String)
  | order (o : CmallOrder)
  | orders (l : List CmallOrder) (count : Nat)
  | url (uri : String)
  | products (l : List Product)
  deriving DecidableEq, Repr

/-! ## Memory, inputs and suspension points -/

/-- On whose behalf a query on orders is made. -/
inductive Actor where
  | buyer (uid : Nat)
  | seller (uid : Nat)
  | wechat
  deriving DecidableEq, Repr

/-- What the whole row of an order is written back for. -/
inductive OrderChange where
  | alterPrice (price kuaidifei : Option CppNumeric)
  | addKuaidi (info : KuaidiInfo)
  | markPayed (at_ : PTime)
  | wxPayed (at_ : PTime)
  | delete (payedAt : PTime)
  deriving DecidableEq, Repr

/-- What can be observed of a run besides the memory: effects on the outside
world and the transactions whose order the properties speak about. The first
argument is the number of the request. -/
inductive Event where
  /-- `sendsms_verify` delivered `code` to `tel`; the code is kept under `cookie`. -/
  | smsSent (r : Nat) (tel cookie code : String)
  /-- `user_login` accepted `code` for `cookie`. -/
  | codeAccepted (r : Nat) (cookie code : String)
  /-- A login made `u` the user of the session at address `a`. -/
  | identified (r : Nat) (a : Nat) (u : CmallUser)
  /-- A look-up by phone found no user. -/
  | userMissed (r : Nat) (tel : String)
  | userAdded (r : Nat) (tel : String)
  /-- `user_logout` cleared the session at address `a`. -/
  | loggedOut (r : Nat) (a : Nat)
  /-- `admin_sudo` gave the session at address `a` the user `uid`. -/
  | sudoed (r : Nat) (a uid : Nat)
  /-- The operation left the session at address `a`, which has the id `key`, with
  this identity. -/
  | became (r : Nat) (a : Nat) (op : IdentityOp) (key : String) (identity : Identity)
  /-- `persist_session::save` wrote the row. -/
  | sessionSaved (r : Nat) (row : CmallSession)
  | ordersLoaded (r : Nat) (who : Actor) (rows : List CmallOrder)
  | orderStored (r : Nat) (change : OrderChange) (row : CmallOrder)
  /-- `checkpay.js` printed `out` for the order. -/
  | checkpay (r : Nat) (oid out : String)
  /-- `orderstatus.js` was started for the order. -/
  | orderstatus (r : Nat) (oid : String)
  /-- `getpayurl.js` was run for the order. -/
  | payurl (r : Nat) (oid : String)
  /-- A prepay of `total` cents was requested from WeChat. -/
  | prepay (r : Nat) (oid : String) (total : Int)
  /-- A prepay of `total` cents was requested for no order at all. -/
  | directPay (r : Nat) (oid : String) (total : Int)
  /-- `cart_add` wrote the row, an old one or a new one. -/
  | cartStored (r : Nat) (item : CmallCart)
  /-- Gitea has created the account of the merchant. -/
  | giteaUser (r : Nat) (uid : Nat)
  /-- Gitea has created the repository of the merchant. -/
  | giteaRepo (r : Nat) (uid : Nat)
  /-- `send_notify_message` wrote `msg` to these connections. -/
  | notified (r : Nat) (conns : List Nat) (msg : String)
  /-- The request was answered. -/
  | replied (r : Nat) (reply : Reply)
  deriving DecidableEq, Repr

structure Mem where
  db : Db := {}
  /-- The `client_session` objects; addresses from `heapTop` on are unused. -/
  heap : Nat → ClientSession := fun _ => {}
  heapTop : Nat := 0
  conn : Nat → Connection := fun _ => {}
  /-- `verify_code_stor`: cookie and code. -/
  codes : List (String × String) := []
  /-- How many uuids have been generated; they are all different. -/
  uuids : Nat := 0
  tempApiToken : List String := []
  /-- `active_users`: connection id and the uid it is filed under. -/
  activeUsers : List (Nat × Nat) := []
  /-- `check_admin_flag`: `none` until the first registration of this process,
  then the user the detached administrator check is for, once. -/
  checkAdmin : Option (Option CmallUser) := none
  repos : Nat → Option Repo := fun _ => none
  /-- The answers of the search service: merchant id and goods id. -/
  searchGoods : List String → List (Nat × String) := fun _ => []
  clock : PTime := 0
  trace : List Event := []

/-- What a coroutine is resumed with: whether the database (after its retries)
did the operation, in which order it returned the rows (by their ids) that an
`order by` leaves equal, and what an outside program or service answered (`none`:
the call ended in an exception). -/
structure Input where
  dbOk : Bool := true
  ties : List Nat := []
  answer : Option String := none
  deriving DecidableEq, Repr

/-- The connection a request came in on and the number of the request. -/
structure Ctx where
  conn : Nat
  req : Nat
  deriving DecidableEq, Repr

/-- The places where a handler can be suspended, with the local values that
matter for what it does next. -/
inductive Spot where
  /-- The request (a JSON-RPC call of the method) is about to begin. -/
  | start (method : Option ReqMethod)
  /-- A transaction is about to run on the pool. -/
  | tx
  /-- The transaction is done, the handler is about to continue. -/
  | back
  /-- An outside program or service is about to answer. -/
  | external
  /-- `handle_user_login` for the session at `a` continues after the look-up. -/
  | lookedUp (a : Nat) (tel : String) (found : Option CmallUser)
  /-- The row of a new user is about to be inserted. -/
  | addUser (tel : String)
  /-- `handle_user_login` continues after the insertion. -/
  | addedUser
  /-- The handler continues with a row loaded for `uid` that it will write into
  the session at `a`. -/
  | role (a uid : Nat)
  /-- The same, into the session that the connection refers to then. -/
  | connRole (uid : Nat)
  /-- `load_user_info` continues after it found no row for the session's user. -/
  | userVanished
  /-- The row of `uid` is about to be written over the user of the session at `a`. -/
  | reload (a uid : Nat)
  /-- `admin_sudo`, asked for by `actor`, is about to change the session at `a`. -/
  | sudo (a actor : Nat)
  /-- `admin_sudo_cancel` continues; it looked `uid` up in the merchant table. -/
  | sudoCancel (a uid : Nat) (found : Option CmallMerchant)
  /-- `load_user_info` continues with the row of the original user `uid`. -/
  | original (uid : Nat)
  /-- The row built from the session at `a` is about to be stored. -/
  | save (a : Nat) (row : CmallSession)
  /-- The row has been stored. -/
  | saved
  /-- `persist_session::load` continues with the row it found. -/
  | restore (found : Option CmallSession)
  /-- The row that `update_lifetime` read is about to be written back. -/
  | refresh (row : CmallSession)
  /-- The whole row is about to be written back. -/
  | storeOrder (change : OrderChange) (row : CmallOrder)
  /-- The order `orderid` of the buyer `uid` is about to be loaded, to be paid. -/
  | loadToPay (uid : Nat) (orderid : String)
  /-- `get_prepay_id` is about to be called for the row. -/
  | prepay (row : CmallOrder)
  /-- `cart_add` found this row, or none, and is about to write the item. -/
  | storeCart (found : Option CmallCart) (item : CmallCart)
  /-- The application is about to be approved; this is the row that was found waiting. -/
  | approve (row : CmallApplyForMechant)
  /-- The same, about to be denied. -/
  | deny (row : CmallApplyForMechant)
  /-- Every row of the merchant is about to be erased. -/
  | eraseVanished (merchantId : Nat)
  /-- The creation of an order continues after it looked the merchant of an item up. -/
  | foundMerchant (merchantId : Nat) (found : Option CmallMerchant)
  deriving DecidableEq, Repr

structure Point where
  ctx : Ctx
  spot : Spot
  deriving DecidableEq, Repr

abbrev M := Co Mem Input Point Exn

/-! ## Parameters that stand for code outside the repository -/

structure Config where
  /-- `cpp_numeric(std::string)`; `none` when the constructor throws. -/
  numeric : String → Option CppNumeric
  /-- The app ids `wxpay_services` is configured for. -/
  wxpayAppids : List String

/-! ## Memory access -/

def emit (e : Event) : M Unit := Co.modify fun s => { s with trace := e :: s.trace }

/-- Record what the operation has made of the session at `a`. -/
def became (ctx : Ctx) (a : Nat) (op : IdentityOp) : M Unit :=
  Co.modify fun s => { s with
    trace := .became ctx.req a op (s.heap a).sessionId (s.heap a).identity :: s.trace }

def liftExcept {α : Type} : Except Exn α → M α
  | .ok a => .ret a
  | .error e => .fail e

/-- The conversion of an `int64_t` to `uint64_t`. -/
def toUint64 (i : Int) : Nat := (i % 2 ^ 64).toNat

/-- `boost::posix_time::second_clock::local_time()`. -/
def localTime : M PTime := do return (← Co.get).clock

/-- The `n`-th uuid, drawn by request `r`. -/
def uuidOf (r n : Nat) : String := "uuid" ++ Nat.repr (Nat.pair r n)

/-- Uuids are different for different requests and different draws. -/
theorem uuidOf_inj {r n r' n' : Nat} (h : uuidOf r n = uuidOf r' n') : r = r' ∧ n = n' := by
  have hdigits : Nat.toDigits 10 (Nat.pair r n) = Nat.toDigits 10 (Nat.pair r' n') := by
    have hrepr : Nat.repr (Nat.pair r n) = Nat.repr (Nat.pair r' n') := by simpa [uuidOf] using h
    simpa using congrArg String.toList hrepr
  have hpair := congrArg (fun l => Nat.ofDigitChars 10 l 0) hdigits
  simp only [Nat.ofDigitChars_toDigits (show 1 < 10 by decide) (show 10 ≤ 10 by decide)] at hpair
  exact Nat.pair_eq_pair.mp hpair

def genUuid (ctx : Ctx) : M String :=
  Co.modifyGet fun s => (uuidOf ctx.req s.uuids, { s with uuids := s.uuids + 1 })

/-- Dereference `this_client.session_info`. -/
def thisSession (ctx : Ctx) : M Nat := do
  match ((← Co.get).conn ctx.conn).sessionInfo with
  | some a => return a
  | none => Co.throw (.undefined "session_info")

def getSession (a : Nat) : M ClientSession := do return (← Co.get).heap a

def Mem.setSession (s : Mem) (a : Nat) (c : ClientSession) : Mem :=
  { s with heap := fun b => if b = a then c else s.heap b }

def modifySession (a : Nat) (f : ClientSession → ClientSession) : M Unit :=
  Co.modify fun s => s.setSession a (f (s.heap a))

/-- Dereference `session_info.user_info`. -/
def thisUser (a : Nat) : M CmallUser := do
  match (← getSession a).userInfo with
  | some u => return u
  | none => Co.throw (.undefined "user_info")

def setConnection (ctx : Ctx) (f : Connection → Connection) : M Unit :=
  Co.modify fun s =>
    { s with conn := fun c => if c = ctx.conn then f (s.conn c) else s.conn c }

/-- `std::make_shared<client_session>(...)` stored in `this_client.session_info`. -/
def newSession (ctx : Ctx) (c : ClientSession) : M Unit :=
  Co.modify fun s =>
    { s with
      heap := fun b => if b = s.heapTop then c else s.heap b
      heapTop := s.heapTop + 1
      conn := fun d => if d = ctx.conn then { s.conn d with sessionInfo := some s.heapTop }
        else s.conn d }

/-- The constructor of `client_session` draws a fresh session id. -/
def freshSession (ctx : Ctx) : M ClientSession := do return { sessionId := ← genUuid ctx }

/-- `active_users.push_back`: nothing happens when the connection is filed already. -/
def pushActive (ctx : Ctx) : M Unit := do
  let u ← thisUser (← thisSession ctx)
  Co.modify fun s =>
    if s.activeUsers.any (fun e => e.1 = ctx.conn) then s
    else { s with activeUsers := s.activeUsers ++ [(ctx.conn, u.uid)] }

def eraseActive (ctx : Ctx) : M Unit :=
  Co.modify fun s => { s with activeUsers := s.activeUsers.filter fun e => ¬ e.1 = ctx.conn }

/-! ## The database layer -/

/-- One operation of `cmall_database` on the thread pool. `f` is the transaction;
`none` when it throws, in which case `f` leaves the tables as they are. An error
of the database or of the transaction reaches the handler as
`internal_server_error`. -/
def tx {α : Type} (ctx : Ctx) (spot : Spot) (f : Input → Mem → Option α × Mem)
    (after : α → Spot) : M α := do
  let i ← Co.suspend ⟨ctx, spot⟩
  if i.dbOk then
    match ← Co.modifyGet (f i) with
    | some a =>
      let _ ← Co.suspend ⟨ctx, after a⟩
      return a
    | none =>
      let _ ← Co.suspend ⟨ctx, .back⟩
      Co.throw (.system .internalServerError)
  else
    let _ ← Co.suspend ⟨ctx, .back⟩
    Co.throw (.system .internalServerError)

/-- `async_load` in its forms: a transaction that only reads. -/
def asyncLoad {α : Type} (ctx : Ctx) (f : Db → α) (after : α → Spot := fun _ => .back) : M α :=
  tx ctx .tx (fun _ s => (some (f s.db), s)) after

/-- `order by created_at desc limit n offset m`; `none` where the server rejects
the numbers. Rows of the same time come in the order of `ties`. -/
def pageOf {α : Type} (id : α → Nat) (createdAt : α → PTime) (ties : List Nat)
    (pageSize offset : Int) (rows : List α) : Option (List α) :=
  if pageSize < 0 ∨ offset < 0 then none
  else
    let before := fun x y => createdAt y < createdAt x ∨
      createdAt x = createdAt y ∧ ties.idxOf (id x) ≤ ties.idxOf (id y)
    some (((rows.insertionSort before).drop offset.toNat).take pageSize.toNat)

/-- `async_load` of one page of a query; `page * page_size` is taken in 64 bits. -/
def asyncLoadPage {α : Type} (ctx : Ctx) (id : α → Nat) (createdAt : α → PTime)
    (page pageSize : Int) (f : Db → List α) : M (List α) :=
  tx ctx .tx (fun i s =>
    (pageOf id createdAt i.ties pageSize (Int.bmod (page * pageSize) (2 ^ 64)) (f s.db), s))
    (fun _ => .back)

/-- A transaction that writes the tables; `none` when it throws. -/
def asyncWrite {α : Type} (ctx : Ctx) (f : Mem → Option (α × Db)) (spot : Spot := .tx)
    (after : α → Spot := fun _ => .back) : M α :=
  tx ctx spot (fun _ s => match f s with
    | some (a, db) => (some a, { s with db := db })
    | none => (none, s)) after

/-- `async_load<cmall_user>(active_phone == tel, user)`. -/
def Db.userByPhone (db : Db) (tel : String) : Option CmallUser :=
  Table.queryOne db.users fun u => u.activePhone = tel

/-- Wait for an outside program or service; an exception ends the handler. -/
def external (ctx : Ctx) : M String := do
  match (← Co.suspend ⟨ctx, .external⟩).answer with
  | some out => return out
  | none => Co.throw (.std "external")

/-- `send_notify_message`: every active connection filed under `uid`, the
excluded one too. -/
def sendNotifyMessage (ctx : Ctx) (uid : Nat) (msg : String) : M Unit := do
  let conns := ((← Co.get).activeUsers.filter fun e => e.2 = uid).map Prod.fst
  emit (.notified ctx.req conns msg)
  let _ ← Co.suspend ⟨ctx, .external⟩

/-! ## Merchant repositories -/

/-- `get_merchant_git_repo(uid)`: throws without a repository. -/
def getMerchantGitRepo (merchantId : Nat) : M Repo := do
  match (← Co.get).repos merchantId with
  | some repo => return repo
  | none => Co.throw (.system .merchcantGitrepoNotfound)

/-- A read on the repository's own executor; what it finds is the content then. -/
def readRepo {α : Type} (ctx : Ctx) (merchantId : Nat) (repo : Repo) (f : Repo → α) : M α := do
  let _ ← Co.suspend ⟨ctx, .external⟩
  return f (((← Co.get).repos merchantId).getD repo)

/-- The text of a script; empty when it cannot be read. -/
def scriptContent : Except Errc String → String
  | .ok content => content
  | .error _ => ""

/-- `get_product(goods_id, merchant_name, baseurl)`. -/
def getProduct (ctx : Ctx) (merchantId : Nat) (goodsId merchantName : String) : M Product := do
  let repo ← getMerchantGitRepo merchantId
  match ← readRepo ctx merchantId repo fun repo => repo.getProduct goodsId with
  | .ok p => return { p with merchantName := merchantName }
  | .error e => Co.throw (.system e)

/-! ## Verification codes -/

/-- `boost::algorithm::trim_right_if(s, is_any_of(set))`. -/
def trimRightIf (set : List Char) (s : String) : String :=
  String.ofList ((s.toList.reverse.dropWhile fun c => c ∈ set).reverse)

/-- `timedmap::put` inserts into an index that is unique in the key. -/
def Mem.putCode (s : Mem) (cookie code : String) : Mem :=
  if s.codes.any (fun e => e.1 = cookie) then s
  else { s with codes := s.codes ++ [(cookie, code)] }

/-- `timedmap::get`. -/
def Mem.getCode (s : Mem) (cookie : String) : Option String :=
  (s.codes.find? fun e => e.1 = cookie).map Prod.snd

/-- `verifycode::send_verify_code`: the outside program prints the code it sent. -/
def sendVerifyCode (ctx : Ctx) (tel : String) : M String := do
  let code := trimRightIf [' ', '\n', '\r'] (← external ctx)
  let cookie ← genUuid ctx
  emit (.smsSent ctx.req tel cookie code)
  Co.modify fun s => s.putCode cookie code
  return cookie

/-- `verifycode::verify_verify_code` does not suspend. -/
def verifyVerifyCode (code cookie : String) : M Bool := do
  return (← Co.get).getCode cookie = some code

/-! ## Stored sessions -/

/-- The row `persist_session::save` builds. -/
def ClientSession.toRow (c : ClientSession) (ip : String) (now : PTime) : CmallSession :=
  { cacheKey := c.sessionId
    uid := c.userInfo.map CmallUser.uid
    cacheContent :=
      { uid := c.userInfo.map CmallUser.uid
        tel := c.verifyTelephone
        verifyCookie := c.verifySessionCookie.getD ""
        sudoMode := c.sudoMode
        originalUser := c.originalUser.map Administrators.uid }
    ipAddress := some ip
    createdAt := now
    updatedAt := now }

/-- `upset`: update the row with its old creation time, or persist it. -/
def Db.upsetSession (db : Db) (row : CmallSession) (now : PTime) : Db :=
  match db.findSession row.cacheKey with
  | some old =>
    let row := { row with updatedAt := now, createdAt := old.createdAt }
    { db with sessions := Table.update CmallSession.cacheKey db.sessions row }
  | none => { db with sessions := db.sessions ++ [row] }

/-- The row of an id after a save: the content that was saved, or the row from before. -/
theorem Db.findSession_upset {db : Db} {row found : CmallSession} {now : PTime} {S : String}
    (h : (db.upsetSession row now).findSession S = some found) :
    (row.cacheKey = S ∧ found.cacheContent = row.cacheContent) ∨
      (row.cacheKey ≠ S ∧ db.findSession S = some found) := by
  unfold Db.upsetSession at h
  split at h
  · rcases Table.find_update_cases h with ⟨hkey, rfl⟩ | h
    · exact .inl ⟨hkey, rfl⟩
    · exact .inr h
  · rename_i hnone
    by_cases hS : row.cacheKey = S
    · subst hS
      have hnone' : db.sessions.find? (fun x => x.cacheKey = row.cacheKey) = none := hnone
      have hrow : row = found := by simpa [Db.findSession, Table.find, hnone'] using h
      exact .inl ⟨rfl, by rw [hrow]⟩
    · exact .inr ⟨hS, by simpa [Db.findSession, Table.find, hS] using h⟩

/-- `persist_session::save` of the session the connection points to. -/
def saveSession (ctx : Ctx) : M Unit := do
  let a ← thisSession ctx
  let s ← Co.get
  let row := (s.heap a).toRow (s.conn ctx.conn).xRealIp s.clock
  tx ctx (.save a row)
    (fun _ s =>
      (some (), { s with
        db := s.db.upsetSession row s.clock
        trace := .sessionSaved ctx.req row :: s.trace }))
    (fun _ => .saved)

/-- The session object `persist_session::load` builds from a row. -/
def CmallSession.toSession (row : CmallSession) (sessionId : String) : ClientSession :=
  { sessionId := sessionId
    verifyTelephone := row.cacheContent.tel
    verifySessionCookie :=
      if row.cacheContent.verifyCookie = "" then none else some row.cacheContent.verifyCookie
    userInfo := row.cacheContent.uid.map fun uid => { uid := uid }
    sudoMode := row.cacheContent.sudoMode
    originalUser :=
      if row.cacheContent.sudoMode then
        row.cacheContent.originalUser.map fun uid => { uid := uid, user := none }
      else none }

/-- What is loaded depends on the content only. -/
theorem CmallSession.toSession_congr {row row' : CmallSession} {sessionId : String}
    (h : row.cacheContent = row'.cacheContent) : row.toSession sessionId = row'.toSession sessionId := by
  simp only [toSession, h]

/-- `persist_session::load`: without a row there is no JSON text to parse. -/
def loadSession (ctx : Ctx) (sessionId : String) : M ClientSession := do
  match ← asyncLoad ctx (fun db => db.findSession sessionId) .restore with
  | some row => return row.toSession sessionId
  | none => Co.throw (.std "syntax error")

/-- `persist_session::update_lifetime`: `update(query, updater)` selects the row and
then writes the whole of it back. Under `READ COMMITTED` other transactions can
commit in between. -/
def updateLifetime (ctx : Ctx) (sessionId : String) : M Unit := do
  let ip := ((← Co.get).conn ctx.conn).xRealIp
  match ← asyncLoad ctx fun db => db.findSession sessionId with
  | some row =>
    asyncWrite ctx (fun s =>
      let row := { row with updatedAt := s.clock, ipAddress := some ip }
      some ((), { s.db with sessions := Table.update CmallSession.cacheKey s.db.sessions row }))
      (.refresh row)
  | none => pure ()

end Cmall
