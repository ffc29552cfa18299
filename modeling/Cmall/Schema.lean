import Cmall.Table
import Mathlib.Data.Rat.Defs

/-!
The database schema of `db.hpp` and the tables of one database state. Columns
that no modelled function reads are left out. A member with `id auto` gets the
next value of its table's own sequence when it is persisted, whatever it held
in memory; sequence values are never reused.
-/

namespace Cmall

/-- `boost::posix_time::ptime` at one-second resolution. -/
abbrev PTime := Int

/-- `cpp_numeric`: decimals, kept exact. -/
abbrev CppNumeric := Rat

structure Recipient where
  name : String
  telephone : String
  address : String
  deriving DecidableEq, Repr

inductive UserState where
  | normal | disabled | banned
  deriving DecidableEq, Repr

structure CmallUser where
  uid : Nat := 0
  name : String := ""
  activePhone : String := ""
  recipients : List Recipient := []
  state : UserState := .normal
  createdAt : PTime := 0
  updatedAt : PTime := 0
  deriving DecidableEq, Repr

/-- A row of `administrators` as loaded: the pointer `user` is already resolved. -/
structure Administrators where
  uid : Nat := 0
  user : Option CmallUser := none
  deriving DecidableEq, Repr

/-- A row of `administrators` as stored: `user` is a foreign key. -/
structure AdministratorsRow where
  uid : Nat
  user : Option Nat
  deriving DecidableEq, Repr

inductive MerchantState where
  | normal | disabled | banned
  deriving DecidableEq, Repr

structure CmallApptoken where
  apptoken : String
  uid : Nat
  deriving DecidableEq, Repr

structure CmallMerchant where
  uid : Nat := 0
  name : String := ""
  state : MerchantState := .normal
  giteaPassword : Option String := none
  exinfoWxMchid : Option String := none
  createdAt : PTime := 0
  updatedAt : PTime := 0
  deletedAt : Option PTime := none
  deriving DecidableEq, Repr

structure GoodsSnapshot where
  merchantId : Nat
  goodsId : String
  name : String
  price : CppNumeric
  description : String
  goodVersionGit : String
  selection : String
  deriving DecidableEq, Repr

structure KuaidiInfo where
  kuaidihao : String
  kuaidigongsi : String
  deriving DecidableEq, Repr

structure CmallOrder where
  id : Nat := 0
  oid : String := ""
  buyer : Nat := 0
  seller : Nat := 0
  price : CppNumeric := 0
  payAmount : CppNumeric := 0
  kuaidifei : CppNumeric := 0
  recipient : List Recipient := []
  stage : Nat := 0
  payedAt : Option PTime := none
  closeAt : Option PTime := none
  boughtGoods : List GoodsSnapshot := []
  snapGitVersion : String := ""
  kuaidi : List KuaidiInfo := []
  createdAt : PTime := 0
  updatedAt : PTime := 0
  deletedAt : Option PTime := none
  deriving DecidableEq, Repr

structure CmallCart where
  id : Nat := 0
  uid : Nat := 0
  merchantId : Nat := 0
  merchantName : String := ""
  goodsId : String := ""
  selection : String := ""
  count : Nat := 0
  createdAt : PTime := 0
  updatedAt : PTime := 0
  deriving DecidableEq, Repr

structure CmallUserFav where
  id : Nat := 0
  uid : Nat := 0
  merchantId : Nat := 0
  merchantName : String := ""
  createdAt : PTime := 0
  updatedAt : PTime := 0
  deriving DecidableEq, Repr

inductive ApproveState where
  | waiting | approved | denied
  deriving DecidableEq, Repr

/-- `applicant` is the uid the pointer `applicant_` is stored as. -/
structure CmallApplyForMechant where
  id : Nat := 0
  applicant : Nat := 0
  seq : Option Nat := none
  state : ApproveState := .waiting
  ext : String := ""
  createdAt : PTime := 0
  updatedAt : PTime := 0
  deletedAt : Option PTime := none
  deriving DecidableEq, Repr

/-- Both key-value stores have this row; the primary key is the pair. -/
structure Cmall3rdKvStore where
  uid : Nat
  keyValue : String
  value : String
  deriving DecidableEq, Repr

def Cmall3rdKvStore.key (kv : Cmall3rdKvStore) : Nat × String := (kv.uid, kv.keyValue)

/-- The JSON object that `cache_content` is the text of. -/
structure CacheContent where
  uid : Option Nat
  tel : String
  verifyCookie : String
  sudoMode : Bool
  originalUser : Option Nat
  deriving DecidableEq, Repr

structure CmallSession where
  cacheKey : String
  uid : Option Nat
  cacheContent : CacheContent
  ipAddress : Option String
  createdAt : PTime
  updatedAt : PTime
  deriving DecidableEq, Repr

structure CmallIndexPageGoods where
  id : Nat := 0
  merchantId : Nat
  goods : String
  order : Int
  deriving DecidableEq, Repr

/-- The last value given out by each sequence. -/
structure Sequences where
  user : Nat := 0
  administrators : Nat := 0
  order : Nat := 0
  cart : Nat := 0
  fav : Nat := 0
  apply : Nat := 0
  indexGoods : Nat := 0
  deriving DecidableEq, Repr

structure Db where
  users : List CmallUser := []
  administrators : List AdministratorsRow := []
  apptokens : List CmallApptoken := []
  merchants : List CmallMerchant := []
  orders : List CmallOrder := []
  carts : List CmallCart := []
  favs : List CmallUserFav := []
  applys : List CmallApplyForMechant := []
  kvs : List Cmall3rdKvStore := []
  pubkvs : List Cmall3rdKvStore := []
  sessions : List CmallSession := []
  indexGoods : List CmallIndexPageGoods := []
  seq : Sequences := {}
  deriving DecidableEq, Repr

namespace Db

def findUser (db : Db) (uid : Nat) : Option CmallUser := Table.find CmallUser.uid db.users uid

def findMerchant (db : Db) (uid : Nat) : Option CmallMerchant :=
  Table.find CmallMerchant.uid db.merchants uid

def findOrder (db : Db) (id : Nat) : Option CmallOrder := Table.find CmallOrder.id db.orders id

def findCart (db : Db) (id : Nat) : Option CmallCart := Table.find CmallCart.id db.carts id

/-- The pointer of an `administrators` row is loaded with it. -/
def findAdministrators (db : Db) (uid : Nat) : Option Administrators :=
  (Table.find AdministratorsRow.uid db.administrators uid).map fun row =>
    ⟨row.uid, row.user.bind db.findUser⟩

def findSession (db : Db) (key : String) : Option CmallSession :=
  Table.find CmallSession.cacheKey db.sessions key

theorem findUser_uid {db : Db} {uid : Nat} {u : CmallUser} (h : db.findUser uid = some u) :
    u.uid = uid := Table.find_key h

theorem findMerchant_uid {db : Db} {uid : Nat} {m : CmallMerchant}
    (h : db.findMerchant uid = some m) : m.uid = uid := Table.find_key h

theorem findAdministrators_uid {db : Db} {uid : Nat} {a : Administrators}
    (h : db.findAdministrators uid = some a) : a.uid = uid := by
  obtain ⟨row, hrow, rfl⟩ := Option.map_eq_some_iff.mp h
  have hk : row.uid = uid := Table.find_key hrow
  exact hk

end Db

end Cmall
