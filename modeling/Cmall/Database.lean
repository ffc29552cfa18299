import Cmall.Coroutine.Basic
import Cmall.Json
import Cmall.Schema

/-!
`cmall_database`: the operations of `database.hpp` on one table, as programs whose
suspension points are the calls of the database driver. At each of them the driver
can raise `odb::recoverable`, and other transactions can commit before it.

An operation works on the rows and on the arguments it was given by reference: an
object `T &` and a vector `std::vector<T> &`.
-/

namespace Cmall.Database
open Coroutine

/-- What the templates use of a persistent class with ids in `κ`. A class without
`updated_at_` or `created_at_` has the identity for the operation on it. -/
structure Traits (T κ : Type) where
  id : T → κ
  /-- For `id auto`: give the object the id that comes from a sequence value. -/
  autoId : Option (Nat → T → T)
  /-- Read the columns of a row into an object; its containers follow in calls of
  their own. -/
  columns : T → T → T
  /-- Read a row into an object. Transient members stay as they are. -/
  load : T → T → T
  /-- `updated_at_ = now`. -/
  touch : PTime → T → T
  /-- `created_at_ = oldvalue.created_at_`. -/
  keepCreated : T → T → T
  /-- `deleted_at_ = now`. -/
  delete : PTime → T → T
  id_columns : ∀ row v, id (columns row v) = id row
  id_load : ∀ row v, id (load row v) = id row
  load_columns : ∀ row v, load row (columns row v) = load row v
  load_load : ∀ row v, load row (load row v) = load row v
  id_touch : ∀ now v, id (touch now v) = id v
  id_keepCreated : ∀ old v, id (keepCreated old v) = id v
  id_delete : ∀ now v, id (delete now v) = id v
  touch_touch : ∀ now now' v, touch now (touch now' v) = touch now v
  delete_delete : ∀ now now' v, delete now (delete now' v) = delete now v
  /-- What was stamped before does not matter when both columns are written. -/
  stamp_stamp : ∀ old now now' v,
    keepCreated old (touch now (keepCreated old (touch now' v))) = keepCreated old (touch now v)
  autoId_autoId : ∀ f ∈ autoId, ∀ n n' v, f n (f n' v) = f n v

/-- The rows of the table and the last value of its sequence. -/
structure Rows (T : Type) where
  rows : List T
  seq : Nat := 0
  deriving DecidableEq, Repr

/-- The arguments given by reference. -/
structure Out (T : Type) where
  value : T
  values : List T := []
  deriving DecidableEq, Repr

/-- What an attempt works on: the table, its arguments and the clock. -/
structure Work (T : Type) where
  db : Rows T
  out : Out T
  now : PTime
  deriving DecidableEq, Repr

inductive DbError where
  | objectNotPersistent
  | objectAlreadyPersistent
  deriving DecidableEq, Repr

/-- A call of the driver that is about to be made. -/
inductive Call (T : Type) where
  | statement
  /-- The `UPDATE` of `update(id, updater)`, which loaded `old`. -/
  | update (old : T)
  deriving DecidableEq, Repr

variable {T κ : Type} [DecidableEq κ] (tr : Traits T κ)

abbrev DbM (T α : Type) := Co (Work T) Unit (Call T) DbError α

/-! ## The driver -/

/-- The next call of the driver. -/
def statement : DbM T Unit := Co.suspend .statement

/-- Change the rows. -/
def setRows (f : List T → List T) : DbM T Unit :=
  Co.modify fun s => { s with db.rows := f s.db.rows }

/-- Assign to the `T &` argument. -/
def assign (f : T → T) : DbM T Unit := Co.modify fun s => { s with out.value := f s.out.value }

/-- `m_db->find<T>(id, ret)`. -/
def find (id : κ) : DbM T Bool := do
  statement
  match Table.find tr.id (← Co.get).db.rows id with
  | some row =>
    assign (tr.columns row)
    statement
    assign (tr.load row)
    return true
  | none => return false

/-- The row `m_db->reload(v)` loads: the one with the id of `v`. -/
def reloadRow (v : T) : DbM T T := do
  statement
  match Table.find tr.id (← Co.get).db.rows (tr.id v) with
  | some row => return row
  | none => Co.throw .objectNotPersistent

/-- `m_db->update(v)`, once its call has been made. -/
def updateRow (v : T) : DbM T Unit := do
  if (Table.find tr.id (← Co.get).db.rows (tr.id v)).isSome then
    setRows fun rows => Table.update tr.id rows v
  else
    Co.throw .objectNotPersistent

/-- The object with the id it is stored under. -/
def Traits.withId (seq : Nat) (v : T) : T :=
  match tr.autoId with
  | some f => f (seq + 1) v
  | none => v

/-- `m_db->persist(v)`: the object as it is stored. -/
def persistRow (v : T) : DbM T T := do
  statement
  let db := (← Co.get).db
  let v := tr.withId db.seq v
  if (Table.find tr.id db.rows (tr.id v)).isSome then
    Co.throw .objectAlreadyPersistent
  else
    Co.modify fun s => { s with
      db.rows := s.db.rows ++ [v]
      db.seq := if tr.autoId.isSome then s.db.seq + 1 else s.db.seq }
    return v

/-! ## The operations -/

/-- `get(id, ret)`. -/
def get (id : κ) : DbM T Bool := do
  statement
  let ok ← find tr id
  statement
  return ok

/-- The loop of `get(query, ret)` over the rows of the result. -/
def pushBack : List T → DbM T Unit
  | [] => return ()
  | row :: rest => do
    statement
    Co.modify fun s => { s with out.values := s.out.values ++ [row] }
    pushBack rest

/-- `get(query, std::vector<T> & ret)`. -/
def getMany (query : T → Bool) : DbM T Bool := do
  statement
  statement
  pushBack (Table.query (← Co.get).db.rows query)
  statement
  return true

/-- `get(query, T & ret)`. -/
def getOne (query : T → Bool) : DbM T Bool := do
  statement
  statement
  match Table.queryOne (← Co.get).db.rows query with
  | some row =>
    assign fun _ => row
    statement
    return true
  | none =>
    statement
    return false

def add : DbM T Bool := do
  statement
  let v ← persistRow tr (← Co.get).out.value
  assign fun _ => v
  statement
  return true

/-- `upset`: the row is updated with its old creation time, or persisted. -/
def upset : DbM T Bool := do
  statement
  Co.tryCatch
    (do
      let oldvalue ← reloadRow tr (← Co.get).out.value
      let now := (← Co.get).now
      assign (tr.touch now)
      assign (tr.keepCreated oldvalue)
      statement
      updateRow tr (← Co.get).out.value)
    (fun
      | .objectNotPersistent => do
        let v ← persistRow tr (← Co.get).out.value
        assign fun _ => v
      | e => Co.throw e)
  statement
  return true

def persistAll : List T → DbM T Unit
  | [] => return ()
  | v :: rest => do
    let _ ← persistRow tr v
    persistAll rest

def eraseAndInsert (query : T → Bool) (values : List T) : DbM T Bool := do
  statement
  statement
  setRows fun rows => Table.eraseQuery rows query
  persistAll tr values
  statement
  return true

def reload : DbM T Bool := do
  statement
  Co.tryCatch
    (do
      let row ← reloadRow tr (← Co.get).out.value
      assign (tr.columns row)
      statement
      assign (tr.load row)
      statement
      return true)
    (fun
      | .objectNotPersistent => return false
      | e => Co.throw e)

/-- `update(T & value)`. -/
def update : DbM T Bool := do
  let now := (← Co.get).now
  assign (tr.touch now)
  statement
  statement
  updateRow tr (← Co.get).out.value
  statement
  return true

/-- The loop of `update(query, updater)`. -/
def updateAll (updater : T → T) (now : PTime) : List T → DbM T Unit
  | [] => return ()
  | i :: rest => do
    statement
    updateRow tr (tr.touch now (updater i))
    updateAll updater now rest

/-- `update(query, updater)`. -/
def updateQuery (query : T → Bool) (updater : T → T) : DbM T Bool := do
  let now := (← Co.get).now
  statement
  statement
  updateAll tr updater now (Table.query (← Co.get).db.rows query)
  statement
  return true

/-- The second half of `update(id, updater)`, which loaded `old`. The row is locked from
the `UPDATE` to the commit that follows it, so the two are one step for every other
transaction. -/
def storeUpdated (updater : T → T) (old : T) : DbM T Bool := do
  Co.suspend (.update old)
  let now := (← Co.get).now
  Co.tryCatch
    (do
      updateRow tr (tr.touch now (updater old))
      return true)
    (fun
      | .objectNotPersistent => return false
      | e => Co.throw e)

/-- `update(id, updater)`. -/
def updateId (id : κ) (updater : T → T) : DbM T Bool := do
  statement
  match Table.find tr.id (← Co.get).db.rows id with
  | none => return false
  | some old => storeUpdated tr updater old

def hardRemove (id : κ) : DbM T Bool := do
  statement
  statement
  if (Table.find tr.id (← Co.get).db.rows id).isSome then
    setRows fun rows => Table.erase tr.id rows id
    statement
    return true
  else
    Co.throw .objectNotPersistent

/-- `soft_remove(T & value)`. -/
def softRemove : DbM T Bool := do
  let now := (← Co.get).now
  assign (tr.delete now)
  statement
  statement
  updateRow tr (← Co.get).out.value
  statement
  return true

def eraseQuery (query : T → Bool) : DbM T Bool := do
  statement
  statement
  setRows fun rows => Table.eraseQuery rows query
  statement
  return true

/-- The operations that go through `retry_database_op`, with the arguments that are
not given by reference. -/
inductive Op (T κ : Type) where
  | get (id : κ)
  | getMany (query : T → Bool)
  | getOne (query : T → Bool)
  | add
  | upset
  | eraseAndInsert (query : T → Bool) (values : List T)
  | reload
  | update
  | updateQuery (query : T → Bool) (updater : T → T)
  | updateId (id : κ) (updater : T → T)
  | hardRemove (id : κ)
  | softRemove
  | eraseQuery (query : T → Bool)

/-- The lambda the operation hands to `retry_database_op`. -/
def Op.body : Op T κ → DbM T Bool
  | .get id => Database.get tr id
  | .getMany query => Database.getMany query
  | .getOne query => Database.getOne query
  | .add => Database.add tr
  | .upset => Database.upset tr
  | .eraseAndInsert query values => Database.eraseAndInsert tr query values
  | .reload => Database.reload tr
  | .update => Database.update tr
  | .updateQuery query updater => Database.updateQuery tr query updater
  | .updateId id updater => Database.updateId tr id updater
  | .hardRemove id => Database.hardRemove tr id
  | .softRemove => Database.softRemove tr
  | .eraseQuery query => Database.eraseQuery query

/-! ## Retries -/

/-- How an attempt ends. -/
inductive Outcome (T : Type) where
  | returned (b : Bool) (s : Work T)
  | threw (e : DbError) (s : Work T)
  /-- `odb::recoverable`. -/
  | recoverable (s : Work T)
  deriving DecidableEq, Repr

/-- One attempt; the driver raises `odb::recoverable` in its `n`-th call, if there is
one. -/
def attempt : DbM T Bool → Option Nat → Work T → Outcome T
  | .ret b, _, s => .returned b s
  | .fail e, _, s => .threw e s
  | .act f k, n, s => attempt (k s) n (f s)
  | .await _ _, some 0, s => .recoverable s
  | .await _ k, some (n + 1), s => attempt (k ()) (some n) s
  | .await _ k, none, s => attempt (k ()) none s

def dbMaxRetries : Nat := 25

/-- What the caller gets: the value or the error, its arguments and the table. -/
structure Result (T : Type) where
  value : Except Errc Bool
  out : Out T
  db : Rows T

/-- The loop of `retry_database_op` with `n` attempts left. `fails` says in which
call the next attempts fail, `clock k` what time it is at attempt `k`. A transaction
that is not committed is rolled back. -/
def retryLoop (t : DbM T Bool) (clock : Nat → PTime) (db : Rows T) :
    Nat → Nat → List Nat → Out T → Result T
  | 0, _, _, out => ⟨.error .internalServerError, out, db⟩
  | n + 1, k, fails, out =>
    match attempt t fails.head? ⟨db, out, clock k⟩ with
    | .returned b s => ⟨.ok b, s.out, s.db⟩
    | .threw _ s => ⟨.error .internalServerError, s.out, db⟩
    | .recoverable s => retryLoop t clock db n (k + 1) fails.tail s.out

def retryDatabaseOp (t : DbM T Bool) (clock : Nat → PTime) (fails : List Nat) (db : Rows T)
    (out : Out T) : Result T :=
  retryLoop t clock db dbMaxRetries 0 fails out

/-! ## Two of the classes -/

/-- `cmall_cart`; `merchant_name_` is transient. -/
def cartTraits : Traits CmallCart Nat where
  id := CmallCart.id
  autoId := some fun id v => { v with id }
  columns row v := { row with merchantName := v.merchantName }
  load row v := { row with merchantName := v.merchantName }
  touch now v := { v with updatedAt := now }
  keepCreated old v := { v with createdAt := old.createdAt }
  delete _ v := v
  id_columns _ _ := rfl
  id_load _ _ := rfl
  load_columns _ _ := rfl
  load_load _ _ := rfl
  id_touch _ _ := rfl
  id_keepCreated _ _ := rfl
  id_delete _ _ := rfl
  touch_touch _ _ _ := rfl
  delete_delete _ _ _ := rfl
  stamp_stamp _ _ _ _ := rfl
  autoId_autoId f hf n n' v := by
    cases hf
    rfl

/-- `cmall_merchant`. -/
def merchantTraits : Traits CmallMerchant Nat where
  id := CmallMerchant.uid
  autoId := none
  columns row _ := row
  load row _ := row
  touch now v := { v with updatedAt := now }
  keepCreated old v := { v with createdAt := old.createdAt }
  delete now v := { v with deletedAt := some now }
  id_columns _ _ := rfl
  id_load _ _ := rfl
  load_columns _ _ := rfl
  load_load _ _ := rfl
  id_touch _ _ := rfl
  id_keepCreated _ _ := rfl
  id_delete _ _ := rfl
  touch_touch _ _ _ := rfl
  delete_delete _ _ _ := rfl
  stamp_stamp _ _ _ _ := rfl
  autoId_autoId f hf := by cases hf

end Cmall.Database
