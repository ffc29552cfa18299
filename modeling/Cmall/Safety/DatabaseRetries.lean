import Cmall.Coroutine.Safe
import Cmall.Database
import Mathlib.Data.List.TakeWhile

/-!
Retries of database operations.

`retry_database_op` runs the lambda of an operation again after `odb::recoverable`.
The transaction of the failed attempt is rolled back; what it did to the arguments
that were given by reference is not. An operation may be run again when the next
attempt does not notice: whatever a failed attempt left in the arguments, an attempt
without a failure ends as it would have ended before.
-/

namespace Cmall.Database
open Coroutine

variable {T κ : Type} [DecidableEq κ] {tr : Traits T κ}

/-! ## Attempts -/

section Attempt

variable {α : Type} {n : Option Nat} {s : Work T} {db : Rows T}

@[simp] theorem attempt_ret (b : Bool) : attempt (Co.ret b) n s = .returned b s := by
  cases n <;> rfl

@[simp] theorem attempt_throw (e : DbError) :
    attempt (Co.throw e : DbM T Bool) n s = .threw e s := by
  cases n <;> rfl

@[simp] theorem attempt_get (k : Work T → DbM T Bool) :
    attempt (Co.get >>= k) n s = attempt (k s) n s := by
  cases n <;> rfl

@[simp] theorem attempt_modify (f : Work T → Work T) (k : Unit → DbM T Bool) :
    attempt (Co.modify f >>= k) n s = attempt (k ()) n (f s) := by
  cases n <;> rfl

@[simp] theorem attempt_suspend_none (c : Call T) (k : Unit → DbM T Bool) :
    attempt (Co.suspend c >>= k) none s = attempt (k ()) none s := rfl

@[simp] theorem attempt_suspend_zero (c : Call T) (k : Unit → DbM T Bool) :
    attempt (Co.suspend c >>= k) (some 0) s = .recoverable s := rfl

@[simp] theorem attempt_suspend_succ (c : Call T) (k : Unit → DbM T Bool) (m : Nat) :
    attempt (Co.suspend c >>= k) (some (m + 1)) s = attempt (k ()) (some m) s := rfl

/-! A handler is passed on to the rest of the program until an error is raised. -/

@[simp] theorem tryCatch_ret (a : α) (h : DbError → DbM T α) :
    Co.tryCatch (Co.ret a) h = Co.ret a := rfl

@[simp] theorem tryCatch_throw (e : DbError) (h : DbError → DbM T α) :
    Co.tryCatch (Co.throw e) h = h e := rfl

@[simp] theorem tryCatch_get (k : Work T → DbM T α) (h : DbError → DbM T α) :
    Co.tryCatch (Co.get >>= k) h = Co.get >>= fun s => (k s).tryCatch h := rfl

@[simp] theorem tryCatch_modify (f : Work T → Work T) (k : Unit → DbM T α)
    (h : DbError → DbM T α) :
    Co.tryCatch (Co.modify f >>= k) h = Co.modify f >>= fun u => (k u).tryCatch h := rfl

@[simp] theorem tryCatch_modify_last (f : Work T → Work T) (h : DbError → DbM T Unit) :
    Co.tryCatch (Co.modify f) h = Co.modify f := rfl

@[simp] theorem tryCatch_suspend (c : Call T) (k : Unit → DbM T α) (h : DbError → DbM T α) :
    Co.tryCatch (Co.suspend c >>= k) h = Co.suspend c >>= fun u => (k u).tryCatch h := rfl

@[simp] theorem throw_bind {β : Type} (e : DbError) (k : α → DbM T β) :
    ((Co.throw e : DbM T α) >>= k) = Co.throw e := rfl

/-- The `n`-th call of an attempt that has fewer calls does not fail. -/
theorem attempt_some (t : DbM T Bool) (m : Nat) (s : Work T) :
    (∃ s', attempt t (some m) s = .recoverable s') ∨ attempt t (some m) s = attempt t none s := by
  induction t generalizing m s with
  | ret b => exact .inr rfl
  | fail e => exact .inr rfl
  | act f k ih => exact ih s m (f s)
  | await c k ih =>
    cases m with
    | zero => exact .inl ⟨s, rfl⟩
    | succ m => exact ih () m s

/-- What every access keeps, an attempt keeps. -/
theorem attempt_each {G : Work T → Work T → Prop} {J : Work T → Prop} {t : DbM T Bool}
    (ht : t.Each G) (hJ : ∀ s s', G s s' → J s → J s') {m : Nat} {s s' : Work T} (hs : J s)
    (h : attempt t (some m) s = .recoverable s') : J s' := by
  induction t generalizing m s with
  | ret b => cases h
  | fail e => cases h
  | act f k ih => exact ih s (ht s).2 (hJ s (f s) (ht s).1 hs) h
  | await c k ih =>
    cases m with
    | zero =>
      cases h
      exact hs
    | succ m => exact ih () (ht ()) hs h

end Attempt

/-! ## Operations that may be run again -/

/-- An attempt without a failure does not tell the two apart. -/
def Alike (t : DbM T Bool) (db : Rows T) (out out' : Out T) : Prop :=
  ∀ now, attempt t none ⟨db, out', now⟩ = attempt t none ⟨db, out, now⟩

/-- What a failed attempt leaves behind makes no difference. -/
def Rerunnable (t : DbM T Bool) (db : Rows T) : Prop :=
  ∀ out now m s', attempt t (some m) ⟨db, out, now⟩ = .recoverable s' → Alike t db out s'.out

/-- The arguments are left as they are. -/
def KeepsOut (s s' : Work T) : Prop := s'.out = s.out

theorem rerunnable_of_keepsOut {t : DbM T Bool} (ht : t.Each KeepsOut) (db : Rows T) :
    Rerunnable t db := by
  intro out now m s' h now'
  have hout : s'.out = out :=
    attempt_each (J := fun s => s.out = out) ht (fun s s' hk hs => hk.trans hs) rfl h
  rw [hout]

section KeepsOut

theorem statement_keepsOut : (statement : DbM T Unit).Each KeepsOut := Co.each_suspend _

theorem get_keepsOut : (Co.get : DbM T (Work T)).Each KeepsOut := Co.each_get fun _ => rfl

theorem setRows_keepsOut (f : List T → List T) : (setRows f : DbM T Unit).Each KeepsOut :=
  Co.each_modify fun _ => rfl

theorem updateRow_keepsOut (v : T) : (updateRow tr v).Each KeepsOut := by
  refine Co.each_bind get_keepsOut fun s => ?_
  split
  · exact setRows_keepsOut _
  · trivial

theorem persistRow_keepsOut (v : T) : (persistRow tr v).Each KeepsOut := by
  refine Co.each_bind statement_keepsOut fun _ => Co.each_bind get_keepsOut fun s => ?_
  dsimp only
  split
  · trivial
  · exact Co.each_bind (Co.each_modify fun _ => rfl) fun _ => trivial

theorem persistAll_keepsOut (values : List T) : (persistAll tr values).Each KeepsOut := by
  induction values with
  | nil => trivial
  | cons v rest ih => exact Co.each_bind (persistRow_keepsOut v) fun _ => ih

theorem updateAll_keepsOut (updater : T → T) (now : PTime) (rows : List T) :
    (updateAll tr updater now rows).Each KeepsOut := by
  induction rows with
  | nil => trivial
  | cons i rest ih =>
    exact Co.each_bind statement_keepsOut fun _ => Co.each_bind (updateRow_keepsOut _) fun _ => ih

theorem eraseAndInsert_keepsOut (query : T → Bool) (values : List T) :
    (eraseAndInsert tr query values).Each KeepsOut := by
  refine Co.each_bind statement_keepsOut fun _ => Co.each_bind statement_keepsOut fun _ => ?_
  refine Co.each_bind (setRows_keepsOut _) fun _ => Co.each_bind (persistAll_keepsOut values) ?_
  exact fun _ => Co.each_bind statement_keepsOut fun _ => trivial

theorem updateQuery_keepsOut (query : T → Bool) (updater : T → T) :
    (updateQuery tr query updater).Each KeepsOut := by
  refine Co.each_bind get_keepsOut fun m => Co.each_bind statement_keepsOut fun _ => ?_
  refine Co.each_bind statement_keepsOut fun _ => Co.each_bind get_keepsOut fun s => ?_
  refine Co.each_bind (updateAll_keepsOut updater _ _) fun _ => ?_
  exact Co.each_bind statement_keepsOut fun _ => trivial

theorem storeUpdated_keepsOut (updater : T → T) (old : T) :
    (storeUpdated tr updater old).Each KeepsOut := by
  refine Co.each_bind (Co.each_suspend _) fun _ => Co.each_bind get_keepsOut fun s => ?_
  refine Co.each_tryCatch (Co.each_bind (updateRow_keepsOut _) fun _ => trivial) fun e => ?_
  cases e <;> trivial

theorem updateId_keepsOut (id : κ) (updater : T → T) :
    (updateId tr id updater).Each KeepsOut := by
  refine Co.each_bind statement_keepsOut fun _ => Co.each_bind get_keepsOut fun m => ?_
  split
  · trivial
  · exact storeUpdated_keepsOut updater _

theorem hardRemove_keepsOut (id : κ) : (hardRemove tr id).Each KeepsOut := by
  refine Co.each_bind statement_keepsOut fun _ => Co.each_bind statement_keepsOut fun _ => ?_
  refine Co.each_bind get_keepsOut fun s => ?_
  split
  · refine Co.each_bind (setRows_keepsOut _) fun _ => Co.each_bind statement_keepsOut fun _ => ?_
    trivial
  · trivial

theorem eraseQuery_keepsOut (query : T → Bool) :
    (eraseQuery query : DbM T Bool).Each KeepsOut := by
  refine Co.each_bind statement_keepsOut fun _ => Co.each_bind statement_keepsOut fun _ => ?_
  refine Co.each_bind (setRows_keepsOut _) fun _ => Co.each_bind statement_keepsOut fun _ => ?_
  trivial

end KeepsOut

/-! ## Operations that write their argument -/

section WritesOut

variable {db : Rows T}

/-- `get(id, ret)` reads the row it finds into `ret`. -/
theorem get_rerunnable (id : κ) : Rerunnable (Database.get tr id) db := by
  intro out now m s' h now'
  cases hrow : Table.find tr.id db.rows id with
  | none =>
    have hout : s'.out = out := by
      rcases m with _ | _ | _ | m <;>
        simp [Database.get, find, statement, Co.bind_assoc, hrow] at h <;> rw [← h]
    rw [hout]
  | some row =>
    have hload : s'.out = out ∨ tr.load row s'.out.value = tr.load row out.value ∧
        s'.out.values = out.values := by
      rcases m with _ | _ | _ | _ | m <;>
        simp [Database.get, find, statement, assign, Co.bind_assoc, hrow] at h <;>
          simp [← h, tr.load_columns, tr.load_load]
    rcases hload with hout | ⟨hvalue, hvalues⟩
    · rw [hout]
    · simp [Database.get, find, statement, assign, Co.bind_assoc, hrow, tr.load_columns, hvalue,
        hvalues]

theorem getOne_rerunnable (query : T → Bool) : Rerunnable (getOne query) db := by
  intro out now m s' h now'
  cases hrow : Table.queryOne db.rows query with
  | none =>
    have hout : s'.out = out := by
      rcases m with _ | _ | _ | m <;>
        simp [getOne, statement, hrow] at h <;> rw [← h]
    rw [hout]
  | some row =>
    have hout : s'.out = out ∨ s'.out = { out with value := row } := by
      rcases m with _ | _ | _ | m <;>
        simp [getOne, statement, assign, hrow] at h <;> simp [← h]
    rcases hout with hout | hout
    · rw [hout]
    · simp [getOne, statement, assign, hrow, hout]

/-- `reload` reads the row with the id of its argument, which then still has that id. -/
theorem reload_rerunnable : Rerunnable (reload tr) db := by
  intro out now m s' h now'
  cases hrow : Table.find tr.id db.rows (tr.id out.value) with
  | none =>
    have hout : s'.out = out := by
      rcases m with _ | _ | _ | m <;>
        simp [reload, reloadRow, statement, Co.bind_assoc, hrow] at h <;> rw [← h]
    rw [hout]
  | some row =>
    have hid : tr.id row = tr.id out.value := Table.find_key hrow
    have hload : s'.out = out ∨ tr.id s'.out.value = tr.id out.value ∧
        tr.load row s'.out.value = tr.load row out.value ∧ s'.out.values = out.values := by
      rcases m with _ | _ | _ | _ | m <;>
        simp [reload, reloadRow, statement, assign, Co.bind_assoc, hrow] at h <;>
          simp [← h, tr.id_columns, tr.id_load, tr.load_columns, tr.load_load, hid]
    rcases hload with hout | ⟨hkey, hvalue, hvalues⟩
    · rw [hout]
    · simp [reload, reloadRow, statement, assign, Co.bind_assoc, hrow, tr.load_columns, hkey,
        hvalue, hvalues]

/-- `update(value)` and `soft_remove(value)` stamp their argument before anything else. -/
theorem stamped_rerunnable {stamp : PTime → T → T}
    (hstamp : ∀ now now' v, stamp now (stamp now' v) = stamp now v) :
    Rerunnable (do
      let now := (← Co.get).now
      assign (stamp now)
      statement
      statement
      updateRow tr (← Co.get).out.value
      statement
      return true : DbM T Bool) db := by
  intro out now m s' h now'
  have hout : s'.out = { out with value := stamp now out.value } := by
    by_cases hrow : (Table.find tr.id db.rows (tr.id (stamp now out.value))).isSome
    all_goals
      rcases m with _ | _ | _ | m <;>
        simp [statement, assign, updateRow, setRows, Co.bind_assoc, hrow] at h <;> rw [← h]
  simp [statement, assign, hout, hstamp]

theorem update_rerunnable : Rerunnable (Database.update tr) db :=
  stamped_rerunnable tr.touch_touch

theorem softRemove_rerunnable : Rerunnable (softRemove tr) db :=
  stamped_rerunnable tr.delete_delete

omit [DecidableEq κ] in
theorem withId_withId (n : Nat) (v : T) : tr.withId n (tr.withId n v) = tr.withId n v := by
  cases hauto : tr.autoId with
  | none => simp [Traits.withId, hauto]
  | some f => simp [Traits.withId, hauto, tr.autoId_autoId f hauto]

theorem add_rerunnable : Rerunnable (add tr) db := by
  intro out now m s' h now'
  by_cases hrow : (Table.find tr.id db.rows (tr.id (tr.withId db.seq out.value))).isSome
  · have hout : s'.out = out := by
      rcases m with _ | _ | m <;>
        simp [add, persistRow, statement, assign, Co.bind_assoc, hrow] at h <;> rw [← h]
    rw [hout]
  · have hout : s'.out = out ∨ s'.out = { out with value := tr.withId db.seq out.value } := by
      rcases m with _ | _ | _ | m <;>
        simp [add, persistRow, statement, assign, Co.bind_assoc, hrow] at h <;> simp [← h]
    rcases hout with hout | hout
    · rw [hout]
    · simp [add, persistRow, statement, assign, Co.bind_assoc, hout, withId_withId, hrow]

/-- `upset` of a row that is there: the stamps are written over. -/
theorem upset_rerunnable_of_some {out : Out T} {old : T} {now : PTime} {m : Nat} {s' : Work T}
    (hrow : Table.find tr.id db.rows (tr.id out.value) = some old)
    (h : attempt (upset tr) (some m) ⟨db, out, now⟩ = .recoverable s') :
    Alike (upset tr) db out s'.out := by
  intro now'
  have hid : ∀ now, tr.id (tr.keepCreated old (tr.touch now out.value)) = tr.id out.value :=
    fun now => by rw [tr.id_keepCreated, tr.id_touch]
  have hout : s'.out = out ∨
      s'.out = { out with value := tr.keepCreated old (tr.touch now out.value) } := by
    rcases m with _ | _ | _ | _ | m <;>
      simp [upset, reloadRow, updateRow, setRows, statement, assign, Co.bind_assoc, hrow, hid] at h <;>
        simp [← h]
  rcases hout with hout | hout
  · rw [hout]
  · simp [upset, reloadRow, updateRow, setRows, statement, assign, Co.bind_assoc, hrow, hid, hout,
      tr.stamp_stamp]

/-- `upset` of a new row: nothing is stored under the id it is given. -/
theorem upset_rerunnable_of_none {out : Out T} {now : PTime} {m : Nat} {s' : Work T}
    (hrow : Table.find tr.id db.rows (tr.id out.value) = none)
    (h : attempt (upset tr) (some m) ⟨db, out, now⟩ = .recoverable s') :
    Alike (upset tr) db out s'.out := by
  intro now'
  by_cases hnew : (Table.find tr.id db.rows (tr.id (tr.withId db.seq out.value))).isSome
  · have hout : s'.out = out := by
      rcases m with _ | _ | _ | m <;>
        simp [upset, reloadRow, persistRow, statement, assign, Co.bind_assoc, hrow, hnew] at h <;>
          rw [← h]
    rw [hout]
  · have hout : s'.out = out ∨ s'.out = { out with value := tr.withId db.seq out.value } := by
      rcases m with _ | _ | _ | _ | m <;>
        simp [upset, reloadRow, persistRow, statement, assign, Co.bind_assoc, hrow, hnew] at h <;>
          simp [← h]
    have hnone : Table.find tr.id db.rows (tr.id (tr.withId db.seq out.value)) = none := by
      simpa using hnew
    rcases hout with hout | hout
    · rw [hout]
    · simp [upset, reloadRow, persistRow, statement, assign, Co.bind_assoc, hrow, hnone, hout,
        withId_withId]

theorem upset_rerunnable : Rerunnable (upset tr) db := by
  intro out now m s' h
  cases hrow : Table.find tr.id db.rows (tr.id out.value) with
  | none => exact upset_rerunnable_of_none hrow h
  | some old => exact upset_rerunnable_of_some hrow h

end WritesOut

/-! ## The loop -/

section Loop

variable {t : DbM T Bool} {db : Rows T}

theorem attempt_none_ne_recoverable (t : DbM T Bool) (s s' : Work T) :
    attempt t none s ≠ .recoverable s' := by
  induction t generalizing s with
  | ret b => exact fun h => by cases h
  | fail e => exact fun h => by cases h
  | act f k ih => exact ih s (f s)
  | await c k ih => exact ih () s

/-- Without a failure the loop ends with its first attempt. -/
theorem retryLoop_nil (t : DbM T Bool) (clock : Nat → PTime) (db : Rows T) (n m k : Nat)
    (out : Out T) :
    retryLoop t clock db (n + 1) k [] out = retryLoop t (fun _ => clock k) db (m + 1) 0 [] out := by
  cases h : attempt t none ⟨db, out, clock k⟩ with
  | returned b s => simp [retryLoop, h]
  | threw e s => simp [retryLoop, h]
  | recoverable s => exact absurd h (attempt_none_ne_recoverable t _ s)

theorem retryLoop_of_alike {out out' : Out T} (h : Alike t db out out') (clock : Nat → PTime)
    (n k : Nat) : retryLoop t clock db (n + 1) k [] out' = retryLoop t clock db (n + 1) k [] out := by
  cases h' : attempt t none ⟨db, out, clock k⟩ with
  | returned b s => simp [retryLoop, h (clock k), h']
  | threw e s => simp [retryLoop, h (clock k), h']
  | recoverable s => exact absurd h' (attempt_none_ne_recoverable t _ s)

/-- Each failed attempt leaves arguments the next one does not tell from the first. -/
theorem retryLoop_of_rerunnable (ht : Rerunnable t db) (clock : Nat → PTime) (fails : List Nat)
    (n k : Nat) (out : Out T) (hn : fails.length < n) :
    ∃ j, k ≤ j ∧ j ≤ k + fails.length ∧
      retryLoop t clock db n k fails out = retryLoop t (fun _ => clock j) db 1 0 [] out := by
  induction fails generalizing n k out with
  | nil =>
    obtain ⟨n, rfl⟩ : ∃ n', n = n' + 1 := Nat.exists_eq_add_one.mpr (Nat.zero_lt_of_lt hn)
    exact ⟨k, le_rfl, by simp, retryLoop_nil t clock db n 0 k out⟩
  | cons m rest ih =>
    obtain ⟨n, rfl⟩ : ∃ n', n = n' + 1 := Nat.exists_eq_add_one.mpr (Nat.zero_lt_of_lt hn)
    have hrest : rest.length < n := by simpa using hn
    rcases attempt_some t m ⟨db, out, clock k⟩ with ⟨s', hs⟩ | heq
    · obtain ⟨j, hj, hj', heq⟩ := ih n (k + 1) s'.out hrest
      have halike := ht out (clock k) m s' hs
      refine ⟨j, by omega, by simp; omega, ?_⟩
      calc retryLoop t clock db (n + 1) k (m :: rest) out
          = retryLoop t clock db n (k + 1) rest s'.out := by simp [retryLoop, hs]
        _ = retryLoop t (fun _ => clock j) db 1 0 [] s'.out := heq
        _ = retryLoop t (fun _ => clock j) db 1 0 [] out := retryLoop_of_alike halike _ 0 0
    · refine ⟨k, le_rfl, by simp, ?_⟩
      rw [← retryLoop_nil t clock db n 0 k out]
      cases h : attempt t none ⟨db, out, clock k⟩ with
      | returned b s => simp [retryLoop, heq, h]
      | threw e s => simp [retryLoop, heq, h]
      | recoverable s => exact absurd h (attempt_none_ne_recoverable t _ s)

end Loop

/-! ## The loop of `get(query, ret)` -/

section GetMany

variable {db : Rows T}

/-- An attempt at the loop that fails has pushed the rows before the failing one. -/
theorem attempt_pushBack (rows : List T) (k : Unit → DbM T Bool) (m : Nat) (s : Work T) :
    attempt (pushBack rows >>= k) (some m) s =
      if m < rows.length then .recoverable { s with out.values := s.out.values ++ rows.take m }
      else attempt (k ()) (some (m - rows.length)) { s with out.values := s.out.values ++ rows } := by
  induction rows generalizing m s with
  | nil => simp [pushBack]
  | cons row rest ih =>
    cases m with
    | zero => simp [pushBack, statement, Co.bind_assoc]
    | succ m => simp [pushBack, statement, Co.bind_assoc, ih]

theorem attempt_pushBack_none (rows : List T) (k : Unit → DbM T Bool) (s : Work T) :
    attempt (pushBack rows >>= k) none s =
      attempt (k ()) none { s with out.values := s.out.values ++ rows } := by
  induction rows generalizing s with
  | nil => simp [pushBack]
  | cons row rest ih => simp [pushBack, statement, Co.bind_assoc, ih]

theorem attempt_getMany_none (query : T → Bool) (s : Work T) :
    attempt (getMany query) none s = .returned true
      { s with out.values := s.out.values ++ Table.query s.db.rows query } := by
  simp [getMany, statement, attempt_pushBack_none]

/-- The calls are `BEGIN`, the query, a fetch for each row and the commit. -/
theorem attempt_getMany (query : T → Bool) (m : Nat) (s : Work T) :
    attempt (getMany query) (some m) s =
      if m < (Table.query s.db.rows query).length + 3 then .recoverable
        { s with out.values := s.out.values ++ (Table.query s.db.rows query).take (m - 2) }
      else .returned true
        { s with out.values := s.out.values ++ Table.query s.db.rows query } := by
  rcases m with _ | _ | m
  · simp [getMany, statement]
  · simp [getMany, statement]
  · simp only [getMany, statement, attempt_suspend_succ, attempt_get, attempt_pushBack]
    rcases Nat.lt_trichotomy m (Table.query s.db.rows query).length with hm | hm | hm
    · rw [if_pos hm, if_pos (by omega)]
      rfl
    · rw [if_neg (by omega), if_pos (by omega), hm]
      simp
    · obtain ⟨d, hd⟩ : ∃ d, m - (Table.query s.db.rows query).length = d + 1 :=
        ⟨m - (Table.query s.db.rows query).length - 1, by omega⟩
      rw [if_neg (by omega), if_neg (by omega), hd]
      simp

/-- The rows the failed attempts leave in the vector, for a result of `rows`. -/
def leftBehind (rows : List T) (fails : List Nat) : List T :=
  (fails.takeWhile (· < rows.length + 3)).flatMap fun m => rows.take (m - 2)

theorem leftBehind_nil (rows : List T) : leftBehind rows [] = [] := rfl

/-- Every failed attempt leaves the rows it pushed in the vector. -/
theorem retryLoop_getMany (query : T → Bool) (clock : Nat → PTime) (fails : List Nat) (n k : Nat)
    (out : Out T) (hn : fails.length < n) :
    retryLoop (getMany query) clock db n k fails out =
      ⟨.ok true,
        { out with
          values := out.values ++ leftBehind (Table.query db.rows query) fails ++
            Table.query db.rows query },
        db⟩ := by
  induction fails generalizing n k out with
  | nil =>
    obtain ⟨n, rfl⟩ : ∃ n', n = n' + 1 := Nat.exists_eq_add_one.mpr (Nat.zero_lt_of_lt hn)
    simp [retryLoop, attempt_getMany_none, leftBehind]
  | cons m rest ih =>
    obtain ⟨n, rfl⟩ : ∃ n', n = n' + 1 := Nat.exists_eq_add_one.mpr (Nat.zero_lt_of_lt hn)
    by_cases hm : m < (Table.query db.rows query).length + 3
    · have hrest : rest.length < n := by simpa using hn
      simp [retryLoop, attempt_getMany, hm, ih n (k + 1) _ hrest, leftBehind]
    · simp [retryLoop, attempt_getMany, hm, leftBehind]

end GetMany

/-! ## The operations -/

/-- In an attempt of `get(query, ret)` that fails, the failure strikes before the
first row has been pushed. -/
def FailsBeforeRows (db : Rows T) (fails : List Nat) : Op T κ → Prop
  | .getMany query =>
    ∀ n ∈ fails.takeWhile (· < (Table.query db.rows query).length + 3), n ≤ 2
  | _ => True

theorem rerunnable_body (op : Op T κ) (db : Rows T) (hop : ∀ query, op ≠ .getMany query) :
    Rerunnable (op.body tr) db := by
  cases op with
  | getMany query => exact absurd rfl (hop query)
  | get id => exact get_rerunnable id
  | getOne query => exact getOne_rerunnable query
  | add => exact add_rerunnable
  | upset => exact upset_rerunnable
  | reload => exact reload_rerunnable
  | update => exact update_rerunnable
  | softRemove => exact softRemove_rerunnable
  | eraseAndInsert query values =>
    exact rerunnable_of_keepsOut (eraseAndInsert_keepsOut query values) db
  | updateQuery query updater =>
    exact rerunnable_of_keepsOut (updateQuery_keepsOut query updater) db
  | updateId id updater => exact rerunnable_of_keepsOut (updateId_keepsOut id updater) db
  | hardRemove id => exact rerunnable_of_keepsOut (hardRemove_keepsOut id) db
  | eraseQuery query => exact rerunnable_of_keepsOut (eraseQuery_keepsOut query) db

/-- The vector is as without failures when no failed attempt had pushed a row. -/
theorem leftBehind_eq_nil_iff (rows : List T) (fails : List Nat) :
    leftBehind rows fails = [] ↔ ∀ n ∈ fails.takeWhile (· < rows.length + 3), n ≤ 2 := by
  rw [leftBehind, List.flatMap_eq_nil_iff]
  refine forall₂_congr fun n hn => ?_
  have hlt : n < rows.length + 3 := by simpa using List.mem_takeWhile_imp hn
  rw [List.take_eq_nil_iff]
  constructor
  · rintro (h | rfl)
    · omega
    · simpa using Nat.le_of_lt_succ hlt
  · exact fun h => .inl (by omega)

/-- The call ends as the same call without a failure, made when its last attempt was. -/
def RetriesInvisible (tr : Traits T κ) (op : Op T κ) (clock : Nat → PTime) (fails : List Nat)
    (db : Rows T) (out : Out T) : Prop :=
  ∃ k ≤ fails.length, retryDatabaseOp (op.body tr) clock fails db out =
    retryDatabaseOp (op.body tr) (fun _ => clock k) [] db out

/-- Retries show exactly in the vector that `get(query, ret)` fills, when a failure
strikes after a row has been pushed into it. -/
theorem retriesInvisible_iff (tr : Traits T κ) (op : Op T κ) (clock : Nat → PTime)
    (fails : List Nat) (hfails : fails.length < dbMaxRetries) (db : Rows T) (out : Out T) :
    RetriesInvisible tr op clock fails db out ↔ FailsBeforeRows db fails op := by
  by_cases hop : ∃ query, op = .getMany query
  · obtain ⟨query, rfl⟩ := hop
    show (∃ k ≤ fails.length, retryLoop (getMany query) clock db dbMaxRetries 0 fails out =
      retryLoop (getMany query) (fun _ => clock k) db dbMaxRetries 0 [] out) ↔ _
    simp only [retryLoop_getMany query _ fails _ _ _ hfails,
      retryLoop_getMany query _ [] _ _ _ (by decide : 0 < dbMaxRetries)]
    rw [FailsBeforeRows, ← leftBehind_eq_nil_iff]
    constructor
    · rintro ⟨k, -, h⟩
      simpa [leftBehind_nil] using congrArg (·.out.values) h
    · intro h
      exact ⟨0, Nat.zero_le _, by rw [h, leftBehind_nil]⟩
  · have hne : ∀ query, op ≠ .getMany query := fun query h => hop ⟨query, h⟩
    have hrerun : Rerunnable (op.body tr) db := rerunnable_body op db hne
    obtain ⟨j, -, hj, heq⟩ := retryLoop_of_rerunnable hrerun clock fails dbMaxRetries 0 out hfails
    have htrue : FailsBeforeRows db fails op := by
      cases op with
      | getMany query => exact absurd rfl (hne query)
      | _ => trivial
    refine iff_of_true ⟨j, by omega, ?_⟩ htrue
    calc retryDatabaseOp (op.body tr) clock fails db out
        = retryLoop (op.body tr) (fun _ => clock j) db 1 0 [] out := heq
      _ = retryLoop (op.body tr) (fun _ => clock j) db dbMaxRetries 0 [] out :=
          (retryLoop_nil (op.body tr) (fun _ => clock j) db 24 0 0 out).symm

/-- Of two cart rows the first has been read when the connection is lost. -/
theorem retriesInvisible_cart_list :
    RetriesInvisible cartTraits (.getMany fun item => item.uid == 7) (fun k => 100 + 5 * k) [2]
      ⟨[{ id := 1, uid := 7 }, { id := 2, uid := 7 }], 2⟩ ⟨{}, []⟩ := by
  refine (retriesInvisible_iff _ _ _ _ (by decide) _ _).mpr ?_
  show ∀ n ∈ [2], n ≤ 2
  decide

/-- One call later the first row is in the vector twice. -/
theorem not_retriesInvisible_cart_list :
    ¬ RetriesInvisible cartTraits (.getMany fun item => item.uid == 7) (fun _ => 100) [3]
      ⟨[{ id := 1, uid := 7 }, { id := 2, uid := 7 }], 2⟩ ⟨{}, []⟩ := by
  rintro ⟨k, -, h⟩
  have hlen := congrArg (fun r : Result CmallCart => r.out.values.length) h
  revert hlen
  show (3 : Nat) = 2 → False
  decide

end Cmall.Database
