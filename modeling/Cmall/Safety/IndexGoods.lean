import Cmall.Footprint.Answers
import Cmall.Numbered
import Cmall.Safety.OneAccount
import Cmall.Transition

/-!
The goods of the index page.

The rows of `cmall_index_page_goods` in ascending `order` stand for a list. One turn after
the other, `admin_set_index_goods`, `admin_add_index_goods` and `admin_remove_index_goods`
do on it what their names say, and `list_index_goods` reads it, as long as the table is not
empty when it is set and the numbers stay in the range of `int`.
-/

namespace Cmall
open Coroutine Numbered Transition

/-! ## The list -/

/-- An element of the list: merchant and goods. -/
abbrev IndexEntry := Nat × String

def CmallIndexPageGoods.entry (g : CmallIndexPageGoods) : IndexEntry := (g.merchantId, g.goods)

/-- The rows stand for the list; those of the same `order` come as they like. -/
def Db.IndexList (db : Db) (l : List IndexEntry) : Prop :=
  Reads CmallIndexPageGoods.order CmallIndexPageGoods.entry db.indexGoods l

inductive IndexOp where
  | set (l : List IndexEntry)
  | add (x : IndexEntry)
  | remove (x : IndexEntry)
  deriving DecidableEq, Repr

def IndexOp.apply : IndexOp → List IndexEntry → List IndexEntry
  | set l, _ => l
  | add x, l => l ++ [x]
  | remove x, l => l.filter fun y => y ≠ x

/-- `merchant_id` and `goods_id` of an object. -/
def indexEntry (obj : JsonObject) : Option IndexEntry :=
  match Json.get obj "merchant_id" (.int64 (-1)) with
  | .int64 i => some (toUint64 i, Json.getString obj "goods_id")
  | _ => none

def indexEntryOf : Json → Option IndexEntry
  | .object obj => indexEntry obj
  | _ => none

/-- `list`; an absent one is empty. -/
def indexEntries (params : JsonObject) : Option (List IndexEntry) :=
  match Json.at? params "list" with
  | none => some []
  | some (.array l) => l.mapM indexEntryOf
  | some _ => none

/-- The operation that a request asks for, if its parameters make sense. -/
def Request.indexOp : Request → Option IndexOp
  | .jsonrpc _ .adminSetIndexGoods params => (indexEntries params).map .set
  | .jsonrpc _ .adminAddIndexGoods params => (indexEntry params).map .add
  | .jsonrpc _ .adminRemoveIndexGoods params => (indexEntry params).map .remove
  | _ => none

/-- The requests that change the list. -/
def Request.editsIndex : Request → Bool
  | .jsonrpc _ .adminSetIndexGoods _ => true
  | .jsonrpc _ .adminAddIndexGoods _ => true
  | .jsonrpc _ .adminRemoveIndexGoods _ => true
  | _ => false

/-- The requests that are answered with `list_index_goods`. -/
def Request.listsIndex : Request → Bool
  | .jsonrpc _ .adminListIndexGoods _ => true
  | .jsonrpc _ .goodsList params => (Json.getString params "merchant").toNat? = none
  | _ => false

/-- How an element is shown: the product of the merchant, or what little is known of it. -/
def Mem.shown (m : Mem) (x : IndexEntry) : Product :=
  let merchants := Table.query m.db.merchants fun m => m.deletedAt = none
  let name := ((Table.find CmallMerchant.uid merchants x.1).map (·.name)).getD ""
  (m.productOf x.1 x.2 name).getD (unhintProduct x.1 x.2)

/-! ## The table -/

section Table

variable {db : Db} {goods : List CmallIndexPageGoods} {l : List IndexEntry} {x : IndexEntry}

/-- Inserting gives the rows their ids and changes nothing else. -/
theorem foldl_persistIndexGoods {γ : Type} {p : CmallIndexPageGoods → γ}
    (hp : ∀ g i, p { g with id := i } = p g) :
    (goods.foldl Db.persistIndexGoods db).indexGoods.map p =
      db.indexGoods.map p ++ goods.map p := by
  induction goods generalizing db with
  | nil => simp
  | cons g goods ih =>
    rw [List.foldl_cons, ih]
    simp [Db.persistIndexGoods, hp]

theorem setIndexGoods_map {γ : Type} {p : CmallIndexPageGoods → γ} (hdb : db.indexGoods ≠ [])
    (hp : ∀ g i, p { g with id := i } = p g) :
    (db.setIndexGoods goods).2.indexGoods.map p = goods.map p := by
  rw [Db.setIndexGoods, if_neg hdb, foldl_persistIndexGoods hp]
  rfl

/-- The orders `0`, `1`, ... of the list that is set. -/
theorem setIndexGoods_list (hdb : db.indexGoods ≠ []) (hlen : goods.length ≤ 2 ^ 31)
    (horder : goods.map (·.order) =
      (List.range goods.length).map fun k : Nat => Int.bmod (0 + (k : Int)) (2 ^ 32)) :
    (db.setIndexGoods goods).2.IndexList l ↔ l = goods.map CmallIndexPageGoods.entry := by
  have hentry : (db.setIndexGoods goods).2.indexGoods.map CmallIndexPageGoods.entry =
      goods.map CmallIndexPageGoods.entry := setIndexGoods_map hdb fun _ _ => rfl
  have hstrict : (db.setIndexGoods goods).2.indexGoods.Pairwise fun x y => x.order < y.order := by
    rw [← List.pairwise_map (f := CmallIndexPageGoods.order) (R := fun x y => x < y),
      setIndexGoods_map hdb fun _ _ => rfl, horder, List.pairwise_map]
    refine List.pairwise_lt_range.imp_of_mem ?_
    intro j k hj hk hjk
    rw [List.mem_range] at hj hk
    rw [Int.bmod_eq_of_le (by omega) (by omega), Int.bmod_eq_of_le (by omega) (by omega)]
    omega
  rw [Db.IndexList, reads_strict hstrict, hentry]

/-- The number after the largest one is an `int`. -/
def Db.nextOrderFits (db : Db) : Prop :=
  ∀ n ∈ (db.indexGoods.map (·.order)).max?, -2 ^ 31 ≤ n + 1 ∧ n + 1 < 2 ^ 31

instance (db : Db) : Decidable db.nextOrderFits :=
  inferInstanceAs (Decidable (∀ n ∈ (db.indexGoods.map (·.order)).max?,
    -2 ^ 31 ≤ n + 1 ∧ n + 1 < 2 ^ 31))

theorem persistIndexGoods_list (hfits : db.nextOrderFits) {g : CmallIndexPageGoods}
    (horder : g.order =
      Int.bmod (((db.indexGoods.map (·.order)).max?).getD 0 + 1) (2 ^ 32)) :
    (db.persistIndexGoods g).IndexList l ↔ ∃ l₀, db.IndexList l₀ ∧ l = l₀ ++ [g.entry] := by
  show Reads CmallIndexPageGoods.order CmallIndexPageGoods.entry
    (db.indexGoods ++ [{ g with id := db.seq.indexGoods + 1 }]) l ↔ _
  apply reads_append
  intro y hy
  have hmem : y.order ∈ db.indexGoods.map (·.order) := List.mem_map_of_mem hy
  cases hmax : (db.indexGoods.map (·.order)).max? with
  | none =>
    rw [List.max?_eq_none_iff] at hmax
    rw [hmax] at hmem
    cases hmem
  | some n =>
    have hle : y.order ≤ n := (List.max?_eq_some_iff.mp hmax).2 y.order hmem
    obtain ⟨hlow, hhigh⟩ := hfits n hmax
    show y.order < g.order
    rw [horder, hmax, Option.getD_some, Int.bmod_eq_of_le (by omega) (by omega)]
    omega

theorem eraseIndexGoods_list :
    { db with indexGoods := Table.eraseQuery db.indexGoods fun g =>
        g.merchantId = x.1 ∧ g.goods = x.2 }.IndexList l ↔
      ∃ l₀, db.IndexList l₀ ∧ l = l₀.filter fun y => y ≠ x := by
  refine reads_filter ?_
  intro g
  simp [CmallIndexPageGoods.entry, Prod.ext_iff]

/-- What `order by` returns stands for the list, however it arranges equal numbers. -/
theorem indexRows_list (i : Input) :
    db.IndexList ((db.indexGoods.insertionSort fun x y => x.order < y.order ∨
      x.order = y.order ∧ i.ties.idxOf x.id ≤ i.ties.idxOf y.id).map CmallIndexPageGoods.entry) := by
  have : Std.Total fun x y : CmallIndexPageGoods => x.order < y.order ∨
      x.order = y.order ∧ i.ties.idxOf x.id ≤ i.ties.idxOf y.id := ⟨fun x y => by omega⟩
  have : IsTrans CmallIndexPageGoods fun x y => x.order < y.order ∨
      x.order = y.order ∧ i.ties.idxOf x.id ≤ i.ties.idxOf y.id := ⟨fun x y z _ _ => by omega⟩
  apply reads_insertionSort
  intro x y h
  omega

end Table

/-! ## The parameters -/

theorem indexEntry_some {obj : JsonObject} {i : Int}
    (h : (Json.get obj "merchant_id" (.int64 (-1))).asInt64 = .ok i) :
    indexEntry obj = some (toUint64 i, Json.getString obj "goods_id") := by
  unfold indexEntry
  cases hv : Json.get obj "merchant_id" (.int64 (-1)) <;> simp [hv, Json.asInt64] at h
  rw [h]

theorem asInt64_of_indexEntry {obj : JsonObject} {x : IndexEntry} (h : indexEntry obj = some x) :
    ∃ i, (Json.get obj "merchant_id" (.int64 (-1))).asInt64 = .ok i ∧
      x = (toUint64 i, Json.getString obj "goods_id") := by
  unfold indexEntry at h
  cases hv : Json.get obj "merchant_id" (.int64 (-1)) <;> simp [hv] at h
  exact ⟨_, rfl, h.symm⟩

theorem indexEntries_of_getArray {params : JsonObject} {list : List Json}
    (h : Json.getArray params "list" = .ok list) :
    indexEntries params = list.mapM indexEntryOf := by
  unfold Json.getArray at h
  unfold indexEntries
  split at h
  · rename_i l hl
    cases h
    rw [hl]
  · cases h
  · rename_i hnone
    cases h
    rw [hnone]
    rfl

/-- The rows are the entries with their places as numbers. -/
theorem indexGoodsOf_ok {l : List Json} {n : Int} {goods : List CmallIndexPageGoods}
    (h : indexGoodsOf l n = .ok goods) :
    l.mapM indexEntryOf = some (goods.map CmallIndexPageGoods.entry) ∧
      goods.map (·.order) =
        (List.range goods.length).map fun k : Nat => Int.bmod (n + (k : Int)) (2 ^ 32) := by
  induction l generalizing n goods with
  | nil =>
    cases h
    exact ⟨rfl, rfl⟩
  | cons ref rest ih =>
    cases ref <;> try cases h
    rename_i obj
    cases hid : (Json.get obj "merchant_id" (.int64 (-1))).asInt64 with
    | error e => simp [indexGoodsOf, Json.asObject, hid, bind, Except.bind] at h
    | ok i =>
      cases htail : indexGoodsOf rest (n + 1) with
      | error e => simp [indexGoodsOf, Json.asObject, hid, htail, bind, Except.bind] at h
      | ok tail =>
        obtain ⟨hentries, horders⟩ := ih htail
        simp only [indexGoodsOf, Json.asObject, hid, htail, bind, Except.bind, pure, Except.pure,
          Except.ok.injEq] at h
        subst h
        constructor
        · rw [List.mapM_cons, hentries]
          simp [indexEntryOf, indexEntry_some hid, CmallIndexPageGoods.entry]
        · rw [List.map_cons, List.length_cons, List.range_succ_eq_map, List.map_cons, horders,
            List.map_map]
          refine congrArg₂ List.cons (by simp) (List.map_congr_left ?_)
          intro k _
          show Int.bmod (n + 1 + (k : Int)) (2 ^ 32) = Int.bmod (n + ((k + 1 : Nat) : Int)) (2 ^ 32)
          congr 1
          omega

theorem indexGoodsOf_isOk {l : List Json} {n : Int} {entries : List IndexEntry}
    (h : l.mapM indexEntryOf = some entries) : ∃ goods, indexGoodsOf l n = .ok goods := by
  induction l generalizing n entries with
  | nil => exact ⟨[], rfl⟩
  | cons ref rest ih =>
    rw [List.mapM_cons] at h
    cases hx : indexEntryOf ref with
    | none => simp [hx] at h
    | some x =>
      cases hrest : rest.mapM indexEntryOf with
      | none => simp [hx, hrest] at h
      | some tail =>
        obtain ⟨goods, hgoods⟩ := ih (n := n + 1) hrest
        cases ref <;> try cases hx
        rename_i obj
        obtain ⟨i, hid, -⟩ := asInt64_of_indexEntry hx
        exact ⟨_, by simp only [indexGoodsOf, Json.asObject, hid, hgoods, bind, Except.bind, pure,
          Except.pure]; rfl⟩

/-! ## The handlers -/

section Handlers

variable {m : Mem} {ctx : Ctx}

theorem ends_adminSetIndexGoods (params : JsonObject) :
    Ends (adminSetIndexGoods ctx params) m fun reply t => ∃ list goods,
      Json.getArray params "list" = .ok list ∧ indexGoodsOf list 0 = .ok goods ∧
        reply = .bool (m.db.setIndexGoods goods).1 ∧
        t = { m with db := (m.db.setIndexGoods goods).2 } := by
  refine .bind (ends_liftExcept _) fun list hlist => ?_
  refine .bind (ends_liftExcept _) fun goods hgoods => ?_
  refine .after (ends_asyncTransacton (ends_asyncWrite _ _ _)) ?_
  rintro b t is ⟨db, hset, rfl⟩
  refine ⟨_, _, rfl, list, goods, hlist, hgoods, ?_⟩
  rw [Option.some.inj hset]
  exact ⟨rfl, rfl⟩

theorem ends_adminAddIndexGoods (params : JsonObject) :
    Ends (adminAddIndexGoods ctx params) m fun reply t => ∃ g : CmallIndexPageGoods,
      indexEntry params = some g.entry ∧
        g.order = Int.bmod (((m.db.indexGoods.map (·.order)).max?).getD 0 + 1) (2 ^ 32) ∧
        reply = .bool true ∧ t = { m with db := m.db.persistIndexGoods g } := by
  refine .bind (ends_liftExcept _) fun i hi => ?_
  refine .bind (ends_getProduct _ _ _) fun p _ => ?_
  refine .bind (ends_asyncLoad _ _) fun n hn => ?_
  subst hn
  refine .after (ends_asyncWrite _ _ _) ?_
  rintro b t is ⟨db, hdb, rfl⟩
  cases hdb
  refine ⟨_, _, rfl, _, ?_, rfl, rfl, rfl⟩
  exact indexEntry_some hi

theorem ends_adminRemoveIndexGoods (params : JsonObject) :
    Ends (adminRemoveIndexGoods ctx params) m fun reply t => ∃ x : IndexEntry,
      indexEntry params = some x ∧ reply = .bool true ∧
        t = { m with db := { m.db with
          indexGoods := Table.eraseQuery m.db.indexGoods fun g =>
            g.merchantId = x.1 ∧ g.goods = x.2 } } := by
  refine .bind (ends_liftExcept _) fun i hi => ?_
  refine .after (ends_asyncWrite _ _ _) ?_
  rintro b t is ⟨db, hdb, rfl⟩
  cases hdb
  exact ⟨_, _, rfl, _, indexEntry_some hi, rfl, rfl⟩

/-- The loop shows every row. -/
theorem ends_indexGoodsProducts (rows : List CmallIndexPageGoods) :
    Ends (indexGoodsProducts ctx (Table.query m.db.merchants fun m => m.deletedAt = none) rows) m
      fun l t => l = (rows.map CmallIndexPageGoods.entry).map m.shown ∧ t = m := by
  induction rows with
  | nil => exact .ret ⟨rfl, rfl⟩
  | cons gref rest ih =>
    refine .bind (ends_getProduct_or _ _ _ _) fun p hp => ?_
    refine .bind ih fun l hl => ?_
    subst hp hl
    exact .ret ⟨rfl, rfl⟩

theorem ends_listIndexGoods :
    Ends (listIndexGoods ctx) m fun l t => (∃ entries, m.db.IndexList entries ∧
      l = entries.map m.shown) ∧ t = m := by
  refine .bind (ends_asyncLoad _ _) fun merchants hmerchants => ?_
  subst hmerchants
  refine .bind ends_tx_reads fun rows hrows => ?_
  obtain ⟨i, rfl⟩ := hrows
  intro is y rest t h
  rcases ends_indexGoodsProducts _ is y rest t h with ⟨l, rfl, rfl, rfl⟩ | h
  · exact .inl ⟨_, rfl, ⟨_, indexRows_list i, rfl⟩, rfl⟩
  · exact .inr h

theorem ends_indexReply :
    Ends (do return Reply.products (← listIndexGoods ctx)) m fun reply t =>
      ∃ l, m.db.IndexList l ∧ reply = .products (l.map m.shown) ∧ t = m := by
  refine .after ends_listIndexGoods ?_
  rintro l t is ⟨⟨entries, hentries, rfl⟩, rfl⟩
  exact ⟨_, _, rfl, entries, hentries, rfl, rfl⟩

theorem replies_indexGoodsProducts (cache : List CmallMerchant) (rows : List CmallIndexPageGoods) :
    Replies (indexGoodsProducts ctx cache rows) m rows.length fun _ t => t = m := by
  induction rows with
  | nil => exact .ret rfl
  | cons gref rest ih =>
    rw [List.length_cons, Nat.add_comm]
    refine .bind (replies_getProduct_or _ _ _ _) fun p t ht => ?_
    subst ht
    refine .bind (k := 0) ih fun l t ht => ?_
    subst ht
    exact .ret rfl

theorem replies_listIndexGoods :
    Replies (listIndexGoods ctx) m (4 + m.db.indexGoods.length) fun _ t => t = m := by
  have hcount : 4 + m.db.indexGoods.length = 2 + (2 + m.db.indexGoods.length) := by omega
  rw [hcount]
  refine .bind (replies_asyncLoad _ _) fun merchants t ht => ?_
  obtain ⟨-, rfl⟩ := ht
  refine .bind (P := fun rows t' => rows.length = t.db.indexGoods.length ∧ t' = t)
    (replies_tx ?_) fun rows t' ht => ?_
  · intro i
    exact ⟨_, rfl, List.length_insertionSort _ _, rfl⟩
  · obtain ⟨hlen, rfl⟩ := ht
    rw [← hlen]
    exact replies_indexGoodsProducts _ _

theorem replies_indexReply :
    Replies (do return Reply.products (← listIndexGoods ctx)) m (4 + m.db.indexGoods.length)
      fun _ _ => True :=
  .bind (k := 0) replies_listIndexGoods fun _ _ _ => .ret trivial

theorem replies_adminSetIndexGoods {params : JsonObject} {l : List IndexEntry}
    (h : indexEntries params = some l) :
    Replies (adminSetIndexGoods ctx params) m 2 fun _ _ => True := by
  obtain ⟨list, goods, hlist, hgoods⟩ : ∃ list goods,
      Json.getArray params "list" = .ok list ∧ indexGoodsOf list 0 = .ok goods := by
    unfold indexEntries at h
    unfold Json.getArray
    split at h
    · rename_i hnone
      rw [hnone]
      exact ⟨[], [], rfl, rfl⟩
    · rename_i list hsome
      obtain ⟨goods, hgoods⟩ := indexGoodsOf_isOk (n := 0) h
      rw [hsome]
      exact ⟨list, goods, rfl, hgoods⟩
    · cases h
  refine .bind (n := 0) (k := 2) (replies_liftExcept hlist) fun b t ht => ?_
  obtain ⟨rfl, rfl⟩ := ht
  refine .bind (n := 0) (k := 2) (replies_liftExcept hgoods) fun b t ht => ?_
  obtain ⟨rfl, rfl⟩ := ht
  refine .bind (n := 2) (k := 0) (replies_asyncTransacton (replies_asyncWrite rfl _ _))
    fun b t _ => ?_
  exact .ret trivial

theorem replies_adminAddIndexGoods {params : JsonObject} {x : IndexEntry}
    (h : indexEntry params = some x) (hx : (m.productOf x.1 x.2 "x").isSome = true) :
    Replies (adminAddIndexGoods ctx params) m 5 fun _ _ => True := by
  obtain ⟨i, hi, rfl⟩ := asInt64_of_indexEntry h
  obtain ⟨p, hp⟩ := Option.isSome_iff_exists.mp hx
  refine .bind (n := 0) (k := 5) (replies_liftExcept hi) fun b t ht => ?_
  obtain ⟨rfl, rfl⟩ := ht
  refine .bind (n := 1) (k := 4) (replies_getProduct hp) fun b t ht => ?_
  obtain ⟨-, rfl⟩ := ht
  refine .bind (n := 2) (k := 2) (replies_asyncLoad _ _) fun b t ht => ?_
  obtain ⟨-, rfl⟩ := ht
  refine .bind (n := 2) (k := 0) (replies_asyncWrite rfl _ _) fun b t _ => ?_
  exact .ret trivial

theorem replies_adminRemoveIndexGoods {params : JsonObject} {x : IndexEntry}
    (h : indexEntry params = some x) :
    Replies (adminRemoveIndexGoods ctx params) m 2 fun _ _ => True := by
  obtain ⟨i, hi, rfl⟩ := asInt64_of_indexEntry h
  refine .bind (n := 0) (k := 2) (replies_liftExcept hi) fun b t ht => ?_
  obtain ⟨rfl, rfl⟩ := ht
  refine .bind (n := 2) (k := 0) (replies_asyncWrite rfl _ _) fun b t _ => ?_
  exact .ret trivial

end Handlers

/-! ## Turns -/

/-- The table is not empty when it is set, and the numbers that are given fit an `int`. -/
def NumbersFit (m : Mem) (q : Request) : Prop :=
  match q.indexOp with
  | some (.set l) => m.db.indexGoods ≠ [] ∧ l.length ≤ 2 ^ 31
  | some (.add _) => m.db.nextOrderFits
  | _ => True

instance (m : Mem) (q : Request) : Decidable (NumbersFit m q) := by
  unfold NumbersFit
  split <;> infer_instance

/-- The request is one that can be answered: an administrator's, with parameters that make
sense and, if a product is added, a product that exists. -/
def Answerable (m : Mem) (q : Request) : Prop :=
  match q with
  | .jsonrpc conn .goodsList _ => (m.conn conn).sessionInfo.isSome = true
  | .jsonrpc conn .adminListIndexGoods _ => m.isAdmin conn = true
  | q => m.isAdmin q.conn = true ∧ match q.indexOp with
    | some (.add x) => (m.productOf x.1 x.2 "x").isSome = true
    | op => op.isSome = true

/-- The request `r` has ended: it was answered with `true` after its operation on the list,
or it has changed nothing. -/
def EditDone (r : Nat) (q : Request) (returned : Bool) (m t : Mem) : Prop :=
  (returned = true ∧ t.trace.head? = some (.replied r (.bool true)) ∧
    ∃ op, q.indexOp = some op ∧
      ∀ l, t.db.IndexList l ↔ ∃ l₀, m.db.IndexList l₀ ∧ l = op.apply l₀) ∨
  (returned = false ∧ t = m)

/-- The request `r` has ended: it was answered with one product for each element of the
list, or it has thrown; the tables are as they were. -/
def ListDone (r : Nat) (returned : Bool) (m t : Mem) : Prop :=
  t.db = m.db ∧ (returned = true → ∃ l, m.db.IndexList l ∧
    t.trace.head? = some (.replied r (.products (l.map m.shown))))

section Turns

variable {cfg : Config} {s : Service} {conn : Nat} {params : JsonObject} {is : List Input}

theorem editDone_set (hfit : NumbersFit s.mem (.jsonrpc conn .adminSetIndexGoods params))
    (hended : (s.turn (prog cfg) (.jsonrpc conn .adminSetIndexGoods params) is).ended
      s.procs.length = true) :
    EditDone s.procs.length (.jsonrpc conn .adminSetIndexGoods params)
      ((s.turn (prog cfg) (.jsonrpc conn .adminSetIndexGoods params) is).returned s.procs.length)
      s.mem (s.turn (prog cfg) (.jsonrpc conn .adminSetIndexGoods params) is).mem := by
  have hserve : Ends (serve cfg ⟨conn, s.procs.length⟩ (.jsonrpc conn .adminSetIndexGoods params))
      s.mem _ := ends_serve (ends_admin rfl
        (.bind ends_thisSession fun _ _ => ends_adminSetIndexGoods params))
  rcases turn_of_ends hserve hended with ⟨hret, reply, m, hdone, hmem⟩ | h
  · obtain ⟨list, goods, hlist, hgoods, rfl, rfl⟩ := hdone
    obtain ⟨hentries, horders⟩ := indexGoodsOf_ok hgoods
    have hop : indexEntries params = some (goods.map CmallIndexPageGoods.entry) :=
      (indexEntries_of_getArray hlist).trans hentries
    obtain ⟨hdb, hlen⟩ : s.mem.db.indexGoods ≠ [] ∧ goods.length ≤ 2 ^ 31 := by
      simpa [NumbersFit, Request.indexOp, hop] using hfit
    refine .inl ⟨hret, ?_, .set (goods.map CmallIndexPageGoods.entry), ?_, fun l => ?_⟩
    · rw [hmem, Db.setIndexGoods, if_neg hdb]
      rfl
    · rw [Request.indexOp, hop]
      rfl
    · rw [hmem]
      show (s.mem.db.setIndexGoods goods).2.IndexList l ↔ _
      rw [setIndexGoods_list hdb hlen horders]
      constructor
      · rintro rfl
        exact ⟨_, indexRows_list {}, rfl⟩
      · rintro ⟨l₀, -, rfl⟩
        rfl
  · exact .inr h

theorem editDone_add (hfit : NumbersFit s.mem (.jsonrpc conn .adminAddIndexGoods params))
    (hended : (s.turn (prog cfg) (.jsonrpc conn .adminAddIndexGoods params) is).ended
      s.procs.length = true) :
    EditDone s.procs.length (.jsonrpc conn .adminAddIndexGoods params)
      ((s.turn (prog cfg) (.jsonrpc conn .adminAddIndexGoods params) is).returned s.procs.length)
      s.mem (s.turn (prog cfg) (.jsonrpc conn .adminAddIndexGoods params) is).mem := by
  have hserve : Ends (serve cfg ⟨conn, s.procs.length⟩ (.jsonrpc conn .adminAddIndexGoods params))
      s.mem _ := ends_serve (ends_admin rfl
        (.bind ends_thisSession fun _ _ => ends_adminAddIndexGoods params))
  rcases turn_of_ends hserve hended with ⟨hret, reply, m, hdone, hmem⟩ | h
  · obtain ⟨g, hentry, horder, rfl, rfl⟩ := hdone
    have hnext : s.mem.db.nextOrderFits := by
      simpa [NumbersFit, Request.indexOp, hentry] using hfit
    refine .inl ⟨hret, by rw [hmem]; rfl, .add g.entry, ?_, fun l => ?_⟩
    · rw [Request.indexOp, hentry]
      rfl
    · rw [hmem]
      exact persistIndexGoods_list hnext horder
  · exact .inr h

theorem editDone_remove
    (hended : (s.turn (prog cfg) (.jsonrpc conn .adminRemoveIndexGoods params) is).ended
      s.procs.length = true) :
    EditDone s.procs.length (.jsonrpc conn .adminRemoveIndexGoods params)
      ((s.turn (prog cfg) (.jsonrpc conn .adminRemoveIndexGoods params) is).returned s.procs.length)
      s.mem (s.turn (prog cfg) (.jsonrpc conn .adminRemoveIndexGoods params) is).mem := by
  have hserve : Ends (serve cfg ⟨conn, s.procs.length⟩
      (.jsonrpc conn .adminRemoveIndexGoods params)) s.mem _ := ends_serve (ends_admin rfl
        (.bind ends_thisSession fun _ _ => ends_adminRemoveIndexGoods params))
  rcases turn_of_ends hserve hended with ⟨hret, reply, m, hdone, hmem⟩ | h
  · obtain ⟨x, hentry, rfl, rfl⟩ := hdone
    refine .inl ⟨hret, by rw [hmem]; rfl, .remove x, ?_, fun l => ?_⟩
    · rw [Request.indexOp, hentry]
      rfl
    · rw [hmem]
      exact eraseIndexGoods_list
  · exact .inr h

theorem listDone {method : ReqMethod}
    (h : Ends (handleJsonrpcCall cfg ⟨conn, s.procs.length⟩ method params) s.mem fun reply t =>
      ∃ l, s.mem.db.IndexList l ∧ reply = .products (l.map s.mem.shown) ∧ t = s.mem)
    (hended : (s.turn (prog cfg) (.jsonrpc conn method params) is).ended s.procs.length = true) :
    ListDone s.procs.length
      ((s.turn (prog cfg) (.jsonrpc conn method params) is).returned s.procs.length)
      s.mem (s.turn (prog cfg) (.jsonrpc conn method params) is).mem := by
  rcases turn_of_ends (q := .jsonrpc conn method params) (ends_serve h) hended with
    ⟨-, reply, m, ⟨l, hl, rfl, rfl⟩, hmem⟩ | ⟨hret, hmem⟩
  · rw [hmem]
    exact ⟨rfl, fun _ => ⟨l, hl, rfl⟩⟩
  · rw [hmem, hret]
    exact ⟨rfl, fun hfalse => absurd hfalse (by decide)⟩

/-- One turn after the other. -/
def turnOf (cfg : Config) (s : Service) (t : Request × List Input) : Service :=
  s.turn (prog cfg) t.1 t.2

/-- The turn runs to its end. -/
def TurnEnds (cfg : Config) (s : Service) (t : Request × List Input) : Prop :=
  (turnOf cfg s t).ended s.procs.length = true

instance (cfg : Config) (s : Service) (t : Request × List Input) : Decidable (TurnEnds cfg s t) :=
  inferInstanceAs (Decidable (_ = true))

/-- What one turn does to the list and says of it. -/
structure IndexTurn (cfg : Config) (s : Service) (t : Request × List Input) : Prop where
  edited : t.1.editsIndex = true → EditDone s.procs.length t.1
    ((turnOf cfg s t).returned s.procs.length) s.mem (turnOf cfg s t).mem
  listed : t.1.listsIndex = true → ListDone s.procs.length
    ((turnOf cfg s t).returned s.procs.length) s.mem (turnOf cfg s t).mem
  /-- With answers enough of a database that works. -/
  answered : Answerable s.mem t.1 → (∀ i ∈ t.2, i.dbOk = true) →
    5 + s.mem.db.indexGoods.length < t.2.length →
    (turnOf cfg s t).returned s.procs.length = true

theorem editDone {q : Request} (hq : q.editsIndex = true) (hfit : NumbersFit s.mem q)
    (hended : TurnEnds cfg s (q, is)) :
    EditDone s.procs.length q ((s.turn (prog cfg) q is).returned s.procs.length) s.mem
      (s.turn (prog cfg) q is).mem := by
  unfold Request.editsIndex at hq
  split at hq
  · exact editDone_set hfit hended
  · exact editDone_add hfit hended
  · exact editDone_remove hended
  · cases hq

theorem listsDone {q : Request} (hq : q.listsIndex = true) (hended : TurnEnds cfg s (q, is)) :
    ListDone s.procs.length ((s.turn (prog cfg) q is).returned s.procs.length) s.mem
      (s.turn (prog cfg) q is).mem := by
  unfold Request.listsIndex at hq
  split at hq
  · exact listDone (ends_admin rfl (.bind ends_thisSession fun _ _ => ends_indexReply)) hended
  · rename_i params
    refine listDone (ends_goods rfl ?_) hended
    have hnone : (Json.getString params "merchant").toNat? = none := of_decide_eq_true hq
    rw [handleJsonrpcGoodsApi, goodsList, hnone]
    exact ends_indexReply
  · cases hq

/-- The handler of a request by an administrator is reached. -/
theorem replies_adminRequest {conn r n : Nat} {method : ReqMethod} {params : JsonObject} {m : Mem}
    {handler : M Reply} (hadmin : m.isAdmin conn = true) (hapi : method.api = .admin)
    (hhandler : handleJsonrpcAdminApi ⟨conn, r⟩ method params =
      (thisSession ⟨conn, r⟩ >>= fun _ => handler))
    (h : Replies handler m n fun _ _ => True) :
    Replies (serve cfg ⟨conn, r⟩ (.jsonrpc conn method params)) m n fun _ _ => True := by
  obtain ⟨a, ha⟩ := isAdmin_session hadmin
  refine replies_serve (Q := fun _ _ => True) (replies_admin hadmin hapi ?_)
  rw [hhandler, ← Nat.zero_add n]
  refine .bind (replies_thisSession ha) fun b t ht => ?_
  rw [ht.2]
  exact h

theorem turn_answered {q : Request} (hq : q.editsIndex = true ∨ q.listsIndex = true)
    (hans : Answerable s.mem q) (hok : ∀ i ∈ is, i.dbOk = true)
    (hlen : 5 + s.mem.db.indexGoods.length < is.length) :
    (s.turn (prog cfg) q is).returned s.procs.length = true := by
  obtain ⟨n, hn, hserve⟩ : ∃ n, n ≤ 5 + s.mem.db.indexGoods.length ∧
      Replies (serve cfg ⟨q.conn, s.procs.length⟩ q) s.mem n fun _ _ => True := by
    rcases hq with hq | hq
    · unfold Request.editsIndex at hq
      split at hq
      · rename_i conn params
        obtain ⟨hadmin, hop⟩ := hans
        cases hl : indexEntries params with
        | none => simp [Request.indexOp, hl] at hop
        | some l =>
          exact ⟨2, by omega, replies_adminRequest hadmin rfl rfl (replies_adminSetIndexGoods hl)⟩
      · rename_i conn params
        obtain ⟨hadmin, hop⟩ := hans
        cases hx : indexEntry params with
        | none => simp [Request.indexOp, hx] at hop
        | some x =>
          have hproduct : (s.mem.productOf x.1 x.2 "x").isSome = true := by
            simpa [Request.indexOp, hx] using hop
          exact ⟨5, by omega, replies_adminRequest hadmin rfl rfl
            (replies_adminAddIndexGoods hx hproduct)⟩
      · rename_i conn params
        obtain ⟨hadmin, hop⟩ := hans
        cases hx : indexEntry params with
        | none => simp [Request.indexOp, hx] at hop
        | some x =>
          exact ⟨2, by omega, replies_adminRequest hadmin rfl rfl (replies_adminRemoveIndexGoods hx)⟩
      · cases hq
    · unfold Request.listsIndex at hq
      split at hq
      · exact ⟨4 + s.mem.db.indexGoods.length, by omega,
          replies_adminRequest hans rfl rfl replies_indexReply⟩
      · rename_i params
        have hnone : (Json.getString params "merchant").toNat? = none := of_decide_eq_true hq
        refine ⟨4 + s.mem.db.indexGoods.length, by omega, replies_serve (Q := fun _ _ => True) (replies_goods hans rfl ?_)⟩
        rw [handleJsonrpcGoodsApi, goodsList, hnone]
        exact replies_indexReply
      · cases hq
  exact turn_of_replies hserve hok (by omega)

theorem indexTurn {t : Request × List Input} (hq : t.1.editsIndex = true ∨ t.1.listsIndex = true)
    (hended : TurnEnds cfg s t) (hfit : NumbersFit s.mem t.1) : IndexTurn cfg s t where
  edited hedit := editDone hedit hfit hended
  listed hlist := listsDone hlist hended
  answered hans hok hlen := turn_answered hq hans hok hlen

/-- The operations of the turns that were answered. -/
def answeredOps (cfg : Config) : Service → List (Request × List Input) → List IndexOp
  | _, [] => []
  | s, t :: ts =>
    (if (turnOf cfg s t).returned s.procs.length then t.1.indexOp.toList else []) ++
      answeredOps cfg (turnOf cfg s t) ts

/-- What one turn makes of the list. -/
theorem indexTurn_list {t : Request × List Input}
    (hq : t.1.editsIndex = true ∨ t.1.listsIndex = true) (h : IndexTurn cfg s t)
    (l : List IndexEntry) :
    (turnOf cfg s t).mem.db.IndexList l ↔ ∃ l₀, s.mem.db.IndexList l₀ ∧
      l = (if (turnOf cfg s t).returned s.procs.length then t.1.indexOp.toList else []).foldl
        (fun l op => op.apply l) l₀ := by
  by_cases hedit : t.1.editsIndex = true
  · rcases h.edited hedit with ⟨hret, -, op, hop, hlist⟩ | ⟨hret, hmem⟩
    · rw [hret, hop, hlist]
      simp
    · rw [hret, hmem]
      simp
  · have hlist : t.1.listsIndex = true := hq.resolve_left hedit
    have hop : t.1.indexOp = none := by
      unfold Request.indexOp
      split <;> simp_all [Request.editsIndex]
    rw [hop, (h.listed hlist).1]
    simp

end Turns

/-! ## Runs -/

/-- Whatever the table holds at first, one request after the other does to the list what its
operation says and is answered with `true`, `list_index_goods` shows the list, and a request
that makes sense is answered; the table must not be empty when it is set, and the numbers
that are given must be ones of type `int`. -/
theorem index_page_is_list (cfg : Config) (s : Service) (ts : List (Request × List Input))
    (hreq : ∀ t ∈ ts, t.1.editsIndex = true ∨ t.1.listsIndex = true)
    (hended : Meets (turnOf cfg) (TurnEnds cfg) s ts)
    (hfit : Meets (turnOf cfg) (fun s t => NumbersFit s.mem t.1) s ts) :
    Meets (turnOf cfg) (IndexTurn cfg) s ts ∧
      ∀ l, (run (turnOf cfg) s ts).mem.db.IndexList l ↔ ∃ l₀, s.mem.db.IndexList l₀ ∧
        l = (answeredOps cfg s ts).foldl (fun l op => op.apply l) l₀ := by
  induction ts generalizing s with
  | nil => exact ⟨trivial, fun l => by simp [answeredOps]⟩
  | cons t ts ih =>
    have hq := hreq t (List.mem_cons_self ..)
    have hturn : IndexTurn cfg s t := indexTurn hq hended.1 hfit.1
    obtain ⟨hmeets, hlist⟩ := ih (turnOf cfg s t)
      (fun t' ht' => hreq t' (List.mem_cons_of_mem t ht')) hended.2 hfit.2
    refine ⟨⟨hturn, hmeets⟩, fun l => ?_⟩
    rw [run_cons, hlist, answeredOps]
    simp only [List.foldl_append]
    constructor
    · rintro ⟨l₁, hl₁, rfl⟩
      obtain ⟨l₀, hl₀, rfl⟩ := (indexTurn_list hq hturn l₁).mp hl₁
      exact ⟨l₀, hl₀, rfl⟩
    · rintro ⟨l₀, hl₀, rfl⟩
      exact ⟨_, (indexTurn_list hq hturn _).mpr ⟨l₀, hl₀, rfl⟩, rfl⟩

/-! ## An empty table -/

/-- Connection 0 is that of administrator 9; merchant 5 sells tea. -/
def emptyIndexPage (rows : List CmallIndexPageGoods) : Mem where
  db :=
    { users := [{ uid := 9 }]
      administrators := [⟨9, some 9⟩]
      indexGoods := rows }
  heapTop := 1
  heap _ := { userInfo := some { uid := 9 }, adminInfo := some ⟨9, some { uid := 9 }⟩, isAdmin := true }
  conn c := if c = 0 then { sessionInfo := some 0 } else {}
  repos m := if m = 5 then some
    { getProduct := fun goods => .ok ⟨goods, "tea", "", "10", "", "", 5, "", []⟩
      getFileContent := fun _ => .error .goodsNotFound
      getSupportedPayment := []
      getProducts := [] } else none

def entryParams (merchantId : Int) (goods : String) : JsonObject :=
  [("merchant_id", .int64 merchantId), ("goods_id", .string goods)]

/-- Tea is put on the list again, taken off it everywhere and put on it once more. -/
theorem index_page_is_list_tea :
    let s : Service := Sys.idle (emptyIndexPage [⟨1, 5, "tea", 0⟩])
    let ts := [(Request.jsonrpc 0 .adminAddIndexGoods (entryParams 5 "tea"), List.replicate 7 {}),
      (.jsonrpc 0 .adminRemoveIndexGoods (entryParams 5 "tea"), List.replicate 7 {}),
      (.jsonrpc 0 .adminAddIndexGoods (entryParams 5 "tea"), List.replicate 7 {})]
    (run (turnOf bareConfig) s ts).mem.db.IndexList [(5, "tea")] :=
  ((index_page_is_list bareConfig _ _ (by decide) (by decide) (by decide)).2 [(5, "tea")]).mpr
    ⟨[(5, "tea")], ⟨[⟨1, 5, "tea", 0⟩], .refl _, List.pairwise_singleton _ _, rfl⟩, by decide⟩

/-- An administrator sets the list while the table is empty: the request can be answered and
is answered, but with `false`, and the list stays empty. -/
theorem index_page_is_not_set :
    let s : Service := Sys.idle (emptyIndexPage [])
    let q := Request.jsonrpc 0 .adminSetIndexGoods
      [("list", .array [.object (entryParams 5 "tea")])]
    let t := turnOf bareConfig s (q, List.replicate 7 {})
    q.indexOp = some (.set [(5, "tea")]) ∧ Answerable s.mem q ∧
      t.returned 0 = true ∧ t.mem.trace.head? = some (.replied 0 (.bool false)) ∧
      t.mem.db.indexGoods = [] ∧ ¬ t.mem.db.IndexList [(5, "tea")] := by
  refine ⟨by decide, ⟨by decide, rfl⟩, by decide, by decide, by decide, ?_⟩
  rintro ⟨sorted, hperm, -, hlist⟩
  have hempty : sorted = [] := hperm.eq_nil
  rw [hempty] at hlist
  cases hlist

end Cmall
