import Cmall.Ranking
import Cmall.Transition
import Mathlib.Data.Finset.Basic

/-!
The search index: `search_service.cpp`, with `load_merchant_git` and `repo_push_check` of
`cmall.cpp`, which fill it and keep it up to date.

Every read of a repository is a step of its own on a thread of the pool, so pushes may come
between the reads of one reload. What a commit holds under `goods/` is given by `goods`: for
each product file the name without `.md` and its keywords.
-/

namespace Cmall.Search

/-- A commit, by the text of `as_sha1_string`. -/
structure Oid where
  sha1 : String
  digits : sha1.length = 40
  deriving DecidableEq

structure Keyword where
  keyword : String
  rank : Nat
  deriving DecidableEq, Repr

structure Product where
  merchantId : Nat
  productId : String
  keywords : List Keyword
  deriving DecidableEq, Repr

/-- `keyword_index_item`. -/
structure Item where
  keyWord : String
  ranke : Nat
  merchantId : Nat
  goodsId : String
  deriving DecidableEq, Repr

/-- `goods_ref` -/
structure GoodsRef where
  merchantId : Nat
  goodsId : String
  deriving DecidableEq, Repr

/-- `target` -/
def Item.target (item : Item) : GoodsRef := ⟨item.merchantId, item.goodsId⟩

/-- `to_product` gives every keyword rank 1 and every product the merchant of the repository. -/
def toProduct (merchantId : Nat) (file : String × List String) : Product :=
  { merchantId := merchantId, productId := file.1, keywords := file.2.map fun k => ⟨k, 1⟩ }

/-- `get_products` at a commit. -/
def getProducts (goods : Oid → List (String × List String)) (merchantId : Nat) (oid : Oid) :
    List Product :=
  (goods oid).map (toProduct merchantId)

/-- What `add_merchant_unlocked` inserts. -/
def itemsOf (products : List Product) : List Item :=
  products.flatMap fun p => p.keywords.map fun k =>
    { keyWord := k.keyword, ranke := k.rank, merchantId := p.merchantId, goodsId := p.productId }

/-- Where the background task of a merchant stands. The tasks that read for
`reload_merchant` differ from those of `add_merchant` in what they do with the index. -/
inductive Phase where
  /-- In `coro_yield`. -/
  | starting
  /-- In `git_head`. -/
  | head (reload : Bool)
  /-- In `get_products`. -/
  | products (reload : Bool) (head : Oid)
  /-- Both are read, and the lock is not taken yet. -/
  | update (reload : Bool) (head : Oid) (products : List Product)
  /-- In the timer of `repo_push_check`. -/
  | sleeping
  /-- In `check_repo_changed`. -/
  | checking (cached : String)
  | ended
  deriving DecidableEq

structure Task where
  merchant : Nat
  phase : Phase

structure State where
  /-- The commits that were `HEAD` of the repository of a merchant, newest first. -/
  commits : Nat → List Oid
  /-- `merchant_repos` -/
  merchantRepos : Finset Nat
  indexdb : List Item
  merchantGitSnap : Nat → String
  tasks : List Task

/-- Before the first merchant is loaded. -/
def State.start (commits : Nat → List Oid) : State :=
  { commits := commits, merchantRepos := ∅, indexdb := [], merchantGitSnap := fun _ => "", tasks := [] }

def State.cachedHead (s : State) (merchant : Nat) : String := s.merchantGitSnap merchant

def State.head (s : State) (merchant : Nat) : Option Oid := (s.commits merchant).head?

/-- `indexdb.get<tags::merchant_id>().equal_range(merchant)` -/
def State.entries (s : State) (merchant : Nat) : List Item :=
  s.indexdb.filter fun item => item.merchantId = merchant

inductive Step where
  /-- A push moves `HEAD`. -/
  | push (merchant : Nat) (oid : Oid)
  /-- `load_merchant_git`; the flag is what `is_git_repo` says. -/
  | load (merchant : Nat) (isGitRepo : Bool)
  /-- A task goes on, unless what it waits for has failed. -/
  | advance (n : Nat) (ok : Bool)

/-- The end of `add_merchant` and of `reload_merchant`, under the lock. -/
def State.update (s : State) (merchant : Nat) (reload : Bool) (head : Oid)
    (products : List Product) : State :=
  let kept := if reload then s.indexdb.filter fun item => item.merchantId ≠ merchant else s.indexdb
  { s with
    indexdb := kept ++ itemsOf products
    merchantGitSnap := fun v => if v = merchant then head.sha1 else s.merchantGitSnap v }

/-- A segment of a task that is not the update: where it stands next. -/
def nextPhase (goods : Oid → List (String × List String)) (s : State) (merchant : Nat) :
    Phase → Phase
  | .starting => if merchant ∈ s.merchantRepos then .head false else .ended
  | .head reload =>
    match s.head merchant with
    | none => .ended
    | some oid => .products reload oid
  | .products reload head =>
    match s.head merchant with
    | none => .ended
    | some oid => .update reload head (getProducts goods merchant oid)
  | .update _ _ _ => .sleeping
  | .sleeping => .checking (s.cachedHead merchant)
  | .checking cached =>
    match s.head merchant with
    | none => .ended
    | some oid => if oid.sha1 ≠ cached then .head true else .sleeping
  | .ended => .ended

/-- What a segment does to the shared state. -/
def effect (s : State) (merchant : Nat) : Phase → State
  | .update reload head products => s.update merchant reload head products
  | _ => s

def step (goods : Oid → List (String × List String)) (s : State) : Step → State
  | .push merchant oid =>
    { s with commits := fun v => if v = merchant then oid :: s.commits v else s.commits v }
  | .load merchant isGitRepo =>
    if isGitRepo then
      { s with
        merchantRepos := insert merchant s.merchantRepos
        tasks := s.tasks ++ [⟨merchant, .starting⟩] }
    else { s with merchantRepos := s.merchantRepos.erase merchant }
  | .advance n ok =>
    match s.tasks[n]? with
    | none => s
    | some t =>
      if ok then
        { effect s t.merchant t.phase with
          tasks := s.tasks.set n ⟨t.merchant, nextPhase goods s t.merchant t.phase⟩ }
      else { s with tasks := s.tasks.set n ⟨t.merchant, .ended⟩ }

/-! ## Searching -/

/-- `indexdb.get<tags::key_word>().equal_range(search_string)` -/
def equalRange (indexdb : List Item) (searchString : String) : List Item :=
  indexdb.filter fun item => item.keyWord = searchString

/-- The inner loop body. The rankings are whole numbers, which a double holds exactly. -/
def addResult (searchStrings : List String) (resultTmp : List (Ranking.Ranked GoodsRef))
    (item : Item) : List (Ranking.Ranked GoodsRef) :=
  match Ranking.push ⟨item.target, 0 - item.ranke⟩ resultTmp with
  | some inserted => inserted
  | none =>
    Ranking.modify item.target (fun old => old - item.ranke - searchStrings.length) resultTmp

/-- The container `result_tmp` at the end of the loops, in the order of its ranked index. -/
def rankedResults (indexdb : List Item) (searchStrings : List String) :
    List (Ranking.Ranked GoodsRef) :=
  searchStrings.foldl
    (fun resultTmp searchString =>
      (equalRange indexdb searchString).foldl (addResult searchStrings) resultTmp) []

/-- `search_goods`; `none` is the read of `search_strings[0]` past the end. -/
def searchGoods (indexdb : List Item) (searchStrings : List String) : Option (List GoodsRef) :=
  match searchStrings with
  | [] => none
  | _ :: _ => some (((rankedResults indexdb searchStrings).take 80).map (·.ref))

end Cmall.Search
