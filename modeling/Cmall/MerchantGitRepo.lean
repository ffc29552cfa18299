import Cmall.GoodsFile
import Cmall.Selection

/-!
`merchant_git_repo.cpp`: the tree of a merchant's repository, and the four walks over the
directory `goods` that look products up.
-/

namespace Cmall.MerchantGitRepo
open GoodsFile

/-! ## Trees -/

/-- An entry of a git tree; `other` is neither a tree nor a blob. -/
inductive TreeEntry where
  | blob (name : String) (content : String)
  | tree (name : String) (entries : List TreeEntry)
  | other (name : String)

abbrev Tree := List TreeEntry

def TreeEntry.name : TreeEntry → String
  | .blob name _ => name
  | .tree name _ => name
  | .other name => name

/-- `by_path`, for a path without a slash. -/
def byPath (tree : Tree) (path : String) : Option TreeEntry :=
  tree.find? fun entry => entry.name = path

/-- `get_blob` and `get_content`: nothing when the object is no blob. -/
def TreeEntry.content : TreeEntry → String
  | .blob _ content => content
  | .tree _ _ => ""
  | .other _ => ""

/-- `get_tree_by_treeid`: nothing when the object is no tree. -/
def TreeEntry.entries : TreeEntry → Tree
  | .blob _ _ => []
  | .tree _ entries => entries
  | .other _ => []

/-- The head commit of a repository, and the merchant it belongs to. -/
structure GitRepo where
  merchantId : Nat
  head : String
  tree : Tree

/-- A blob that the walker is called for, and the tree it is in. -/
structure File where
  name : String
  content : String
  parent : Tree

section Treewalk

variable {σ : Type} (walker : File → σ → Except Exn (Bool × σ))

mutual

/-- What the walker returns ends only the `switch`. -/
def visitEntry (tree : Tree) : TreeEntry → σ → Except Exn σ
  | .blob name content, s => (walker ⟨name, content, tree⟩ s).map Prod.snd
  | .tree _ entries, s => visitEntries entries entries s
  | .other _, s => .ok s

def visitEntries (tree : Tree) : Tree → σ → Except Exn σ
  | [], s => .ok s
  | entry :: rest, s => do
    let s ← visitEntry tree entry s
    visitEntries tree rest s

end

def treewalk (tree : Tree) (s : σ) : Except Exn σ := visitEntries walker tree tree s

end Treewalk

/-! ## File names -/

/-- `stem()` and `extension()` of a `std::filesystem::path` without a slash. -/
def stemExtension (name : String) : String × String :=
  if name = "." ∨ name = ".." then (name, "")
  else
    match name.toList.reverse.dropWhile (· ≠ '.') with
    | _ :: x :: stem =>
      (String.ofList (x :: stem).reverse,
        String.ofList ('.' :: (name.toList.reverse.takeWhile (· ≠ '.')).reverse))
    | _ => (name, "")

def stem (name : String) : String := (stemExtension name).1
def extension (name : String) : String := (stemExtension name).2

/-! ## Lookups -/

inductive ErrorCode where
  | notFound
  | goodsNotFound
  deriving DecidableEq, Repr

/-- What the Markdown library makes of a body, given how it is to correct an address. -/
structure Renderer where
  markdownTranspile : List Char → (String → String) → String
  markdownToHtml : List Char → (String → String) → String

/-- The tree that is walked over, if there is one. -/
def GitRepo.goods (repo : GitRepo) : Option Tree := (byPath repo.tree "goods").map TreeEntry.entries

/-- `if (!goods.empty()) treewalk(…)`. -/
def GitRepo.walkGoods {σ : Type} (repo : GitRepo) (walker : File → σ → Except Exn (Bool × σ))
    (s : σ) : Except Exn σ :=
  match repo.goods with
  | none => .ok s
  | some tree => treewalk walker tree s

/-- The file that defines the product. -/
def defines (goodsId : String) (file : File) : Bool :=
  stem file.name = goodsId ∧ extension file.name = ".md"

section Lookups

variable (numeric : String → Option CppNumeric) (renderer : Renderer) (repo : GitRepo)
  (goodsId merchantName baseurl : String)

/-- `to_product`, and the version and id that the walks set. -/
def product (file : File) : Except Exn (Option GoodsProduct) := do
  match ← toProduct repo.merchantId file.content.toList merchantName baseurl with
  | none => return none
  | some p => return some { p with gitVersion := repo.head, productId := stem file.name }

/-- The options that stand beside the file. -/
def optionsBeside (file : File) : Except Exn (List ProductOption) :=
  match byPath file.parent (goodsId ++ ".option") with
  | none => .ok []
  | some entry =>
    if entry.content.utf8ByteSize < 10000000 then toProductOptions numeric entry.content else .ok []

/-- The walker of `get_product`: what it has found, and the error code. -/
def getProductWalker (file : File) (s : List GoodsProduct × Option ErrorCode) :
    Except Exn (Bool × List GoodsProduct × Option ErrorCode) :=
  if defines goodsId file then do
    match ← product repo merchantName baseurl file with
    | none => return (false, s.1, some .notFound)
    | some p =>
      let options ← optionsBeside numeric goodsId file
      return (true, s.1 ++ [{ p with options }], none)
  else return (false, s)

/-- `get_product`; the product that comes with an error code is empty. -/
def getProduct (ec : Option ErrorCode) : Except Exn (Option GoodsProduct × Option ErrorCode) := do
  let (ret, ec) ←
    repo.walkGoods (getProductWalker numeric repo goodsId merchantName baseurl) ([], ec)
  match ret with
  | p :: _ => return (some p, ec)
  | [] => return (none, some .goodsNotFound)

def getProductsWalker (file : File) (ret : List GoodsProduct) :
    Except Exn (Bool × List GoodsProduct) :=
  if extension file.name = ".md" then do
    match ← product repo merchantName baseurl file with
    | none => return (false, ret)
    | some p => return (false, ret ++ [p])
  else return (false, ret)

def getProducts : Except Exn (List GoodsProduct) :=
  repo.walkGoods (getProductsWalker repo merchantName baseurl) []

/-- The walker of `get_product_detail` and `get_product_html`. -/
def renderWalker (render : List Char → (String → String) → String) (file : File)
    (s : String × Option ErrorCode) : Except Exn (Bool × String × Option ErrorCode) :=
  if defines goodsId file then do
    match ← splitMarkdown file.content.toList with
    | none => return (false, s.1, some .notFound)
    | some (_, body) =>
      return (true, render body fun url => correctUrl repo.merchantId url baseurl, none)
  else return (false, s)

def renderProduct (render : List Char → (String → String) → String) :
    Except Exn (String × Option ErrorCode) :=
  repo.walkGoods (renderWalker repo goodsId baseurl render) ("", some .goodsNotFound)

def getProductDetail : Except Exn (String × Option ErrorCode) :=
  renderProduct repo goodsId baseurl renderer.markdownTranspile

def getProductHtml : Except Exn (String × Option ErrorCode) :=
  renderProduct repo goodsId baseurl renderer.markdownToHtml

end Lookups

/-! ## The files that are walked over -/

mutual

def entryFiles (tree : Tree) : TreeEntry → List File
  | .blob name content => [⟨name, content, tree⟩]
  | .tree _ entries => entriesFiles entries entries
  | .other _ => []

def entriesFiles (tree : Tree) : Tree → List File
  | [] => []
  | entry :: rest => entryFiles tree entry ++ entriesFiles tree rest

end

/-- All files below `goods`, in the order of the walk. -/
def GitRepo.files (repo : GitRepo) : List File :=
  match repo.goods with
  | none => []
  | some tree => entriesFiles tree tree

section Files

variable {σ : Type} (walker : File → σ → Except Exn (Bool × σ))

/-- The walker, for the state only. -/
def visitFile (s : σ) (file : File) : Except Exn σ := (walker file s).map Prod.snd

mutual

theorem visitEntry_eq (tree : Tree) (s : σ) : ∀ entry : TreeEntry,
    visitEntry walker tree entry s = (entryFiles tree entry).foldlM (visitFile walker) s
  | .blob name content => by simp [visitEntry, entryFiles, visitFile]
  | .tree name entries => by
    rw [visitEntry, entryFiles]
    exact visitEntries_eq entries s entries
  | .other name => rfl

theorem visitEntries_eq (tree : Tree) (s : σ) : ∀ entries : Tree,
    visitEntries walker tree entries s = (entriesFiles tree entries).foldlM (visitFile walker) s
  | [] => rfl
  | entry :: rest => by
    rw [visitEntries, entriesFiles, List.foldlM_append, visitEntry_eq tree s entry]
    congr 1
    funext s
    exact visitEntries_eq tree s rest

end

/-- A walk calls the walker for the files in turn. -/
theorem treewalk_eq (tree : Tree) (s : σ) :
    treewalk walker tree s = (entriesFiles tree tree).foldlM (visitFile walker) s :=
  visitEntries_eq walker tree s tree

theorem GitRepo.walkGoods_eq (repo : GitRepo) (s : σ) :
    repo.walkGoods walker s = repo.files.foldlM (visitFile walker) s := by
  unfold GitRepo.walkGoods GitRepo.files
  cases repo.goods with
  | none => rfl
  | some tree => exact treewalk_eq walker tree s

end Files

end Cmall.MerchantGitRepo
