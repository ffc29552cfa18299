import Cmall.MerchantGitRepo
import Cmall.Safety.FrontMatter

/-!
The lookups of a product agree.

All four walk over the same files, and where file names are unique at most one of them
defines a product. Only `get_product` reads the option file beside it, and a price in there
that is no number makes it throw for a product that `get_products` lists.
-/

namespace Cmall.MerchantGitRepo
open GoodsFile

/-! ## What is to hold -/

section Agree

variable (numeric : String → Option CppNumeric) (renderer : Renderer) (repo : GitRepo)
  (merchantName baseurl : String)

def GitRepo.markdownFiles (repo : GitRepo) : List File :=
  repo.files.filter fun file => extension file.name = ".md"

/-- No two Markdown files below `goods` have the same name without the extension. -/
def UniqueStems : Prop := (repo.markdownFiles.map fun file => stem file.name).Nodup

/-- The lookups agree with the list of products. -/
structure LookupsAgree (products : List GoodsProduct) : Prop where
  distinct : (products.map fun p => p.productId).Nodup
  succeeds : ∀ goodsId ec,
    (∃ p, getProduct numeric repo goodsId merchantName baseurl ec = .ok (some p, none)) ↔
      ∃ entry ∈ products, entry.productId = goodsId
  /-- The product is the entry of the list with the options beside its file. -/
  entry : ∀ goodsId ec p,
    getProduct numeric repo goodsId merchantName baseurl ec = .ok (some p, none) →
      ∃ entry ∈ products, ∃ file ∈ repo.files, defines goodsId file = true ∧
        ∃ options, optionsBeside numeric goodsId file = .ok options ∧ p = { entry with options }
  /-- The two renderings are of the body of its file. -/
  rendered : ∀ entry ∈ products, ∃ file ∈ repo.files, defines entry.productId file = true ∧
    ∃ metadata body, splitMarkdown file.content.toList = .ok (some (metadata, body)) ∧
      getProductDetail renderer repo entry.productId baseurl =
        .ok (renderer.markdownTranspile body fun url => correctUrl repo.merchantId url baseurl,
          none) ∧
      getProductHtml renderer repo entry.productId baseurl =
        .ok (renderer.markdownToHtml body fun url => correctUrl repo.merchantId url baseurl, none)
  missing : ∀ goodsId, (∀ file ∈ repo.markdownFiles, stem file.name ≠ goodsId) →
    (∀ ec, getProduct numeric repo goodsId merchantName baseurl ec =
      .ok (none, some .goodsNotFound)) ∧
    getProductDetail renderer repo goodsId baseurl = .ok ("", some .goodsNotFound) ∧
    getProductHtml renderer repo goodsId baseurl = .ok ("", some .goodsNotFound)

/-- The file defines a product. -/
def IsGoods (file : File) : Prop :=
  extension file.name = ".md" ∧ ∃ metadata body,
    splitMarkdown file.content.toList = .ok (some (metadata, body)) ∧
      (parseGoodsMetadata metadata).isSome = true

/-- All prices of an option file are numbers. -/
def PricesReadable (content : String) : Prop :=
  ∀ options, parseGoodsOption content = some options → ∀ option ∈ options,
    ∀ s ∈ option.selections, s.selectPrice = "" ∨ (numeric s.selectPrice).isSome = true

/-- So are the prices of every option file that is read for a product. -/
def OptionsReadable : Prop :=
  ∀ file ∈ repo.files, IsGoods file →
    ∀ entry, byPath file.parent (stem file.name ++ ".option") = some entry →
      entry.content.utf8ByteSize < 10000000 → PricesReadable numeric entry.content

end Agree

/-! ## One file -/

section File

variable {numeric : String → Option CppNumeric} {repo : GitRepo} {merchantName baseurl : String}
  {file : File}

variable (repo merchantName baseurl) in
/-- `to_product` does not throw, and it finds a product exactly in the files that define one. -/
theorem exists_product (hmd : extension file.name = ".md") :
    (¬ IsGoods file ∧ product repo merchantName baseurl file = .ok none) ∨
      (IsGoods file ∧ ∃ p, product repo merchantName baseurl file = .ok (some p) ∧
        p.productId = stem file.name) := by
  obtain ⟨split, hsplit⟩ := splitMarkdown_ok file.content.toList
  cases split with
  | none =>
    refine .inl ⟨?_, ?_⟩
    · rintro ⟨-, metadata, body, h, -⟩
      rw [hsplit] at h
      cases h
    · simp [product, toProduct, hsplit, bind, Except.bind, pure, Except.pure]
  | some parts =>
    obtain ⟨metadata, body⟩ := parts
    cases hparse : parseGoodsMetadata metadata with
    | none =>
      refine .inl ⟨?_, ?_⟩
      · rintro ⟨-, metadata', body', h, hsome⟩
        rw [hsplit] at h
        cases h
        rw [hparse] at hsome
        cases hsome
      · simp [product, toProduct, hsplit, hparse, bind, Except.bind, pure, Except.pure]
    | some d =>
      refine .inr ⟨⟨hmd, metadata, body, hsplit, by rw [hparse]; rfl⟩, ?_⟩
      simp [product, toProduct, hsplit, hparse, bind, Except.bind, pure, Except.pure]

theorem exists_mapM_ok {α β ε : Type} {f : α → Except ε β} (l : List α) :
    (∃ bs, l.mapM f = .ok bs) ↔ ∀ a ∈ l, ∃ b, f a = .ok b := by
  induction l with
  | nil => simp [pure, Except.pure]
  | cons a l ih =>
    rw [List.forall_mem_cons, ← ih]
    constructor
    · rintro ⟨bs, h⟩
      cases ha : f a with
      | error e => simp [List.mapM_cons, ha, bind, Except.bind] at h
      | ok b =>
        cases hl : l.mapM f with
        | error e => simp [List.mapM_cons, ha, hl, bind, Except.bind] at h
        | ok bs => exact ⟨⟨b, rfl⟩, bs, rfl⟩
    · rintro ⟨⟨b, hb⟩, bs, hbs⟩
      exact ⟨b :: bs, by simp [List.mapM_cons, hb, hbs, bind, Except.bind, pure, Except.pure]⟩

theorem exists_map_ok {α β ε : Type} {x : Except ε α} {g : α → β} :
    (∃ b, (x >>= fun a => pure (g a)) = .ok b) ↔ ∃ a, x = .ok a := by
  cases x <;> simp [bind, Except.bind, pure, Except.pure]

/-- The options are read exactly when all prices are numbers. -/
theorem exists_toProductOptions (content : String) :
    (∃ options, toProductOptions numeric content = .ok options) ↔
      PricesReadable numeric content := by
  cases hparse : parseGoodsOption content with
  | none => simp [toProductOptions, hparse, PricesReadable]
  | some blocks =>
    simp only [toProductOptions, hparse, exists_mapM_ok, PricesReadable, Option.some.injEq,
      forall_eq']
    refine forall₂_congr fun block _ => ?_
    rw [exists_map_ok, exists_mapM_ok]
    refine forall₂_congr fun s _ => ?_
    by_cases hempty : s.selectPrice = ""
    · simp [hempty, pure, Except.pure]
    · cases hprice : numeric s.selectPrice <;> simp [hempty, pure, Except.pure]

end File

/-! ## All files -/

section Files

variable {numeric : String → Option CppNumeric} {renderer : Renderer} {repo : GitRepo}
  {merchantName baseurl goodsId : String}

theorem defines_iff (file : File) : defines goodsId file = true ↔
    extension file.name = ".md" ∧ stem file.name = goodsId := by
  rw [defines, decide_eq_true_eq]
  exact and_comm

/-- At most one file defines a product. -/
theorem UniqueStems.filter_defines (h : UniqueStems repo) (goodsId : String) :
    repo.files.filter (defines goodsId) = [] ∨
      ∃ file, repo.files.filter (defines goodsId) = [file] := by
  have hfilter : repo.files.filter (defines goodsId) =
      repo.markdownFiles.filter fun file => stem file.name = goodsId := by
    rw [GitRepo.markdownFiles, List.filter_filter]
    refine List.filter_congr fun file _ => ?_
    simp [defines]
  have hcount := List.nodup_iff_count_le_one.mp h goodsId
  rw [List.count, List.countP_map, List.countP_eq_length_filter] at hcount
  rw [hfilter]
  cases hlist : repo.markdownFiles.filter fun file => stem file.name = goodsId with
  | nil => exact .inl rfl
  | cons file files =>
    refine .inr ⟨file, ?_⟩
    have hlen : (file :: files).length ≤ 1 := by
      rw [← hlist]
      exact le_of_eq_of_le (by congr 2) hcount
    cases files with
    | nil => rfl
    | cons _ _ =>
      simp only [List.length_cons] at hlen
      omega

/-- A walker that leaves all other files alone is called for the files that define the
product. -/
theorem foldlM_defines {σ : Type} {walker : File → σ → Except Exn (Bool × σ)}
    (hskip : ∀ file s, defines goodsId file = false → walker file s = .ok (false, s))
    (files : List File) (s : σ) : files.foldlM (visitFile walker) s =
      (files.filter (defines goodsId)).foldlM (visitFile walker) s := by
  induction files generalizing s with
  | nil => rfl
  | cons file files ih =>
    by_cases hdefines : defines goodsId file = true
    · rw [List.filter_cons_of_pos hdefines, List.foldlM_cons, List.foldlM_cons]
      exact congrArg _ (funext ih)
    · rw [List.filter_cons_of_neg hdefines, List.foldlM_cons, visitFile,
        hskip file s (by simpa using hdefines)]
      exact ih s

/-! ### The list -/

/-- The entry of the list that a file makes. -/
def listed (repo : GitRepo) (merchantName baseurl : String) (file : File) : Option GoodsProduct :=
  if extension file.name = ".md" then
    match product repo merchantName baseurl file with
    | .ok p => p
    | .error _ => none
  else none

variable (repo merchantName baseurl) in
theorem product_eq_listed {file : File} (hmd : extension file.name = ".md") :
    product repo merchantName baseurl file = .ok (listed repo merchantName baseurl file) := by
  rw [listed, if_pos hmd]
  rcases exists_product repo merchantName baseurl hmd with
    ⟨-, h⟩ | ⟨-, p, h, -⟩ <;> rw [h]

theorem listed_some {file : File} {p : GoodsProduct}
    (h : listed repo merchantName baseurl file = some p) :
    extension file.name = ".md" ∧ IsGoods file ∧ p.productId = stem file.name := by
  by_cases hmd : extension file.name = ".md"
  · have hproduct := product_eq_listed repo merchantName baseurl hmd
    rcases exists_product repo merchantName baseurl hmd with
      ⟨-, hnone⟩ | ⟨hgoods, q, hq, hid⟩
    · rw [hproduct, h] at hnone
      cases hnone
    · rw [hproduct, h] at hq
      cases hq
      exact ⟨hmd, hgoods, hid⟩
  · rw [listed, if_neg hmd] at h
    cases h

variable (repo merchantName baseurl) in
theorem exists_listed {file : File} (h : IsGoods file) :
    ∃ p, listed repo merchantName baseurl file = some p := by
  have hproduct := product_eq_listed repo merchantName baseurl h.1
  rcases exists_product repo merchantName baseurl h.1 with
    ⟨hno, -⟩ | ⟨-, q, hq, -⟩
  · exact absurd h hno
  · rw [hproduct] at hq
    exact ⟨q, Except.ok.inj hq⟩

theorem getProducts_eq : getProducts repo merchantName baseurl =
    .ok (repo.files.filterMap (listed repo merchantName baseurl)) := by
  have hvisit : ∀ ret file, visitFile (getProductsWalker repo merchantName baseurl) ret file =
      .ok (ret ++ (listed repo merchantName baseurl file).toList) := by
    intro ret file
    rw [visitFile, getProductsWalker]
    by_cases hmd : extension file.name = ".md"
    · rw [if_pos hmd, product_eq_listed repo merchantName baseurl hmd]
      cases listed repo merchantName baseurl file <;>
        simp [bind, Except.bind, pure, Except.pure, Except.map]
    · simp [hmd, listed, pure, Except.pure, Except.map]
  have hall : ∀ (files : List File) ret,
      files.foldlM (visitFile (getProductsWalker repo merchantName baseurl)) ret =
        .ok (ret ++ files.filterMap (listed repo merchantName baseurl)) := by
    intro files
    induction files with
    | nil => simp [pure, Except.pure]
    | cons file files ih =>
      intro ret
      rw [List.foldlM_cons, hvisit]
      simp only [bind, Except.bind, ih]
      cases hfile : listed repo merchantName baseurl file <;> simp [hfile]
  rw [getProducts, repo.walkGoods_eq, hall, List.nil_append]

/-! ### One product -/

theorem getProductWalker_skip (file : File) (s : List GoodsProduct × Option ErrorCode)
    (h : defines goodsId file = false) :
    getProductWalker numeric repo goodsId merchantName baseurl file s = .ok (false, s) := by
  simp [getProductWalker, h, pure, Except.pure]

theorem getProduct_of_nil (h : repo.files.filter (defines goodsId) = []) (ec : Option ErrorCode) :
    getProduct numeric repo goodsId merchantName baseurl ec = .ok (none, some .goodsNotFound) := by
  rw [getProduct, repo.walkGoods_eq, foldlM_defines getProductWalker_skip, h]
  rfl

/-- With a file that defines the product: not found, or the product and its options. -/
theorem getProduct_of_file {file : File} (h : repo.files.filter (defines goodsId) = [file])
    (ec : Option ErrorCode) : getProduct numeric repo goodsId merchantName baseurl ec =
      match listed repo merchantName baseurl file with
      | none => .ok (none, some .goodsNotFound)
      | some p => (optionsBeside numeric goodsId file).map fun options =>
          (some { p with options }, none) := by
  have hfile : file ∈ repo.files.filter (defines goodsId) := by simp [h]
  have hdefines := (List.mem_filter.mp hfile).2
  have hproduct := product_eq_listed repo merchantName baseurl ((defines_iff file).mp hdefines).1
  rw [getProduct, repo.walkGoods_eq, foldlM_defines getProductWalker_skip, h, List.foldlM_cons,
    visitFile, getProductWalker, if_pos hdefines, hproduct]
  cases listed repo merchantName baseurl file with
  | none => rfl
  | some p =>
    cases hoptions : optionsBeside numeric goodsId file <;>
      simp [bind, Except.bind, pure, Except.pure, Except.map]

/-! ### Renderings -/

theorem renderProduct_eq (render : List Char → (String → String) → String) :
    renderProduct repo goodsId baseurl render =
      (repo.files.filter (defines goodsId)).foldlM
        (visitFile (renderWalker repo goodsId baseurl render)) ("", some .goodsNotFound) := by
  have hskip : ∀ file s, defines goodsId file = false →
      renderWalker repo goodsId baseurl render file s = .ok (false, s) := by
    intro file s hdefines
    simp [renderWalker, hdefines, pure, Except.pure]
  rw [renderProduct, repo.walkGoods_eq, foldlM_defines hskip]

theorem renderProduct_of_nil (h : repo.files.filter (defines goodsId) = [])
    (render : List Char → (String → String) → String) :
    renderProduct repo goodsId baseurl render = .ok ("", some .goodsNotFound) := by
  rw [renderProduct_eq, h]
  rfl

theorem renderProduct_of_file {file : File} {metadata body : List Char}
    (h : repo.files.filter (defines goodsId) = [file])
    (hsplit : splitMarkdown file.content.toList = .ok (some (metadata, body)))
    (render : List Char → (String → String) → String) :
    renderProduct repo goodsId baseurl render =
      .ok (render body fun url => correctUrl repo.merchantId url baseurl, none) := by
  have hfile : file ∈ repo.files.filter (defines goodsId) := by simp [h]
  rw [renderProduct_eq, h, List.foldlM_cons, visitFile, renderWalker,
    if_pos (List.mem_filter.mp hfile).2, hsplit]
  rfl

/-! ### Agreement -/

theorem mem_filter_defines {file : File} (hmem : file ∈ repo.files)
    (hmd : extension file.name = ".md") :
    file ∈ repo.files.filter (defines (stem file.name)) :=
  List.mem_filter.mpr ⟨hmem, (defines_iff file).mpr ⟨hmd, rfl⟩⟩

/-- The one file that defines the product of a Markdown file is that file. -/
theorem UniqueStems.filter_stem (h : UniqueStems repo) {file : File} (hmem : file ∈ repo.files)
    (hmd : extension file.name = ".md") :
    repo.files.filter (defines (stem file.name)) = [file] := by
  have hfile := mem_filter_defines hmem hmd
  rcases h.filter_defines (stem file.name) with hnil | ⟨file', hone⟩
  · rw [hnil] at hfile
    cases hfile
  · rw [hone] at hfile ⊢
    rw [List.mem_singleton.mp hfile]

theorem sublist_productId (files : List File) :
    ((files.filterMap (listed repo merchantName baseurl)).map fun p => p.productId).Sublist
      ((files.filter fun file => extension file.name = ".md").map fun file => stem file.name) := by
  induction files with
  | nil => exact List.Sublist.slnil
  | cons file files ih =>
    cases hlisted : listed repo merchantName baseurl file with
    | none =>
      rw [List.filterMap_cons_none hlisted]
      refine ih.trans (List.Sublist.map _ ?_)
      exact List.Sublist.filter _ (List.sublist_cons_self file files)
    | some p =>
      obtain ⟨hmd, -, hid⟩ := listed_some hlisted
      rw [List.filterMap_cons_some hlisted, List.filter_cons_of_pos (by simpa using hmd),
        List.map_cons, List.map_cons, hid]
      exact ih.cons_cons _

theorem exists_optionsBeside {file : File} : (∃ options,
    optionsBeside numeric goodsId file = .ok options) ↔
      ∀ entry, byPath file.parent (goodsId ++ ".option") = some entry →
        entry.content.utf8ByteSize < 10000000 → PricesReadable numeric entry.content := by
  rw [optionsBeside]
  cases byPath file.parent (goodsId ++ ".option") with
  | none => simp
  | some entry =>
    simp only [Option.some.injEq, forall_eq']
    by_cases hsize : entry.content.utf8ByteSize < 10000000
    · rw [if_pos hsize, exists_toProductOptions]
      exact ⟨fun h _ => h, fun h => h hsize⟩
    · simp [hsize]

/-- A product that is found is the entry of a file with the options beside it. -/
theorem exists_file_of_getProduct (hunique : UniqueStems repo) {ec : Option ErrorCode}
    {p : GoodsProduct}
    (h : getProduct numeric repo goodsId merchantName baseurl ec = .ok (some p, none)) :
    ∃ file ∈ repo.files, defines goodsId file = true ∧ ∃ entry options,
      listed repo merchantName baseurl file = some entry ∧
        optionsBeside numeric goodsId file = .ok options ∧ p = { entry with options } := by
  rcases hunique.filter_defines goodsId with hnil | ⟨file, hone⟩
  · rw [getProduct_of_nil hnil] at h
    cases h
  · have hfile : file ∈ repo.files.filter (defines goodsId) := by simp [hone]
    obtain ⟨hmem, hdefines⟩ := List.mem_filter.mp hfile
    rw [getProduct_of_file hone] at h
    cases hentry : listed repo merchantName baseurl file with
    | none =>
      rw [hentry] at h
      cases h
    | some entry =>
      cases hoptions : optionsBeside numeric goodsId file with
      | error e =>
        rw [hentry, hoptions] at h
        cases h
      | ok options =>
        rw [hentry, hoptions] at h
        cases h
        exact ⟨file, hmem, hdefines, entry, options, hentry, hoptions, rfl⟩

theorem mem_listed {entry : GoodsProduct} :
    entry ∈ repo.files.filterMap (listed repo merchantName baseurl) ↔
      ∃ file ∈ repo.files, listed repo merchantName baseurl file = some entry :=
  List.mem_filterMap

theorem optionsReadable_of_agree (hunique : UniqueStems repo)
    (h : LookupsAgree numeric renderer repo merchantName baseurl
      (repo.files.filterMap (listed repo merchantName baseurl))) :
    OptionsReadable numeric repo := by
  intro file hfile hgoods
  obtain ⟨p, hp⟩ := exists_listed repo merchantName baseurl hgoods
  obtain ⟨q, hq⟩ := (h.succeeds (stem file.name) none).mpr
    ⟨p, mem_listed.mpr ⟨file, hfile, hp⟩, (listed_some hp).2.2⟩
  rw [getProduct_of_file (hunique.filter_stem hfile hgoods.1), hp] at hq
  refine exists_optionsBeside.mp ?_
  cases hoptions : optionsBeside numeric (stem file.name) file with
  | error e =>
    rw [hoptions] at hq
    cases hq
  | ok options => exact ⟨options, rfl⟩

theorem agree_of_optionsReadable (hunique : UniqueStems repo) (h : OptionsReadable numeric repo) :
    LookupsAgree numeric renderer repo merchantName baseurl
      (repo.files.filterMap (listed repo merchantName baseurl)) where
  distinct := (sublist_productId repo.files).nodup hunique
  succeeds goodsId ec := by
    constructor
    · rintro ⟨p, hp⟩
      obtain ⟨file, hfile, hdefines, entry, options, hentry, -, -⟩ :=
        exists_file_of_getProduct hunique hp
      refine ⟨entry, mem_listed.mpr ⟨file, hfile, hentry⟩, ?_⟩
      rw [(listed_some hentry).2.2]
      exact ((defines_iff file).mp hdefines).2
    · rintro ⟨entry, hentry, rfl⟩
      obtain ⟨file, hfile, hlisted⟩ := mem_listed.mp hentry
      obtain ⟨hmd, hgoods, hid⟩ := listed_some hlisted
      obtain ⟨options, hoptions⟩ := exists_optionsBeside.mpr (h file hfile hgoods)
      rw [hid, getProduct_of_file (hunique.filter_stem hfile hmd), hlisted, hoptions]
      exact ⟨_, rfl⟩
  entry goodsId ec p hp := by
    obtain ⟨file, hfile, hdefines, entry, options, hentry, hoptions, rfl⟩ :=
      exists_file_of_getProduct hunique hp
    exact ⟨entry, mem_listed.mpr ⟨file, hfile, hentry⟩, file, hfile, hdefines, options, hoptions,
      rfl⟩
  rendered entry hentry := by
    obtain ⟨file, hfile, hlisted⟩ := mem_listed.mp hentry
    obtain ⟨hmd, ⟨-, metadata, body, hsplit, -⟩, hid⟩ := listed_some hlisted
    have hone := hunique.filter_stem hfile hmd
    rw [← hid] at hone
    exact ⟨file, hfile, (defines_iff file).mpr ⟨hmd, hid.symm⟩, metadata, body, hsplit,
      renderProduct_of_file hone hsplit _, renderProduct_of_file hone hsplit _⟩
  missing goodsId hmissing := by
    have hnil : repo.files.filter (defines goodsId) = [] := by
      refine List.filter_eq_nil_iff.mpr fun file hfile hdefines => ?_
      obtain ⟨hmd, hstem⟩ := (defines_iff file).mp hdefines
      exact hmissing file (List.mem_filter.mpr ⟨hfile, by simpa using hmd⟩) hstem
    exact ⟨getProduct_of_nil hnil, renderProduct_of_nil hnil _, renderProduct_of_nil hnil _⟩

/-- With unique file names, the lookups agree exactly when the prices of the option files are
numbers. -/
theorem product_lookups_agree_iff (hunique : UniqueStems repo) :
    (∃ products, getProducts repo merchantName baseurl = .ok products ∧
      LookupsAgree numeric renderer repo merchantName baseurl products) ↔
        OptionsReadable numeric repo := by
  rw [getProducts_eq]
  constructor
  · rintro ⟨_, hproducts, hagree⟩
    cases hproducts
    exact optionsReadable_of_agree hunique hagree
  · exact fun h => ⟨_, rfl, agree_of_optionsReadable hunique h⟩

end Files

/-! ## A shop with tea -/

/-- Whole numbers. -/
def digitsNumeric (text : String) : Option CppNumeric :=
  if text.toList.all Char.isDigit then some ((Nat.ofDigitChars 10 text.toList 0 : Nat) : Rat)
  else none

def plainRenderer : Renderer where
  markdownTranspile body _ := String.ofList body
  markdownToHtml body _ := String.ofList body

def teaEntries (options : String) : Tree :=
  [.blob "tea.md" "---\ntitle: tea\n---\nGreen tea.\n", .blob "tea.option" options]

/-- One product, and its option file. -/
def teaShop (options : String) : GitRepo where
  merchantId := 1
  head := "c0ffee"
  tree := [.tree "goods" [.tree "leaf" (teaEntries options)]]

def teaFile (options : String) : File :=
  ⟨"tea.md", "---\ntitle: tea\n---\nGreen tea.\n", teaEntries options⟩

theorem teaShop_files (options : String) : (teaShop options).files =
    [teaFile options, ⟨"tea.option", options, teaEntries options⟩] := rfl

theorem teaShop_unique (options : String) : UniqueStems (teaShop options) := by
  have hmd : extension "tea.md" = ".md" := by decide
  have hoption : extension "tea.option" ≠ ".md" := by decide
  simp [UniqueStems, GitRepo.markdownFiles, teaShop_files, teaFile, hmd, hoption]

theorem teaFile_isGoods (options : String) : IsGoods (teaFile options) := by
  have hmd : extension "tea.md" = ".md" := by decide
  have hsplit : splitMarkdown "---\ntitle: tea\n---\nGreen tea.\n".toList =
      .ok (some ("---\ntitle: tea\n---\n".toList, "Green tea.\n".toList)) := by decide
  exact ⟨hmd, _, _, hsplit, by decide⟩

theorem product_lookups_agree_iff_for_tea :
    (∃ products, getProducts (teaShop "#Size\nbig 5\n") "shop" "" = .ok products ∧
      LookupsAgree digitsNumeric plainRenderer (teaShop "#Size\nbig 5\n") "shop" "" products) ↔
        OptionsReadable digitsNumeric (teaShop "#Size\nbig 5\n") :=
  product_lookups_agree_iff (teaShop_unique _)

/-- The product is in the list, and looking it up throws. -/
theorem unreadable_price_hides_product :
    (∃ products, getProducts (teaShop "#Size\nbig abc\n") "shop" "" = .ok products ∧
      (∃ p ∈ products, p.productId = "tea") ∧
      ¬ LookupsAgree digitsNumeric plainRenderer (teaShop "#Size\nbig abc\n") "shop" "" products) ∧
      getProduct digitsNumeric (teaShop "#Size\nbig abc\n") "tea" "shop" "" none =
        .error (.std "cpp_numeric") := by
  have hstem : stem (teaFile "#Size\nbig abc\n").name = "tea" := by decide
  have hmem : teaFile "#Size\nbig abc\n" ∈ (teaShop "#Size\nbig abc\n").files := by
    simp [teaShop_files]
  obtain ⟨p, hp⟩ := exists_listed (teaShop "#Size\nbig abc\n") "shop" "" (teaFile_isGoods "#Size\nbig abc\n")
  have hentry : ∃ p ∈ (teaShop "#Size\nbig abc\n").files.filterMap
      (listed (teaShop "#Size\nbig abc\n") "shop" ""), p.productId = "tea" :=
    ⟨p, mem_listed.mpr ⟨_, hmem, hp⟩, (listed_some hp).2.2.trans hstem⟩
  have hbeside : optionsBeside digitsNumeric "tea" (teaFile "#Size\nbig abc\n") =
      .error (.std "cpp_numeric") := by decide
  have hone := (teaShop_unique "#Size\nbig abc\n").filter_stem hmem (teaFile_isGoods _).1
  rw [hstem] at hone
  have hthrow : getProduct digitsNumeric (teaShop "#Size\nbig abc\n") "tea" "shop" "" none =
      .error (.std "cpp_numeric") := by
    rw [getProduct_of_file hone, hp, hbeside]
    rfl
  refine ⟨⟨_, getProducts_eq, hentry, fun h => ?_⟩, hthrow⟩
  obtain ⟨q, hq⟩ := (h.succeeds "tea" none).mpr hentry
  rw [hthrow] at hq
  cases hq

end Cmall.MerchantGitRepo
