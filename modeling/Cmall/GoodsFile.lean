import Cmall.Service
import Cmall.Spirit
import Cmall.StringView

/-!
The file of a product: its front matter (`split_markdown`), the grammar of the metadata in
`goods_md_metadata_grammer.hpp`, and the product that `to_product` makes of it.
-/

namespace Cmall.GoodsFile
open Spirit

/-! ## `split_markdown` -/

/-- What is searched for. -/
def fence : List Char := "---\n".toList

/-- `substr` throws when the position is behind the end. -/
def inRange (t : Option (List Char)) : Except Exn (List Char) :=
  match t with
  | some t => .ok t
  | none => .error (.std "out_of_range")

/-- `none` is `not_found`. Where there is no second fence, `npos` is compared and calculated
with. -/
def splitMarkdown (md : List Char) : Except Exn (Option (List Char × List Char)) :=
  match StringView.find md fence 0 with
  | none => .ok none
  | some first =>
    match StringView.find md fence (first + 4) with
    | some second =>
      if first + 4 < second then do
        let metadata ← inRange (StringView.substr md first (second - first + 4))
        let mainBody ← inRange (StringView.substrFrom md (second + 4))
        return some (metadata, mainBody)
      else .ok none
    | none => do
      let metadata ← inRange (StringView.substr md first (StringView.sub (StringView.npos + 4) first))
      let mainBody ← inRange (StringView.substrFrom md (StringView.sub (StringView.npos + 4) 0))
      return some (metadata, mainBody)

/-! ## `goods_description` -/

structure KV where
  k : String
  v : String
  deriving DecidableEq, Repr

structure GoodsDescription where
  title : String := ""
  price : String := ""
  kuaidifei : String := ""
  picture : List String := []
  keywords : List String := []
  description : String := ""
  restMeta : List KV := []
  deriving DecidableEq, Repr

/-- `operator=`, which merges. -/
def GoodsDescription.assign (d other : GoodsDescription) : GoodsDescription where
  title := if d.title = "" then other.title else d.title
  price := if d.price = "" then other.price else d.price
  kuaidifei := if d.kuaidifei = "" then other.kuaidifei else d.kuaidifei
  picture := d.picture ++ other.picture
  keywords := d.keywords ++ other.keywords
  description := if d.description = "" then other.description else d.description
  restMeta := d.restMeta ++ other.restMeta

/-! ## `goods_description_grammer` -/

def newline : Rule Unit := choice (lits ['\r', '\n']) (lit '\n')

def documentSperator : Rule Unit := fun input => do
  let (_, input) ← lits "---".toList input
  newline input

def key : Rule (List Char) := plus fun c => c ≠ ':' ∧ c ≠ '-' ∧ c ≠ ' '

def value : Rule (List Char) := plus fun c => c ≠ '\n'

def keyword : Rule (List Char) := plus fun c => c ≠ '\n' ∧ c ≠ ' '

/-- The lines of one value: `lit(name) >> *space >> ':' >> *space >> value >> newline`. -/
def valueLine (name : String) : Rule String := fun input => do
  let (_, input) ← lits name.toList input
  let (_, input) ← lit ':' (input.dropWhile isSpace)
  let (v, input) ← value (input.dropWhile isSpace)
  let (_, input) ← newline input
  return (String.ofList v, input)

def titleLine : Rule String := valueLine "title"
def priceLine : Rule String := valueLine "price"
def kuaidifeLine : Rule String := valueLine "kuaidifei"
def descriptionLine : Rule String := valueLine "description"
def pictureLine : Rule String := valueLine "picture"

/-- `+lit(' ') >> keyword`. -/
def nextKeyword : Rule (List Char) := fun input => do
  let (_, input) ← plus (fun c => c = ' ') input
  keyword input

def keywords : Rule (List String) := fun input => do
  let (first, input) ← keyword input
  let (rest, input) := kleene nextKeyword input
  return ((first :: rest).map String.ofList, input)

def keywordLine : Rule (List String) := fun input => do
  let (_, input) ← lits "keyword".toList input
  let (_, input) ← lit ':' (input.dropWhile isSpace)
  let (words, input) ← keywords (input.dropWhile isSpace)
  let (_, input) ← newline (input.dropWhile fun c => c = ' ')
  return (words, input)

def pairLine : Rule KV := fun input => do
  let (k, input) ← key input
  let (_, input) ← lit ':' input
  let (v, input) ← value (input.dropWhile isSpace)
  let (_, input) ← newline input
  return (⟨String.ofList k, String.ofList v⟩, input)

def line : Rule GoodsDescription :=
  choice (action titleLine fun v => { title := v }) <|
  choice (action priceLine fun v => { price := v }) <|
  choice (action kuaidifeLine fun v => { kuaidifei := v }) <|
  choice (action descriptionLine fun v => { description := v }) <|
  choice (action pictureLine fun v => { picture := [v] }) <|
  choice (action keywordLine fun words => { keywords := words }) <|
  action pairLine fun kv => { restMeta := [kv] }

/-- Every line is assigned to the attribute in turn. -/
def lines : Rule GoodsDescription := fun input => do
  let (first, input) ← line input
  let (rest, input) := kleene line input
  return ((first :: rest).foldl GoodsDescription.assign {}, input)

def document : Rule GoodsDescription := fun input => do
  let (_, input) ← documentSperator input
  let (d, input) ← lines input
  let (_, input) ← documentSperator input
  return (GoodsDescription.assign {} d, input)

/-- What is left of the document is not looked at. -/
def parseGoodsMetadata (text : List Char) : Option GoodsDescription := (document text).map Prod.fst

/-! ## `to_product` -/

structure GoodsKeyword where
  keyword : String
  rank : Rat := 1
  deriving DecidableEq, Repr

/-- The product with the fields that are not kept elsewhere. -/
structure GoodsProduct extends Product where
  pics : List String := []
  keywords : List GoodsKeyword := []
  deriving DecidableEq, Repr

/-- `((\/)|(\.\/)|(\.\.\/))?dir(.*)`: the last group. -/
def urlTail (dir url : String) : Option (List Char) :=
  ["/", "./", "../", ""].findSome? fun start =>
    (lits (start ++ dir).toList url.toList).map Prod.snd

def correctUrl (merchantId : Nat) (originalUrl baseurl : String) : String :=
  if originalUrl = "" then originalUrl
  else if "http".toList <+: originalUrl.toList then originalUrl
  else
    match urlTail "images/" originalUrl, urlTail "css/" originalUrl with
    | some tail, _ =>
      baseurl ++ "/repos/" ++ Nat.repr merchantId ++ "/images/" ++ String.ofList tail
    | none, some tail =>
      baseurl ++ "/repos/" ++ Nat.repr merchantId ++ "/css/" ++ String.ofList tail
    | none, none => originalUrl

/-- `none` is `not_found`. -/
def toProduct (merchantId : Nat) (markdownContent : List Char) (merchantName baseurl : String) :
    Except Exn (Option GoodsProduct) := do
  match ← splitMarkdown markdownContent with
  | none => return none
  | some (metadata, _) =>
    match parseGoodsMetadata metadata with
    | some d =>
      return some
        { productId := "", productTitle := d.title, productPrice := d.price
          productDescription := d.description, kuaidifei := d.kuaidifei, gitVersion := ""
          merchantId, merchantName, options := []
          pics := d.picture.map fun url => correctUrl merchantId url baseurl
          keywords := d.keywords.map fun word => { keyword := word } }
    | none => return none

end Cmall.GoodsFile
