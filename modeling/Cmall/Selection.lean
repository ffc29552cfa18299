import Cmall.CartApi
import Cmall.OrderApi
import Cmall.Spirit
import Mathlib.Algebra.GroupWithZero.Nat

/-!
Selections as text: the grammar of `selection_parser.hpp` that reads them back from a cart
row or a snapshot, and the parser of `goods_option_grammer.hpp` that the titles and names
in an order come from.
-/

namespace Cmall
open Spirit

structure SelectionItem where
  option : String
  select : String
  deriving DecidableEq, Repr

/-! ## `selection_descrption_grammer` -/

namespace SelectionGrammar

def optionName : Rule (List Char) :=
  plus fun c => c ≠ '\n' ∧ c ≠ '\r' ∧ c ≠ ':' ∧ c ≠ ';'

def value : Rule (List Char) := plus fun c => c ≠ ';' ∧ c ≠ '\n'

def item : Rule SelectionItem := fun input => do
  let (option, input) ← optionName input
  let (_, input) ← lit ':' input
  let (select, input) ← value input
  let (_, input) ← lit ';' input
  return (⟨String.ofList option, String.ofList select⟩, input)

/-- What is left of the input is not looked at. -/
def document (input : List Char) : Option (List SelectionItem) := do
  let (first, rest) ← item input
  return first :: (kleene item rest).1

end SelectionGrammar

def parseSelectionDescriptionString (document : String) : Option (List SelectionItem) :=
  SelectionGrammar.document document.toList

/-! ## The `.option` file of a product -/

namespace GoodsOptionsParser

structure Selection where
  selectName : String
  selectPrice : String
  deriving DecidableEq, Repr

structure GoodsOption where
  optionName : String := ""
  selections : List Selection := []
  deriving DecidableEq, Repr

/-- `std::isspace` in the classic locale. -/
def isSpace (c : Char) : Bool :=
  c = ' ' ∨ c = '\t' ∨ c = '\n' ∨ c = '\x0b' ∨ c = '\x0c' ∨ c = '\r'

/-- `boost::algorithm::trim_copy`. -/
def trimCopy (l : List Char) : List Char :=
  ((l.dropWhile isSpace).reverse.dropWhile isSpace).reverse

/-- The number of bytes of a line. -/
def size (l : List Char) : Nat := (l.map Char.utf8Size).sum

/-- The line below a title: a name, or a name and a price. -/
def GoodsOption.addLine (block : GoodsOption) (l : List Char) : GoodsOption :=
  match l.splitOnP fun c => c = ' ' ∨ c = '\t' with
  | [name] => { block with selections := block.selections ++ [⟨String.ofList name, "0"⟩] }
  | [name, price] =>
    { block with selections := block.selections ++ [⟨String.ofList name, String.ofList price⟩] }
  | _ => block

/-- The loop of `parse_lines`: the block that has been begun and the finished ones. -/
def parseBlocks : List (List Char) → Bool → GoodsOption → List GoodsOption → List GoodsOption
  | [], hasBlock, curBlock, ret => if hasBlock then ret ++ [curBlock] else ret
  | l :: lines, hasBlock, curBlock, ret =>
    if size l < 2 then parseBlocks lines hasBlock curBlock ret
    else if l.head? = some '#' then
      parseBlocks lines true ⟨String.ofList (trimCopy l.tail), []⟩
        (if hasBlock then ret ++ [curBlock] else ret)
    else parseBlocks lines hasBlock (curBlock.addLine l) ret

def parseLines (lines : List (List Char)) : Option (List GoodsOption) :=
  match parseBlocks lines false {} [] with
  | [] => none
  | ret => some ret

end GoodsOptionsParser

open GoodsOptionsParser in
def parseGoodsOption (document : String) : Option (List GoodsOption) :=
  parseLines (document.toList.splitOnP fun c => c = '\r' ∨ c = '\n')

/-- `to_product_options`; `cpp_numeric` throws on a text that is no number. -/
def toProductOptions (numeric : String → Option CppNumeric) (content : String) :
    Except Exn (List ProductOption) :=
  match parseGoodsOption content with
  | none => .ok []
  | some options => options.mapM fun go => do
    let selections ← go.selections.mapM fun s =>
      if s.selectPrice = "" then pure ⟨s.selectName, 0⟩
      else match numeric s.selectPrice with
        | some price => pure ⟨s.selectName, price⟩
        | none => .error (.std "cpp_numeric")
    return ⟨go.optionName, selections⟩

end Cmall
