import Cmall.UriCoding

/-!
The parameters of a query: `uri::qs_iterator` of `url_parser.hpp`.

A view is an address and a size. What is computed with them has 64 bits and wraps around.
-/

namespace Cmall.Uri

/-- `string_view`, of the memory. -/
structure Span where
  data : Nat := 0
  size : Nat := 0
  deriving DecidableEq, Repr

/-- `query_`: the characters, and where they stand. They are not the last of the memory. -/
structure Query where
  str : List Int8
  data : Nat
  fits : data + str.length + 1 < 2 ^ 64

namespace Query

/-- The characters under a view. -/
def text (q : Query) (span : Span) : List Int8 := (q.str.drop (span.data - q.data)).take span.size

/-- The view lies in the query. -/
def Inside (q : Query) (span : Span) : Prop :=
  q.data ≤ span.data ∧ span.data + span.size ≤ q.data + q.str.length

end Query

/-! ## The iterator -/

def findFirstOf (str : List Int8) (c : Int8) : Option Nat := str.findIdx? (· = c)

structure QsIterator where
  qs_ : Span := {}
  value_ : Span × Span := ({}, {})
  deriving DecidableEq, Repr

namespace QsIterator

/-- `operator==`. -/
def same (q : Query) (it other : QsIterator) : Bool :=
  let equal (a b : Span) : Bool := a.size = b.size ∧ q.text a = q.text b
  equal it.value_.1 other.value_.1 && equal it.value_.2 other.value_.2

def makeValue (q : Query) (it : QsIterator) : QsIterator :=
  match findFirstOf (q.text it.qs_) '=' with
  | none => it
  | some f =>
    let e := (findFirstOf (q.text it.qs_) '&').getD it.qs_.size
    let size := (((e : Int) - f - 1) % 2 ^ 64).toNat
    { it with value_ := (⟨it.qs_.data, f⟩, ⟨it.qs_.data + f + 1, size⟩) }

def increment (q : Query) (it : QsIterator) : QsIterator :=
  let second := (it.value_.2.data + it.value_.2.size + 1) % 2 ^ 64
  let last := it.qs_.data + it.qs_.size
  if last ≤ second then { it with value_ := ({}, {}) }
  else makeValue q { qs_ := ⟨second, last - second⟩ }

def qsBegin (q : Query) : QsIterator := makeValue q { qs_ := ⟨q.data, q.str.length⟩ }

def qsEnd : QsIterator := {}

/-- What a loop sees from an iterator to the end, if it gets there in so many steps. -/
def iterate (q : Query) : Nat → QsIterator → Option (List (Span × Span))
  | 0, _ => none
  | fuel + 1, it =>
    if same q it qsEnd then some []
    else (iterate q fuel (increment q it)).map (it.value_ :: ·)

end QsIterator

/-! ## The parameters -/

/-- The text before the first `=` of a segment, and the text after it. -/
def parameter (segment : List Int8) : List Int8 × List Int8 :=
  (segment.takeWhile (· ≠ ('=' : Int8)), (segment.dropWhile (· ≠ ('=' : Int8))).drop 1)

/-- The parameters of a query: its segments that have an `=`. -/
def parameters (segments : List (List Int8)) : List (List Int8 × List Int8) :=
  (segments.filter fun segment => segment.contains ('=' : Int8)).map parameter

/-- No segment without an `=` comes before one that has it, and none is a lone `=`. -/
structure Regular (segments : List (List Int8)) : Prop where
  ordered : segments.Pairwise fun earlier later => ('=' : Int8) ∈ later → ('=' : Int8) ∈ earlier
  nonempty : [('=' : Int8)] ∉ segments

end Cmall.Uri
