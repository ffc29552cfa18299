import Cmall.HttpServer
import Mathlib.Tactic.IntervalCases

/-!
The coding of URI components: `util::uri` in `url_parser.hpp`, and the decoder of `httpd` in
`http_misc_helper.cpp`.

A `char` is a signed byte. What its arithmetic gives is converted back to a `char`, which
wraps around.
-/

namespace Cmall.Uri

/-- A character of the source. -/
instance coeChar : Coe Char Int8 := ⟨fun c => Int8.ofNat c.toNat⟩

/-- The bytes of a text of the source. -/
def chars (text : String) : List Int8 := text.toList.map (↑)

/-! ## The character classes -/

def isdigit (c : Int8) : Bool := '0' ≤ c ∧ c ≤ '9'

def isalpha (c : Int8) : Bool := 'a' ≤ c ∧ c ≤ 'z' ∨ 'A' ≤ c ∧ c ≤ 'Z'

def uriMark (c : Int8) : Bool :=
  c = '-' ∨ c = '_' ∨ c = '.' ∨ c = '!' ∨ c = '~' ∨ c = '*' ∨ c = '\'' ∨ c = '(' ∨ c = ')'

def uriReserved (c : Int8) : Bool :=
  c = ';' ∨ c = '/' ∨ c = '?' ∨ c = ':' ∨ c = '@' ∨ c = '&' ∨ c = '=' ∨ c = '+' ∨ c = '$' ∨ c = ','

def hexstring : List Int8 := chars "0123456789abcdef"

/-- An entry of the table of two digits. -/
def toHex (c : UInt8) : List Int8 :=
  [hexstring.getD (c.toNat / 16) 0, hexstring.getD (c.toNat % 16) 0]

/-! ## The coding -/

def encodeURIComponent (str : List Int8) : List Int8 :=
  str.flatMap fun c =>
    if isalpha c ∨ isdigit c ∨ uriMark c then [c] else '%' :: toHex c.toUInt8

/-- What a hexadecimal digit counts; `digit` is the test for a decimal one. -/
def hexDigit (digit : Int8 → Bool) (c : Int8) : Except Exn Int8 :=
  if digit c then .ok (c - '0')
  else if 'A' ≤ c ∧ c ≤ 'F' then .ok (c - 'A' + 10)
  else if 'a' ≤ c ∧ c ≤ 'f' then .ok (c - 'a' + 10)
  else .error (.std "URI malformed")

/-- A hexadecimal digit of either case. -/
def IsHex (c : Int8) : Prop := c ∈ chars "0123456789abcdefABCDEF"

instance (c : Int8) : Decidable (IsHex c) := List.instDecidableMemOfLawfulBEq c _

/-- The loop of both decoders. -/
def decode (digit : Int8 → Bool) : List Int8 → Except Exn (List Int8)
  | [] => .ok []
  | c :: str =>
    if c = '%' then
      match str with
      | first :: second :: str => do
        let high ← hexDigit digit first
        let low ← hexDigit digit second
        return ((high <<< 4) + low) :: (← decode digit str)
      | _ => .error (.std "URI malformed")
    else do return c :: (← decode digit str)

def decodeURIComponent (str : List Int8) : Except Exn (List Int8) := decode isdigit str

/-! ## Whole URIs -/

def encodeURI (str : List Int8) : List Int8 :=
  str.flatMap fun c =>
    if isalpha c ∨ isdigit c ∨ uriMark c ∨ uriReserved c then [c] else '%' :: toHex c.toUInt8

/-- The triples that stay as they are; only the `%` of one is consumed then. -/
def keepsEscape (c : Int8) : Bool := uriReserved c ∨ c = '#'

def decodeURI : List Int8 → Except Exn (List Int8)
  | [] => .ok []
  | c :: str =>
    if c = '%' then
      match str with
      | first :: second :: rest => do
        let high ← hexDigit isdigit first
        let low ← hexDigit isdigit second
        if keepsEscape ((high <<< 4) + low) then
          return c :: (← decodeURI (first :: second :: rest))
        else return ((high <<< 4) + low) :: (← decodeURI rest)
      | _ => .error (.std "URI malformed")
    else do return c :: (← decodeURI str)

/-! ## Bytes -/

theorem ofNat_toUInt8 (c : Int8) : Int8.ofNat c.toUInt8.toNat = c := by
  apply Int8.toBitVec.inj
  simp [Int8.ofNat]

theorem toUInt8_ofNat {n : Nat} (h : n < 256) : (Int8.ofNat n).toUInt8.toNat = n :=
  UInt8.toNat_ofNat_of_lt' h

/-- What holds of the 256 values holds of every byte. -/
theorem forall_byte {P : Int8 → Prop} (h : ∀ n < 256, P (Int8.ofNat n)) (c : Int8) : P c := by
  have hc := h c.toUInt8.toNat c.toUInt8.toNat_lt
  rwa [ofNat_toUInt8] at hc

theorem isHex_iff (c : Int8) : IsHex c ↔ (hexDigit isdigit c).isOk = true := by
  revert c
  apply forall_byte
  decide +kernel

theorem decode_cons_ne {digit : Int8 → Bool} {c : Int8} (h : c ≠ '%') (str : List Int8) :
    decode digit (c :: str) = (decode digit str).map (c :: ·) := by
  rw [decode.eq_def]
  simp only [if_neg h]
  cases decode digit str <;> rfl

theorem decode_triple {digit : Int8 → Bool} {first second high low : Int8}
    (hfirst : hexDigit digit first = .ok high) (hsecond : hexDigit digit second = .ok low)
    (str : List Int8) : decode digit (('%' : Int8) :: first :: second :: str) =
      (decode digit str).map (((high <<< 4) + low) :: ·) := by
  simp only [decode, if_true, hfirst, hsecond]
  cases decode digit str <;> rfl

end Cmall.Uri

namespace Cmall.Httpd

/-- `isdigit` of the C library, the `char` being promoted. -/
def isdigit (c : Int) : Bool := '0'.toNat ≤ c ∧ c ≤ '9'.toNat

def decodeURIComponent (str : List Int8) : Except Exn (List Int8) :=
  Uri.decode (fun c => isdigit c.toInt) str

end Cmall.Httpd
