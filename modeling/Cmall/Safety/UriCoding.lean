import Cmall.UriCoding

/-!
The coding of URI components.

The decoder inverts the encoder on every byte string, and the decoder of `httpd` is the same
function. The decoder that the routes of the HTTP server are stated with, one character a
byte, gives the same bytes.
-/

namespace Cmall.Uri

/-! ## The digits of a byte -/

theorem hexDigit_hexstring {n : Nat} (h : n < 16) :
    hexDigit isdigit (hexstring.getD n 0) = .ok (Int8.ofNat n) := by
  interval_cases n <;> rfl

theorem shift_add {n : Nat} (h : n < 256) :
    (Int8.ofNat (n / 16) <<< 4) + Int8.ofNat (n % 16) = Int8.ofNat n := by
  revert n
  decide +kernel

theorem decode_toHex (c : Int8) (str : List Int8) :
    decode isdigit (('%' : Int8) :: toHex c.toUInt8 ++ str) =
      (decode isdigit str).map (c :: ·) := by
  have hc : c.toUInt8.toNat < 256 := c.toUInt8.toNat_lt
  have hhigh := hexDigit_hexstring (n := c.toUInt8.toNat / 16) (by omega)
  have hlow := hexDigit_hexstring (n := c.toUInt8.toNat % 16) (by omega)
  have hsum := shift_add hc
  rw [ofNat_toUInt8] at hsum
  have htriple := decode_triple hhigh hlow str
  rw [hsum] at htriple
  exact htriple

/-! ## The encoding -/

/-- The bytes that are not escaped: letters, digits and marks. -/
def Unreserved (c : Int8) : Prop := isalpha c ∨ isdigit c ∨ uriMark c

instance (c : Int8) : Decidable (Unreserved c) :=
  inferInstanceAs (Decidable (isalpha c = true ∨ isdigit c = true ∨ uriMark c = true))

/-- A text of unreserved bytes and `%XX` triples. -/
inductive Escaped : List Int8 → Prop
  | nil : Escaped []
  | byte {c : Int8} {str : List Int8} (hc : Unreserved c) (hstr : Escaped str) :
      Escaped (c :: str)
  | triple {first second : Int8} {str : List Int8} (hfirst : IsHex first)
      (hsecond : IsHex second) (hstr : Escaped str) :
      Escaped (('%' : Int8) :: first :: second :: str)

theorem encodeURIComponent_nil : encodeURIComponent [] = [] := rfl

theorem encodeURIComponent_cons (c : Int8) (str : List Int8) : encodeURIComponent (c :: str) =
    (if Unreserved c then [c] else '%' :: toHex c.toUInt8) ++ encodeURIComponent str := by
  rw [encodeURIComponent, List.flatMap_cons]
  rfl

theorem unreserved_ne {c : Int8} (h : Unreserved c) : c ≠ '%' := by
  rintro rfl
  revert h
  decide

theorem isHex_hexstring {n : Nat} (h : n < 16) : IsHex (hexstring.getD n 0) := by
  interval_cases n <;> decide

theorem decode_encode (str : List Int8) :
    decodeURIComponent (encodeURIComponent str) = .ok str := by
  unfold decodeURIComponent
  induction str with
  | nil => rfl
  | cons c str ih =>
    rw [encodeURIComponent_cons]
    by_cases hc : Unreserved c
    · rw [if_pos hc, List.cons_append, List.nil_append, decode_cons_ne (unreserved_ne hc), ih]
      rfl
    · rw [if_neg hc, decode_toHex, ih]
      rfl

theorem escaped_encode (str : List Int8) : Escaped (encodeURIComponent str) := by
  induction str with
  | nil => exact .nil
  | cons c str ih =>
    rw [encodeURIComponent_cons]
    by_cases hc : Unreserved c
    · rw [if_pos hc]
      exact .byte hc ih
    · rw [if_neg hc]
      have hlt : c.toUInt8.toNat < 256 := c.toUInt8.toNat_lt
      exact .triple (isHex_hexstring (by omega)) (isHex_hexstring (by omega)) ih

/-! ## The decoder of `httpd` -/

theorem isdigit_eq (c : Int8) : Httpd.isdigit c.toInt = isdigit c := by
  simp only [Httpd.isdigit, isdigit, Int8.le_iff_toInt_le]
  rfl

theorem httpd_decode (str : List Int8) :
    Httpd.decodeURIComponent str = decodeURIComponent str := by
  have hdigit : (fun c : Int8 => Httpd.isdigit c.toInt) = isdigit := funext isdigit_eq
  rw [Httpd.decodeURIComponent, hdigit, decodeURIComponent]

/-- A byte as the routes see it. -/
def toChar (c : Int8) : Char := Char.ofNat c.toUInt8.toNat

theorem toChar_ofNat {n : Nat} (h : n < 256) : toChar (Int8.ofNat n) = Char.ofNat n := by
  rw [toChar, toUInt8_ofNat h]

theorem toChar_eq_percent (c : Int8) : toChar c = '%' ↔ c = '%' := by
  revert c
  apply forall_byte
  decide +kernel

theorem hexDigit_toChar (c : Int8) : hexDigit isdigit c =
    match Http.hexDigit (toChar c) with
    | some n => .ok (Int8.ofNat n)
    | none => .error (.std "URI malformed") := by
  revert c
  apply forall_byte
  decide +kernel

theorem hexDigit_lt {c : Char} {n : Nat} (h : Http.hexDigit c = some n) : n < 16 := by
  have hbound : ∀ a b : Char, a ≤ b ↔ a.toNat ≤ b.toNat := fun a b => Iff.rfl
  have hdigit : '0'.toNat = 48 ∧ '9'.toNat = 57 := ⟨rfl, rfl⟩
  have hupper : 'A'.toNat = 65 ∧ 'F'.toNat = 70 := ⟨rfl, rfl⟩
  have hlower : 'a'.toNat = 97 ∧ 'f'.toNat = 102 := ⟨rfl, rfl⟩
  simp only [Http.hexDigit, hbound] at h
  split at h
  · cases h
    omega
  · split at h
    · cases h
      omega
    · split at h
      · cases h
        omega
      · cases h

theorem toChar_shift {high low : Nat} (hhigh : high < 16) (hlow : low < 16) :
    toChar ((Int8.ofNat high <<< 4) + Int8.ofNat low) = Char.ofNat (16 * high + low) := by
  have hsum := shift_add (n := 16 * high + low) (by omega)
  rw [show (16 * high + low) / 16 = high by omega, show (16 * high + low) % 16 = low by omega]
    at hsum
  rw [hsum, toChar_ofNat (by omega)]

theorem toChar_percent : toChar '%' = '%' := rfl

/-- The decoder of the routes gives the bytes that the one of `httpd` gives. -/
theorem decodeChars_toChar (str : List Int8) : Http.decodeChars (str.map toChar) =
    (Httpd.decodeURIComponent str).map (List.map toChar) := by
  rw [httpd_decode, decodeURIComponent]
  fun_induction decode isdigit str with
  | case1 => rfl
  | case2 first second str ih =>
    simp only [List.map_cons, toChar_percent, Http.decodeChars, if_true, hexDigit_toChar first,
      hexDigit_toChar second, ih]
    cases hfirst : Http.hexDigit (toChar first) with
    | none => rfl
    | some high =>
      cases hsecond : Http.hexDigit (toChar second) with
      | none => rfl
      | some low =>
        have hbyte := toChar_shift (hexDigit_lt hfirst) (hexDigit_lt hsecond)
        cases decode isdigit str with
        | error e => rfl
        | ok str =>
          exact congrArg (fun c => Except.ok (c :: str.map toChar)) hbyte.symm
  | case3 str hshort =>
    -- fewer than two characters follow the percent sign
    cases str with
    | nil => rfl
    | cons first str =>
      cases str with
      | nil => rfl
      | cons second str => exact absurd rfl (hshort first second str)
  | case4 c str hc ih =>
    have hpercent : toChar c ≠ '%' := fun h => hc ((toChar_eq_percent c).mp h)
    rw [List.map_cons, Http.decodeChars.eq_def]
    simp only [if_neg hpercent, ih]
    cases decode isdigit str <;> rfl

/-- Decoding gives back what was encoded, the encoding is a text of unreserved bytes and
triples, and the two decoders are one function. -/
theorem uriComponent_coding (str : List Int8) :
    decodeURIComponent (encodeURIComponent str) = .ok str ∧
    Escaped (encodeURIComponent str) ∧
    Httpd.decodeURIComponent str = decodeURIComponent str :=
  ⟨decode_encode str, escaped_encode str, httpd_decode str⟩

end Cmall.Uri
