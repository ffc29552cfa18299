import Mathlib.Data.List.DropRight
import Mathlib.Data.Rat.Cast.Order
import Mathlib.Tactic.FieldSimp
import Mathlib.Tactic.Ring

/-!
Decimal texts: a sign, digits, and a point with digits behind it. What such a text denotes, and
that zeros at its end may go.
-/

namespace DecimalText

def unsigned (text : List Char) : List Char := if text.head? = some '-' then text.drop 1 else text

def whole (text : List Char) : List Char := (unsigned text).takeWhile (· ≠ '.')

def fraction (text : List Char) : List Char := ((unsigned text).dropWhile (· ≠ '.')).drop 1

/-- The number that a text denotes. -/
def value (text : List Char) : Rat :=
  (if text.head? = some '-' then -1 else 1) *
    (Nat.ofDigitChars 10 (whole text ++ fraction text) 0 / 10 ^ (fraction text).length)

structure IsDecimal (text : List Char) : Prop where
  nonempty : whole text ≠ []
  whole_digits : ∀ c ∈ whole text, c.isDigit = true
  fraction_digits : ∀ c ∈ fraction text, c.isDigit = true

/-- The text is a decimal text of the number. -/
structure Denotes (text : List Char) (x : Rat) : Prop where
  decimal : IsDecimal text
  value : value text = x

/-- It ends in no point, and in no zero behind a point. -/
structure Canonical (text : List Char) : Prop where
  point : text.getLast? ≠ some '.'
  zero : '.' ∈ text → text.getLast? ≠ some '0'

theorem Denotes.unique {text : List Char} {x y : Rat} (hx : Denotes text x) (hy : Denotes text y) :
    x = y := hx.value.symm.trans hy.value

/-! ## The parts of a text -/

section Parts

variable {negative : Bool} {digits behind : List Char}

def sign (negative : Bool) : List Char := if negative then ['-'] else []

/-- The text with a point. -/
def pointed (negative : Bool) (digits behind : List Char) : List Char :=
  sign negative ++ (digits ++ '.' :: behind)

theorem isDigit_ne {c : Char} (h : c.isDigit = true) : c ≠ '-' ∧ c ≠ '.' := by
  constructor
  · rintro rfl
    revert h
    decide
  · rintro rfl
    revert h
    decide

theorem head?_sign (hne : digits ≠ []) (hdigits : ∀ c ∈ digits, c.isDigit = true)
    (negative : Bool) (rest : List Char) :
    (sign negative ++ (digits ++ rest)).head? = some '-' ↔ negative = true := by
  cases negative with
  | true => exact iff_of_true rfl rfl
  | false =>
    refine iff_of_false ?_ Bool.false_ne_true
    cases digits with
    | nil => exact absurd rfl hne
    | cons c digits =>
      intro h
      exact (isDigit_ne (hdigits c (.head _))).1 (Option.some.inj h)

theorem unsigned_sign (hne : digits ≠ []) (hdigits : ∀ c ∈ digits, c.isDigit = true)
    (negative : Bool) (rest : List Char) :
    unsigned (sign negative ++ (digits ++ rest)) = digits ++ rest := by
  rw [unsigned]
  simp only [head?_sign hne hdigits]
  cases negative <;> rfl

theorem digits_ne_point (hdigits : ∀ c ∈ digits, c.isDigit = true) :
    ∀ c ∈ digits, decide (c ≠ '.') = true :=
  fun c hc => decide_eq_true (isDigit_ne (hdigits c hc)).2

variable (hne : digits ≠ []) (hdigits : ∀ c ∈ digits, c.isDigit = true)
include hne hdigits

theorem whole_pointed : whole (pointed negative digits behind) = digits := by
  rw [whole, pointed, unsigned_sign hne hdigits,
    List.takeWhile_append_of_pos (digits_ne_point hdigits), List.takeWhile_cons_of_neg (by decide),
    List.append_nil]

theorem fraction_pointed : fraction (pointed negative digits behind) = behind := by
  rw [fraction, pointed, unsigned_sign hne hdigits,
    List.dropWhile_append_of_pos (digits_ne_point hdigits), List.dropWhile_cons_of_neg (by decide),
    List.drop_succ_cons, List.drop_zero]

theorem value_pointed : value (pointed negative digits behind) =
    (if negative = true then -1 else 1) *
      (Nat.ofDigitChars 10 (digits ++ behind) 0 / 10 ^ behind.length) := by
  have hhead := head?_sign hne hdigits negative ('.' :: behind)
  rw [value, whole_pointed hne hdigits, fraction_pointed hne hdigits]
  simp only [pointed, hhead]

theorem isDecimal_pointed (hbehind : ∀ c ∈ behind, c.isDigit = true) :
    IsDecimal (pointed negative digits behind) where
  nonempty := by rwa [whole_pointed hne hdigits]
  whole_digits := by rwa [whole_pointed hne hdigits]
  fraction_digits := by rwa [fraction_pointed hne hdigits]

/-- A text without a point denotes what it denotes with one at its end. -/
theorem denotes_whole {x : Rat} (h : Denotes (pointed negative digits []) x) :
    Denotes (sign negative ++ digits) x := by
  have hunsigned := unsigned_sign hne hdigits negative []
  have hhead := head?_sign hne hdigits negative []
  rw [List.append_nil] at hunsigned hhead
  have hall : ∀ c ∈ digits, decide (c ≠ '.') = true := digits_ne_point hdigits
  have hwhole : whole (sign negative ++ digits) = digits := by
    rw [whole, hunsigned, List.takeWhile_eq_self_iff.mpr hall]
  have hfraction : fraction (sign negative ++ digits) = [] := by
    rw [fraction, hunsigned, List.dropWhile_eq_nil_iff.mpr hall, List.drop_nil]
  refine ⟨⟨by rwa [hwhole], by rwa [hwhole], by rw [hfraction]; exact fun _ hc => nomatch hc⟩, ?_⟩
  rw [← h.value, value_pointed hne hdigits, value, hwhole, hfraction]
  simp only [hhead]

end Parts

/-! ## Zeros at the end -/

section Zeros

variable {negative : Bool} {digits behind : List Char}

/-- The text without zeros at its end, and without a point that is the last then. -/
def trim (text : List Char) : List Char :=
  if '.' ∈ text then
    let text := text.rdropWhile (· = '0')
    if text.getLast? = some '.' then text.dropLast else text
  else text

/-- The point stops the trimming. -/
theorem rdropWhile_pointed (negative : Bool) (digits behind : List Char) :
    (pointed negative digits behind).rdropWhile (· = '0') =
      pointed negative digits (behind.rdropWhile (· = '0')) := by
  have hconcat (behind : List Char) (c : Char) :
      pointed negative digits (behind ++ [c]) = pointed negative digits behind ++ [c] := by
    simp [pointed]
  induction behind using List.reverseRecOn with
  | nil =>
    have hpoint : pointed negative digits [] = (sign negative ++ digits) ++ ['.'] := by
      simp [pointed]
    rw [List.rdropWhile_nil, hpoint, List.rdropWhile_concat_neg _ _ _ (by decide)]
  | append_singleton behind c ih =>
    rw [hconcat, List.rdropWhile_concat, List.rdropWhile_concat, ih]
    split
    · rfl
    · rw [hconcat]

theorem rdropWhile_zeros (text : List Char) :
    ∃ k, text = text.rdropWhile (· = '0') ++ List.replicate k '0' := by
  refine ⟨(text.rtakeWhile (· = '0')).length, ?_⟩
  have hzeros : text.rtakeWhile (· = '0') =
      List.replicate (text.rtakeWhile (· = '0')).length '0' := by
    refine List.eq_replicate_iff.mpr ⟨rfl, fun c hc => ?_⟩
    have hc := List.mem_rtakeWhile_imp hc
    exact of_decide_eq_true hc
  rw [← hzeros]
  exact (List.rdropWhile_append_rtakeWhile).symm

theorem value_zeros (digits behind : List Char) (k : Nat) :
    (Nat.ofDigitChars 10 (digits ++ (behind ++ List.replicate k '0')) 0 /
        10 ^ (behind ++ List.replicate k '0').length : Rat) =
      Nat.ofDigitChars 10 (digits ++ behind) 0 / 10 ^ behind.length := by
  rw [← List.append_assoc, Nat.ofDigitChars_append, Nat.ofDigitChars_replicate_zero,
    List.length_append, List.length_replicate, pow_add, Nat.cast_mul, Nat.cast_pow]
  field_simp
  push_cast
  ring

theorem getLast?_pointed (negative : Bool) (digits : List Char) (h : behind ≠ []) :
    (pointed negative digits behind).getLast? = some (behind.getLast h) := by
  rw [pointed, List.getLast?_append, List.getLast?_append, List.getLast?_cons,
    List.getLast?_eq_some_getLast h]
  rfl

variable (hne : digits ≠ []) (hdigits : ∀ c ∈ digits, c.isDigit = true)
include hne hdigits

theorem denotes_rdropWhile (hbehind : ∀ c ∈ behind, c.isDigit = true) {x : Rat}
    (h : Denotes (pointed negative digits behind) x) :
    Denotes (pointed negative digits (behind.rdropWhile (· = '0'))) x := by
  obtain ⟨k, hk⟩ := rdropWhile_zeros behind
  have hvalue := h.value
  rw [value_pointed hne hdigits, hk, value_zeros] at hvalue
  refine ⟨isDecimal_pointed hne hdigits fun c hc => hbehind c ?_, ?_⟩
  · exact List.rdropWhile_prefix _ _ |>.subset hc
  · rw [value_pointed hne hdigits, hvalue]

/-- A last point goes, and with it the whole fraction is gone. -/
theorem trim_pointed (hbehind : ∀ c ∈ behind, c.isDigit = true) :
    trim (pointed negative digits behind) =
      if behind.rdropWhile (· = '0') = [] then sign negative ++ digits
      else pointed negative digits (behind.rdropWhile (· = '0')) := by
  have hpoint : '.' ∈ pointed negative digits behind := by simp [pointed]
  rw [trim, if_pos hpoint, rdropWhile_pointed]
  dsimp only
  by_cases hnil : behind.rdropWhile (· = '0') = []
  · have hlast : pointed negative digits [] = (sign negative ++ digits) ++ ['.'] := by
      simp [pointed]
    rw [hnil, if_pos rfl, hlast, List.getLast?_concat, if_pos rfl, List.dropLast_concat]
  · have hlast := getLast?_pointed negative digits hnil
    have hdigit := hbehind _ ((List.rdropWhile_prefix _ _).subset (List.getLast_mem hnil))
    rw [if_neg hnil, hlast, if_neg]
    exact fun h => (isDigit_ne hdigit).2 (Option.some.inj h)

/-- Trimming changes no number. -/
theorem denotes_trim (hbehind : ∀ c ∈ behind, c.isDigit = true) {x : Rat}
    (h : Denotes (pointed negative digits behind) x) :
    Denotes (trim (pointed negative digits behind)) x := by
  have htrimmed := denotes_rdropWhile hne hdigits hbehind h
  rw [trim_pointed hne hdigits hbehind]
  split
  next hnil =>
    rw [hnil] at htrimmed
    exact denotes_whole hne hdigits htrimmed
  next hsome => exact htrimmed

theorem canonical_trim (hbehind : ∀ c ∈ behind, c.isDigit = true) :
    Canonical (trim (pointed negative digits behind)) := by
  rw [trim_pointed hne hdigits hbehind]
  split
  next hnil =>
    have hlast : (sign negative ++ digits).getLast? = some (digits.getLast hne) := by
      rw [List.getLast?_append, List.getLast?_eq_some_getLast hne]
      rfl
    have hdigit := hdigits _ (List.getLast_mem hne)
    refine ⟨?_, fun hpoint => ?_⟩
    · rw [hlast]
      exact fun h => (isDigit_ne hdigit).2 (Option.some.inj h)
    · rw [List.mem_append] at hpoint
      rcases hpoint with hsign | hpoint
      · cases negative <;> simp [sign] at hsign
      · exact absurd rfl (isDigit_ne (hdigits _ hpoint)).2
  next hsome =>
    have hdigit := hbehind _ ((List.rdropWhile_prefix _ _).subset (List.getLast_mem hsome))
    have hnonzero := List.rdropWhile_last_not _ _ hsome
    rw [decide_eq_true_eq] at hnonzero
    refine ⟨?_, fun _ => ?_⟩
    · rw [getLast?_pointed negative digits hsome]
      exact fun h => (isDigit_ne hdigit).2 (Option.some.inj h)
    · rw [getLast?_pointed negative digits hsome]
      exact fun h => hnonzero (Option.some.inj h)

end Zeros

end DecimalText
