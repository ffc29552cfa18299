import Cmall.Numeric
import Mathlib.Algebra.Order.Ring.Abs
import Mathlib.Tactic.NormNum

/-!
The texts of numbers: what is printed denotes the number, also after the zeros are trimmed, and it
is the same for the database, for the clients and for the payment script.
-/

namespace Cmall
open Ostream DecimalText

/-! ## What the stream prints -/

variable {x : CppNumeric}

theorem units_of_few (h : FewDigits x) : units x = (x * 10 ^ digits).num.natAbs := by
  have hden : (x * 10 ^ digits).den = 1 := h
  simp only [units, hden, Nat.div_one, Nat.mod_one]
  rw [if_neg (by omega)]

/-- The sign and the units are the number. -/
theorem eq_units (h : FewDigits x) :
    x = (if x < 0 then -1 else 1) * ((units x : CppNumeric) / 10 ^ digits) := by
  have hden : (x * 10 ^ digits).den = 1 := h
  have hpow : (0 : CppNumeric) < 10 ^ digits := pow_pos (by norm_num) digits
  have hnum : ((x * 10 ^ digits).num : CppNumeric) = x * 10 ^ digits :=
    Rat.den_eq_one_iff _ |>.mp hden
  have habs : ((x * 10 ^ digits).num.natAbs : CppNumeric) = |x * 10 ^ digits| := by
    rw [← hnum, ← Int.cast_abs, Int.abs_eq_natAbs, Int.cast_natCast, Rat.num_intCast]
  rw [units_of_few h, habs, abs_mul, abs_of_pos hpow, mul_div_cancel_right₀ _ (ne_of_gt hpow)]
  split
  next hneg => rw [abs_of_neg hneg, neg_mul_neg, one_mul]
  next hpos => rw [abs_of_nonneg (not_lt.mp hpos), one_mul]

/-- Digits that are padded to a width. -/
theorem leftpad_digits {n width : Nat} (hwidth : 0 < width) (h : n < 10 ^ width) :
    ((Nat.toDigits 10 n).leftpad width '0').length = width ∧
      Nat.ofDigitChars 10 ((Nat.toDigits 10 n).leftpad width '0') 0 = n := by
  have hlen : (Nat.toDigits 10 n).length ≤ width :=
    (Nat.length_toDigits_le_iff (by decide) hwidth).mpr h
  constructor
  · rw [List.length_leftpad, Nat.max_eq_left hlen]
  · rw [List.leftpad, Nat.ofDigitChars_append, Nat.ofDigitChars_replicate_zero, Nat.mul_zero,
      Nat.ofDigitChars_ten_toDigits]

theorem isDigit_toDigits (n : Nat) : ∀ c ∈ Nat.toDigits 10 n, c.isDigit = true :=
  fun _ hc => Nat.isDigit_of_mem_toDigits (by decide) (by decide) hc

theorem isDigit_leftpad (n width : Nat) :
    ∀ c ∈ (Nat.toDigits 10 n).leftpad width '0', c.isDigit = true := by
  intro c hc
  rw [List.leftpad, List.mem_append, List.mem_replicate] at hc
  rcases hc with ⟨-, rfl⟩ | hc
  · rfl
  · exact isDigit_toDigits n c hc

/-- All digits are printed. -/
theorem denotes_fixed (h : FewDigits x) : Denotes (fixed x) x := by
  have hpow : 0 < 10 ^ digits := pow_pos (by decide) digits
  obtain ⟨hlen, hvalue⟩ := leftpad_digits (n := units x % 10 ^ digits) (by decide : 0 < digits)
    (Nat.mod_lt _ hpow)
  refine ⟨isDecimal_pointed Nat.toDigits_ne_nil (isDigit_toDigits _) (isDigit_leftpad _ _), ?_⟩
  rw [fixed, value_pointed Nat.toDigits_ne_nil (isDigit_toDigits _), Nat.ofDigitChars_append,
    Nat.ofDigitChars_ten_toDigits, Nat.ofDigitChars_eq_ofDigitChars_zero, hvalue, hlen,
    Nat.div_add_mod]
  simp only [decide_eq_true_eq]
  exact (eq_units h).symm

/-! ## The two functions -/

theorem numericToString_eq (x : CppNumeric) :
    TraitsPgsql.numericToString x = String.ofList (trim (fixed x)) := by
  have hzero : (fun c => decide (c ∈ ['0'])) = (fun c : Char => decide (c = '0')) := by
    funext c
    simp only [List.mem_singleton]
  simp only [TraitsPgsql.numericToString, trimRightIf, trim, String.toList_ofList, hzero,
    ← List.rdropWhile.eq_1]
  split
  · split <;> rfl
  · rfl

theorem toString_eq (x : CppNumeric) : Misc.toString x = TraitsPgsql.numericToString x := rfl

theorem canonical_text (x : CppNumeric) : Canonical (TraitsPgsql.numericToString x).toList := by
  rw [numericToString_eq, String.toList_ofList]
  exact canonical_trim Nat.toDigits_ne_nil (isDigit_toDigits _) (isDigit_leftpad _ _)

theorem denotes_text (h : FewDigits x) : Denotes (TraitsPgsql.numericToString x).toList x := by
  rw [numericToString_eq, String.toList_ofList]
  exact denotes_trim Nat.toDigits_ne_nil (isDigit_toDigits _) (isDigit_leftpad _ _)
    (denotes_fixed h)

/-! ## The database -/

/-- The bytes of an image are those of the text, whatever the buffer held. -/
theorem setImage_take (b : List Char) (v : CppNumeric) :
    (TraitsPgsql.setImage b v).b.take (TraitsPgsql.setImage b v).n =
      (TraitsPgsql.numericToString v).toList := by
  rw [TraitsPgsql.setImage]
  exact List.take_left

/-- The constructor that takes a text reads the decimal texts of the numbers it can hold. -/
def ReadsDecimals (numeric : String → Option CppNumeric) : Prop :=
  ∀ text x, FewDigits x → Denotes text x → numeric (String.ofList text) = some x

theorem setValue_setImage {numeric : String → Option CppNumeric} (hnumeric : ReadsDecimals numeric)
    (h : FewDigits x) (v : CppNumeric) (b : List Char) :
    TraitsPgsql.setValue numeric v (TraitsPgsql.setImage b x) = some x := by
  have htext := setImage_take b x
  rw [TraitsPgsql.setValue, htext, hnumeric _ x h (denotes_text h)]
  rfl

/-! ## One text -/

/-- The text of a number, wherever it is written. -/
structure Rendered (numeric : String → Option CppNumeric) (x : CppNumeric) (text : String) : Prop
    where
  numericToString : TraitsPgsql.numericToString x = text
  toString : Misc.toString x = text
  denotes : Denotes text.toList x
  canonical : Canonical text.toList
  injective : ∀ y, FewDigits y → Misc.toString y = text → y = x
  stored : ∀ b, (TraitsPgsql.setImage b x).b.take (TraitsPgsql.setImage b x).n = text.toList
  loaded : ∀ v b, TraitsPgsql.setValue numeric v (TraitsPgsql.setImage b x) = some x
  shown : Conversion.valueFrom x = .string text
  price : ∀ o : CmallOrder, o.price = x →
    Json.at? (Conversion.orderAmounts o) "price" = some (.string text)
  kuaidifei : ∀ o : CmallOrder, o.kuaidifei = x →
    Json.at? (Conversion.orderAmounts o) "kuaidifei" = some (.string text)
  payAmount : ∀ o : CmallOrder, o.payAmount = x →
    Json.at? (Conversion.orderAmounts o) "pay_amount" = some (.string text)
  paid : ∀ content orderid method (o : CmallOrder), o.price + o.kuaidifei = x →
    (payurlParams content orderid method o).scriptArg =
      ["--order-id", orderid, "--order-amount", text, "--method", method]

/-- Every number with at most 100 fractional digits has one text, which denotes it and has no
digit too many. -/
theorem decimal_rendering {numeric : String → Option CppNumeric} (hnumeric : ReadsDecimals numeric)
    (h : FewDigits x) : Rendered numeric x (Misc.toString x) where
  numericToString := (toString_eq x).symm
  toString := rfl
  denotes := denotes_text h
  canonical := canonical_text x
  injective := fun y hy heq => by
    have hdenotes : Denotes (Misc.toString y).toList y := denotes_text hy
    rw [heq] at hdenotes
    exact hdenotes.unique (denotes_text h)
  stored := fun b => setImage_take b x
  loaded := setValue_setImage hnumeric h
  shown := rfl
  price := fun o ho => by rw [← ho]; rfl
  kuaidifei := fun o ho => by rw [← ho]; rfl
  payAmount := fun o ho => by rw [← ho]; rfl
  paid := fun content orderid method o ho => by rw [← ho]; rfl

/-- A constructor that reads the decimal texts and no others. -/
def readDecimal (text : String) : Option CppNumeric :=
  let parts := whole text.toList ++ fraction text.toList
  if whole text.toList ≠ [] ∧ parts.all Char.isDigit then some (value text.toList) else none

theorem readDecimal_reads : ReadsDecimals readDecimal := by
  rintro text x - ⟨⟨hne, hwhole, hfraction⟩, hvalue⟩
  have hall : (whole text ++ fraction text).all Char.isDigit = true := by
    rw [List.all_append, Bool.and_eq_true, List.all_eq_true, List.all_eq_true]
    exact ⟨hwhole, hfraction⟩
  simp only [readDecimal, String.toList_ofList]
  rw [if_pos ⟨hne, hall⟩, hvalue]

example : Misc.toString (-5 / 4) = "-1.25" := by decide +kernel

/-- One and a half. -/
theorem decimal_rendering_half : Rendered readDecimal (3 / 2) (Misc.toString (3 / 2)) :=
  decimal_rendering readDecimal_reads (by decide +kernel)

end Cmall
