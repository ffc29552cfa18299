import Mathlib.Data.List.Basic

/-!
JSON texts, as lists of characters.

The grammar is the one of the standard: a text is one value with white space around it.
-/

namespace JsonText

/-- White space. -/
def Blank (l : List Char) : Prop := ∀ c ∈ l, c ∈ [' ', '\t', '\n', '\r']

def IsHex (c : Char) : Prop := c.isDigit = true ∨ c.toLower ∈ ['a', 'b', 'c', 'd', 'e', 'f']

/-- What stands between the quotes of a string. -/
inductive Chars : List Char → Prop where
  | nil : Chars []
  | plain {c : Char} {l : List Char} (hquote : c ≠ '\"') (hescape : c ≠ '\\')
    (hcontrol : 32 ≤ c.toNat) (hl : Chars l) : Chars (c :: l)
  | escape {c : Char} {l : List Char} (hc : c ∈ ['\"', '\\', '/', 'b', 'f', 'n', 'r', 't'])
    (hl : Chars l) : Chars ('\\' :: c :: l)
  | unicode {ds l : List Char} (hlength : ds.length = 4) (hds : ∀ d ∈ ds, IsHex d)
    (hl : Chars l) : Chars ('\\' :: 'u' :: (ds ++ l))

def Digits (l : List Char) : Prop := l ≠ [] ∧ ∀ c ∈ l, c.isDigit = true

structure Number (l : List Char) (sign int frac exp : List Char) : Prop where
  text : l = sign ++ (int ++ (frac ++ exp))
  sign : sign = [] ∨ sign = ['-']
  int : int = ['0'] ∨ Digits int ∧ int.head? ≠ some '0'
  frac : frac = [] ∨ ∃ ds, frac = '.' :: ds ∧ Digits ds
  exp : exp = [] ∨ ∃ e s ds, exp = e :: (s ++ ds) ∧ e ∈ ['e', 'E'] ∧ s ∈ [[], ['+'], ['-']] ∧ Digits ds

mutual

inductive Value : List Char → Prop where
  | string {l : List Char} (hl : Chars l) : Value ('\"' :: (l ++ ['\"']))
  | number {l sign int frac exp : List Char} (hl : Number l sign int frac exp) : Value l
  | true : Value ['t', 'r', 'u', 'e']
  | false : Value ['f', 'a', 'l', 's', 'e']
  | null : Value ['n', 'u', 'l', 'l']
  | emptyObject {b : List Char} (hb : Blank b) : Value ('\x7b' :: (b ++ ['\x7d']))
  | object {l : List Char} (hl : Members l) : Value ('\x7b' :: (l ++ ['\x7d']))
  | emptyArray {b : List Char} (hb : Blank b) : Value ('[' :: (b ++ [']']))
  | array {l : List Char} (hl : Elements l) : Value ('[' :: (l ++ [']']))

inductive Element : List Char → Prop where
  | mk {b v b' : List Char} (hb : Blank b) (hv : Value v) (hb' : Blank b') :
    Element (b ++ (v ++ b'))

inductive Elements : List Char → Prop where
  | one {e : List Char} (he : Element e) : Elements e
  | more {e l : List Char} (he : Element e) (hl : Elements l) : Elements (e ++ ',' :: l)

inductive Member : List Char → Prop where
  | mk {b key b' e : List Char} (hb : Blank b) (hkey : Chars key) (hb' : Blank b')
    (he : Element e) : Member (b ++ '\"' :: (key ++ '\"' :: (b' ++ ':' :: e)))

inductive Members : List Char → Prop where
  | one {l : List Char} (hm : Member l) : Members l
  | more {m l : List Char} (hm : Member m) (hl : Members l) : Members (m ++ ',' :: l)

end

/-- One JSON text. -/
def IsText (s : String) : Prop := Element s.toList

/-! ## Strings -/

/-- A text that can stand between the quotes as it is. -/
def Plain (l : List Char) : Prop := ∀ c ∈ l, c ≠ '\"' ∧ c ≠ '\\' ∧ 32 ≤ c.toNat

theorem blank_nil : Blank [] := by simp [Blank]

theorem chars_of_plain {l : List Char} (h : Plain l) : Chars l := by
  induction l with
  | nil => exact .nil
  | cons c l ih =>
    obtain ⟨hquote, hescape, hcontrol⟩ := h c List.mem_cons_self
    exact .plain hquote hescape hcontrol (ih fun d hd => h d (List.mem_cons_of_mem c hd))

/-- The test of a given text. -/
theorem plain_of_all {l : List Char}
    (h : (l.all fun c => c != '\"' && c != '\\' && decide (32 ≤ c.toNat)) = true) : Plain l := by
  intro c hc
  have hall := List.all_eq_true.mp h c hc
  simpa [and_assoc] using hall

/-- A member whose key and value are plain, behind white space. -/
theorem member_of_plain {b key l : List Char} (hb : Blank b) (hkey : Plain key) {e : List Char}
    (hbe : Blank l) {v : List Char} (hv : Plain v) (he : e = l ++ '\"' :: (v ++ ['\"'])) :
    Member (b ++ '\"' :: (key ++ '\"' :: ':' :: e)) := by
  have hvalue : Element e := by
    rw [he]
    simpa using Element.mk hbe (.string (chars_of_plain hv)) blank_nil
  simpa using Member.mk hb (chars_of_plain hkey) blank_nil hvalue

/-! ## First characters -/

theorem Number.head {l sign int frac exp : List Char} (h : Number l sign int frac exp) :
    ∃ c t, l = c :: t ∧ (c = '-' ∨ c.isDigit = true) := by
  have hint : ∃ c t, int = c :: t ∧ c.isDigit = true := by
    rcases h.int with hzero | ⟨⟨hne, hdigits⟩, -⟩
    · exact ⟨'0', [], hzero, by decide⟩
    · obtain ⟨c, t, rfl⟩ := List.exists_cons_of_ne_nil hne
      exact ⟨c, t, rfl, hdigits c List.mem_cons_self⟩
  obtain ⟨c, t, hc, hdigit⟩ := hint
  rcases h.sign with hsign | hsign
  · exact ⟨c, t ++ (frac ++ exp), by rw [h.text, hsign, hc]; rfl, .inr hdigit⟩
  · exact ⟨'-', int ++ (frac ++ exp), by rw [h.text, hsign]; rfl, .inl rfl⟩

/-- Members begin with white space or a quote. -/
theorem Members.head {l : List Char} (h : Members l) :
    ∃ c t, l = c :: t ∧ (c = '\"' ∨ c ∈ [' ', '\t', '\n', '\r']) := by
  have hmember : ∀ {m : List Char}, Member m →
      ∃ c t, m = c :: t ∧ (c = '\"' ∨ c ∈ [' ', '\t', '\n', '\r']) := by
    intro m hm
    cases hm with
    | @mk b key b' e hb hkey hb' he =>
      cases b with
      | nil => exact ⟨_, _, rfl, .inl rfl⟩
      | cons c b => exact ⟨c, _, rfl, .inr (hb c List.mem_cons_self)⟩
  cases h with
  | one hm => exact hmember hm
  | more hm hl =>
    obtain ⟨c, t, hc, hhead⟩ := hmember hm
    exact ⟨c, _, by rw [hc]; rfl, hhead⟩

/-- Behind the first brace of an object stands a quote, white space or a brace that closes
it, so no text begins with two braces. -/
theorem not_element_of_braces (l : List Char) : ¬ Element ('\x7b' :: '\x7b' :: l) := by
  intro h
  generalize htext : ('\x7b' :: '\x7b' :: l : List Char) = text at h
  cases h with
  | @mk b v b' hb hv hb' =>
    cases b with
    | cons c b =>
      have hc := hb c List.mem_cons_self
      have hbrace : '\x7b' = c := (List.cons.inj htext).1
      subst hbrace
      simp at hc
    | nil =>
      simp only [List.nil_append] at htext
      cases hv with
      | string hl => simp at htext
      | number hl =>
        obtain ⟨c, t, rfl, hhead⟩ := hl.head
        have hbrace : '\x7b' = c := (List.cons.inj htext).1
        subst hbrace
        simp [Char.isDigit] at hhead
      | true => simp at htext
      | false => simp at htext
      | null => simp at htext
      | @emptyObject b₀ hb₀ =>
        cases b₀ with
        | nil => simp at htext
        | cons c b₀ =>
          have hc := hb₀ c List.mem_cons_self
          simp only [List.cons_append, List.cons.injEq] at htext
          rw [← htext.2.1] at hc
          simp at hc
      | @object l₀ hl₀ =>
        obtain ⟨c, t, rfl, hhead⟩ := hl₀.head
        simp only [List.cons_append, List.cons.injEq] at htext
        rw [← htext.2.1] at hhead
        simp at hhead
      | emptyArray hb₀ => simp at htext
      | array hl₀ => simp at htext

end JsonText
