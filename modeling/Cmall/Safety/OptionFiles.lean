import Cmall.Selection

/-!
Option files.

`parse_lines` skips every line of less than two bytes, to be rid of blank ones. A selection
whose name is one byte and that has no price is such a line too. All other selections are
read, so a file is read completely exactly when it has none of these.
-/

namespace Cmall.GoodsOptionsParser

/-! ## Files as they are written -/

/-- Digits, and some more behind a point. -/
def IsDecimal (l : List Char) : Prop :=
  ∃ whole part, whole ≠ [] ∧ (∀ c ∈ whole ++ part, c.isDigit = true) ∧
    (l = whole ∨ part ≠ [] ∧ l = whole ++ '.' :: part)

/-- A selection as a merchant writes it. -/
structure SelectionText where
  name : List Char
  price : Option (List Char)
  /-- A tab stands before the price. -/
  tab : Bool
  name_ne : name ≠ []
  name_chars : ∀ c ∈ name, isSpace c = false
  name_start : name.head? ≠ some '#'
  price_decimal : ∀ p ∈ price, IsDecimal p

/-- An option as a merchant writes it. -/
structure OptionText where
  title : List Char
  selections : List SelectionText
  title_ne : title ≠ []
  title_line : ∀ c ∈ title, c ≠ '\r' ∧ c ≠ '\n'
  title_start : ∀ c ∈ title.head?, isSpace c = false
  title_end : ∀ c ∈ title.getLast?, isSpace c = false

def SelectionText.line (s : SelectionText) : List Char :=
  match s.price with
  | none => s.name
  | some p => s.name ++ (if s.tab then '\t' else ' ') :: p

def OptionText.lines (o : OptionText) : List (List Char) :=
  ('#' :: o.title) :: o.selections.map SelectionText.line

def IsBlank (l : List Char) : Prop := ∀ c ∈ l, c = ' ' ∨ c = '\t'

instance (l : List Char) : Decidable (IsBlank l) :=
  List.decidableBAll (fun c => c = ' ' ∨ c = '\t') l

/-- A line and its end, CRLF or LF. -/
def endLine (l : List Char × Bool) : List Char := l.1 ++ if l.2 then ['\r', '\n'] else ['\n']

/-- The text has the lines of the options, and blank lines. -/
def Renders (options : List OptionText) (text : String) : Prop :=
  ∃ ls : List (List Char × Bool), text.toList = ls.flatMap endLine ∧
    (ls.map Prod.fst).filter (fun l => ¬ IsBlank l) = options.flatMap OptionText.lines

/-! ## What is to be read -/

/-- `cpp_numeric(std::string)` on decimal numbers. -/
structure ReadsDecimals (numeric : String → Option CppNumeric) : Prop where
  decimal : ∀ l, IsDecimal l → (numeric (String.ofList l)).isSome = true
  zero : numeric "0" = some 0

def SelectionText.selection (s : SelectionText) : Selection :=
  ⟨String.ofList s.name, (s.price.map String.ofList).getD "0"⟩

def OptionText.option (o : OptionText) : GoodsOption :=
  ⟨String.ofList o.title, o.selections.map SelectionText.selection⟩

def SelectionText.priced (numeric : String → Option CppNumeric) (s : SelectionText) :
    ProductOptionSelect :=
  ⟨String.ofList s.name, ((s.price.map String.ofList).bind numeric).getD 0⟩

def OptionText.priced (numeric : String → Option CppNumeric) (o : OptionText) : ProductOption :=
  ⟨String.ofList o.title, o.selections.map (SelectionText.priced numeric)⟩

/-- All options are read, by the parser and into the product. -/
structure ReadCompletely (numeric : String → Option CppNumeric) (options : List OptionText)
    (text : String) : Prop where
  parsed : parseGoodsOption text = some (options.map OptionText.option)
  priced : toProductOptions numeric text = .ok (options.map (OptionText.priced numeric))

/-- The line of the selection has at least two bytes. -/
def SelectionText.IsLong (s : SelectionText) : Prop := s.price = none → 2 ≤ size s.name

instance (s : SelectionText) : Decidable s.IsLong :=
  inferInstanceAs (Decidable (s.price = none → 2 ≤ size s.name))

/-- The option without the selections that are skipped. -/
def OptionText.kept (o : OptionText) : GoodsOption :=
  ⟨String.ofList o.title,
    (o.selections.filter fun s => s.IsLong).map SelectionText.selection⟩

/-! ## Lines -/

theorem size_cons (c : Char) (l : List Char) : size (c :: l) = c.utf8Size + size l := by
  simp [size]

theorem length_le_size (l : List Char) : l.length ≤ size l := by
  induction l with
  | nil => exact Nat.zero_le _
  | cons c l ih =>
    have := Char.utf8Size_pos c
    rw [size_cons, List.length_cons]
    omega

theorem IsDecimal.chars {l : List Char} (h : IsDecimal l) :
    l ≠ [] ∧ ∀ c ∈ l, c.isDigit = true ∨ c = '.' := by
  obtain ⟨whole, part, hne, hdigits, rfl | ⟨-, rfl⟩⟩ := h
  · exact ⟨hne, fun c hc => .inl (hdigits c (List.mem_append_left _ hc))⟩
  · refine ⟨by simp, fun c hc => ?_⟩
    rcases List.mem_append.mp hc with hc | hc
    · exact .inl (hdigits c (List.mem_append_left _ hc))
    · rcases List.mem_cons.mp hc with rfl | hc
      · exact .inr rfl
      · exact .inl (hdigits c (List.mem_append_right _ hc))

theorem isSpace_of_decimal {c : Char} (h : c.isDigit = true ∨ c = '.') : isSpace c = false := by
  rcases h with h | rfl
  · by_contra hspace
    simp only [isSpace, Bool.not_eq_false, decide_eq_true_eq] at hspace
    rcases hspace with rfl | rfl | rfl | rfl | rfl | rfl <;> exact absurd h (by decide)
  · decide

/-- What `split` cuts a line at is white space. -/
theorem not_cut_of_not_space {c : Char} (h : isSpace c = false) :
    (decide (c = ' ' ∨ c = '\t')) = false := by
  simp only [isSpace, decide_eq_false_iff_not, not_or] at h ⊢
  exact ⟨h.1, h.2.1⟩

/-- A line of white space is skipped, whatever its length. -/
theorem parseBlocks_blank {l : List Char} (hl : IsBlank l) (lines : List (List Char))
    (hasBlock : Bool) (curBlock : GoodsOption) (ret : List GoodsOption) :
    parseBlocks (l :: lines) hasBlock curBlock ret = parseBlocks lines hasBlock curBlock ret := by
  rw [parseBlocks]
  by_cases hsize : size l < 2
  · rw [if_pos hsize]
  · rw [if_neg hsize]
    match l, hl, hsize with
    | [], _, hsize => exact absurd (by decide) hsize
    | [c], hl, hsize =>
      rcases hl c (List.mem_cons_self ..) with rfl | rfl <;> exact absurd (by decide) hsize
    | c :: d :: l, hl, _ =>
      have hc := hl c (by simp)
      have hd := hl d (by simp)
      have hhead : ¬ (c :: d :: l).head? = some '#' := by
        rcases hc with rfl | rfl <;> simp
      have hadd : curBlock.addLine (c :: d :: l) = curBlock := by
        have hcut : (c :: d :: l).splitOnP (fun c => c = ' ' ∨ c = '\t') =
            [] :: [] :: l.splitOnP (fun c => c = ' ' ∨ c = '\t') := by
          simp [List.splitOnP_cons_eq_if_modifyHead, hc, hd]
        cases hrest : l.splitOnP (fun c => c = ' ' ∨ c = '\t') with
        | nil => exact absurd hrest (List.splitOnP_ne_nil _ _)
        | cons w ws => rw [GoodsOption.addLine, hcut, hrest]
      rw [if_neg hhead, hadd]

theorem parseBlocks_filter (lines : List (List Char)) (hasBlock : Bool) (curBlock : GoodsOption)
    (ret : List GoodsOption) : parseBlocks (lines.filter fun l => ¬ IsBlank l) hasBlock curBlock ret =
      parseBlocks lines hasBlock curBlock ret := by
  induction lines generalizing hasBlock curBlock ret with
  | nil => rfl
  | cons l lines ih =>
    by_cases hl : IsBlank l
    · rw [List.filter_cons_of_neg (by simpa using hl), parseBlocks_blank hl, ih]
    · rw [List.filter_cons_of_pos (by simpa using hl), parseBlocks, parseBlocks]
      split
      · exact ih ..
      · split <;> exact ih ..

/-! ## Options -/

theorem splitOnP_word {w : List Char} (hw : ∀ c ∈ w, isSpace c = false) :
    w.splitOnP (fun c => c = ' ' ∨ c = '\t') = [w] :=
  List.splitOnP_eq_singleton fun c hc => not_cut_of_not_space (hw c hc)

theorem SelectionText.price_chars (s : SelectionText) {p : List Char} (hp : p ∈ s.price) :
    p ≠ [] ∧ ∀ c ∈ p, isSpace c = false :=
  have h := (s.price_decimal p hp).chars
  ⟨h.1, fun c hc => isSpace_of_decimal (h.2 c hc)⟩

theorem SelectionText.line_head (s : SelectionText) : s.line.head? ≠ some '#' := by
  have hstart := s.name_start
  cases hname : s.name with
  | nil => exact absurd hname s.name_ne
  | cons c name =>
    rw [hname] at hstart
    cases hprice : s.price <;> simpa [SelectionText.line, hname, hprice] using hstart

theorem SelectionText.size_line (s : SelectionText) : size s.line < 2 ↔ ¬ s.IsLong := by
  cases hprice : s.price with
  | none => simp [SelectionText.line, SelectionText.IsLong, hprice]
  | some p =>
    have hlen := length_le_size s.line
    have hname := List.length_pos_iff.mpr s.name_ne
    have hlong : s.IsLong := fun h => by simp [hprice] at h
    simp only [SelectionText.line, hprice, List.length_append, List.length_cons] at hlen
    simp only [hlong, not_true, iff_false, SelectionText.line, hprice]
    omega

theorem addLine_selection (block : GoodsOption) (s : SelectionText) :
    block.addLine s.line = { block with selections := block.selections ++ [s.selection] } := by
  cases hprice : s.price with
  | none =>
    have hline : s.line = s.name := by simp [SelectionText.line, hprice]
    rw [GoodsOption.addLine, hline, splitOnP_word s.name_chars]
    simp [SelectionText.selection, hprice]
  | some p =>
    have hp := s.price_chars (p := p) hprice
    have hcut : s.line.splitOnP (fun c => c = ' ' ∨ c = '\t') = [s.name, p] := by
      rw [SelectionText.line, hprice]
      simp only
      rw [List.splitOnP_append_cons_of_forall_mem (fun c hc =>
        not_cut_of_not_space (s.name_chars c hc)) _ (by split <;> decide), splitOnP_word hp.2]
    rw [GoodsOption.addLine, hcut]
    simp [SelectionText.selection, hprice]

/-- The selections of an option are appended to the block, but for the short ones. -/
theorem parseBlocks_selections (selections : List SelectionText) (lines : List (List Char))
    (hasBlock : Bool) (curBlock : GoodsOption) (ret : List GoodsOption) :
    parseBlocks (selections.map SelectionText.line ++ lines) hasBlock curBlock ret =
      parseBlocks lines hasBlock
        { curBlock with selections := curBlock.selections ++
            (selections.filter fun s => s.IsLong).map SelectionText.selection } ret := by
  induction selections generalizing curBlock with
  | nil => simp
  | cons s selections ih =>
    rw [List.map_cons, List.cons_append, parseBlocks]
    by_cases hlong : s.IsLong
    · rw [if_neg (fun h => (s.size_line.mp h) hlong), if_neg s.line_head, ih,
        addLine_selection, List.filter_cons_of_pos (by simpa using hlong)]
      simp
    · rw [if_pos (s.size_line.mpr hlong), ih, List.filter_cons_of_neg (by simpa using hlong)]

theorem trimCopy_title (o : OptionText) : trimCopy o.title = o.title := by
  have hstart : o.title.dropWhile isSpace = o.title := by
    cases htitle : o.title with
    | nil => rfl
    | cons c title =>
      exact List.dropWhile_cons_of_neg (by simp [o.title_start c (by simp [htitle])])
  have hend : o.title.reverse.dropWhile isSpace = o.title.reverse := by
    cases htitle : o.title.reverse with
    | nil => rfl
    | cons c title =>
      refine List.dropWhile_cons_of_neg ?_
      rw [o.title_end c (by simp [← List.head?_reverse, htitle])]
      decide
  rw [trimCopy, hstart, hend, List.reverse_reverse]

/-- An option ends the block before it and begins its own. -/
theorem parseBlocks_option (o : OptionText) (lines : List (List Char)) (hasBlock : Bool)
    (curBlock : GoodsOption) (ret : List GoodsOption) :
    parseBlocks (o.lines ++ lines) hasBlock curBlock ret =
      parseBlocks lines true o.kept (if hasBlock then ret ++ [curBlock] else ret) := by
  have hsize : ¬ size ('#' :: o.title) < 2 := by
    have := length_le_size ('#' :: o.title)
    have := List.length_pos_iff.mpr o.title_ne
    simp only [List.length_cons] at *
    omega
  have hhead : ('#' :: o.title).head? = some '#' := rfl
  rw [OptionText.lines, List.cons_append, parseBlocks, if_neg hsize, if_pos hhead,
    parseBlocks_selections]
  simp [OptionText.kept, trimCopy_title]

/-- The options behind the first one: the block that is open is the one before them. -/
theorem parseBlocks_options (options : List OptionText) (curBlock : GoodsOption)
    (ret : List GoodsOption) :
    parseBlocks (options.flatMap OptionText.lines) true curBlock ret =
      ret ++ curBlock :: options.map OptionText.kept := by
  induction options generalizing curBlock ret with
  | nil => simp [parseBlocks]
  | cons o options ih =>
    rw [List.flatMap_cons, parseBlocks_option, if_pos rfl, ih]
    simp

theorem parseLines_options {options : List OptionText} (hne : options ≠ []) :
    parseLines (options.flatMap OptionText.lines) = some (options.map OptionText.kept) := by
  cases options with
  | nil => exact absurd rfl hne
  | cons o options =>
    rw [parseLines, List.flatMap_cons, parseBlocks_option, parseBlocks_options]
    simp

/-! ## Files -/

section Files

variable {options : List OptionText} {text : String}

/-- The lines of an option have no line ends in them. -/
theorem OptionText.lines_chars (o : OptionText) : ∀ l ∈ o.lines, ∀ c ∈ l, c ≠ '\r' ∧ c ≠ '\n' := by
  have hspace : ∀ c : Char, isSpace c = false → c ≠ '\r' ∧ c ≠ '\n' := by
    intro c hc
    simp only [isSpace, decide_eq_false_iff_not, not_or] at hc
    exact ⟨hc.2.2.2.2.2, hc.2.2.1⟩
  intro l hl c hc
  rcases List.mem_cons.mp hl with rfl | hl
  · rcases List.mem_cons.mp hc with rfl | hc
    · decide
    · exact o.title_line c hc
  · obtain ⟨s, -, rfl⟩ := List.mem_map.mp hl
    cases hprice : s.price with
    | none =>
      rw [SelectionText.line, hprice] at hc
      exact hspace c (s.name_chars c hc)
    | some p =>
      simp only [SelectionText.line, hprice, List.mem_append, List.mem_cons] at hc
      rcases hc with hc | rfl | hc
      · exact hspace c (s.name_chars c hc)
      · split <;> decide
      · exact hspace c ((s.price_chars hprice).2 c hc)

/-- What `split` makes of one line: a CRLF is cut twice. -/
def cutLine (l : List Char × Bool) : List (List Char) := if l.2 then [l.1, []] else [l.1]

theorem splitOnP_endLine {ls : List (List Char × Bool)}
    (hls : ∀ l ∈ ls, ∀ c ∈ l.1, c ≠ '\r' ∧ c ≠ '\n') :
    (ls.flatMap endLine).splitOnP (fun c => c = '\r' ∨ c = '\n') = ls.flatMap cutLine ++ [[]] := by
  induction ls with
  | nil => rfl
  | cons l ls ih =>
    obtain ⟨l, crlf⟩ := l
    have hl : ∀ c ∈ l, decide (c = '\r' ∨ c = '\n') = false := by
      intro c hc
      have := hls (l, crlf) (List.mem_cons_self ..) c hc
      simp [this]
    have hrest := ih fun l hl => hls l (List.mem_cons_of_mem _ hl)
    cases crlf with
    | true =>
      simp only [List.flatMap_cons, endLine, if_true, List.append_assoc, List.cons_append,
        List.nil_append, cutLine]
      rw [List.splitOnP_append_cons_of_forall_mem hl _ (by decide),
        List.splitOnP_cons_eq_if_modifyHead, if_pos (by decide), hrest]
    | false =>
      simp only [List.flatMap_cons, endLine, Bool.false_eq_true, if_false, List.append_assoc,
        List.cons_append, List.nil_append, cutLine]
      rw [List.splitOnP_append_cons_of_forall_mem hl _ (by decide), hrest]

theorem filter_cutLine (ls : List (List Char × Bool)) :
    (ls.flatMap cutLine ++ [[]]).filter (fun l => ¬ IsBlank l) =
      (ls.map Prod.fst).filter fun l => ¬ IsBlank l := by
  have hnil : IsBlank [] := fun c hc => by cases hc
  induction ls with
  | nil => simp [hnil]
  | cons l ls ih =>
    obtain ⟨l, crlf⟩ := l
    rw [List.flatMap_cons, List.append_assoc, List.filter_append, ih, List.map_cons]
    cases crlf <;> by_cases hl : IsBlank l <;> simp [cutLine, hnil, hl]

/-- The parser reads all options, and their selections but for the short ones. -/
theorem parseGoodsOption_eq (hne : options ≠ []) (htext : Renders options text) :
    parseGoodsOption text = some (options.map OptionText.kept) := by
  obtain ⟨ls, htext, hlines⟩ := htext
  have hls : ∀ l ∈ ls, ∀ c ∈ l.1, c ≠ '\r' ∧ c ≠ '\n' := by
    intro l hl c hc
    by_cases hblank : IsBlank l.1
    · rcases hblank c hc with rfl | rfl <;> decide
    · have hmem : l.1 ∈ (ls.map Prod.fst).filter fun l => ¬ IsBlank l :=
        List.mem_filter.mpr ⟨List.mem_map_of_mem hl, by simpa using hblank⟩
      rw [hlines] at hmem
      obtain ⟨o, -, ho⟩ := List.mem_flatMap.mp hmem
      exact o.lines_chars l.1 ho c hc
  have hparse := parseLines_options hne
  rw [parseLines, ← hlines, ← filter_cutLine, parseBlocks_filter] at hparse
  rw [parseGoodsOption, htext, splitOnP_endLine hls, parseLines]
  exact hparse

theorem kept_eq_option_iff (o : OptionText) :
    o.kept = o.option ↔ ∀ s ∈ o.selections, s.IsLong := by
  constructor
  · intro h
    have hlen := congrArg (fun g => g.selections.length) h
    simp only [OptionText.kept, OptionText.option, List.length_map] at hlen
    simpa using List.length_filter_eq_length_iff.mp hlen
  · intro h
    rw [OptionText.kept, List.filter_eq_self.mpr (by simpa using h)]
    rfl

theorem map_kept_iff : options.map OptionText.kept = options.map OptionText.option ↔
    ∀ o ∈ options, ∀ s ∈ o.selections, s.IsLong := by
  rw [List.map_inj_left]
  exact forall₂_congr fun o _ => kept_eq_option_iff o

/-- What is read of a decimal price is its value. -/
theorem priced_option {numeric : String → Option CppNumeric} (hnumeric : ReadsDecimals numeric)
    (s : SelectionText) :
    (if s.selection.selectPrice = "" then pure ⟨s.selection.selectName, 0⟩
      else match numeric s.selection.selectPrice with
        | some price => pure ⟨s.selection.selectName, price⟩
        | none => .error (.std "cpp_numeric") : Except Exn ProductOptionSelect) =
      .ok (s.priced numeric) := by
  cases hprice : s.price with
  | none =>
    simp [SelectionText.selection, SelectionText.priced, hprice, hnumeric.zero, pure, Except.pure]
  | some p =>
    have hne : String.ofList p ≠ "" := fun h => (s.price_chars hprice).1 (by simpa using h)
    obtain ⟨x, hx⟩ := Option.isSome_iff_exists.mp (hnumeric.decimal p (s.price_decimal p hprice))
    simp [SelectionText.selection, SelectionText.priced, hprice, hne, hx, pure, Except.pure]

theorem mapM_ok {α β ε : Type} {f : α → Except ε β} {g : α → β} (h : ∀ a, f a = .ok (g a))
    (l : List α) : l.mapM f = .ok (l.map g) := by
  induction l with
  | nil => rfl
  | cons a l ih => simp [List.mapM_cons, h, ih, bind, Except.bind, pure, Except.pure]

/-- The parsed options become those of the product, with the values of their prices. -/
theorem toProductOptions_of_parsed {numeric : String → Option CppNumeric}
    (hnumeric : ReadsDecimals numeric)
    (hparsed : parseGoodsOption text = some (options.map OptionText.option)) :
    toProductOptions numeric text = .ok (options.map (OptionText.priced numeric)) := by
  rw [toProductOptions, hparsed]
  simp only [List.mapM_map]
  refine mapM_ok (fun o => ?_) options
  have hselections := mapM_ok (priced_option hnumeric) o.selections
  simp only [Function.comp_apply, OptionText.option, List.mapM_map]
  exact congrArg (· >>= fun selections =>
    pure (ProductOption.mk (String.ofList o.title) selections)) hselections

/-- An option file is read completely exactly when no selection without a price has a name of
one byte. -/
theorem options_are_read_iff {numeric : String → Option CppNumeric}
    (hnumeric : ReadsDecimals numeric) (hne : options ≠ []) (htext : Renders options text) :
    ReadCompletely numeric options text ↔
      ∀ o ∈ options, ∀ s ∈ o.selections, s.price = none → 2 ≤ size s.name := by
  have hparse := parseGoodsOption_eq hne htext
  constructor
  · intro h
    rw [h.parsed, Option.some.injEq] at hparse
    exact map_kept_iff.mp hparse.symm
  · intro h
    rw [map_kept_iff.mpr h] at hparse
    exact ⟨hparse, toProductOptions_of_parsed hnumeric hparse⟩

end Files

/-! ## Sizes of a shirt -/

/-- Numbers without a point. -/
def wholeNumeric (text : String) : Option CppNumeric :=
  some ((Nat.ofDigitChars 10 text.toList 0 : Nat) : Rat)

theorem wholeNumeric_reads : ReadsDecimals wholeNumeric where
  decimal _ _ := rfl
  zero := by decide

/-- A selection without a price. -/
def bareSelection (name : List Char) (h : name ≠ [] ∧ (∀ c ∈ name, isSpace c = false) ∧
    name.head? ≠ some '#') : SelectionText where
  name
  price := none
  tab := false
  name_ne := h.1
  name_chars := h.2.1
  name_start := h.2.2
  price_decimal _ hp := by cases hp

def shirtSizes : OptionText where
  title := "Size".toList
  selections := [bareSelection "XL".toList (by simp [isSpace]), bareSelection "M".toList (by simp [isSpace])]
  title_ne := by decide
  title_line := by simp
  title_start := by simp [isSpace]
  title_end := by simp [isSpace]

def shirtColours : OptionText where
  title := "Colour".toList
  selections := [bareSelection "red".toList (by simp [isSpace])]
  title_ne := by decide
  title_line := by simp
  title_start := by simp [isSpace]
  title_end := by simp [isSpace]

theorem options_are_read_iff_for_colours :
    ReadCompletely wholeNumeric [shirtColours] "#Colour\n\nred\r\n" ↔
      ∀ o ∈ [shirtColours], ∀ s ∈ o.selections, s.price = none → 2 ≤ size s.name :=
  options_are_read_iff wholeNumeric_reads (by decide)
    ⟨[("#Colour".toList, false), ([], false), ("red".toList, true)], by decide, by decide⟩

/-- The size M is missing in the shop. -/
theorem one_letter_size_is_skipped :
    parseGoodsOption "#Size\nXL\nM\n" = some [⟨"Size", [⟨"XL", "0"⟩]⟩] ∧
      Renders [shirtSizes] "#Size\nXL\nM\n" ∧
      ¬ ReadCompletely wholeNumeric [shirtSizes] "#Size\nXL\nM\n" := by
  have hparse : parseGoodsOption "#Size\nXL\nM\n" = some [⟨"Size", [⟨"XL", "0"⟩]⟩] := by decide
  refine ⟨hparse, ⟨[("#Size".toList, false), ("XL".toList, false), ("M".toList, false)],
    by decide, by decide⟩, fun h => ?_⟩
  have hparsed := h.parsed
  rw [hparse] at hparsed
  exact absurd hparsed (by decide)

end Cmall.GoodsOptionsParser
