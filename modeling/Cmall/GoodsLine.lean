import Cmall.GoodsFile

/-!
What `line` reads: everything up to the first colon is the key, and the key decides between
the alternatives. White space between the key and the colon, and behind the colon, may hold
line ends.
-/

namespace Cmall.GoodsFile
open Spirit

/-! ## Items -/

/-- The text that an attribute is read from. -/
structure Item where
  key : List Char
  blanks : List Char
  value : List Char
  key_colon : ':' ∉ key
  blanks_space : ∀ c ∈ blanks, isSpace c = true
  value_ne : value ≠ []
  value_line : '\n' ∉ value
  value_start : ∀ c ∈ value.head?, isSpace c = false

def Item.text (it : Item) : List Char := it.key ++ ':' :: (it.blanks ++ (it.value ++ ['\n']))

/-- The key is the name, or the name and white space. -/
def Names (name : String) (key : List Char) : Bool :=
  match lits name.toList key with
  | some (_, blanks) => blanks.all isSpace
  | none => false

/-- The keys with a line rule of their own. -/
def reservedKeys : List (List Char) :=
  ["title".toList, "price".toList, "kuaidifei".toList, "description".toList, "picture".toList,
    "keyword".toList]

/-- What is separated by blanks. -/
def words (v : List Char) : List (List Char) := (v.splitOn ' ').filter (· ≠ [])

def IsPairKey (key : List Char) : Prop := key ≠ [] ∧ ∀ c ∈ key, c ≠ '-' ∧ c ≠ ' '

instance (key : List Char) : Decidable (IsPairKey key) :=
  @instDecidableAnd _ _ _ (List.decidableBAll (fun c => c ≠ '-' ∧ c ≠ ' ') key)

/-- The attribute with the key and the value. -/
def lineOf (key value : List Char) : Option GoodsDescription :=
  if Names "title" key then some { title := String.ofList value }
  else if Names "price" key then some { price := String.ofList value }
  else if Names "kuaidifei" key then some { kuaidifei := String.ofList value }
  else if Names "description" key then some { description := String.ofList value }
  else if Names "picture" key then some { picture := [String.ofList value] }
  else if Names "keyword" key then some { keywords := (words value).map String.ofList }
  else if IsPairKey key then some { restMeta := [⟨String.ofList key, String.ofList value⟩] }
  else none

/-- A key without white space is named only by itself. -/
theorem names_iff_eq {key : List Char} (hkey : ∀ c ∈ key, isSpace c = false) {name : String} :
    Names name key = true ↔ key = name.toList := by
  unfold Names
  cases hread : lits name.toList key with
  | none =>
    refine ⟨fun h => (Bool.false_ne_true h).elim, fun h => ?_⟩
    have := lits_append name.toList []
    rw [List.append_nil] at this
    rw [h, this] at hread
    cases hread
  | some x =>
    have hsplit : key = name.toList ++ x.2 := lits_eq_some hread
    constructor
    · intro hblank
      cases hx : x.2 with
      | nil => rw [hsplit, hx, List.append_nil]
      | cons c t =>
        have hall := List.all_eq_true.mp hblank c (by simp [hx])
        rw [hkey c (by simp [hsplit, hx])] at hall
        cases hall
    · intro h
      rw [h] at hsplit
      have hx : x.2 = [] := by simpa using hsplit
      simp [hx]

/-- No key has two names. -/
theorem names_unique {key : List Char} {name name' : String}
    (hname : ∀ c ∈ name.toList, isSpace c = false) (hname' : ∀ c ∈ name'.toList, isSpace c = false)
    (h : Names name key = true) (h' : Names name' key = true) : name = name' := by
  have hfirst : ∀ n : String, (∀ c ∈ n.toList, isSpace c = false) → Names n key = true →
      key.takeWhile (fun c => !isSpace c) = n.toList := by
    intro n hn hnames
    unfold Names at hnames
    cases hread : lits n.toList key with
    | none => simp [hread] at hnames
    | some x =>
      rw [hread] at hnames
      have hblanks : x.2.takeWhile (fun c => !isSpace c) = [] := by
        cases hx : x.2 with
        | nil => rfl
        | cons c t => simp [List.all_eq_true.mp hnames c (by simp [hx])]
      rw [lits_eq_some hread, List.takeWhile_append_of_pos (by simpa using hn), hblanks,
        List.append_nil]
  exact String.toList_inj.mp ((hfirst name hname h).symm.trans (hfirst name' hname' h'))

/-! ## The parts of an item -/

theorem newline_cons (rest : List Char) : newline ('\n' :: rest) = some ((), rest) := by
  simp [newline, choice, lits, lit]

theorem newline_mem {input rest : List Char} (h : newline input = some ((), rest)) :
    '\n' ∈ input := by
  rw [newline, choice, Option.or_eq_some_iff] at h
  rcases h with h | ⟨-, h⟩
  · rw [lits_eq_some h]
    simp
  · rw [lit_eq_some h]
    simp

theorem dropWhile_isSpace {input : List Char} (h : ∀ c ∈ input.head?, isSpace c = false) :
    input.dropWhile isSpace = input := by
  cases input with
  | nil => rfl
  | cons c input => exact List.dropWhile_cons_of_neg (by simp [h c rfl])

section Parts

variable (it : Item) (rest : List Char)

theorem Item.text_append : it.text ++ rest =
    it.key ++ ':' :: (it.blanks ++ (it.value ++ '\n' :: rest)) := by
  simp [Item.text]

/-- The white space behind the colon is skipped, and nothing of the value. -/
theorem Item.skip : (it.blanks ++ (it.value ++ '\n' :: rest)).dropWhile isSpace =
    it.value ++ '\n' :: rest := by
  rw [List.dropWhile_append_of_pos it.blanks_space]
  refine dropWhile_isSpace fun c hc => it.value_start c ?_
  cases hvalue : it.value with
  | nil => exact absurd hvalue it.value_ne
  | cons x v => rwa [hvalue] at hc

theorem value_item : value (it.value ++ '\n' :: rest) = some (it.value, '\n' :: rest) := by
  refine plus_append it.value_ne (fun c hc => ?_) (by decide)
  have hne : c ≠ '\n' := fun h => it.value_line (h ▸ hc)
  simp [hne]

/-- A line rule with a name goes on behind the colon when that is the key, else it fails. -/
theorem named_item (name : String) (hname : ':' ∉ name.toList) :
    ((lits name.toList (it.text ++ rest)).bind fun x => lit ':' (x.2.dropWhile isSpace)) =
      if Names name it.key then some ((), it.blanks ++ (it.value ++ '\n' :: rest)) else none := by
  rw [it.text_append, lits_append_stop hname, Names]
  cases hread : lits name.toList it.key with
  | none => simp
  | some x =>
    have hkey : it.key = name.toList ++ x.2 := lits_eq_some hread
    simp only [Option.map_some, Option.bind_some, List.dropWhile_append]
    by_cases hblank : x.2.all isSpace = true
    · have hdrop : x.2.dropWhile isSpace = [] := by
        rw [List.dropWhile_eq_nil_iff]
        exact List.all_eq_true.mp hblank
      rw [hdrop, if_pos hblank]
      simp [show isSpace ':' = false by decide]
    · have hdrop : x.2.dropWhile isSpace ≠ [] := fun h =>
        hblank (List.all_eq_true.mpr (List.dropWhile_eq_nil_iff.mp h))
      rw [if_neg hblank]
      cases hcons : x.2.dropWhile isSpace with
      | nil => exact absurd hcons hdrop
      | cons c t =>
        have hc : c ≠ ':' := by
          rintro rfl
          refine it.key_colon ?_
          rw [hkey]
          exact List.mem_append_right _ ((List.dropWhile_suffix _).subset (hcons ▸ List.mem_cons_self ..))
        simp [lit, hc]

theorem valueLine_item (name : String) (hname : ':' ∉ name.toList) :
    valueLine name (it.text ++ rest) =
      if Names name it.key then some (String.ofList it.value, rest) else none := by
  have hsplit : valueLine name (it.text ++ rest) =
      ((lits name.toList (it.text ++ rest)).bind fun x => lit ':' (x.2.dropWhile isSpace)).bind
        fun x => (value (x.2.dropWhile isSpace)).bind fun y => (newline y.2).bind fun z =>
          some (String.ofList y.1, z.2) := (Option.bind_assoc ..).symm
  rw [hsplit, named_item it rest name hname]
  split
  · simp [it.skip, value_item, newline_cons]
  · rfl

/-! ### Key words -/

theorem words_append_blank (x y : List Char) : words (x ++ ' ' :: y) = words x ++ words y := by
  simp [words, List.splitOn_append_cons_self]

theorem words_blanks_append {b : List Char} (hb : ∀ c ∈ b, c = ' ') (y : List Char) :
    words (b ++ y) = words y := by
  induction b with
  | nil => rfl
  | cons c b ih =>
    rw [hb c (List.mem_cons_self ..), List.cons_append, ← List.nil_append (' ' :: (b ++ y)),
      words_append_blank, ih fun c hc => hb c (List.mem_cons_of_mem _ hc)]
    rfl

theorem words_word_append {w u : List Char} (hne : w ≠ []) (hw : ' ' ∉ w)
    (hu : ∀ c ∈ u.head?, c = ' ') : words (w ++ u) = w :: words u := by
  have hword : words w = [w] := by simp [words, List.splitOn_eq_singleton hw, hne]
  cases u with
  | nil => rw [List.append_nil, hword]; rfl
  | cons c u =>
    obtain rfl : c = ' ' := hu c rfl
    have hblank := words_blanks_append (b := [' ']) (by simp) u
    rw [words_append_blank, hword, ← List.singleton_append (l := u), hblank]
    rfl

/-- A word that `nextKeyword` reads: blanks behind a first one, and characters that are none. -/
structure Group where
  blanks : List Char
  word : List Char
  blanks_eq : ∀ c ∈ blanks, c = ' '
  word_ne : word ≠ []
  word_chars : ' ' ∉ word

def Group.text (g : Group) : List Char := ' ' :: (g.blanks ++ g.word)

/-- What begins with a blank is words and blanks in turn. -/
theorem exists_groups (u : List Char) (hu : ∀ c ∈ u.head?, c = ' ') :
    ∃ (groups : List Group) (trailing : List Char), u = groups.flatMap Group.text ++ trailing ∧
      (∀ c ∈ trailing, c = ' ') ∧ words u = groups.map Group.word := by
  induction hn : u.length using Nat.strong_induction_on generalizing u with
  | _ n ih =>
    cases u with
    | nil => exact ⟨[], [], rfl, by simp, rfl⟩
    | cons c u =>
      obtain rfl : c = ' ' := hu c rfl
      have hblanks : ∀ c ∈ u.takeWhile (· = ' '), c = ' ' := fun c hc => by
        simpa using List.mem_takeWhile_imp hc
      have hsplit : u = u.takeWhile (· = ' ') ++ u.dropWhile (· = ' ') :=
        List.takeWhile_append_dropWhile.symm
      cases hrest : u.dropWhile (· = ' ') with
      | nil =>
        rw [hrest, List.append_nil] at hsplit
        have hall : ∀ c ∈ ' ' :: u, c = ' ' := by
          intro c hc
          rcases List.mem_cons.mp hc with rfl | hc
          · rfl
          · exact hblanks c (hsplit ▸ hc)
        refine ⟨[], ' ' :: u, rfl, hall, ?_⟩
        have := words_blanks_append hall []
        rwa [List.append_nil] at this
      | cons x u₁ =>
        have hx : x ≠ ' ' := by
          have := List.head?_dropWhile_not (· = ' ') u
          rw [hrest] at this
          simpa using this
        have hword : (x :: u₁).takeWhile (· ≠ ' ') ++ (x :: u₁).dropWhile (· ≠ ' ') = x :: u₁ :=
          List.takeWhile_append_dropWhile
        have hne : (x :: u₁).takeWhile (· ≠ ' ') ≠ [] := by simp [hx]
        have hchars : ' ' ∉ (x :: u₁).takeWhile (· ≠ ' ') := fun hc => by
          simpa using List.mem_takeWhile_imp hc
        have hhead : ∀ c ∈ ((x :: u₁).dropWhile (· ≠ ' ')).head?, c = ' ' := by
          intro c hc
          have := List.head?_dropWhile_not (· ≠ ' ') (x :: u₁)
          rw [Option.mem_def.mp hc] at this
          simpa using this
        rw [hrest, ← hword] at hsplit
        generalize u.takeWhile (· = ' ') = b at hblanks hsplit
        generalize (x :: u₁).takeWhile (· ≠ ' ') = w at hne hchars hsplit
        generalize (x :: u₁).dropWhile (· ≠ ' ') = u₂ at hhead hsplit
        subst hsplit
        have hlen : u₂.length < n := by
          simp only [List.length_cons, List.length_append] at hn
          omega
        obtain ⟨groups, trailing, rfl, htrailing, hwords⟩ := ih _ hlen u₂ hhead rfl
        refine ⟨⟨b, w, hblanks, hne, hchars⟩ :: groups, trailing, ?_, htrailing, ?_⟩
        · simp [Group.text]
        · have hfirst := words_blanks_append (b := ' ' :: b) (by simpa using hblanks)
            (w ++ (groups.flatMap Group.text ++ trailing))
          rw [List.cons_append] at hfirst
          rw [hfirst, words_word_append hne hchars hhead, hwords]
          rfl

/-- A key word ends at a blank or at the end of the line. -/
def EndsKeyword (input : List Char) : Prop := ∀ c ∈ input.head?, c = ' ' ∨ c = '\n'

theorem keyword_append {w input : List Char} (hne : w ≠ []) (hw : ∀ c ∈ w, c ≠ '\n' ∧ c ≠ ' ')
    (hend : EndsKeyword input) : keyword (w ++ input) = some (w, input) := by
  refine plus_append_of_head hne (fun c hc => by simp [hw c hc]) fun c hc => ?_
  rcases hend c hc with rfl | rfl <;> decide

theorem nextKeyword_group (g : Group) (hline : '\n' ∉ g.word) {input : List Char}
    (hend : EndsKeyword input) : nextKeyword (g.text ++ input) = some (g.word, input) := by
  have hblank : plus (fun c => c = ' ') ((' ' :: g.blanks) ++ (g.word ++ input)) =
      some (' ' :: g.blanks, g.word ++ input) := by
    refine plus_append_of_head (by simp) (by simpa using g.blanks_eq) fun c hc => ?_
    cases hword : g.word with
    | nil => exact absurd hword g.word_ne
    | cons x w =>
      rw [hword] at hc
      cases hc
      have hne : c ≠ ' ' := fun h => g.word_chars (by simp [hword, h])
      simp [hne]
  have hword : ∀ c ∈ g.word, c ≠ '\n' ∧ c ≠ ' ' :=
    fun c hc => ⟨fun h => hline (h ▸ hc), fun h => g.word_chars (h ▸ hc)⟩
  rw [show g.text ++ input = (' ' :: g.blanks) ++ (g.word ++ input) by simp [Group.text],
    nextKeyword, hblank]
  exact keyword_append g.word_ne hword hend

theorem nextKeyword_none {b : List Char} (hb : ∀ c ∈ b, c = ' ') (rest : List Char) :
    nextKeyword (b ++ '\n' :: rest) = none := by
  by_cases hne : b = []
  · simp [nextKeyword, hne, plus]
  · have hblank : plus (fun c => c = ' ') (b ++ '\n' :: rest) = some (b, '\n' :: rest) :=
      plus_append hne (by simpa using hb) (by decide)
    have hend : keyword ('\n' :: rest) = none := plus_eq_none fun c hc => by
      cases hc
      decide
    simp [nextKeyword, hblank, hend]

/-- A value begins with a word. -/
theorem Item.exists_word : ∃ w u, it.value = w ++ u ∧ w ≠ [] ∧ ' ' ∉ w ∧ ∀ c ∈ u.head?, c = ' ' := by
  refine ⟨it.value.takeWhile (· ≠ ' '), it.value.dropWhile (· ≠ ' '),
    List.takeWhile_append_dropWhile.symm, ?_, fun hc => ?_, fun c hc => ?_⟩
  · cases hvalue : it.value with
    | nil => exact absurd hvalue it.value_ne
    | cons c v =>
      have hspace := it.value_start c (by simp [hvalue])
      have hc : c ≠ ' ' := fun h => by
        rw [h] at hspace
        exact absurd hspace (by decide)
      simp [hc]
  · simpa using List.mem_takeWhile_imp hc
  · have := List.head?_dropWhile_not (· ≠ ' ') it.value
    rw [Option.mem_def.mp hc] at this
    simpa using this

theorem Item.words_ne : words it.value ≠ [] := by
  obtain ⟨w, u, hvalue, hne, hchars, hhead⟩ := it.exists_word
  rw [hvalue, words_word_append hne hchars hhead]
  exact List.cons_ne_nil _ _

/-- The words of a value are read, up to the blanks at its end. -/
theorem keywords_item : ∃ trailing, (∀ c ∈ trailing, c = ' ') ∧
    keywords (it.value ++ '\n' :: rest) =
      some ((words it.value).map String.ofList, trailing ++ '\n' :: rest) := by
  obtain ⟨w, u, hvalue, hne, hchars, hhead⟩ := it.exists_word
  have hline := it.value_line
  rw [hvalue] at hline ⊢
  obtain ⟨groups, trailing, rfl, htrailing, hwords⟩ := exists_groups u hhead
  have hline' : '\n' ∉ w := fun h => hline (List.mem_append_left _ h)
  have hends : ∀ v : List Char, (∀ c ∈ v.head?, c = ' ') → EndsKeyword (v ++ '\n' :: rest) := by
    intro v hv c hc
    cases v with
    | nil =>
      cases hc
      exact .inr rfl
    | cons x v =>
      cases hc
      exact .inl (hv c rfl)
  have htrail : ∀ c ∈ trailing.head?, c = ' ' := fun c hc =>
    htrailing c (List.mem_of_mem_head? hc)
  have hgroups : kleene nextKeyword (groups.flatMap Group.text ++ (trailing ++ '\n' :: rest)) =
      (groups.map Group.word, trailing ++ '\n' :: rest) := by
    refine kleene_map_append EndsKeyword (fun g _ => by simp [Group.text])
      (fun g hg input hend => nextKeyword_group g ?_ hend) (fun g _ input c hc => ?_)
      (hends trailing htrail) (nextKeyword_none htrailing rest)
    · intro hmem
      refine hline (List.mem_append_right _ (List.mem_append_left _ ?_))
      exact List.mem_flatMap.mpr ⟨g, hg, by simp [Group.text, hmem]⟩
    · cases hc
      exact .inl rfl
  have hfirst : keyword (w ++ (groups.flatMap Group.text ++ (trailing ++ '\n' :: rest))) =
      some (w, groups.flatMap Group.text ++ (trailing ++ '\n' :: rest)) := by
    refine keyword_append hne (fun c hc => ⟨fun h => hline' (h ▸ hc), fun h => hchars (h ▸ hc)⟩) ?_
    have := hends _ hhead
    rwa [List.append_assoc] at this
  refine ⟨trailing, htrailing, ?_⟩
  rw [words_word_append hne hchars hhead, hwords, List.append_assoc, List.append_assoc]
  simp [keywords, hfirst, hgroups]

theorem keywordLine_item : keywordLine (it.text ++ rest) =
    if Names "keyword" it.key then some ((words it.value).map String.ofList, rest) else none := by
  have hsplit : keywordLine (it.text ++ rest) =
      ((lits "keyword".toList (it.text ++ rest)).bind
        fun x => lit ':' (x.2.dropWhile isSpace)).bind fun x =>
          (keywords (x.2.dropWhile isSpace)).bind fun y =>
            (newline (y.2.dropWhile fun c => c = ' ')).bind fun z => some (y.1, z.2) :=
    (Option.bind_assoc ..).symm
  obtain ⟨trailing, htrailing, hread⟩ := keywords_item it rest
  have hend : (trailing ++ '\n' :: rest).dropWhile (fun c => c = ' ') = '\n' :: rest := by
    rw [List.dropWhile_append_of_pos (by simpa using htrailing)]
    exact List.dropWhile_cons_of_neg (by decide)
  rw [hsplit, named_item it rest "keyword" (by decide)]
  split
  · simp [it.skip, hread, hend, newline_cons]
  · rfl

/-! ### Pairs -/

/-- A key with a dash or a blank does not reach the colon. -/
theorem key_colon_none {k : List Char} (hcolon : ':' ∉ k) (hk : ¬ IsPairKey k)
    (u : List Char) : ((key (k ++ ':' :: u)).bind fun x => lit ':' x.2) = none := by
  generalize hp : (fun c => decide (c ≠ ':' ∧ c ≠ '-' ∧ c ≠ ' ')) = p
  have hkey : key (k ++ ':' :: u) = plus p (k ++ ':' :: u) := by rw [key, hp]
  rw [hkey]
  cases hdrop : k.dropWhile p with
  | nil =>
    have hall := List.dropWhile_eq_nil_iff.mp hdrop
    have hnil : k = [] := by
      by_contra hne
      refine hk ⟨hne, fun c hc => ?_⟩
      have := hall c hc
      rw [← hp] at this
      simpa using (of_decide_eq_true this).2
    have hstop : p ':' = false := by rw [← hp]; decide
    simp [hnil, plus, hstop]
  | cons c k' =>
    have hc : c ≠ ':' := fun h =>
      hcolon ((List.dropWhile_suffix p).subset (by simp [hdrop, h]))
    have hrest : (k ++ ':' :: u).dropWhile p = c :: (k' ++ ':' :: u) := by
      simp [List.dropWhile_append, hdrop]
    unfold plus
    split
    · rfl
    · simp [hrest, lit, hc]

theorem pairLine_item : pairLine (it.text ++ rest) =
    if IsPairKey it.key then some (⟨String.ofList it.key, String.ofList it.value⟩, rest)
    else none := by
  rw [it.text_append]
  split
  · rename_i hkey
    have hread : key (it.key ++ ':' :: (it.blanks ++ (it.value ++ '\n' :: rest))) =
        some (it.key, ':' :: (it.blanks ++ (it.value ++ '\n' :: rest))) := by
      refine plus_append hkey.1 (fun c hc => ?_) (by decide)
      have hcolon : c ≠ ':' := fun h => it.key_colon (h ▸ hc)
      simp [hcolon, hkey.2 c hc]
    simp [pairLine, hread, it.skip, value_item, newline_cons]
  · rename_i hkey
    have hnone := key_colon_none it.key_colon hkey (it.blanks ++ (it.value ++ '\n' :: rest))
    cases hread : key (it.key ++ ':' :: (it.blanks ++ (it.value ++ '\n' :: rest))) with
    | none => simp [pairLine, hread]
    | some x =>
      rw [hread, Option.bind_some] at hnone
      simp [pairLine, hread, hnone]

/-- What `line` reads of an item, whatever follows it. -/
theorem line_item : line (it.text ++ rest) =
    (lineOf it.key it.value).map fun d => (d, rest) := by
  have htitle := valueLine_item it rest "title" (by decide)
  have hprice := valueLine_item it rest "price" (by decide)
  have hkuaidifei := valueLine_item it rest "kuaidifei" (by decide)
  have hdescription := valueLine_item it rest "description" (by decide)
  have hpicture := valueLine_item it rest "picture" (by decide)
  simp only [line, choice, action, titleLine, priceLine, kuaidifeLine, descriptionLine,
    pictureLine, htitle, hprice, hkuaidifei, hdescription, hpicture, keywordLine_item,
    pairLine_item, lineOf]
  split_ifs <;> rfl

end Parts

/-! ## What is read is an item -/

/-- A key, a colon, and something in a line behind it. -/
def HasItem (input : List Char) : Prop :=
  ∃ k u, input = k ++ ':' :: u ∧ ':' ∉ k ∧ '\n' ∈ u.dropWhile isSpace

theorem HasItem.exists_item {input : List Char} (h : HasItem input) :
    ∃ (it : Item) (rest : List Char), input = it.text ++ rest := by
  obtain ⟨k, u, rfl, hk, hline⟩ := h
  have hu : u.takeWhile isSpace ++ u.dropWhile isSpace = u := List.takeWhile_append_dropWhile
  have hstart : ∀ c ∈ (u.dropWhile isSpace).head?, isSpace c = false := fun c hc => by
    have := List.head?_dropWhile_not isSpace u
    rw [Option.mem_def.mp hc] at this
    simpa using this
  generalize u.dropWhile isSpace = w at hline hu hstart
  obtain ⟨v, rest, rfl, hv⟩ := List.eq_append_cons_of_mem hline
  have hne : v ≠ [] := by
    rintro rfl
    exact absurd (hstart '\n' rfl) (by decide)
  refine ⟨⟨k, u.takeWhile isSpace, v, hk, fun c hc => List.mem_takeWhile_imp hc, hne, hv, ?_⟩,
    rest, ?_⟩
  · intro c hc
    refine hstart c ?_
    cases v with
    | nil => exact absurd rfl hne
    | cons x v => exact hc
  · rw [Item.text_append, hu]

/-- A line rule with a name has read the name, white space and a colon. -/
theorem hasItem_of_named {name : String} (hname : ':' ∉ name.toList) {input i₁ u : List Char}
    (hlits : lits name.toList input = some ((), i₁))
    (hlit : lit ':' (i₁.dropWhile isSpace) = some ((), u)) (hline : '\n' ∈ u.dropWhile isSpace) :
    HasItem input := by
  refine ⟨name.toList ++ i₁.takeWhile isSpace, u, ?_, ?_, hline⟩
  · rw [List.append_assoc, ← lit_eq_some hlit, List.takeWhile_append_dropWhile]
    exact lits_eq_some hlits
  · rw [List.mem_append, not_or]
    refine ⟨hname, fun hc => ?_⟩
    have := List.mem_takeWhile_imp hc
    exact absurd this (by decide)

theorem newline_mem_of_value {input v i rest : List Char} (hvalue : value input = some (v, i))
    (hnewline : newline i = some ((), rest)) : '\n' ∈ input := by
  rw [plus_eq_append hvalue]
  exact List.mem_append_right _ (newline_mem hnewline)

theorem hasItem_of_valueLine {name : String} (hname : ':' ∉ name.toList) {input rest : List Char}
    {v : String} (h : valueLine name input = some (v, rest)) : HasItem input := by
  simp only [valueLine, Option.bind_eq_bind, Option.bind_eq_some_iff] at h
  obtain ⟨⟨_, i₁⟩, hlits, ⟨_, u⟩, hlit, ⟨v, i₃⟩, hvalue, ⟨_, i₄⟩, hnewline, -⟩ := h
  exact hasItem_of_named hname hlits hlit (newline_mem_of_value hvalue hnewline)

theorem nextKeyword_suffix (input rest w : List Char) (h : nextKeyword input = some (w, rest)) :
    rest <:+ input := by
  simp only [nextKeyword, Option.bind_eq_bind, Option.bind_eq_some_iff] at h
  obtain ⟨⟨b, i⟩, hblanks, hword⟩ := h
  have hi : i = w ++ rest := plus_eq_append hword
  rw [plus_eq_append hblanks, hi]
  exact (List.suffix_append _ _).trans (List.suffix_append _ _)

theorem hasItem_of_keywordLine {input rest : List Char} {ws : List String}
    (h : keywordLine input = some (ws, rest)) : HasItem input := by
  simp only [keywordLine, Option.bind_eq_bind, Option.bind_eq_some_iff] at h
  obtain ⟨⟨_, i₁⟩, hlits, ⟨_, u⟩, hlit, ⟨ws, i₃⟩, hwords, ⟨_, i₄⟩, hnewline, -⟩ := h
  refine hasItem_of_named (by decide) hlits hlit ?_
  simp only [keywords, Option.bind_eq_bind, Option.bind_eq_some_iff] at hwords
  obtain ⟨⟨w, i₂⟩, hfirst, hrest⟩ := hwords
  cases hrest
  have hmem : '\n' ∈ (kleene nextKeyword i₂).2 :=
    (List.dropWhile_suffix _).subset (newline_mem hnewline)
  rw [plus_eq_append hfirst]
  exact List.mem_append_right _ ((kleene_suffix nextKeyword_suffix i₂).subset hmem)

theorem hasItem_of_pairLine {input rest : List Char} {kv : KV}
    (h : pairLine input = some (kv, rest)) : HasItem input := by
  simp only [pairLine, Option.bind_eq_bind, Option.bind_eq_some_iff] at h
  obtain ⟨⟨k, i₁⟩, hkey, ⟨_, u⟩, hlit, ⟨v, i₃⟩, hvalue, ⟨_, i₄⟩, hnewline, -⟩ := h
  refine ⟨k, u, ?_, fun hc => ?_, newline_mem_of_value hvalue hnewline⟩
  · rw [← lit_eq_some hlit]
    exact plus_eq_append hkey
  · simpa using (plus_some hkey).2 ':' hc

/-- What `line` reads is the text of an item. -/
theorem line_some {input rest : List Char} {d : GoodsDescription}
    (h : line input = some (d, rest)) :
    ∃ it : Item, input = it.text ++ rest ∧ lineOf it.key it.value = some d := by
  have hitem : HasItem input := by
    simp only [line, choice, action, Option.or_eq_some_iff, Option.map_eq_some_iff] at h
    rcases h with ⟨⟨v, i⟩, h, -⟩ | ⟨-, ⟨⟨v, i⟩, h, -⟩ | ⟨-, ⟨⟨v, i⟩, h, -⟩ | ⟨-, ⟨⟨v, i⟩, h, -⟩ |
      ⟨-, ⟨⟨v, i⟩, h, -⟩ | ⟨-, ⟨⟨v, i⟩, h, -⟩ | ⟨-, ⟨v, i⟩, h, -⟩⟩⟩⟩⟩⟩
    · exact hasItem_of_valueLine (by decide) h
    · exact hasItem_of_valueLine (by decide) h
    · exact hasItem_of_valueLine (by decide) h
    · exact hasItem_of_valueLine (by decide) h
    · exact hasItem_of_valueLine (by decide) h
    · exact hasItem_of_keywordLine h
    · exact hasItem_of_pairLine h
  obtain ⟨it, rest', rfl⟩ := hitem.exists_item
  rw [line_item, Option.map_eq_some_iff] at h
  obtain ⟨d', hd, heq⟩ := h
  cases heq
  exact ⟨it, rfl, hd⟩

theorem line_consumes : Consumes line := by
  intro input rest d h
  obtain ⟨it, rfl, -⟩ := line_some h
  simp [Item.text]
  omega

end Cmall.GoodsFile
