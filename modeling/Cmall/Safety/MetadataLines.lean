import Cmall.GoodsLine
import Mathlib

/-!
Lines of the metadata.

An attribute without a value takes the next line for its value, because the white space
behind the colon may hold line ends. So a line `other:` before an attribute takes that
attribute away, and the block is accepted all the same: the values stay only where the same
value stands in the block again.
-/

namespace Cmall.GoodsFile
open Spirit

/-! ## What is to hold -/

/-- The texts that the attributes of a document are read from. -/
def lineTexts (text : List Char) : List (List Char) :=
  match documentSperator text with
  | some (_, input) => (kleene (raw line) input).1
  | none => []

/-- One line, with its end. -/
def IsLine (t : List Char) : Prop := ∃ w, t = w ++ ['\n'] ∧ '\n' ∉ w

/-- All keys and values. -/
def GoodsDescription.texts (d : GoodsDescription) : List String :=
  [d.title, d.price, d.kuaidifei, d.description] ++ d.picture ++ d.keywords ++
    d.restMeta.flatMap fun kv => [kv.k, kv.v]

inductive Attr where
  | title
  | price
  | kuaidifei
  | description
  | picture
  | keyword
  | other (key : String)
  deriving DecidableEq, Repr

def oneValue (s : String) : List String := if s = "" then [] else [s]

def Attr.values (d : GoodsDescription) : Attr → List String
  | .title => oneValue d.title
  | .price => oneValue d.price
  | .kuaidifei => oneValue d.kuaidifei
  | .description => oneValue d.description
  | .picture => d.picture
  | .keyword => d.keywords
  | .other key => (d.restMeta.filter fun kv => kv.k = key).map KV.v

/-- A key that has no line rule of its own. -/
structure IsOtherKey (k : List Char) : Prop where
  ne : k ≠ []
  chars : ∀ c ∈ k, c ≠ ':' ∧ c ≠ '-' ∧ isSpace c = false
  other : k ∉ reservedKeys

/-- A blank line, or a line with another key and no value. -/
def Unrelated (a : Attr) (t : List Char) : Prop :=
  t = ['\n'] ∨ ∃ k, IsOtherKey k ∧ a ≠ .other (String.ofList k) ∧ t = k ++ [':', '\n']

/-- The lines of the block do not depend on each other. -/
structure LinesIndependent (text : List Char) (d : GoodsDescription) : Prop where
  contained : ∀ s ∈ d.texts, ∃ l ∈ text.splitOn '\n', s.toList <:+: l
  /-- No attribute takes its value from the next line. -/
  single : ∀ t ∈ lineTexts text, IsLine t
  /-- An unrelated line changes no value of an attribute, or the block is not accepted. -/
  stay : ∀ pre post, text = pre ++ post → (pre = [] ∨ pre.getLast? = some '\n') →
    ∀ a : Attr, a.values d ≠ [] → ∀ inserted, Unrelated a inserted →
      ∀ d', parseGoodsMetadata (pre ++ inserted ++ post) = some d' → a.values d' = a.values d

/-! ## The condition -/

/-- The attributes that keep one value. -/
def singleNames : List String := ["title", "price", "kuaidifei", "description"]

def IsSeparator (t : List Char) : Prop := t = "---\n".toList ∨ t = "---\r\n".toList

/-- The item is one line, for an attribute that keeps one value. -/
structure Item.IsPlain (it : Item) : Prop where
  key_line : '\n' ∉ it.key
  blanks_line : '\n' ∉ it.blanks
  named : ∃ name ∈ singleNames, Names name it.key = true

/-- The values on the lines with the name. -/
def valuesNamed (name : String) (items : List Item) : List (List Char) :=
  (items.filter fun it => Names name it.key).map Item.value

/-- The first value of each attribute stands on its second line again. -/
def RepeatsIn (items : List Item) : Prop :=
  ∀ name ∈ singleNames, ∀ v rest, valuesNamed name items = v :: rest → rest.head? = some v

/-- There are only lines of attributes that keep one value, and they repeat. -/
def Repeats (text : List Char) : Prop :=
  ∃ (sep : List Char) (items : List Item) (sep' tail : List Char),
    text = sep ++ (items.flatMap Item.text ++ (sep' ++ tail)) ∧ IsSeparator sep ∧
      IsSeparator sep' ∧ items ≠ [] ∧ (∀ it ∈ items, it.IsPlain) ∧ RepeatsIn items

/-! ## Documents of items -/

/-- What an item describes, when it is read at all. -/
def Item.IsRead (it : Item) : Prop := (lineOf it.key it.value).isSome = true

def Item.description (it : Item) : GoodsDescription := (lineOf it.key it.value).getD {}

theorem Item.IsRead.line {it : Item} (h : it.IsRead) (rest : List Char) :
    line (it.text ++ rest) = some (it.description, rest) := by
  obtain ⟨d, hd⟩ := Option.isSome_iff_exists.mp h
  rw [line_item, hd]
  simp [Item.description, hd]

theorem documentSperator_append {sep : List Char} (h : IsSeparator sep) (rest : List Char) :
    documentSperator (sep ++ rest) = some ((), rest) := by
  rcases h with rfl | rfl <;> simp [documentSperator, lits, newline, choice, lit]

theorem documentSperator_some {input rest : List Char}
    (h : documentSperator input = some ((), rest)) : ∃ sep, IsSeparator sep ∧ input = sep ++ rest := by
  simp only [documentSperator, Option.bind_eq_bind, Option.bind_eq_some_iff] at h
  obtain ⟨⟨_, i⟩, hlits, hnewline⟩ := h
  rw [newline, choice, Option.or_eq_some_iff] at hnewline
  rw [lits_eq_some hlits]
  rcases hnewline with hcrlf | ⟨-, hlf⟩
  · have hi : i = '\r' :: '\n' :: rest := lits_eq_some hcrlf
    exact ⟨"---\r\n".toList, .inr rfl, by rw [hi]; rfl⟩
  · have hi : i = '\n' :: rest := lit_eq_some hlf
    exact ⟨"---\n".toList, .inl rfl, by rw [hi]; rfl⟩

/-- No attribute begins with a dash. -/
theorem line_dash (rest : List Char) : line ('-' :: rest) = none := by
  simp [line, choice, action, titleLine, priceLine, kuaidifeLine, descriptionLine, pictureLine,
    valueLine, keywordLine, pairLine, key, plus, lits]

theorem line_separator {sep : List Char} (h : IsSeparator sep) (rest : List Char) :
    line (sep ++ rest) = none := by
  rcases h with rfl | rfl <;> exact line_dash _

theorem assign_empty (d : GoodsDescription) : GoodsDescription.assign {} d = d := by
  simp [GoodsDescription.assign]

theorem kleene_line_items {items : List Item} (hread : ∀ it ∈ items, it.IsRead)
    (input : List Char) : kleene line (items.flatMap Item.text ++ input) =
      (items.map Item.description ++ (kleene line input).1, (kleene line input).2) :=
  kleene_map line_consumes (fun it hit rest => (hread it hit).line rest) input

/-- A document with items, and what follows them. -/
theorem document_items {sep : List Char} (hsep : IsSeparator sep) {items : List Item}
    (hne : items ≠ []) (hread : ∀ it ∈ items, it.IsRead) (input : List Char) :
    document (sep ++ (items.flatMap Item.text ++ input)) =
      (documentSperator (kleene line input).2).map fun x =>
        ((items.map Item.description ++ (kleene line input).1).foldl GoodsDescription.assign {},
          x.2) := by
  cases items with
  | nil => exact absurd rfl hne
  | cons it items =>
    have hrest := kleene_line_items (fun it hit => hread it (List.mem_cons_of_mem _ hit)) input
    have hfirst := (hread it (List.mem_cons_self ..)).line (items.flatMap Item.text ++ input)
    have hlines : lines ((it :: items).flatMap Item.text ++ input) =
        some (((it :: items).map Item.description ++ (kleene line input).1).foldl
          GoodsDescription.assign {}, (kleene line input).2) := by
      rw [List.flatMap_cons, List.append_assoc, lines, hfirst]
      simp [hrest]
    rw [document, documentSperator_append hsep]
    simp only [Option.bind_eq_bind, Option.bind_some, hlines, assign_empty]
    cases documentSperator (kleene line input).2 <;> rfl

/-- A document whose items are followed by something else than a separator is not accepted. -/
theorem document_stop {sep : List Char} (hsep : IsSeparator sep) {items : List Item}
    (hread : ∀ it ∈ items, it.IsRead) {input : List Char} (hline : line input = none)
    (hend : documentSperator input = none) :
    document (sep ++ (items.flatMap Item.text ++ input)) = none := by
  by_cases hne : items = []
  · rw [hne, document, documentSperator_append hsep]
    simp [lines, hline]
  · rw [document_items hsep hne hread, kleene_none hline, hend]
    rfl

/-- Up to what is no line any more, the text is items. -/
theorem exists_items (input : List Char) : ∃ (items : List Item) (rest : List Char),
    input = items.flatMap Item.text ++ rest ∧ (∀ it ∈ items, it.IsRead) ∧ line rest = none := by
  induction hn : input.length using Nat.strong_induction_on generalizing input with
  | _ n ih =>
    cases h : line input with
    | none => exact ⟨[], input, rfl, by simp, h⟩
    | some x =>
      have hsome : line input = some (x.1, x.2) := h
      obtain ⟨it, hinput, hit⟩ := line_some hsome
      have hlt : x.2.length < n := hn ▸ line_consumes (a := x.1) h
      obtain ⟨items, rest, hrest, hread, hstop⟩ := ih _ hlt x.2 rfl
      refine ⟨it :: items, rest, ?_, ?_, hstop⟩
      · rw [hinput, hrest]
        simp
      · intro it' hit'
        rcases List.mem_cons.mp hit' with rfl | hit'
        · simp [Item.IsRead, hit]
        · exact hread it' hit'

/-- An accepted text is items between two separators. -/
theorem exists_items_of_parse {text : List Char} {d : GoodsDescription}
    (h : parseGoodsMetadata text = some d) :
    ∃ (sep : List Char) (items : List Item) (sep' tail : List Char),
      text = sep ++ (items.flatMap Item.text ++ (sep' ++ tail)) ∧ IsSeparator sep ∧
        IsSeparator sep' ∧ items ≠ [] ∧ (∀ it ∈ items, it.IsRead) := by
  rw [parseGoodsMetadata, Option.map_eq_some_iff] at h
  obtain ⟨⟨d', tail⟩, hdoc, -⟩ := h
  have hsep := hdoc
  simp only [document, Option.bind_eq_bind, Option.bind_eq_some_iff] at hsep
  obtain ⟨⟨_, i⟩, hopens, -⟩ := hsep
  obtain ⟨sep, hsep, rfl⟩ := documentSperator_some hopens
  obtain ⟨items, rest, rfl, hread, hstop⟩ := exists_items i
  cases hend : documentSperator rest with
  | none => rw [document_stop hsep hread hstop hend] at hdoc; cases hdoc
  | some x =>
    have hsome : documentSperator rest = some ((), x.2) := hend
    obtain ⟨sep', hsep', rfl⟩ := documentSperator_some hsome
    refine ⟨sep, items, sep', x.2, rfl, hsep, hsep', ?_, hread⟩
    rintro rfl
    rw [document, documentSperator_append hsep] at hdoc
    simp [lines, line_separator hsep'] at hdoc

/-! ## Values -/

/-- The attribute keeps one value. -/
def Attr.isSingle : Attr → Bool
  | .title | .price | .kuaidifei | .description => true
  | .picture | .keyword | .other _ => false

/-- What an attribute keeps of the values it is given. -/
def Attr.keep (a : Attr) (vs : List String) : List String := if a.isSingle then vs.take 1 else vs

def Attr.name : Attr → String
  | .title => "title"
  | .price => "price"
  | .kuaidifei => "kuaidifei"
  | .description => "description"
  | .picture => "picture"
  | .keyword => "keyword"
  | .other key => key

theorem oneValue_merge (s t : String) :
    oneValue (if s = "" then t else s) = (oneValue s ++ oneValue t).take 1 := by
  unfold oneValue
  by_cases hs : s = "" <;> by_cases ht : t = "" <;> simp [hs, ht]

theorem take_one_append {α : Type} (l r : List α) : (l.take 1 ++ r).take 1 = (l ++ r).take 1 := by
  cases l <;> simp

theorem Attr.values_assign (a : Attr) (x y : GoodsDescription) :
    a.values (x.assign y) = a.keep (a.values x ++ a.values y) := by
  cases a with
  | title => exact oneValue_merge ..
  | price => exact oneValue_merge ..
  | kuaidifei => exact oneValue_merge ..
  | description => exact oneValue_merge ..
  | picture => rfl
  | keyword => rfl
  | other key => simp [Attr.values, GoodsDescription.assign, Attr.keep, Attr.isSingle]

theorem Attr.keep_values (a : Attr) (d : GoodsDescription) : a.keep (a.values d) = a.values d := by
  have hone : ∀ s, (oneValue s).take 1 = oneValue s := by
    intro s
    unfold oneValue
    split <;> rfl
  cases a with
  | title => exact hone _
  | price => exact hone _
  | kuaidifei => exact hone _
  | description => exact hone _
  | picture => rfl
  | keyword => rfl
  | other key => rfl

theorem Attr.keep_keep_append (a : Attr) (l r : List String) :
    a.keep (a.keep l ++ r) = a.keep (l ++ r) := by
  unfold Attr.keep
  split
  · exact take_one_append l r
  · rfl

/-- The values after all assignments are those of the parts, as far as they are kept. -/
theorem Attr.values_foldl (a : Attr) (ds : List GoodsDescription) (x : GoodsDescription) :
    a.values (ds.foldl GoodsDescription.assign x) = a.keep (a.values x ++ ds.flatMap a.values) := by
  induction ds generalizing x with
  | nil => simp [a.keep_values]
  | cons d ds ih =>
    rw [List.foldl_cons, ih, a.values_assign, a.keep_keep_append, List.flatMap_cons,
      List.append_assoc]

/-- The values that the items of a text have for an attribute. -/
def valuesIn (a : Attr) (items : List Item) : List String :=
  items.flatMap fun it => a.values it.description

theorem valuesIn_append (a : Attr) (xs ys : List Item) :
    valuesIn a (xs ++ ys) = valuesIn a xs ++ valuesIn a ys := List.flatMap_append

theorem valuesIn_cons (a : Attr) (it : Item) (items : List Item) :
    valuesIn a (it :: items) = a.values it.description ++ valuesIn a items := List.flatMap_cons

/-- What is accepted has the values of its items, and of what is read behind them. -/
theorem values_of_parse {sep : List Char} (hsep : IsSeparator sep) {items : List Item}
    (hne : items ≠ []) (hread : ∀ it ∈ items, it.IsRead) {input : List Char}
    {d : GoodsDescription}
    (h : parseGoodsMetadata (sep ++ (items.flatMap Item.text ++ input)) = some d) (a : Attr) :
    a.values d = a.keep (valuesIn a items ++ (kleene line input).1.flatMap a.values) := by
  rw [parseGoodsMetadata, document_items hsep hne hread] at h
  simp only [Option.map_map, Option.map_eq_some_iff, Function.comp_apply] at h
  obtain ⟨x, -, rfl⟩ := h
  have hnil : a.values {} = [] := by cases a <;> rfl
  rw [a.values_foldl, hnil, List.nil_append, List.flatMap_append, List.flatMap_map]
  rfl

theorem names_false {key : List Char} {name : String} (name' : String) (hname : name.toList ∈ reservedKeys)
    (hname' : name'.toList ∈ reservedKeys) (hne : name ≠ name') (h : Names name key = true) :
    Names name' key = false := by
  have hspace : ∀ k ∈ reservedKeys, ∀ c ∈ k, isSpace c = false := by simp [reservedKeys, isSpace]
  rw [← Bool.not_eq_true]
  exact fun h' => hne (names_unique (hspace _ hname) (hspace _ hname') h h')

theorem oneValue_ofList {v : List Char} (h : v ≠ []) :
    oneValue (String.ofList v) = [String.ofList v] := by
  simp [oneValue, h]

/-- An attribute that keeps one value gets it from the items with its name. -/
theorem Attr.values_description {a : Attr} (ha : a.isSingle = true) (it : Item) :
    a.values it.description =
      if Names a.name it.key = true then [String.ofList it.value] else [] := by
  have hvalue := oneValue_ofList it.value_ne
  have hnil : oneValue "" = [] := rfl
  by_cases hnamed : Names a.name it.key = true
  · rw [if_pos hnamed]
    cases a with
    | title =>
      have htitle : Names "title" it.key = true := hnamed
      simp [Item.description, lineOf, htitle, Attr.values, hvalue]
    | price =>
      have hprice : Names "price" it.key = true := hnamed
      have htitle := names_false "title" (by decide) (by decide) (by decide) hprice
      simp [Item.description, lineOf, htitle, hprice, Attr.values, hvalue]
    | kuaidifei =>
      have hkuaidifei : Names "kuaidifei" it.key = true := hnamed
      have htitle := names_false "title" (by decide) (by decide) (by decide) hkuaidifei
      have hprice := names_false "price" (by decide) (by decide) (by decide) hkuaidifei
      simp [Item.description, lineOf, htitle, hprice, hkuaidifei, Attr.values, hvalue]
    | description =>
      have hdescription : Names "description" it.key = true := hnamed
      have htitle := names_false "title" (by decide) (by decide) (by decide) hdescription
      have hprice := names_false "price" (by decide) (by decide) (by decide) hdescription
      have hkuaidifei :=
        names_false "kuaidifei" (by decide) (by decide) (by decide) hdescription
      simp [Item.description, lineOf, htitle, hprice, hkuaidifei, hdescription, Attr.values, hvalue]
    | picture => cases ha
    | keyword => cases ha
    | other key => cases ha
  · rw [if_neg hnamed]
    unfold Item.description lineOf
    cases a with
    | title => split_ifs <;> first | exact hnil | exact absurd ‹_› hnamed
    | price => split_ifs <;> first | exact hnil | exact absurd ‹_› hnamed
    | kuaidifei => split_ifs <;> first | exact hnil | exact absurd ‹_› hnamed
    | description => split_ifs <;> first | exact hnil | exact absurd ‹_› hnamed
    | picture => cases ha
    | keyword => cases ha
    | other key => cases ha

/-- What is read has a value for some attribute. -/
theorem Item.IsRead.exists_values {it : Item} (h : it.IsRead) :
    ∃ a : Attr, a.values it.description ≠ [] := by
  have hvalue : oneValue (String.ofList it.value) ≠ [] := by simp [oneValue_ofList it.value_ne]
  unfold Item.IsRead at h
  unfold Item.description
  unfold lineOf at h ⊢
  split_ifs at h ⊢
  · exact ⟨.title, hvalue⟩
  · exact ⟨.price, hvalue⟩
  · exact ⟨.kuaidifei, hvalue⟩
  · exact ⟨.description, hvalue⟩
  · exact ⟨.picture, by simp [Attr.values]⟩
  · exact ⟨.keyword, by simpa [Attr.values] using it.words_ne⟩
  · exact ⟨.other (String.ofList it.key), by simp [Attr.values]⟩
  · cases h

/-! ## Lines in front of others -/

/-- A line with a key and no value takes the next line for its value. -/
def takingItem {k w : List Char} (hk : IsOtherKey k) (hline : '\n' ∉ w)
    (hword : ∃ c ∈ w, isSpace c = false) : Item where
  key := k
  blanks := '\n' :: w.takeWhile isSpace
  value := w.dropWhile isSpace
  key_colon h := (hk.chars ':' h).1 rfl
  blanks_space c hc := by
    rcases List.mem_cons.mp hc with rfl | hc
    · decide
    · exact List.mem_takeWhile_imp hc
  value_ne h := by
    obtain ⟨c, hc, hspace⟩ := hword
    have := List.dropWhile_eq_nil_iff.mp h c hc
    rw [hspace] at this
    cases this
  value_line h := hline ((List.dropWhile_suffix _).subset h)
  value_start c hc := by
    have := List.head?_dropWhile_not isSpace w
    rw [Option.mem_def.mp hc] at this
    simpa using this

section Taking

variable {k w : List Char} (hk : IsOtherKey k) (hline : '\n' ∉ w)
  (hword : ∃ c ∈ w, isSpace c = false)

theorem takingItem_text : (takingItem hk hline hword).text = k ++ [':', '\n'] ++ (w ++ ['\n']) := by
  have hw : w.takeWhile isSpace ++ w.dropWhile isSpace = w := List.takeWhile_append_dropWhile
  have htext : (takingItem hk hline hword).text =
      k ++ ':' :: '\n' :: (w.takeWhile isSpace ++ (w.dropWhile isSpace ++ ['\n'])) := rfl
  rw [htext, ← List.append_assoc (w.takeWhile isSpace), hw]
  simp

include hk in
theorem lineOf_other (v : List Char) :
    lineOf k v = some { restMeta := [⟨String.ofList k, String.ofList v⟩] } := by
  have hnames : ∀ name : String, name.toList ∈ reservedKeys → Names name k = false := by
    intro name hname
    rw [← Bool.not_eq_true]
    intro h
    have hkey := (names_iff_eq fun c hc => (hk.chars c hc).2.2).mp h
    exact hk.other (hkey ▸ hname)
  have hpair : IsPairKey k := by
    refine ⟨hk.ne, fun c hc => ⟨(hk.chars c hc).2.1, fun h => ?_⟩⟩
    have := (hk.chars c hc).2.2
    rw [h] at this
    exact absurd this (by decide)
  simp [lineOf, hnames "title" (by decide), hnames "price" (by decide),
    hnames "kuaidifei" (by decide), hnames "description" (by decide),
    hnames "picture" (by decide), hnames "keyword" (by decide), hpair]

theorem takingItem_isRead : (takingItem hk hline hword).IsRead := by
  simp [Item.IsRead, takingItem, lineOf_other hk]

theorem takingItem_values {a : Attr} (ha : a ≠ .other (String.ofList k)) :
    a.values (takingItem hk hline hword).description = [] := by
  have hdesc : (takingItem hk hline hword).description =
      { restMeta := [⟨String.ofList k, String.ofList (w.dropWhile isSpace)⟩] } := by
    simp [Item.description, takingItem, lineOf_other hk]
  rw [hdesc]
  cases a with
  | title => rfl
  | price => rfl
  | kuaidifei => rfl
  | description => rfl
  | picture => rfl
  | keyword => rfl
  | other key =>
    have hne : ¬ String.ofList k = key := fun h => ha (by rw [h])
    simp [Attr.values, hne]

end Taking

/-- An item without its line end. -/
def Item.line (it : Item) : List Char := it.key ++ ':' :: (it.blanks ++ it.value)

theorem Item.text_eq (it : Item) : it.text = it.line ++ ['\n'] := by
  simp [Item.text, Item.line]

theorem Item.line_word (it : Item) : ∃ c ∈ it.line, isSpace c = false :=
  ⟨':', by simp [Item.line], by decide⟩

theorem Item.isLine_iff (it : Item) : IsLine it.text ↔ '\n' ∉ it.line := by
  rw [it.text_eq]
  constructor
  · rintro ⟨w, hw, hline⟩
    obtain ⟨rfl, -⟩ := List.append_inj' hw rfl
    exact hline
  · intro h
    exact ⟨it.line, rfl, h⟩

/-- A line with a key and no value before an item takes the item away. -/
theorem values_taken {sep sep' k : List Char} (tail : List Char) (hsep : IsSeparator sep)
    (hsep' : IsSeparator sep') {xs ys : List Item} {it : Item} (hxs : ∀ it ∈ xs, it.IsRead)
    (hys : ∀ it ∈ ys, it.IsRead) (hline : '\n' ∉ it.line) (hk : IsOtherKey k) {a : Attr}
    (ha : a ≠ .other (String.ofList k)) :
    ∃ d', parseGoodsMetadata ((sep ++ xs.flatMap Item.text) ++ (k ++ [':', '\n']) ++
        (it.text ++ (ys.flatMap Item.text ++ (sep' ++ tail)))) = some d' ∧
      a.values d' = a.keep (valuesIn a xs ++ valuesIn a ys) := by
  have htext : (sep ++ xs.flatMap Item.text) ++ (k ++ [':', '\n']) ++
      (it.text ++ (ys.flatMap Item.text ++ (sep' ++ tail))) =
      sep ++ ((xs ++ takingItem hk hline it.line_word :: ys).flatMap Item.text ++
        (sep' ++ tail)) := by
    simp [takingItem_text, it.text_eq]
  have hread : ∀ x ∈ xs ++ takingItem hk hline it.line_word :: ys, x.IsRead := by
    intro x hx
    rcases List.mem_append.mp hx with hx | hx
    · exact hxs x hx
    · rcases List.mem_cons.mp hx with rfl | hx
      · exact takingItem_isRead ..
      · exact hys x hx
  have hstop := kleene_none (line_separator hsep' tail)
  have hparse : (parseGoodsMetadata (sep ++ ((xs ++ takingItem hk hline it.line_word ::
      ys).flatMap Item.text ++ (sep' ++ tail)))).isSome = true := by
    rw [parseGoodsMetadata, document_items hsep (by simp) hread, hstop]
    simp [documentSperator_append hsep']
  obtain ⟨d', hd'⟩ := Option.isSome_iff_exists.mp hparse
  refine ⟨d', htext ▸ hd', ?_⟩
  rw [values_of_parse hsep (by simp) hread hd', hstop, valuesIn_append, valuesIn_cons,
    takingItem_values hk hline it.line_word ha]
  simp

/-! ## Independent lines repeat -/

theorem lineTexts_items {sep sep' tail : List Char} (hsep : IsSeparator sep)
    (hsep' : IsSeparator sep') {items : List Item} (hread : ∀ it ∈ items, it.IsRead) :
    lineTexts (sep ++ (items.flatMap Item.text ++ (sep' ++ tail))) = items.map Item.text := by
  have hraw : kleene (raw line) (items.flatMap Item.text ++ (sep' ++ tail)) =
      (items.map Item.text, sep' ++ tail) := by
    refine kleene_map_append (fun _ => True) (fun it _ => by simp [Item.text])
      (fun it hit rest _ => raw_append ((hread it hit).line rest)) (fun _ _ _ => trivial) trivial ?_
    simp [raw, line_separator hsep']
  simp [lineTexts, documentSperator_append hsep, hraw]

theorem valuesIn_eq {a : Attr} (ha : a.isSingle = true) (items : List Item) :
    valuesIn a items = (valuesNamed a.name items).map String.ofList := by
  induction items with
  | nil => rfl
  | cons it items ih =>
    rw [valuesIn_cons, ih, a.values_description ha, valuesNamed, valuesNamed]
    by_cases h : Names a.name it.key = true
    · simp [h]
    · simp [h]

theorem Attr.keep_ne_nil {a : Attr} {vs : List String} : a.keep vs ≠ [] ↔ vs ≠ [] := by
  unfold Attr.keep
  split <;> simp

/-- The first item that has values for an attribute. -/
theorem exists_first (a : Attr) (items : List Item) (h : valuesIn a items ≠ []) :
    ∃ xs it ys, items = xs ++ it :: ys ∧ valuesIn a xs = [] ∧ a.values it.description ≠ [] := by
  induction items with
  | nil => exact absurd rfl h
  | cons it items ih =>
    by_cases hit : a.values it.description = []
    · rw [valuesIn_cons, hit, List.nil_append] at h
      obtain ⟨xs, it', ys, rfl, hxs, hne⟩ := ih h
      exact ⟨it :: xs, it', ys, rfl, by rw [valuesIn_cons, hit, hxs]; rfl, hne⟩
    · exact ⟨[], it, items, rfl, rfl, hit⟩

theorem Attr.exists_otherKey (a : Attr) :
    ∃ k, IsOtherKey k ∧ a ≠ .other (String.ofList k) := by
  by_cases h : a = .other "other"
  · refine ⟨"others".toList, ⟨by decide, by simp [isSpace], by decide⟩, ?_⟩
    rw [h]
    decide
  · exact ⟨"other".toList, ⟨by decide, by simp [isSpace], by decide⟩, h⟩

theorem IsSeparator.getLast {sep : List Char} (h : IsSeparator sep) :
    sep.getLast? = some '\n' := by
  rcases h with rfl | rfl <;> decide

/-- Behind a separator and items a line begins. -/
theorem getLast_items {sep : List Char} (hsep : IsSeparator sep) (items : List Item) :
    (sep ++ items.flatMap Item.text).getLast? = some '\n' := by
  rcases List.eq_nil_or_concat items with rfl | ⟨items, it, rfl⟩
  · rw [List.flatMap_nil, List.append_nil]
    exact hsep.getLast
  · simp [it.text_eq]

section Independent

variable {text sep sep' tail : List Char} {items : List Item} {d : GoodsDescription}

/-- Where no line matters to another, the first value of an attribute can be taken away. -/
theorem LinesIndependent.keep_tail (hind : LinesIndependent text d)
    (hparse : parseGoodsMetadata text = some d)
    (htext : text = sep ++ (items.flatMap Item.text ++ (sep' ++ tail))) (hsep : IsSeparator sep)
    (hsep' : IsSeparator sep') (hne : items ≠ []) (hread : ∀ it ∈ items, it.IsRead)
    {a : Attr} {xs ys : List Item} {it : Item} (hitems : items = xs ++ it :: ys)
    (hxs : valuesIn a xs = []) (hit : a.values it.description ≠ []) :
    a.keep (valuesIn a ys) = a.keep (a.values it.description ++ valuesIn a ys) := by
  obtain ⟨k, hk, ha⟩ := a.exists_otherKey
  have hline : '\n' ∉ it.line := by
    refine it.isLine_iff.mp (hind.single _ ?_)
    rw [htext, lineTexts_items hsep hsep' hread, hitems]
    simp
  have hvalues : a.values d = a.keep (a.values it.description ++ valuesIn a ys) := by
    rw [htext] at hparse
    rw [values_of_parse hsep hne hread hparse, kleene_none (line_separator hsep' tail), hitems,
      valuesIn_append, valuesIn_cons, hxs]
    simp
  have hxsread : ∀ x ∈ xs, x.IsRead := fun x hx => hread x (by simp [hitems, hx])
  have hysread : ∀ y ∈ ys, y.IsRead := fun y hy => hread y (by simp [hitems, hy])
  obtain ⟨d', hd', htaken⟩ :=
    values_taken tail hsep hsep' hxsread hysread hline hk ha
  have hsame := hind.stay (sep ++ xs.flatMap Item.text)
    (it.text ++ (ys.flatMap Item.text ++ (sep' ++ tail))) (by simp [htext, hitems])
    (.inr (getLast_items hsep xs)) a
    (by rw [hvalues, Attr.keep_ne_nil]; exact List.append_ne_nil_of_left_ne_nil hit _)
    _ (.inr ⟨k, hk, ha, rfl⟩) d' hd'
  rw [htaken, hvalues, hxs, List.nil_append] at hsame
  exact hsame

theorem Attr.name_mem {a : Attr} (ha : a.isSingle = true) : a.name ∈ singleNames := by
  cases a with
  | title => simp [Attr.name, singleNames]
  | price => simp [Attr.name, singleNames]
  | kuaidifei => simp [Attr.name, singleNames]
  | description => simp [Attr.name, singleNames]
  | picture => cases ha
  | keyword => cases ha
  | other key => cases ha

theorem exists_attr_of_mem {name : String} (h : name ∈ singleNames) :
    ∃ a : Attr, a.isSingle = true ∧ a.name = name := by
  simp only [singleNames, List.mem_cons, List.not_mem_nil, or_false] at h
  rcases h with rfl | rfl | rfl | rfl
  · exact ⟨.title, rfl, rfl⟩
  · exact ⟨.price, rfl, rfl⟩
  · exact ⟨.kuaidifei, rfl, rfl⟩
  · exact ⟨.description, rfl, rfl⟩

theorem repeats_of_linesIndependent (hind : LinesIndependent text d)
    (hparse : parseGoodsMetadata text = some d) : Repeats text := by
  obtain ⟨sep, items, sep', tail, htext, hsep, hsep', hne, hread⟩ := exists_items_of_parse hparse
  -- the first value of an attribute can only be taken away when it is kept alone and repeated
  have hkeep : ∀ a : Attr, ∀ xs it ys, items = xs ++ it :: ys → valuesIn a xs = [] →
      a.values it.description ≠ [] →
        a.keep (valuesIn a ys) = a.keep (a.values it.description ++ valuesIn a ys) :=
    fun a xs it ys hitems hxs hit =>
      hind.keep_tail hparse htext hsep hsep' hne hread hitems hxs hit
  have hsingle : ∀ a : Attr, valuesIn a items ≠ [] → a.isSingle = true := by
    intro a hvalues
    obtain ⟨xs, it, ys, hitems, hxs, hit⟩ := exists_first a items hvalues
    have hsame := hkeep a xs it ys hitems hxs hit
    by_contra hmany
    rw [Attr.keep, Attr.keep, if_neg hmany, if_neg hmany] at hsame
    have hlen := congrArg List.length hsame
    rw [List.length_append] at hlen
    exact hit (List.length_eq_zero_iff.mp (by omega))
  refine ⟨sep, items, sep', tail, htext, hsep, hsep', hne, fun it hit => ?_, ?_⟩
  · have hline : '\n' ∉ it.line := by
      refine it.isLine_iff.mp (hind.single _ ?_)
      rw [htext, lineTexts_items hsep hsep' hread]
      exact List.mem_map_of_mem hit
    obtain ⟨a, ha⟩ := (hread it hit).exists_values
    have hvalues : valuesIn a items ≠ [] := fun h =>
      ha (List.flatMap_eq_nil_iff.mp h it hit)
    have hone := hsingle a hvalues
    rw [a.values_description hone] at ha
    refine ⟨fun h => hline ?_, fun h => hline ?_, a.name, a.name_mem hone, ?_⟩
    · exact List.mem_append_left _ h
    · exact List.mem_append_right _ (List.mem_cons_of_mem _ (List.mem_append_left _ h))
    · by_contra hno
      exact ha (if_neg hno)
  · intro name hname v rest hvalues
    obtain ⟨a, hone, rfl⟩ := exists_attr_of_mem hname
    have hall : valuesIn a items = String.ofList v :: rest.map String.ofList := by
      rw [valuesIn_eq hone, hvalues, List.map_cons]
    obtain ⟨xs, it, ys, hitems, hxs, hit⟩ := exists_first a items (by simp [hall])
    have hsame := hkeep a xs it ys hitems hxs hit
    rw [hitems, valuesIn_append, valuesIn_cons, hxs, List.nil_append] at hall
    have hvalue : a.values it.description = [String.ofList it.value] := by
      rw [a.values_description hone] at hit ⊢
      by_contra hno
      exact hit (if_neg fun h => hno (if_pos h))
    rw [hvalue, List.singleton_append, List.cons.injEq] at hall
    rw [hvalue, hall.1, hall.2, Attr.keep, Attr.keep, if_pos hone, if_pos hone] at hsame
    cases rest with
    | nil => cases hsame
    | cons v' rest =>
      have htext : String.ofList v' = String.ofList v := by simpa using hsame
      simpa using congrArg String.toList htext

end Independent

/-! ## Repeated lines are independent -/

/-- A place where a line begins is between two of the lines, or behind all of them. -/
theorem exists_boundary {L : List (List Char)} (hL : ∀ l ∈ L, IsLine l)
    {tail pre post : List Char} (h : L.flatten ++ tail = pre ++ post)
    (hpre : pre = [] ∨ pre.getLast? = some '\n') :
    (∃ L₁ L₂, L = L₁ ++ L₂ ∧ pre = L₁.flatten ∧ post = L₂.flatten ++ tail) ∨
      ∃ t, pre = L.flatten ++ t ∧ tail = t ++ post := by
  induction L generalizing pre with
  | nil => exact .inr ⟨pre, rfl, h⟩
  | cons l L ih =>
    by_cases hnil : pre = []
    · subst hnil
      exact .inl ⟨[], l :: L, rfl, rfl, h.symm⟩
    have hlast := hpre.resolve_left hnil
    have hl := hL l (List.mem_cons_self ..)
    -- the text before the place has the first line at its start
    have hfirst : ∃ pre', pre = l ++ pre' := by
      rw [List.flatten_cons, List.append_assoc] at h
      rcases List.append_eq_append_iff.mp h with ⟨c, hc, -⟩ | ⟨c, hc, -⟩
      · exact ⟨c, hc⟩
      · obtain ⟨w, rfl, hw⟩ := hl
        obtain ⟨p, rfl⟩ : ∃ p, pre = p ++ ['\n'] := by
          rw [List.getLast?_eq_some_iff] at hlast
          exact hlast
        cases List.eq_nil_or_concat c with
        | inl hnil => exact ⟨[], by simpa [hnil] using hc.symm⟩
        | inr hconcat =>
          obtain ⟨c', x, rfl⟩ := hconcat
          rw [List.concat_eq_append, ← List.append_assoc] at hc
          obtain ⟨hw', -⟩ := List.append_inj' hc rfl
          exact absurd (by rw [hw']; simp) hw
    obtain ⟨pre', rfl⟩ := hfirst
    have hrest : L.flatten ++ tail = pre' ++ post := by
      simpa using h
    have hpre' : pre' = [] ∨ pre'.getLast? = some '\n' := by
      by_cases hnil' : pre' = []
      · exact .inl hnil'
      · rw [List.getLast?_append_of_ne_nil _ hnil'] at hlast
        exact .inr hlast
    rcases ih (fun l hl => hL l (List.mem_cons_of_mem _ hl)) hrest hpre' with
      ⟨L₁, L₂, rfl, rfl, rfl⟩ | ⟨t, rfl, rfl⟩
    · exact .inl ⟨l :: L₁, L₂, rfl, rfl, rfl⟩
    · exact .inr ⟨t, by simp, rfl⟩

theorem IsSeparator.isLine {sep : List Char} (h : IsSeparator sep) : IsLine sep := by
  rcases h with rfl | rfl
  · exact ⟨"---".toList, rfl, by decide⟩
  · exact ⟨"---\r".toList, rfl, by decide⟩

theorem IsSeparator.eq_dash {sep : List Char} (h : IsSeparator sep) : ∃ t, sep = '-' :: t := by
  rcases h with rfl | rfl
  · exact ⟨"--\n".toList, rfl⟩
  · exact ⟨"--\r\n".toList, rfl⟩

/-- No unrelated line is a separator. -/
theorem documentSperator_unrelated {a : Attr} {inserted : List Char} (h : Unrelated a inserted)
    (rest : List Char) : documentSperator (inserted ++ rest) = none := by
  rcases h with rfl | ⟨k, hk, -, rfl⟩
  · simp [documentSperator, lits]
  · cases hkey : k with
    | nil => exact absurd hkey hk.ne
    | cons c k =>
      have hc := (hk.chars c (by simp [hkey])).2.1
      simp [documentSperator, lits, hc]

theorem Item.IsPlain.line {it : Item} (h : it.IsPlain) : '\n' ∉ it.line := by
  simp only [Item.line, List.mem_append, List.mem_cons, not_or]
  exact ⟨h.key_line, by decide, h.blanks_line, it.value_line⟩

theorem Item.IsPlain.exists_attr {it : Item} (h : it.IsPlain) :
    ∃ a : Attr, a.isSingle = true ∧ a.values it.description = [String.ofList it.value] := by
  obtain ⟨name, hname, hnamed⟩ := h.named
  obtain ⟨a, ha, rfl⟩ := exists_attr_of_mem hname
  exact ⟨a, ha, by rw [a.values_description ha, if_pos hnamed]⟩

theorem Item.IsPlain.isRead {it : Item} (h : it.IsPlain) : it.IsRead := by
  obtain ⟨a, -, hvalues⟩ := h.exists_attr
  by_contra hno
  have hdesc : it.description = {} := by
    rw [Item.description, Option.not_isSome_iff_eq_none.mp hno]
    rfl
  rw [hdesc] at hvalues
  cases a <;> cases hvalues

/-- A plain item has no pictures, no key words and no pairs. -/
theorem Item.IsPlain.values_many {it : Item} (h : it.IsPlain) {a : Attr}
    (ha : a.isSingle = false) : a.values it.description = [] := by
  obtain ⟨name, hname, hnamed⟩ := h.named
  have hdesc : it.description.picture = [] ∧ it.description.keywords = [] ∧
      it.description.restMeta = [] := by
    unfold Item.description lineOf
    by_cases htitle : Names "title" it.key = true
    · simp [htitle]
    by_cases hprice : Names "price" it.key = true
    · simp [htitle, hprice]
    by_cases hkuaidifei : Names "kuaidifei" it.key = true
    · simp [htitle, hprice, hkuaidifei]
    by_cases hdescription : Names "description" it.key = true
    · simp [htitle, hprice, hkuaidifei, hdescription]
    simp only [singleNames, List.mem_cons, List.not_mem_nil, or_false] at hname
    rcases hname with rfl | rfl | rfl | rfl
    · exact absurd hnamed htitle
    · exact absurd hnamed hprice
    · exact absurd hnamed hkuaidifei
    · exact absurd hnamed hdescription
  cases a with
  | title => cases ha
  | price => cases ha
  | kuaidifei => cases ha
  | description => cases ha
  | picture => exact hdesc.1
  | keyword => exact hdesc.2.1
  | other key => simp [Attr.values, hdesc.2.2]

/-- An item behind a blank line: the line end becomes part of its key. -/
def blankItem (it : Item) : Item :=
  { it with
    key := '\n' :: it.key
    key_colon := by simpa using it.key_colon }

theorem blankItem_text (it : Item) : (blankItem it).text = '\n' :: it.text := rfl

theorem blankItem_values {a : Attr} (ha : a.isSingle = true) (it : Item) :
    a.values (blankItem it).description = [] := by
  rw [a.values_description ha, if_neg]
  intro h
  cases a with
  | title => simp [blankItem, Attr.name, Names, lits] at h
  | price => simp [blankItem, Attr.name, Names, lits] at h
  | kuaidifei => simp [blankItem, Attr.name, Names, lits] at h
  | description => simp [blankItem, Attr.name, Names, lits] at h
  | picture => cases ha
  | keyword => cases ha
  | other key => cases ha

theorem line_blank_dash (rest : List Char) : line ('\n' :: '-' :: rest) = none := by
  simp [line, choice, action, titleLine, priceLine, kuaidifeLine, descriptionLine, pictureLine,
    valueLine, keywordLine, pairLine, key, plus, lits, lit]

/-- Without one item the same value is kept. -/
theorem RepeatsIn.keep {a : Attr} {xs ys : List Item} {it : Item}
    (h : RepeatsIn (xs ++ it :: ys)) (ha : a.isSingle = true) :
    a.keep (valuesIn a xs ++ valuesIn a ys) = a.keep (valuesIn a (xs ++ it :: ys)) := by
  rw [valuesIn_append, valuesIn_cons, Attr.keep, Attr.keep, if_pos ha, if_pos ha]
  cases hxs : valuesIn a xs with
  | cons v vs => rfl
  | nil =>
    rw [List.nil_append, List.nil_append, a.values_description ha]
    by_cases hnamed : Names a.name it.key = true
    · have hall : valuesIn a (xs ++ it :: ys) = String.ofList it.value :: valuesIn a ys := by
        rw [valuesIn_append, valuesIn_cons, hxs, a.values_description ha, if_pos hnamed]
        rfl
      rw [valuesIn_eq ha, List.map_eq_cons_iff] at hall
      obtain ⟨v, rest, hnamed', hv, hrest⟩ := hall
      have hhead := h a.name (a.name_mem ha) v rest hnamed'
      rw [if_pos hnamed, ← hrest, ← hv]
      cases rest with
      | nil => cases hhead
      | cons v' rest =>
        cases hhead
        rfl
    · rw [if_neg hnamed, List.nil_append]

section Repeating

variable {text sep sep' tail : List Char} {items : List Item} {d d' : GoodsDescription} {a : Attr}

/-- A blank line before an item makes the item another attribute, or the text unacceptable. -/
theorem values_blank (tail : List Char) (hsep : IsSeparator sep) (hsep' : IsSeparator sep')
    (hread : ∀ it ∈ items, it.IsRead) (hrep : RepeatsIn items) (ha : a.isSingle = true)
    {xs ys : List Item} (hitems : items = xs ++ ys)
    (hparse : parseGoodsMetadata (sep ++ (xs.flatMap Item.text ++
      ('\n' :: (ys.flatMap Item.text ++ (sep' ++ tail))))) = some d') :
    a.values d' = a.keep (valuesIn a items) := by
  have hxs : ∀ x ∈ xs, x.IsRead := fun x hx => hread x (by simp [hitems, hx])
  have hstop : ∀ input, line ('\n' :: input) = none →
      parseGoodsMetadata (sep ++ (xs.flatMap Item.text ++ '\n' :: input)) = none := by
    intro input hline
    rw [parseGoodsMetadata, document_stop hsep hxs hline (by simp [documentSperator, lits])]
    rfl
  cases ys with
  | nil =>
    obtain ⟨t, rfl⟩ := hsep'.eq_dash
    rw [List.flatMap_nil, List.nil_append, List.cons_append, hstop _ (line_blank_dash _)] at hparse
    cases hparse
  | cons it ys =>
    have htext : '\n' :: ((it :: ys).flatMap Item.text ++ (sep' ++ tail)) =
        (blankItem it).text ++ (ys.flatMap Item.text ++ (sep' ++ tail)) := by
      simp [blankItem_text]
    by_cases hblank : (blankItem it).IsRead
    · have hall : ∀ x ∈ xs ++ blankItem it :: ys, x.IsRead := by
        intro x hx
        rcases List.mem_append.mp hx with hx | hx
        · exact hxs x hx
        · rcases List.mem_cons.mp hx with rfl | hx
          · exact hblank
          · exact hread x (by simp [hitems, hx])
      have htext' : sep ++ (xs.flatMap Item.text ++
          ('\n' :: ((it :: ys).flatMap Item.text ++ (sep' ++ tail)))) =
          sep ++ ((xs ++ blankItem it :: ys).flatMap Item.text ++ (sep' ++ tail)) := by
        rw [htext]
        simp
      rw [htext'] at hparse
      rw [values_of_parse hsep (by simp) hall hparse, kleene_none (line_separator hsep' tail),
        valuesIn_append, valuesIn_cons, blankItem_values ha, hitems]
      rw [hitems] at hrep
      simpa using hrep.keep ha
    · have hline : line ('\n' :: ((it :: ys).flatMap Item.text ++ (sep' ++ tail))) = none := by
        rw [htext, line_item, Option.not_isSome_iff_eq_none.mp hblank]
        rfl
      rw [hstop _ hline] at hparse
      cases hparse

/-- A line with a key and no value takes an item away, or the separator. -/
theorem values_other (tail : List Char) (hsep : IsSeparator sep) (hsep' : IsSeparator sep')
    (hread : ∀ it ∈ items, it.IsRead) (hline : ∀ it ∈ items, '\n' ∉ it.line)
    (hrep : RepeatsIn items) (ha : a.isSingle = true) (hvalues : valuesIn a items ≠ [])
    {k : List Char} (hk : IsOtherKey k) (hne : a ≠ .other (String.ofList k))
    {xs ys : List Item} (hitems : items = xs ++ ys)
    (hparse : parseGoodsMetadata (sep ++ (xs.flatMap Item.text ++
      (k ++ [':', '\n'] ++ (ys.flatMap Item.text ++ (sep' ++ tail))))) = some d') :
    a.values d' = a.keep (valuesIn a items) := by
  have hxs : ∀ x ∈ xs, x.IsRead := fun x hx => hread x (by simp [hitems, hx])
  cases ys with
  | nil =>
    rw [List.append_nil] at hitems
    subst hitems
    obtain ⟨w, rfl, hw⟩ := hsep'.isLine
    have hword : ∃ c ∈ w, isSpace c = false := by
      obtain ⟨t, ht⟩ := hsep'.eq_dash
      cases w with
      | nil => cases ht
      | cons c w =>
        cases ht
        exact ⟨'-', by simp, by decide⟩
    have htext : sep ++ (items.flatMap Item.text ++ (k ++ [':', '\n'] ++
        ((([] : List Item)).flatMap Item.text ++ (w ++ ['\n'] ++ tail)))) =
        sep ++ ((items ++ [takingItem hk hw hword]).flatMap Item.text ++ tail) := by
      simp [takingItem_text]
    have hall : ∀ x ∈ items ++ [takingItem hk hw hword], x.IsRead := by
      intro x hx
      rcases List.mem_append.mp hx with hx | hx
      · exact hxs x hx
      · rw [List.mem_singleton.mp hx]
        exact takingItem_isRead ..
    rw [htext] at hparse
    rw [values_of_parse hsep (by simp) hall hparse, valuesIn_append, valuesIn_cons,
      takingItem_values hk hw hword hne, Attr.keep, Attr.keep, if_pos ha, if_pos ha]
    cases hfirst : valuesIn a items with
    | nil => exact absurd hfirst hvalues
    | cons v vs => rfl
  | cons it ys =>
    subst hitems
    have hys : ∀ y ∈ ys, y.IsRead := fun y hy => hread y (by simp [hy])
    obtain ⟨d'', hd'', htaken⟩ := values_taken tail hsep hsep' hxs hys
      (hline it (by simp)) hk hne
    have htext : sep ++ (xs.flatMap Item.text ++ (k ++ [':', '\n'] ++
        ((it :: ys).flatMap Item.text ++ (sep' ++ tail)))) =
        (sep ++ xs.flatMap Item.text) ++ (k ++ [':', '\n']) ++
          (it.text ++ (ys.flatMap Item.text ++ (sep' ++ tail))) := by
      simp
    rw [htext, hd''] at hparse
    cases hparse
    rw [htaken]
    exact hrep.keep ha

/-- What an accepted text says are the values of its items. -/
theorem exists_item_of_value (hsep : IsSeparator sep) (hsep' : IsSeparator sep') (hne : items ≠ [])
    (hread : ∀ it ∈ items, it.IsRead)
    (hparse : parseGoodsMetadata (sep ++ (items.flatMap Item.text ++ (sep' ++ tail))) = some d)
    {s : String} (hs : s ∈ a.values d) : ∃ it ∈ items, s ∈ a.values it.description := by
  rw [values_of_parse hsep hne hread hparse, kleene_none (line_separator hsep' tail),
    List.flatMap_nil, List.append_nil, Attr.keep] at hs
  refine List.mem_flatMap.mp ?_
  split at hs
  · exact List.mem_of_mem_take hs
  · exact hs

/-- The value of an item that is one line stands in that line of the text. -/
theorem value_in_line (hsep : IsSeparator sep) {it : Item} (hit : it ∈ items)
    (hline : '\n' ∉ it.line) :
    ∃ l ∈ (sep ++ (items.flatMap Item.text ++ (sep' ++ tail))).splitOn '\n', it.value <:+: l := by
  obtain ⟨xs, ys, rfl⟩ := List.append_of_mem hit
  obtain ⟨p, hp⟩ := List.getLast?_eq_some_iff.mp (getLast_items hsep xs)
  have htext : sep ++ ((xs ++ it :: ys).flatMap Item.text ++ (sep' ++ tail)) =
      p ++ '\n' :: (it.line ++ '\n' :: (ys.flatMap Item.text ++ (sep' ++ tail))) := by
    calc sep ++ ((xs ++ it :: ys).flatMap Item.text ++ (sep' ++ tail))
        = (sep ++ xs.flatMap Item.text) ++ (it.text ++ (ys.flatMap Item.text ++ (sep' ++ tail))) := by
          simp
      _ = _ := by
          rw [hp, it.text_eq]
          simp
  refine ⟨it.line, ?_, it.key ++ ':' :: it.blanks, [], by simp [Item.line]⟩
  rw [htext, List.splitOn_append_cons_self, List.splitOn_append_cons_self_of_not_mem hline]
  simp

theorem linesIndependent_of_repeats (hparse : parseGoodsMetadata text = some d)
    (h : Repeats text) : LinesIndependent text d := by
  obtain ⟨sep, items, sep', tail, rfl, hsep, hsep', hne, hplain, hrep⟩ := h
  have hread : ∀ it ∈ items, it.IsRead := fun it hit => (hplain it hit).isRead
  have hvalue : ∀ (a : Attr), ∀ s ∈ a.values d,
      a.isSingle = true ∧ ∃ it ∈ items, s = String.ofList it.value := by
    intro a s hs
    obtain ⟨it, hit, hs⟩ := exists_item_of_value hsep hsep' hne hread hparse hs
    cases ha : a.isSingle with
    | false =>
      rw [(hplain it hit).values_many ha] at hs
      cases hs
    | true =>
      rw [a.values_description ha] at hs
      split at hs
      · exact ⟨rfl, it, hit, List.mem_singleton.mp hs⟩
      · cases hs
  refine ⟨?_, ?_, ?_⟩
  · -- pictures, key words and pairs there are none, and an empty text is part of any line
    have hline : ∀ a : Attr, ∀ s ∈ a.values d,
        ∃ l ∈ (sep ++ (items.flatMap Item.text ++ (sep' ++ tail))).splitOn '\n',
          s.toList <:+: l := by
      intro a s hs
      obtain ⟨-, it, hit, rfl⟩ := hvalue a s hs
      rw [String.toList_ofList]
      exact value_in_line hsep hit (hplain it hit).line
    have hone : ∀ a : Attr, ∀ s, a.values d = oneValue s →
        ∃ l ∈ (sep ++ (items.flatMap Item.text ++ (sep' ++ tail))).splitOn '\n',
          s.toList <:+: l := by
      intro a s ha
      by_cases hs : s = ""
      · obtain ⟨l, hl⟩ := List.exists_mem_of_ne_nil _ (List.splitOn_ne_nil '\n'
          (sep ++ (items.flatMap Item.text ++ (sep' ++ tail))))
        exact ⟨l, hl, by simp [hs]⟩
      · exact hline a s (by simp [ha, oneValue, hs])
    intro s hs
    simp only [GoodsDescription.texts, List.mem_append, List.mem_cons, List.not_mem_nil, or_false,
      List.mem_flatMap] at hs
    rcases hs with (((rfl | rfl | rfl | rfl) | hs) | hs) | ⟨kv, hkv, -⟩
    · exact hone .title _ rfl
    · exact hone .price _ rfl
    · exact hone .kuaidifei _ rfl
    · exact hone .description _ rfl
    · exact hline .picture s hs
    · exact hline .keyword s hs
    · have hmem : kv.v ∈ (Attr.other kv.k).values d := by
        simp only [Attr.values, List.mem_map, List.mem_filter, decide_eq_true_eq]
        exact ⟨kv, ⟨hkv, rfl⟩, rfl⟩
      cases (hvalue _ _ hmem).1
  · intro t ht
    rw [lineTexts_items hsep hsep' hread] at ht
    obtain ⟨it, hit, rfl⟩ := List.mem_map.mp ht
    exact it.isLine_iff.mpr (hplain it hit).line
  · intro pre post htext hpre a ha inserted hinserted d' hparse'
    obtain ⟨hsingle, -⟩ := hvalue a _ (List.getLast_mem ha)
    have hvalues : a.values d = a.keep (valuesIn a items) := by
      rw [values_of_parse hsep hne hread hparse, kleene_none (line_separator hsep' tail)]
      simp
    -- behind the second separator nothing is read
    have hbehind : ∀ rest, parseGoodsMetadata
        (sep ++ (items.flatMap Item.text ++ (sep' ++ rest))) = some d' →
          a.values d' = a.values d := by
      intro rest h
      rw [values_of_parse hsep hne hread h, kleene_none (line_separator hsep' rest), hvalues]
      simp
    have hlines : ∀ l ∈ sep :: (items.map Item.text ++ [sep']), IsLine l := by
      intro l hl
      simp only [List.mem_cons, List.mem_append, List.mem_map, List.not_mem_nil, or_false] at hl
      rcases hl with rfl | ⟨it, hit, rfl⟩ | rfl
      · exact hsep.isLine
      · exact it.isLine_iff.mpr (hplain it hit).line
      · exact hsep'.isLine
    have hflat : (sep :: (items.map Item.text ++ [sep'])).flatten ++ tail = pre ++ post := by
      rw [← htext]
      simp [List.flatMap_def]
    rcases exists_boundary hlines hflat hpre with ⟨L₁, L₂, hL, rfl, rfl⟩ | ⟨t, rfl, rfl⟩
    · cases L₁ with
      | nil =>
        rw [List.flatten_nil, List.nil_append, parseGoodsMetadata, document,
          documentSperator_unrelated hinserted] at hparse'
        cases hparse'
      | cons l M =>
        rw [List.cons_append, List.cons.injEq] at hL
        obtain ⟨rfl, hM⟩ := hL
        rcases List.eq_nil_or_concat L₂ with rfl | ⟨L₂, x, rfl⟩
        · refine hbehind (inserted ++ tail) ?_
          rw [List.append_nil] at hM
          rw [← hparse', ← hM]
          simp [List.flatMap_def]
        · rw [List.concat_eq_append, ← List.append_assoc] at hM
          obtain ⟨hmap, hx⟩ := List.append_inj' hM rfl
          obtain rfl : sep' = x := by simpa using hx
          obtain ⟨xs, ys, hitems, rfl, rfl⟩ := List.map_eq_append_iff.mp hmap
          rw [hvalues]
          rcases hinserted with rfl | ⟨k, hk, hne', rfl⟩
          · refine values_blank tail hsep hsep' hread hrep hsingle hitems ?_
            rw [← hparse']
            simp [List.flatMap_def]
          · refine values_other tail hsep hsep' hread (fun it hit => (hplain it hit).line)
              hrep hsingle (fun h => ha ?_) hk hne' hitems ?_
            · rw [hvalues, h]
              simp [Attr.keep]
            · rw [← hparse']
              simp [List.flatMap_def]
    · refine hbehind (t ++ inserted ++ post) ?_
      rw [← hparse']
      simp [List.flatMap_def]

/-- The lines of an accepted block are independent exactly when they are lines of attributes
that keep one value, and repeat it. -/
theorem metadata_lines_independent_iff (h : parseGoodsMetadata text = some d) :
    LinesIndependent text d ↔ Repeats text :=
  ⟨fun hind => repeats_of_linesIndependent hind h, linesIndependent_of_repeats h⟩

end Repeating

/-! ## Blocks of tea -/

theorem tea_key_colon : ':' ∉ "title".toList := by decide

theorem tea_blanks_space : ∀ c ∈ [' '], isSpace c = true := by simp [isSpace]

theorem tea_value_ne : "tea".toList ≠ [] := by decide

theorem tea_value_line : '\n' ∉ "tea".toList := by decide

theorem tea_value_start : ∀ c ∈ "tea".toList.head?, isSpace c = false := by simp [isSpace]

def teaLine : Item where
  key := "title".toList
  blanks := [' ']
  value := "tea".toList
  key_colon := tea_key_colon
  blanks_space := tea_blanks_space
  value_ne := tea_value_ne
  value_line := tea_value_line
  value_start := tea_value_start

theorem repeats_tea : Repeats "---\ntitle: tea\ntitle: tea\n---\n".toList := by
  refine ⟨"---\n".toList, [teaLine, teaLine], "---\n".toList, [], by decide, .inl rfl, .inl rfl,
    by simp, fun it hit => ?_, fun name hname v rest hvalues => ?_⟩
  · have hplain : teaLine.IsPlain := ⟨by decide, by decide, "title", by decide, by decide⟩
    simp only [List.mem_cons, List.not_mem_nil, or_false, or_self] at hit
    rw [hit]
    exact hplain
  · have hrepeats : ∀ name ∈ singleNames, valuesNamed name [teaLine, teaLine] = [] ∨
        valuesNamed name [teaLine, teaLine] = ["tea".toList, "tea".toList] := by decide
    rcases hrepeats name hname with h | h
    · rw [h] at hvalues
      cases hvalues
    · rw [h] at hvalues
      cases hvalues
      rfl

/-- The title stands twice, so an empty line takes away nothing. -/
theorem metadata_lines_independent_of_tea :
    LinesIndependent "---\ntitle: tea\ntitle: tea\n---\n".toList { title := "tea" } :=
  (metadata_lines_independent_iff (by decide)).mpr repeats_tea

/-- An empty title takes the price. -/
theorem empty_title_takes_price :
    parseGoodsMetadata "---\ntitle:\nprice: 10\n---\n".toList = some { title := "price: 10" } ∧
      ¬ LinesIndependent "---\ntitle:\nprice: 10\n---\n".toList { title := "price: 10" } := by
  refine ⟨by decide, fun h => ?_⟩
  have htexts : lineTexts "---\ntitle:\nprice: 10\n---\n".toList =
      ["title:\nprice: 10\n".toList] := by decide
  obtain ⟨w, hw, hline⟩ := h.single "title:\nprice: 10\n".toList (by rw [htexts]; simp)
  have hlast : w = "title:\nprice: 10".toList :=
    (List.append_inj' (hw.symm.trans (by decide :
      "title:\nprice: 10\n".toList = "title:\nprice: 10".toList ++ ['\n'])) rfl).1
  exact hline (by rw [hlast]; decide)

end Cmall.GoodsFile
