import Cmall.Selection
import Mathlib.Data.List.Forall2

/-!
Selections survive storage.

`cart_add` and `order_create` write `title:name;` for every selection, without quoting;
the grammar reads a title up to `:` and a name up to `;`. What is read back is what was
written exactly when titles and names are free of the characters the grammar stops at.
-/

namespace Cmall
open Spirit SelectionGrammar

/-! ## The text -/

/-- `fmt::format("{}:{};", …)` for every item. -/
def selectionText : List SelectionItem → String
  | [] => ""
  | x :: rest => x.option ++ ":" ++ x.select ++ ";" ++ selectionText rest

/-- An item that the grammar can give. -/
structure SelectionItem.Readable (x : SelectionItem) : Prop where
  option_ne : x.option ≠ ""
  option_chars : ∀ c ∈ x.option.toList, c ≠ '\n' ∧ c ≠ '\r' ∧ c ≠ ':' ∧ c ≠ ';'
  select_ne : x.select ≠ ""
  select_chars : ∀ c ∈ x.select.toList, c ≠ ';' ∧ c ≠ '\n'

/-- The characters of one item. -/
def SelectionItem.chars (x : SelectionItem) : List Char :=
  x.option.toList ++ ':' :: (x.select.toList ++ [';'])

theorem toList_selectionText (items : List SelectionItem) :
    (selectionText items).toList = items.flatMap SelectionItem.chars := by
  induction items with
  | nil => rfl
  | cons x rest ih => simp [selectionText, SelectionItem.chars, String.toList_append, ih]

theorem toList_ne_nil {s : String} (h : s ≠ "") : s.toList ≠ [] := fun e =>
  h (String.toList_inj.mp (e.trans rfl))

/-! ## Reading it back -/

theorem item_nil : item [] = none := rfl

/-- A readable item is read back and nothing after it is touched. -/
theorem item_append {x : SelectionItem} (hx : x.Readable) (rest : List Char) :
    item (x.chars ++ rest) = some (x, rest) := by
  have hoption : optionName (x.option.toList ++ ':' :: (x.select.toList ++ ';' :: rest)) =
      some (x.option.toList, ':' :: (x.select.toList ++ ';' :: rest)) :=
    plus_append (toList_ne_nil hx.option_ne) (by simpa using hx.option_chars) (by decide)
  have hvalue : value (x.select.toList ++ ';' :: rest) = some (x.select.toList, ';' :: rest) :=
    plus_append (toList_ne_nil hx.select_ne) (by simpa using hx.select_chars) (by decide)
  simp [item, SelectionItem.chars, hoption, hvalue, String.ofList_toList]

/-- Whatever is read is readable. -/
theorem item_readable {input rest : List Char} {x : SelectionItem}
    (h : item input = some (x, rest)) : x.Readable := by
  simp only [item, Option.bind_eq_bind, Option.bind_eq_some_iff] at h
  obtain ⟨⟨option, input₁⟩, hoption, ⟨_, input₂⟩, -, ⟨select, input₃⟩, hselect, ⟨_, input₄⟩, -, h⟩ := h
  cases h
  obtain ⟨hone, hochars⟩ := plus_some hoption
  obtain ⟨hsne, hschars⟩ := plus_some hselect
  refine ⟨fun e => hone ?_, ?_, fun e => hsne ?_, ?_⟩
  · exact String.ofList_eq_empty_iff.mp e
  · simpa [String.toList_ofList] using hochars
  · exact String.ofList_eq_empty_iff.mp e
  · simpa [String.toList_ofList] using hschars

theorem document_readable {input : List Char} {items : List SelectionItem}
    (h : document input = some items) : ∀ x ∈ items, x.Readable := by
  simp only [document, Option.bind_eq_bind, Option.bind_eq_some_iff] at h
  obtain ⟨⟨first, rest⟩, hfirst, h⟩ := h
  cases h
  intro x hx
  rcases List.mem_cons.mp hx with rfl | hx
  · exact item_readable hfirst
  · exact kleene_forall (fun s a rest' h' => item_readable h') rest x hx

theorem parse_selectionText {items : List SelectionItem} (hne : items ≠ [])
    (h : ∀ x ∈ items, x.Readable) :
    parseSelectionDescriptionString (selectionText items) = some items := by
  cases items with
  | nil => exact absurd rfl hne
  | cons x rest =>
    have hx := h x (List.mem_cons_self ..)
    have hrest : kleene item (rest.flatMap SelectionItem.chars) = (rest, []) :=
      kleene_flatMap (fun y _ => by simp [SelectionItem.chars])
        (fun y hy => item_append (h y (List.mem_cons_of_mem _ hy))) item_nil
    rw [parseSelectionDescriptionString, toList_selectionText, List.flatMap_cons]
    simp [document, item_append hx, hrest]

theorem parse_selectionText_iff {items : List SelectionItem} (hne : items ≠ []) :
    parseSelectionDescriptionString (selectionText items) = some items ↔
      ∀ x ∈ items, x.Readable :=
  ⟨document_readable, parse_selectionText hne⟩

theorem selectionText_eq_empty_iff {items : List SelectionItem} :
    selectionText items = "" ↔ items = [] := by
  constructor
  · intro h
    cases items with
    | nil => rfl
    | cons x rest =>
      have hlist := congrArg String.toList h
      rw [toList_selectionText, List.flatMap_cons] at hlist
      simp [SelectionItem.chars] at hlist
  · rintro rfl
    rfl

/-- Lists of readable items have different texts. -/
theorem selectionText_inj {items items' : List SelectionItem} (h : ∀ x ∈ items, x.Readable)
    (h' : ∀ x ∈ items', x.Readable) (heq : selectionText items = selectionText items') :
    items = items' := by
  by_cases hne : items = []
  · subst hne
    exact (selectionText_eq_empty_iff.mp heq.symm).symm
  · have hne' : items' ≠ [] := by
      rintro rfl
      exact hne (selectionText_eq_empty_iff.mp heq)
    have hparse := parse_selectionText hne h
    rw [heq, parse_selectionText hne' h'] at hparse
    exact (Option.some.inj hparse).symm

/-! ## What is stored -/

/-- What an entry of the `selection` array of `cart_add` says. -/
def EntryOf (s : Json) (x : SelectionItem) : Prop :=
  ∃ obj, s.asObject = .ok obj ∧ x.option = Json.jsonAsString (Json.sub obj "option") ∧
    x.select = Json.jsonAsString (Json.sub obj "select")

theorem selectionString_text {l : List Json} {text : String} (h : selectionString l = .ok text) :
    ∃ items, l.Forall₂ EntryOf items ∧ text = selectionText items := by
  induction l generalizing text with
  | nil =>
    cases h
    exact ⟨[], .nil, rfl⟩
  | cons s rest ih =>
    unfold selectionString at h
    cases hobj : s.asObject with
    | error e => simp [hobj, bind, Except.bind] at h
    | ok obj =>
      cases htail : selectionString rest with
      | error e => simp [hobj, htail, bind, Except.bind] at h
      | ok tail =>
        obtain ⟨items, hitems, rfl⟩ := ih htail
        simp [hobj, htail, bind, Except.bind, pure, Except.pure] at h
        let x : SelectionItem :=
          ⟨Json.jsonAsString (Json.sub obj "option"), Json.jsonAsString (Json.sub obj "select")⟩
        have hx : EntryOf s x := ⟨obj, hobj, rfl, rfl⟩
        refine ⟨x :: items, .cons hx hitems, ?_⟩
        rw [← h, selectionText]

/-- The item `order_create` writes for an option of the product: the name the request
chooses, which is among the names the option has. -/
def ChosenFor (optionsOfGoods : List Json) (option : ProductOption) (x : SelectionItem) : Prop :=
  x.option = option.optionTitle ∧ (∃ s ∈ option.selections, s.selectionName = x.select) ∧
    ∃ obj v, findOption option.optionTitle optionsOfGoods = .ok (some obj) ∧
      Json.atKey obj "select" = .ok v ∧ Json.jsonAsString v = x.select

theorem selectOptions_text {optionsOfGoods : List Json} {options : List ProductOption}
    {snap snap' : GoodsSnapshot} (h : selectOptions optionsOfGoods options snap = .ok snap') :
    ∃ items, options.Forall₂ (ChosenFor optionsOfGoods) items ∧
      snap'.selection = snap.selection ++ selectionText items := by
  induction options generalizing snap with
  | nil =>
    cases h
    exact ⟨[], .nil, by simp [selectionText]⟩
  | cons option rest ih =>
    unfold selectOptions at h
    cases hfind : findOption option.optionTitle optionsOfGoods with
    | error e => simp [hfind, bind, Except.bind] at h
    | ok found =>
      cases found with
      | none => simp [hfind, bind, Except.bind] at h
      | some obj =>
        cases hkey : Json.atKey obj "select" with
        | error e => simp [hfind, hkey, bind, Except.bind] at h
        | ok v =>
          simp only [hfind, hkey, bind, Except.bind] at h
          split at h
          · cases h
          · rename_i s hs
            obtain ⟨items, hitems, htext⟩ := ih h
            have hname : s.selectionName = Json.jsonAsString v := by
              simpa using List.find?_some hs
            let x : SelectionItem := ⟨option.optionTitle, s.selectionName⟩
            have hx : ChosenFor optionsOfGoods option x :=
              ⟨rfl, ⟨s, List.mem_of_find?_eq_some hs, rfl⟩, obj, v, hfind, hkey, hname.symm⟩
            refine ⟨x :: items, .cons hx hitems, ?_⟩
            rw [htext, selectionText]
            simp only [String.append_assoc, x]

theorem snapshotOf_text {cfg : Config} {merchantId : Nat} {optionsOfGoods : List Json} {p : Product}
    {snap : GoodsSnapshot} (h : snapshotOf cfg merchantId optionsOfGoods p = .ok snap)
    (hne : p.options ≠ []) :
    ∃ items, p.options.Forall₂ (ChosenFor optionsOfGoods) items ∧
      snap.selection = selectionText items := by
  unfold snapshotOf at h
  cases hprice : cfg.numeric p.productPrice with
  | none => simp [hprice, bind, Except.bind] at h
  | some price =>
    by_cases hlen : optionsOfGoods.length = p.options.length
    · simp only [hprice, hlen, hne, bind, Except.bind, pure, Except.pure, List.isEmpty_iff, ne_eq,
        not_true_eq_false, if_false] at h
      obtain ⟨items, hitems, htext⟩ := selectOptions_text h
      exact ⟨items, hitems, by simpa using htext⟩
    · simp [hprice, hlen, hne, bind, Except.bind, pure, Except.pure] at h

/-- `text` is what `cart_add` or `order_create` stores for `items`. -/
inductive StoredAs : List SelectionItem → String → Prop
  | cart {l : List Json} {items : List SelectionItem} {text : String}
      (stored : selectionString l = .ok text) (entries : l.Forall₂ EntryOf items) :
      StoredAs items text
  | order {cfg : Config} {merchantId : Nat} {optionsOfGoods : List Json} {p : Product}
      {snap : GoodsSnapshot} {items : List SelectionItem} (hasOptions : p.options ≠ [])
      (stored : snapshotOf cfg merchantId optionsOfGoods p = .ok snap)
      (chosen : p.options.Forall₂ (ChosenFor optionsOfGoods) items) :
      StoredAs items snap.selection

theorem rightUnique_entryOf : Relator.RightUnique EntryOf := by
  intro s x y hx hy
  obtain ⟨obj, hobj, hoption, hselect⟩ := hx
  obtain ⟨obj', hobj', hoption', hselect'⟩ := hy
  cases hobj.symm.trans hobj'
  cases x
  cases y
  simp_all

theorem rightUnique_chosenFor (optionsOfGoods : List Json) :
    Relator.RightUnique (ChosenFor optionsOfGoods) := by
  intro option x y hx hy
  obtain ⟨hoption, -, obj, v, hfind, hkey, hselect⟩ := hx
  obtain ⟨hoption', -, obj', v', hfind', hkey', hselect'⟩ := hy
  cases hfind.symm.trans hfind'
  cases hkey.symm.trans hkey'
  cases x
  cases y
  simp_all

theorem StoredAs.text_eq {items : List SelectionItem} {text : String} (h : StoredAs items text) :
    text = selectionText items := by
  cases h with
  | cart stored entries =>
    obtain ⟨items', hitems', rfl⟩ := selectionString_text stored
    rw [List.right_unique_forall₂' rightUnique_entryOf entries hitems']
  | order hasOptions stored chosen =>
    obtain ⟨items', hitems', htext⟩ := snapshotOf_text stored hasOptions
    rw [htext, List.right_unique_forall₂' (rightUnique_chosenFor _) chosen hitems']

/-- Items that `cart_add` or `order_create` stores are read back, in order, exactly when
every title and every name is readable, and different lists of readable items are stored
as different texts. -/
theorem selections_survive_iff {items : List SelectionItem} {text : String}
    (h : StoredAs items text) (hne : items ≠ []) :
    (parseSelectionDescriptionString text = some items ↔ ∀ x ∈ items, x.Readable) ∧
      ((∀ x ∈ items, x.Readable) → ∀ items' text', StoredAs items' text' →
        (∀ x ∈ items', x.Readable) → items ≠ items' → text ≠ text') := by
  rw [h.text_eq]
  refine ⟨parse_selectionText_iff hne, fun hread items' text' h' hread' hdiff heq => ?_⟩
  exact hdiff (selectionText_inj hread hread' (heq.trans h'.text_eq))

/-- An entry of a `selection` array. -/
def selectionEntry (option select : String) : Json :=
  .object [("option", .string option), ("select", .string select)]

theorem entryOf_selectionEntry (option select : String) :
    EntryOf (selectionEntry option select) ⟨option, select⟩ := ⟨_, rfl, rfl, rfl⟩

theorem selections_survive_size_and_color :
    StoredAs [⟨"size", "XL"⟩, ⟨"color", "1:1"⟩] "size:XL;color:1:1;" ∧
      parseSelectionDescriptionString "size:XL;color:1:1;" =
        some [⟨"size", "XL"⟩, ⟨"color", "1:1"⟩] := by
  have hstored : StoredAs [⟨"size", "XL"⟩, ⟨"color", "1:1"⟩] "size:XL;color:1:1;" :=
    .cart (l := [selectionEntry "size" "XL", selectionEntry "color" "1:1"]) (by rfl)
      (.cons (entryOf_selectionEntry _ _) (.cons (entryOf_selectionEntry _ _) .nil))
  refine ⟨hstored, (selections_survive_iff hstored (by simp)).1.mpr fun x hx => ?_⟩
  rcases List.mem_pair.mp hx with rfl | rfl
  · exact ⟨by decide, by simp, by decide, by simp⟩
  · exact ⟨by decide, by simp, by decide, by simp⟩

/-- The option file titles an option `a:b`; an order of it is read back as another one. In
the cart, that selection and the one of `b:c` for `a` have the same text. -/
theorem selections_lost_after_colon :
    (∃ options snap,
      toProductOptions (fun _ => some 0) "# a:b\nc 0\n" = .ok options ∧
      snapshotOf ⟨fun _ => some 0, []⟩ 5 [selectionEntry "a:b" "c"]
        ⟨"tea", "tea", "", "0", "", "", 5, "", options⟩ = .ok snap ∧
      StoredAs [⟨"a:b", "c"⟩] snap.selection ∧
      parseSelectionDescriptionString snap.selection = some [⟨"a", "b:c"⟩]) ∧
    StoredAs [⟨"a:b", "c"⟩] "a:b:c;" ∧ StoredAs [⟨"a", "b:c"⟩] "a:b:c;" := by
  have hsnap : snapshotOf ⟨fun _ => some 0, []⟩ 5 [selectionEntry "a:b" "c"]
      ⟨"tea", "tea", "", "0", "", "", 5, "", [⟨"a:b", [⟨"c", 0⟩]⟩]⟩ =
        .ok ⟨5, "tea", "tea", 0 + 0, "", "", "a:b:c;"⟩ := rfl
  have hchosen : ChosenFor [selectionEntry "a:b" "c"] ⟨"a:b", [⟨"c", 0⟩]⟩ ⟨"a:b", "c"⟩ :=
    ⟨rfl, ⟨_, List.mem_singleton_self _, rfl⟩, _, .string "c", rfl, rfl, rfl⟩
  refine ⟨⟨_, _, rfl, hsnap, ?_, by decide⟩, ?_, ?_⟩
  · exact .order (by simp) hsnap (.cons hchosen .nil)
  · exact .cart (l := [selectionEntry "a:b" "c"]) (by rfl) (.cons (entryOf_selectionEntry _ _) .nil)
  · exact .cart (l := [selectionEntry "a" "b:c"]) (by rfl) (.cons (entryOf_selectionEntry _ _) .nil)

end Cmall
