import Cmall.GoodsLine

/-!
Metadata that is written as it should be is read back.

Each attribute line is read by the alternative for its key: a key that only begins with a
reserved word fails there at the colon and is read as a pair. The assignments of the lines
merge to the attributes in the order of the lines.
-/

namespace Cmall.GoodsFile
open Spirit

/-! ## Attribute lines -/

/-- An attribute as a merchant writes it. -/
structure Attribute where
  key : List Char
  value : List Char
  key_ne : key ≠ []
  key_chars : ∀ c ∈ key, c ≠ ':' ∧ c ≠ '-' ∧ isSpace c = false
  value_ne : value ≠ []
  value_line : ∀ c ∈ value, c ≠ '\n'
  value_start : ∀ c ∈ value.head?, isSpace c = false
  /-- Key words are separated by single spaces. -/
  value_words : key = "keyword".toList → ∀ w ∈ value.splitOn ' ', w ≠ []

namespace Attribute

/-- `key: value`. -/
def render (a : Attribute) : List Char := a.key ++ ':' :: ' ' :: (a.value ++ ['\n'])

def text (a : Attribute) : String := String.ofList a.value

def words (a : Attribute) : List String := (a.value.splitOn ' ').map String.ofList

def pair (a : Attribute) : KV := ⟨String.ofList a.key, a.text⟩

end Attribute

/-- The values of all lines with the key. -/
def valuesOf (name : String) (attributes : List Attribute) : List String :=
  (attributes.filter fun a => a.key = name.toList).map Attribute.text

/-- What the lines say. -/
def describe (attributes : List Attribute) : GoodsDescription where
  title := (valuesOf "title" attributes).headD ""
  price := (valuesOf "price" attributes).headD ""
  kuaidifei := (valuesOf "kuaidifei" attributes).headD ""
  picture := valuesOf "picture" attributes
  keywords := (attributes.filter fun a => a.key = "keyword".toList).flatMap Attribute.words
  description := (valuesOf "description" attributes).headD ""
  restMeta := (attributes.filter fun a => a.key ∉ reservedKeys).map Attribute.pair

/-- The block with the lines between its two fences. -/
def renderMetadata (attributes : List Attribute) : List Char :=
  fence ++ attributes.flatMap Attribute.render ++ fence

/-! ## One line -/

def Attribute.item (a : Attribute) : Item where
  key := a.key
  blanks := [' ']
  value := a.value
  key_colon h := (a.key_chars ':' h).1 rfl
  blanks_space := by simp [isSpace]
  value_ne := a.value_ne
  value_line h := a.value_line '\n' h rfl
  value_start := a.value_start

theorem Attribute.names_iff (a : Attribute) (name : String) :
    Names name a.key = true ↔ a.key = name.toList :=
  names_iff_eq fun c hc => (a.key_chars c hc).2.2

theorem Attribute.isPairKey (a : Attribute) : IsPairKey a.key := by
  refine ⟨a.key_ne, fun c hc => ?_⟩
  obtain ⟨-, hdash, hspace⟩ := a.key_chars c hc
  refine ⟨hdash, fun h => ?_⟩
  rw [h] at hspace
  exact absurd hspace (by decide)

/-- The key decides what the line describes. -/
theorem lineOf_attribute (a : Attribute) : lineOf a.key a.value = some (describe [a]) := by
  have hwords : a.key = "keyword".toList → words a.value = a.value.splitOn ' ' := fun h =>
    List.filter_eq_self.mpr fun w hw => by simpa using a.value_words h w hw
  simp only [lineOf, a.names_iff]
  by_cases htitle : a.key = "title".toList
  · simp [describe, valuesOf, reservedKeys, htitle, Attribute.text]
  by_cases hprice : a.key = "price".toList
  · simp [describe, valuesOf, reservedKeys, hprice, Attribute.text]
  by_cases hkuaidifei : a.key = "kuaidifei".toList
  · simp [describe, valuesOf, reservedKeys, hkuaidifei, Attribute.text]
  by_cases hdescription : a.key = "description".toList
  · simp [describe, valuesOf, reservedKeys, hdescription, Attribute.text]
  by_cases hpicture : a.key = "picture".toList
  · simp [describe, valuesOf, reservedKeys, hpicture, Attribute.text]
  by_cases hkeyword : a.key = "keyword".toList
  · simp [describe, valuesOf, reservedKeys, hkeyword, hwords hkeyword,
      Attribute.words]
  have hother : a.key ∉ reservedKeys := by
    simp only [reservedKeys, List.mem_cons, List.not_mem_nil, or_false, not_or]
    exact ⟨htitle, hprice, hkuaidifei, hdescription, hpicture, hkeyword⟩
  simp only [htitle, hprice, hkuaidifei, hdescription, hpicture, hkeyword,
    a.isPairKey, describe, valuesOf, List.filter_cons, List.filter_nil, hother]
  rfl

theorem line_render (a : Attribute) (rest : List Char) :
    line (a.render ++ rest) = some (describe [a], rest) := by
  have hitem := line_item a.item rest
  rw [show a.item.text = a.render by simp [Item.text, Attribute.item, Attribute.render]] at hitem
  rw [hitem]
  simp [Attribute.item, lineOf_attribute]

/-! ## The block -/

section Block

/-- The first value stays when more lines follow, as no value is empty. -/
theorem headD_valuesOf_append (name : String) (as bs : List Attribute) :
    (valuesOf name (as ++ bs)).headD "" =
      if (valuesOf name as).headD "" = "" then (valuesOf name bs).headD ""
      else (valuesOf name as).headD "" := by
  rw [valuesOf, List.filter_append, List.map_append]
  cases hfilter : as.filter fun a => a.key = name.toList with
  | nil => simp [valuesOf, hfilter]
  | cons a as =>
    have hne : a.text ≠ "" := by
      intro h
      exact a.value_ne (by simpa [Attribute.text] using h)
    simp [valuesOf, hfilter, hne]

theorem assign_describe (as bs : List Attribute) :
    (describe as).assign (describe bs) = describe (as ++ bs) := by
  have hone := headD_valuesOf_append
  simp only [GoodsDescription.assign, describe, hone]
  simp [valuesOf]

theorem foldl_assign_describe (as bs : List Attribute) :
    (bs.map fun b => describe [b]).foldl GoodsDescription.assign (describe as) =
      describe (as ++ bs) := by
  induction bs generalizing as with
  | nil => simp
  | cons b bs ih => rw [List.map_cons, List.foldl_cons, assign_describe, ih, List.append_assoc,
      List.singleton_append]

/-- No line begins with a fence. -/
theorem line_fence (rest : List Char) : line (fence ++ rest) = none := by
  simp [line, choice, action, titleLine, priceLine, kuaidifeLine, descriptionLine, pictureLine,
    valueLine, keywordLine, pairLine, key, plus, lits, fence]

theorem documentSperator_fence (rest : List Char) :
    documentSperator (fence ++ rest) = some ((), rest) := by
  simp [documentSperator, fence, lits, newline, choice, lit]

theorem lines_render {attributes : List Attribute} (hne : attributes ≠ []) :
    lines (attributes.flatMap Attribute.render ++ fence) = some (describe attributes, fence) := by
  cases attributes with
  | nil => exact absurd rfl hne
  | cons a attributes =>
    have hread := line_render a (attributes.flatMap Attribute.render ++ fence)
    have hrest : kleene line (attributes.flatMap Attribute.render ++ fence) =
        (attributes.map fun b => describe [b], fence) := by
      refine kleene_map_append (fun _ => True) (fun b _ => ?_)
        (fun b _ rest _ => line_render b rest) (fun _ _ _ => trivial) trivial ?_
      · simp [Attribute.render]
      · exact line_fence []
    have hnil : GoodsDescription.assign {} (describe [a]) = describe [a] :=
      assign_describe [] [a]
    rw [List.flatMap_cons, List.append_assoc, lines, hread]
    simp only [Option.bind_eq_bind, Option.bind_some, hrest, List.foldl_cons, hnil,
      foldl_assign_describe, List.singleton_append]
    rfl

/-- The metadata says what its lines say. -/
theorem goods_metadata_is_read {attributes : List Attribute} (hne : attributes ≠ []) :
    parseGoodsMetadata (renderMetadata attributes) = some (describe attributes) := by
  have hend := documentSperator_fence []
  rw [List.append_nil] at hend
  have hnil : GoodsDescription.assign {} (describe attributes) = describe attributes :=
    assign_describe [] attributes
  rw [parseGoodsMetadata, document, renderMetadata, List.append_assoc, documentSperator_fence]
  simp [lines_render hne, hend, hnil]

/-- A title, and key words behind a key that only begins with a reserved word. -/
theorem goods_metadata_is_read_for_tea :
    parseGoodsMetadata "---\ntitle: tea\ntitles: a: b\nkeyword: green leaf\n---\n".toList =
      some { title := "tea", keywords := ["green", "leaf"], restMeta := [⟨"titles", "a: b"⟩] } :=
  @goods_metadata_is_read
    [
      ⟨"title".toList, "tea".toList, by decide, by simp [isSpace], by decide, by simp,
        by simp [isSpace], by simp⟩,
      ⟨"titles".toList, "a: b".toList, by decide, by simp [isSpace], by decide, by simp,
        by simp [isSpace], by simp⟩,
      ⟨"keyword".toList, "green leaf".toList, by decide, by simp [isSpace], by decide, by simp,
        by simp [isSpace], fun _ => by decide⟩]
    (by decide)

end Block

end Cmall.GoodsFile
