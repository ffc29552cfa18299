import Mathlib.Data.List.Nodup

/-!
Tables of rows with a primary key: the operations an object-relational layer
performs on them and how they act on look-ups by key. `key` reads the primary
key of a row.
-/

namespace Table

variable {κ α : Type} [DecidableEq κ] (key : α → κ)

/-- `find`: the row with the given key. -/
def find (t : List α) (k : κ) : Option α := t.find? fun x => key x = k

/-- `update`: replace the row that has the key of `v`; the key is a primary one,
so there is at most one such row. -/
def update : List α → α → List α
  | [], _ => []
  | x :: t, v => if key x = key v then v :: t else x :: update t v

/-- `erase`: remove the row with the given key. -/
def erase (t : List α) (k : κ) : List α := t.filter fun x => ¬ key x = k

/-- `erase_query`: remove every row that matches. -/
def eraseQuery (t : List α) (p : α → Bool) : List α := t.filter fun x => ¬ p x

/-- `query`: the rows that match. -/
def query (t : List α) (p : α → Bool) : List α := t.filter p

/-- `query_one`: the first row that matches. The library only asserts that there
is no second one. -/
def queryOne (t : List α) (p : α → Bool) : Option α := t.find? p

variable {key} {t : List α} {k : κ} {v : α}

theorem find_key (h : find key t k = some v) : key v = k := by
  simpa using List.find?_some h

theorem mem_of_find (h : find key t k = some v) : v ∈ t := List.mem_of_find?_eq_some h

theorem find_of_mem (hn : (t.map key).Nodup) (h : v ∈ t) : find key t (key v) = some v := by
  induction t with
  | nil => cases h
  | cons x t ih =>
    rw [List.map_cons, List.nodup_cons] at hn
    rcases List.mem_cons.mp h with rfl | h
    · simp [find]
    · have hne : key x ≠ key v := fun e => hn.1 (e ▸ List.mem_map_of_mem h)
      simpa [find, hne] using ih hn.2 h

theorem queryOne_some {p : α → Bool} (h : queryOne t p = some v) : v ∈ t ∧ p v = true :=
  ⟨List.mem_of_find?_eq_some h, List.find?_some h⟩

theorem queryOne_none {p : α → Bool} (h : queryOne t p = none) : ∀ x ∈ t, p x = false := by
  simpa [queryOne] using h

theorem find_update_self (h : (find key t (key v)).isSome) :
    find key (update key t v) (key v) = some v := by
  induction t with
  | nil => simp [find] at h
  | cons x t ih =>
    by_cases hx : key x = key v
    · simp [find, update, hx]
    · have ht : (find key t (key v)).isSome := by simpa [find, hx] using h
      simpa [find, update, hx] using ih ht

theorem find_update_ne (h : k ≠ key v) : find key (update key t v) k = find key t k := by
  induction t with
  | nil => rfl
  | cons x t ih =>
    by_cases hx : key x = key v
    · have hv : ¬ key v = k := fun e => h e.symm
      have hk : ¬ key x = k := fun e => hv (hx ▸ e)
      simp [find, update, hx, hv]
    · by_cases hk : key x = k
      · subst hk
        simp [find, update, h]
      · simpa [find, update, hx, hk] using ih

theorem mem_update {x : α} (h : x ∈ update key t v) : x = v ∨ x ∈ t := by
  induction t with
  | nil => simp [update] at h
  | cons y t ih =>
    unfold update at h
    split at h
    · rcases List.mem_cons.mp h with rfl | h
      · exact .inl rfl
      · exact .inr (List.mem_cons_of_mem _ h)
    · rcases List.mem_cons.mp h with rfl | h
      · exact .inr (List.mem_cons_self ..)
      · exact (ih h).imp id (List.mem_cons_of_mem _)

/-- The row of a key after an update: the new one, or one that was there before. -/
theorem find_update_cases {x : α} (h : find key (update key t v) k = some x) :
    (key v = k ∧ x = v) ∨ (key v ≠ k ∧ find key t k = some x) := by
  by_cases hk : k = key v
  · subst hk
    refine .inl ⟨rfl, ?_⟩
    by_cases ht : (find key t (key v)).isSome
    · exact Option.some.inj (h.symm.trans (find_update_self ht))
    · exact (mem_update (mem_of_find h)).resolve_right fun hmem =>
        ht (by simpa [find] using ⟨x, hmem, find_key h⟩)
  · exact .inr ⟨fun e => hk e.symm, (find_update_ne hk).symm.trans h⟩

theorem find_append_of_some {x : α} (h : find key t k = some v) :
    find key (t ++ [x]) k = some v := by
  simp [find] at h ⊢
  simp [h]

/-- The row of a key after an insertion: one that was there before, or the new one. -/
theorem find_append_cases {x : α} (h : find key (t ++ [x]) k = some v) :
    find key t k = some v ∨ v = x := by
  cases ht : find key t k with
  | some w => exact .inl ((find_append_of_some ht).symm.trans h)
  | none =>
    refine .inr ?_
    have hnone : (t.find? fun y => key y = k) = none := ht
    have hx : ([x].find? fun y => key y = k) = some v := by
      simpa [find, List.find?_append, hnone] using h
    exact List.mem_singleton.mp (List.mem_of_find?_eq_some hx)

/-- A column that the new row has in common with the old one does not change. -/
theorem map_update {β : Type} {g : α → β} {old : α} (h : find key t (key v) = some old)
    (hg : g v = g old) : (update key t v).map g = t.map g := by
  induction t with
  | nil => simp [find] at h
  | cons x t ih =>
    by_cases hx : key x = key v
    · have hold : x = old := by simpa [find, hx] using h
      subst hold
      simp [update, hx, hg]
    · have ht : find key t (key v) = some old := by simpa [find, hx] using h
      simp [update, hx, ih ht]

/-- Rows that the old and the new row are not among do not change. -/
theorem filter_update {p : α → Bool} {old : α} (h : find key t (key v) = some old)
    (hold : p old = false) (hv : p v = false) : (update key t v).filter p = t.filter p := by
  induction t with
  | nil => simp [find] at h
  | cons x t ih =>
    by_cases hx : key x = key v
    · have heq : x = old := by simpa [find, hx] using h
      subst heq
      simp [update, hx, hold, hv]
    · have ht : find key t (key v) = some old := by simpa [find, hx] using h
      simp [update, hx, List.filter_cons, ih ht]

/-- A new row that does not match adds nothing to the rows that match. -/
theorem filter_update_sublist {p : α → Bool} (hv : p v = false) :
    ((update key t v).filter p).Sublist (t.filter p) := by
  induction t with
  | nil => exact List.Sublist.refl _
  | cons x t ih =>
    by_cases hx : key x = key v
    · simp only [update, hx, ↓reduceIte, List.filter_cons, hv, Bool.false_eq_true]
      split
      · exact List.sublist_cons_self _ _
      · exact List.Sublist.refl _
    · simp only [update, hx, ↓reduceIte, List.filter_cons]
      split
      · exact ih.cons_cons x
      · exact ih

/-- A row that matches before and after is replaced among those that match. -/
theorem filter_update_of_pos {p : α → Bool} {old : α} (h : find key t (key v) = some old)
    (hold : p old = true) (hv : p v = true) :
    (update key t v).filter p = update key (t.filter p) v := by
  induction t with
  | nil => simp [find] at h
  | cons x t ih =>
    by_cases hx : key x = key v
    · have heq : x = old := by simpa [find, hx] using h
      subst heq
      simp [update, hx, hold, hv]
    · have ht : find key t (key v) = some old := by simpa [find, hx] using h
      by_cases hp : p x = true
      · simp [update, hx, hp, ih ht]
      · simp [update, hx, hp, ih ht]

/-- The rows with the value of `v` in a column without duplicates. -/
theorem filter_of_nodup (hn : (t.map key).Nodup) (h : v ∈ t) :
    (t.filter fun x => key x = key v) = [v] := by
  induction t with
  | nil => cases h
  | cons x t ih =>
    rw [List.map_cons, List.nodup_cons] at hn
    rcases List.mem_cons.mp h with rfl | h
    · have hrest : (t.filter fun x => key x = key v) = [] := by
        rw [List.filter_eq_nil_iff]
        intro y hy hkey
        exact hn.1 (of_decide_eq_true hkey ▸ List.mem_map_of_mem hy)
      simp [hrest]
    · have hne : key x ≠ key v := fun e => hn.1 (e ▸ List.mem_map_of_mem h)
      simpa [hne] using ih hn.2 h

/-- A query on a column that the new row has in common with the old one. -/
theorem queryOne_update {p : α → Bool} {old : α} (h : find key t (key v) = some old)
    (hp : p v = p old) : queryOne (update key t v) p = queryOne t p ∨
      queryOne t p = some old ∧ queryOne (update key t v) p = some v := by
  induction t with
  | nil => simp [find] at h
  | cons x t ih =>
    by_cases hx : key x = key v
    · have heq : x = old := by simpa [find, hx] using h
      subst heq
      cases hpx : p x with
      | true => exact .inr ⟨by simp [queryOne, hpx], by simp [queryOne, update, hx, hp, hpx]⟩
      | false => exact .inl (by simp [queryOne, update, hx, hp, hpx])
    · have ht : find key t (key v) = some old := by simpa [find, hx] using h
      cases hpx : p x with
      | true => exact .inl (by simp [queryOne, update, hx, hpx])
      | false => simpa [queryOne, update, hx, hpx] using ih ht

end Table
