import Mathlib.Data.List.Sort

/-!
A container of ranked keys and the keys it ranks first.

Each key stands in the container once, and the entries stand by ascending ranking, each behind
those of its own ranking. A key is scored by hits: the first one puts it in, each later one
changes its ranking. If the ranking is a function of the number of hits, so is the order.
-/

namespace Ranking

variable {κ : Type*} [DecidableEq κ]

structure Ranked (κ : Type*) where
  ref : κ
  ranking : Int
  deriving DecidableEq, Repr

/-- The order of the entries. -/
def Before (a b : Ranked κ) : Prop := a.ranking < b.ranking

instance : DecidableRel (@Before κ) := fun a b => Int.decLt a.ranking b.ranking

/-- An entry goes behind the others of its ranking. -/
def link (e : Ranked κ) (l : List (Ranked κ)) : List (Ranked κ) := l.orderedInsert Before e

/-- There is no second entry for a key. -/
def push (e : Ranked κ) (l : List (Ranked κ)) : Option (List (Ranked κ)) :=
  if e.ref ∈ l.map (·.ref) then none else some (link e l)

/-- The entry of the key gets another ranking, and another place. -/
def modify (key : κ) (f : Int → Int) (l : List (Ranked κ)) : List (Ranked κ) :=
  match l.find? fun e => e.ref = key with
  | none => l
  | some e => link { e with ranking := f e.ranking } (l.erase e)

def hit (first : Int) (again : Int → Int) (l : List (Ranked κ)) (key : κ) : List (Ranked κ) :=
  (push ⟨key, first⟩ l).getD (modify key again l)

/-! ## Places -/

omit [DecidableEq κ] in
theorem perm_link (e : Ranked κ) (l : List (Ranked κ)) : (link e l).Perm (e :: l) :=
  List.perm_orderedInsert Before e l

omit [DecidableEq κ] in
theorem sorted_link {e : Ranked κ} {l : List (Ranked κ)}
    (h : l.Pairwise fun a b => a.ranking ≤ b.ranking) :
    (link e l).Pairwise fun a b => a.ranking ≤ b.ranking := by
  induction l with
  | nil => exact List.pairwise_singleton _ _
  | cons x l ih =>
    obtain ⟨hx, hl⟩ := List.pairwise_cons.mp h
    by_cases he : e.ranking < x.ranking
    · rw [link, List.orderedInsert_cons_of_le _ l (show Before e x from he)]
      refine List.pairwise_cons.mpr ⟨fun y hy => ?_, h⟩
      rcases List.mem_cons.mp hy with rfl | hy
      · exact he.le
      · exact he.le.trans (hx y hy)
    · rw [link, List.orderedInsert_of_not_le Before l (show ¬Before e x from he)]
      refine List.pairwise_cons.mpr ⟨fun y hy => ?_, ih hl⟩
      rcases List.mem_cons.mp ((perm_link e l).mem_iff.mp hy) with rfl | hy
      · exact not_lt.mp he
      · exact hx y hy

/-! ## Hits -/

/-- The container after the hits, when the ranking of a key is a function of their number. -/
structure Tally (score : Nat → Int) (hits : List κ) (l : List (Ranked κ)) : Prop where
  sorted : l.Pairwise fun a b => a.ranking ≤ b.ranking
  nodup : (l.map (·.ref)).Nodup
  mem : ∀ key, key ∈ l.map (·.ref) ↔ key ∈ hits
  ranking : ∀ e ∈ l, e.ranking = score (hits.count e.ref)

theorem Tally.nil (score : Nat → Int) : Tally score ([] : List κ) [] where
  sorted := List.Pairwise.nil
  nodup := List.nodup_nil
  mem := fun _ => Iff.rfl
  ranking := fun _ he => nomatch he

variable {score : Nat → Int} {hits : List κ} {l : List (Ranked κ)} {key : κ}

/-- The first hit on a key. -/
theorem Tally.push {l' : List (Ranked κ)} (h : Tally score hits l)
    (hl' : push ⟨key, score 1⟩ l = some l') : Tally score (hits ++ [key]) l' := by
  unfold Ranking.push at hl'
  split at hl'
  · cases hl'
  rename_i hnew
  cases hl'
  have hperm := perm_link ⟨key, score 1⟩ l
  have hmap := hperm.map (·.ref)
  have hhits : key ∉ hits := fun hk => hnew ((h.mem key).mpr hk)
  refine ⟨sorted_link h.sorted, hmap.nodup_iff.mpr (List.nodup_cons.mpr ⟨hnew, h.nodup⟩),
    fun k => ?_, fun e he => ?_⟩
  · rw [hmap.mem_iff, List.map_cons, List.mem_cons, h.mem, List.mem_append, List.mem_singleton,
      or_comm]
  · rw [List.count_append]
    rcases List.mem_cons.mp (hperm.mem_iff.mp he) with rfl | he
    · simp [List.count_eq_zero_of_not_mem hhits]
    · have hne : key ≠ e.ref := by
        intro hk
        exact hnew (List.mem_map.mpr ⟨e, he, hk.symm⟩)
      rw [h.ranking e he, List.count_singleton, if_neg (by simpa using hne), Nat.add_zero]

/-- A later hit on a key. -/
theorem Tally.modify {again : Int → Int} (h : Tally score hits l) (hkey : key ∈ l.map (·.ref))
    (hagain : ∀ n, 0 < n → score (n + 1) = again (score n)) :
    Tally score (hits ++ [key]) (modify key again l) := by
  obtain ⟨e, he, rfl⟩ := List.mem_map.mp hkey
  have hfind : l.find? (fun x => x.ref = e.ref) = some e := by
    obtain ⟨x, hx⟩ : ∃ x, l.find? (fun x => x.ref = e.ref) = some x := by
      rw [← Option.isSome_iff_exists, List.find?_isSome]
      exact ⟨e, he, by simp⟩
    have href : x.ref = e.ref := by simpa using List.find?_some hx
    rw [hx, List.inj_on_of_nodup_map h.nodup (List.mem_of_find?_eq_some hx) he href]
  rw [Ranking.modify, hfind]
  have hperm : (link { e with ranking := again e.ranking } (l.erase e)).Perm
      ({ e with ranking := again e.ranking } :: l.erase e) := perm_link _ _
  have hl : l.Perm (e :: l.erase e) := List.perm_cons_erase he
  -- the keys are the same as before
  have hmap := (hperm.map (·.ref)).trans (hl.map (·.ref)).symm
  have hhits : e.ref ∈ hits := (h.mem _).mp hkey
  refine ⟨sorted_link (h.sorted.sublist (List.erase_sublist)), hmap.nodup_iff.mpr h.nodup,
    fun k => ?_, fun x hx => ?_⟩
  · rw [hmap.mem_iff, h.mem, List.mem_append, List.mem_singleton]
    constructor
    · exact .inl
    · rintro (hk | rfl)
      · exact hk
      · exact hhits
  · rw [List.count_append]
    rcases List.mem_cons.mp (hperm.mem_iff.mp hx) with rfl | hx
    · have hpos : 0 < hits.count e.ref := List.count_pos_iff.mpr hhits
      simpa [h.ranking e he] using (hagain _ hpos).symm
    · have hne : e.ref ≠ x.ref := by
        have hnodup := (hl.map (·.ref)).nodup_iff.mp h.nodup
        intro hk
        exact (List.nodup_cons.mp hnodup).1 (List.mem_map.mpr ⟨x, hx, hk.symm⟩)
      rw [h.ranking x (List.mem_of_mem_erase hx), List.count_singleton,
        if_neg (by simpa using hne), Nat.add_zero]

theorem Tally.hit {again : Int → Int} (h : Tally score hits l)
    (hagain : ∀ n, 0 < n → score (n + 1) = again (score n)) :
    Tally score (hits ++ [key]) (hit (score 1) again l key) := by
  unfold Ranking.hit
  rcases hpush : Ranking.push ⟨key, score 1⟩ l with _ | l'
  · refine h.modify ?_ hagain
    by_contra hkey
    rw [Ranking.push, if_neg hkey] at hpush
    cases hpush
  · exact h.push hpush

/-- All hits, one after the other. -/
theorem Tally.foldl {again : Int → Int} (hagain : ∀ n, 0 < n → score (n + 1) = again (score n))
    (keys : List κ) (h : Tally score hits l) :
    Tally score (hits ++ keys) (keys.foldl (Ranking.hit (score 1) again) l) := by
  induction keys generalizing hits l with
  | nil => simpa using h
  | cons key keys ih =>
    have hrest := ih (@Tally.hit _ _ _ _ _ key _ h hagain)
    rwa [List.append_assoc] at hrest

/-! ## Keys by their counts -/

/-- The keys that are counted, those with the higher counts first. -/
structure ByCount (count : κ → Nat) (keys : List κ) : Prop where
  nodup : keys.Nodup
  mem : ∀ key, key ∈ keys ↔ 0 < count key
  sorted : keys.Pairwise fun a b => count b ≤ count a

/-- With a ranking that falls with every hit, ascending rankings are descending counts. -/
theorem Tally.byCount (h : Tally score hits l)
    (hscore : ∀ m n, 0 < m → m < n → score n < score m) :
    ByCount (fun key => hits.count key) (l.map (·.ref)) where
  nodup := h.nodup
  mem := fun key => by rw [h.mem, List.count_pos_iff]
  sorted := by
    rw [List.pairwise_map]
    refine h.sorted.imp_of_mem fun {a b} ha hb hab => ?_
    by_contra hlt
    have hpos : 0 < hits.count a.ref :=
      List.count_pos_iff.mpr ((h.mem _).mp (List.mem_map_of_mem ha))
    have := hscore _ _ hpos (not_le.mp hlt)
    rw [h.ranking a ha, h.ranking b hb] at hab
    omega

namespace ByCount

variable {count : κ → Nat} {keys keys' : List κ} {n : Nat} {a b : κ}

omit [DecidableEq κ]

/-- A key that is left out by a limit has no more hits than one that is kept. -/
theorem left_out (h : ByCount count keys) (ha : a ∈ keys.take n) (hb : 0 < count b)
    (hout : b ∉ keys.take n) : count b ≤ count a := by
  have hmem : b ∈ keys.drop n := by
    have hb := (h.mem b).mpr hb
    rw [← List.take_append_drop n keys, List.mem_append] at hb
    exact hb.resolve_left hout
  have hsorted := h.sorted
  rw [← List.take_append_drop n keys, List.pairwise_append] at hsorted
  exact hsorted.2.2 a ha b hmem

theorem perm (h : ByCount count keys) (h' : ByCount count keys') : keys.Perm keys' :=
  (List.perm_ext_iff_of_nodup h.nodup h'.nodup).mpr fun a => (h.mem a).trans (h'.mem a).symm

/-- Two rankings by the same counts have the same counts at every place. -/
theorem map_eq (h : ByCount count keys) (h' : ByCount count keys') :
    keys.map count = keys'.map count := by
  have hperm : (keys.map count).Perm (keys'.map count) := (h.perm h').map count
  refine @List.Perm.eq_of_pairwise _ (fun a b => b ≤ a) _ _
    (fun a b _ _ hab hba => Nat.le_antisymm hba hab) ?_ ?_ hperm
  · exact List.pairwise_map.mpr h.sorted
  · exact List.pairwise_map.mpr h'.sorted

/-- Above the least count that is kept, a limit keeps the same keys. -/
theorem above_least (h : ByCount count keys) (h' : ByCount count keys') (ha : a ∈ keys.take n)
    (hb : b ∈ keys.take n) (hlt : count b < count a) : a ∈ keys'.take n := by
  have hcount : count b ∈ (keys'.take n).map count := by
    rw [List.map_take, ← map_eq h h', ← List.map_take]
    exact List.mem_map_of_mem hb
  obtain ⟨b', hb', hbb⟩ := List.mem_map.mp hcount
  by_contra hout
  have hle := h'.left_out hb' ((h.mem a).mp (List.mem_of_mem_take ha)) hout
  omega

end ByCount

end Ranking
