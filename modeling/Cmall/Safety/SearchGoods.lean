import Cmall.Safety.SearchIndex
import Mathlib.Algebra.BigOperators.Group.List.Basic
import Mathlib.Data.Finset.Card
import Mathlib.Tactic.Ring

/-!
What a search returns, and in which order.

With ranks of one, a goods with `n` matches stands in the container with a ranking that depends
on `n` and the number of search strings alone, and falls with `n`.
-/

namespace Cmall.Search
open Ranking Transition

variable {indexdb : List Item} {terms terms' : List String}

/-- The pairs of an occurrence of a search string and an index entry of the goods with it. -/
def matchCount (indexdb : List Item) (terms : List String) (goods : GoodsRef) : Nat :=
  (terms.map fun term =>
    indexdb.countP fun item => decide (item.keyWord = term ∧ item.target = goods)).sum

def matchingGoods (indexdb : List Item) (terms : List String) : Finset GoodsRef :=
  (indexdb.map Item.target).toFinset.filter fun goods => 0 < matchCount indexdb terms goods

/-- What a search promises about its result. -/
structure Ranks (indexdb : List Item) (terms : List String) (result : List GoodsRef) : Prop where
  atMost : result.length ≤ 80
  nodup : result.Nodup
  matching : ∀ goods ∈ result, 0 < matchCount indexdb terms goods
  complete : (matchingGoods indexdb terms).card ≤ 80 →
    ∀ goods, 0 < matchCount indexdb terms goods → goods ∈ result
  sorted : result.Pairwise fun a b => matchCount indexdb terms b ≤ matchCount indexdb terms a
  leftOut : ∀ a ∈ result, ∀ b ∉ result, matchCount indexdb terms b ≤ matchCount indexdb terms a

/-- How two results may differ that were found for the same search strings. -/
structure SameUpToTies (indexdb : List Item) (terms : List String)
    (result result' : List GoodsRef) : Prop where
  counts : result.map (matchCount indexdb terms) = result'.map (matchCount indexdb terms)
  aboveLeast : ∀ a ∈ result, ∀ b ∈ result,
    matchCount indexdb terms b < matchCount indexdb terms a → a ∈ result'
  perm : (matchingGoods indexdb terms).card ≤ 80 → result.Perm result'

/-! ## Scores -/

/-- The targets in the order of the two loops. -/
def hits (indexdb : List Item) (terms : List String) : List GoodsRef :=
  terms.flatMap fun term => (equalRange indexdb term).map Item.target

/-- The ranking after a number of matches. -/
def score (strings matched : Nat) : Int := strings - matched * (strings + 1)

theorem score_succ (strings matched : Nat) :
    score strings (matched + 1) = score strings matched - (1 : Nat) - strings := by
  unfold score
  push_cast
  ring

theorem score_lt {strings m n : Nat} (h : m < n) : score strings n < score strings m := by
  induction n with
  | zero => omega
  | succ n ih =>
    rw [score_succ]
    rcases Nat.lt_succ_iff_lt_or_eq.mp h with h | rfl
    · have := ih h
      omega
    · omega

theorem count_hits (indexdb : List Item) (terms : List String) (goods : GoodsRef) :
    (hits indexdb terms).count goods = matchCount indexdb terms goods := by
  unfold hits matchCount
  rw [List.count_flatMap]
  congr 1
  refine List.map_congr_left fun term _ => ?_
  rw [Function.comp_apply, List.count_eq_countP, List.countP_map, equalRange, List.countP_filter]
  refine List.countP_congr fun item _ => ?_
  simp [and_comm]

theorem matchCount_perm (h : terms.Perm terms') (goods : GoodsRef) :
    matchCount indexdb terms goods = matchCount indexdb terms' goods :=
  (h.map _).sum_eq

theorem mem_matchingGoods {goods : GoodsRef} :
    goods ∈ matchingGoods indexdb terms ↔ 0 < matchCount indexdb terms goods := by
  rw [matchingGoods, Finset.mem_filter, List.mem_toFinset, and_iff_right_iff_imp]
  intro h
  rw [← count_hits, List.count_pos_iff] at h
  obtain ⟨term, _, hitem⟩ := List.mem_flatMap.mp h
  exact List.map_subset _ (List.filter_subset_self _) hitem

/-! ## The loops -/

/-- With a rank of one, the body is a hit on the target. -/
theorem addResult_eq {item : Item} (hitem : item.ranke = 1) (l : List (Ranked GoodsRef)) :
    addResult terms l item =
      hit (score terms.length 1) (fun old => old - (1 : Nat) - terms.length) l item.target := by
  have hfirst : (0 - (1 : Nat) : Int) = score terms.length 1 := by
    unfold score
    push_cast
    ring
  rw [addResult, hitem, hfirst, hit]
  cases push ⟨item.target, score terms.length 1⟩ l <;> rfl

theorem rankedResults_eq (hranks : ∀ item ∈ indexdb, item.ranke = 1) :
    rankedResults indexdb terms = (hits indexdb terms).foldl
      (hit (score terms.length 1) (fun old => old - (1 : Nat) - terms.length)) [] := by
  rw [hits, List.foldl_flatMap]
  unfold rankedResults
  congr 1
  funext l term
  rw [List.foldl_map]
  refine List.foldl_ext _ _ l fun l' item hitem => ?_
  exact addResult_eq (hranks item (List.mem_of_mem_filter hitem)) l'

/-- The container ranks the goods by their matches. -/
theorem rankedResults_byCount (hranks : ∀ item ∈ indexdb, item.ranke = 1) :
    ByCount (matchCount indexdb terms) ((rankedResults indexdb terms).map (·.ref)) := by
  rw [rankedResults_eq hranks]
  have htally : Tally (score terms.length) ([] ++ hits indexdb terms)
      ((hits indexdb terms).foldl
        (hit (score terms.length 1) fun old => old - (1 : Nat) - terms.length) []) :=
    Tally.foldl (fun n _ => score_succ terms.length n) _ (Tally.nil _)
  have hby := htally.byCount fun m n _ h => score_lt h
  simpa only [List.nil_append, count_hits] using hby

theorem searchGoods_eq (hterms : terms ≠ []) :
    searchGoods indexdb terms = some (((rankedResults indexdb terms).map (·.ref)).take 80) := by
  cases terms with
  | nil => exact absurd rfl hterms
  | cons term terms => rw [searchGoods, List.map_take]

/-! ## The ranks of the index -/

/-- All ranks are one, in the index and in what the tasks are about to add to it. -/
structure RanksOne (s : State) : Prop where
  index : ∀ item ∈ s.indexdb, item.ranke = 1
  tasks : ∀ t ∈ s.tasks, ∀ reload head products, t.phase = .update reload head products →
    ∀ item ∈ itemsOf products, item.ranke = 1

theorem itemsOf_ranke {goods : Oid → List (String × List String)} {merchant : Nat} {oid : Oid} :
    ∀ item ∈ itemsOf (getProducts goods merchant oid), item.ranke = 1 := by
  intro item hitem
  obtain ⟨p, hp, hitem⟩ := List.mem_flatMap.mp hitem
  obtain ⟨file, _, rfl⟩ := List.mem_map.mp hp
  obtain ⟨k, hk, rfl⟩ := List.mem_map.mp hitem
  obtain ⟨word, _, rfl⟩ := List.mem_map.mp hk
  rfl

theorem ranksOne_step {goods : Oid → List (String × List String)} {s : State} (h : RanksOne s)
    (st : Step) : RanksOne (step goods s st) := by
  cases st with
  | push merchant oid => exact ⟨h.index, h.tasks⟩
  | load merchant isGitRepo =>
    cases isGitRepo with
    | false => exact ⟨h.index, h.tasks⟩
    | true =>
      refine ⟨h.index, fun t ht reload head products hp => ?_⟩
      rcases List.mem_append.mp ht with ht | ht
      · exact h.tasks t ht reload head products hp
      · rw [List.mem_singleton.mp ht] at hp
        cases hp
  | advance n ok =>
    cases hn : s.tasks[n]? with
    | none =>
      simp only [step, hn]
      exact h
    | some t =>
      have hmem := List.mem_of_getElem? hn
      cases ok with
      | false =>
        simp only [step, hn]
        refine ⟨h.index, fun x hx reload head products hp => ?_⟩
        rcases mem_set_cases hx with rfl | hx
        · cases hp
        · exact h.tasks x hx reload head products hp
      | true =>
        simp only [step, hn, if_true]
        refine ⟨?_, fun x hx reload head products hp => ?_⟩
        · cases hphase : t.phase with
          | update reload head products =>
            intro item hitem
            rcases List.mem_append.mp hitem with hitem | hitem
            · cases reload with
              | false => exact h.index item hitem
              | true => exact h.index item (List.mem_of_mem_filter hitem)
            · exact h.tasks t hmem reload head products hphase item hitem
          | _ => exact h.index
        · rcases mem_set_cases hx with rfl | hx
          · obtain ⟨oid, rfl⟩ := nextPhase_update hp
            exact itemsOf_ranke
          · exact h.tasks x hx reload head products hp

/-- In every run, however pushes and reads are interleaved, the index has ranks of one. -/
theorem indexdb_ranks_one (goods : Oid → List (String × List String)) (commits : Nat → List Oid)
    (steps : List Step) :
    ∀ item ∈ (run (step goods) (State.start commits) steps).indexdb, item.ranke = 1 := by
  have hstart : RanksOne (State.start commits) := by
    constructor
    · intro item hitem
      cases hitem
    · intro t ht
      cases ht
  have hrun : ∀ (steps : List Step) (s : State), RanksOne s → RanksOne (run (step goods) s steps) := by
    intro steps
    induction steps with
    | nil => exact fun _ h => h
    | cons st steps ih => exact fun s h => ih _ (ranksOne_step h st)
  exact (hrun steps _ hstart).index

/-! ## The result -/

/-- As many goods match as the container holds. -/
theorem card_matchingGoods {keys : List GoodsRef} (h : ByCount (matchCount indexdb terms) keys) :
    (matchingGoods indexdb terms).card = keys.length := by
  rw [← List.toFinset_card_of_nodup h.nodup]
  congr 1
  ext goods
  rw [mem_matchingGoods, List.mem_toFinset, h.mem]

theorem ranks_take {keys : List GoodsRef} (h : ByCount (matchCount indexdb terms) keys) :
    Ranks indexdb terms (keys.take 80) where
  atMost := List.length_take_le 80 keys
  nodup := h.nodup.sublist (List.take_sublist 80 keys)
  matching := fun goods hg => (h.mem goods).mp (List.mem_of_mem_take hg)
  complete := by
    intro hcard goods hg
    rw [card_matchingGoods h] at hcard
    rw [List.take_of_length_le hcard]
    exact (h.mem goods).mpr hg
  sorted := h.sorted.sublist (List.take_sublist 80 keys)
  leftOut := by
    intro a ha b hb
    rcases Nat.eq_zero_or_pos (matchCount indexdb terms b) with hzero | hpos
    · rw [hzero]
      exact Nat.zero_le _
    · exact h.left_out ha hpos hb

theorem sameUpToTies_take {keys keys' : List GoodsRef}
    (h : ByCount (matchCount indexdb terms) keys) (h' : ByCount (matchCount indexdb terms) keys') :
    SameUpToTies indexdb terms (keys.take 80) (keys'.take 80) where
  counts := by rw [List.map_take, List.map_take, h.map_eq h']
  aboveLeast := fun _ ha _ hb hlt => h.above_least h' ha hb hlt
  perm := by
    intro hcard
    have hlen := hcard
    rw [card_matchingGoods h] at hcard
    rw [card_matchingGoods h'] at hlen
    rw [List.take_of_length_le hcard, List.take_of_length_le hlen]
    exact h.perm h'

/-- The goods with the most matches, in any order of the search strings: among goods with the
least count that is returned, the order may decide which the limit keeps. -/
theorem search_ranks_by_matches (indexdb : List Item) (terms terms' : List String)
    (hranks : ∀ item ∈ indexdb, item.ranke = 1) (hterms : terms ≠ []) (hperm : terms.Perm terms') :
    ∃ result result', searchGoods indexdb terms = some result ∧
      searchGoods indexdb terms' = some result' ∧
      Ranks indexdb terms result ∧ SameUpToTies indexdb terms result result' := by
  have hterms' : terms' ≠ [] := by
    rintro rfl
    exact hterms hperm.eq_nil
  have hby : ByCount (matchCount indexdb terms) ((rankedResults indexdb terms).map (·.ref)) :=
    rankedResults_byCount hranks
  have hby' : ByCount (matchCount indexdb terms') ((rankedResults indexdb terms').map (·.ref)) :=
    rankedResults_byCount hranks
  have hcount : matchCount indexdb terms' = matchCount indexdb terms := by
    funext goods
    exact (matchCount_perm hperm goods).symm
  rw [hcount] at hby'
  exact ⟨_, _, searchGoods_eq hterms, searchGoods_eq hterms', ranks_take hby,
    sameUpToTies_take hby hby'⟩

/-- One goods with the keyword `a`, and eighty with the keyword `b`. -/
def tied : List Item :=
  ⟨"a", 1, 0, "tea"⟩ :: (List.range 80).map fun i => ⟨"b", 1, i + 1, "tea"⟩

theorem tied_ranks : ∃ result result', searchGoods tied ["a", "b"] = some result ∧
    searchGoods tied ["b", "a"] = some result' ∧
    Ranks tied ["a", "b"] result ∧ SameUpToTies tied ["a", "b"] result result' :=
  search_ranks_by_matches tied ["a", "b"] ["b", "a"] (by decide) (by decide) (by decide)

/-- All of them match once, and the limit keeps those that are found first. -/
theorem order_decides_ties : (∀ item ∈ tied, item.ranke = 1) ∧
    ∃ result result', searchGoods tied ["a", "b"] = some result ∧
      searchGoods tied ["b", "a"] = some result' ∧
      (⟨0, "tea"⟩ : GoodsRef) ∈ result ∧ (⟨0, "tea"⟩ : GoodsRef) ∉ result' ∧
      ¬result.Perm result' := by
  have hin : (⟨0, "tea"⟩ : GoodsRef) ∈
      ((rankedResults tied ["a", "b"]).map (·.ref)).take 80 := by decide +kernel
  have hout : (⟨0, "tea"⟩ : GoodsRef) ∉
      ((rankedResults tied ["b", "a"]).map (·.ref)).take 80 := by decide +kernel
  exact ⟨by decide, _, _, searchGoods_eq (by decide), searchGoods_eq (by decide), hin, hout,
    fun hperm => hout (hperm.mem_iff.mp hin)⟩

end Cmall.Search
