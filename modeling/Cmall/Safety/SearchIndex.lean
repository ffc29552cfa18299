import Cmall.SearchService

/-!
The search index agrees with the repository.

`HEAD` is read before the products, so the head that is recorded may be older than the
products that are indexed. As no commit is `HEAD` twice, a recorded head that still is
`HEAD` means that no push came between the two reads.
-/

namespace Cmall.Search
open Transition

variable {goods : Oid → List (String × List String)} {u : Nat}

theorem Oid.ext {a b : Oid} (h : a.sha1 = b.sha1) : a = b := by
  cases a
  cases b
  cases h
  rfl

/-- The pairs of goods id and keyword of a list of products. -/
def pairs (products : List Product) : List (String × String) :=
  products.flatMap fun p => p.keywords.map fun k => (p.productId, k.keyword)

/-- What the index is for. -/
structure IndexAgrees (goods : Oid → List (String × List String)) (u : Nat) (s : State) : Prop where
  agrees : ∀ oid, s.head u = some oid → s.cachedHead u = oid.sha1 →
    ((s.entries u).map fun item => (item.goodsId, item.keyWord)).Perm (pairs (getProducts goods u oid))
  others : ∀ n ok t, s.tasks[n]? = some t → t.merchant = u →
    ∀ v, v ≠ u → (step goods s (.advance n ok)).entries v = s.entries v

/-- The merchant is loaded once, and a push makes a commit `HEAD` that never was. -/
def LoadedOnce (u : Nat) (s : State) : Step → Prop
  | .load v isGitRepo => isGitRepo = true → v = u → ∀ t ∈ s.tasks, t.merchant ≠ u
  | .push v oid => v = u → oid ∉ s.commits u
  | .advance _ _ => True

/-! ## The invariant -/

/-- The task is in `add_merchant`. -/
def Phase.adds : Phase → Bool
  | .starting | .head false | .products false _ | .update false _ _ => true
  | _ => false

/-- What a task of the merchant has read: its head was `HEAD` once, and if it still is, the
products are those of `HEAD`. -/
def ReadOk (goods : Oid → List (String × List String)) (u : Nat) (s : State) : Phase → Prop
  | .products _ head => head ∈ s.commits u
  | .update _ head products =>
    head ∈ s.commits u ∧ (s.head u = some head → products = getProducts goods u head)
  | _ => True

structure Inv (goods : Oid → List (String × List String)) (u : Nat) (s : State) : Prop where
  /-- Products carry the merchant of the repository they come from. -/
  own : ∀ t ∈ s.tasks, ∀ reload head products, t.phase = .update reload head products →
    ∀ p ∈ products, p.merchantId = t.merchant
  once : ∀ (i j : Nat) (a b : Task), s.tasks[i]? = some a → s.tasks[j]? = some b → a.merchant = u →
    b.merchant = u → i = j
  /-- Before the products are added there are none. -/
  empty : (∀ t ∈ s.tasks, t.merchant = u → t.phase.adds = true) → s.entries u = []
  read : ∀ t ∈ s.tasks, t.merchant = u → ReadOk goods u s t.phase
  snap : s.cachedHead u = "" ∨ ∃ oid ∈ s.commits u, s.cachedHead u = oid.sha1
  agree : ∀ oid, s.head u = some oid → s.cachedHead u = oid.sha1 →
    s.entries u = itemsOf (getProducts goods u oid)

theorem inv_start (commits : Nat → List Oid) : Inv goods u (State.start commits) where
  own := fun t ht => by cases ht
  once := fun i j a b ha => by simp [State.start] at ha
  empty := fun _ => rfl
  read := fun t ht => by cases ht
  snap := .inl rfl
  agree := fun oid _ h => by
    have hd := oid.digits
    rw [show oid.sha1 = "" from h.symm] at hd
    cases hd

/-! ## The index -/

theorem getProducts_merchantId {oid : Oid} :
    ∀ p ∈ getProducts goods u oid, p.merchantId = u := by
  intro p hp
  obtain ⟨file, _, rfl⟩ := List.mem_map.mp hp
  rfl

theorem itemsOf_merchantId {products : List Product} {v : Nat}
    (h : ∀ p ∈ products, p.merchantId = v) : ∀ item ∈ itemsOf products, item.merchantId = v := by
  intro item hitem
  obtain ⟨p, hp, hitem⟩ := List.mem_flatMap.mp hitem
  obtain ⟨k, _, rfl⟩ := List.mem_map.mp hitem
  exact h p hp

/-- An update leaves the entries of other merchants alone. -/
theorem entries_update_of_ne (s : State) {merchant v : Nat} (reload : Bool) (head : Oid)
    {products : List Product} (h : ∀ p ∈ products, p.merchantId = merchant) (hv : v ≠ merchant) :
    (s.update merchant reload head products).entries v = s.entries v := by
  have hnew : (itemsOf products).filter (fun item => decide (item.merchantId = v)) = [] := by
    rw [List.filter_eq_nil_iff]
    intro item hitem
    rw [itemsOf_merchantId h item hitem]
    simpa using hv.symm
  have hkept : (s.indexdb.filter fun item => decide (item.merchantId ≠ merchant)).filter
      (fun item => decide (item.merchantId = v)) =
        s.indexdb.filter fun item => decide (item.merchantId = v) := by
    rw [List.filter_filter]
    apply List.filter_congr
    intro item _
    by_cases hi : item.merchantId = v
    · simp [hi, hv]
    · simp [hi]
  cases reload with
  | true => simp only [State.update, State.entries, List.filter_append, hnew, hkept, if_true,
      List.append_nil]
  | false => simp [State.update, State.entries, hnew]

/-- After an update the entries are the new ones, if there were none or they were erased. -/
theorem entries_update (s : State) {merchant : Nat} {reload : Bool} (head : Oid)
    {products : List Product} (h : ∀ p ∈ products, p.merchantId = merchant)
    (hempty : reload = false → s.entries merchant = []) :
    (s.update merchant reload head products).entries merchant = itemsOf products := by
  have hnew : (itemsOf products).filter (fun item => decide (item.merchantId = merchant)) =
      itemsOf products := by
    rw [List.filter_eq_self]
    intro item hitem
    simpa using itemsOf_merchantId h item hitem
  cases reload with
  | true =>
    have hkept : (s.indexdb.filter fun item => decide (item.merchantId ≠ merchant)).filter
        (fun item => decide (item.merchantId = merchant)) = [] := by
      rw [List.filter_filter, List.filter_eq_nil_iff]
      intro item _
      simp
    simp only [State.update, State.entries, List.filter_append, hnew, hkept, if_true,
      List.nil_append]
  | false =>
    have hnone : s.indexdb.filter (fun item => decide (item.merchantId = merchant)) = [] :=
      hempty rfl
    simp [State.update, State.entries, hnew, hnone]

theorem map_itemsOf (products : List Product) :
    (itemsOf products).map (fun item => (item.goodsId, item.keyWord)) = pairs products := by
  simp [itemsOf, pairs, List.map_flatMap, Function.comp_def]

/-! ## Steps -/

theorem mem_set_cases {l : List Task} {n : Nat} {t x : Task} (h : x ∈ l.set n t) :
    x = t ∨ x ∈ l := by
  rcases List.mem_or_eq_of_mem_set h with h | h
  · exact .inr h
  · exact .inl h

/-- A push: what was read before is no longer `HEAD`. -/
theorem inv_push {s : State} {v : Nat} {oid : Oid} (h : Inv goods u s)
    (hnew : v = u → oid ∉ s.commits u) : Inv goods u (step goods s (.push v oid)) := by
  by_cases hv : v = u
  · subst hv
    have hcommits : (step goods s (.push v oid)).commits v = oid :: s.commits v := by simp [step]
    have hhead : (step goods s (.push v oid)).head v = some oid := by simp [State.head, hcommits]
    have hold : ∀ o ∈ s.commits v, o ≠ oid := by
      rintro o ho rfl
      exact hnew rfl ho
    refine ⟨h.own, h.once, h.empty, fun t ht htu => ?_, ?_, fun o ho hcached => ?_⟩
    · have hread := h.read t ht htu
      cases hp : t.phase with
      | products reload head =>
        rw [hp] at hread
        show head ∈ (step goods s (.push v oid)).commits v
        rw [hcommits]
        exact List.mem_cons_of_mem _ hread
      | update reload head products =>
        rw [hp] at hread
        refine ⟨hcommits ▸ List.mem_cons_of_mem _ hread.1, fun he => ?_⟩
        rw [hhead] at he
        exact absurd (Option.some.inj he).symm (hold head hread.1)
      | _ => trivial
    · rcases h.snap with hsnap | ⟨o, ho, hsnap⟩
      · exact .inl hsnap
      · exact .inr ⟨o, hcommits ▸ List.mem_cons_of_mem _ ho, hsnap⟩
    · -- the recorded head is an earlier commit or none, so it is not the new one
      rw [hhead] at ho
      cases ho
      rcases h.snap with hsnap | ⟨o, ho, hsnap⟩
      · have hd := oid.digits
        rw [← hcached, show (step goods s (.push v oid)).cachedHead v = "" from hsnap] at hd
        cases hd
      · exact absurd (Oid.ext (hsnap.symm.trans hcached)) (hold o ho)
  · have hcommits : (step goods s (.push v oid)).commits u = s.commits u := by
      simp [step, Ne.symm hv]
    have hhead : (step goods s (.push v oid)).head u = s.head u := by simp [State.head, hcommits]
    refine ⟨h.own, h.once, h.empty, fun t ht htu => ?_, ?_, fun o ho => h.agree o (hhead ▸ ho)⟩
    · have hread := h.read t ht htu
      cases hp : t.phase with
      | products reload head =>
        rw [hp] at hread
        simpa [ReadOk, hcommits] using hread
      | update reload head products =>
        rw [hp] at hread
        simpa [ReadOk, hcommits, hhead] using hread
      | _ => trivial
    · rw [hcommits]
      exact h.snap

theorem inv_load {s : State} {v : Nat} {isGitRepo : Bool} (h : Inv goods u s)
    (honce : isGitRepo = true → v = u → ∀ t ∈ s.tasks, t.merchant ≠ u) :
    Inv goods u (step goods s (.load v isGitRepo)) := by
  cases isGitRepo with
  | false => exact ⟨h.own, h.once, h.empty, h.read, h.snap, h.agree⟩
  | true =>
    have hmem : ∀ t, t ∈ (step goods s (.load v true)).tasks → t ∈ s.tasks ∨ t = ⟨v, .starting⟩ := by
      intro t ht
      simpa [step] using ht
    refine ⟨fun t ht reload head products hp => ?_, fun i j a b ha hb hau hbu => ?_,
      fun hall => ?_, fun t ht htu => ?_, h.snap, h.agree⟩
    · rcases hmem t ht with ht | rfl
      · exact h.own t ht reload head products hp
      · cases hp
    · have htasks : (step goods s (.load v true)).tasks = s.tasks ++ [⟨v, .starting⟩] := rfl
      rw [htasks, List.getElem?_append] at ha hb
      split at ha <;> split at hb
      · exact h.once i j a b ha hb hau hbu
      · next _ _ =>
        have hbv : b = ⟨v, .starting⟩ := by
          rw [List.getElem?_singleton] at hb
          split at hb
          · exact (Option.some.inj hb).symm
          · cases hb
        subst hbv
        exact absurd hau (honce rfl hbu a (List.mem_of_getElem? ha))
      · have hav : a = ⟨v, .starting⟩ := by
          rw [List.getElem?_singleton] at ha
          split at ha
          · exact (Option.some.inj ha).symm
          · cases ha
        subst hav
        exact absurd hbu (honce rfl hau b (List.mem_of_getElem? hb))
      · rw [List.getElem?_singleton] at ha hb
        split at ha <;> split at hb
        · omega
        · cases hb
        · cases ha
        · cases ha
    · refine h.empty fun t ht htu => hall t ?_ htu
      simp [step, ht]
    · rcases hmem t ht with ht | rfl
      · exact h.read t ht htu
      · trivial

/-- A task that is still in `add_merchant` after a segment was in it before. -/
theorem adds_of_nextPhase {s : State} {v : Nat} {phase : Phase}
    (h : (nextPhase goods s v phase).adds = true) : phase.adds = true := by
  cases phase with
  | starting => rfl
  | head reload =>
    cases hh : s.head v with
    | none => simp [nextPhase, hh, Phase.adds] at h
    | some oid =>
      cases reload with
      | true => simp [nextPhase, hh, Phase.adds] at h
      | false => rfl
  | products reload head =>
    cases hh : s.head v with
    | none => simp [nextPhase, hh, Phase.adds] at h
    | some oid =>
      cases reload with
      | true => simp [nextPhase, hh, Phase.adds] at h
      | false => rfl
  | update reload head products => simp [nextPhase, Phase.adds] at h
  | sleeping => simp [nextPhase, Phase.adds] at h
  | checking cached =>
    cases hh : s.head v with
    | none => simp [nextPhase, hh, Phase.adds] at h
    | some oid =>
      simp only [nextPhase, hh] at h
      split at h <;> simp [Phase.adds] at h
  | ended => simp [nextPhase, Phase.adds] at h

/-- What a task of the merchant knows after a segment that reads. -/
theorem readOk_nextPhase {s : State} {phase : Phase} (h : ReadOk goods u s phase) :
    ReadOk goods u s (nextPhase goods s u phase) := by
  have hmem : ∀ oid, s.head u = some oid → oid ∈ s.commits u := fun oid => List.mem_of_mem_head?
  cases phase with
  | starting =>
    simp only [nextPhase]
    split <;> trivial
  | head reload =>
    cases hh : s.head u with
    | none => simp [nextPhase, hh, ReadOk]
    | some oid => simpa [nextPhase, hh, ReadOk] using hmem oid hh
  | products reload head =>
    cases hh : s.head u with
    | none => simp [nextPhase, hh, ReadOk]
    | some oid =>
      simp only [nextPhase, hh, ReadOk]
      refine ⟨h, fun he => ?_⟩
      rw [Option.some.inj he]
  | update reload head products => trivial
  | sleeping => trivial
  | checking cached =>
    cases hh : s.head u with
    | none => simp [nextPhase, hh, ReadOk]
    | some oid =>
      simp only [nextPhase, hh]
      split <;> trivial
  | ended => trivial

/-- The products a segment leaves for the update were read at a commit of its merchant. -/
theorem nextPhase_update {s : State} {v : Nat} {phase : Phase} {reload : Bool} {head : Oid}
    {products : List Product} (h : nextPhase goods s v phase = .update reload head products) :
    ∃ oid, products = getProducts goods v oid := by
  cases phase with
  | products reload' head' =>
    cases hh : s.head v with
    | none => simp [nextPhase, hh] at h
    | some oid =>
      simp only [nextPhase, hh, Phase.update.injEq] at h
      exact ⟨oid, h.2.2.symm⟩
  | starting =>
    simp only [nextPhase] at h
    split at h <;> cases h
  | head reload' =>
    cases hh : s.head v with
    | none => simp [nextPhase, hh] at h
    | some oid => simp [nextPhase, hh] at h
  | checking cached =>
    cases hh : s.head v with
    | none => simp [nextPhase, hh] at h
    | some oid =>
      simp only [nextPhase, hh] at h
      split at h <;> cases h
  | update _ _ _ => cases h
  | sleeping => cases h
  | ended => cases h

theorem own_nextPhase {s : State} {v : Nat} {phase : Phase} {reload : Bool} {head : Oid}
    {products : List Product} (h : nextPhase goods s v phase = .update reload head products) :
    ∀ p ∈ products, p.merchantId = v := by
  obtain ⟨oid, rfl⟩ := nextPhase_update h
  exact getProducts_merchantId

theorem commits_effect (s : State) (v : Nat) (phase : Phase) :
    (effect s v phase).commits = s.commits := by
  cases phase <;> rfl

/-- A segment of another merchant's task. -/
theorem entries_effect_of_ne {s : State} {v w : Nat} {phase : Phase}
    (hown : ∀ reload head products, phase = .update reload head products →
      ∀ p ∈ products, p.merchantId = v) (hw : w ≠ v) :
    (effect s v phase).entries w = s.entries w := by
  cases phase with
  | update reload head products =>
    exact entries_update_of_ne s reload head (hown reload head products rfl) hw
  | _ => rfl

/-- A task that goes on to `phase` while the index and the recorded heads become those of
`s'`. -/
theorem inv_set {s s' : State} {n : Nat} {t : Task} {phase : Phase} (h : Inv goods u s)
    (hn : s.tasks[n]? = some t) (htasks : s'.tasks = s.tasks.set n ⟨t.merchant, phase⟩)
    (hcommits : s'.commits = s.commits)
    (hown : ∀ reload head products, phase = .update reload head products →
      ∀ p ∈ products, p.merchantId = t.merchant)
    (hread : t.merchant = u → ReadOk goods u s phase)
    (hempty : (∀ x ∈ s'.tasks, x.merchant = u → x.phase.adds = true) → s'.entries u = [])
    (hsnap : s'.cachedHead u = "" ∨ ∃ oid ∈ s.commits u, s'.cachedHead u = oid.sha1)
    (hagree : ∀ oid, s.head u = some oid → s'.cachedHead u = oid.sha1 →
      s'.entries u = itemsOf (getProducts goods u oid)) : Inv goods u s' := by
  have hhead : s'.head u = s.head u := by rw [State.head, State.head, hcommits]
  -- the task in place `i` has the merchant it had
  have hmerchant : ∀ (i : Nat) (a : Task), s'.tasks[i]? = some a →
      ∃ b, s.tasks[i]? = some b ∧ b.merchant = a.merchant := by
    intro i a ha
    rw [htasks] at ha
    by_cases hi : n = i
    · subst hi
      rw [List.getElem?_set_self (List.getElem?_eq_some_iff.mp hn).1] at ha
      cases ha
      exact ⟨t, hn, rfl⟩
    · rw [List.getElem?_set_ne hi] at ha
      exact ⟨a, ha, rfl⟩
  have hread' : ∀ phase, ReadOk goods u s phase → ReadOk goods u s' phase := by
    intro phase hp
    cases phase with
    | products reload head => simpa [ReadOk, hcommits] using hp
    | update reload head products => simpa [ReadOk, hcommits, hhead] using hp
    | _ => trivial
  constructor
  · intro x hx reload head products hp
    rcases mem_set_cases (htasks ▸ hx) with rfl | hx
    · exact hown reload head products hp
    · exact h.own x hx reload head products hp
  · intro i j a b ha hb hau hbu
    obtain ⟨a', ha', hma⟩ := hmerchant i a ha
    obtain ⟨b', hb', hmb⟩ := hmerchant j b hb
    exact h.once i j a' b' ha' hb' (hma.trans hau) (hmb.trans hbu)
  · exact hempty
  · intro x hx hxu
    rcases mem_set_cases (htasks ▸ hx) with rfl | hx
    · exact hread' _ (hread hxu)
    · exact hread' _ (h.read x hx hxu)
  · rw [hcommits]
    exact hsnap
  · intro oid ho
    exact hagree oid (hhead ▸ ho)

/-- All tasks of the merchant are in `add_merchant` if this one is and the others are. -/
theorem empty_of_set {s : State} {n : Nat} {t : Task} {phase : Phase} (h : Inv goods u s)
    (hn : s.tasks[n]? = some t) (hadds : phase.adds = true → t.phase.adds = true)
    (hall : ∀ x ∈ s.tasks.set n ⟨t.merchant, phase⟩, x.merchant = u → x.phase.adds = true) :
    s.entries u = [] := by
  have hlt : n < s.tasks.length := (List.getElem?_eq_some_iff.mp hn).1
  refine h.empty fun x hx hxu => ?_
  obtain ⟨i, hi⟩ := List.mem_iff_getElem?.mp hx
  by_cases hin : i = n
  · subst hin
    rw [hn] at hi
    cases hi
    exact hadds (hall ⟨t.merchant, phase⟩ (List.mem_set hlt _) hxu)
  · refine hall x (List.mem_of_getElem? (i := i) ?_) hxu
    rw [List.getElem?_set_ne (Ne.symm hin)]
    exact hi

theorem inv_fail {s : State} {n : Nat} {t : Task} (h : Inv goods u s)
    (hn : s.tasks[n]? = some t) :
    Inv goods u { s with tasks := s.tasks.set n ⟨t.merchant, .ended⟩ } := by
  refine inv_set h hn rfl rfl (fun _ _ _ hp => by cases hp) (fun _ => trivial) (fun hall => ?_)
    h.snap h.agree
  have hnone : s.entries u = [] := empty_of_set h hn (fun hf => by cases hf) hall
  exact hnone

/-- The update of the merchant itself. -/
theorem inv_update {s : State} {n : Nat} {reload : Bool} {head : Oid} {products : List Product}
    (h : Inv goods u s) (hn : s.tasks[n]? = some ⟨u, .update reload head products⟩) :
    Inv goods u { s.update u reload head products with
      tasks := s.tasks.set n ⟨u, .sleeping⟩ } := by
  have hlt : n < s.tasks.length := (List.getElem?_eq_some_iff.mp hn).1
  have hmem := List.mem_of_getElem? hn
  obtain ⟨hhead, hproducts⟩ := h.read _ hmem rfl
  have hempty : reload = false → s.entries u = [] := by
    rintro rfl
    refine h.empty fun x hx hxu => ?_
    obtain ⟨i, hi⟩ := List.mem_iff_getElem?.mp hx
    have hin := h.once i n x _ hi hn hxu rfl
    subst hin
    rw [hn] at hi
    cases hi
    rfl
  have hentries : (s.update u reload head products).entries u = itemsOf products :=
    entries_update s head (h.own _ hmem reload head products rfl) hempty
  have hcached : (s.update u reload head products).cachedHead u = head.sha1 := by
    simp [State.update, State.cachedHead]
  refine inv_set h hn rfl rfl (fun _ _ _ hp => by cases hp) (fun _ => trivial) (fun hall => ?_)
    (.inr ⟨head, hhead, hcached⟩) fun oid ho hoid => ?_
  · have hfalse := hall ⟨u, .sleeping⟩ (List.mem_set hlt _) rfl
    cases hfalse
  · have heq : oid = head := Oid.ext (hoid.symm.trans hcached)
    subst heq
    rw [← hproducts ho]
    exact hentries

theorem inv_advance {s : State} {n : Nat} {ok : Bool} (h : Inv goods u s) :
    Inv goods u (step goods s (.advance n ok)) := by
  cases hn : s.tasks[n]? with
  | none => simpa [step, hn] using h
  | some t =>
    cases ok with
    | false => simpa [step, hn] using inv_fail h hn
    | true =>
      have hown := h.own t (List.mem_of_getElem? hn)
      by_cases hupdate : t.merchant = u ∧ ∃ reload head products, t.phase = .update reload head products
      · obtain ⟨rfl, reload, head, products, hp⟩ := hupdate
        obtain ⟨v, phase⟩ := t
        dsimp only at hp
        subst hp
        simpa [step, hn, effect, nextPhase] using inv_update h hn
      · -- the entries and the recorded head of the merchant stay
        have hentries : (effect s t.merchant t.phase).entries u = s.entries u := by
          by_cases htu : t.merchant = u
          · cases hp : t.phase with
            | update reload head products => exact absurd ⟨htu, reload, head, products, hp⟩ hupdate
            | _ => rfl
          · exact entries_effect_of_ne hown (Ne.symm htu)
        have hcached : (effect s t.merchant t.phase).cachedHead u = s.cachedHead u := by
          cases hp : t.phase with
          | update reload head products =>
            have htu : t.merchant ≠ u := fun htu => hupdate ⟨htu, reload, head, products, hp⟩
            simp [effect, State.update, State.cachedHead, Ne.symm htu]
          | _ => rfl
        simp only [step, hn, if_true]
        refine inv_set h hn rfl (commits_effect s t.merchant t.phase)
          (fun _ _ _ => own_nextPhase) (fun htu => ?_) (fun hall => ?_) ?_ fun oid ho hoid => ?_
        · rw [htu]
          exact readOk_nextPhase (h.read t (List.mem_of_getElem? hn) htu)
        · exact hentries.trans (empty_of_set h hn adds_of_nextPhase hall)
        · show (effect s t.merchant t.phase).cachedHead u = "" ∨
            ∃ oid ∈ s.commits u, (effect s t.merchant t.phase).cachedHead u = oid.sha1
          rw [hcached]
          exact h.snap
        · exact hentries.trans (h.agree oid ho (hcached.symm.trans hoid))

theorem inv_step {s : State} {l : Step} (h : Inv goods u s) (hl : LoadedOnce u s l) :
    Inv goods u (step goods s l) := by
  cases l with
  | push v oid => exact inv_push h hl
  | load v isGitRepo => exact inv_load h hl
  | advance n ok => exact inv_advance h

theorem Inv.indexAgrees {s : State} (h : Inv goods u s) : IndexAgrees goods u s := by
  constructor
  · intro oid hhead hcached
    rw [h.agree oid hhead hcached, map_itemsOf]
  · intro n ok t hn htu v hv
    cases ok with
    | false => simp [step, hn, State.entries]
    | true =>
      simp only [step, hn, if_true]
      exact entries_effect_of_ne (h.own t (List.mem_of_getElem? hn)) (htu.symm ▸ hv)

/-- Whatever the order of loads, polls and pushes: a merchant that is loaded once is indexed
as its repository stands whenever the recorded head is `HEAD`, and its tasks touch no other
merchant's entries. -/
theorem search_index_agrees (goods : Oid → List (String × List String)) (u : Nat)
    (commits : Nat → List Oid) {ls : List Step}
    (h : Meets (step goods) (LoadedOnce u) (State.start commits) ls) :
    IndexAgrees goods u (run (step goods) (State.start commits) ls) :=
  (h.invariant (fun _ _ => inv_step) (inv_start commits)).indexAgrees

/-- Two commits of a shop that sells one product, the second with a keyword more. -/
def firstCommit : Oid := ⟨"1111111111111111111111111111111111111111", by decide +kernel⟩
def secondCommit : Oid := ⟨"2222222222222222222222222222222222222222", by decide +kernel⟩

def teaShop (oid : Oid) : List (String × List String) :=
  if oid = firstCommit then [("tea", ["green"])] else [("tea", ["green", "black"])]

/-- The push comes between the two reads of `add_merchant`, and the next poll repairs it. -/
def teaRun : List Step :=
  [.load 7 true, .advance 0 true, .advance 0 true, .push 7 secondCommit, .advance 0 true,
    .advance 0 true, .advance 0 true, .advance 0 true, .advance 0 true, .advance 0 true,
    .advance 0 true]

theorem search_index_agrees_tea :
    (run (step teaShop) (State.start fun _ => [firstCommit]) teaRun).cachedHead 7 =
        secondCommit.sha1 ∧
      IndexAgrees teaShop 7 (run (step teaShop) (State.start fun _ => [firstCommit]) teaRun) := by
  have hne : firstCommit ≠ secondCommit := by decide +kernel
  refine ⟨by decide +kernel, search_index_agrees teaShop 7 (fun _ => [firstCommit]) ?_⟩
  simp [teaRun, Meets, LoadedOnce, step, State.start, effect, nextPhase, State.head, Ne.symm hne]

end Cmall.Search
