import Cmall.TimedMap

/-!
The expiry of verification codes.

`get` looks at no time: an entry is gone once the loop has erased it. A `put` for a key that
has an entry is lost. As long as no entry is read after its time and no `put` meets an entry
of another value, what is read is the latest value put.
-/

namespace Cmall.Utility

variable {κ ν : Type} [DecidableEq κ]

/-- The value that an event puts for a key, and the time. -/
def Event.putFor (k : κ) (e : Event κ ν) : Option (ν × Int) :=
  match e.step with
  | .put k' v => if k' = k then some (v, e.time) else none
  | _ => none

/-- The latest `put` of a key. -/
def latestPut (k : κ) (events : List (Event κ ν)) : Option (ν × Int) :=
  (events.filterMap (Event.putFor k)).getLast?

/-- Every `get` of the run that gives a value gives the one put latest, and that at most
`lifetime` ago. -/
def GetsFresh (lifetime : Int) (s : State κ ν) (events : List (Event κ ν)) : Prop :=
  ∀ before now k after, events = before ++ ⟨now, .get k⟩ :: after →
    ∀ v, (Transition.run (step lifetime) s before).map.get k = some v →
      ∃ t, latestPut k before = some (v, t) ∧ now - t ≤ lifetime

/-- A `put` meets no entry of another value, and a `get` no entry that is too old. -/
def InTime (lifetime : Int) (s : State κ ν) (e : Event κ ν) : Prop :=
  match e.step with
  | .put k v => ∀ w, s.map.get k = some w → w = v
  | .get k => ∀ item ∈ s.map.stor, item.key = k → e.time - item.insertTime ≤ lifetime
  | .pruge => True

/-! ## The latest put -/

section LatestPut

variable {k k' : κ} {e : Event κ ν}

theorem putFor_put_self (v : ν) (now : Int) :
    Event.putFor k ⟨now, .put k v⟩ = some (v, now) := if_pos rfl

theorem putFor_put_ne (h : k' ≠ k) (v : ν) (now : Int) :
    Event.putFor k ⟨now, .put k' v⟩ = none := if_neg h

theorem latestPut_append_some {p : ν × Int} (h : e.putFor k = some p)
    (events : List (Event κ ν)) : latestPut k (events ++ [e]) = some p := by
  simp [latestPut, h]

theorem latestPut_append_none (h : e.putFor k = none) (events : List (Event κ ν)) :
    latestPut k (events ++ [e]) = latestPut k events := by
  simp [latestPut, h]

end LatestPut

/-! ## What a step keeps -/

/-- An entry holds the value put latest, and is not younger than that. -/
structure Entry (events : List (Event κ ν)) (s : State κ ν) : Prop where
  latest : ∀ item ∈ s.map.stor, ∃ t, latestPut item.key events = some (item.value, t) ∧
    item.insertTime ≤ t
  past : ∀ item ∈ s.map.stor, item.insertTime ≤ s.clock

theorem entry_step {lifetime : Int} (events : List (Event κ ν)) (s : State κ ν) (e : Event κ ν)
    (h : Entry events s) (hok : Legal s e ∧ InTime lifetime s e) :
    Entry (events ++ [e]) (step lifetime s e) := by
  obtain ⟨hlegal, hok⟩ := hok
  have hpast : ∀ item ∈ s.map.stor, item.insertTime ≤ e.time := fun item hitem =>
    Int.le_trans (h.past item hitem) hlegal.clock
  obtain ⟨now, what⟩ := e
  cases what with
  | put k v =>
    constructor
    · intro item hitem
      rcases TimedMap.mem_put.mp hitem with hold | ⟨-, rfl⟩
      · by_cases hkey : k = item.key
        · -- the entry stays, and it has the value that is put
          have hvalue := hok item.value (TimedMap.get_eq_some_iff.mpr ⟨item, hold, hkey.symm, rfl⟩)
          rw [hvalue, ← hkey]
          exact ⟨now, latestPut_append_some (putFor_put_self v now) events, hpast item hold⟩
        · rw [latestPut_append_none (putFor_put_ne hkey v now)]
          exact h.latest item hold
      · exact ⟨now, latestPut_append_some (putFor_put_self v now) events, Int.le_refl now⟩
    · intro item hitem
      rcases TimedMap.mem_put.mp hitem with hold | ⟨-, rfl⟩
      · exact hpast item hold
      · exact Int.le_refl now
  | get k =>
    constructor
    · intro item hitem
      rw [latestPut_append_none rfl]
      exact h.latest item hitem
    · exact hpast
  | pruge =>
    constructor
    · intro item hitem
      rw [latestPut_append_none rfl]
      exact h.latest item (TimedMap.mem_prune.mp hitem).1
    · intro item hitem
      exact hpast item (TimedMap.mem_prune.mp hitem).1

theorem entry_start (now : Int) : Entry ([] : List (Event κ ν)) (.start now) where
  latest _ hitem := absurd hitem List.not_mem_nil
  past _ hitem := absurd hitem List.not_mem_nil

/-- A `get` of a run whose steps are in time gives the value put latest. -/
theorem get_latest {lifetime start now : Int} {k : κ} {v : ν} {before after : List (Event κ ν)}
    (h : Transition.Meets (step lifetime) (fun s e => Legal s e ∧ InTime lifetime s e)
      (.start start) (before ++ ⟨now, .get k⟩ :: after))
    (hv : (Transition.run (step lifetime) (.start start) before).map.get k = some v) :
    ∃ t, latestPut k before = some (v, t) ∧ now - t ≤ lifetime := by
  rw [Transition.Meets.append_iff] at h
  obtain ⟨hbefore, ⟨-, hget⟩, -⟩ := h
  have hentry : Entry before (Transition.run (step lifetime) (.start start) before) :=
    hbefore.history_invariant entry_step (entry_start start)
  obtain ⟨item, hitem, rfl, rfl⟩ := TimedMap.get_eq_some_iff.mp hv
  obtain ⟨t, hlatest, hle⟩ := hentry.latest item hitem
  have hage : now - item.insertTime ≤ lifetime := hget item hitem rfl
  exact ⟨t, hlatest, by omega⟩

/-- A code that is accepted is the one sent latest for its session, at most five minutes ago. -/
theorem accepted_code {start now : Int} {code session : String}
    {before after : List (Event String String)}
    (h : Transition.Meets (step verifyCodeLifetime)
      (fun s e => Legal s e ∧ InTime verifyCodeLifetime s e)
      (.start start) (before ++ ⟨now, .get session⟩ :: after))
    (haccepted : verifyVerifyCode (Transition.run (step verifyCodeLifetime) (.start start) before).map
      code session = true) :
    ∃ t, latestPut session before = some (code, t) ∧ now - t ≤ verifyCodeLifetime :=
  get_latest h (of_decide_eq_true haccepted)

/-- A code sent right after the start, the turns of the loop, and a login after the five
minutes. -/
def lateLogin : List (Event String String) :=
  [⟨0, .pruge⟩, ⟨1, .put "session" "1234"⟩] ++
    ((List.range 10).map fun i => ⟨30000 * (i + 1), .pruge⟩) ++ [⟨300002, .get "session"⟩]

section Decide

variable [DecidableEq ν] (lifetime : Int) (s : State κ ν) (e : Event κ ν)

instance : Decidable (Legal s e) :=
  decidable_of_iff (s.clock ≤ e.time ∧ (e.step = .pruge → s.wake ≤ e.time))
    ⟨fun h => ⟨h.1, h.2⟩, fun h => ⟨h.1, h.2⟩⟩

instance : Decidable (InTime lifetime s e) :=
  match e with
  | ⟨_, .put k v⟩ => decidable_of_iff (∀ w ∈ s.map.get k, w = v) Iff.rfl
  | ⟨now, .get k⟩ =>
    List.decidableBAll (fun item : Item κ ν => item.key = k → now - item.insertTime ≤ lifetime) s.map.stor
  | ⟨_, .pruge⟩ => isTrue trivial

end Decide

end Cmall.Utility
