import Cmall.Transition
import Mathlib.Data.List.Nodup

/-!
`timedmap.hpp`: a map whose entries are to live for a given time, and the coroutine that
erases the old ones.

Times are milliseconds. The two indices are queries on the list of the items; no two items
have one key.
-/

namespace Cmall.Utility

variable {κ ν : Type}

/-- `container_item_type`. -/
structure Item (κ ν : Type) where
  key : κ
  value : ν
  insertTime : Int
  deriving DecidableEq, Repr

structure TimedMap (κ ν : Type) where
  stor : List (Item κ ν)
  unique : (stor.map Item.key).Nodup

def TimedMap.empty : TimedMap κ ν := ⟨[], List.nodup_nil⟩

section Operations

variable [DecidableEq κ]

def TimedMap.find (m : TimedMap κ ν) (k : κ) : Option (Item κ ν) :=
  m.stor.find? fun item => item.key = k

def TimedMap.get (m : TimedMap κ ν) (k : κ) : Option ν := (m.find k).map Item.value

/-- The insertion does nothing when there is an item of the key. -/
def TimedMap.put (m : TimedMap κ ν) (k : κ) (v : ν) (now : Int) : TimedMap κ ν :=
  if h : k ∈ m.stor.map Item.key then m
  else {
    stor := m.stor ++ [⟨k, v, now⟩]
    unique := by
      rw [List.map_append, List.map_singleton]
      exact List.nodup_append.mpr ⟨m.unique, List.nodup_singleton k, fun x hx y hy hxy =>
        have hy' : y = k := List.mem_singleton.mp hy
        h (by rwa [← hy', ← hxy])⟩ }

end Operations

/-- What the loop erases: up to `upper_bound(pruge_time)`. -/
def TimedMap.old (m : TimedMap κ ν) (prugeTime : Int) : List (Item κ ν) :=
  m.stor.filter fun item => item.insertTime ≤ prugeTime

def TimedMap.prune (m : TimedMap κ ν) (prugeTime : Int) : TimedMap κ ν where
  stor := m.stor.filter fun item => ¬ item.insertTime ≤ prugeTime
  unique := m.unique.sublist (List.filter_sublist.map Item.key)

/-- What the loop then sleeps: the time of the last item that is erased, which is the one with
the latest time, counted from `pruge_time`. -/
def TimedMap.diff (m : TimedMap κ ν) (prugeTime : Int) : Int :=
  match ((m.old prugeTime).map Item.insertTime).max? with
  | some last => last - prugeTime
  | none => 30000

/-! ## Runs -/

inductive Step (κ ν : Type) where
  | put (k : κ) (v : ν)
  | get (k : κ)
  /-- One turn of the loop of `pruge_thread`. -/
  | pruge
  deriving DecidableEq, Repr

structure Event (κ ν : Type) where
  time : Int
  step : Step κ ν
  deriving DecidableEq, Repr

structure State (κ ν : Type) where
  map : TimedMap κ ν
  clock : Int
  /-- The timer of the loop. -/
  wake : Int

/-- The map is made, and the loop has not run. -/
def State.start (now : Int) : State κ ν := ⟨.empty, now, now⟩

/-- Time does not run backwards, and the loop sleeps until its timer expires. -/
structure Legal (s : State κ ν) (e : Event κ ν) : Prop where
  clock : s.clock ≤ e.time
  wake : e.step = .pruge → s.wake ≤ e.time

variable [DecidableEq κ]

def step (lifetime : Int) (s : State κ ν) (e : Event κ ν) : State κ ν :=
  match e.step with
  | .put k v => { s with map := s.map.put k v e.time, clock := e.time }
  | .get _ => { s with clock := e.time }
  | .pruge => {
      map := s.map.prune (e.time - lifetime)
      clock := e.time
      wake := e.time + s.map.diff (e.time - lifetime) }

/-! ## The operations on the map -/

section Lemmas

variable {m : TimedMap κ ν} {k : κ} {v : ν} {item : Item κ ν} {now prugeTime : Int}

theorem TimedMap.find_eq_some_iff : m.find k = some item ↔ item ∈ m.stor ∧ item.key = k := by
  constructor
  · intro h
    exact ⟨List.mem_of_find?_eq_some h, by simpa using List.find?_some h⟩
  · rintro ⟨hmem, rfl⟩
    cases h : m.find item.key with
    | none => simpa using List.find?_eq_none.mp h item hmem
    | some other =>
      have hkey : other.key = item.key := by simpa using List.find?_some h
      rw [List.inj_on_of_nodup_map m.unique (List.mem_of_find?_eq_some h) hmem hkey]

theorem TimedMap.get_eq_some_iff :
    m.get k = some v ↔ ∃ item ∈ m.stor, item.key = k ∧ item.value = v := by
  simp only [TimedMap.get, Option.map_eq_some_iff, TimedMap.find_eq_some_iff, and_assoc]

theorem TimedMap.get_eq_none_iff : m.get k = none ↔ k ∉ m.stor.map Item.key := by
  simp [TimedMap.get, TimedMap.find]

theorem TimedMap.mem_put : item ∈ (m.put k v now).stor ↔
    item ∈ m.stor ∨ m.get k = none ∧ item = ⟨k, v, now⟩ := by
  rw [TimedMap.get_eq_none_iff, TimedMap.put]
  by_cases h : k ∈ m.stor.map Item.key
  · rw [dif_pos h]
    exact (or_iff_left fun hno => hno.1 h).symm
  · rw [dif_neg h, List.mem_append, List.mem_singleton, and_iff_right h]

omit [DecidableEq κ] in
theorem TimedMap.mem_prune : item ∈ (m.prune prugeTime).stor ↔
    item ∈ m.stor ∧ prugeTime < item.insertTime := by
  simp [TimedMap.prune]

end Lemmas

/-! ## The verification codes -/

/-- Five minutes. -/
def verifyCodeLifetime : Int := 5 * 60 * 1000

/-- `verify_verify_code`. -/
def verifyVerifyCode (stor : TimedMap String String) (verifyCode verifySession : String) : Bool :=
  stor.get verifySession = some verifyCode

end Cmall.Utility
