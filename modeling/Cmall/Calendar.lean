import Mathlib.Data.Int.Basic
import Mathlib.Tactic.IntervalCases

/-!
The civil calendar: days since 1 January 1970.

Days are counted through blocks, the years and the months of a year. `start` is where a block
begins and `locate` finds the block of a day. The leap years repeat after 400 years.
-/

namespace Calendar

/-! ## Blocks -/

/-- The days before the block `n`. -/
def start (len : Nat → Nat) : Nat → Nat
  | 0 => 0
  | n + 1 => start len n + len n

/-- The block of a day that is counted from the block `n` on, and the day in it. -/
def locateFrom (len : Nat → Nat) : Nat → Nat → Nat → Nat × Nat
  | 0, n, day => (n, day)
  | fuel + 1, n, day =>
    if day < len n then (n, day) else locateFrom len fuel (n + 1) (day - len n)

def locate (len : Nat → Nat) (day : Nat) : Nat × Nat := locateFrom len day 0 day

section Blocks

variable {len : Nat → Nat}

theorem locateFrom_spec (hpos : ∀ n, 0 < len n) {fuel : Nat} (n : Nat) {day : Nat}
    (h : day ≤ fuel) :
    start len n + day =
        start len (locateFrom len fuel n day).1 + (locateFrom len fuel n day).2 ∧
      (locateFrom len fuel n day).2 < len (locateFrom len fuel n day).1 := by
  induction fuel generalizing n day with
  | zero =>
    have := hpos n
    exact ⟨rfl, by show day < len n; omega⟩
  | succ fuel ih =>
    have := hpos n
    by_cases hday : day < len n
    · rw [locateFrom, if_pos hday]
      exact ⟨rfl, hday⟩
    · rw [locateFrom, if_neg hday]
      have hih := @ih (n + 1) (day - len n) (by omega)
      rw [start] at hih
      exact ⟨by omega, hih.2⟩

theorem locate_spec (hpos : ∀ n, 0 < len n) (day : Nat) :
    day = start len (locate len day).1 + (locate len day).2 ∧
      (locate len day).2 < len (locate len day).1 := by
  have hspec := locateFrom_spec hpos 0 (Nat.le_refl day)
  rw [start, Nat.zero_add] at hspec
  exact hspec

theorem start_mono {m n : Nat} (h : m ≤ n) : start len m ≤ start len n := by
  induction n with
  | zero =>
    obtain rfl : m = 0 := by omega
    rfl
  | succ n ih =>
    rcases Nat.lt_or_eq_of_le h with h | rfl
    · have := ih (by omega)
      rw [start]
      omega
    · rfl

/-- The days before the block `n` are in the blocks before it. -/
theorem locate_lt_iff (hpos : ∀ n, 0 < len n) {day n : Nat} :
    (locate len day).1 < n ↔ day < start len n := by
  have hspec := locate_spec hpos day
  constructor
  · intro hn
    have := @start_mono len _ _ hn
    rw [Nat.succ_eq_add_one, start] at this
    omega
  · intro hday
    by_contra hn
    have := @start_mono len _ _ (not_lt.mp hn)
    omega

end Blocks

/-! ## Years and months -/

def isLeap (year : Int) : Bool := year % 4 = 0 ∧ (year % 100 ≠ 0 ∨ year % 400 = 0)

/-- The length of the year 1970 + `n`. -/
def yearLength (n : Nat) : Nat := if isLeap (1970 + n) then 366 else 365

/-- The days of a month, January being month 0. -/
def monthLength (year : Int) : Nat → Nat
  | 1 => if isLeap year then 29 else 28
  | 3 | 5 | 8 | 10 => 30
  | _ => 31

theorem yearLength_pos (n : Nat) : 0 < yearLength n := by
  unfold yearLength
  split <;> omega

theorem monthLength_pos (year : Int) (month : Nat) : 0 < monthLength year month := by
  unfold monthLength
  split
  · split <;> omega
  · omega
  · omega
  · omega
  · omega
  · omega

theorem monthLength_le (year : Int) (month : Nat) : monthLength year month ≤ 31 := by
  unfold monthLength
  split
  · split <;> omega
  · omega
  · omega
  · omega
  · omega
  · omega

/-- The days before a month of a year. -/
theorem start_monthLength (year : Int) {month : Nat} (h : month ≤ 12) :
    start (monthLength year) month =
      [0, 31, 59, 90, 120, 151, 181, 212, 243, 273, 304, 334, 365].getD month 0 +
        if 2 ≤ month ∧ isLeap year then 1 else 0 := by
  cases hleap : isLeap year <;> interval_cases month <;> simp [start, monthLength, hleap]

/-- The leap years up to a year, since the year 0. -/
def leapYears (year : Int) : Int := year / 4 - year / 100 + year / 400

theorem leapYears_succ (year : Int) :
    leapYears (year + 1) = leapYears year + if isLeap (year + 1) then 1 else 0 := by
  unfold leapYears isLeap
  by_cases hleap : (year + 1) % 4 = 0 ∧ ((year + 1) % 100 ≠ 0 ∨ (year + 1) % 400 = 0)
  · rw [if_pos (decide_eq_true hleap)]
    omega
  · rw [if_neg (by simpa using hleap)]
    omega

theorem start_yearLength (n : Nat) :
    (start yearLength n : Int) = n * 365 + leapYears (1969 + n) - leapYears 1969 := by
  induction n with
  | zero => rfl
  | succ n ih =>
    have hleap := leapYears_succ (1969 + n)
    have hyear : (1969 + n + 1 : Int) = 1970 + n := by omega
    rw [hyear] at hleap
    rw [start, yearLength]
    push_cast
    rw [ih, show (1969 + (n + 1) : Int) = 1970 + n by omega, hleap]
    cases isLeap (1970 + n) <;> simp <;> omega

theorem start_yearLength_cycle : start yearLength 400 = 146097 := by
  have h := start_yearLength 400
  have hleap : leapYears (1969 + (400 : Nat)) - leapYears 1969 = 97 := by decide
  omega

theorem isLeap_cycle (year cycle : Int) : isLeap (year + 400 * cycle) = isLeap year := by
  unfold isLeap
  congr 1
  refine propext ?_
  omega

/-! ## Dates -/

/-- A day of the calendar: January is month 0, and the first day of a month is day 1. -/
structure Date where
  year : Int
  month : Nat
  day : Nat
  monthValid : month < 12
  dayValid : 1 ≤ day ∧ day ≤ monthLength year month

/-- The days from 1 January 1970 to the first of a month. -/
def monthStart (year : Int) (month : Nat) : Int :=
  (year - 1970) / 400 * 146097 + start yearLength ((year - 1970) % 400).toNat +
    start (monthLength year) month

def Date.dayNumber (date : Date) : Int := monthStart date.year date.month + (date.day - 1)

theorem locate_year_lt (day : Int) :
    (locate yearLength (day % 146097).toNat).1 < 400 := by
  rw [locate_lt_iff yearLength_pos]
  rw [start_yearLength_cycle]
  omega

theorem locate_month_lt (day : Int) :
    (locate (monthLength (1970 + 400 * (day / 146097) +
      (locate yearLength (day % 146097).toNat).1))
      (locate yearLength (day % 146097).toNat).2).1 < 12 := by
  have hspec := (locate_spec yearLength_pos (day % 146097).toNat).2
  generalize locate yearLength (day % 146097).toNat = at_ at hspec ⊢
  rw [locate_lt_iff (monthLength_pos _)]
  refine hspec.trans_eq ?_
  have hleap := isLeap_cycle (1970 + at_.1) (day / 146097)
  rw [show (1970 + at_.1 + 400 * (day / 146097) : Int) =
    1970 + 400 * (day / 146097) + at_.1 by omega] at hleap
  rw [start_monthLength _ (Nat.le_refl 12), yearLength, hleap]
  cases isLeap (1970 + at_.1) <;> rfl

/-- The date of a day. -/
def ofDayNumber (day : Int) : Date :=
  let year := locate yearLength (day % 146097).toNat
  let month := locate (monthLength (1970 + 400 * (day / 146097) + year.1)) year.2
  { year := 1970 + 400 * (day / 146097) + year.1
    month := month.1
    day := month.2 + 1
    monthValid := locate_month_lt day
    dayValid := ⟨Nat.le_add_left 1 month.2, (locate_spec (monthLength_pos _) year.2).2⟩ }

theorem dayNumber_ofDayNumber (day : Int) : (ofDayNumber day).dayNumber = day := by
  have hyear := locate_spec yearLength_pos (day % 146097).toNat
  have hlt := locate_year_lt day
  have hmonth := locate_spec
    (monthLength_pos (1970 + 400 * (day / 146097) + (locate yearLength (day % 146097).toNat).1))
    (locate yearLength (day % 146097).toNat).2
  unfold Date.dayNumber monthStart ofDayNumber
  simp only
  generalize locate yearLength (day % 146097).toNat = year at hyear hlt hmonth ⊢
  generalize locate (monthLength (1970 + 400 * (day / 146097) + year.1)) year.2 = month at hmonth ⊢
  have hcycle : (1970 + 400 * (day / 146097) + (year.1 : Int) - 1970) / 400 = day / 146097 := by
    omega
  have hrest : ((1970 + 400 * (day / 146097) + (year.1 : Int) - 1970) % 400).toNat = year.1 := by
    omega
  rw [hcycle, hrest]
  omega

/-- The year of a day of the first cycle. -/
theorem ofDayNumber_year_lt_iff {day : Int} (h₀ : 0 ≤ day) (h : day < 146097) (n : Nat) :
    (ofDayNumber day).year < 1970 + n ↔ day < start yearLength n := by
  have hcycle : day / 146097 = 0 := by omega
  have hlocate := @locate_lt_iff yearLength yearLength_pos (day % 146097).toNat n
  simp only [ofDayNumber, hcycle]
  omega

theorem le_ofDayNumber_year {day : Int} (h₀ : 0 ≤ day) : 1970 ≤ (ofDayNumber day).year := by
  simp only [ofDayNumber]
  omega

/-- The day number in the first cycle, by the leap years before the year. -/
theorem Date.dayNumber_eq (date : Date) (h : 1970 ≤ date.year ∧ date.year < 2370) :
    date.dayNumber = (date.year - 1970) * 365 + leapYears (date.year - 1) - leapYears 1969 +
      start (monthLength date.year) date.month + (date.day - 1) := by
  have hstart := start_yearLength ((date.year - 1970) % 400).toNat
  have hyear : ((((date.year - 1970) % 400).toNat : Nat) : Int) = date.year - 1970 := by omega
  rw [hyear, show 1969 + (date.year - 1970) = date.year - 1 by omega] at hstart
  have hcycle : (date.year - 1970) / 400 = 0 := by omega
  rw [Date.dayNumber, monthStart, hstart, hcycle]
  omega

end Calendar
