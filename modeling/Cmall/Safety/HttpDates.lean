import Cmall.HttpDate
import Mathlib

/-!
The parts of an HTTP date are read as they are written: names, numbers and the time.
-/

namespace Cmall.Httpd

/-! ## The pointer -/

/-- The text does not begin with a character of the class. -/
def Ends (p : Char → Bool) (rest : List Char) : Prop := ∀ c ∈ rest.head?, p c = false

theorem ends_cons {p : Char → Bool} {c : Char} {rest : List Char} (h : p c = false) :
    Ends p (c :: rest) := by
  intro x hx
  obtain rfl : c = x := by simpa using hx
  exact h

theorem takeWhile_token {p : Char → Bool} {token rest : List Char} (htoken : ∀ c ∈ token, p c = true)
    (hrest : Ends p rest) : (token ++ rest).takeWhile p = token := by
  rw [List.takeWhile_append_of_pos htoken]
  cases rest with
  | nil => exact List.append_nil token
  | cons c rest => rw [List.takeWhile_cons, hrest c rfl]; exact List.append_nil token

theorem Cursor.advance_append (back : Option Char) (token rest : List Char) :
    Cursor.advance ⟨back, token ++ rest⟩ token.length = ⟨token.getLast?.or back, rest⟩ := by
  simp [Cursor.advance]

theorem skip_append {separator rest : List Char} (back : Option Char)
    (hseparator : ∀ c ∈ separator, c.isAlphanum = false) (hrest : Ends (!·.isAlphanum) rest) :
    skip ⟨back, separator ++ rest⟩ = ⟨separator.getLast?.or back, rest⟩ := by
  unfold skip
  have hskipped : (separator ++ rest).takeWhile (fun x => !x.isAlphanum) = separator :=
    takeWhile_token (fun c hc => by rw [hseparator c hc]; rfl) hrest
  rw [hskipped]
  exact Cursor.advance_append back separator rest

theorem parts_succ {n : Nat} {p p' : Parts} {c c' : Cursor} (hc : c.date ≠ [])
    (h : part p c = some (p', c')) : parts (n + 1) p c = parts n p' c' := by
  rw [parts, if_neg hc, h]
  rfl

/-! ## Names -/

theorem not_isDigit_of_isAlpha {c : Char} (h : c.isAlpha = true) : c.isDigit = false := by
  simp only [Char.isAlpha, Char.isUpper, Char.isLower, Char.isDigit, Bool.or_eq_true,
    Bool.and_eq_true, decide_eq_true_eq, UInt32.le_iff_toNat_le, ge_iff_le] at h ⊢
  have : 'Z'.val.toNat = 90 := rfl
  have : '9'.val.toNat = 57 := rfl
  have : 'A'.val.toNat = 65 := rfl
  have : 'a'.val.toNat = 97 := rfl
  simp only [Bool.and_eq_false_iff, decide_eq_false_iff_not]
  omega

/-- A name that fits into the buffer. -/
structure IsName (buf : List Char) : Prop where
  alpha : ∀ c ∈ buf, c.isAlpha = true
  ne_nil : buf ≠ []
  length : buf.length ≤ 31

theorem parts_name {n : Nat} {p p' : Parts} {separator buf rest : List Char} (back : Option Char)
    (hseparator : ∀ c ∈ separator, c.isAlphanum = false) (hbuf : IsName buf)
    (hrest : Ends Char.isAlpha rest) (hnamed : p.named buf = some p') :
    parts (n + 1) p ⟨back, separator ++ (buf ++ rest)⟩ =
      parts n p' ⟨buf.getLast?.or (separator.getLast?.or back), rest⟩ := by
  refine parts_succ (by simp [hbuf.ne_nil]) ?_
  obtain ⟨hbuf, hne, hlength⟩ := hbuf
  obtain ⟨x, letters, rfl⟩ := List.exists_cons_of_ne_nil hne
  have hx : x.isAlpha = true := hbuf x List.mem_cons_self
  have hends : Ends (!·.isAlphanum) ((x :: letters) ++ rest) :=
    ends_cons (by simp [Char.isAlphanum, hx])
  unfold part
  rw [skip_append back hseparator hends]
  show (if x.isAlpha then name p _ else digit p _) = _
  rw [if_pos hx]
  unfold name
  show ((p.named ((((x :: letters) ++ rest).takeWhile Char.isAlpha).take 31)).map fun p =>
    (p, Cursor.advance _ ((((x :: letters) ++ rest).takeWhile Char.isAlpha).take 31).length)) = _
  rw [takeWhile_token hbuf hrest, List.take_of_length_le hlength, hnamed]
  show some (p', _) = _
  rw [Cursor.advance_append]

/-! ## Numbers -/

theorem isspace_of_isDigit {c : Char} (h : c.isDigit = true) : isspace c = false := by
  simp only [Char.isDigit, Bool.and_eq_true, decide_eq_true_eq, UInt32.le_iff_toNat_le,
    ge_iff_le] at h
  have : '0'.val.toNat = 48 := rfl
  have : '\r'.val.toNat = 13 := rfl
  have : ' '.val.toNat = 32 := rfl
  simp only [isspace, decide_eq_false_iff_not, Char.le_def, UInt32.le_iff_toNat_le]
  rintro (rfl | hc)
  · omega
  · omega

/-- Two digits and the number that they write. -/
theorem scan02d_append {a b : Char} (ha : a.isDigit = true) (hb : b.isDigit = true)
    (rest : List Char) :
    scan02d (a :: b :: rest) = some (((Nat.ofDigitChars 10 [a, b] 0 : Nat) : Int), rest) := by
  have hspace := isspace_of_isDigit ha
  unfold scan02d
  rw [List.dropWhile_cons_of_neg (by rw [hspace]; decide)]
  split
  · rename_i text h
    obtain ⟨rfl, -⟩ := List.cons.inj h
    exact absurd ha (by decide)
  · rename_i text h
    obtain ⟨rfl, -⟩ := List.cons.inj h
    exact absurd ha (by decide)
  · simp [scanDigits, ha, hb]

theorem sscanf_colon {a b : Char} (ha : a.isDigit = true) (hb : b.isDigit = true) (n : Nat)
    (rest : List Char) :
    sscanf (n + 1) (a :: b :: ':' :: rest) =
      ((Nat.ofDigitChars 10 [a, b] 0 : Nat) : Int) :: sscanf n rest := by
  rw [sscanf, scan02d_append ha hb]
  rfl

theorem sscanf_ends {a b : Char} (ha : a.isDigit = true) (hb : b.isDigit = true) (n : Nat)
    {rest : List Char} (hrest : Ends (· = ':') rest) :
    sscanf (n + 1) (a :: b :: rest) = [((Nat.ofDigitChars 10 [a, b] 0 : Nat) : Int)] := by
  rw [sscanf, scan02d_append ha hb]
  cases rest with
  | nil => rfl
  | cons c rest =>
    have hc : c ≠ ':' := by simpa using hrest c rfl
    split
    · contradiction
    · rename_i h
      simp only [Option.some.injEq, Prod.mk.injEq, List.cons.injEq] at h
      exact absurd h.2.1 hc
    · rename_i h
      simp only [Option.some.injEq, Prod.mk.injEq] at h
      rw [h.1]

theorem isAlpha_of_isDigit {c : Char} (h : c.isDigit = true) : c.isAlpha = false := by
  cases halpha : c.isAlpha with
  | false => rfl
  | true => rw [not_isDigit_of_isAlpha halpha] at h; contradiction

theorem part_digit {p : Parts} {x : Char} {separator rest : List Char} (back : Option Char)
    (hseparator : ∀ c ∈ separator, c.isAlphanum = false) (hx : x.isDigit = true) :
    part p ⟨back, separator ++ (x :: rest)⟩ =
      digit p ⟨separator.getLast?.or back, x :: rest⟩ := by
  have hends : Ends (!·.isAlphanum) (x :: rest) := ends_cons (by simp [Char.isAlphanum, hx])
  unfold part
  rw [skip_append back hseparator hends]
  show (if x.isAlpha then name p _ else digit p _) = _
  rw [isAlpha_of_isDigit hx]
  rfl

/-- A number that no colon follows is no time, but its first two digits are written to the hour. -/
theorem parts_number {n : Nat} {p p' : Parts} {a b : Char} {separator digits rest : List Char}
    (back : Option Char) (hseparator : ∀ c ∈ separator, c.isAlphanum = false)
    (hdigits : ∀ c ∈ a :: b :: digits, c.isDigit = true) (hrest : Ends Char.isDigit rest)
    (hcolon : Ends (· = ':') (digits ++ rest)) (hsec : p.secnum = -1)
    (hnumbered : { p with hournum := ((Nat.ofDigitChars 10 [a, b] 0 : Nat) : Int) }.numbered
      (separator.getLast?.or back) (a :: b :: digits) = some p') :
    parts (n + 1) p ⟨back, separator ++ ((a :: b :: digits) ++ rest)⟩ =
      parts n p' ⟨(a :: b :: digits).getLast?.or (separator.getLast?.or back), rest⟩ := by
  refine parts_succ (by simp) ?_
  have ha : a.isDigit = true := hdigits a (by simp)
  have hb : b.isDigit = true := hdigits b (by simp)
  have htoken : (a :: b :: (digits ++ rest)).takeWhile Char.isDigit = a :: b :: digits :=
    takeWhile_token hdigits hrest
  rw [List.cons_append, part_digit back hseparator ha]
  unfold digit
  rw [if_pos hsec]
  simp only [List.cons_append, sscanf_ends ha hb _ hcolon, List.length_singleton]
  rw [if_neg (by decide), if_neg (by decide)]
  unfold number
  simp only [htoken]
  rw [← Cursor.advance_append (separator.getLast?.or back) (a :: b :: digits) rest]
  exact congrArg (Option.map fun p => (p, Cursor.advance
    ⟨separator.getLast?.or back, (a :: b :: digits) ++ rest⟩ (a :: b :: digits).length)) hnumbered

theorem parts_time {n : Nat} {p : Parts} {h₁ h₂ m₁ m₂ s₁ s₂ : Char} {separator rest : List Char}
    (back : Option Char) (hseparator : ∀ c ∈ separator, c.isAlphanum = false)
    (hdigits : ∀ c ∈ [h₁, h₂, m₁, m₂, s₁, s₂], c.isDigit = true) (hrest : Ends (· = ':') rest)
    (hsec : p.secnum = -1) :
    parts (n + 1) p
        ⟨back, separator ++ ([h₁, h₂] ++ ':' :: ([m₁, m₂] ++ ':' :: ([s₁, s₂] ++ rest)))⟩ =
      parts n { p with
        hournum := (Nat.ofDigitChars 10 [h₁, h₂] 0 : Nat)
        minnum := (Nat.ofDigitChars 10 [m₁, m₂] 0 : Nat)
        secnum := (Nat.ofDigitChars 10 [s₁, s₂] 0 : Nat) } ⟨some s₂, rest⟩ := by
  refine parts_succ (by simp) ?_
  have hh₁ : h₁.isDigit = true := hdigits h₁ (by simp)
  have hh₂ : h₂.isDigit = true := hdigits h₂ (by simp)
  have hm₁ : m₁.isDigit = true := hdigits m₁ (by simp)
  have hm₂ : m₂.isDigit = true := hdigits m₂ (by simp)
  have hs₁ : s₁.isDigit = true := hdigits s₁ (by simp)
  have hs₂ : s₂.isDigit = true := hdigits s₂ (by simp)
  rw [List.cons_append, part_digit back hseparator hh₁]
  unfold digit
  rw [if_pos hsec]
  simp only [List.cons_append, List.nil_append, sscanf_colon hh₁ hh₂, sscanf_colon hm₁ hm₂, sscanf_ends hs₁ hs₂ _ hrest]
  rfl

/-! ## What is written -/

theorem twoDigits_eq {n : Int} (h₀ : 0 ≤ n) (h : n < 100) : ∃ a b, twoDigits n = [a, b] ∧
    (∀ x ∈ [a, b], x.isDigit = true) ∧ ((Nat.ofDigitChars 10 [a, b] 0 : Nat) : Int) = n := by
  refine ⟨_, _, rfl, ?_, ?_⟩
  · intro c hc
    simp only [List.mem_cons, List.not_mem_nil, or_false] at hc
    rcases hc with rfl | rfl
    · rw [Nat.isDigit_digitChar]
      exact decide_eq_true (Nat.mod_lt _ (by decide))
    · rw [Nat.isDigit_digitChar]
      exact decide_eq_true (Nat.mod_lt _ (by decide))
  · rw [Nat.ofDigitChars_cons_digitChar_of_lt_ten (Nat.mod_lt _ (by decide)),
      Nat.ofDigitChars_cons_digitChar_of_lt_ten (Nat.mod_lt _ (by decide)), Nat.ofDigitChars_nil]
    omega

/-- A year of four digits. -/
theorem year_digits {y : Int} (h₀ : 1000 ≤ y) (h : y ≤ 9999) :
    ∃ a b c d, (toString y).toList = [a, b, c, d] ∧
      (∀ x ∈ [a, b, c, d], x.isDigit = true) ∧
      ((Nat.ofDigitChars 10 [a, b, c, d] 0 : Nat) : Int) = y := by
  obtain ⟨n, rfl⟩ := Int.eq_ofNat_of_zero_le (show 0 ≤ y by omega)
  have htext : (toString (n : Int)).toList = Nat.toDigits 10 n := Nat.toList_repr
  have hle := (Nat.length_toDigits_le_iff (b := 10) (n := n) (k := 4) (by decide) (by decide)).mpr
    (by omega)
  have hgt := (Nat.length_toDigits_le_iff (b := 10) (n := n) (k := 3) (by decide) (by decide)).not.mpr
    (by omega)
  have hdigits : ∀ x ∈ Nat.toDigits 10 n, x.isDigit = true := fun x hx =>
    Nat.isDigit_of_mem_toDigits (by decide) (by decide) hx
  have hvalue : Nat.ofDigitChars 10 (Nat.toDigits 10 n) 0 = n := Nat.ofDigitChars_ten_toDigits
  rw [htext]
  match hl : Nat.toDigits 10 n, hdigits, hvalue with
  | [a, b, c, d], hdigits, hvalue => exact ⟨a, b, c, d, rfl, hdigits, congrArg Nat.cast hvalue⟩
  | [], _, _ | [_], _, _ | [_, _], _, _ | [_, _, _], _, _ =>
    rw [hl] at hgt
    exact absurd (Nat.le_of_ble_eq_true rfl) hgt
  | _ :: _ :: _ :: _ :: _ :: _, _, _ =>
    rw [hl, List.length_cons, List.length_cons, List.length_cons, List.length_cons,
      List.length_cons] at hle
    omega

theorem abday_isName {n : Nat} (h : n < 7) : IsName (abday.getD n "?").toList := by
  interval_cases n <;> exact ⟨List.all_eq_true.mp (by decide), by decide, by decide⟩

theorem gmonth_isName {n : Nat} (h : n < 12) : IsName (gmonth.getD n "?").toList := by
  interval_cases n <;> exact ⟨List.all_eq_true.mp (by decide), by decide, by decide⟩

/-- The day of the week is the first name. -/
theorem named_abday {n : Nat} (h : n < 7) : ∃ wday : Int, wday ≠ -1 ∧
    Parts.named {} (abday.getD n "?").toList = some { wdaynum := wday } := by
  refine ⟨checkday (abday.getD n "?").toList, ?_, ?_⟩
  · interval_cases n <;> decide
  · unfold Parts.named
    rw [if_pos ⟨rfl, by interval_cases n <;> decide⟩]

theorem checkmonth_gmonth {n : Nat} (h : n < 12) : checkmonth (gmonth.getD n "?").toList = n := by
  interval_cases n <;> decide

theorem named_gmonth {n : Nat} (h : n < 12) {p : Parts} (hday : p.wdaynum ≠ -1)
    (hmon : p.monnum = -1) :
    p.named (gmonth.getD n "?").toList = some { p with monnum := n } := by
  unfold Parts.named
  rw [if_neg (fun h => hday h.1), checkmonth_gmonth h, if_pos ⟨hmon, by omega⟩]

theorem named_gmt {p : Parts} (hday : p.wdaynum ≠ -1) (hmon : p.monnum ≠ -1)
    (hzone : p.tzoff = -1) : p.named "GMT".toList = some { p with tzoff := 0 } := by
  unfold Parts.named
  rw [if_neg (fun h => hday h.1), if_neg (fun h => hmon h.1), if_pos ⟨hzone, by decide⟩]
  rfl

theorem sltosi_strtol {digits : List Char} {val : Int} (h : val < 2 ^ 31)
    (hval : ((Nat.ofDigitChars 10 digits 0 : Nat) : Int) = val) : sltosi (strtol digits) = val := by
  unfold sltosi strtol
  omega

/-- The first number is the day of the month. -/
theorem numbered_mday {p : Parts} {back : Option Char} {digits : List Char} {val : Int}
    (hval : ((Nat.ofDigitChars 10 digits 0 : Nat) : Int) = val) (hlength : digits.length = 2)
    (h₀ : 0 < val) (h : val < 32) (hnext : p.dignext = .mday) (hday : p.mdaynum = -1) :
    p.numbered back digits = some { p with mdaynum := val, dignext := .year } := by
  unfold Parts.numbered
  simp only [sltosi_strtol (by omega) hval, hlength]
  simp [zone, yyyymmdd, dayOfMonth, yearNumber, hnext, hday, h₀, h]

/-- The second one is the year; it is too large for a zone. -/
theorem numbered_year {p : Parts} {back : Option Char} {digits : List Char} {val : Int}
    (hval : ((Nat.ofDigitChars 10 digits 0 : Nat) : Int) = val) (hlength : digits.length = 4)
    (h₀ : 1900 ≤ val) (h : val ≤ 9999) (hnext : p.dignext = .year) (hday : p.mdaynum ≠ -1)
    (hyear : p.yearnum = -1) :
    p.numbered back digits = some { p with yearnum := val } := by
  unfold Parts.numbered
  have hzone : ¬val ≤ 1400 := by omega
  have hcentury : ¬val < 1900 := by omega
  simp only [sltosi_strtol (by omega) hval, hlength]
  simp [zone, yyyymmdd, dayOfMonth, yearNumber, hnext, hday, hyear, hzone, hcentury]

/-! ## The six parts -/

/-- The members of `struct tm` are in range, from 1970 on and with a year of four digits. -/
structure Tm.Valid (tm : Tm) : Prop where
  sec : 0 ≤ tm.sec ∧ tm.sec < 60
  min : 0 ≤ tm.min ∧ tm.min < 60
  hour : 0 ≤ tm.hour ∧ tm.hour < 24
  mday : 0 < tm.mday ∧ tm.mday < 32
  mon : 0 ≤ tm.mon ∧ tm.mon < 12
  year : 70 ≤ tm.year ∧ tm.year ≤ 8099
  wday : 0 ≤ tm.wday ∧ tm.wday < 7

/-- What the parser has read of a date after its last part. -/
def readParts (tm : Tm) (wday : Int) : Parts where
  wdaynum := wday
  monnum := tm.mon
  mdaynum := tm.mday
  hournum := tm.hour
  minnum := tm.min
  secnum := tm.sec
  yearnum := tm.year + 1900
  tzoff := 0
  dignext := .year

theorem strftime_append (tm : Tm) (following : List Char) : strftime tm ++ following =
    [] ++ ((abday.getD tm.wday.toNat "?").toList ++ ([',', ' '] ++ (twoDigits tm.mday ++
      ([' '] ++ ((gmonth.getD tm.mon.toNat "?").toList ++ ([' '] ++
        ((toString (tm.year + 1900)).toList ++ ([' '] ++ (twoDigits tm.hour ++ (':' ::
          (twoDigits tm.min ++ (':' :: (twoDigits tm.sec ++ ([' '] ++ ("GMT".toList ++
            following))))))))))))))) := by
  simp only [strftime, List.append_assoc]
  rfl

theorem parts_strftime {tm : Tm} (htm : tm.Valid) {following : List Char}
    (hfollowing : Ends Char.isAlpha following) (back : Option Char) :
    ∃ wday, parts 6 {} ⟨back, strftime tm ++ following⟩ = some (readParts tm wday) := by
  obtain ⟨⟨hs₀, hs⟩, ⟨hm₀, hm⟩, ⟨hh₀, hh⟩, ⟨hd₀, hd⟩, ⟨hmon₀, hmon⟩, ⟨hy₀, hy⟩, ⟨hw₀, hw⟩⟩ := htm
  obtain ⟨wday, hwday, hnamed⟩ := named_abday (n := tm.wday.toNat) (by omega)
  obtain ⟨d₁, d₂, hday, hdayDigits, hdayVal⟩ := twoDigits_eq (n := tm.mday) (by omega) (by omega)
  obtain ⟨y₁, y₂, y₃, y₄, hyear, hyearDigits, hyearVal⟩ :=
    year_digits (y := tm.year + 1900) (by omega) (by omega)
  obtain ⟨h₁, h₂, hhour, hhourDigits, hhourVal⟩ := twoDigits_eq (n := tm.hour) (by omega) (by omega)
  obtain ⟨m₁, m₂, hmin, hminDigits, hminVal⟩ := twoDigits_eq (n := tm.min) (by omega) (by omega)
  obtain ⟨s₁, s₂, hsec, hsecDigits, hsecVal⟩ := twoDigits_eq (n := tm.sec) (by omega) (by omega)
  have hblank : ∀ x ∈ [' '], x.isAlphanum = false := by simp
  have hcomma : ∀ x ∈ [',', ' '], x.isAlphanum = false := by simp
  have htime : ∀ x ∈ [h₁, h₂, m₁, m₂, s₁, s₂], x.isDigit = true := by
    intro x hx
    rw [show [h₁, h₂, m₁, m₂, s₁, s₂] = [h₁, h₂] ++ [m₁, m₂] ++ [s₁, s₂] from rfl] at hx
    rcases List.mem_append.mp hx with hx | hx
    · rcases List.mem_append.mp hx with hx | hx
      · exact hhourDigits x hx
      · exact hminDigits x hx
    · exact hsecDigits x hx
  have hcolon : y₃ ≠ ':' := by
    rintro rfl
    exact absurd (hyearDigits ':' (by simp)) (by decide)
  refine ⟨wday, ?_⟩
  rw [strftime_append, hday, hyear, hhour, hmin, hsec]
  -- each part leaves what follows it to the next one
  rw [parts_name back (by simp) (abday_isName (by omega)) (by exact ends_cons rfl) hnamed,
    parts_number _ hcomma hdayDigits (by exact ends_cons rfl) (by exact ends_cons rfl) rfl
      (numbered_mday hdayVal rfl hd₀ hd rfl rfl),
    parts_name _ hblank (gmonth_isName (by omega)) (by exact ends_cons rfl)
      (named_gmonth (by omega) hwday rfl),
    parts_number _ hblank hyearDigits (by exact ends_cons rfl) (by exact ends_cons (decide_eq_false hcolon)) rfl
      (numbered_year hyearVal rfl (by omega) (by omega) rfl (by show tm.mday ≠ -1; omega) rfl),
    parts_time _ hblank htime (by exact ends_cons rfl) rfl,
    parts_name _ hblank ⟨List.all_eq_true.mp (by decide), by decide, by decide⟩ hfollowing
      (named_gmt hwday (by show (tm.mon.toNat : Int) ≠ -1; omega) rfl)]
  have hmonth : (tm.mon.toNat : Int) = tm.mon := by omega
  simp only [parts, readParts, hhourVal, hminVal, hsecVal, hmonth]

/-! ## The round trip -/

theorem monthDaysCumulative_getD {month : Nat} (h : month < 12) :
    monthDaysCumulative.getD month 0 =
      (([0, 31, 59, 90, 120, 151, 181, 212, 243, 273, 304, 334, 365].getD month 0 : Nat) : Int) := by
  interval_cases month <;> rfl

/-- The leap year formula of `short_tm_time_t` counts the days of the calendar. -/
theorem shortTmTimeT_date (date : Calendar.Date) (h : 1970 ≤ date.year ∧ date.year < 2370)
    (hour min sec : Int) : shortTmTimeT ⟨sec, min, hour, date.day, date.month, date.year - 1900⟩ =
      ((date.dayNumber * 24 + hour) * 60 + min) * 60 + sec := by
  obtain ⟨hlow, hhigh⟩ := h
  have hmonth := date.monthValid
  have hleap := Calendar.leapYears_succ (date.year - 1)
  rw [Int.sub_add_cancel] at hleap
  have hdivide : ∀ x : Int, 0 ≤ x →
      x.tdiv 4 - x.tdiv 100 + x.tdiv 400 = Calendar.leapYears x := by
    intro x hx
    simp only [Calendar.leapYears, Int.tdiv_eq_ediv_of_nonneg hx]
  have hbase : Calendar.leapYears 1969 = 477 := by decide
  have hlt : ¬date.year - 1900 < 70 := by omega
  have hneg : ¬(date.month : Int) < 0 := by omega
  have hover : ¬12 ≤ (date.month : Int) := by omega
  rw [date.dayNumber_eq ⟨hlow, hhigh⟩, Calendar.start_monthLength _ hmonth.le, hbase]
  unfold shortTmTimeT
  simp only [hlt, hneg, hover, if_false, Int.sub_add_cancel, Int.toNat_natCast,
    monthDaysCumulative_getD hmonth]
  have hconst : (1969 : Int).tdiv 4 = 492 ∧ (1969 : Int).tdiv 100 = 19 ∧
      (1969 : Int).tdiv 400 = 4 := by decide
  rw [hconst.1, hconst.2.1, hconst.2.2]
  by_cases hfebruary : date.month ≤ 1
  · rw [if_pos (by omega), if_neg (by omega), hdivide _ (by omega)]
    omega
  · rw [if_neg (by omega), Int.sub_zero, hdivide _ (by omega), hleap]
    cases Calendar.isLeap date.year with
    | false =>
      rw [if_neg (by decide), if_neg (by simp)]
      omega
    | true =>
      rw [if_pos rfl, if_pos ⟨by omega, rfl⟩]
      omega

/-- The last day that the parser takes is 31 December 2037. -/
theorem year_le_iff {t : Int} (h₀ : 0 ≤ t) (h : t < 146097 * 86400) :
    (gmtime t).year + 1900 ≤ 2037 ↔ t ≤ 2145916799 := by
  have hyear := @Calendar.ofDayNumber_year_lt_iff (t / 86400) (by omega) (by omega) 68
  have hstart := Calendar.start_yearLength 68
  have hleap : Calendar.leapYears (1969 + (68 : Nat)) - Calendar.leapYears 1969 = 17 := by decide
  show (Calendar.ofDayNumber (t / 86400)).year - 1900 + 1900 ≤ 2037 ↔ _
  omega

theorem gmtime_valid {t : Int} (h₀ : 0 ≤ t) (h : t < 146097 * 86400) : (gmtime t).Valid := by
  have hlow := @Calendar.le_ofDayNumber_year (t / 86400) (by omega)
  have hhigh := @Calendar.ofDayNumber_year_lt_iff (t / 86400) (by omega) (by omega) 400
  rw [Calendar.start_yearLength_cycle] at hhigh
  have hmonth := (Calendar.ofDayNumber (t / 86400)).monthValid
  have hday := (Calendar.ofDayNumber (t / 86400)).dayValid
  have hlength := Calendar.monthLength_le (Calendar.ofDayNumber (t / 86400)).year
    (Calendar.ofDayNumber (t / 86400)).month
  constructor
  all_goals simp only [gmtime]; omega

theorem strftime_ne_nul {tm : Tm} (htm : tm.Valid) : '\x00' ∉ strftime tm := by
  obtain ⟨⟨hs₀, hs⟩, ⟨hm₀, hm⟩, ⟨hh₀, hh⟩, ⟨hd₀, hd⟩, ⟨hmon₀, hmon⟩, ⟨hy₀, hy⟩, ⟨hw₀, hw⟩⟩ := htm
  have hname : ∀ buf, IsName buf → '\x00' ∉ buf := fun buf hbuf hc =>
    absurd (hbuf.alpha _ hc) (by decide)
  have htwo : ∀ n : Int, 0 ≤ n → n < 100 → '\x00' ∉ twoDigits n := by
    intro n h₀ h hc
    obtain ⟨a, b, heq, hdigits, -⟩ := twoDigits_eq h₀ h
    exact absurd (hdigits _ (heq ▸ hc)) (by decide)
  have hyear : '\x00' ∉ (toString (tm.year + 1900)).toList := by
    intro hc
    obtain ⟨a, b, c, d, heq, hdigits, -⟩ := year_digits (y := tm.year + 1900) (by omega) (by omega)
    exact absurd (hdigits _ (heq ▸ hc)) (by decide)
  unfold strftime
  simp only [List.mem_append, not_or]
  exact ⟨⟨⟨⟨⟨⟨⟨⟨⟨⟨⟨⟨⟨hname _ (abday_isName (by omega)), by decide⟩, htwo _ (by omega) (by omega)⟩,
    by decide⟩, hname _ (gmonth_isName (by omega))⟩, by decide⟩, hyear⟩, by decide⟩,
    htwo _ (by omega) (by omega)⟩, by decide⟩, htwo _ (by omega) (by omega)⟩, by decide⟩,
    htwo _ (by omega) (by omega)⟩, by decide⟩

/-- The calendar time of what has been read is the time that has been written. -/
theorem shortTmTimeT_gmtime {t : Int} (h₀ : 0 ≤ t) (h : t < 146097 * 86400) (wday : Int) :
    shortTmTimeT (readParts (gmtime t) wday).tm = t := by
  have hlow := @Calendar.le_ofDayNumber_year (t / 86400) (by omega)
  have hhigh := @Calendar.ofDayNumber_year_lt_iff (t / 86400) (by omega) (by omega) 400
  rw [Calendar.start_yearLength_cycle] at hhigh
  have hday := Calendar.dayNumber_ofDayNumber (t / 86400)
  have htime := shortTmTimeT_date (Calendar.ofDayNumber (t / 86400)) ⟨hlow, by omega⟩
    (t % 86400 / 3600) (t % 3600 / 60) (t % 60)
  rw [hday] at htime
  have htm : (readParts (gmtime t) wday).tm = ⟨t % 60, t % 3600 / 60, t % 86400 / 3600,
      (Calendar.ofDayNumber (t / 86400)).day, (Calendar.ofDayNumber (t / 86400)).month,
      (Calendar.ofDayNumber (t / 86400)).year - 1900⟩ := by
    simp only [Parts.tm, readParts, gmtime]
    rw [Int.sub_add_cancel]
  rw [htm, htime]
  omega

/-- A date with all its parts is refused after 2037 only; the zone changes nothing. -/
theorem finish_readParts {tm : Tm} (htm : tm.Valid) (wday output : Int) :
    (readParts tm wday).finish output =
      if tm.year + 1900 ≤ 2037 then (true, shortTmTimeT (readParts tm wday).tm)
      else (false, 0x7fffffff) := by
  have hsec := htm.sec
  have hmday := htm.mday
  have hmon := htm.mon
  have hyear := htm.year
  have hmidnight : (readParts tm wday).midnight = readParts tm wday :=
    if_neg (by show tm.sec ≠ -1; omega)
  have hread : ¬((readParts tm wday).mdaynum = -1 ∨ (readParts tm wday).monnum = -1 ∨
      (readParts tm wday).yearnum = -1) := by
    show ¬(tm.mday = -1 ∨ tm.mon = -1 ∨ tm.year + 1900 = -1)
    omega
  have hlow : ¬(readParts tm wday).yearnum < 1970 := by
    show ¬tm.year + 1900 < 1970
    omega
  unfold Parts.finish
  simp only [hmidnight]
  rw [if_neg hread, if_neg hlow]
  by_cases hlast : tm.year + 1900 ≤ 2037
  · rw [if_pos hlast, if_neg (by show ¬2037 < tm.year + 1900; omega)]
    simp [readParts]
  · rw [if_neg hlast, if_pos (by show 2037 < tm.year + 1900; omega)]

/-- What the parser makes of a date that has been written: the time up to 2037, else a failure. -/
theorem parse_makeHttpLastModified {t : Int} (h₀ : 0 ≤ t) (h : t < 146097 * 86400)
    {following : List Char} (hfollowing : Ends Char.isAlpha following) (output : Int) :
    parseGmtTimeFmt (makeHttpLastModified t) following output =
      if t ≤ 2145916799 then (true, t) else (false, 0x7fffffff) := by
  have hvalid := gmtime_valid h₀ h
  have hne : makeHttpLastModified t ≠ [] := by simp [makeHttpLastModified, strftime]
  have hends : Ends Char.isAlpha (following.takeWhile (· ≠ '\x00')) := by
    cases following with
    | nil => exact hfollowing
    | cons c rest =>
      rw [List.takeWhile_cons]
      split
      · exact ends_cons (hfollowing c rfl)
      · intro x hx
        simp at hx
  have htext : (makeHttpLastModified t ++ following).takeWhile (· ≠ '\x00') =
      strftime (gmtime t) ++ following.takeWhile (· ≠ '\x00') :=
    List.takeWhile_append_of_pos fun c hc => decide_eq_true fun hnul =>
      strftime_ne_nul hvalid (hnul ▸ hc)
  obtain ⟨wday, hparts⟩ := parts_strftime hvalid hends none
  unfold parseGmtTimeFmt
  rw [if_neg hne, htext, hparts]
  show (readParts (gmtime t) wday).finish output = _
  rw [finish_readParts hvalid, shortTmTimeT_gmtime h₀ h]
  simp only [year_le_iff h₀ h]

/-- A date that has been written is read as the time it is of. -/
theorem http_date_round_trip (t : Int) (h₀ : 0 ≤ t) (h : t ≤ 2145916799) (output : Int) :
    parseGmtTimeFmt (makeHttpLastModified t) [] output = (true, t) := by
  rw [parse_makeHttpLastModified h₀ (by omega) (by intro c hc; simp at hc), if_pos h]

theorem http_date_round_trip_last :
    parseGmtTimeFmt (makeHttpLastModified 2145916799) [] 0 = (true, 2145916799) :=
  http_date_round_trip 2145916799 (by decide) (by decide) 0

end Cmall.Httpd
