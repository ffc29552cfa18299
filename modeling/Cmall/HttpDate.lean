import Cmall.Calendar
import Cmall.HeaderHelper

/-!
`header_helper.cpp`: the HTTP dates, `make_http_last_modified` and `parse_gmt_time_fmt`. Texts are
byte strings, one character a byte; the end of a list is the NUL of a C string.
-/

namespace Cmall.Httpd

/-! ## Writing a date -/

/-- The members of `struct tm` that are written. -/
structure Tm where
  sec : Int
  min : Int
  hour : Int
  mday : Int
  mon : Int
  year : Int
  wday : Int
  deriving DecidableEq, Repr

/-- `gmtime`. -/
def gmtime (t : Int) : Tm :=
  let date := Calendar.ofDayNumber (t / 86400)
  { sec := t % 60, min := t % 3600 / 60, hour := t % 86400 / 3600, mday := date.day
    mon := date.month, year := date.year - 1900, wday := (t / 86400 + 4) % 7 }

/-- The day names of `strftime`, from Sunday. -/
def abday : List String := ["Sun", "Mon", "Tue", "Wed", "Thu", "Fri", "Sat"]

def gmonth : List String :=
  ["Jan", "Feb", "Mar", "Apr", "May", "Jun", "Jul", "Aug", "Sep", "Oct", "Nov", "Dec"]

/-- The conversions `%d`, `%H`, `%M` and `%S`. -/
def twoDigits (n : Int) : List Char :=
  [Nat.digitChar (n.toNat / 10 % 10), Nat.digitChar (n.toNat % 10)]

/-- `strftime` with `"%a, %d %b %Y %H:%M:%S GMT"`. -/
def strftime (tm : Tm) : List Char :=
  (abday.getD tm.wday.toNat "?").toList ++ ", ".toList ++ twoDigits tm.mday ++ " ".toList ++
    (gmonth.getD tm.mon.toNat "?").toList ++ " ".toList ++ (toString (tm.year + 1900)).toList ++
    " ".toList ++ twoDigits tm.hour ++ ":".toList ++ twoDigits tm.min ++ ":".toList ++
    twoDigits tm.sec ++ " GMT".toList

def makeHttpLastModified (t : Int) : List Char := strftime (gmtime t)

/-! ## Calendar time of a date -/

structure ShortTm where
  sec : Int
  min : Int
  hour : Int
  mday : Int
  mon : Int
  year : Int
  deriving DecidableEq, Repr

def monthDaysCumulative : List Int := [0, 31, 59, 90, 120, 151, 181, 212, 243, 273, 304, 334]

/-- `short_tm_time_t`; the division of C rounds towards zero. -/
def shortTmTimeT (tm : ShortTm) : Int :=
  if tm.year < 70 then -1
  else
    let full := tm.year + 1900
    let year :=
      if tm.mon < 0 then full + (11 - tm.mon).tdiv 12
      else if 12 ≤ tm.mon then full - tm.mon.tdiv 12
      else full
    let month :=
      if tm.mon < 0 then 11 - (11 - tm.mon).tmod 12
      else if 12 ≤ tm.mon then tm.mon.tmod 12
      else tm.mon
    let leapDays := year - if tm.mon ≤ 1 then 1 else 0
    let leapDays := leapDays.tdiv 4 - leapDays.tdiv 100 + leapDays.tdiv 400 -
      (1969 : Int).tdiv 4 + (1969 : Int).tdiv 100 - (1969 : Int).tdiv 400
    ((((year - 1970) * 365 + leapDays + monthDaysCumulative.getD month.toNat 0 + tm.mday - 1) * 24
      + tm.hour) * 60 + tm.min) * 60 + tm.sec

/-! ## Names -/

def gwkday : List String := ["Mon", "Tue", "Wed", "Thu", "Fri", "Sat", "Sun"]

def gweekday : List String :=
  ["Monday", "Tuesday", "Wednesday", "Thursday", "Friday", "Saturday", "Sunday"]

/-- The zones; `TMP_DAYZONE` is -60. -/
def tz : List (String × Int) :=
  [("GMT", 0), ("UTC", 0), ("WET", 0), ("BST", 0 - 60), ("WAT", 60), ("AST", 240),
    ("ADT", 240 - 60), ("EST", 300), ("EDT", 300 - 60), ("CST", 360), ("CDT", 360 - 60),
    ("MST", 420), ("MDT", 420 - 60), ("PST", 480), ("PDT", 480 - 60), ("YST", 540),
    ("YDT", 540 - 60), ("HST", 600), ("HDT", 600 - 60), ("CAT", 600), ("AHST", 600),
    ("NT", 660), ("IDLW", 720), ("CET", -60), ("MET", -60), ("MEWT", -60), ("MEST", -60 - 60),
    ("CEST", -60 - 60), ("MESZ", -60 - 60), ("FWT", -60), ("FST", -60 - 60), ("EET", -120),
    ("WAST", -420), ("WADT", -420 - 60), ("CCT", -480), ("JST", -540), ("EAST", -600),
    ("EADT", -600 - 60), ("GST", -600), ("NZT", -720), ("NZST", -720), ("NZDT", -720 - 60),
    ("IDLE", -720), ("A", 1 * 60), ("B", 2 * 60), ("C", 3 * 60), ("D", 4 * 60), ("E", 5 * 60),
    ("F", 6 * 60), ("G", 7 * 60), ("H", 8 * 60), ("I", 9 * 60), ("K", 10 * 60), ("L", 11 * 60),
    ("M", 12 * 60), ("N", -1 * 60), ("O", -2 * 60), ("P", -3 * 60), ("Q", -4 * 60),
    ("R", -5 * 60), ("S", -6 * 60), ("T", -7 * 60), ("U", -8 * 60), ("V", -9 * 60),
    ("W", -10 * 60), ("X", -11 * 60), ("Y", -12 * 60), ("Z", 0)]

/-- `strcasecmp` is 0. -/
def strcaseeq (check : List Char) (name : String) : Bool :=
  check.map Char.toLower = name.toList.map Char.toLower

def checkday (check : List Char) : Int :=
  match (if check.length > 3 then gweekday else gwkday).findIdx? (strcaseeq check) with
  | some i => i
  | none => -1

def checkmonth (check : List Char) : Int :=
  match gmonth.findIdx? (strcaseeq check) with
  | some i => i
  | none => -1

/-- The offset in seconds, or -1. -/
def checktz (check : List Char) : Int :=
  match tz.find? (fun what => strcaseeq check what.1) with
  | some what => what.2 * 60
  | none => -1

/-! ## Numbers -/

/-- `strtol` in base 10 from a digit on, with a `long` of 64 bits. -/
def strtol (digits : List Char) : Nat := min (Nat.ofDigitChars 10 digits 0) (2 ^ 63 - 1)

/-- `slnum & 0x7FFFFFFF`. -/
def sltosi (slnum : Nat) : Int := (slnum % 2 ^ 31 : Nat)

def isspace (c : Char) : Bool := c = ' ' ∨ ('\t' ≤ c ∧ c ≤ '\r')

/-- The digits of a conversion of the given width. -/
def scanDigits (width : Nat) (text : List Char) : Option (Int × List Char) :=
  let digits := (text.take width).takeWhile Char.isDigit
  if digits = [] then none
  else some (Nat.ofDigitChars 10 digits 0, text.drop digits.length)

/-- The conversion `%02d` of `sscanf`: blanks, then a sign and digits in two characters. -/
def scan02d (text : List Char) : Option (Int × List Char) :=
  match text.dropWhile isspace with
  | '-' :: text => (scanDigits 1 text).map fun (value, rest) => (-value, rest)
  | '+' :: text => scanDigits 1 text
  | text => scanDigits 2 text

/-- What `sscanf` converts with `n` conversions `%02d` and colons between them. -/
def sscanf : Nat → List Char → List Int
  | 0, _ => []
  | n + 1, text =>
    match scan02d text with
    | none => []
    | some (value, ':' :: rest) => value :: sscanf n rest
    | some (value, _) => [value]

/-! ## The parts of a date -/

inductive Assume where
  | mday
  | year
  deriving DecidableEq, Repr

/-- What has been read of a date; -1 is what has not been. -/
structure Parts where
  wdaynum : Int := -1
  monnum : Int := -1
  mdaynum : Int := -1
  hournum : Int := -1
  minnum : Int := -1
  secnum : Int := -1
  yearnum : Int := -1
  tzoff : Int := -1
  dignext : Assume := .mday
  deriving DecidableEq, Repr

/-- The pointer `date`: the character before it, if there is one, and the text from it on. -/
structure Cursor where
  back : Option Char
  date : List Char
  deriving DecidableEq, Repr

/-- `date += n`. A time stamp is skipped by its full length; behind the NUL the text is over. -/
def Cursor.advance (c : Cursor) (n : Nat) : Cursor where
  back := (c.date.take n).getLast?.or c.back
  date := c.date.drop n

/-- Everything that is not a letter or a digit. -/
def skip (c : Cursor) : Cursor :=
  c.advance (c.date.takeWhile fun x => !x.isAlphanum).length

/-- A name is the day of the week, the month or the zone, in this order. -/
def Parts.named (p : Parts) (buf : List Char) : Option Parts :=
  if p.wdaynum = -1 ∧ checkday buf ≠ -1 then some { p with wdaynum := checkday buf }
  else if p.monnum = -1 ∧ checkmonth buf ≠ -1 then some { p with monnum := checkmonth buf }
  else if p.tzoff = -1 ∧ checktz buf ≠ -1 then some { p with tzoff := checktz buf }
  else none

def name (p : Parts) (c : Cursor) : Option (Parts × Cursor) :=
  let buf := (c.date.takeWhile Char.isAlpha).take 31
  (p.named buf).map fun p => (p, c.advance buf.length)

/-- The variables that a scan for a time has written. -/
def Parts.store (p : Parts) (values : List Int) : Parts :=
  { p with
    hournum := values.getD 0 p.hournum
    minnum := values.getD 1 p.minnum
    secnum := values.getD 2 p.secnum }

/-- Four digits behind a sign are a zone. -/
def zone (back : Option Char) (length : Nat) (val : Int) (p : Parts) : Bool × Parts :=
  if p.tzoff = -1 ∧ length = 4 ∧ val ≤ 1400 ∧ (back = some '+' ∨ back = some '-') then
    let tzoff := (val.tdiv 100 * 60 + val.tmod 100) * 60
    (true, { p with tzoff := if back = some '+' then -tzoff else tzoff })
  else (false, p)

/-- Eight digits are `YYYYMMDD`. -/
def yyyymmdd (length : Nat) (val : Int) (s : Bool × Parts) : Bool × Parts :=
  if length = 8 ∧ s.2.yearnum = -1 ∧ s.2.monnum = -1 ∧ s.2.mdaynum = -1 then
    (true, { s.2 with
      yearnum := val.tdiv 10000
      monnum := (val.tmod 10000).tdiv 100 - 1
      mdaynum := val.tmod 100 })
  else s

def dayOfMonth (val : Int) (s : Bool × Parts) : Bool × Parts :=
  if s.1 = false ∧ s.2.dignext = .mday ∧ s.2.mdaynum = -1 then
    if 0 < val ∧ val < 32 then (true, { s.2 with mdaynum := val, dignext := .year })
    else (false, { s.2 with dignext := .year })
  else s

def yearNumber (val : Int) (s : Bool × Parts) : Bool × Parts :=
  if s.1 = false ∧ s.2.dignext = .year ∧ s.2.yearnum = -1 then
    (true, { s.2 with
      yearnum := if val < 1900 then (if 70 < val then val + 1900 else val + 2000) else val
      dignext := if s.2.mdaynum = -1 then .mday else s.2.dignext })
  else s

/-- A number that is no time; `back` is the character before it. -/
def Parts.numbered (p : Parts) (back : Option Char) (digits : List Char) : Option Parts :=
  let val := sltosi (strtol digits)
  let s := yearNumber val (dayOfMonth val
    (yyyymmdd digits.length val (zone back digits.length val p)))
  if s.1 then some s.2 else none

def number (p : Parts) (c : Cursor) : Option (Parts × Cursor) :=
  let digits := c.date.takeWhile Char.isDigit
  (p.numbered c.back digits).map fun p => (p, c.advance digits.length)

/-- A time with or without seconds, else a number. A scan that fails leaves what it has read. -/
def digit (p : Parts) (c : Cursor) : Option (Parts × Cursor) :=
  if p.secnum = -1 then
    let three := sscanf 3 c.date
    let p := p.store three
    if three.length = 3 then some (p, c.advance 8)
    else
      let two := sscanf 2 c.date
      let p := p.store two
      if two.length = 2 then some ({ p with secnum := 0 }, c.advance 5)
      else number p c
  else number p c

/-- One part of a date: a name or a number. -/
def part (p : Parts) (c : Cursor) : Option (Parts × Cursor) :=
  let c := skip c
  match c.date with
  | [] => some (p, c)
  | x :: _ => if x.isAlpha then name p c else digit p c

/-- The loop over at most so many parts. -/
def parts : Nat → Parts → Cursor → Option Parts
  | 0, p, _ => some p
  | n + 1, p, c => if c.date = [] then some p else (part p c).bind fun s => parts n s.1 s.2

/-! ## Reading a date -/

/-- No time is midnight. -/
def Parts.midnight (p : Parts) : Parts :=
  if p.secnum = -1 then { p with secnum := 0, minnum := 0, hournum := 0 } else p

def Parts.tm (p : Parts) : ShortTm where
  sec := p.secnum
  min := p.minnum
  hour := p.hournum
  mday := p.mdaynum
  mon := p.monnum
  year := p.yearnum - 1900

/-- `(int)t`. -/
def toInt (t : Int) : Int := Int.bmod t (2 ^ 32)

/-- The end of `parse_gmt_time_fmt`: what it returns, and the new value of `*output`. -/
def Parts.finish (p : Parts) (output : Int) : Bool × Int :=
  let p := p.midnight
  if p.mdaynum = -1 ∨ p.monnum = -1 ∨ p.yearnum = -1 then (false, output)
  -- `SIZEOF_TIME_T` is not defined, which counts as 0
  else if 2037 < p.yearnum then (false, 0x7fffffff)
  else if p.yearnum < 1970 then (false, 0)
  else
    let t := shortTmTimeT p.tm
    if toInt t ≠ -1 then
      let delta := if p.tzoff ≠ -1 then p.tzoff else 0
      if 0 < delta ∧ t + delta < t then (false, output) else (true, t + delta)
    else (true, t)

/-- `parse_gmt_time_fmt` of a view. What is read is the text up to the next NUL, with what follows
the view in memory. -/
def parseGmtTimeFmt (dateStr following : List Char) (output : Int) : Bool × Int :=
  if dateStr = [] then (false, 0)
  else
    match parts 6 {} ⟨none, (dateStr ++ following).takeWhile (· ≠ '\x00')⟩ with
    | none => (false, output)
    | some p => p.finish output

end Cmall.Httpd
