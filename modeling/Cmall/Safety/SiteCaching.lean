import Cmall.HttpStaticFileHandle
import Cmall.Safety.HttpDates

/-!
The bundled site and the caches of its clients: when a client that sends back the `Last-Modified`
of one version of the site gets the content of a newer one.
-/

namespace Cmall.Httpd

/-! ## Stamps -/

/-- The bits of a stamp. -/
theorem stamp_year (d : DosTime) : ((d.stamp >>> 25 : Nat) : Int) = d.year - 1980 := by
  have := d.yearValid
  have := d.timeValid
  have := d.monthValid
  have := d.dayValid
  have := Calendar.monthLength_le d.year d.month
  rw [Nat.shiftRight_eq_div_pow, DosTime.stamp]
  omega

theorem stamp_month (d : DosTime) : (d.stamp >>> 21) &&& 0x0f = d.month + 1 := by
  have := d.timeValid
  have := d.monthValid
  have := d.dayValid
  have := Calendar.monthLength_le d.year d.month
  rw [show 0x0f = 2 ^ 4 - 1 from rfl, Nat.and_two_pow_sub_one_eq_mod, Nat.shiftRight_eq_div_pow,
    DosTime.stamp]
  omega

theorem stamp_day (d : DosTime) : (d.stamp >>> 16) &&& 0x1f = d.day := by
  have := d.timeValid
  have := d.dayValid
  have := Calendar.monthLength_le d.year d.month
  rw [show 0x1f = 2 ^ 5 - 1 from rfl, Nat.and_two_pow_sub_one_eq_mod, Nat.shiftRight_eq_div_pow,
    DosTime.stamp]
  omega

/-- Four of the five bits of the hour. -/
theorem stamp_hour (d : DosTime) : (d.stamp >>> 11) &&& 0x0f = d.hour % 16 := by
  have := d.timeValid
  rw [show 0x0f = 2 ^ 4 - 1 from rfl, Nat.and_two_pow_sub_one_eq_mod, Nat.shiftRight_eq_div_pow,
    DosTime.stamp]
  omega

theorem stamp_min (d : DosTime) : (d.stamp >>> 5) &&& 0x3f = d.min := by
  have := d.timeValid
  rw [show 0x3f = 2 ^ 6 - 1 from rfl, Nat.and_two_pow_sub_one_eq_mod, Nat.shiftRight_eq_div_pow,
    DosTime.stamp]
  omega

theorem stamp_sec (d : DosTime) : (d.stamp &&& 0x1f) <<< 1 = d.halfSec * 2 := by
  have := d.timeValid
  rw [show 0x1f = 2 ^ 5 - 1 from rfl, Nat.and_two_pow_sub_one_eq_mod, Nat.shiftLeft_eq,
    DosTime.stamp]
  omega

/-- A stamp is read one day late, and from 16 o'clock on also sixteen hours early. -/
theorem dos2unixtime_stamp (zone : Zone) (d : DosTime) : dos2unixtime zone d.stamp =
    d.time zone + 86400 - if 16 ≤ d.hour then 57600 else 0 := by
  have hmonth := d.monthValid
  have htime := d.timeValid
  unfold dos2unixtime mktime
  rw [stamp_year, stamp_month, stamp_day, stamp_hour, stamp_min, stamp_sec]
  have hyear : d.year - 1980 + 80 + 1900 + (((d.month + 1 : Nat) : Int) - 1) / 12 = d.year := by
    omega
  have hmon : ((((d.month + 1 : Nat) : Int) - 1) % 12).toNat = d.month := by omega
  simp only [hyear, hmon]
  rw [DosTime.time, DosTime.localTime, Calendar.Date.dayNumber]
  by_cases hhour : 16 ≤ d.hour
  · rw [if_pos hhour]
    omega
  · rw [if_neg hhour]
    omega

/-- The times of the stamps are after 1970 and before the end of the first 400 years. -/
theorem localTime_bounds (d : DosTime) :
    315360000 ≤ d.localTime ∧ d.localTime < 5000000000 := by
  obtain ⟨hlow, hhigh⟩ := d.yearValid
  have htime := d.timeValid
  have hday := d.dayValid
  have hmonth := d.monthValid
  have hlength := Calendar.monthLength_le d.year d.month
  have hstart := @Calendar.start_mono (Calendar.monthLength d.year) _ _ hmonth.le
  rw [Calendar.start_monthLength d.year (Nat.le_refl 12)] at hstart
  have hleap : (if 2 ≤ 12 ∧ Calendar.isLeap d.year = true then 1 else 0) ≤ 1 := by
    split <;> omega
  have htable : [0, 31, 59, 90, 120, 151, 181, 212, 243, 273, 304, 334, 365].getD 12 0 = 365 := rfl
  rw [DosTime.localTime, d.dayNumber_eq ⟨by omega, by omega⟩]
  unfold Calendar.leapYears
  omega

theorem dos2unixtime_bounds (zone : Zone) (d : DosTime) :
    0 ≤ dos2unixtime zone d.stamp ∧ dos2unixtime zone d.stamp < 146097 * 86400 := by
  have hd := localTime_bounds d
  have hzone := zone.bounded
  rw [dos2unixtime_stamp, DosTime.time]
  split
  · omega
  · omega

theorem dos2unixtime_ne (zone : Zone) (d : DosTime) :
    dos2unixtime zone d.stamp ≠ d.time zone := by
  rw [dos2unixtime_stamp]
  split
  · omega
  · omega

/-- The stamps whose order is lost. -/
def OrderLost (d₁ d₂ : DosTime) : Prop :=
  d₁.hour < 16 ∧ 16 ≤ d₂.hour ∧ d₂.localTime ≤ d₁.localTime + 57600

theorem dos2unixtime_le_iff (zone : Zone) {d₁ d₂ : DosTime} (h : d₁.localTime < d₂.localTime) :
    dos2unixtime zone d₂.stamp ≤ dos2unixtime zone d₁.stamp ↔ OrderLost d₁ d₂ := by
  rw [dos2unixtime_stamp, dos2unixtime_stamp, OrderLost, DosTime.time, DosTime.time]
  split
  · split
    · omega
    · omega
  · split
    · omega
    · omega

end Cmall.Httpd

namespace Cmall.StaticFile
open Httpd

/-- The file that a request is answered with. -/
def servedFile (site : Site) (req : Request) : Option Entry :=
  (pathOf req.target).map fun path => (served site path).2

/-- The client gets the content of a file, with the status 200. -/
def GetsContent (zone : Zone) (now : Int) (site : Site) (req : Request) (e : Entry) : Prop :=
  ∃ sent, httpHandleStaticFile zone now site req = some { status := 200, written := some sent } ∧
    sent.status = 200 ∧ sent.body = e.read (acceptDeflate req)

section Answers

variable {zone : Zone} {now : Int} {site : Site} {req : Request} {e : Entry}

theorem fullResponse_eq (deflate : Bool) (e : Entry) (res : Response) :
    (fullResponse deflate e res).status = res.status ∧
      (fullResponse deflate e res).lastModified = res.lastModified ∧
      (fullResponse deflate e res).body = e.read deflate := by
  unfold fullResponse
  split
  · exact ⟨rfl, rfl, rfl⟩
  · exact ⟨rfl, rfl, rfl⟩

/-- Every response has the time of the file. -/
theorem lastModified_of_written {answer : Answer} {sent : Response}
    (hserved : servedFile site req = some e)
    (h : httpHandleStaticFile zone now site req = some answer) (hsent : answer.written = some sent) :
    sent.lastModified = makeHttpLastModified (dos2unixtime zone e.dosDate) := by
  obtain ⟨path, hpath, rfl⟩ := Option.map_eq_some_iff.mp hserved
  unfold httpHandleStaticFile at h
  rw [hpath] at h
  simp only [Option.map_some] at h
  split at h
  · obtain rfl := Option.some.inj h
    simp at hsent
  · have hanswer := Option.some.inj h
    split at hanswer
    · obtain rfl := hanswer
      obtain rfl := Option.some.inj hsent
      rfl
    · split at hanswer
      · obtain rfl := hanswer
        simp at hsent
      · obtain rfl := hanswer
        obtain rfl := Option.some.inj hsent
        exact (fullResponse_eq _ _ _).2.1

/-- The content is sent when the archive can be read, unless the date of the request is one and is
not before the time of the file. -/
theorem getsContent_iff (hserved : servedFile site req = some e) :
    GetsContent zone now site req e ↔ site.globalInfo = true ∧ e.opens (acceptDeflate req) = true ∧
      ¬((parseGmtTimeFmt req.ifModifiedSince crlf 0).1 = true ∧
        dos2unixtime zone e.dosDate ≤ (parseGmtTimeFmt req.ifModifiedSince crlf 0).2) := by
  obtain ⟨path, hpath, rfl⟩ := Option.map_eq_some_iff.mp hserved
  unfold GetsContent httpHandleStaticFile
  rw [hpath]
  simp only [Option.map_some]
  cases hinfo : site.globalInfo with
  | false => simp
  | true =>
    rw [if_neg (by decide)]
    split
    · rename_i hunmodified
      constructor
      · rintro ⟨sent, hanswer, hstatus, -⟩
        obtain rfl := Option.some.inj (Answer.mk.inj (Option.some.inj hanswer)).2
        exact absurd (show (304 : Nat) = 200 from hstatus) (by decide)
      · rintro ⟨-, -, hmodified⟩
        exact absurd hunmodified hmodified
    · rename_i hmodified
      cases hopens : (served site path).2.opens (acceptDeflate req) with
      | false => simp
      | true =>
        rw [if_neg (by decide)]
        constructor
        · intro _
          exact ⟨rfl, rfl, hmodified⟩
        · intro _
          obtain ⟨hstatus, -, hbody⟩ := fullResponse_eq (acceptDeflate req) (served site path).2
            (header zone now req (served site path).1 (served site path).2)
          exact ⟨_, rfl, hstatus, hbody⟩

/-- A client without a date gets the content. -/
theorem answer_without_date {path : List Char} (hinfo : site.globalInfo = true)
    (hpath : pathOf req.target = some path) (hserved : (served site path).2 = e)
    (hopens : e.opens (acceptDeflate req) = true) (hfirst : req.ifModifiedSince = []) :
    httpHandleStaticFile zone now site req = some
      { status := 200
        written := some (fullResponse (acceptDeflate req) e
          (header zone now req (served site path).1 e)) } := by
  subst hserved
  unfold httpHandleStaticFile
  rw [hpath, hfirst, hinfo, if_neg (by decide)]
  have hparse : (parseGmtTimeFmt [] crlf 0).1 = false := rfl
  simp only [Option.map_some, hparse, Bool.false_eq_true, false_and, if_false, hopens]
  rw [if_neg (by decide)]

end Answers

/-- The time that was sent comes back, as far as the parser reads it. -/
theorem parse_lastModified (zone : Zone) (d : DosTime) (output : Int) :
    parseGmtTimeFmt (makeHttpLastModified (dos2unixtime zone d.stamp)) crlf output =
      if dos2unixtime zone d.stamp ≤ 2145916799 then (true, dos2unixtime zone d.stamp)
      else (false, 0x7fffffff) := by
  obtain ⟨h₀, h⟩ := dos2unixtime_bounds zone d
  exact parse_makeHttpLastModified h₀ h (ends_cons rfl) output

/-- A client that sends back the date of an older stamp gets the new content, unless the order of the
stamps is lost and the date can be read. -/
theorem getsContent_newer_iff {zone : Zone} {now : Int} {site : Site} {req : Request} {e : Entry}
    {d₁ d₂ : DosTime} (hserved : servedFile site req = some e) (hd₂ : e.dosDate = d₂.stamp)
    (hnewer : d₁.localTime < d₂.localTime)
    (hsince : req.ifModifiedSince = makeHttpLastModified (dos2unixtime zone d₁.stamp)) :
    GetsContent zone now site req e ↔ site.globalInfo = true ∧ e.opens (acceptDeflate req) = true ∧
      ¬(OrderLost d₁ d₂ ∧ d₁.time zone + 86400 ≤ 2145916799) := by
  rw [getsContent_iff hserved, hsince, parse_lastModified, hd₂]
  have hle := dos2unixtime_le_iff zone hnewer
  have htime := dos2unixtime_stamp zone d₁
  by_cases hlast : dos2unixtime zone d₁.stamp ≤ 2145916799
  · rw [if_pos hlast]
    simp only [hle, true_and]
    have hread : OrderLost d₁ d₂ → d₁.time zone + 86400 ≤ 2145916799 := by
      intro hlost
      rw [if_neg (by have := hlost.1; omega)] at htime
      omega
    rw [and_iff_left_of_imp hread]
  · rw [if_neg hlast]
    have hunread : ¬(OrderLost d₁ d₂ ∧ d₁.time zone + 86400 ≤ 2145916799) := by
      rintro ⟨hlost, hread⟩
      rw [if_neg (by have := hlost.1; omega)] at htime
      omega
    simp only [hunread, Bool.false_eq_true, false_and]

/-- A client sends back the date of one version of the site and the newer version answers: it sends
the content if it can be read and the order of the stamps is not lost. The time of a stamp is right
for none. -/
theorem newer_site_is_sent_iff {zone : Zone} {now₁ now₂ : Int} {site₁ site₂ : Site}
    {req₁ req₂ : Request} {e₁ e₂ : Entry} {d₁ d₂ : DosTime} {sent₁ : Response}
    (h₁ : servedFile site₁ req₁ = some e₁) (hd₁ : e₁.dosDate = d₁.stamp)
    (h₂ : servedFile site₂ req₂ = some e₂) (hd₂ : e₂.dosDate = d₂.stamp)
    (hnewer : d₁.localTime < d₂.localTime)
    (hreceived : httpHandleStaticFile zone now₁ site₁ req₁ =
      some { status := 200, written := some sent₁ })
    (hback : req₂.ifModifiedSince = sent₁.lastModified) :
    (GetsContent zone now₂ site₂ req₂ e₂ ↔
      site₂.globalInfo = true ∧ e₂.opens (acceptDeflate req₂) = true ∧
        ¬(OrderLost d₁ d₂ ∧ d₁.time zone + 86400 ≤ 2145916799)) ∧
      ∀ d : DosTime, dos2unixtime zone d.stamp ≠ d.time zone := by
  constructor
  · have hsince := lastModified_of_written h₁ hreceived rfl
    rw [hd₁] at hsince
    exact getsContent_newer_iff h₂ hd₂ hnewer (hback.trans hsince)
  · intro d
    exact dos2unixtime_ne zone d

/-! ## Two versions of one day -/

def utc : Zone := ⟨0, by decide⟩

/-- An hour of 1 January 2024. -/
def newYear (hour : Fin 24) : DosTime where
  year := 2024
  month := 0
  day := 1
  monthValid := by decide
  dayValid := by decide
  hour := hour
  min := 0
  halfSec := 0
  yearValid := by decide
  timeValid := ⟨hour.isLt, by decide, by decide⟩

def index (hour : Fin 24) : Entry where
  name := indexHtml
  dosDate := (newYear hour).stamp
  method := 0
  compressed := []
  content := []

def siteOf (hour : Fin 24) : Site := { entries := [index hour], ne_nil := List.cons_ne_nil _ _ }

def firstRequest : Request := { target := "/".toList }

/-- What a client with an empty cache receives. -/
def received (hour : Fin 24) : Response :=
  fullResponse (acceptDeflate firstRequest) (index hour)
    (header utc 0 firstRequest (served (siteOf hour) indexHtml).1 (index hour))

def nextRequest (hour : Fin 24) : Request :=
  { target := "/".toList, ifModifiedSince := (received hour).lastModified }

theorem served_siteOf (hour : Fin 24) {req : Request} (h : req.target = "/".toList) :
    servedFile (siteOf hour) req = some (index hour) := by
  rw [servedFile, h]
  rfl

theorem received_siteOf (hour : Fin 24) : httpHandleStaticFile utc 0 (siteOf hour) firstRequest =
    some { status := 200, written := some (received hour) } :=
  answer_without_date rfl rfl rfl rfl rfl

theorem nextRequest_since (hour : Fin 24) : (nextRequest hour).ifModifiedSince =
    makeHttpLastModified (dos2unixtime utc (newYear hour).stamp) :=
  (fullResponse_eq _ _ _).2.1

theorem newYear_lt {h₁ h₂ : Fin 24} (h : h₁ < h₂) :
    (newYear h₁).localTime < (newYear h₂).localTime := by
  have hlt : h₁.val < h₂.val := h
  show (newYear h₁).dayNumber * 86400 + (h₁.val : Int) * 3600 + 0 * 60 + 0 * 2 <
    (newYear h₁).dayNumber * 86400 + (h₂.val : Int) * 3600 + 0 * 60 + 0 * 2
  omega

theorem newer_site_is_sent_iff_morning :
    (GetsContent utc 0 (siteOf 10) (nextRequest 9) (index 10) ↔
      (siteOf 10).globalInfo = true ∧ (index 10).opens (acceptDeflate (nextRequest 9)) = true ∧
        ¬(OrderLost (newYear 9) (newYear 10) ∧ (newYear 9).time utc + 86400 ≤ 2145916799)) ∧
      ∀ d : DosTime, dos2unixtime utc d.stamp ≠ d.time utc :=
  newer_site_is_sent_iff (served_siteOf 9 rfl) rfl (served_siteOf 10 rfl) rfl
    (newYear_lt (by decide)) (received_siteOf 9) rfl

/-- The version of 16:00 is hidden from a client with the version of 15:00, and the stamp of 15:00 is
read as a time of the next day. -/
theorem afternoon_site_is_hidden :
    servedFile (siteOf 15) firstRequest = some (index 15) ∧
      servedFile (siteOf 16) (nextRequest 15) = some (index 16) ∧
      (newYear 15).localTime < (newYear 16).localTime ∧
      httpHandleStaticFile utc 0 (siteOf 15) firstRequest =
        some { status := 200, written := some (received 15) } ∧
      (nextRequest 15).ifModifiedSince = (received 15).lastModified ∧
      ¬GetsContent utc 0 (siteOf 16) (nextRequest 15) (index 16) ∧
      dos2unixtime utc (newYear 15).stamp = (newYear 15).time utc + 86400 := by
  refine ⟨served_siteOf 15 rfl, served_siteOf 16 rfl, newYear_lt (by decide), received_siteOf 15,
    rfl, ?_, ?_⟩
  · rw [getsContent_newer_iff (served_siteOf 16 rfl) rfl (newYear_lt (by decide))
      (nextRequest_since 15)]
    rintro ⟨-, -, hkept⟩
    have hday : (newYear 15).dayNumber = 19723 := by decide
    refine hkept ⟨⟨by decide, by decide, ?_⟩, ?_⟩
    · show (newYear 15).dayNumber * 86400 + 16 * 3600 + 0 * 60 + 0 * 2 ≤
        (newYear 15).dayNumber * 86400 + 15 * 3600 + 0 * 60 + 0 * 2 + 57600
      omega
    · show (newYear 15).dayNumber * 86400 + 15 * 3600 + 0 * 60 + 0 * 2 - 0 + 86400 ≤ 2145916799
      omega
  · rw [dos2unixtime_stamp, if_neg (by decide)]
    exact Int.sub_zero _

end Cmall.StaticFile
