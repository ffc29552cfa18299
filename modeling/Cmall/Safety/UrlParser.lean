import Cmall.Safety.UrlHosts

/-!
When `uri::parse` returns the components of a URL.
-/

namespace Cmall.Uri
open View Grammar Parse

variable {url : Components} {uri : Uri}

/-! ## The user -/

/-- The classes have no `&` and no `;`, and a password needs a user. -/
structure UserinfoRight (info : Userinfo) : Prop where
  user : ∀ c ∈ info.user, c ≠ '&' ∧ c ≠ ';'
  password : ∀ text, info.password = some text →
    info.user ≠ [] ∧ ∀ c ∈ text, c ≠ '&' ∧ c ≠ ';'

/-- A text up to the `@`. -/
theorem probe_at (uri : Uri) (p : Probe) (hp : p.isIpv6 = false) {text rest : List Int8}
    (htext : ∀ c ∈ text, Occurs passwordChar c) (hcolon : ∀ c ∈ text, c = ':' → p.probe.empty = false) :
    Parse.probeUserinfoHostname uri p (text ++ ('@' : Int8) :: rest) =
      if Every (fun c => c ≠ '&' ∧ c ≠ ';') text then
        Parse.hostStart (p.userinfo uri (('@' : Int8) :: rest)) rest rest
      else none := by
  have hne : ('@' : Int8) :: rest ≠ [] := List.cons_ne_nil _ _
  rw [probe_text uri p hp htext hcolon (fun hnil => absurd hnil hne) (by simp), inner, if_neg hne,
    if_neg hne]
  rfl

theorem right_userinfo {v w : View} (h : Fresh uri) (hport : uri.port_ = {})
    (hv : v.text = url.username) (hw : w.text = url.password) :
    Right url (Parse.hostStart { uri with username_ := v, password_ := w } url.authority
        url.authority) ↔
      NameRight url ∧ BehindUser url ∧ RestRight url ∧ uri.scheme_.text = url.scheme := by
  have hfresh : Fresh { uri with username_ := v, password_ := w } :=
    ⟨h.path, h.query, h.fragment⟩
  refine (right_hostStart hfresh hport).trans ?_
  refine and_congr_right fun _ => and_congr_right fun _ => and_congr_right fun _ => ?_
  exact ⟨fun hu => hu.scheme, fun hscheme => ⟨hscheme, hv, hw⟩⟩

theorem right_probe_user {info : Userinfo} (h : Fresh uri) (hport : uri.port_ = {})
    (hpassword : uri.password_ = {}) (hinfo : url.userinfo = some info)
    (hnone : info.password = none) :
    Right url (Parse.probeUserinfoHostname uri { partStart := info.text ++ url.authority }
        (info.text ++ url.authority)) ↔
      UserinfoRight info ∧ NameRight url ∧ BehindUser url ∧ RestRight url ∧
        uri.scheme_.text = url.scheme := by
  have htext : info.text ++ url.authority = info.user ++ ('@' : Int8) :: url.authority := by
    rw [Userinfo.text, hnone]
    simp [introduced]
  have hchars : ∀ c ∈ info.user, Occurs passwordChar c ∧ c ≠ ':' :=
    fun c hc => ⟨occurs_password_of_name (info.userValid.mem c hc),
      (occurs_name_ne (info.userValid.mem c hc)).2.2.2.1⟩
  rw [htext, probe_at uri { partStart := info.user ++ ('@' : Int8) :: url.authority } rfl
    (fun c hc => (hchars c hc).1) (fun c hc hcolon => absurd hcolon (hchars c hc).2)]
  by_cases hok : Every (fun c => c ≠ '&' ∧ c ≠ ';') info.user
  · have hright : UserinfoRight info := by
      refine ⟨hok, fun text ht => ?_⟩
      rw [hnone] at ht
      cases ht
    rw [if_pos hok, and_iff_right hright]
    refine right_userinfo h hport ?_ ?_
    · rw [Components.username, hinfo]
      exact text_between info.user _
    · rw [Components.password, hinfo]
      show uri.password_.text = info.password.getD []
      rw [hpassword, hnone]
      rfl
  · rw [if_neg hok]
    exact iff_of_false right_none fun hr => hok hr.1.user

/-- A user and a password. -/
theorem right_probe_password {info : Userinfo} {password : List Int8} (h : Fresh uri)
    (hport : uri.port_ = {}) (hinfo : url.userinfo = some info)
    (hsome : info.password = some password) (hne : info.user ≠ []) :
    Right url (Parse.probeUserinfoHostname uri { partStart := info.text ++ url.authority }
        (info.text ++ url.authority)) ↔
      UserinfoRight info ∧ NameRight url ∧ BehindUser url ∧ RestRight url ∧
        uri.scheme_.text = url.scheme := by
  have htext : info.text ++ url.authority =
      info.user ++ (':' : Int8) :: (password ++ ('@' : Int8) :: url.authority) := by
    rw [Userinfo.text, hsome]
    simp [introduced]
  have hchars : ∀ c ∈ info.user, Occurs passwordChar c ∧ c ≠ ':' :=
    fun c hc => ⟨occurs_password_of_name (info.userValid.mem c hc),
      (occurs_name_ne (info.userValid.mem c hc)).2.2.2.1⟩
  have hpass : ∀ c ∈ password, Occurs passwordChar c := (info.passwordValid password hsome).mem
  have hright : UserinfoRight info ↔
      Every (fun c => c ≠ '&' ∧ c ≠ ';') info.user ∧
        Every (fun c => c ≠ '&' ∧ c ≠ ';') password := by
    constructor
    · exact fun hr => ⟨hr.user, (hr.password password hsome).2⟩
    · rintro ⟨huser, hpassword⟩
      refine ⟨huser, fun text ht => ?_⟩
      rw [hsome] at ht
      cases ht
      exact ⟨hne, hpassword⟩
  generalize hrest : password ++ ('@' : Int8) :: url.authority = rest at htext
  generalize hstart : info.user ++ (':' : Int8) :: rest = start at htext
  rw [htext]
  have hguess : (between start ((':' : Int8) :: rest)).empty = false := by
    rw [← hstart]
    exact empty_between hne
  have hcolon : Parse.probeUserinfoHostname uri { partStart := start } start =
      if Every (fun c => c ≠ '&' ∧ c ≠ ';') info.user then
        Parse.probeUserinfoHostname uri
          { partStart := start, probe := between start ((':' : Int8) :: rest) } rest
      else none := by
    have hne' : (':' : Int8) :: rest ≠ [] := List.cons_ne_nil _ _
    have hprobe := probe_text uri { partStart := start } rfl
      (fun c hc => (hchars c hc).1) (fun c hc hcolon => absurd hcolon (hchars c hc).2)
      (fun _ c hc => (hchars c hc).2) (List.append_ne_nil_of_right_ne_nil info.user hne')
    rw [hstart, inner, if_neg hne', if_neg hne'] at hprobe
    exact hprobe
  have hpwd : (between start ((':' : Int8) :: rest)).data.drop
      ((between start ((':' : Int8) :: rest)).size + 1) =
        password ++ ('@' : Int8) :: url.authority := by
    rw [← hstart, hrest]
    exact drop_between
  have huserinfo : ({ partStart := start, probe := between start ((':' : Int8) :: rest) } :
      Probe).userinfo uri (('@' : Int8) :: url.authority) =
      { uri with
        password_ := between (password ++ ('@' : Int8) :: url.authority)
          (('@' : Int8) :: url.authority)
        username_ := between start ((':' : Int8) :: rest) } := by
    simp only [Probe.userinfo, hguess, hpwd]
    rfl
  rw [hcolon, ← hrest, probe_at uri _ rfl hpass (fun _ _ _ => by rw [hrest]; exact hguess), hrest,
    huserinfo, hright]
  by_cases huser : Every (fun c => c ≠ '&' ∧ c ≠ ';') info.user
  · by_cases hpassword : Every (fun c => c ≠ '&' ∧ c ≠ ';') password
    · rw [if_pos huser, if_pos hpassword, and_iff_right ⟨huser, hpassword⟩]
      refine right_userinfo h hport ?_ ?_
      · rw [Components.username, hinfo, ← hstart]
        exact text_between info.user _
      · rw [Components.password, hinfo]
        show _ = info.password.getD []
        rw [hsome]
        exact text_between password _
    · rw [if_pos huser, if_neg hpassword]
      exact iff_of_false right_none fun hr => hpassword hr.1.2
  · rw [if_neg huser]
    exact iff_of_false right_none fun hr => huser hr.1.1

/-- The user that is read begins with a colon. -/
def ColonUser (uri : Uri) (rest : List Int8) (result : Option Uri) : Prop :=
  result = none ∨ ∃ user password : View, user.text.head? = some (':' : Int8) ∧
    result = Parse.hostStart { uri with username_ := user, password_ := password } rest rest

/-- A colon without a user before it is read into the name of the user. -/
theorem probe_colon (uri : Uri) (rest : List Int8) {text : List Int8}
    (htext : ∀ c ∈ text, Occurs passwordChar c) (before : List Int8) (w : View)
    (hw : w.empty = true ∨ w.text.head? = some (':' : Int8)) {start : List Int8}
    (hstart : (':' : Int8) :: before ++ (text ++ ('@' : Int8) :: rest) = start) :
    ColonUser uri rest (Parse.probeUserinfoHostname uri { partStart := start, probe := w }
      (text ++ ('@' : Int8) :: rest)) := by
  induction text generalizing before w with
  | nil =>
    right
    have hprobe : Parse.probeUserinfoHostname uri { partStart := start, probe := w }
        ([] ++ ('@' : Int8) :: rest) = Parse.hostStart
          (Probe.userinfo { partStart := start, probe := w } uri (('@' : Int8) :: rest)) rest rest :=
      rfl
    rw [hprobe, Probe.userinfo]
    by_cases hempty : w.empty = true
    · refine ⟨between start (('@' : Int8) :: rest), uri.password_, ?_, by rw [if_pos hempty]⟩
      rw [← hstart, List.nil_append, text_between ((':' : Int8) :: before) (('@' : Int8) :: rest)]
      rfl
    · exact ⟨w, _, hw.resolve_left hempty, by rw [if_neg hempty]⟩
  | cons c text ih =>
    obtain ⟨hslash, hquery, hhash, hat, hopen, hclose⟩ := occurs_password_ne (htext c List.mem_cons_self)
    have hrest : ∀ d ∈ text, Occurs passwordChar d := fun d hd => htext d (List.mem_cons_of_mem c hd)
    -- the character goes from the text to what is before it
    have hmove : (':' : Int8) :: (before ++ [c]) ++ (text ++ ('@' : Int8) :: rest) = start := by
      rw [← hstart]
      simp
    rw [List.cons_append, Parse.probeUserinfoHostname, bracket_of_ne _ _ hopen hclose]
    by_cases hcolon : c = ':'
    · simp only [if_neg hat, if_pos hcolon]
      split
      · refine ih hrest (before ++ [c]) _ (.inr ?_) hmove
        have hview := text_between ((':' : Int8) :: before) (c :: (text ++ ('@' : Int8) :: rest))
        rw [← hstart]
        exact congrArg List.head? hview
      · exact ih hrest (before ++ [c]) w hw hmove
    · simp only [if_neg hat, if_neg hcolon, if_neg hslash, if_neg hquery, if_neg hhash,
        if_neg (List.append_ne_nil_of_right_ne_nil text (List.cons_ne_nil _ rest)), Bool.false_and]
      split
      · exact ih hrest (before ++ [c]) w hw hmove
      · exact .inl rfl

theorem not_right_probe_colon {info : Userinfo} {password : List Int8} (h : Fresh uri)
    (hport : uri.port_ = {}) (hinfo : url.userinfo = some info)
    (hsome : info.password = some password) (hnil : info.user = []) :
    ¬Right url (Parse.probeUserinfoHostname uri { partStart := info.text ++ url.authority }
      (info.text ++ url.authority)) := by
  have htext : info.text ++ url.authority =
      (':' : Int8) :: (password ++ ('@' : Int8) :: url.authority) := by
    rw [Userinfo.text, hsome, hnil]
    simp [introduced]
  rw [htext]
  generalize hstart : (':' : Int8) :: (password ++ ('@' : Int8) :: url.authority) = start
  have hprobe : Parse.probeUserinfoHostname uri { partStart := start } start =
      Parse.probeUserinfoHostname uri { partStart := start, probe := between start start }
        (password ++ ('@' : Int8) :: url.authority) := by
    rw [← hstart]
    rfl
  have hcolon := probe_colon uri url.authority (info.passwordValid password hsome).mem []
    (between start start) (.inl (text_eq_nil_iff.mpr rfl)) hstart
  rw [hprobe]
  rcases hcolon with hnone | ⟨user, pwd, huser, hstart⟩
  · rw [hnone]
    exact right_none
  · rw [hstart]
    intro hright
    have hfresh : Fresh { uri with username_ := user, password_ := pwd } :=
      ⟨h.path, h.query, h.fragment⟩
    have hreturns := ((right_hostStart hfresh hport).mp hright).2.2.2.username
    rw [Components.username, hinfo] at hreturns
    rw [show user.text = info.user from hreturns, hnil] at huser
    cases huser

theorem right_probe_userinfo {info : Userinfo} (h : Fresh uri) (hport : uri.port_ = {})
    (hpassword : uri.password_ = {}) (hinfo : url.userinfo = some info) :
    Right url (Parse.probeUserinfoHostname uri { partStart := info.text ++ url.authority }
        (info.text ++ url.authority)) ↔
      UserinfoRight info ∧ NameRight url ∧ BehindUser url ∧ RestRight url ∧
        uri.scheme_.text = url.scheme := by
  cases hsome : info.password with
  | none => exact right_probe_user h hport hpassword hinfo hsome
  | some password =>
    by_cases hnil : info.user = []
    · refine iff_of_false (not_right_probe_colon h hport hinfo hsome hnil) fun hr => ?_
      exact (hr.1.password password hsome).1 hnil
    · exact right_probe_password h hport hinfo hsome hnil

/-! ## The URL -/

/-- When the components are returned. -/
structure ParsesRight (url : Components) : Prop where
  userinfo : ∀ info, url.userinfo = some info → UserinfoRight info ∧ BehindUser url
  host : NameRight url
  rest : RestRight url

theorem scheme_text (uri : Uri) (start : List Int8) {text : List Int8}
    (h : ∀ c ∈ text, schemeChar c = true) (b : List Int8) :
    Parse.scheme uri start (text ++ (':' : Int8) :: b) =
      Parse.slashStart { uri with scheme_ := between start ((':' : Int8) :: b) } b := by
  induction text with
  | nil => rfl
  | cons c text ih =>
    rw [List.cons_append, Parse.scheme, if_pos (of_decide_eq_true (h c List.mem_cons_self))]
    exact ih fun d hd => h d (List.mem_cons_of_mem c hd)

/-- The two slashes are not followed by a third one. -/
theorem behind_head (url : Components) : ∃ c b, url.behind = c :: b ∧ c ≠ '/' := by
  unfold Components.behind
  cases hinfo : url.userinfo with
  | none =>
    have hvalid := url.hostValid
    unfold Components.authority
    cases hhost : url.host with
    | regName name =>
      rw [hhost] at hvalid
      cases hname : name with
      | nil => exact absurd hname hvalid.1
      | cons c name =>
        rw [hname] at hvalid
        exact ⟨c, _, rfl, (occurs_name_ne (hvalid.2.mem c List.mem_cons_self)).1⟩
    | ipv6 address => exact ⟨'[', _, rfl, by decide⟩
  | some info =>
    cases huser : info.user with
    | nil =>
      cases hpassword : info.password with
      | none =>
        refine ⟨'@', url.authority, ?_, by decide⟩
        show info.text ++ url.authority = _
        rw [Userinfo.text, huser, hpassword]
        rfl
      | some password =>
        refine ⟨':', password ++ [('@' : Int8)] ++ url.authority, ?_, by decide⟩
        show info.text ++ url.authority = _
        rw [Userinfo.text, huser, hpassword]
        rfl
    | cons c user =>
      have hc : Occurs nameChar c := info.userValid.mem c (by rw [huser]; exact List.mem_cons_self)
      refine ⟨c, user ++ introduced ':' info.password ++ [('@' : Int8)] ++ url.authority, ?_,
        (occurs_name_ne hc).1⟩
      show info.text ++ url.authority = _
      rw [Userinfo.text, huser]
      rfl

theorem skipSlash_eq (uri : Uri) {c : Int8} (hc : c ≠ '/') (b : List Int8) :
    Parse.skipSlash uri (('/' : Int8) :: c :: b) = ('/' : Int8) :: c :: b := by
  unfold Parse.skipSlash
  split
  · exact if_neg fun h => hc h.2
  · rfl

theorem parse_text (url : Components) : ∃ v : View, v.text = url.scheme ∧
    parse {} url.text = Parse.probeUserinfoHostname { scheme_ := v } { partStart := url.behind }
      url.behind := by
  obtain ⟨first, scheme, hscheme, halpha, hchars⟩ := url.schemeValid
  obtain ⟨c, b, hbehind, hc⟩ := behind_head url
  have htext : url.text =
      first :: (scheme ++ (':' : Int8) :: ('/' : Int8) :: ('/' : Int8) :: url.behind) := by
    rw [Components.text, hscheme]
    rfl
  have hstart : ∀ start, Parse.schemeStart {} start url.text =
      Parse.probeUserinfoHostname { scheme_ := between start ((':' : Int8) :: ('/' : Int8) ::
        ('/' : Int8) :: url.behind) } { partStart := url.behind } url.behind := by
    intro start
    rw [htext, Parse.schemeStart, if_pos halpha, scheme_text {} start hchars, hbehind]
    show Parse.slash _ (Parse.skipSlash _ (('/' : Int8) :: c :: b)) = _
    rw [skipSlash_eq _ hc]
    rfl
  refine ⟨_, ?_, hstart url.text⟩
  rw [htext, hscheme]
  exact text_between (first :: scheme) _

/-- Exactly such URLs are accepted with their components. -/
theorem parse_returns_iff (url : Components) :
    (∃ uri, parse {} url.text = some uri ∧ Returns url uri) ↔ ParsesRight url := by
  obtain ⟨v, hv, hparse⟩ := parse_text url
  have hfresh : Fresh { scheme_ := v } := ⟨rfl, rfl, rfl⟩
  show Right url (parse {} url.text) ↔ _
  rw [hparse, Components.behind]
  cases hinfo : url.userinfo with
  | none =>
    refine (right_probe hfresh rfl).trans ?_
    constructor
    · rintro ⟨hname, hrest, _⟩
      refine ⟨fun info h => ?_, hname, hrest⟩
      rw [hinfo] at h
      cases h
    · intro h
      refine ⟨h.host, h.rest, hv, ?_, ?_⟩
      · rw [Components.username, hinfo]
        rfl
      · rw [Components.password, hinfo]
        rfl
  | some info =>
    refine (right_probe_userinfo hfresh rfl rfl hinfo).trans ?_
    constructor
    · rintro ⟨huser, hname, hbehind, hrest, _⟩
      refine ⟨fun other h => ?_, hname, hrest⟩
      rw [hinfo] at h
      cases h
      exact ⟨huser, hbehind⟩
    · intro h
      exact ⟨(h.userinfo info hinfo).1, h.host, (h.userinfo info hinfo).2, h.rest, hv⟩

/-- The URL `http://h/?a=%20`. -/
def encodedQuery : Components where
  scheme := chars "http"
  userinfo := none
  host := .regName (chars "h")
  port := none
  path := chars "/"
  query := some (chars "a=%20")
  fragment := none
  schemeValid := ⟨'h', chars "ttp", rfl, rfl, List.all_eq_true.mp rfl⟩
  hostValid := ⟨List.cons_ne_nil _ _, .char rfl .nil⟩
  portValid := fun _ h => nomatch h
  pathValid := ⟨.char rfl .nil, .inr ⟨[], rfl⟩⟩
  queryValid := by
    rintro text ⟨⟩
    exact .char rfl (.char rfl (.percent (by decide) (by decide) .nil))
  fragmentValid := fun _ h => nomatch h

/-- A percent-encoded query is refused. -/
theorem encoded_query_is_refused : encodedQuery.text = chars "http://h/?a=%20" ∧
    ¬∃ uri, parse {} encodedQuery.text = some uri ∧ Returns encodedQuery uri := by
  have hnone : parse {} encodedQuery.text = none := rfl
  refine ⟨rfl, ?_⟩
  rintro ⟨uri, h, _⟩
  rw [hnone] at h
  cases h

end Cmall.Uri
