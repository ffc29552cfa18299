import Cmall.Safety.UrlRest

/-!
How the automaton of `uri::parse` reads a host.

Behind a user there are states for it. Without one it is read by the state that does not know
yet whether it reads a user or a host.
-/

namespace Cmall.Uri
open View Grammar Parse

variable {url : Components} {uri : Uri}

/-! ## The host behind a user -/

/-- The port and what is behind it. -/
def afterHost (url : Components) : List Int8 := introduced ':' url.port ++ url.rest

/-- The state of the host at the end of a name. -/
theorem host_text (uri : Uri) (start : List Int8) {name : List Int8}
    (hname : ∀ c ∈ name, Occurs nameChar c) {rest : List Int8}
    (hne : name ++ rest ≠ []) : Parse.host uri false start (name ++ rest) =
      if Every (fun c => c ≠ '&' ∧ c ≠ ';') (inner name rest) then
        if rest = [] then some { uri with host_ := between start [] }
        else Parse.host uri false start rest
      else none := by
  have hscan := scan (Parse.host uri false start) (fun c => c ≠ '&' ∧ c ≠ ';') name rest
    (if rest = [] then some { uri with host_ := between start [] }
      else Parse.host uri false start rest) hne ?_ (fun h => (if_neg h).symm) ?_
  · exact hscan
  · intro c hc b hb
    obtain ⟨hslash, hquery, hhash, hcolon, _, _, hclose⟩ := occurs_name_ne (hname c hc)
    rw [Parse.host, if_neg hb, if_neg (fun h => hclose h.2), if_neg (fun h => hslash h.2),
      if_neg (fun h => hcolon h.2), if_neg hslash, if_neg hquery, if_neg hhash]
    exact if_congr (hostOk_iff (hname c hc)) rfl rfl
  · intro hrest c hc
    obtain ⟨hslash, _, _, _, _, _, hclose⟩ := occurs_name_ne (hname c hc)
    rw [Parse.host, if_pos rfl, if_neg (fun h => hslash h.2), if_neg (not_or.mpr ⟨hslash, hclose⟩),
      if_pos hrest]

/-- A name of one character is too short for the two states at the end of the URL. -/
theorem hostStart_name (uri : Uri) {name rest : List Int8} (hne : name ≠ [])
    (hname : ∀ c ∈ name, Occurs nameChar c) :
    Parse.hostStart uri (name ++ rest) (name ++ rest) =
      if (rest = [] → name.length ≠ 1) ∧ Every (fun c => c ≠ '&' ∧ c ≠ ';') (inner name rest) then
        if rest = [] then some { uri with host_ := between (name ++ rest) [] }
        else Parse.host uri false (name ++ rest) rest
      else none := by
  generalize hstart : name ++ rest = start
  cases name with
  | nil => exact absurd rfl hne
  | cons c name =>
    have hc := hname c List.mem_cons_self
    obtain ⟨_, _, _, _, _, hopen, _⟩ := occurs_name_ne hc
    rw [← hstart, List.cons_append, Parse.hostStart, if_neg hopen, ← List.cons_append, hstart]
    by_cases hend : name ++ rest = []
    · obtain ⟨rfl, rfl⟩ := List.append_eq_nil_iff.mp hend
      rw [if_neg (fun h => h.1 rfl rfl : ¬(([] = [] → [c].length ≠ 1) ∧ _))]
      split <;> rfl
    · have hlen : rest = [] → (c :: name).length ≠ 1 := by
        rintro rfl hlen
        apply hend
        rw [List.append_nil]
        exact List.length_eq_zero_iff.mp (Nat.succ.inj hlen)
      rw [host_text uri start (fun d hd => hname d (List.mem_cons_of_mem c hd)) hend,
        inner_cons hend]
      have hstartOk : (isunreserved c = true ∨ issubdelims c = true ∨ c = '%' ∨ c = '[') ↔
          c ≠ '&' ∧ c ≠ ';' := hostStartOk_iff hc
      by_cases hfirst : c ≠ '&' ∧ c ≠ ';'
      · rw [if_pos (hstartOk.mpr hfirst)]
        refine if_congr ?_ rfl rfl
        rw [and_iff_right hlen, every_cons, and_iff_right hfirst]
      · rw [if_neg fun h => hfirst (hstartOk.mp h), if_neg]
        rintro ⟨_, h⟩
        exact hfirst (h c List.mem_cons_self)

/-- What was read before the host is returned. -/
structure UserReturns (url : Components) (uri : Uri) : Prop where
  scheme : uri.scheme_.text = url.scheme
  username : uri.username_.text = url.username
  password : uri.password_.text = url.password

/-- The state of a host and that of a guess have no `&` and no `;`. -/
def NameRight (url : Components) : Prop :=
  ∀ name, url.host = .regName name → ∀ c ∈ inner name (afterHost url), c ≠ '&' ∧ c ≠ ';'

/-- Behind a user no part that ends the URL may be one character long, but the slash behind a
bracket. -/
structure BehindUser (url : Components) : Prop where
  name : ∀ name, url.host = .regName name → afterHost url = [] → name.length ≠ 1
  port : ∀ digits, url.port = some digits → url.rest = [] → digits.length ≠ 1
  rest : url.port = none → url.rest.length = 1 →
    ∃ address, url.host = .ipv6 address ∧ url.path ≠ []

theorem authorityReturns_iff {uri' : Uri} (hscheme : uri'.scheme_ = uri.scheme_)
    (husername : uri'.username_ = uri.username_) (hpassword : uri'.password_ = uri.password_)
    (hhost : uri'.host_.text = url.host.bare) (hport : uri'.port_.text = url.port.getD []) :
    AuthorityReturns url uri' ↔ UserReturns url uri := by
  constructor
  · intro h
    exact ⟨hscheme ▸ h.scheme, husername ▸ h.username, hpassword ▸ h.password⟩
  · intro h
    exact ⟨hscheme ▸ h.scheme, husername ▸ h.username, hpassword ▸ h.password, hhost, hport⟩

/-- The text of the path of a URL whose rest is one slash. -/
theorem path_of_rest_slash (h : url.rest = [('/' : Int8)]) : url.path = [('/' : Int8)] := by
  unfold Components.rest at h
  rcases url.pathValid.2 with hpath | ⟨text, hpath⟩
  · rw [hpath] at h
    cases hq : url.query <;> cases hf : url.fragment <;> rw [hq, hf] at h <;> cases h
  · rw [hpath] at h ⊢
    have htail := List.tail_eq_of_cons_eq h
    rw [(List.append_eq_nil_iff.mp htail).1]

/-- A name that is followed by one character. -/
theorem not_right_host_single {c : Int8} {name : List Int8} (h : Fresh uri)
    (hhost : url.host = .regName name) (hrest : url.rest = [c]) :
    ¬Right url (Parse.host uri false (name ++ [c]) [c]) := by
  have hbare : url.host.bare = name := by rw [hhost]; rfl
  have htext : (between (name ++ [c]) []).text = name ++ [c] := by
    have hview := text_between (name ++ [c]) []
    rwa [List.append_nil] at hview
  rintro ⟨r, hr, hreturns⟩
  rcases rest_cases url with hnil | ⟨d, b, hcons, hd⟩
  · rw [hrest] at hnil
    cases hnil
  rw [hrest] at hcons
  cases hcons
  rcases hd with rfl | rfl | rfl
  · -- the slash is taken for the end of the host, and not for a path
    cases hr
    have hpath := hreturns.path
    rw [path_of_rest_slash hrest] at hpath
    simp only [h.path] at hpath
    cases hpath
  · cases hr
    have hview := hreturns.host
    rw [hbare, htext] at hview
    simp at hview
  · cases hr
    have hview := hreturns.host
    rw [hbare, htext] at hview
    simp at hview

/-- A name that is followed by more. -/
theorem host_rest (uri : Uri) (start : List Int8) {c d : Int8} {b : List Int8}
    (hrest : url.rest = c :: d :: b) : Parse.host uri false start url.rest =
      next { uri with host_ := between start url.rest } url.rest := by
  rcases rest_cases url with hnil | ⟨e, b', hcons, he⟩
  · rw [hrest] at hnil
    cases hnil
  rw [hrest] at hcons ⊢
  cases hcons
  rcases he with rfl | rfl | rfl
  · rfl
  · rfl
  · rfl

theorem afterHost_none (h : url.port = none) : afterHost url = url.rest := by
  rw [afterHost, h]
  rfl

theorem afterHost_some {digits : List Int8} (h : url.port = some digits) :
    afterHost url = (':' : Int8) :: (digits ++ url.rest) := by
  rw [afterHost, h]
  rfl

/-- A name and a port. -/
theorem right_host_port {name digits : List Int8} (h : Fresh uri)
    (hhost : url.host = .regName name) (hport : url.port = some digits) :
    Right url (Parse.host uri false (name ++ afterHost url) (afterHost url)) ↔
      BehindUser url ∧ RestRight url ∧ UserReturns url uri := by
  have hbare : url.host.bare = name := by rw [hhost]; rfl
  obtain ⟨hne, _⟩ := url.portValid digits hport
  have hstep : ∀ start, Parse.host uri false start ((':' : Int8) :: (digits ++ url.rest)) =
      Parse.portStart
        { uri with host_ := between start ((':' : Int8) :: (digits ++ url.rest)) }
        (digits ++ url.rest) (digits ++ url.rest) := by
    intro start
    cases digits with
    | nil => exact absurd rfl hne
    | cons d digits => rfl
  have hbehind : BehindUser url ↔ (url.rest = [] → digits.length ≠ 1) := by
    constructor
    · exact fun hb => hb.port digits hport
    · intro hlen
      refine ⟨fun _ _ hnil => ?_, fun other hother => ?_, fun hnone => ?_⟩
      · rw [afterHost_some hport] at hnil
        cases hnil
      · rw [hport] at hother
        cases hother
        exact hlen
      · rw [hport] at hnone
        cases hnone
  rw [afterHost_some hport, hstep, right_portStart (h.withHost _) hport, hbehind]
  refine and_congr_right fun _ => and_congr_right fun _ =>
    authorityReturns_iff rfl rfl rfl ?_ ?_
  · rw [hbare]
    exact text_between name _
  · rw [hport]
    exact text_between digits _

/-- A name without a port. -/
theorem right_host_rest {name : List Int8} (h : Fresh uri) (hempty : uri.port_ = {})
    (hhost : url.host = .regName name) (hport : url.port = none)
    (hlen : url.rest = [] → name.length ≠ 1) :
    Right url (if url.rest = [] then some { uri with host_ := between (name ++ url.rest) [] }
        else Parse.host uri false (name ++ url.rest) url.rest) ↔
      BehindUser url ∧ RestRight url ∧ UserReturns url uri := by
  have hbare : url.host.bare = name := by rw [hhost]; rfl
  have hfresh := h.withHost (between (name ++ url.rest) url.rest)
  have hreturns : AuthorityReturns url
      { uri with host_ := between (name ++ url.rest) url.rest } ↔ UserReturns url uri := by
    refine authorityReturns_iff rfl rfl rfl ((text_between name _).trans hbare.symm) ?_
    rw [hport]
    exact congrArg View.text hempty
  have hbehind : url.rest.length ≠ 1 → BehindUser url := by
    intro hrest
    refine ⟨fun other hother hnil => ?_, fun digits hdigits => ?_, fun _ hone => ?_⟩
    · rw [hhost] at hother
      cases hother
      exact hlen ((afterHost_none hport).symm.trans hnil)
    · rw [hport] at hdigits
      cases hdigits
    · exact absurd hone hrest
  rcases hrest : url.rest with _ | ⟨c, _ | ⟨d, b⟩⟩
  · have hnext : Right url (next _ url.rest) ↔ _ := right_next hfresh
    rw [hreturns, hrest] at hnext
    rw [if_pos rfl, and_iff_right (hbehind (by rw [hrest]; decide))]
    exact hnext
  · rw [if_neg (List.cons_ne_nil c [])]
    refine iff_of_false (not_right_host_single h hhost hrest) fun hr => ?_
    obtain ⟨address, haddress, _⟩ := hr.1.rest hport (by rw [hrest]; rfl)
    rw [hhost] at haddress
    cases haddress
  · rw [if_neg (List.cons_ne_nil c _), ← hrest, host_rest uri _ hrest, right_next hfresh,
      hreturns, and_iff_right (hbehind (by rw [hrest]; simp))]

theorem nameRight_iff {name : List Int8} (hhost : url.host = .regName name) :
    NameRight url ↔ Every (fun c => c ≠ '&' ∧ c ≠ ';') (inner name (afterHost url)) := by
  constructor
  · exact fun hn => hn name hhost
  · intro hn other hother
    rw [hhost] at hother
    cases hother
    exact hn

theorem right_hostStart_name {name : List Int8} (h : Fresh uri) (hempty : uri.port_ = {})
    (hhost : url.host = .regName name) :
    Right url (Parse.hostStart uri url.authority url.authority) ↔
      NameRight url ∧ BehindUser url ∧ RestRight url ∧ UserReturns url uri := by
  have hvalid := url.hostValid
  rw [hhost] at hvalid
  have hauthority : url.authority = name ++ afterHost url := by
    rw [Components.authority, hhost]
    rfl
  have hname := nameRight_iff hhost
  rw [hauthority, hostStart_name uri hvalid.1 hvalid.2.mem]
  by_cases hok : (afterHost url = [] → name.length ≠ 1) ∧
      Every (fun c => c ≠ '&' ∧ c ≠ ';') (inner name (afterHost url))
  · rw [if_pos hok, and_iff_right (hname.mpr hok.2)]
    cases hport : url.port with
    | none =>
      have hlen := hok.1
      rw [afterHost_none hport] at hlen ⊢
      exact right_host_rest h hempty hhost hport hlen
    | some digits =>
      rw [if_neg (by rw [afterHost_some hport]; exact List.cons_ne_nil _ _)]
      exact right_host_port h hhost hport
  · rw [if_neg hok]
    exact iff_of_false right_none fun hr => hok ⟨hr.2.1.name name hhost, hname.mp hr.1⟩

/-- The state of the host in an address. -/
theorem host_address (uri : Uri) (start tail : List Int8) {address : List Int8}
    (h : ∀ c ∈ address, addressChar c = true) :
    Parse.host uri true start (address ++ (']' : Int8) :: tail) =
      Parse.afterBracket { uri with host_ := between start ((']' : Int8) :: tail) } tail := by
  have hscan := scan (Parse.host uri true start) (fun _ => True) address ((']' : Int8) :: tail)
    (Parse.afterBracket { uri with host_ := between start ((']' : Int8) :: tail) } tail)
    (by simp) ?_ ?_ (fun hnil => nomatch hnil)
  · rw [hscan, if_pos (every_true _)]
  · intro c hc b hb
    obtain ⟨hslash, _, _, _, _, hclose⟩ := address_ne (h c hc)
    rw [Parse.host, if_neg hb, if_neg (fun h => hclose h.2), if_neg (fun h => hslash h.2),
      if_neg (fun h => h.1 rfl), if_neg hslash, if_pos trivial, if_pos]
    rcases (address_ok (h c hc)).1 with hc | hc
    · exact .inl hc
    · exact .inr (.inr (.inr (.inl hc)))
  · intro _
    cases tail with
    | nil => rfl
    | cons c tail => rfl

/-- A bracket, and no port. -/
theorem right_afterBracket :
    Right url (Parse.afterBracket uri url.rest) ↔
      (url.rest.length = 1 → url.path ≠ []) ∧ Right url (next uri url.rest) := by
  rcases hrest : url.rest with _ | ⟨c, b⟩
  · exact (and_iff_right fun hone => nomatch hone).symm
  have hpath : url.path ≠ [] ↔ c = '/' := by
    unfold Components.rest at hrest
    rcases url.pathValid.2 with hpath | ⟨text, hpath⟩
    · refine iff_of_false (fun hne => hne hpath) ?_
      rintro rfl
      rw [hpath] at hrest
      cases hq : url.query <;> cases hf : url.fragment <;> rw [hq, hf] at hrest <;> cases hrest
    · refine iff_of_true (by rw [hpath]; exact List.cons_ne_nil _ _) ?_
      rw [hpath] at hrest
      exact (List.head_eq_of_cons_eq hrest).symm
  rcases rest_cases url with hnil | ⟨d, b', hcons, hd⟩
  · rw [hrest] at hnil
    cases hnil
  rw [hrest] at hcons
  cases hcons
  rcases hd with rfl | rfl | rfl
  · exact (and_iff_right fun _ => hpath.mpr rfl).symm
  · cases b with
    | nil => exact iff_of_false right_none fun hr => absurd (hpath.mp (hr.1 rfl)) (by decide)
    | cons d b => exact (and_iff_right fun hone => nomatch hone).symm
  · cases b with
    | nil => exact iff_of_false right_none fun hr => absurd (hpath.mp (hr.1 rfl)) (by decide)
    | cons d b => exact (and_iff_right fun hone => nomatch hone).symm

theorem nameRight_ipv6 {address : List Int8} (hhost : url.host = .ipv6 address) :
    NameRight url := by
  intro name hname
  rw [hhost] at hname
  cases hname

theorem right_hostStart_ipv6 {address : List Int8} (h : Fresh uri) (hempty : uri.port_ = {})
    (hhost : url.host = .ipv6 address) :
    Right url (Parse.hostStart uri url.authority url.authority) ↔
      NameRight url ∧ BehindUser url ∧ RestRight url ∧ UserReturns url uri := by
  have hvalid := url.hostValid
  rw [hhost] at hvalid
  have hauthority : url.authority =
      ('[' : Int8) :: (address ++ (']' : Int8) :: afterHost url) := by
    rw [Components.authority, hhost]
    simp [Host.text, afterHost]
  have hbare : url.host.bare = address := by rw [hhost]; rfl
  obtain ⟨v, hview, hstart⟩ : ∃ v : View, v.text = url.host.bare ∧
      Parse.hostStart uri url.authority url.authority =
        Parse.afterBracket { uri with host_ := v } (afterHost url) := by
    have hview := text_between address ((']' : Int8) :: afterHost url)
    rw [← hbare] at hview
    refine ⟨_, hview, ?_⟩
    rw [hauthority, hbare]
    exact host_address uri _ _ hvalid.2
  have hfresh := h.withHost v
  rw [hstart, and_iff_right (nameRight_ipv6 hhost)]
  have hname : ∀ name, url.host = .regName name → afterHost url = [] → name.length ≠ 1 := by
    intro name hname
    rw [hhost] at hname
    cases hname
  cases hport : url.port with
  | none =>
    rw [afterHost_none hport] at hname ⊢
    have hbehind : BehindUser url ↔ (url.rest.length = 1 → url.path ≠ []) := by
      constructor
      · intro hb hone
        exact (hb.rest hport hone).choose_spec.2
      · intro hpath
        refine ⟨fun name hn hnil => ?_, fun digits hdigits => ?_, fun _ hone => ?_⟩
        · rw [afterHost_none hport] at hnil
          exact hname name hn hnil
        · rw [hport] at hdigits
          cases hdigits
        · exact ⟨address, hhost, hpath hone⟩
    rw [right_afterBracket, right_next hfresh, hbehind]
    refine and_congr_right fun _ => and_congr_right fun _ =>
      authorityReturns_iff rfl rfl rfl hview ?_
    rw [hport]
    exact congrArg View.text hempty
  | some digits =>
    rw [afterHost_some hport]
    have hbehind : BehindUser url ↔ (url.rest = [] → digits.length ≠ 1) := by
      constructor
      · exact fun hb => hb.port digits hport
      · intro hlen
        refine ⟨hname, fun other hother => ?_, fun hnone => ?_⟩
        · rw [hport] at hother
          cases hother
          exact hlen
        · rw [hport] at hnone
          cases hnone
    rw [hbehind]
    refine (right_portStart hfresh hport).trans ?_
    refine and_congr_right fun _ => and_congr_right fun _ =>
      authorityReturns_iff rfl rfl rfl hview ?_
    rw [hport]
    exact text_between digits _

theorem right_hostStart (h : Fresh uri) (hempty : uri.port_ = {}) :
    Right url (Parse.hostStart uri url.authority url.authority) ↔
      NameRight url ∧ BehindUser url ∧ RestRight url ∧ UserReturns url uri := by
  cases hhost : url.host with
  | regName name => exact right_hostStart_name h hempty hhost
  | ipv6 address => exact right_hostStart_ipv6 h hempty hhost

/-! ## The host without a user -/

theorem bracket_of_ne {c : Int8} (p : Probe) (b : List Int8) (hopen : c ≠ '[') (hclose : c ≠ ']') :
    p.bracket c b = p := by
  rw [Probe.bracket, if_neg hopen, if_neg hclose]

/-- The probe reads on, and keeps what it has. -/
theorem probe_text (uri : Uri) (p : Probe) (hp : p.isIpv6 = false) {text rest : List Int8}
    (htext : ∀ c ∈ text, Occurs passwordChar c) (hcolon : ∀ c ∈ text, c = ':' → p.probe.empty = false)
    (hlast : rest = [] → ∀ c ∈ text, c ≠ ':') (hne : text ++ rest ≠ []) :
    Parse.probeUserinfoHostname uri p (text ++ rest) =
      if Every (fun c => c ≠ '&' ∧ c ≠ ';') (inner text rest) then
        if rest = [] then p.hostPort uri [] else Parse.probeUserinfoHostname uri p rest
      else none := by
  refine scan (Parse.probeUserinfoHostname uri p) (fun c => c ≠ '&' ∧ c ≠ ';') text rest
    (if rest = [] then p.hostPort uri [] else Parse.probeUserinfoHostname uri p rest) hne ?_
    (fun h => (if_neg h).symm) ?_
  · intro c hc b hb
    obtain ⟨hslash, hquery, hhash, hat, hopen, hclose⟩ := occurs_password_ne (htext c hc)
    rw [Parse.probeUserinfoHostname, bracket_of_ne p b hopen hclose]
    by_cases hc' : c = ':'
    · have hempty := hcolon c hc hc'
      subst hc'
      simp only [if_neg hat, if_true, hempty, Bool.false_eq_true, if_false]
      exact (if_pos (by decide)).symm
    · simp only [if_neg hat, if_neg hc', if_neg hslash, if_neg hquery, if_neg hhash, if_neg hb, hp,
        Bool.false_and]
      refine if_congr (probeOk_iff ((occurs_password (htext c hc)).resolve_right hc')) ?_ rfl
      rw [← hp]
  · intro hrest c hc
    obtain ⟨hslash, hquery, hhash, hat, hopen, hclose⟩ := occurs_password_ne (htext c hc)
    rw [Parse.probeUserinfoHostname, bracket_of_ne p [] hopen hclose]
    simp only [if_neg hat, if_neg (hlast hrest c hc), if_neg hslash, if_neg hquery, if_neg hhash,
      if_true, if_pos hrest]

/-- The probe at the end of the authority. -/
theorem probe_rest (uri : Uri) (p : Probe) (h : url.rest ≠ []) :
    Parse.probeUserinfoHostname uri p url.rest =
      (p.hostPort uri url.rest).bind fun uri => next uri url.rest := by
  rcases rest_cases url with hrest | ⟨c, b, hrest, hc⟩
  · exact absurd hrest h
  rw [hrest]
  rcases hc with rfl | rfl | rfl
  · unfold Parse.probeUserinfoHostname
    rw [show p.bracket ('/' : Int8) b = p from rfl]
    dsimp only
    cases p.hostPort uri (('/' : Int8) :: b) <;> rfl
  · unfold Parse.probeUserinfoHostname
    rw [show p.bracket ('?' : Int8) b = p from rfl]
    dsimp only
    cases p.hostPort uri (('?' : Int8) :: b) <;> rfl
  · unfold Parse.probeUserinfoHostname
    rw [show p.bracket ('#' : Int8) b = p from rfl]
    dsimp only
    cases p.hostPort uri (('#' : Int8) :: b) <;> rfl

/-- At the end of the URL as well. -/
theorem probe_end (uri : Uri) (p : Probe) :
    (if url.rest = [] then p.hostPort uri []
      else Parse.probeUserinfoHostname uri p url.rest) =
      (p.hostPort uri url.rest).bind fun uri => next uri url.rest := by
  by_cases hrest : url.rest = []
  · rw [if_pos hrest, hrest]
    cases p.hostPort uri [] <;> rfl
  · rw [if_neg hrest, probe_rest uri p hrest]

/-- The digits of a port keep the guess of the host, whatever it is. -/
theorem probe_digits (uri : Uri) (p : Probe) {digits : List Int8} (hne : digits ≠ [])
    (hdigits : ∀ c ∈ digits, isdigit c = true) :
    Parse.probeUserinfoHostname uri p (digits ++ url.rest) =
      (p.hostPort uri url.rest).bind fun uri => next uri url.rest := by
  have hscan := scan (Parse.probeUserinfoHostname uri p) (fun _ => True) digits url.rest
    (if url.rest = [] then p.hostPort uri [] else Parse.probeUserinfoHostname uri p url.rest)
    (by simp [hne]) ?_ (fun h => (if_neg h).symm) ?_
  · rw [hscan, if_pos (every_true _), probe_end]
  · intro c hc b hb
    obtain ⟨hslash, hquery, hhash, hcolon, hat, hopen, hclose⟩ := isdigit_ne (hdigits c hc)
    have hok := isunreserved_of_alnum (.inr (hdigits c hc))
    have hv6 := notIpv6_of_isdigit (hdigits c hc)
    rw [Parse.probeUserinfoHostname, bracket_of_ne p b hopen hclose]
    simp only [if_neg hat, if_neg hcolon, if_neg hslash, if_neg hquery, if_neg hhash, if_neg hb, hok,
      hv6, Bool.not_false, Bool.and_true, true_or, if_true]
  · intro hrest c hc
    obtain ⟨hslash, hquery, hhash, hcolon, hat, hopen, hclose⟩ := isdigit_ne (hdigits c hc)
    rw [Parse.probeUserinfoHostname, bracket_of_ne p [] hopen hclose]
    simp only [if_neg hat, if_neg hcolon, if_neg hslash, if_neg hquery, if_neg hhash, if_true,
      if_pos hrest]

theorem size_between (chunk rest : List Int8) : (between (chunk ++ rest) rest).size = chunk.length := by
  simp [between]

/-- A pointer behind a view and the character that follows it. -/
theorem drop_between {chunk rest : List Int8} {c : Int8} :
    (between (chunk ++ c :: rest) (c :: rest)).data.drop
      ((between (chunk ++ c :: rest) (c :: rest)).size + 1) = rest := by
  rw [size_between]
  show (chunk ++ c :: rest).drop (chunk.length + 1) = rest
  rw [List.drop_append]
  simp

theorem empty_between {chunk rest : List Int8} (h : chunk ≠ []) :
    (between (chunk ++ rest) rest).empty = false := by
  rw [← Bool.not_eq_true, text_eq_nil_iff]
  exact h

/-- A guess that has set the host, and the port if there is one. -/
theorem right_probe_end {p : Probe} {uri' : Uri} (hp : p.hostPort uri url.rest = some uri')
    (h : Fresh uri')
    (hreturns : AuthorityReturns url uri' ↔ UserReturns url uri) :
    Right url ((p.hostPort uri url.rest).bind fun uri => next uri url.rest) ↔
      RestRight url ∧ UserReturns url uri := by
  rw [hp]
  exact (right_next h).trans (and_congr_right fun _ => hreturns)

theorem right_probe_name {name : List Int8} (h : Fresh uri) (hempty : uri.port_ = {})
    (hhost : url.host = .regName name) :
    Right url (Parse.probeUserinfoHostname uri { partStart := url.authority } url.authority) ↔
      NameRight url ∧ RestRight url ∧ UserReturns url uri := by
  have hvalid := url.hostValid
  rw [hhost] at hvalid
  have hbare : url.host.bare = name := by rw [hhost]; rfl
  have hname := nameRight_iff hhost
  have hauthority : url.authority = name ++ afterHost url := by
    rw [Components.authority, hhost]
    rfl
  rw [hauthority, probe_text uri { partStart := name ++ afterHost url } rfl
    (fun c hc => occurs_password_of_name (hvalid.2.mem c hc))
    (fun c hc hcolon => absurd hcolon (occurs_name_ne (hvalid.2.mem c hc)).2.2.2.1)
    (fun _ c hc => (occurs_name_ne (hvalid.2.mem c hc)).2.2.2.1) (by simp [hvalid.1])]
  by_cases hok : Every (fun c => c ≠ '&' ∧ c ≠ ';') (inner name (afterHost url))
  · rw [if_pos hok, and_iff_right (hname.mpr hok)]
    cases hport : url.port with
    | none =>
      rw [afterHost_none hport, probe_end]
      refine right_probe_end rfl (h.withHost _) (authorityReturns_iff rfl rfl rfl
        ((text_between name url.rest).trans hbare.symm) ?_)
      rw [hport]
      exact congrArg View.text hempty
    | some digits =>
      obtain ⟨hne, hdigits⟩ := url.portValid digits hport
      rw [afterHost_some hport, if_neg (List.cons_ne_nil _ _)]
      show Right url (Parse.probeUserinfoHostname uri
        { partStart := name ++ (':' : Int8) :: (digits ++ url.rest)
          probe := between (name ++ (':' : Int8) :: (digits ++ url.rest))
            ((':' : Int8) :: (digits ++ url.rest)) } (digits ++ url.rest)) ↔ _
      rw [probe_digits uri _ hne hdigits]
      generalize htail : (':' : Int8) :: (digits ++ url.rest) = tail
      have hp : ({ partStart := name ++ tail, probe := between (name ++ tail) tail } : Probe).hostPort
          uri url.rest = some { uri with
            host_ := between (name ++ tail) tail, port_ := between (digits ++ url.rest) url.rest } := by
        rw [← htail]
        simp only [Probe.hostPort, empty_between hvalid.1, drop_between]
        rfl
      refine right_probe_end hp (h.withHostPort _ _) (authorityReturns_iff rfl rfl rfl
        ((text_between name _).trans hbare.symm) ?_)
      rw [hport]
      exact text_between digits _
  · rw [if_neg hok]
    exact iff_of_false right_none fun hr => hok (hname.mp hr.1)

/-! ## An address without a user -/

theorem probe_address (uri : Uri) (start v6 tail : List Int8) {address : List Int8}
    (h : ∀ c ∈ address, addressChar c = true) (w : View) : ∃ w' : View,
    Parse.probeUserinfoHostname uri
        { partStart := start, v6Start := some v6, isIpv6 := true, probe := w }
        (address ++ (']' : Int8) :: tail) =
      Parse.probeUserinfoHostname uri
        { partStart := start, v6Start := some v6, isIpv6 := true, probe := w' }
        ((']' : Int8) :: tail) := by
  induction address generalizing w with
  | nil => exact ⟨w, rfl⟩
  | cons c address ih =>
    have hc := h c List.mem_cons_self
    have hrest : ∀ d ∈ address, addressChar d = true := fun d hd => h d (List.mem_cons_of_mem c hd)
    obtain ⟨hslash, hquery, hhash, hat, hopen, hclose⟩ := address_ne hc
    obtain ⟨hok, hv6⟩ := address_ok hc
    rw [List.cons_append, Parse.probeUserinfoHostname, bracket_of_ne _ _ hopen hclose]
    by_cases hcolon : c = ':'
    · simp only [if_neg hat, if_pos hcolon]
      split
      · exact ih hrest _
      · exact ih hrest w
    · have hread : isunreserved c = true := hok.resolve_right hcolon
      simp only [if_neg hat, if_neg hcolon, if_neg hslash, if_neg hquery, if_neg hhash,
        if_neg (List.append_ne_nil_of_right_ne_nil address (List.cons_ne_nil _ tail)), hread, hv6,
        Bool.not_false, Bool.and_true, true_or, if_true]
      exact ih hrest w

/-- The guess behind the closing bracket. -/
def closed (start v6 tail : List Int8) (w : View) : Probe :=
  { partStart := start, v6Start := some v6, v6End := some ((']' : Int8) :: tail), isIpv6 := true,
    probe := w }

/-- The whole address, which ends with a guess without a port. -/
theorem probe_ipv6 (uri : Uri) {address : List Int8} (tail : List Int8)
    (hvalid : address ≠ [] ∧ ∀ c ∈ address, addressChar c = true) :
    ∃ w : View, w.empty = true ∧
      Parse.probeUserinfoHostname uri
          { partStart := ('[' : Int8) :: (address ++ (']' : Int8) :: tail) }
          (('[' : Int8) :: (address ++ (']' : Int8) :: tail)) =
        if tail = [] then
          (closed (('[' : Int8) :: (address ++ (']' : Int8) :: tail))
            (address ++ (']' : Int8) :: tail) tail w).hostPort uri []
        else Parse.probeUserinfoHostname uri (closed
          (('[' : Int8) :: (address ++ (']' : Int8) :: tail))
          (address ++ (']' : Int8) :: tail) tail w) tail := by
  generalize hv6 : address ++ (']' : Int8) :: tail = v6
  have hopen : Parse.probeUserinfoHostname uri { partStart := ('[' : Int8) :: v6 }
      (('[' : Int8) :: v6) = Parse.probeUserinfoHostname uri
        { partStart := ('[' : Int8) :: v6, v6Start := some v6, isIpv6 := true, probe := {} } v6 := by
    rw [← hv6]
    cases address with
    | nil => exact absurd rfl hvalid.1
    | cons c address => rfl
  obtain ⟨w, haddress⟩ := probe_address uri (('[' : Int8) :: v6) v6 tail hvalid.2 {}
  refine ⟨if w.empty then w else {}, ?_, ?_⟩
  · split
    · assumption
    · rfl
  · rw [hopen, ← hv6] at *
    rw [haddress]
    cases tail with
    | nil => rfl
    | cons c tail => rfl

theorem hostPort_closed (uri : Uri) {address : List Int8} (start tail stop : List Int8) (w : View)
    (hne : address ≠ []) :
    (closed start (address ++ (']' : Int8) :: tail) tail w).hostPort uri stop =
      if w.empty then
        some { uri with host_ := between (address ++ (']' : Int8) :: tail) ((']' : Int8) :: tail) }
      else
        some { uri with
          host_ := between (address ++ (']' : Int8) :: tail) ((']' : Int8) :: tail)
          port_ := between (w.data.drop (w.size + 1)) stop } := by
  have hview : ¬address ++ (']' : Int8) :: tail = (']' : Int8) :: tail := by
    intro h
    have hlen := congrArg List.length h
    rw [List.length_append] at hlen
    exact hne (List.length_eq_zero_iff.mp (by omega))
  simp only [closed, Probe.hostPort, if_true, if_neg hview]
  rfl

theorem right_probe_ipv6 {address : List Int8} (h : Fresh uri) (hempty : uri.port_ = {})
    (hhost : url.host = .ipv6 address) :
    Right url (Parse.probeUserinfoHostname uri { partStart := url.authority } url.authority) ↔
      NameRight url ∧ RestRight url ∧ UserReturns url uri := by
  have hvalid := url.hostValid
  rw [hhost] at hvalid
  have hbare : url.host.bare = address := by rw [hhost]; rfl
  have hauthority : url.authority =
      ('[' : Int8) :: (address ++ (']' : Int8) :: afterHost url) := by
    rw [Components.authority, hhost]
    simp [Host.text, afterHost]
  have hview := (text_between address ((']' : Int8) :: afterHost url)).trans hbare.symm
  obtain ⟨w, hw, hprobe⟩ := probe_ipv6 uri (afterHost url) hvalid
  rw [and_iff_right (nameRight_ipv6 hhost), hauthority, hprobe]
  cases hport : url.port with
  | none =>
    rw [afterHost_none hport] at hview ⊢
    rw [probe_end]
    refine right_probe_end ((hostPort_closed uri _ _ _ w hvalid.1).trans (if_pos hw)) (h.withHost _)
      (authorityReturns_iff rfl rfl rfl hview ?_)
    rw [hport]
    exact congrArg View.text hempty
  | some digits =>
    obtain ⟨hne, hdigits⟩ := url.portValid digits hport
    rw [afterHost_some hport] at hview ⊢
    rw [if_neg (List.cons_ne_nil _ _)]
    generalize htail : (':' : Int8) :: (digits ++ url.rest) = tail at hview ⊢
    generalize hstart : ('[' : Int8) :: (address ++ (']' : Int8) :: tail) = start
    have hcolon : ∀ v6, Parse.probeUserinfoHostname uri (closed start v6 tail w) tail =
        Parse.probeUserinfoHostname uri (closed start v6 tail (between start tail))
          (digits ++ url.rest) := by
      intro v6
      rw [← htail]
      show Parse.probeUserinfoHostname uri (if w.empty then _ else _) _ = _
      rw [if_pos hw]
      rfl
    rw [hcolon, probe_digits uri _ hne hdigits]
    -- the guess begins with the opening bracket, so it is not empty
    have hguess : between start tail =
        between ((('[' : Int8) :: (address ++ [(']' : Int8)])) ++ tail) tail := by
      rw [← hstart]
      simp
    have hport' : (between start tail).data.drop ((between start tail).size + 1) =
        digits ++ url.rest := by
      rw [hguess, ← htail]
      exact drop_between
    have hnonempty : ¬(between start tail).empty = true := by
      rw [hguess, empty_between (List.cons_ne_nil _ _)]
      decide
    have hp := (hostPort_closed uri start tail url.rest (between start tail) hvalid.1).trans
      (if_neg hnonempty)
    rw [hport'] at hp
    refine right_probe_end hp (h.withHostPort _ _) (authorityReturns_iff rfl rfl rfl hview ?_)
    rw [hport]
    exact text_between digits _

theorem right_probe (h : Fresh uri) (hempty : uri.port_ = {}) :
    Right url (Parse.probeUserinfoHostname uri { partStart := url.authority } url.authority) ↔
      NameRight url ∧ RestRight url ∧ UserReturns url uri := by
  cases hhost : url.host with
  | regName name => exact right_probe_name h hempty hhost
  | ipv6 address => exact right_probe_ipv6 h hempty hhost

end Cmall.Uri
