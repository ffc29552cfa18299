import Cmall.Httpc

/-!
Which resource the HTTP client addresses.

The target is right if there is a path or no query, the `Host` field if the port is the known
one, and the TLS server name if the URL ends with the host.
-/

namespace Cmall.Uri

/-- The URL has a query: there is a `?`, and no `#` before it. -/
def hasQuery : List Int8 → Bool
  | [] => false
  | c :: url => if c = '#' then false else if c = '?' then true else hasQuery url

/-! ## Where a query comes from -/

/-- A state that sets a query has read a `?`. -/
def Asked (uri : Uri) (b : List Int8) (result : Option Uri) : Prop :=
  ∀ uri', result = some uri' → uri'.query_ = uri.query_ ∨ hasQuery b = true

variable {uri : Uri}

theorem hasQuery_cons {c : Int8} (h : c ≠ '#') {b : List Int8} (hb : hasQuery b = true) :
    hasQuery (c :: b) = true := by
  rw [hasQuery, if_neg h]
  split
  · rfl
  · exact hb

theorem asked_none (b : List Int8) : Asked uri b none := by
  intro uri' h
  cases h

theorem asked_some {b : List Int8} {uri' : Uri} (h : uri'.query_ = uri.query_) :
    Asked uri b (some uri') := by
  rintro _ ⟨⟩
  exact .inl h

/-- One character more, and the same query so far. -/
theorem Asked.cons {c : Int8} {b : List Int8} {uri' : Uri} {result : Option Uri}
    (h : Asked uri' b result) (hc : c ≠ '#') (hquery : uri'.query_ = uri.query_) :
    Asked uri (c :: b) result := by
  intro r hr
  rcases h r hr with h | h
  · exact .inl (h.trans hquery)
  · exact .inr (hasQuery_cons hc h)

theorem Asked.question (b : List Int8) (result : Option Uri) :
    Asked uri (('?' : Int8) :: b) result :=
  fun _ _ => .inr rfl

theorem Asked.of_eq {b : List Int8} {uri' : Uri} {result : Option Uri} (h : Asked uri' b result)
    (hquery : uri'.query_ = uri.query_) : Asked uri b result :=
  fun r hr => (h r hr).imp_left fun h => h.trans hquery

/-- A fragment sets nothing else. -/
theorem fragment_frame (uri : Uri) (start b : List Int8) {uri' : Uri}
    (h : Parse.fragment uri start b = some uri') : ∃ v, uri' = { uri with fragment_ := v } := by
  induction b with
  | nil => cases h
  | cons c b ih =>
    unfold Parse.fragment at h
    split at h
    · cases h
      exact ⟨_, rfl⟩
    · split at h
      · exact ih h
      · cases h

theorem toFragment_frame (uri : Uri) (b : List Int8) {uri' : Uri}
    (h : Parse.toFragment uri b = some uri') : ∃ v, uri' = { uri with fragment_ := v } := by
  unfold Parse.toFragment at h
  split at h
  · cases h
    exact ⟨_, rfl⟩
  · exact fragment_frame uri b b h

theorem asked_toFragment (uri : Uri) (b c : List Int8) : Asked uri c (Parse.toFragment uri b) := by
  intro uri' h
  obtain ⟨v, rfl⟩ := toFragment_frame uri b h
  exact .inl rfl

theorem asked_path (uri : Uri) (start b : List Int8) : Asked uri b (Parse.path uri start b) := by
  induction b with
  | nil => exact asked_none []
  | cons c b ih =>
    unfold Parse.path
    split
    · next hc =>
      subst hc
      exact .question b _
    · split
      · exact (asked_toFragment _ b (c :: b)).of_eq rfl
      · next hhash =>
        split
        · exact asked_some rfl
        · split
          · exact ih.cons hhash rfl
          · exact asked_none _

theorem asked_port (uri : Uri) (start b : List Int8) : Asked uri b (Parse.port uri start b) := by
  induction b with
  | nil => exact asked_none []
  | cons c b ih =>
    unfold Parse.port
    split
    · exact (asked_path _ (c :: b) (c :: b)).of_eq rfl
    · split
      · next hc =>
        subst hc
        exact .question b _
      · split
        · exact (asked_toFragment _ b (c :: b)).of_eq rfl
        · next hhash =>
          split
          · exact asked_some rfl
          · split
            · exact ih.cons hhash rfl
            · exact asked_none _

theorem asked_portStart (uri : Uri) (start b : List Int8) :
    Asked uri b (Parse.portStart uri start b) := by
  cases b with
  | nil => exact asked_none []
  | cons c b =>
    rw [Parse.portStart]
    split
    · next hdigit =>
      refine (asked_port uri start b).cons ?_ rfl
      rintro rfl
      exact absurd hdigit (by decide)
    · exact asked_none _

theorem asked_afterBracket (uri : Uri) (b : List Int8) : Asked uri b (Parse.afterBracket uri b) := by
  cases b with
  | nil => exact asked_some rfl
  | cons c b =>
    rw [Parse.afterBracket]
    split
    · next hc =>
      subst hc
      exact (asked_portStart uri b b).cons (by decide) rfl
    · split
      · exact asked_path uri (c :: b) (c :: b)
      · split
        · next hc =>
          subst hc
          exact .question b _
        · split
          · intro uri' h
            obtain ⟨v, rfl⟩ := fragment_frame uri b b h
            exact .inl rfl
          · exact asked_none _

theorem asked_host (uri : Uri) (isIpv6 : Bool) (start b : List Int8) :
    Asked uri b (Parse.host uri isIpv6 start b) := by
  induction b with
  | nil => exact asked_none []
  | cons c b ih =>
    unfold Parse.host
    split
    · split
      · exact asked_none _
      · split
        · exact asked_some rfl
        · exact asked_some rfl
    · split
      · next hc =>
        obtain ⟨_, rfl⟩ := hc
        exact (asked_afterBracket _ b).cons (by decide) rfl
      · split
        · exact asked_none _
        · split
          · next hc =>
            obtain ⟨_, rfl⟩ := hc
            exact (asked_portStart _ b b).cons (by decide) rfl
          · split
            · exact (asked_path _ (c :: b) (c :: b)).of_eq rfl
            · split
              · next hok =>
                refine ih.cons ?_ rfl
                rintro rfl
                exact absurd hok (by decide)
              · split
                · next hc =>
                  subst hc
                  exact .question b _
                · split
                  · exact (asked_toFragment _ b (c :: b)).of_eq rfl
                  · exact asked_none _

theorem asked_hostStart (uri : Uri) (start b : List Int8) :
    Asked uri b (Parse.hostStart uri start b) := by
  cases b with
  | nil => exact asked_none []
  | cons c b =>
    rw [Parse.hostStart]
    split
    · next hok =>
      have hc : c ≠ '#' := by
        rintro rfl
        exact absurd hok (by decide)
      split
      · exact (asked_host uri true b b).cons hc rfl
      · exact (asked_host uri false start b).cons hc rfl
    · exact asked_none _

theorem hostPort_query {p : Parse.Probe} {stop : List Int8} {uri' : Uri}
    (h : p.hostPort uri stop = some uri') : uri'.query_ = uri.query_ := by
  unfold Parse.Probe.hostPort at h
  split at h
  · split at h
    · split at h
      · cases h
      · split at h
        · cases h
          rfl
        · cases h
          rfl
    · cases h
  · split at h
    · cases h
    · split at h
      · cases h
        rfl
      · cases h
        rfl

theorem userinfo_query (p : Parse.Probe) (uri : Uri) (stop : List Int8) :
    (p.userinfo uri stop).query_ = uri.query_ := by
  unfold Parse.Probe.userinfo
  split <;> rfl

theorem asked_probe (uri : Uri) (p : Parse.Probe) (b : List Int8) :
    Asked uri b (Parse.probeUserinfoHostname uri p b) := by
  induction b generalizing p with
  | nil => exact asked_none []
  | cons c b ih =>
    rw [Parse.probeUserinfoHostname]
    generalize p.bracket c b = p
    by_cases hat : c = '@'
    · subst hat
      exact (asked_hostStart _ b b).cons (by decide) (userinfo_query p uri _)
    by_cases hcolon : c = ':'
    · subst hcolon
      exact (ih _).cons (by decide) rfl
    by_cases hquestion : c = '?'
    · subst hquestion
      exact .question b _
    simp only [if_neg hat, if_neg hcolon, if_neg hquestion]
    split
    · cases hp : p.hostPort uri (c :: b) with
      | none => exact asked_none _
      | some uri' => exact (asked_path uri' (c :: b) (c :: b)).of_eq (hostPort_query hp)
    · split
      · cases hp : p.hostPort uri (c :: b) with
        | none => exact asked_none _
        | some uri' => exact (asked_toFragment uri' b (c :: b)).of_eq (hostPort_query hp)
      · next hhash =>
        split
        · cases hp : p.hostPort uri b with
          | none => exact asked_none _
          | some uri' => exact asked_some (hostPort_query hp)
        · split
          · exact (ih _).cons hhash rfl
          · exact asked_none _

theorem asked_slash (uri : Uri) (b : List Int8) : Asked uri b (Parse.slash uri b) := by
  cases b with
  | nil => exact asked_none []
  | cons c b =>
    rw [Parse.slash]
    split
    · next hc =>
      subst hc
      exact (asked_probe uri _ b).cons (by decide) rfl
    · exact asked_none _

/-! ## URLs without an authority -/

theorem query_path (uri : Uri) (start b : List Int8) {uri' : Uri}
    (h : Parse.query uri start b = some uri') : uri'.path_ = uri.path_ := by
  induction b with
  | nil => cases h
  | cons c b ih =>
    unfold Parse.query at h
    split at h
    · obtain ⟨v, rfl⟩ := toFragment_frame _ b h
      rfl
    · split at h
      · cases h
        rfl
      · split at h
        · exact ih h
        · cases h

/-- The path begins with the character after the scheme. -/
theorem urn_path (uri : Uri) (first : Int8) {b : List Int8} (before : List Int8) {uri' : Uri}
    (h : Parse.urn uri (first :: before ++ b) b = some uri') :
    ∃ rest, uri'.path_.text = first :: rest := by
  induction b generalizing before with
  | nil => cases h
  | cons c b ih =>
    unfold Parse.urn at h
    split at h
    · cases h
      have htext := View.text_between (first :: before ++ c :: b) b
      next hb =>
      subst hb
      exact ⟨before ++ [c], by rwa [List.append_nil] at htext⟩
    · split at h
      · rw [query_path _ b b h]
        exact ⟨before, View.text_between (first :: before) (c :: b)⟩
      · refine ih (before ++ [c]) ?_
        rw [← h]
        simp

/-- An accepted URL has the query it is parsed to, unless its path begins without a slash. -/
def QueryAsked (b : List Int8) (result : Option Uri) : Prop :=
  ∀ uri', result = some uri' → uri'.query_.text = [] ∨ hasQuery b = true ∨
    ∃ c rest, uri'.path_.text = c :: rest ∧ c ≠ '/'

theorem queryAsked_skipSlash (uri : Uri) {b : List Int8}
    (h : hasQuery (Parse.skipSlash uri b) = true) : hasQuery b = true := by
  unfold Parse.skipSlash at h
  split at h
  · split at h
    · split at h
      · next hslash =>
        rw [hslash.1]
        exact hasQuery_cons (by decide) h
      · exact h
    · exact h
  · exact h

theorem queryAsked_slashStart (uri : Uri) (huri : uri.query_.text = []) (b : List Int8) :
    QueryAsked b (Parse.slashStart uri b) := by
  intro uri' h
  cases b with
  | nil => cases h
  | cons c b =>
    rw [Parse.slashStart] at h
    split at h
    · next hc =>
      subst hc
      rcases asked_slash uri _ uri' h with hquery | hasked
      · exact .inl (hquery ▸ huri)
      · exact .inr (.inl (hasQuery_cons (by decide) (queryAsked_skipSlash uri hasked)))
    · next hslash =>
      by_cases hquestion : c = '?'
      · subst hquestion
        exact .inr (.inl rfl)
      · rw [Parse.urn] at h
        split at h
        · next hb =>
          subst hb
          cases h
          exact .inr (.inr ⟨c, [], View.text_between [c] [], hslash⟩)
        · obtain ⟨rest, hrest⟩ := urn_path uri c [] h
          exact .inr (.inr ⟨c, rest, hrest, hslash⟩)

theorem queryAsked_scheme {uri : Uri} (huri : uri.query_.text = []) (start b : List Int8) :
    QueryAsked b (Parse.scheme uri start b) := by
  intro uri' h
  induction b with
  | nil => cases h
  | cons c b ih =>
    rw [Parse.scheme] at h
    split at h
    · next hok =>
      have hc : c ≠ '#' := by
        rintro rfl
        exact absurd hok (by decide)
      exact (ih h).imp_right fun h => h.imp_left (hasQuery_cons hc)
    · split at h
      · next hc =>
        subst hc
        have hasked := queryAsked_slashStart
          { uri with scheme_ := .between start ((':' : Int8) :: b) } huri b uri' h
        exact hasked.imp_right fun h => h.imp_left (hasQuery_cons (by decide))
      · cases h

theorem queryAsked_parse (url : List Int8) : QueryAsked url (parse {} url) := by
  intro uri' h
  cases url with
  | nil => cases h
  | cons c url =>
    rw [parse, Parse.schemeStart] at h
    split at h
    · next halpha =>
      have hc : c ≠ '#' := by
        rintro rfl
        exact absurd halpha (by decide)
      exact (queryAsked_scheme rfl _ url uri' h).imp_right fun h => h.imp_left (hasQuery_cons hc)
    · cases h

end Cmall.Uri

namespace Cmall.Httpc
open Uri (chars iequals)

/-! ## The fields -/

theorem iequals_congr {a b c : List Int8} (h : iequals a b = true) :
    iequals a c = iequals b c := by
  unfold iequals at h ⊢
  rw [of_decide_eq_true h]

theorem get?_erase_of_ne {name other : List Int8} (h : iequals name other = false)
    (fields : Fields) : get? name (erase other fields) = get? name fields := by
  unfold get? erase
  congr 1
  induction fields with
  | nil => rfl
  | cons field fields ih =>
    by_cases hfield : iequals other field.1 = true
    · have hname : iequals name field.1 = false := by
        rw [Bool.eq_false_iff]
        intro hname
        unfold iequals at *
        rw [of_decide_eq_true hname, ← of_decide_eq_true hfield] at h
        simp at h
      rw [List.filter_cons_of_neg (by simp [hfield]), List.find?_cons_of_neg (by simp [hname]), ih]
    · rw [List.filter_cons_of_pos (by simpa using hfield)]
      by_cases hname : iequals name field.1 = true
      · simp [hname]
      · simp [hname, ih]

theorem get?_erase_self (name : List Int8) (fields : Fields) :
    get? name (erase name fields) = none := by
  unfold get? erase
  rw [List.find?_filter, Option.map_eq_none_iff, List.find?_eq_none]
  intro field _
  simp

/-- `set` on the field of a name. -/
theorem get?_set {name other value : List Int8} {fields fields' : Fields}
    (h : set other value fields = .ok fields') : get? name fields' =
      if iequals name other = true then some (trim value) else get? name fields := by
  unfold set at h
  split at h
  · cases h
  split at h
  · cases h
  cases h
  by_cases hname : iequals name other = true
  · have herase : get? name (erase other fields) = none := by
      have hself := get?_erase_self other fields
      unfold get? at hself ⊢
      simp only [iequals_congr hname, hself]
    unfold get? at herase ⊢
    rw [Option.map_eq_none_iff] at herase
    rw [if_pos hname, List.find?_append, herase]
    simp [hname]
  · rw [if_neg hname, ← get?_erase_of_ne (Bool.eq_false_iff.mpr hname) fields]
    unfold get?
    rw [List.find?_append]
    simp [hname]

/-- The value the caller gives for a field: the last one. -/
def given (name : List Int8) (headers : Fields) : Option (List Int8) :=
  get? name headers.reverse

theorem get?_foldlM {name : List Int8} {headers fields fields' : Fields}
    (h : headers.foldlM (fun fields header => set header.1 header.2 fields) fields = .ok fields') :
    get? name fields' = ((given name headers).map trim).or (get? name fields) := by
  induction headers generalizing fields with
  | nil =>
    cases h
    rfl
  | cons header headers ih =>
    rw [List.foldlM_cons] at h
    cases hset : set header.1 header.2 fields with
    | error e =>
      rw [hset] at h
      cases h
    | ok mid =>
      rw [hset] at h
      rw [ih h, get?_set hset]
      unfold given get?
      rw [List.reverse_cons, List.find?_append]
      cases List.find? (fun field => iequals name field.1) headers.reverse with
      | some field => rfl
      | none =>
        by_cases hname : iequals name header.1 = true
        · simp [hname]
        · simp [hname]

theorem bind_ok {α β : Type} {x : Except Exn α} {f : α → Except Exn β} {b : β}
    (h : x >>= f = .ok b) : ∃ a, x = .ok a ∧ f a = .ok b := by
  cases x with
  | error e => cases h
  | ok a => exact ⟨a, rfl, h⟩

theorem host_setContentLength {length : Option Nat} {fields fields' : Fields}
    (h : setContentLength length fields = .ok fields') :
    get? (chars "Host") fields' = get? (chars "Host") fields := by
  cases length with
  | none =>
    cases h
    exact get?_erase_of_ne (by decide) fields
  | some n => rw [get?_set h, if_neg (by decide)]

theorem host_setNotChunked {filter : List Int8 → List Int8} {fields fields' : Fields}
    (h : setNotChunked filter fields = .ok fields') :
    get? (chars "Host") fields' = get? (chars "Host") fields := by
  unfold setNotChunked at h
  split at h
  · cases h
    rfl
  · split at h
    · cases h
      exact get?_erase_of_ne (by decide) fields
    · rw [get?_set h, if_neg (by decide)]

theorem host_payloadFields {net : Network} {option : RequestOptions} {fields fields' : Fields}
    (h : payloadFields net option fields = .ok fields') :
    get? (chars "Host") fields' = get? (chars "Host") fields := by
  unfold payloadFields at h
  split at h
  · cases h
    rfl
  · unfold preparePayload at h
    split at h
    · obtain ⟨mid, hmid, hend⟩ := bind_ok h
      rw [host_setNotChunked hend, host_setContentLength hmid]
    · obtain ⟨mid, hmid, hend⟩ := bind_ok h
      rw [host_setContentLength hend, host_setNotChunked hmid]

/-- The host of the URL, unless the caller gives the field. -/
theorem host_requestFields {net : Network} {option : RequestOptions} {url : Uri} {fields : Fields}
    (h : requestFields net option url = .ok fields) : get? (chars "Host") fields =
      some (trim ((given (chars "Host") option.headers).getD url.host_.text)) := by
  obtain ⟨hostFields, hhost, h⟩ := bind_ok h
  obtain ⟨agentFields, hagent, h⟩ := bind_ok h
  obtain ⟨codingFields, hcoding, h⟩ := bind_ok h
  have hcodingHost : get? (chars "Host") codingFields = some (trim url.host_.text) := by
    have hagentHost : get? (chars "Host") agentFields = some (trim url.host_.text) := by
      rw [get?_set hagent, if_neg (by decide), get?_set hhost, if_pos (by decide)]
    unfold acceptEncoding at hcoding
    split at hcoding
    · rw [get?_set hcoding, if_neg (by decide), hagentHost]
    · cases hcoding
      exact hagentHost
  rw [get?_foldlM h, hcodingHost]
  cases given (chars "Host") option.headers <;> rfl

/-! ## The request -/

/-- What a request that is sent consists of. -/
theorem doRequest_sent {net : Network} {option : RequestOptions} {sent : Sent}
    (h : doRequest net option = .ok (some sent)) :
    ∃ url, Uri.parse {} option.url = some url ∧ sent.target = target url ∧
      get? (chars "Host") sent.fields =
        some (trim ((given (chars "Host") option.headers).getD url.host_.text)) ∧
      sent.tlsHostName = if isSecure url then some (cString url.host_.data) else none := by
  obtain ⟨url, hurl, h⟩ := bind_ok h
  have hparse : Uri.parse {} option.url = some url := by
    unfold Uri.make at hurl
    split at hurl
    · next hp =>
      cases hurl
      exact hp
    · cases hurl
  refine ⟨url, hparse, ?_⟩
  by_cases hresolve : net.asyncResolve url.host_.text url.port = true
  · rw [if_neg (not_not.mpr hresolve)] at h
    by_cases htls : isSecure url = true ∧ ¬net.setTlsextHostName (cString url.host_.data) = true
    · rw [if_pos htls] at h
      cases h
    rw [if_neg htls] at h
    by_cases hconnects : net.connects = true
    · rw [if_neg (not_not.mpr hconnects)] at h
      obtain ⟨fields, hfields, h⟩ := bind_ok h
      obtain ⟨fields', hpayload, h⟩ := bind_ok h
      cases h
      exact ⟨rfl, by rw [host_payloadFields hpayload, host_requestFields hfields], rfl⟩
    · rw [if_pos hconnects] at h
      cases h
  · rw [if_pos hresolve] at h
    cases h

/-- The port the URL gives, if it is not the known one. -/
def portSuffix (url : Uri) : List Int8 :=
  if url.port_.text = [] ∨ url.port_.text = url.knownport then [] else ':' :: url.port_.text

/-- The request addresses the resource of the URL. -/
structure Addresses (text : List Int8) (url : Uri) (sent : Sent) : Prop where
  slash : sent.target.head? = some ('/' : Int8)
  target : sent.target = (if url.path_.text = [] then chars "/" else url.path_.text) ++
    if Uri.hasQuery text then ('?' : Int8) :: url.query_.text else []
  host : get? (chars "Host") sent.fields = some (url.host_.text ++ portSuffix url)
  tls : iequals url.scheme_.text (chars "https") = true → sent.tlsHostName = some url.host_.text

/-- Which URLs and fields are served well. -/
structure WellAddressed (option : RequestOptions) (url : Uri) : Prop where
  path : url.path_.text = [] ∨ url.path_.text.head? = some ('/' : Int8)
  query : Uri.hasQuery option.url = true → url.query_.text ≠ [] ∧ url.path_.text ≠ []
  host : given (chars "Host") option.headers = none →
    portSuffix url = [] ∧ trim url.host_.text = url.host_.text
  givenHost : ∀ value, given (chars "Host") option.headers = some value →
    trim value = url.host_.text ++ portSuffix url
  secure : iequals url.scheme_.text (chars "https") = true → url.scheme_.text = chars "https"
  tlsHost : iequals url.scheme_.text (chars "https") = true → (0 : Int8) ∉ url.host_.text ∧
    (url.host_.data.drop url.host_.size = [] ∨
      (url.host_.data.drop url.host_.size).head? = some 0)

theorem length_trim_le (value : List Int8) : (trim value).length ≤ value.length := by
  unfold trim
  rw [List.length_reverse]
  refine (List.length_dropWhile_le _ _).trans ?_
  rw [List.length_reverse]
  exact List.length_dropWhile_le _ _

/-- A view that is read as a C string. -/
theorem cString_eq_iff (v : View) : cString v.data = v.text ↔
    (0 : Int8) ∉ v.text ∧ (v.data.drop v.size = [] ∨ (v.data.drop v.size).head? = some 0) := by
  have hdata : v.data = v.text ++ v.data.drop v.size := (List.take_append_drop v.size v.data).symm
  generalize v.data.drop v.size = rest at hdata ⊢
  rw [hdata]
  unfold cString
  constructor
  · intro h
    have hall : ∀ c ∈ v.text, decide (c ≠ 0) = true := by
      intro c hc
      rw [← h] at hc
      have hne := List.mem_takeWhile_imp hc
      exact hne
    refine ⟨fun hzero => absurd (hall 0 hzero) (by decide), ?_⟩
    rw [List.takeWhile_append_of_pos hall, List.append_right_eq_self] at h
    cases rest with
    | nil => exact .inl rfl
    | cons c rest =>
      right
      by_contra hc
      rw [List.takeWhile_cons_of_pos (by simpa using hc)] at h
      cases h
  · rintro ⟨hzero, hrest⟩
    have hall : ∀ c ∈ v.text, decide (c ≠ 0) = true := by
      intro c hc
      rw [decide_eq_true_iff]
      rintro rfl
      exact hzero hc
    rw [List.takeWhile_append_of_pos hall, List.append_right_eq_self]
    cases rest with
    | nil => rfl
    | cons c rest =>
      have hc : c = 0 := by simpa using hrest
      rw [List.takeWhile_cons_of_neg (by simp [hc])]

theorem target_eq (url : Uri) : target url =
    if url.query_.text = [] then if url.path_.text = [] then chars "/" else url.path_.text
    else url.path_.text ++ ('?' : Int8) :: url.query_.text := by
  unfold target Uri.pathQuery
  by_cases hquery : url.query_.text = []
  · have hempty : url.query_.empty = true := (View.empty_iff _).mpr hquery
    rw [if_pos hempty, if_pos hquery]
  · have hempty : ¬url.query_.empty = true := fun h => hquery ((View.empty_iff _).mp h)
    rw [if_neg hempty, if_neg hquery, if_neg]
    · simp [chars]
    · simp [hquery]

/-- The target, for what `parse` makes of a URL. -/
theorem target_right_iff {text : List Int8} {url : Uri}
    (hasked : url.query_.text = [] ∨ Uri.hasQuery text = true ∨
      ∃ c rest, url.path_.text = c :: rest ∧ c ≠ '/') :
    ((target url).head? = some ('/' : Int8) ∧
      target url = (if url.path_.text = [] then chars "/" else url.path_.text) ++
        if Uri.hasQuery text then ('?' : Int8) :: url.query_.text else []) ↔
    (url.path_.text = [] ∨ url.path_.text.head? = some ('/' : Int8)) ∧
      (Uri.hasQuery text = true → url.query_.text ≠ [] ∧ url.path_.text ≠ []) := by
  rw [target_eq]
  by_cases hquery : url.query_.text = []
  · rw [if_pos hquery]
    by_cases hhas : Uri.hasQuery text = true
    · -- the question mark of an empty query is not sent
      refine iff_of_false (fun h => ?_) fun h => (h.2 hhas).1 hquery
      rw [if_pos hhas] at h
      exact absurd (List.append_right_eq_self.mp h.2.symm) (List.cons_ne_nil _ _)
    · rw [if_neg hhas, List.append_nil]
      refine ⟨fun h => ⟨?_, fun h' => absurd h' hhas⟩, fun h => ⟨?_, rfl⟩⟩
      · by_cases hpath : url.path_.text = []
        · exact .inl hpath
        · rw [if_neg hpath] at h
          exact .inr h.1
      · by_cases hpath : url.path_.text = []
        · rw [if_pos hpath]
          rfl
        · rw [if_neg hpath]
          exact h.1.resolve_left hpath
  · rw [if_neg hquery]
    rcases hpath : url.path_.text with _ | ⟨c, rest⟩
    · -- the target begins with the question mark
      have hhas : Uri.hasQuery text = true := by
        rcases hasked with h | h | ⟨c, rest, h, _⟩
        · exact absurd h hquery
        · exact h
        · rw [hpath] at h
          cases h
      refine iff_of_false (fun h => ?_) fun h => (h.2 hhas).2 rfl
      have hhead : ('?' : Int8) = '/' := Option.some.inj h.1
      exact absurd hhead (by decide)
    · by_cases hc : c = '/'
      · have hhas : Uri.hasQuery text = true := by
          rcases hasked with h | h | ⟨d, rest', h, hd⟩
          · exact absurd h hquery
          · exact h
          · rw [hpath] at h
            cases h
            exact absurd hc hd
        rw [if_pos hhas, if_neg (List.cons_ne_nil c rest)]
        refine iff_of_true ⟨?_, rfl⟩ ⟨.inr ?_, fun _ => ⟨hquery, List.cons_ne_nil c rest⟩⟩
        · rw [hc]
          rfl
        · rw [hc]
          rfl
      · refine iff_of_false (fun h => hc (Option.some.inj h.1)) fun h => ?_
        rcases h.1 with h | h
        · cases h
        · exact hc (Option.some.inj h)

/-- The `Host` field. -/
theorem host_right_iff {option : RequestOptions} {url : Uri} :
    some (trim ((given (chars "Host") option.headers).getD url.host_.text)) =
        some (url.host_.text ++ portSuffix url) ↔
      (given (chars "Host") option.headers = none →
        portSuffix url = [] ∧ trim url.host_.text = url.host_.text) ∧
      ∀ value, given (chars "Host") option.headers = some value →
        trim value = url.host_.text ++ portSuffix url := by
  rw [Option.some.injEq]
  cases given (chars "Host") option.headers with
  | none =>
    rw [Option.getD_none]
    constructor
    · intro h
      refine ⟨fun _ => ?_, fun value hv => nomatch hv⟩
      have hlen := length_trim_le url.host_.text
      rw [h, List.length_append] at hlen
      have hnil : portSuffix url = [] := List.length_eq_zero_iff.mp (by omega)
      rw [hnil, List.append_nil] at h
      exact ⟨hnil, h⟩
    · intro h
      obtain ⟨hnil, htrim⟩ := h.1 rfl
      rw [hnil, htrim, List.append_nil]
  | some value =>
    rw [Option.getD_some]
    constructor
    · intro h
      refine ⟨fun hnone => (nomatch hnone), fun other hother => ?_⟩
      rw [← Option.some.inj hother]
      exact h
    · exact fun h => h.2 value rfl

theorem tls_right_iff {url : Uri} :
    (iequals url.scheme_.text (chars "https") = true →
      (if isSecure url then some (cString url.host_.data) else none) = some url.host_.text) ↔
    (iequals url.scheme_.text (chars "https") = true → url.scheme_.text = chars "https") ∧
      (iequals url.scheme_.text (chars "https") = true → (0 : Int8) ∉ url.host_.text ∧
        (url.host_.data.drop url.host_.size = [] ∨
          (url.host_.data.drop url.host_.size).head? = some 0)) := by
  by_cases hsecure : isSecure url = true
  · have hscheme : url.scheme_.text = chars "https" := of_decide_eq_true hsecure
    rw [if_pos hsecure, Option.some.injEq, cString_eq_iff]
    exact ⟨fun h => ⟨fun _ => hscheme, h⟩, fun h => h.2⟩
  · have hscheme : url.scheme_.text ≠ chars "https" := fun h => hsecure (decide_eq_true h)
    rw [if_neg hsecure]
    constructor
    · exact fun h => ⟨fun hi => (nomatch h hi), fun hi => (nomatch h hi)⟩
    · exact fun h hi => absurd (h.1 hi) hscheme

/-- A request that is sent addresses the resource of its URL exactly in these cases. -/
theorem request_addresses_iff (net : Network) (option : RequestOptions) (sent : Sent)
    (h : doRequest net option = .ok (some sent)) :
    ∃ url, Uri.parse {} option.url = some url ∧
      (Addresses option.url url sent ↔ WellAddressed option url) := by
  obtain ⟨url, hparse, htarget, hhost, htls⟩ := doRequest_sent h
  refine ⟨url, hparse, ?_⟩
  have htargetIff := target_right_iff (Uri.queryAsked_parse option.url url hparse)
  have hhostIff := @host_right_iff option url
  have htlsIff := @tls_right_iff url
  rw [← htarget] at htargetIff
  rw [← hhost] at hhostIff
  rw [← htls] at htlsIff
  constructor
  · intro ha
    obtain ⟨hpath, hquery⟩ := htargetIff.mp ⟨ha.slash, ha.target⟩
    obtain ⟨hnone, hsome⟩ := hhostIff.mp ha.host
    obtain ⟨hsecure, hname⟩ := htlsIff.mp ha.tls
    exact ⟨hpath, hquery, hnone, hsome, hsecure, hname⟩
  · intro hw
    obtain ⟨hslash, htarget⟩ := htargetIff.mpr ⟨hw.path, hw.query⟩
    exact ⟨hslash, htarget, hhostIff.mpr ⟨hw.host, hw.givenHost⟩,
      htlsIff.mpr ⟨hw.secure, hw.tlsHost⟩⟩

/-- A network in which everything works. -/
def working : Network where
  asyncResolve := fun _ _ => true
  setTlsextHostName := fun name => 0 < name.length ∧ name.length ≤ 255
  connects := true

/-- What is sent for `https://h:8?q`. -/
def misaddressed : Sent where
  tlsHostName := some (chars "h:8?q")
  verb := .get
  target := chars "?q"
  fields := [(chars "Host", chars "h"), (chars "User-Agent", chars "curl/7.82.0"),
    (chars "Accept-Encoding", chars "gzip, deflate")]
  body := []

theorem request_addresses_iff_misaddressed : ∃ url, Uri.parse {} (chars "https://h:8?q") = some url ∧
    (Addresses (chars "https://h:8?q") url misaddressed ↔
      WellAddressed { verb := .get, url := chars "https://h:8?q" } url) :=
  request_addresses_iff working { verb := .get, url := chars "https://h:8?q" } misaddressed (by decide)

/-- Neither the target nor the host nor the server name is right. -/
theorem port_and_query_are_misaddressed :
    doRequest working { verb := .get, url := chars "https://h:8?q" } = .ok (some misaddressed) ∧
    ∃ url, Uri.parse {} (chars "https://h:8?q") = some url ∧ url.host_.text = chars "h" ∧
      url.port = chars "8" ∧ misaddressed.target.head? ≠ some ('/' : Int8) ∧
      get? (chars "Host") misaddressed.fields ≠ some (chars "h:8") ∧
      misaddressed.tlsHostName ≠ some url.host_.text ∧
      ¬Addresses (chars "https://h:8?q") url misaddressed := by
  have hhead : misaddressed.target.head? ≠ some ('/' : Int8) := by decide
  refine ⟨by decide, _, rfl, rfl, rfl, hhead, by decide, ?_, fun h => hhead h.slash⟩
  intro h
  exact absurd (Option.some.inj h) (by decide)

end Cmall.Httpc
