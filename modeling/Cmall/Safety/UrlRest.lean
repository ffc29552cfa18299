import Cmall.Safety.UrlCharacters

/-!
How the automaton of `uri::parse` reads what follows the host: the port, the path, the query
and the fragment.

Each state reads its component as long as the class of the state has the characters, except
for the last character of the URL, which it takes without a look at it.
-/

namespace Cmall.Uri
open View Grammar Parse

/-- The characters of a component that are not the last of the URL. -/
def inner (text rest : List Int8) : List Int8 := if rest = [] then text.dropLast else text

/-- The components are returned. -/
structure Returns (url : Components) (uri : Uri) : Prop where
  scheme : uri.scheme_.text = url.scheme
  username : uri.username_.text = url.username
  password : uri.password_.text = url.password
  host : uri.host_.text = url.host.bare
  port : uri.port_.text = url.port.getD []
  path : uri.path_.text = url.path
  query : uri.query_.text = url.query.getD []
  fragment : uri.fragment_.text = url.fragment.getD []

/-! ## Reading a component -/

theorem inner_cons {c : Int8} {text rest : List Int8} (h : text ++ rest ≠ []) :
    inner (c :: text) rest = c :: inner text rest := by
  unfold inner
  by_cases hrest : rest = []
  · subst hrest
    rw [List.append_nil] at h
    rw [if_pos rfl, if_pos rfl, List.dropLast_cons_of_ne_nil h]
  · rw [if_neg hrest, if_neg hrest]

theorem inner_subset (text rest : List Int8) : inner text rest ⊆ text := by
  unfold inner
  split
  · exact List.dropLast_subset text
  · exact List.Subset.refl text

/-- Every character of the text is allowed. -/
def Every (ok : Int8 → Prop) (text : List Int8) : Prop := ∀ c ∈ text, ok c

instance (ok : Int8 → Prop) [DecidablePred ok] (text : List Int8) : Decidable (Every ok text) :=
  List.decidableBAll ok text

theorem every_cons {ok : Int8 → Prop} {c : Int8} {text : List Int8} :
    Every ok (c :: text) ↔ ok c ∧ Every ok text := List.forall_mem_cons

theorem every_true (text : List Int8) : Every (fun _ => True) text := fun _ _ => trivial

theorem every_inner_nil (ok : Int8 → Prop) (rest : List Int8) : Every ok (inner [] rest) :=
  fun _ hc => nomatch inner_subset [] rest hc

/-- A state that goes on over the characters `ok`, and over the last one of the URL. -/
theorem scan (X : List Int8 → Option Uri) (ok : Int8 → Prop) [DecidablePred ok]
    (text rest : List Int8) (after : Option Uri) (hne : text ++ rest ≠ [])
    (hstep : ∀ c ∈ text, ∀ b, b ≠ [] → X (c :: b) = if ok c then X b else none)
    (hrest : rest ≠ [] → X rest = after) (hlast : rest = [] → ∀ c ∈ text, X [c] = after) :
    X (text ++ rest) = if Every ok (inner text rest) then after else none := by
  induction text with
  | nil =>
    rw [if_pos (every_inner_nil ok rest)]
    exact hrest hne
  | cons c text ih =>
    by_cases htext : text ++ rest = []
    · obtain ⟨rfl, rfl⟩ := List.append_eq_nil_iff.mp htext
      have hempty : Every ok (inner [c] []) := fun d hd => nomatch hd
      rw [if_pos hempty]
      exact hlast rfl c (List.mem_singleton_self c)
    · have hih := ih htext (fun d hd => hstep d (List.mem_cons_of_mem c hd))
        (fun h d hd => hlast h d (List.mem_cons_of_mem c hd))
      rw [List.cons_append, hstep c List.mem_cons_self _ htext, hih, inner_cons htext]
      by_cases hc : ok c
      · simp [every_cons, hc]
      · simp [every_cons, hc]

/-- At the end of an authority or of a path. -/
def next (uri : Uri) : List Int8 → Option Uri
  | [] => some uri
  | c :: b =>
    if c = '/' then Parse.path uri (c :: b) (c :: b)
    else if c = '?' then toQuery uri b
    else if c = '#' then toFragment uri b
    else none

/-! ## The fragment and the query -/

theorem percent_inner {ok : Int8 → Bool} {text : List Int8} (h : Encoded ok text)
    (hok : ok '%' = false) (rest : List Int8) :
    ('%' : Int8) ∈ inner text rest ↔ ('%' : Int8) ∈ text := by
  unfold inner
  split
  · constructor
    · exact fun hmem => List.dropLast_subset text hmem
    · intro hmem
      rcases List.eq_nil_or_concat text with rfl | ⟨init, last, rfl⟩
      · cases hmem
      have hlast := h.getLast?_ne hok
      rw [List.concat_eq_append, List.getLast?_concat] at hlast
      rw [List.concat_eq_append, List.mem_append, List.mem_singleton] at hmem
      rw [List.concat_eq_append, List.dropLast_concat]
      rcases hmem with hmem | rfl
      · exact hmem
      · exact absurd rfl hlast
  · exact Iff.rfl

theorem queryOk_inner {text : List Int8} (h : Encoded queryChar text) (rest : List Int8) :
    Every QueryOk (inner text rest) ↔ ('%' : Int8) ∉ text := by
  rw [← percent_inner h (by decide) rest]
  constructor
  · intro hok hmem
    have hc := h.mem _ (inner_subset text rest hmem)
    exact (queryOk_iff hc).mp (hok _ hmem) rfl
  · intro hmem c hc
    refine (queryOk_iff (h.mem c (inner_subset text rest hc))).mpr ?_
    rintro rfl
    exact hmem hc

theorem fragment_eq (uri : Uri) (start : List Int8) {text : List Int8}
    (h : Encoded queryChar text) (hne : text ≠ []) : Parse.fragment uri start text =
      if ('%' : Int8) ∈ text then none else some { uri with fragment_ := between start [] } := by
  have hscan := scan (Parse.fragment uri start) QueryOk text []
    (some { uri with fragment_ := between start [] }) (by simpa using hne) ?_
    (fun h => absurd rfl h) ?_
  · rw [List.append_nil] at hscan
    rw [hscan]
    simp only [queryOk_inner h, ite_not]
  · intro c _ b hb
    rw [Parse.fragment, if_neg hb]
    exact if_congr Iff.rfl rfl rfl
  · intro _ c _
    simp only [Parse.fragment, if_true]

/-- The fragment is a view if there is something in it. -/
def withFragment (uri : Uri) : Option (List Int8) → Uri
  | some (c :: text) => { uri with fragment_ := between (c :: text) [] }
  | _ => uri

theorem next_fragment (uri : Uri) {fragment : Option (List Int8)}
    (h : ∀ text, fragment = some text → Encoded queryChar text) :
    next uri (introduced '#' fragment) =
      if ('%' : Int8) ∈ fragment.getD [] then none else some (withFragment uri fragment) := by
  rcases fragment with _ | _ | ⟨c, text⟩
  · rfl
  · rfl
  · have hne : c :: text ≠ [] := List.cons_ne_nil c text
    show toFragment uri (c :: text) = _
    rw [toFragment, if_neg hne, fragment_eq uri _ (h _ rfl) hne]
    rfl

def withQuery (uri : Uri) (query fragment : Option (List Int8)) : Uri :=
  match query with
  | none => uri
  | some text =>
    if text = [] ∧ fragment = none then uri
    else { uri with query_ := between (text ++ introduced '#' fragment) (introduced '#' fragment) }

theorem query_eq (uri : Uri) {text : List Int8} {fragment : Option (List Int8)}
    (h : Encoded queryChar text) (hne : text ++ introduced '#' fragment ≠ []) :
    Parse.query uri (text ++ introduced '#' fragment) (text ++ introduced '#' fragment) =
      if ('%' : Int8) ∈ text then none
      else next (withQuery uri (some text) fragment) (introduced '#' fragment) := by
  have hempty : ¬(text = [] ∧ fragment = none) := by
    rintro ⟨rfl, rfl⟩
    exact hne rfl
  rw [withQuery, if_neg hempty]
  generalize hrest : introduced '#' fragment = rest at hne ⊢
  have hscan := scan (Parse.query uri (text ++ rest)) QueryOk text rest
    (next { uri with query_ := between (text ++ rest) rest } rest) hne ?_ ?_ ?_
  · rw [hscan]
    simp only [queryOk_inner h, ite_not]
  · intro c hc b hb
    rw [Parse.query, if_neg (query_ne_hash (h.mem c hc)), if_neg hb]
    exact if_congr Iff.rfl rfl rfl
  · intro hne
    subst hrest
    cases fragment with
    | none => exact absurd rfl hne
    | some f => rfl
  · rintro rfl c hc
    rw [Parse.query, if_neg (query_ne_hash (h.mem c hc))]
    rfl

/-- The rest of the URL behind the path. -/
theorem next_query (uri : Uri) {query fragment : Option (List Int8)}
    (hq : ∀ text, query = some text → Encoded queryChar text)
    (hf : ∀ text, fragment = some text → Encoded queryChar text) :
    next uri (introduced '?' query ++ introduced '#' fragment) =
      if ('%' : Int8) ∈ query.getD [] ∨ ('%' : Int8) ∈ fragment.getD [] then none
      else some (withFragment (withQuery uri query fragment) fragment) := by
  cases query with
  | none =>
    rw [introduced, List.nil_append, next_fragment uri hf, withQuery]
    exact if_congr (by simp) rfl rfl
  | some text =>
    have hnext : next uri (introduced '?' (some text) ++ introduced '#' fragment) =
        if ('%' : Int8) ∈ text then none
        else next (withQuery uri (some text) fragment) (introduced '#' fragment) := by
      show toQuery uri (text ++ introduced '#' fragment) = _
      unfold toQuery
      by_cases hne : text ++ introduced '#' fragment = []
      · obtain ⟨rfl, hf⟩ := List.append_eq_nil_iff.mp hne
        cases fragment with
        | none => rfl
        | some f => cases hf
      · rw [if_neg hne, query_eq uri (hq text rfl) hne]
    rw [hnext, next_fragment _ hf, Option.getD_some]
    by_cases htext : ('%' : Int8) ∈ text
    · rw [if_pos htext, if_pos (.inl htext)]
    · rw [if_neg htext]
      exact if_congr (or_iff_right htext).symm rfl rfl

/-! ## The path -/

theorem path_eq (uri : Uri) {text rest : List Int8} {query fragment : Option (List Int8)}
    (h : Encoded pathChar text) (hne : text ≠ [])
    (hrest : introduced '?' query ++ introduced '#' fragment = rest) :
    Parse.path uri (text ++ rest) (text ++ rest) =
      if Every (fun c => c ≠ ';' ∧ c ≠ '@') (inner text rest) then
        next { uri with path_ := between (text ++ rest) rest } rest
      else none := by
  have hscan := scan (Parse.path uri (text ++ rest)) PathOk text rest
    (next { uri with path_ := between (text ++ rest) rest } rest) (by simp [hne]) ?_ ?_ ?_
  · rw [hscan]
    refine if_congr (forall₂_congr fun c hc => ?_) rfl rfl
    exact pathOk_iff (h.mem c (inner_subset text rest hc))
  · intro c hc b hb
    obtain ⟨hq, hf⟩ := path_ne (h.mem c hc)
    rw [Parse.path, if_neg hq, if_neg hf, if_neg hb]
    exact if_congr Iff.rfl rfl rfl
  · intro hne
    subst hrest
    cases query with
    | none =>
      cases fragment with
      | none => exact absurd rfl hne
      | some f => rfl
    | some q => rfl
  · rintro rfl c hc
    obtain ⟨hq, hf⟩ := path_ne (h.mem c hc)
    rw [Parse.path, if_neg hq, if_neg hf]
    rfl

/-! ## Behind the authority -/

/-- What the states behind the authority read. -/
structure RestRight (url : Components) : Prop where
  path : ∀ c ∈ inner url.path (introduced '?' url.query ++ introduced '#' url.fragment),
    c ≠ ';' ∧ c ≠ '@'
  query : ('%' : Int8) ∉ url.query.getD []
  fragment : ('%' : Int8) ∉ url.fragment.getD []

/-- The components up to the port are returned. -/
structure AuthorityReturns (url : Components) (uri : Uri) : Prop where
  scheme : uri.scheme_.text = url.scheme
  username : uri.username_.text = url.username
  password : uri.password_.text = url.password
  host : uri.host_.text = url.host.bare
  port : uri.port_.text = url.port.getD []

def withPath (uri : Uri) (text rest : List Int8) : Uri :=
  if text = [] then uri else { uri with path_ := between (text ++ rest) rest }

/-- The result when the rest is read. -/
def withRest (uri : Uri) (url : Components) : Uri :=
  withFragment
    (withQuery
      (withPath uri url.path (introduced '?' url.query ++ introduced '#' url.fragment))
      url.query url.fragment)
    url.fragment

variable {url : Components} {uri : Uri}

theorem next_path (uri : Uri) (url : Components) : next uri url.rest =
    if Every (fun c => c ≠ ';' ∧ c ≠ '@')
      (inner url.path (introduced '?' url.query ++ introduced '#' url.fragment))
    then next (withPath uri url.path (introduced '?' url.query ++ introduced '#' url.fragment))
      (introduced '?' url.query ++ introduced '#' url.fragment)
    else none := by
  obtain ⟨hvalid, hpath⟩ := url.pathValid
  unfold Components.rest withPath
  rcases hpath with hpath | ⟨text, hpath⟩
  · rw [hpath, if_pos rfl, if_pos (every_inner_nil _ _)]
    rfl
  · have hne : url.path ≠ [] := by
      rw [hpath]
      exact List.cons_ne_nil _ text
    rw [if_neg hne, ← path_eq uri hvalid hne rfl]
    rw [hpath]
    rfl

theorem next_of_right (h : RestRight url) : next uri url.rest = some (withRest uri url) := by
  have hpath : Every (fun c => c ≠ ';' ∧ c ≠ '@')
      (inner url.path (introduced '?' url.query ++ introduced '#' url.fragment)) := h.path
  rw [next_path, if_pos hpath, next_query _ url.queryValid url.fragmentValid, if_neg]
  · rfl
  · rintro (hq | hf)
    · exact h.query hq
    · exact h.fragment hf

theorem next_of_not_right (h : ¬RestRight url) : next uri url.rest = none := by
  rw [next_path]
  split
  · next hpath =>
    rw [next_query _ url.queryValid url.fragmentValid, if_pos]
    by_contra hnot
    exact h ⟨hpath, fun hq => hnot (.inl hq), fun hf => hnot (.inr hf)⟩
  · rfl

/-- A uri whose path, query and fragment are not set yet. -/
structure Fresh (uri : Uri) : Prop where
  path : uri.path_ = {}
  query : uri.query_ = {}
  fragment : uri.fragment_ = {}

theorem Fresh.withHost (h : Fresh uri) (v : View) : Fresh { uri with host_ := v } :=
  ⟨h.path, h.query, h.fragment⟩

theorem Fresh.withPort (h : Fresh uri) (v : View) : Fresh { uri with port_ := v } :=
  ⟨h.path, h.query, h.fragment⟩

theorem Fresh.withHostPort (h : Fresh uri) (v w : View) :
    Fresh { uri with host_ := v, port_ := w } :=
  ⟨h.path, h.query, h.fragment⟩

theorem withFragment_eq (uri : Uri) (fragment : Option (List Int8)) (h : uri.fragment_ = {}) :
    ∃ v : View, withFragment uri fragment = { uri with fragment_ := v } ∧
      v.text = fragment.getD [] := by
  rcases fragment with _ | _ | ⟨c, text⟩
  · exact ⟨{}, by rw [← h]; rfl, rfl⟩
  · exact ⟨{}, by rw [← h]; rfl, rfl⟩
  · refine ⟨between (c :: text) [], rfl, ?_⟩
    have htext := text_between (c :: text) []
    rwa [List.append_nil] at htext

theorem withQuery_eq (uri : Uri) (query fragment : Option (List Int8)) (h : uri.query_ = {}) :
    ∃ v : View, withQuery uri query fragment = { uri with query_ := v } ∧
      v.text = query.getD [] := by
  cases query with
  | none => exact ⟨{}, by rw [← h]; rfl, rfl⟩
  | some text =>
    by_cases hempty : text = [] ∧ fragment = none
    · refine ⟨{}, ?_, hempty.1.symm⟩
      rw [withQuery, if_pos hempty, ← h]
    · refine ⟨_, if_neg hempty, text_between text _⟩

theorem withPath_eq (uri : Uri) (text rest : List Int8) (h : uri.path_ = {}) :
    ∃ v : View, withPath uri text rest = { uri with path_ := v } ∧ v.text = text := by
  by_cases hempty : text = []
  · refine ⟨{}, ?_, hempty.symm⟩
    rw [withPath, if_pos hempty, ← h]
  · exact ⟨_, if_neg hempty, text_between text rest⟩

/-- The rest sets its own views and no others. -/
theorem withRest_returns (h : Fresh uri) :
    Returns url (withRest uri url) ↔ AuthorityReturns url uri := by
  obtain ⟨p, hp, hptext⟩ := withPath_eq uri url.path
    (introduced '?' url.query ++ introduced '#' url.fragment) h.path
  obtain ⟨q, hq, hqtext⟩ := withQuery_eq { uri with path_ := p } url.query url.fragment h.query
  obtain ⟨f, hf, hftext⟩ := withFragment_eq { uri with path_ := p, query_ := q } url.fragment
    h.fragment
  rw [withRest, hp, hq, hf]
  constructor
  · intro hr
    exact ⟨hr.scheme, hr.username, hr.password, hr.host, hr.port⟩
  · intro ha
    exact ⟨ha.scheme, ha.username, ha.password, ha.host, ha.port, hptext, hqtext, hftext⟩

/-- The parser returns true with the components. -/
def Right (url : Components) (result : Option Uri) : Prop :=
  ∃ uri, result = some uri ∧ Returns url uri

theorem right_none : ¬Right url none := by
  rintro ⟨uri, h, _⟩
  cases h

theorem right_some : Right url (some uri) ↔ Returns url uri := by
  constructor
  · rintro ⟨_, h, hr⟩
    cases h
    exact hr
  · exact fun h => ⟨uri, rfl, h⟩

theorem right_next (h : Fresh uri) :
    Right url (next uri url.rest) ↔ RestRight url ∧ AuthorityReturns url uri := by
  by_cases hrest : RestRight url
  · rw [next_of_right hrest, right_some, withRest_returns h]
    exact (and_iff_right hrest).symm
  · rw [next_of_not_right hrest]
    exact iff_of_false right_none fun h => hrest h.1

/-! ## The port -/

theorem rest_cases (url : Components) : url.rest = [] ∨ ∃ c b, url.rest = c :: b ∧
    (c = ('/' : Int8) ∨ c = ('?' : Int8) ∨ c = ('#' : Int8)) := by
  unfold Components.rest
  rcases url.pathValid.2 with hpath | ⟨text, hpath⟩
  · rw [hpath]
    cases url.query with
    | some text => exact .inr ⟨_, _, rfl, .inr (.inl rfl)⟩
    | none =>
      cases url.fragment with
      | some text => exact .inr ⟨_, _, rfl, .inr (.inr rfl)⟩
      | none => exact .inl rfl
  · rw [hpath]
    exact .inr ⟨_, _, rfl, .inl rfl⟩

theorem port_rest (uri : Uri) (start : List Int8) (h : url.rest ≠ []) :
    Parse.port uri start url.rest =
      next { uri with port_ := between start url.rest } url.rest := by
  rcases rest_cases url with hrest | ⟨c, b, hrest, hc⟩
  · exact absurd hrest h
  rw [hrest]
  rcases hc with rfl | rfl | rfl
  · rfl
  · rfl
  · rfl

/-- One digit at the end of the URL is too short for the two states of a port. -/
theorem portStart_eq (uri : Uri) {digits : List Int8} (hne : digits ≠ [])
    (hdigits : ∀ c ∈ digits, isdigit c = true) :
    Parse.portStart uri (digits ++ url.rest) (digits ++ url.rest) =
      if url.rest = [] ∧ digits.length = 1 then none
      else next { uri with port_ := between (digits ++ url.rest) url.rest } url.rest := by
  generalize hstart : digits ++ url.rest = start
  cases digits with
  | nil => exact absurd rfl hne
  | cons d digits =>
    rw [← hstart, List.cons_append, Parse.portStart, if_pos (hdigits d List.mem_cons_self),
      ← List.cons_append, hstart]
    by_cases hend : digits ++ url.rest = []
    · obtain ⟨hnil, hrest⟩ := List.append_eq_nil_iff.mp hend
      rw [hend, if_pos ⟨hrest, by rw [hnil]; rfl⟩]
      rfl
    · rw [if_neg]
      · have hscan := scan (Parse.port uri start) (fun c => isdigit c = true) digits url.rest
          (next { uri with port_ := between start url.rest } url.rest) hend ?_
          (port_rest uri start) ?_
        · rw [hscan, if_pos]
          exact fun c hc => hdigits c (List.mem_cons_of_mem d (inner_subset _ _ hc))
        · intro c hc b hb
          obtain ⟨hslash, hquery, hhash, _⟩ :=
            isdigit_ne (hdigits c (List.mem_cons_of_mem d hc))
          rw [Parse.port, if_neg hslash, if_neg hquery, if_neg hhash, if_neg hb]
        · intro hrest c hc
          obtain ⟨hslash, hquery, hhash, _⟩ :=
            isdigit_ne (hdigits c (List.mem_cons_of_mem d hc))
          rw [Parse.port, if_neg hslash, if_neg hquery, if_neg hhash, hrest]
          rfl
      · rintro ⟨hrest, hlen⟩
        apply hend
        rw [hrest, List.append_nil]
        exact List.length_eq_zero_iff.mp (Nat.succ.inj hlen)

theorem right_portStart (h : Fresh uri) {digits : List Int8} (hport : url.port = some digits) :
    Right url (Parse.portStart uri (digits ++ url.rest) (digits ++ url.rest)) ↔
      (url.rest = [] → digits.length ≠ 1) ∧ RestRight url ∧
        AuthorityReturns url { uri with port_ := between (digits ++ url.rest) url.rest } := by
  obtain ⟨hne, hdigits⟩ := url.portValid digits hport
  rw [portStart_eq uri hne hdigits]
  by_cases hend : url.rest = [] ∧ digits.length = 1
  · rw [if_pos hend]
    exact iff_of_false right_none fun hr => hr.1 hend.1 hend.2
  · rw [if_neg hend, right_next (h.withPort _)]
    exact (and_iff_right fun hrest hlen => hend ⟨hrest, hlen⟩).symm

end Cmall.Uri
