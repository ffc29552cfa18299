import Cmall.ListenEndpoint

/-!
What `make_listen_endpoint` accepts, and when it reads behind its string.

The parser takes a trimmed text apart in one way only, so the address that it has read is the one
that the text is.
-/

namespace Cmall.Httpd
open GoodsOptionsParser (trimCopy)

variable {str host it : List Char}

/-! ## The two forms -/

theorem takeWhile_cut {c : Char} (h : c ∉ host) (it : List Char) :
    (host ++ c :: it).takeWhile (· ≠ c) = host := by
  have hhost : ∀ x ∈ host, decide (x ≠ c) = true := fun x hx => decide_eq_true fun heq => h (heq ▸ hx)
  rw [List.takeWhile_append_of_pos hhost, List.takeWhile_cons_of_neg (by simp), List.append_nil]

theorem dropWhile_cut {c : Char} (h : c ∉ host) (it : List Char) :
    (host ++ c :: it).dropWhile (· ≠ c) = c :: it := by
  have hhost : ∀ x ∈ host, decide (x ≠ c) = true := fun x hx => decide_eq_true fun heq => h (heq ▸ hx)
  rw [List.dropWhile_append_of_pos hhost, List.dropWhile_cons_of_neg (by simp)]

theorem dropWhile_absent {c : Char} (h : c ∉ it) : it.dropWhile (· ≠ c) = [] := by
  rw [List.dropWhile_eq_nil_iff]
  exact fun x hx => decide_eq_true fun heq => h (heq ▸ hx)

theorem parse_bracketed (htrim : trimCopy str = '[' :: (host ++ ']' :: it)) (h : ']' ∉ host) :
    parseEndpointString str = parsePort host it false := by
  have hopen : ']' ∉ '[' :: host := by
    rw [List.mem_cons, not_or]
    exact ⟨by decide, h⟩
  have hdrop := dropWhile_cut hopen it
  rw [List.cons_append] at hdrop
  simp only [parseEndpointString, htrim, deref, List.headD_cons, if_true, hdrop, List.drop_succ_cons,
    List.drop_zero, takeWhile_cut h, List.isEmpty_cons]
  rfl

theorem deref_unbracketed (hopen : host.head? ≠ some '[') (it : List Char) :
    deref (host ++ ':' :: it) ≠ '[' := by
  cases host with
  | nil => exact (by decide : ':' ≠ '[')
  | cons c host => exact fun heq => hopen (congrArg some heq)

theorem parse_unbracketed (htrim : trimCopy str = host ++ ':' :: it) (h : ':' ∉ host)
    (hopen : host.head? ≠ some '[') :
    parseEndpointString str = parsePort host (':' :: it) false := by
  have hempty : (host ++ ':' :: it).isEmpty = false := by
    rw [List.isEmpty_eq_false_iff]
    exact List.append_ne_nil_of_right_ne_nil host (List.cons_ne_nil _ _)
  simp only [parseEndpointString, htrim, if_neg (deref_unbracketed hopen it), dropWhile_cut h,
    takeWhile_cut h, hempty]
  rfl

theorem parse_unclosed (htrim : trimCopy str = '[' :: it) (h : ']' ∉ it) :
    parseEndpointString str = { ok := false, pastEnd := false } := by
  have hopen : ']' ∉ '[' :: it := by
    rw [List.mem_cons, not_or]
    exact ⟨by decide, h⟩
  simp only [parseEndpointString, htrim, deref, List.headD_cons, if_true, dropWhile_absent hopen]
  rfl

theorem parse_without_port (hopen : deref (trimCopy str) ≠ '[') (h : ':' ∉ trimCopy str) :
    parseEndpointString str = { ok := false, pastEnd := (trimCopy str).isEmpty } := by
  simp only [parseEndpointString, if_neg hopen, dropWhile_absent h, if_true]

/-- The ways in which a trimmed text can begin. -/
theorem trimmed_cases (t : List Char) :
    (deref t ≠ '[' ∧ ':' ∉ t) ∨ (∃ it, t = '[' :: it ∧ ']' ∉ it) ∨
      (∃ host it, t = '[' :: (host ++ ']' :: it) ∧ ']' ∉ host) ∨
      ∃ host it, t = host ++ ':' :: it ∧ ':' ∉ host ∧ host.head? ≠ some '[' := by
  by_cases hopen : deref t = '['
  · cases t with
    | nil => exact absurd hopen (by decide)
    | cons c it =>
      have hc : c = '[' := hopen
      subst hc
      by_cases hclose : ']' ∈ it
      · obtain ⟨host, more, rfl, hhost⟩ := List.eq_append_cons_of_mem hclose
        exact .inr (.inr (.inl ⟨host, more, rfl, hhost⟩))
      · exact .inr (.inl ⟨it, rfl, hclose⟩)
  · by_cases hcolon : ':' ∈ t
    · obtain ⟨host, it, rfl, hhost⟩ := List.eq_append_cons_of_mem hcolon
      refine .inr (.inr (.inr ⟨host, it, rfl, hhost, fun hhead => hopen ?_⟩))
      obtain ⟨more, rfl⟩ := List.head?_eq_some_iff.mp hhead
      rfl
    · exact .inl ⟨hopen, hcolon⟩

/-! ## The port and what follows -/

theorem parsePort_colon (host it : List Char) : parsePort host (':' :: it) false =
    { ok := true, host, port := it.takeWhile isPortDigit,
      ipv6only := isIpv6only (it.dropWhile isPortDigit), pastEnd := false } := by
  simp [parsePort, deref]

theorem parsePort_other (h : deref it ≠ ':') (host : List Char) :
    parsePort host it false = { ok := false, host, pastEnd := it.isEmpty } := by
  simp [parsePort, h]

theorem takeWhile_port (a : ListenAddress) : (a.port ++ a.rest).takeWhile isPortDigit = a.port := by
  rw [List.takeWhile_append_of_pos a.digits]
  cases hrest : a.rest with
  | nil => rw [List.takeWhile_nil, List.append_nil]
  | cons c rest =>
    have hc := a.stops c (by rw [hrest]; rfl)
    rw [List.takeWhile_cons_of_neg (by rw [hc]; exact Bool.false_ne_true), List.append_nil]

theorem dropWhile_port (a : ListenAddress) : (a.port ++ a.rest).dropWhile isPortDigit = a.rest := by
  rw [List.dropWhile_append_of_pos a.digits]
  cases hrest : a.rest with
  | nil => rfl
  | cons c rest =>
    have hc := a.stops c (by rw [hrest]; rfl)
    rw [List.dropWhile_cons_of_neg (by rw [hc]; exact Bool.false_ne_true)]

/-! ## Listen addresses -/

/-- A listen address is read as it is. -/
theorem parse_text (a : ListenAddress) (htext : a.text = trimCopy str) :
    parseEndpointString str =
      { ok := true, host := a.host, port := a.port, ipv6only := isIpv6only a.rest,
        pastEnd := false } := by
  rw [ListenAddress.text] at htext
  cases hbracketed : a.bracketed with
  | true =>
    rw [hbracketed, if_pos rfl, List.cons_append, List.append_assoc, List.singleton_append] at htext
    rw [parse_bracketed htext.symm (a.closed hbracketed), parsePort_colon, takeWhile_port,
      dropWhile_port]
  | false =>
    obtain ⟨hcolon, hopen⟩ := a.unbracketed hbracketed
    rw [hbracketed, if_neg Bool.false_ne_true] at htext
    rw [parse_unbracketed htext.symm hcolon hopen, parsePort_colon, takeWhile_port, dropWhile_port]

/-- The address with the port and the rest taken from a text. -/
def ListenAddress.ofPort (bracketed : Bool) (host it : List Char)
    (unbracketed : bracketed = false → ':' ∉ host ∧ host.head? ≠ some '[')
    (closed : bracketed = true → ']' ∉ host) : ListenAddress where
  bracketed := bracketed
  host := host
  port := it.takeWhile isPortDigit
  rest := it.dropWhile isPortDigit
  unbracketed := unbracketed
  closed := closed
  digits := fun _ hc => List.all_eq_true.mp List.all_takeWhile _ hc
  stops := by
    intro c hc
    have hhead := List.head?_dropWhile_not isPortDigit it
    rw [Option.mem_def.mp hc] at hhead
    exact hhead

theorem ListenAddress.ofPort_text {bracketed : Bool} {host it : List Char}
    (unbracketed : bracketed = false → ':' ∉ host ∧ host.head? ≠ some '[')
    (closed : bracketed = true → ']' ∉ host) :
    (ofPort bracketed host it unbracketed closed).text =
      (if bracketed then '[' :: (host ++ [']']) else host) ++ ':' :: it := by
  rw [text, ofPort, List.takeWhile_append_dropWhile]

/-- What is not refused is a listen address. -/
theorem exists_address (h : (parseEndpointString str).ok = true) :
    ∃ a : ListenAddress, a.text = trimCopy str := by
  rcases trimmed_cases (trimCopy str) with ⟨hopen, hcolon⟩ | ⟨it, htrim, hclose⟩ |
    ⟨host, it, htrim, hhost⟩ | ⟨host, it, htrim, hhost, hopen⟩
  · rw [parse_without_port hopen hcolon] at h
    cases h
  · rw [parse_unclosed htrim hclose] at h
    cases h
  · rw [parse_bracketed htrim hhost] at h
    by_cases hcolon : deref it = ':'
    · cases it with
      | nil => exact absurd hcolon (by decide)
      | cons c it =>
        have hc : c = ':' := hcolon
        subst hc
        refine ⟨.ofPort true host it (fun h => nomatch h) (fun _ => hhost), ?_⟩
        rw [ListenAddress.ofPort_text, htrim]
        simp
    · rw [parsePort_other hcolon] at h
      cases h
  · refine ⟨.ofPort false host it (fun _ => ⟨hhost, hopen⟩) (fun h => nomatch h), ?_⟩
    rw [ListenAddress.ofPort_text, htrim]
    rfl

/-- Two addresses with one text. -/
theorem text_unique {a b : ListenAddress} (htext : a.text = b.text) (hhost : a.host = b.host)
    (hport : a.port = b.port) : a.bracketed = b.bracketed ∧ a.rest = b.rest := by
  have hopen (a : ListenAddress) : deref a.text = '[' ↔ a.bracketed = true := by
    rw [ListenAddress.text]
    cases hbracketed : a.bracketed with
    | true => exact iff_of_true rfl rfl
    | false =>
      refine iff_of_false ?_ Bool.false_ne_true
      exact deref_unbracketed (a.unbracketed hbracketed).2 _
  have hbracketed : a.bracketed = b.bracketed := by
    rw [Bool.eq_iff_iff, ← hopen a, ← hopen b, htext]
  refine ⟨hbracketed, ?_⟩
  rw [ListenAddress.text, ListenAddress.text, hbracketed, hhost, hport, List.append_cancel_left_eq,
    List.cons.injEq, List.append_cancel_left_eq] at htext
  exact htext.2

/-! ## The end of the string -/

/-- Nothing stands behind the bracket. -/
def CutOff (t : List Char) : Prop := ∃ host, ']' ∉ host ∧ t = '[' :: (host ++ [']'])

theorem cutOff_deref {t : List Char} (h : CutOff t) : deref t = '[' := by
  obtain ⟨host, -, rfl⟩ := h
  rfl

theorem cutOff_bracketed (h : ']' ∉ host) : CutOff ('[' :: (host ++ ']' :: it)) ↔ it = [] := by
  constructor
  · rintro ⟨host', hhost', heq⟩
    rw [List.cons.injEq] at heq
    have hdrop := congrArg (List.dropWhile (· ≠ ']')) heq.2
    rw [dropWhile_cut h, dropWhile_cut hhost', List.cons.injEq] at hdrop
    exact hdrop.2
  · rintro rfl
    exact ⟨host, h, rfl⟩

theorem pastEnd_iff (str : List Char) : (parseEndpointString str).pastEnd = true ↔
    trimCopy str = [] ∨ CutOff (trimCopy str) := by
  rcases trimmed_cases (trimCopy str) with ⟨hopen, hcolon⟩ | ⟨it, htrim, hclose⟩ |
    ⟨host, it, htrim, hhost⟩ | ⟨host, it, htrim, hhost, hopen⟩
  · rw [parse_without_port hopen hcolon, List.isEmpty_iff, or_iff_left]
    exact fun hcut => hopen (cutOff_deref hcut)
  · rw [parse_unclosed htrim hclose, htrim]
    refine iff_of_false Bool.false_ne_true ?_
    rintro (hnil | ⟨host, -, heq⟩)
    · cases hnil
    · rw [List.cons.injEq] at heq
      rw [heq.2] at hclose
      exact hclose (List.mem_append_right _ (.head _))
  · rw [parse_bracketed htrim hhost, htrim, cutOff_bracketed hhost,
      or_iff_right (List.cons_ne_nil _ _)]
    by_cases hcolon : deref it = ':'
    · cases it with
      | nil => exact absurd hcolon (by decide)
      | cons c it =>
        have hc : c = ':' := hcolon
        subst hc
        rw [parsePort_colon]
        exact iff_of_false Bool.false_ne_true (List.cons_ne_nil _ _)
    · rw [parsePort_other hcolon, List.isEmpty_iff]
  · rw [parse_unbracketed htrim hhost hopen, parsePort_colon]
    refine iff_of_false Bool.false_ne_true ?_
    rintro (hnil | hcut)
    · rw [htrim] at hnil
      exact List.append_ne_nil_of_right_ne_nil host (List.cons_ne_nil _ _) hnil
    · rw [htrim] at hcut
      exact deref_unbracketed hopen it (cutOff_deref hcut)

/-! ## Listening -/

section Listening

variable {fromString : List Char → Option Address} {endp : Endpoint}

theorem listen_text {a : ListenAddress} {ip : Address} (htext : a.text = trimCopy str)
    (hhost : a.host ≠ []) (hport : a.port ≠ []) (hip : fromString a.host = some ip) :
    makeListenEndpoint fromString str endp =
      { endp := { address := ip, port := atoi a.port % 2 ^ 16 }, ec := none,
        ipv6only := isIpv6only a.rest, pastEnd := false } := by
  have hne : ¬(a.host = [] ∨ a.port = []) := not_or.mpr ⟨hhost, hport⟩
  simp only [makeListenEndpoint, parse_text a htext, not_true_eq_false, if_false, if_neg hne, hip]

/-- Without an error the text is an address that `from_string` takes. -/
theorem exists_of_ec (h : (makeListenEndpoint fromString str endp).ec = none) :
    ∃ (a : ListenAddress) (ip : Address), a.text = trimCopy str ∧ a.host ≠ [] ∧ a.port ≠ [] ∧
      fromString a.host = some ip := by
  rw [makeListenEndpoint] at h
  by_cases hok : (parseEndpointString str).ok = true
  · obtain ⟨a, htext⟩ := exists_address hok
    simp only [parse_text a htext, not_true_eq_false, if_false] at h
    split at h
    next hempty => cases h
    next hne =>
      rw [not_or] at hne
      cases hip : fromString a.host with
      | none =>
        rw [hip] at h
        cases h
      | some ip => exact ⟨a, ip, htext, hne.1, hne.2, hip⟩
  · simp only [hok, Bool.false_eq_true, not_false_eq_true, if_true] at h
    cases h

theorem makeListenEndpoint_pastEnd (fromString : List Char → Option Address) (str : List Char)
    (endp : Endpoint) : (makeListenEndpoint fromString str endp).pastEnd =
      (parseEndpointString str).pastEnd := by
  rw [makeListenEndpoint]
  dsimp only
  split
  · rfl
  split
  · rfl
  split <;> rfl

theorem atoi_of_le {a : ListenAddress} (h : a.number ≤ 65535) :
    atoi a.port % 2 ^ 16 = a.number := by
  rw [ListenAddress.number] at h ⊢
  rw [atoi]
  omega

end Listening

/-- Only the string is read, and without an error it is a listen address, which is what is
returned. -/
structure ListensRight (fromString : List Char → Option Address) (str : List Char)
    (endp : Endpoint) : Prop where
  inside : (makeListenEndpoint fromString str endp).pastEnd = false
  accepted : (makeListenEndpoint fromString str endp).ec = none →
    ∃ (a : ListenAddress) (ip : Address), a.text = trimCopy str ∧ fromString a.host = some ip ∧
      a.Valid ip ∧ (makeListenEndpoint fromString str endp).endp = ⟨ip, a.number⟩ ∧
      ((makeListenEndpoint fromString str endp).ipv6only = true ↔ a.rest ≠ [])

/-- The text is not blank, something stands behind its bracket, and where it is an address and a
port, the port is in range, the brackets are around an IPv6 address and only a suffix follows. -/
structure WellGiven (fromString : List Char → Option Address) (str : List Char) : Prop where
  nonblank : trimCopy str ≠ []
  whole : ¬CutOff (trimCopy str)
  listen : ∀ (a : ListenAddress) (ip : Address), a.text = trimCopy str → a.host ≠ [] →
    a.port ≠ [] → fromString a.host = some ip →
      a.number ≤ 65535 ∧ (a.bracketed = true → ip.isV6 = true) ∧
        (a.rest = [] ∨ isIpv6only a.rest = true)

theorem isIpv6only_iff {rest : List Char} (h : rest = [] ∨ isIpv6only rest = true) :
    isIpv6only rest = true ↔ rest ≠ [] := by
  refine ⟨fun hsuffix hnil => ?_, h.resolve_left⟩
  rw [hnil] at hsuffix
  revert hsuffix
  decide

/-- When the text of an IPv6 address has a colon, listening is right exactly when the address is
well given. -/
theorem listens_right_iff {fromString : List Char → Option Address}
    (hcolon : ∀ host ip, fromString host = some ip → ip.isV6 = true → ':' ∈ host)
    (str : List Char) (endp : Endpoint) :
    ListensRight fromString str endp ↔ WellGiven fromString str := by
  have hinside := pastEnd_iff str
  rw [← makeListenEndpoint_pastEnd fromString str endp] at hinside
  constructor
  · rintro ⟨hpast, haccepted⟩
    rw [← Bool.not_eq_true, hinside, not_or] at hpast
    refine ⟨hpast.1, hpast.2, fun a ip htext hhost hport hip => ?_⟩
    have hlisten := @listen_text _ fromString endp _ _ htext hhost hport hip
    obtain ⟨b, ip', htext', hip', hvalid, -, -⟩ := haccepted (by rw [hlisten])
    have hparse := (parse_text a htext).symm.trans (parse_text b htext')
    rw [EndpointString.mk.injEq] at hparse
    obtain ⟨-, hhosts, hports, -, -⟩ := hparse
    obtain ⟨hbracketed, hrest⟩ := text_unique (htext.trans htext'.symm) hhosts hports
    rw [hhosts, hip', Option.some.injEq] at hip
    rw [ListenAddress.number, hports, hrest, hbracketed, ← hip, hvalid.version]
    exact ⟨hvalid.range, id, hvalid.suffix⟩
  · rintro ⟨hnonblank, hwhole, hlisten⟩
    refine ⟨?_, fun hec => ?_⟩
    · rw [← Bool.not_eq_true, hinside, not_or]
      exact ⟨hnonblank, hwhole⟩
    · obtain ⟨a, ip, htext, hhost, hport, hip⟩ := exists_of_ec hec
      obtain ⟨hrange, hv6, hsuffix⟩ := hlisten a ip htext hhost hport hip
      have hversion : ip.isV6 = a.bracketed := by
        cases hbracketed : a.bracketed with
        | true => exact hv6 hbracketed
        | false =>
          rw [← Bool.not_eq_true]
          exact fun h => (a.unbracketed hbracketed).1 (hcolon _ _ hip h)
      rw [listen_text htext hhost hport hip, atoi_of_le hrange]
      exact ⟨a, ip, htext, hip, ⟨hport, hrange, hsuffix, hversion⟩, rfl, isIpv6only_iff hsuffix⟩

/-- `from_string`, of the two addresses that stand for any. -/
def anyAddress (host : List Char) : Option Address :=
  if host = "0.0.0.0".toList then some (.v4 0)
  else if host = "::".toList then some (.v6 0 0)
  else none

theorem anyAddress_colon (host : List Char) (ip : Address) (h : anyAddress host = some ip)
    (hv6 : ip.isV6 = true) : ':' ∈ host := by
  rw [anyAddress] at h
  split at h
  next hhost =>
    cases h
    cases hv6
  split at h
  next hhost =>
    rw [hhost]
    decide
  next hhost => cases h

theorem listens_right_any : ListensRight anyAddress "[::]:443".toList {} ↔
    WellGiven anyAddress "[::]:443".toList :=
  listens_right_iff anyAddress_colon _ _

/-- The character behind `]` is read though there is none, and a port above 65535 is cut down. -/
theorem listens_wrong : ¬ListensRight anyAddress "[::]".toList {} ∧
    ¬ListensRight anyAddress "0.0.0.0:70000".toList {} := by
  constructor
  · rintro ⟨hinside, -⟩
    revert hinside
    decide
  · rintro ⟨-, haccepted⟩
    obtain ⟨a, ip, htext, -, hvalid, -, -⟩ := haccepted (by decide)
    have hport : _ = a.port := congrArg EndpointString.port (parse_text a htext)
    have hrange := hvalid.range
    rw [ListenAddress.number, ← hport] at hrange
    revert hrange
    decide

end Cmall.Httpd
