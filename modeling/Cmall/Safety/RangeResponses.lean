import Cmall.HeaderHelper

/-!
Range responses.

`parse_range` reads `end` as the last position of the range, `substr` is given it as the
first position after it, and `make_cpntent_range` writes the length of the file for an open
end. No answer with a part of the file is right, so the answer is right exactly when it is
the whole file.
-/

namespace Cmall.Httpd
open Spirit Cmall.Http

/-- The bytes at the positions `first` to `last`, both included. -/
def bytesFromTo (content : List Char) (first last : Nat) : List Char :=
  (content.drop first).take (last + 1 - first)

/-- `bytes=first-last`. -/
def rangeText (first last : Nat) : List Char :=
  ("bytes=" ++ Nat.repr first ++ "-" ++ Nat.repr last).toList

/-- `bytes=first-`. -/
def openRangeText (first : Nat) : List Char := ("bytes=" ++ Nat.repr first ++ "-").toList

/-- The response is the file, or the part of it from `first` to `last`. -/
def Delivers (content : List Char) (first last : Nat) (response : FileResponse) : Prop :=
  response.status = 200 ∧ response.body = content ∨
    response.status = 206 ∧
      response.contentRange = some (contentRange first last content.length) ∧
      response.body = bytesFromTo content first last

section Exact

variable (content : String) (range : List Char) (expires contentType : String)

/-- The answer to a request for a file with this `Range` field is exact. -/
structure RangeExact : Prop where
  /-- It is made without an exception. -/
  answered : ∃ response, renderGitRepoFiles (.content content) range expires contentType =
    .ok (response.status, some response)
  /-- What is said to be a part of the file is that part. -/
  part : ∀ response, renderGitRepoFiles (.content content) range expires contentType =
    .ok (206, some response) → ∀ first last,
      response.contentRange = some (contentRange first last content.length) →
        first ≤ last ∧ last < content.length ∧
          response.body = bytesFromTo content.toList first last
  /-- A range that the file has gets that range or the file. -/
  satisfied : ∀ first last, last < content.length → first ≤ last →
    range = rangeText first last ∨ range = openRangeText first ∧ last = content.length - 1 →
      ∃ response, renderGitRepoFiles (.content content) range expires contentType =
        .ok (response.status, some response) ∧ Delivers content.toList first last response
  /-- The length of a part is not below zero. -/
  noWrap : ∀ r, parseRange range = some r → isPartial content.toList r = true → r.end_ ≠ 0 →
    r.begin ≤ r.end_

/-- The response with the whole file. -/
def fileResponse : FileResponse :=
  { status := 200, expires, contentType, body := content.toList }

/-- The range that `parse_range` gives starts at 0 or ends at the length of the file. -/
def WholeFile : Prop :=
  ∀ r, parseRange range = some r → r.begin = 0 ∨ r.end_ = content.length

end Exact

variable {content : String} {range : List Char} {expires contentType : String}

theorem parseRange_lt {r : BytesRange} (h : parseRange range = some r) : r.end_ < 2 ^ 32 := by
  simp only [parseRange, Option.bind_eq_bind, Option.bind_eq_some_iff] at h
  obtain ⟨⟨_, _⟩, -, ⟨_, _⟩, -, ⟨_, input⟩, -, h⟩ := h
  cases h
  have hlast : ∀ ns : List Nat, (∀ n ∈ ns, n < 2 ^ 32) → ns.foldl (fun _ n => n) 0 < 2 ^ 32 := by
    intro ns hns
    cases List.eq_nil_or_concat ns with
    | inl hnil => simp [hnil]
    | inr hconcat =>
      obtain ⟨ms, n, rfl⟩ := hconcat
      simpa using hns n (by simp)
  exact hlast _ (kleene_forall (fun _ _ _ => uint_lt) _)

/-- Without a part the answer is the file. -/
theorem render_whole (h : WholeFile content range) :
    renderGitRepoFiles (.content content) range expires contentType =
      .ok (200, some (fileResponse content expires contentType)) := by
  unfold renderGitRepoFiles
  cases hparse : parseRange range with
  | none => rfl
  | some r =>
    have hwhole : isPartial content.toList r = false := by
      simp only [isPartial, decide_eq_false_iff_not, String.length_toList]
      rintro ⟨hend, hbegin⟩
      rcases h r hparse with h0 | hlen
      · exact hbegin h0
      · exact hend hlen.symm
    simp [hwhole, fileResponse]

theorem rangeExact_of_wholeFile (h : WholeFile content range) :
    RangeExact content range expires contentType where
  answered := ⟨fileResponse content expires contentType, render_whole h⟩
  part response hr := by
    rw [render_whole h] at hr
    cases hr
  satisfied _ _ _ _ _ := ⟨fileResponse content expires contentType,
    render_whole h, .inl ⟨rfl, rfl⟩⟩
  noWrap r hparse hpart _ := by
    simp only [isPartial, decide_eq_true_eq, String.length_toList] at hpart
    rcases h r hparse with h0 | hlen
    · exact absurd h0 hpart.2
    · exact absurd hlen.symm hpart.1

/-- A part is one byte short, or is said to end behind the file. -/
theorem not_rangeExact_of_part {r : BytesRange} (hparse : parseRange range = some r)
    (hbegin : r.begin ≠ 0) (hend : r.end_ ≠ content.length) :
    ¬ RangeExact content range expires contentType := by
  intro h
  have hpart : isPartial content.toList r = true := by
    simp [isPartial, hbegin, Ne.symm hend, String.length_toList]
  by_cases hlen : content.length < r.begin
  · obtain ⟨response, hr⟩ := h.answered
    simp [renderGitRepoFiles, hparse, hpart, partialBody_eq, hlen, String.length_toList] at hr
  · by_cases hopen : r.end_ = 0
    · have hr : renderGitRepoFiles (.content content) range expires contentType =
          .ok (206, some { status := 206, expires, contentType
                           contentRange := some (makeCpntentRange r content.length)
                           body := content.toList.drop r.begin }) := by
        simp only [renderGitRepoFiles, hparse, hpart, partialBody_eq, String.length_toList,
          if_true, if_neg hlen, if_pos hopen]
      obtain ⟨-, hlt, -⟩ := h.part _ hr _ _ rfl
      rw [if_pos hopen] at hlt
      exact Nat.lt_irrefl _ hlt
    · have hr : renderGitRepoFiles (.content content) range expires contentType =
          .ok (206, some { status := 206, expires, contentType
                           contentRange := some (makeCpntentRange r content.length)
                           body := (content.toList.drop r.begin).take
                             (StringView.sub r.end_ r.begin) }) := by
        simp only [renderGitRepoFiles, hparse, hpart, partialBody_eq, String.length_toList,
          if_true, if_neg hlen, if_neg hopen]
      obtain ⟨hle, hlt, hbody⟩ := h.part _ hr _ _ rfl
      simp only [if_neg hopen] at hle hlt hbody
      have hsub : StringView.sub r.end_ r.begin = r.end_ - r.begin :=
        StringView.sub_of_le hle (Nat.lt_trans (parseRange_lt hparse) (by decide))
      have hcount := congrArg List.length hbody
      simp only [hsub, bytesFromTo, List.length_take, List.length_drop,
        String.length_toList] at hcount
      omega

/-- The answer is exact exactly when it is the whole file. -/
theorem range_responses_exact_iff :
    RangeExact content range expires contentType ↔ WholeFile content range := by
  refine ⟨fun h r hparse => ?_, rangeExact_of_wholeFile⟩
  by_contra hnot
  rw [not_or] at hnot
  exact not_rangeExact_of_part hparse hnot.1 hnot.2 h

/-- Four bytes are asked for and announced, three are sent. -/
theorem range_response_is_short :
    parseRange "bytes=2-5".toList = some ⟨2, 5⟩ ∧
      renderGitRepoFiles (.content "0123456789") "bytes=2-5".toList "" "" =
        .ok (206, some { status := 206, expires := "", contentType := ""
                         contentRange := some "bytes 2-5/10", body := "234".toList }) ∧
      ¬ RangeExact "0123456789" "bytes=2-5".toList "" "" := by
  have hparse : parseRange "bytes=2-5".toList = some ⟨2, 5⟩ := by decide
  have hrender : renderGitRepoFiles (.content "0123456789") "bytes=2-5".toList "" "" =
      .ok (206, some { status := 206, expires := "", contentType := ""
                       contentRange := some "bytes 2-5/10", body := "234".toList }) := by decide
  refine ⟨hparse, hrender, fun h => ?_⟩
  have hpart := h.part _ hrender 2 5 (by decide)
  exact absurd hpart.2.2 (by decide)

end Cmall.Httpd
