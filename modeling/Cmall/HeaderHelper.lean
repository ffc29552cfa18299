import Cmall.HttpServer
import Cmall.StringView

/-!
`header_helper.cpp`: the `Range` and `Cookie` fields of a request, and the part of
`render_git_repo_files` that the range decides about. Texts are byte strings, one character
a byte.
-/

namespace Cmall.Httpd
open Spirit Cmall.Http

/-! ## `Range` -/

structure BytesRange where
  begin : Nat := 0
  end_ : Nat := 0
  deriving DecidableEq, Repr

/-- `range_grammer`; every number of the repetition is assigned to `end`. -/
def parseRange (range : List Char) : Option BytesRange := do
  let (_, input) ← lits "bytes=".toList range
  let (begin, input) ← uint input
  let (_, input) ← lit '-' input
  return { begin, end_ := (kleene uint input).1.foldl (fun _ n => n) 0 }

/-- `"bytes {}-{}/{}"`. -/
def contentRange (first last length : Nat) : String :=
  "bytes " ++ Nat.repr first ++ "-" ++ Nat.repr last ++ "/" ++ Nat.repr length

def makeCpntentRange (r : BytesRange) (contentLength : Nat) : String :=
  contentRange r.begin (if r.end_ = 0 then contentLength else r.end_) contentLength

/-- What is handed to `send_string_response_body`. -/
structure FileResponse where
  status : Nat
  acceptRanges : String := "bytes"
  expires : String
  contentType : String
  contentRange : Option String := none
  body : List Char
  deriving DecidableEq, Repr

/-- The range is answered with a part of the file. -/
def isPartial (body : List Char) (r : BytesRange) : Bool :=
  body.length ≠ r.end_ ∧ r.begin ≠ 0

/-- The part of the file that is sent. -/
def partialBody (body : List Char) (r : BytesRange) : Option (List Char) :=
  if r.end_ = 0 then StringView.substrFrom body r.begin
  else StringView.substr body r.begin (StringView.sub r.end_ r.begin)

theorem partialBody_eq (body : List Char) (r : BytesRange) : partialBody body r =
    if body.length < r.begin then none
    else if r.end_ = 0 then some (body.drop r.begin)
    else some ((body.drop r.begin).take (StringView.sub r.end_ r.begin)) := by
  unfold partialBody StringView.substrFrom StringView.substr
  split <;> split <;> rfl

/-- `render_git_repo_files`: the status it returns and what it has sent. -/
def renderGitRepoFiles (answer : FileAnswer) (range : List Char) (expires contentType : String) :
    Except Exn (Nat × Option FileResponse) :=
  match answer with
  | .noRepo => .ok (404, none)
  | .missing => .ok (404, none)
  | .tooLarge => .ok (413, none)
  | .content text =>
    let body := text.toList
    let whole : FileResponse := { status := 200, expires, contentType, body }
    match parseRange range with
    | some r =>
      if isPartial body r then
        match partialBody body r with
        | some part =>
          .ok (206, some { whole with
            status := 206
            contentRange := some (makeCpntentRange r body.length)
            body := part })
        | none => .error (.std "out_of_range")
      else .ok (200, some whole)
    | none => .ok (200, some whole)

/-- The chain of routes follows it: the same status, and a response of that status or none. -/
theorem exec_renderGitRepoFiles {c : Conn} (hc : c.isOpen = true) (k : Nat) (out : Outside)
    (req : Request) (merchant path : String) (range : List Char) (expires contentType : String)
    (hrange : req.range = (parseRange range).map fun r => (r.begin, r.end_)) :
    exec (Http.renderGitRepoFiles k out req merchant path) c =
      match renderGitRepoFiles (out.file merchant path) range expires contentType with
      | .ok (status, none) => (.ok status, c)
      | .ok (status, some response) =>
        (.ok status, { c with sent := c.sent ++ [⟨k, response.status⟩] })
      | .error e => (.error e, c) := by
  unfold Http.renderGitRepoFiles renderGitRepoFiles
  cases out.file merchant path with
  | noRepo => rfl
  | missing => rfl
  | tooLarge => rfl
  | content body =>
    have hwrite : ∀ status, exec (do write k status; return status) c =
        (.ok status, { c with sent := c.sent ++ [⟨k, status⟩] }) := by
      intro status
      have hsent : exec (write k status) c = (.ok (), { c with sent := c.sent ++ [⟨k, status⟩] }) := by
        simp [write, exec_bind, hc]
      rw [exec_bind_ok hsent]
      rfl
    rw [hrange]
    cases hparse : parseRange range with
    | none => exact hwrite 200
    | some r =>
      simp only [Option.map_some, isPartial, partialBody_eq, String.length_toList]
      by_cases hranged : body.length ≠ r.end_ ∧ r.begin ≠ 0
      · by_cases hlen : body.length < r.begin
        · simp [hranged, hlen]
        · have hpart : decide (body.length ≠ r.end_ ∧ r.begin ≠ 0) = true := decide_eq_true hranged
          simp only [if_pos hranged, if_neg hlen, hwrite, hpart, if_true]
          by_cases hopen : r.end_ = 0
          · rw [if_pos hopen]
          · rw [if_neg hopen]
      · rw [if_neg hranged, hwrite]
        simp [hranged]

/-! ## `Cookie` -/

def cookieKey : Rule (List Char) :=
  plus fun c => c ≠ '=' ∧ c ≠ ';' ∧ c ≠ ' ' ∧ c ≠ ':'

def cookieValue : Rule (List Char) := plus fun c => c ≠ ';' ∧ c ≠ '\n' ∧ c ≠ ' '

def cookieItem : Rule (String × String) := fun input => do
  let (key, input) ← cookieKey input
  let (_, input) ← lit '=' input
  let (value, input) ← cookieValue input
  return ((String.ofList key, String.ofList value), input)

/-- `char_(';') >> *space >> cookie_item`. -/
def nextCookie : Rule (String × String) := fun input => do
  let (_, input) ← lit ';' input
  cookieItem (input.dropWhile isSpace)

/-- `cookie_line`: the items in the order they are inserted. -/
def cookieLine (input : List Char) : Option (List (String × String)) := do
  let (first, rest) ← cookieItem input
  return first :: (kleene nextCookie rest).1

/-- What is left of the line is not looked at. -/
def parseCookie (line : List Char) : ScriptEnv :=
  match cookieLine line with
  | some items => items.foldl (fun env kv => ScriptEnv.insert env kv.1 kv.2) fun _ => none
  | none => fun _ => none

end Cmall.Httpd
