import Cmall.Json
import Cmall.Spirit

/-!
The HTTP side of `client_connected`: the chain of routes, the environment of CGI scripts
and what is written to the stream, request after request.

Texts are byte strings, one character a byte. What the handlers ask others for (sessions,
repositories, scripts, the payment services, the bundled site) is given by `Outside`.
-/

namespace Cmall.Http
open Spirit

/-- A request that is not a WebSocket upgrade. -/
structure Request where
  method : String
  target : String
  /-- The fields in the order they are iterated over. -/
  headers : List (String × String) := []
  body : String := ""
  keepAlive : Bool := true
  /-- `begin` and `end` of the `Range` field, if `parse_range` accepts it. -/
  range : Option (Nat × Nat) := none
  deriving DecidableEq, Repr

/-! ## `decodeURIComponent` -/

def hexDigit (c : Char) : Option Nat :=
  if '0' ≤ c ∧ c ≤ '9' then some (c.toNat - '0'.toNat)
  else if 'A' ≤ c ∧ c ≤ 'F' then some (c.toNat - 'A'.toNat + 10)
  else if 'a' ≤ c ∧ c ≤ 'f' then some (c.toNat - 'a'.toNat + 10)
  else none

def decodeChars : List Char → Except Exn (List Char)
  | [] => .ok []
  | c :: rest =>
    if c = '%' then
      match rest with
      | first :: second :: rest =>
        match hexDigit first, hexDigit second with
        | some x, some y => do return Char.ofNat (16 * x + y) :: (← decodeChars rest)
        | _, _ => .error (.std "URI malformed")
      | _ => .error (.std "URI malformed")
    else do return c :: (← decodeChars rest)

def decodeURIComponent (text : String) : Except Exn String :=
  (decodeChars text.toList).map String.ofList

/-! ## The routes

Each is the list of sub-matches of a `boost::regex_match`, the whole match first; a group
that took no part in it is empty. -/

def isDigit (c : Char) : Bool := '0' ≤ c ∧ c ≤ '9'

/-- What follows the text `w`. -/
def skip : List Char → List Char → Option (List Char)
  | [], input => some input
  | _ :: _, [] => none
  | x :: w, y :: input => if x = y then skip w input else none

/-- `/repos/([0-9]+)` and what follows it. -/
def repos (target : String) : Option (String × List Char) := do
  let rest ← skip "/repos/".toList target.toList
  let (merchant, rest) ← plus isDigit rest
  return (String.ofList merchant, rest)

/-- `([?/](.+))?` at the end: both groups. -/
def queryTail : List Char → Option (String × String)
  | [] => some ("", "")
  | c :: rest =>
    if (c = '?' ∨ c = '/') ∧ rest ≠ [] then some (String.ofList (c :: rest), String.ofList rest)
    else none

/-- `/repos/([0-9]+)/((images|css)/.+)`; the third group is not used. -/
def imagesMatch (target : String) : Option (List String) := do
  let (merchant, rest) ← repos target
  let rest ← skip ['/'] rest
  let file ← (skip "images/".toList rest).or (skip "css/".toList rest)
  if file = [] then none else return [target, merchant, String.ofList rest]

/-- `/repos/([0-9]+)/callback\.js([?/](.+))?` -/
def callbackMatch (target : String) : Option (List String) := do
  let (merchant, rest) ← repos target
  let (tail, path) ← queryTail (← skip "/callback.js".toList rest)
  return [target, merchant, tail, path]

/-- `([^\.]+\.js)([?/](.+))?` after the merchant. -/
def scriptTail (target merchant : String) (rest : List Char) : Option (List String) := do
  let (name, rest) ← plus (fun c => c ≠ '.') rest
  let (tail, path) ← queryTail (← skip ".js".toList rest)
  return [target, merchant, String.ofList name ++ ".js", tail, path]

/-- `/repos/([0-9]+)/scripts/([^\.]+\.js)([?/](.+))?` -/
def scriptsMatch (target : String) : Option (List String) := do
  let (merchant, rest) ← repos target
  scriptTail target merchant (← skip "/scripts/".toList rest)

/-- `/api/cgi-scripts/([0-9]+)/([^\.]+\.js)([?/](.+))?` -/
def cgiScriptsMatch (target : String) : Option (List String) := do
  let rest ← skip "/api/cgi-scripts/".toList target.toList
  let (merchant, rest) ← plus isDigit rest
  scriptTail target (String.ofList merchant) (← skip ['/'] rest)

/-- `/repos/([0-9]+)/(pages/.+)` -/
def pagesMatch (target : String) : Option (List String) := do
  let (merchant, rest) ← repos target
  let rest ← skip ['/'] rest
  let page ← skip "pages/".toList rest
  if page = [] then none else return [target, merchant, String.ofList rest]

/-- `/repos/([0-9]+)/pages/` -/
def pagesRootMatch (target : String) : Option (List String) := do
  let (merchant, rest) ← repos target
  if rest = "/pages/".toList then return [target, merchant] else none

/-- `/goods/([^/]+)/([^/]+)` -/
def goodsMatch (target : String) : Option (List String) := do
  let rest ← skip "/goods/".toList target.toList
  let (merchant, rest) ← plus (fun c => c ≠ '/') rest
  let (goodsId, rest) ← plus (fun c => c ≠ '/') (← skip ['/'] rest)
  if rest = [] then return [target, String.ofList merchant, String.ofList goodsId] else none

/-- The branches of the chain, with what they take from the match. -/
inductive Route where
  | images (merchant path : String)
  | callback (w : List String)
  | scripts (w : List String)
  | pages (merchant path : String)
  | pagesRoot (merchant : String)
  | goods (w : Option (List String))
  | wxPay
  | other
  deriving DecidableEq, Repr

/-- `w[i].str()`. -/
def sub (w : List String) (i : Nat) : String := w.getD i ""

def route (target : String) : Route :=
  match imagesMatch target with
  | some w => .images (sub w 1) (sub w 2)
  | none => match callbackMatch target with
  | some w => .callback w
  | none => match (scriptsMatch target).or (cgiScriptsMatch target) with
  | some w => .scripts w
  | none => match pagesMatch target with
  | some w => .pages (sub w 1) (sub w 2)
  | none => match pagesRootMatch target with
  | some w => .pagesRoot (sub w 1)
  | none =>
    if "/goods".toList.isPrefixOf target.toList then .goods (goodsMatch target)
    else if target = "/api/wx/pay.action" then .wxPay
    else .other

/-- The target gets an answer of its own and is then handled like any other. -/
def illegal (target : String) : Bool :=
  target.toList.head? ≠ some '/' ∨ ('.', '.') ∈ target.toList.zip target.toList.tail

/-! ## Scripts -/

/-- `std::map<std::string, std::string>`. -/
abbrev ScriptEnv := String → Option String

/-- `insert` keeps an entry that is there. -/
def ScriptEnv.insert (env : ScriptEnv) (key value : String) : ScriptEnv := fun k =>
  if k = key ∧ env key = none then some value else env k

theorem ScriptEnv.insert_apply (env : ScriptEnv) (key value k : String) :
    env.insert key value k = if k = key then (env k).or (some value) else env k := by
  unfold ScriptEnv.insert
  by_cases hk : k = key
  · subst hk
    cases h : env k with
    | none => simp
    | some v => simp
  · simp [hk]

/-- Of several fields with one name the first one stays. -/
theorem foldl_insert_apply (headers : List (String × String)) (env : ScriptEnv) (k : String) :
    headers.foldl (fun env kv => ScriptEnv.insert env kv.1 kv.2) env k =
      (env k).or ((headers.find? fun kv => kv.1 = k).map Prod.snd) := by
  induction headers generalizing env with
  | nil => simp
  | cons kv rest ih =>
    rw [List.foldl_cons, ih, ScriptEnv.insert_apply]
    by_cases hk : kv.1 = k
    · simp [hk]
    · simp [hk, Ne.symm hk]

/-- The variables both kinds of script are started with. -/
def scriptEnv (req : Request) (remains token : String) (visitor : Option Nat) : ScriptEnv :=
  let env : ScriptEnv := req.headers.foldl (fun env kv => ScriptEnv.insert env kv.1 kv.2) fun _ => none
  let env := ScriptEnv.insert env "_METHOD" req.method
  let env := ScriptEnv.insert env "_PATH" remains
  let env := ScriptEnv.insert env "_API_TOKEN" token
  match visitor with
  | some uid => ScriptEnv.insert env "_VISITOR" (toString uid)
  | none => env

/-- What `run_script` is called with, and the tokens that are valid then. -/
structure ScriptRun where
  script : String
  body : String
  env : ScriptEnv
  token : String
  tokens : List String

/-! ## What others answer -/

/-- `get_merchant_git_repo` and `get_file_content`. -/
inductive FileAnswer where
  | noRepo | missing | tooLarge
  | content (text : String)
  deriving DecidableEq, Repr

def FileAnswer.delivered : FileAnswer → Bool
  | .content _ => true
  | _ => false

/-- `get_product_detail` throws for goods it does not find. -/
inductive GoodsAnswer where
  | noRepo | missing
  | detail (text : String)
  deriving DecidableEq, Repr

/-- The loop over the payment services: one of them has handled the notification, none
has, or the database has thrown. -/
inductive PayAnswer where
  | handled | refused | threw
  deriving DecidableEq, Repr

/-- `http_handle_static_file`: a response (200 or 304) has been written, or a status other
than 200 is returned and nothing has been written. -/
inductive SiteAnswer where
  | wrote (status : Nat)
  | failed (status : Nat)
  deriving DecidableEq, Repr

structure Outside where
  /-- The session of the cookie has been recovered, if there is one; no exception. -/
  recovered : Bool := true
  /-- The user of the session. -/
  visitor : Option Nat := none
  file : String → String → FileAnswer := fun _ _ => .noRepo
  goods : String → String → GoodsAnswer := fun _ _ => .noRepo
  /-- `gen_rand_string()`. -/
  random : String := ""
  pay : PayAnswer := .refused
  site : SiteAnswer := .failed 404

/-! ## The connection -/

/-- A response: the number of the request it was written for, and its status. -/
structure Response where
  request : Nat
  status : Nat
  deriving DecidableEq, Repr

structure Conn where
  isOpen : Bool := true
  sent : List Response := []
  /-- `temp_api_token`. -/
  tokens : List String := []
  runs : List ScriptRun := []

abbrev H := ExceptT Exn (StateM Conn)

/-- What a handler ends with and leaves behind. -/
def exec {α : Type} (x : H α) (c : Conn) : Except Exn α × Conn := x.run.run c

section Exec

variable {α β : Type} {c c' : Conn}

@[simp] theorem exec_pure (a : α) : exec (pure a) c = (.ok a, c) := rfl

@[simp] theorem exec_throw (e : Exn) : exec (throw e : H α) c = (.error e, c) := rfl

@[simp] theorem exec_get : exec (get : H Conn) c = (.ok c, c) := rfl

@[simp] theorem exec_modify (f : Conn → Conn) :
    exec (modify f : H PUnit) c = (.ok ⟨⟩, f c) := rfl

@[simp] theorem exec_liftM (x : Except Exn α) : exec (liftM x : H α) c = (x, c) := by
  cases x <;> rfl

theorem exec_bind_ok {x : H α} {f : α → H β} {a : α} (h : exec x c = (.ok a, c')) :
    exec (x >>= f) c = exec (f a) c' := by
  unfold exec at *
  rw [ExceptT.run_bind, StateT.run_bind, h]
  rfl

theorem exec_bind_error {x : H α} {f : α → H β} {e : Exn} (h : exec x c = (.error e, c')) :
    exec (x >>= f) c = (.error e, c') := by
  unfold exec at *
  rw [ExceptT.run_bind, StateT.run_bind, h]
  rfl

theorem exec_bind (x : H α) (f : α → H β) : exec (x >>= f) c =
    match exec x c with
    | (.ok a, c') => exec (f a) c'
    | (.error e, c') => (.error e, c') := by
  rcases h : exec x c with ⟨res, c'⟩
  cases res with
  | ok a => exact exec_bind_ok h
  | error e => exact exec_bind_error h

end Exec

/-- Write a response; on a stream that has been closed this throws. -/
def write (k status : Nat) : H Unit := do
  if (← get).isOpen then
    modify fun c => { c with sent := c.sent ++ [⟨k, status⟩] }
  else
    throw (.std "bad descriptor")

def httpSimpleErrorPage (k status : Nat) : H Unit := do
  write k status
  modify fun c => { c with isOpen := false }

def renderGitRepoFiles (k : Nat) (out : Outside) (req : Request) (merchant path : String) :
    H Nat :=
  match out.file merchant path with
  | .noRepo => return 404
  | .missing => return 404
  | .tooLarge => return 413
  | .content body =>
    match req.range with
    | some (first, last) =>
      if body.length ≠ last ∧ first ≠ 0 then
        if body.length < first then throw (.std "out_of_range")
        else do
          write k 206
          return 206
      else do
        write k 200
        return 200
    | none => do
      write k 200
      return 200

def errorPageUnlessOk (k status : Nat) : H Unit :=
  if status ≠ 200 ∧ status ≠ 206 then httpSimpleErrorPage k status else pure ()

/-- The end of the chain, which the branches without a `continue` also come to. -/
def staticFile (k : Nat) (out : Outside) : H Unit :=
  match out.site with
  | .wrote status => write k status
  | .failed _ => httpSimpleErrorPage k 404

/-- What is done to `temp_api_token`. -/
inductive TokenOp where
  | insert (token : String)
  | erase (token : String)
  deriving DecidableEq, Repr

def TokenOp.apply (tokens : List String) : TokenOp → List String
  | .insert token => tokens.insert token
  | .erase token => tokens.filter fun t => t ≠ token

def genTempApiToken (merchant random : String) : H String := do
  let token := merchant ++ "-" ++ random
  modify fun c => { c with tokens := TokenOp.apply c.tokens (.insert token) }
  return token

def dropTempApiToken (token : String) : H Unit :=
  modify fun c => { c with tokens := TokenOp.apply c.tokens (.erase token) }

def inTempApiToken (tokens : List String) (token : String) : Bool := token ∈ tokens

/-- The branches of both kinds of script from the look-up on: `true` when the script has
run and the branch is left at its end, `false` when it is left by `continue`. -/
def runCgi (k : Nat) (out : Outside) (req : Request) (merchant path remains : String) :
    H Bool := do
  match out.file merchant path with
  | .content script =>
    let token ← genTempApiToken merchant out.random
    modify fun c => { c with
      runs := c.runs ++ [⟨script, req.body, scriptEnv req remains token out.visitor, token,
        c.tokens⟩] }
    dropTempApiToken token
    write k 200
    return true
  | _ =>
    httpSimpleErrorPage k 404
    return false

/-- `remains`: the fourth group, where the match has one. -/
def remains (w : List String) : Except Exn String :=
  if w.length = 5 then decodeURIComponent (sub w 4) else .ok ""

/-- The part of a path before the first `?`. -/
def beforeQuery (path : String) : String := String.ofList (path.toList.takeWhile fun c => c ≠ '?')

/-- A page that is not there is `index.html`. -/
def renderPage (k : Nat) (out : Outside) (req : Request) (merchant path : String) : H Nat := do
  let status ← renderGitRepoFiles k out req merchant path
  if status = 404 then renderGitRepoFiles k out req merchant "pages/index.html"
  else return status

def renderGoodsDetailContent (k : Nat) (out : Outside) (merchant goodsId : String) : H Nat :=
  match out.goods merchant goodsId with
  | .noRepo => return 404
  | .missing => throw (.system .goodsNotFound)
  | .detail _ => do
    write k 200
    return 200

/-- The chain of routes. -/
def dispatch (k : Nat) (req : Request) (out : Outside) : Route → H Unit
  | .images merchant path => do
    let path ← liftM (decodeURIComponent path)
    errorPageUnlessOk k (← renderGitRepoFiles k out req merchant path)
    staticFile k out
  | .callback w => do
    if ← runCgi k out req (sub w 1) "scripts/callback.js" (← liftM (remains w)) then
      staticFile k out
  | .scripts w => do
    if ← runCgi k out req (sub w 1) ("scripts/" ++ sub w 2) (← liftM (remains w)) then
      staticFile k out
  | .pages merchant path => do
    let path ← liftM (decodeURIComponent path)
    errorPageUnlessOk k (← renderPage k out req merchant (beforeQuery path))
    staticFile k out
  | .pagesRoot merchant => do
    errorPageUnlessOk k (← renderGitRepoFiles k out req merchant "pages/index.html")
    staticFile k out
  | .goods (some w) => do
    let goodsId ← liftM (decodeURIComponent (sub w 2))
    errorPageUnlessOk k (← renderGoodsDetailContent k out (sub w 1) goodsId)
  | .goods none => httpSimpleErrorPage k 401
  | .wxPay =>
    match out.pay with
    | .handled => httpSimpleErrorPage k 200
    | .refused => httpSimpleErrorPage k 500
    | .threw => throw (.system .internalServerError)
  | .other => staticFile k out

/-- The answer to a target that is not allowed; nothing keeps the request from being
handled after it. -/
def answerIllegal (k : Nat) (req : Request) : H Unit :=
  if illegal req.target then httpSimpleErrorPage k 400 else pure ()

def recoverCookie (out : Outside) : H Unit :=
  if out.recovered then pure () else throw (.system .internalServerError)

/-- The handling of one request, up to the end of the loop body. -/
def handle (k : Nat) (req : Request) (out : Outside) : H Unit := do
  answerIllegal k req
  recoverCookie out
  dispatch k req out (route req.target)

/-- The loop of `client_connected` over the requests a client sends: how many have been
read, and the connection then. `k` have been read before. -/
def connection : List (Request × Outside) → Nat → Conn → Nat × Conn
  | [], k, c => (k, c)
  | (req, out) :: rest, k, c =>
    if c.isOpen then
      match exec (handle k req out) c with
      | (.ok (), c) => if req.keepAlive then connection rest (k + 1) c else (k + 1, c)
      | (.error _, c) => (k + 1, c)
    else (k, c)

end Cmall.Http
