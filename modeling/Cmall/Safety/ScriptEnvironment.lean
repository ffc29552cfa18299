import Cmall.Footprint.Http

/-!
The environment of CGI scripts.

The header fields of the request are inserted into the environment first, and `insert`
keeps what is there: a client that sends a field `_VISITOR` is who it says. For
`callback.js` the path is looked for in a group that the match does not have.
-/

namespace Cmall.Http

/-! ## What the environment should be -/

/-- The text after the `?` or `/` that follows the name of the script. -/
def pathText : Route → Option String
  | .callback w => some (sub w 3)
  | .scripts w => some (sub w 4)
  | _ => none

/-- The path a script is to be given. -/
def wantedPath (req : Request) : Option String :=
  (pathText (route req.target)).bind fun text => (decodeURIComponent text).toOption

/-- Whatever other runs do, the token stays valid. -/
def ScriptRun.Accepted (r : ScriptRun) : Prop :=
  ∀ ops : List TokenOp, .erase r.token ∉ ops →
    inTempApiToken (ops.foldl TokenOp.apply r.tokens) r.token = true

/-- The variables are the server's own. -/
structure ScriptRun.Faithful (r : ScriptRun) (req : Request) (out : Outside) : Prop where
  method : r.env "_METHOD" = some req.method
  path : ∃ path, wantedPath req = some path ∧ r.env "_PATH" = some path
  token : r.env "_API_TOKEN" = some r.token
  accepted : r.Accepted
  visitor : r.env "_VISITOR" = out.visitor.map toString

/-! ## The condition -/

/-- The first field with the name. -/
def Request.field (req : Request) (name : String) : Option String :=
  (req.headers.find? fun kv => kv.1 = name).map Prod.snd

/-- There is no such field, or it says what the server says. -/
def Request.Undisturbed (req : Request) (name : String) (value : Option String) : Prop :=
  req.field name = none ∨ req.field name = value

def Route.isCallback : Route → Bool
  | .callback _ => true
  | _ => false

/-- No field of the request takes the place of a variable, and a `callback.js` is not
called with a path. -/
structure Unforged (req : Request) (out : Outside) (token : String) : Prop where
  method : req.Undisturbed "_METHOD" (some req.method)
  token : req.Undisturbed "_API_TOKEN" (some token)
  visitor : req.Undisturbed "_VISITOR" (out.visitor.map toString)
  path : ∃ path, wantedPath req = some path ∧ req.Undisturbed "_PATH" (some path) ∧
    ((route req.target).isCallback = true → req.field "_PATH" = none → path = "")

/-! ## Maps -/

section Env

variable (req : Request) (remains token : String) (visitor : Option Nat)

theorem scriptEnv_method :
    scriptEnv req remains token visitor "_METHOD" = (req.field "_METHOD").or (some req.method) := by
  cases visitor <;> simp [scriptEnv, ScriptEnv.insert_apply, foldl_insert_apply, Request.field]

theorem scriptEnv_path :
    scriptEnv req remains token visitor "_PATH" = (req.field "_PATH").or (some remains) := by
  cases visitor <;> simp [scriptEnv, ScriptEnv.insert_apply, foldl_insert_apply, Request.field]

theorem scriptEnv_token :
    scriptEnv req remains token visitor "_API_TOKEN" = (req.field "_API_TOKEN").or (some token) := by
  cases visitor <;> simp [scriptEnv, ScriptEnv.insert_apply, foldl_insert_apply, Request.field]

theorem scriptEnv_visitor :
    scriptEnv req remains token visitor "_VISITOR" =
      (req.field "_VISITOR").or (visitor.map toString) := by
  cases visitor <;> simp [scriptEnv, ScriptEnv.insert_apply, foldl_insert_apply, Request.field]

end Env

/-- A field of its own leaves the variable as it is. -/
theorem field_or_iff (req : Request) (name : String) (value : Option String) :
    (req.field name).or value = value ↔ req.Undisturbed name value := by
  unfold Request.Undisturbed
  cases h : req.field name with
  | none => simp
  | some v => simp [Option.or]

/-! ## The runs of a request -/

/-- What a script is started with. -/
structure StartedBy (req : Request) (out : Outside) (merchant remains : String) (r : ScriptRun) :
    Prop where
  token : r.token = merchant ++ "-" ++ out.random
  env : r.env = scriptEnv req remains r.token out.visitor
  valid : r.token ∈ r.tokens

/-- The scripts that have been started are old ones or satisfy `P`. -/
def NewRuns (P : ScriptRun → Prop) (c c' : Conn) : Prop := ∀ r ∈ c'.runs, r ∈ c.runs ∨ P r

theorem stable_newRuns (k : Nat) (P : ScriptRun → Prop) (c : Conn) : Stable k (NewRuns P c) :=
  ⟨fun _ _ _ h => h, fun _ h => h⟩

theorem runCgi_newRuns (k : Nat) (req : Request) (out : Outside) (merchant path text : String)
    (c : Conn) : Preserves (NewRuns (StartedBy req out merchant text) c)
      (runCgi k out req merchant path text) := by
  have hs := stable_newRuns k (StartedBy req out merchant text) c
  unfold runCgi
  split
  · intro c' hc'
    let token := merchant ++ "-" ++ out.random
    have hgen : exec (genTempApiToken merchant out.random) c' =
        (.ok token, { c' with tokens := c'.tokens.insert token }) := rfl
    have hrest : Preserves (NewRuns (StartedBy req out merchant text) c)
        (do dropTempApiToken token; write k 200; return true : H Bool) :=
      preserves_bind (preserves_modify fun _ h => h) fun _ =>
        preserves_bind (write_preserves hs 200) fun _ => preserves_pure true
    rw [exec_bind_ok hgen, exec_bind_ok (exec_modify _)]
    refine hrest _ fun r hr => ?_
    rcases List.mem_append.mp hr with hr | hr
    · exact hc' r hr
    · rw [List.mem_singleton.mp hr]
      exact .inr ⟨rfl, rfl, List.mem_insert_self⟩
  · exact preserves_bind (httpSimpleErrorPage_preserves hs 404) fun _ => preserves_pure false

/-- Every script of a request is started with the variables of its route. -/
theorem handle_newRuns (k : Nat) (req : Request) (out : Outside) (c : Conn) :
    NewRuns (fun r => ∃ merchant text, (route req.target).Gives merchant text ∧
      StartedBy req out merchant text r) c (exec (handle k req out) c).2 := by
  refine handle_preserves (stable_newRuns k _ c) (fun merchant path text hgives c' hc' r hr => ?_) c
    fun r hr => .inl hr
  rcases runCgi_newRuns k req out merchant path text c' c' (fun r hr => .inl hr) r hr with hr | hr
  · exact hc' r hr
  · exact .inr ⟨merchant, text, hgives, hr⟩

/-! ## Faithful runs -/

variable {req : Request} {out : Outside} {merchant text : String} {r : ScriptRun}

theorem accepted_of_mem (h : r.token ∈ r.tokens) : r.Accepted := by
  intro ops hops
  have hmem : ∀ tokens, r.token ∈ tokens → r.token ∈ ops.foldl TokenOp.apply tokens := by
    induction ops with
    | nil => exact fun _ h => h
    | cons op ops ih =>
      intro tokens hmem
      rw [List.mem_cons, not_or] at hops
      refine ih hops.2 _ ?_
      cases op with
      | insert token => exact List.mem_insert_of_mem hmem
      | erase token =>
        have hne : r.token ≠ token := fun e => hops.1 (by rw [e])
        simpa [TokenOp.apply, hmem] using hne
  simpa [inTempApiToken] using hmem r.tokens h

/-- The path a script is given, and the one it should be given. -/
theorem path_iff (h : (route req.target).Gives merchant text) :
    (∃ path, wantedPath req = some path ∧ (req.field "_PATH").or (some text) = some path) ↔
      ∃ path, wantedPath req = some path ∧ req.Undisturbed "_PATH" (some path) ∧
        ((route req.target).isCallback = true → req.field "_PATH" = none → path = "") := by
  refine exists_congr fun path => and_congr_right fun hwanted => ?_
  cases hroute : route req.target with
  | callback w =>
    rw [hroute] at h
    obtain ⟨-, rfl⟩ := h
    cases hfield : req.field "_PATH" with
    | none => simp [Request.Undisturbed, hfield, Route.isCallback, eq_comm]
    | some v => simp [Request.Undisturbed, hfield]
  | scripts w =>
    rw [hroute] at h
    have htext : text = path := by
      simpa [wantedPath, hroute, pathText, h.2, Except.toOption] using hwanted
    subst htext
    rw [field_or_iff]
    simp [Route.isCallback]
  | _ => simp [hroute, Route.Gives] at h

theorem faithful_iff (hgives : (route req.target).Gives merchant text)
    (h : StartedBy req out merchant text r) : r.Faithful req out ↔ Unforged req out r.token := by
  have hmethod : r.env "_METHOD" = some req.method ↔
      req.Undisturbed "_METHOD" (some req.method) := by
    rw [h.env, scriptEnv_method, field_or_iff]
  have htoken : r.env "_API_TOKEN" = some r.token ↔
      req.Undisturbed "_API_TOKEN" (some r.token) := by
    rw [h.env, scriptEnv_token, field_or_iff]
  have hvisitor : r.env "_VISITOR" = out.visitor.map toString ↔
      req.Undisturbed "_VISITOR" (out.visitor.map toString) := by
    rw [h.env, scriptEnv_visitor, field_or_iff]
  have hpath := path_iff hgives
  rw [← scriptEnv_path req text r.token out.visitor, ← h.env] at hpath
  constructor
  · intro hf
    exact ⟨hmethod.mp hf.method, htoken.mp hf.token, hvisitor.mp hf.visitor, hpath.mp hf.path⟩
  · intro hu
    exact ⟨hmethod.mpr hu.method, hpath.mpr hu.path, htoken.mpr hu.token,
      accepted_of_mem h.valid, hvisitor.mpr hu.visitor⟩

/-- A script that a request starts has the server's own variables exactly when the request
does not forge them. Two requests that do not, with the same method, the same path after
the name of the script and the same visitor, on whatever routes and with whatever other
fields, give the same variables, and valid tokens. -/
theorem script_environment_iff (k : Nat) (req : Request) (out : Outside) (c : Conn)
    (r : ScriptRun) (hr : r ∈ (exec (handle k req out) c).2.runs) (hnew : r ∉ c.runs) :
    (r.Faithful req out ↔ Unforged req out r.token) ∧
      ∀ k' req' out' c' r', r' ∈ (exec (handle k' req' out') c').2.runs → r' ∉ c'.runs →
        req'.method = req.method →
        pathText (route req'.target) = pathText (route req.target) →
        out'.visitor = out.visitor →
        Unforged req out r.token → Unforged req' out' r'.token →
        r'.env "_METHOD" = r.env "_METHOD" ∧ r'.env "_PATH" = r.env "_PATH" ∧
          r'.env "_VISITOR" = r.env "_VISITOR" ∧ r'.env "_API_TOKEN" = some r'.token ∧
          r'.Accepted := by
  have hiff : ∀ k req out c r, r ∈ (exec (handle k req out) c).2.runs → r ∉ c.runs →
      (r.Faithful req out ↔ Unforged req out r.token) := by
    intro k req out c r hr hnew
    obtain ⟨merchant, text, hgives, hstart⟩ := (handle_newRuns k req out c r hr).resolve_left hnew
    exact faithful_iff hgives hstart
  refine ⟨hiff k req out c r hr hnew, ?_⟩
  intro k' req' out' c' r' hr' hnew' hmethod hpath hvisitor hu hu'
  have hf := (hiff k req out c r hr hnew).mpr hu
  have hf' := (hiff k' req' out' c' r' hr' hnew').mpr hu'
  obtain ⟨path, hwanted, henv⟩ := hf.path
  obtain ⟨path', hwanted', henv'⟩ := hf'.path
  have hsame : some path' = some path := by
    rw [← hwanted', ← hwanted, wantedPath, wantedPath, hpath]
  refine ⟨?_, ?_, ?_, hf'.token, hf'.accepted⟩
  · rw [hf'.method, hf.method, hmethod]
  · rw [henv', henv, hsame]
  · rw [hf'.visitor, hf.visitor, hvisitor]

/-- A merchant with both scripts. -/
def scriptShop (visitor : Option Nat) : Outside :=
  { visitor, file := fun _ _ => .content "main()", random := "r4nd", site := .wrote 200 }

/-- The first script a request starts on a new connection. -/
def startedRun (req : Request) (visitor : Option Nat) : Option ScriptRun :=
  (exec (handle 0 req (scriptShop visitor)) {}).2.runs.head?

/-- The script of the shop is started. -/
theorem startedRun_eq (req : Request) (visitor : Option Nat) (text : String) {w : List String}
    (hlegal : illegal req.target = false)
    (hroute : route req.target = .callback w ∨ route req.target = .scripts w)
    (htext : remains w = .ok text) :
    startedRun req visitor = some ⟨"main()", req.body,
      scriptEnv req text (sub w 1 ++ "-" ++ "r4nd") visitor, sub w 1 ++ "-" ++ "r4nd",
      [sub w 1 ++ "-" ++ "r4nd"]⟩ := by
  rcases hroute with hroute | hroute <;>
    simp [startedRun, handle, answerIllegal, hlegal, recoverCookie, scriptShop, hroute, dispatch,
      runCgi, genTempApiToken, dropTempApiToken, TokenOp.apply, write, staticFile, exec_bind, htext]

/-- User 7 calls a script with a path. -/
def helloRequest : Request :=
  { method := "GET", target := "/api/cgi-scripts/3/hello.js/a%20b", headers := [("Host", "shop")] }

theorem route_hello : route helloRequest.target =
    .scripts ["/api/cgi-scripts/3/hello.js/a%20b", "3", "hello.js", "/a%20b", "a%20b"] := by
  decide +kernel

theorem script_environment_hello :
    ∃ r, startedRun helloRequest (some 7) = some r ∧
      r.Faithful helloRequest (scriptShop (some 7)) := by
  have hrun := startedRun_eq helloRequest (some 7) "a b"
    (by decide +kernel) (.inr route_hello) (by decide +kernel)
  refine ⟨_, hrun, (script_environment_iff 0 _ _ {} _ (List.mem_of_head? hrun)
    List.not_mem_nil).1.mpr ?_⟩
  refine ⟨.inl (by decide), .inl (by decide), .inl (by decide), "a b", ?_, .inl (by decide), ?_⟩
  · rw [wantedPath, route_hello]
    decide +kernel
  · rw [route_hello]
    intro h
    cases h

/-- A client that is not logged in. -/
def forgedRequest : Request :=
  { method := "GET", target := "/repos/3/scripts/hello.js", headers := [("_VISITOR", "1")] }

def callbackRequest : Request := { method := "GET", target := "/repos/3/callback.js/paid" }

theorem route_callback : route callbackRequest.target =
    .callback ["/repos/3/callback.js/paid", "3", "/paid", "paid"] := by
  decide +kernel

/-- The client is user 1 to the script, and `callback.js` is not told its path. -/
theorem script_environment_forged :
    (∃ r, startedRun forgedRequest none = some r ∧ r.env "_VISITOR" = some "1") ∧
      (∃ r, startedRun callbackRequest none = some r ∧ r.env "_PATH" = some "") ∧
      wantedPath callbackRequest = some "paid" := by
  have hforged := startedRun_eq forgedRequest none ""
    (by decide +kernel)
    (.inr (by decide +kernel : route forgedRequest.target =
      .scripts ["/repos/3/scripts/hello.js", "3", "hello.js", "", ""]))
    (by decide +kernel)
  have hcallback := startedRun_eq callbackRequest none ""
    (by decide +kernel) (.inl route_callback) (by decide +kernel)
  refine ⟨⟨_, hforged, ?_⟩, ⟨_, hcallback, ?_⟩, ?_⟩
  · dsimp only
    rw [scriptEnv_visitor]
    decide
  · dsimp only
    rw [scriptEnv_path]
    decide
  · rw [wantedPath, route_callback]
    decide +kernel

end Cmall.Http
