import Cmall.HttpServer

/-!
What the HTTP handlers can do to a connection: write a response while it is open, close
it, and start a script. A property that these three keep is kept by the handling of a
request.
-/

namespace Cmall.Http

variable {α β : Type} {J : Conn → Prop}

def Preserves (J : Conn → Prop) (x : H α) : Prop := ∀ c, J c → J (exec x c).2

theorem preserves_pure (a : α) : Preserves J (pure a : H α) := fun _ h => h

theorem preserves_throw (e : Exn) : Preserves J (throw e : H α) := fun _ h => h

theorem preserves_modify {f : Conn → Conn} (h : ∀ c, J c → J (f c)) :
    Preserves J (modify f : H PUnit) := fun c hc => h c hc

theorem preserves_liftM (x : Except Exn α) : Preserves J (liftM x : H α) := by
  intro c hc
  rw [exec_liftM]
  exact hc

/-- What follows is only looked at for the values the first part can return. -/
theorem preserves_bind_of {x : H α} {f : α → H β} (hx : Preserves J x)
    (hf : ∀ a c c', exec x c = (.ok a, c') → Preserves J (f a)) : Preserves J (x >>= f) := by
  intro c hc
  rcases h : exec x c with ⟨res, c'⟩
  have hc' : J c' := by simpa [h] using hx c hc
  cases res with
  | error e =>
    rw [exec_bind_error h]
    exact hc'
  | ok a =>
    rw [exec_bind_ok h]
    exact hf a c c' h c' hc'

theorem preserves_bind {x : H α} {f : α → H β} (hx : Preserves J x)
    (hf : ∀ a, Preserves J (f a)) : Preserves J (x >>= f) :=
  preserves_bind_of hx fun a _ _ _ => hf a

/-! ## Responses -/

/-- Writing a response for request `k` and closing the stream keep `J`. -/
structure Stable (k : Nat) (J : Conn → Prop) : Prop where
  write : ∀ c status, c.isOpen = true → J c → J { c with sent := c.sent ++ [⟨k, status⟩] }
  close : ∀ c, J c → J { c with isOpen := false }

section Stable

variable {k : Nat} {out : Outside} {req : Request} (hs : Stable k J)
include hs

theorem write_preserves (status : Nat) : Preserves J (write k status) := by
  intro c hc
  cases hopen : c.isOpen with
  | true =>
    have hsent := hs.write c status hopen hc
    simpa only [write, exec_bind, exec_get, hopen, if_true, exec_modify] using hsent
  | false =>
    simp only [write, exec_bind, exec_get, hopen, Bool.false_eq_true, if_false, exec_throw]
    exact hc

theorem httpSimpleErrorPage_preserves (status : Nat) :
    Preserves J (httpSimpleErrorPage k status) :=
  preserves_bind (write_preserves hs status) fun _ => preserves_modify hs.close

theorem errorPageUnlessOk_preserves (status : Nat) : Preserves J (errorPageUnlessOk k status) := by
  unfold errorPageUnlessOk
  split
  · exact httpSimpleErrorPage_preserves hs status
  · exact preserves_pure ()

theorem renderGitRepoFiles_preserves (merchant path : String) :
    Preserves J (renderGitRepoFiles k out req merchant path) := by
  have hwrite : ∀ status, Preserves J (do write k status; return status : H Nat) := fun status =>
    preserves_bind (write_preserves hs status) fun _ => preserves_pure status
  unfold renderGitRepoFiles
  split
  · exact preserves_pure _
  · exact preserves_pure _
  · exact preserves_pure _
  · split
    · split
      · split
        · exact preserves_throw _
        · exact hwrite 206
      · exact hwrite 200
    · exact hwrite 200

theorem renderPage_preserves (merchant path : String) :
    Preserves J (renderPage k out req merchant path) := by
  refine preserves_bind (renderGitRepoFiles_preserves hs merchant path) fun _ => ?_
  split
  · exact renderGitRepoFiles_preserves hs merchant _
  · exact preserves_pure _

theorem renderGoodsDetailContent_preserves (merchant goodsId : String) :
    Preserves J (renderGoodsDetailContent k out merchant goodsId) := by
  unfold renderGoodsDetailContent
  split
  · exact preserves_pure 404
  · exact preserves_throw _
  · exact preserves_bind (write_preserves hs 200) fun _ => preserves_pure 200

theorem staticFile_preserves : Preserves J (staticFile k out) := by
  unfold staticFile
  split
  · exact write_preserves hs _
  · exact httpSimpleErrorPage_preserves hs 404

end Stable

/-! ## Requests -/

theorem callbackMatch_length {target : String} {w : List String}
    (h : callbackMatch target = some w) : w.length = 4 := by
  simp only [callbackMatch, Option.bind_eq_bind, Option.bind_eq_some_iff] at h
  obtain ⟨⟨merchant, rest⟩, -, rest', -, ⟨tail, path⟩, -, h⟩ := h
  cases h
  rfl

theorem scriptTail_length {target merchant : String} {rest : List Char} {w : List String}
    (h : scriptTail target merchant rest = some w) : w.length = 5 := by
  simp only [scriptTail, Option.bind_eq_bind, Option.bind_eq_some_iff] at h
  obtain ⟨⟨name, rest'⟩, -, rest'', -, ⟨tail, path⟩, -, h⟩ := h
  cases h
  rfl

theorem scriptsMatch_length {target : String} {w : List String}
    (h : (scriptsMatch target).or (cgiScriptsMatch target) = some w) : w.length = 5 := by
  rcases Option.or_eq_some_iff.mp h with h | ⟨-, h⟩
  · simp only [scriptsMatch, Option.bind_eq_bind, Option.bind_eq_some_iff] at h
    obtain ⟨⟨merchant, rest⟩, -, rest', -, h⟩ := h
    exact scriptTail_length h
  · simp only [cgiScriptsMatch, Option.bind_eq_bind, Option.bind_eq_some_iff] at h
    obtain ⟨rest, -, ⟨merchant, rest'⟩, -, rest'', -, h⟩ := h
    exact scriptTail_length h

theorem callbackMatch_of_route {target : String} {w : List String}
    (h : route target = .callback w) : callbackMatch target = some w := by
  unfold route at h
  split at h
  · cases h
  · split at h
    · cases h
      assumption
    · repeat' first
        | cases h
        | split at h

theorem scriptsMatch_of_route {target : String} {w : List String}
    (h : route target = .scripts w) :
    (scriptsMatch target).or (cgiScriptsMatch target) = some w := by
  unfold route at h
  split at h
  · cases h
  · split at h
    · cases h
    · split at h
      · cases h
        assumption
      · repeat' first
          | cases h
          | split at h

/-- The text a script gets as `remains`, and the merchant of the route. -/
def Route.Gives (route : Route) (merchant remains : String) : Prop :=
  match route with
  | .callback w => merchant = sub w 1 ∧ remains = ""
  | .scripts w => merchant = sub w 1 ∧ decodeURIComponent (sub w 4) = .ok remains
  | _ => False

theorem recoverCookie_preserves (out : Outside) : Preserves J (recoverCookie out) := by
  unfold recoverCookie
  split
  · exact preserves_pure ()
  · exact preserves_throw _

theorem dispatch_preserves {k : Nat} {req : Request} {out : Outside} (hs : Stable k J)
    (hrun : ∀ merchant path text, (route req.target).Gives merchant text →
      Preserves J (runCgi k out req merchant path text)) :
    Preserves J (dispatch k req out (route req.target)) := by
  have hscript : ∀ w path, (∀ text, remains w = .ok text →
      (route req.target).Gives (sub w 1) text) → Preserves J (do
        if ← runCgi k out req (sub w 1) path (← liftM (remains w)) then staticFile k out) := by
    intro w path hgives
    refine preserves_bind_of (preserves_liftM _) fun text c c' htext => ?_
    rw [exec_liftM] at htext
    refine preserves_bind (hrun _ _ _ (hgives text (Prod.mk.inj htext).1)) fun ran => ?_
    split
    · exact staticFile_preserves hs
    · exact preserves_pure ()
  cases hroute : route req.target with
  | images merchant path =>
    refine preserves_bind (preserves_liftM _) fun _ => ?_
    refine preserves_bind (renderGitRepoFiles_preserves hs _ _) fun _ => ?_
    exact preserves_bind (errorPageUnlessOk_preserves hs _) fun _ => staticFile_preserves hs
  | callback w =>
    refine hscript w _ fun text htext => ?_
    rw [remains, callbackMatch_length (callbackMatch_of_route hroute)] at htext
    rw [hroute]
    exact ⟨rfl, (Except.ok.inj htext).symm⟩
  | scripts w =>
    refine hscript w _ fun text htext => ?_
    rw [remains, scriptsMatch_length (scriptsMatch_of_route hroute)] at htext
    rw [hroute]
    exact ⟨rfl, htext⟩
  | pages merchant path =>
    refine preserves_bind (preserves_liftM _) fun _ => ?_
    refine preserves_bind (renderPage_preserves hs _ _) fun _ => ?_
    exact preserves_bind (errorPageUnlessOk_preserves hs _) fun _ => staticFile_preserves hs
  | pagesRoot merchant =>
    refine preserves_bind (renderGitRepoFiles_preserves hs _ _) fun _ => ?_
    exact preserves_bind (errorPageUnlessOk_preserves hs _) fun _ => staticFile_preserves hs
  | goods w =>
    cases w with
    | some w =>
      refine preserves_bind (preserves_liftM _) fun _ => ?_
      refine preserves_bind (renderGoodsDetailContent_preserves hs _ _) fun _ => ?_
      exact errorPageUnlessOk_preserves hs _
    | none => exact httpSimpleErrorPage_preserves hs 401
  | wxPay =>
    simp only [dispatch]
    split
    · exact httpSimpleErrorPage_preserves hs 200
    · exact httpSimpleErrorPage_preserves hs 500
    · exact preserves_throw _
  | other => exact staticFile_preserves hs

/-- A property that responses and the scripts of the request keep, the request keeps. -/
theorem handle_preserves {k : Nat} {req : Request} {out : Outside} (hs : Stable k J)
    (hrun : ∀ merchant path text, (route req.target).Gives merchant text →
      Preserves J (runCgi k out req merchant path text)) : Preserves J (handle k req out) := by
  refine preserves_bind ?_ fun _ => preserves_bind (recoverCookie_preserves out) fun _ =>
    dispatch_preserves hs hrun
  unfold answerIllegal
  split
  · exact httpSimpleErrorPage_preserves hs 400
  · exact preserves_pure ()

end Cmall.Http
