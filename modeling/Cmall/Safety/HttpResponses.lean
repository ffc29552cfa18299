import Cmall.Footprint.Http
import Mathlib.Data.List.Range

/-!
One response for each request.

The branches for files and scripts of a repository have no `continue`: a request they
have answered goes on to the static files and is answered once more. After an error page
the stream is closed, so there the second answer fails. An exception on the way leaves a
request without any answer.
-/

namespace Cmall.Http

/-! ## The condition -/

/-- Nothing is delivered in place of a page. -/
def NoPage (out : Outside) (merchant path : String) : Prop :=
  (out.file merchant path).delivered = false ∧
    (out.file merchant path = .tooLarge ∨ (out.file merchant "pages/index.html").delivered = false)

/-- Nothing is thrown in the branch, and a file, page or script of a repository is asked
for only where there is none. -/
def RouteAnsweredOnce (out : Outside) : Route → Prop
  | .images merchant path =>
    ∃ path', decodeURIComponent path = .ok path' ∧ (out.file merchant path').delivered = false
  | .callback w => (out.file (sub w 1) "scripts/callback.js").delivered = false
  | .scripts w =>
    (∃ text, remains w = .ok text) ∧ (out.file (sub w 1) ("scripts/" ++ sub w 2)).delivered = false
  | .pages merchant path =>
    ∃ path', decodeURIComponent path = .ok path' ∧ NoPage out merchant (beforeQuery path')
  | .pagesRoot merchant => (out.file merchant "pages/index.html").delivered = false
  | .goods (some w) =>
    ∃ goodsId, decodeURIComponent (sub w 2) = .ok goodsId ∧ out.goods (sub w 1) goodsId ≠ .missing
  | .goods none => True
  | .wxPay => out.pay ≠ .threw
  | .other => True

/-- The target has been refused, or the session is recovered and its branch answers once. -/
def AnsweredOnce (req : Request) (out : Outside) : Prop :=
  illegal req.target = true ∨ out.recovered = true ∧ RouteAnsweredOnce out (route req.target)

/-! ## What is written -/

/-- The handler writes `n` responses, all for request `k`. -/
def Writes {α : Type} (k : Nat) (x : H α) (c : Conn) (n : Nat) : Prop :=
  (exec x c).2.sent.map Response.request = c.sent.map Response.request ++ List.replicate n k

section Writes

variable {α β : Type} {k n m : Nat} {c c' : Conn} {req : Request} {out : Outside}

theorem writes_bind_error {x : H α} {f : α → H β} {e : Exn} (h : exec x c = (.error e, c'))
    (hx : Writes k x c n) : Writes k (x >>= f) c n := by
  unfold Writes at *
  rw [exec_bind_error h, ← hx, h]

theorem writes_bind_ok {x : H α} {f : α → H β} {a : α} (h : exec x c = (.ok a, c'))
    (hx : Writes k x c n) (hf : Writes k (f a) c' m) : Writes k (x >>= f) c (n + m) := by
  unfold Writes at *
  rw [h] at hx
  rw [exec_bind_ok h, hf, hx, List.append_assoc, List.replicate_append_replicate]

theorem exec_write (hc : c.isOpen = true) (status : Nat) :
    exec (write k status) c = (.ok (), { c with sent := c.sent ++ [⟨k, status⟩] }) := by
  simp [write, exec_bind, hc]

theorem exec_write_closed (hc : c.isOpen = false) (status : Nat) :
    exec (write k status) c = (.error (.std "bad descriptor"), c) := by
  simp [write, exec_bind, hc]

theorem exec_httpSimpleErrorPage (hc : c.isOpen = true) (status : Nat) :
    exec (httpSimpleErrorPage k status) c =
      (.ok (), { c with isOpen := false, sent := c.sent ++ [⟨k, status⟩] }) := by
  simp [httpSimpleErrorPage, exec_bind, exec_write hc]

theorem exec_httpSimpleErrorPage_closed (hc : c.isOpen = false) (status : Nat) :
    exec (httpSimpleErrorPage k status) c = (.error (.std "bad descriptor"), c) := by
  simp [httpSimpleErrorPage, exec_bind, exec_write_closed hc]

/-- The static files answer once, or throw when the stream has been closed. -/
theorem writes_staticFile (k : Nat) (out : Outside) (hc : c.isOpen = true) :
    Writes k (staticFile k out) c 1 := by
  unfold Writes staticFile
  split
  · rw [exec_write hc]
    simp
  · rw [exec_httpSimpleErrorPage hc]
    simp

theorem writes_staticFile_closed (k : Nat) (out : Outside) (hc : c.isOpen = false) :
    Writes k (staticFile k out) c 0 := by
  unfold Writes staticFile
  split
  · rw [exec_write_closed hc]
    simp
  · rw [exec_httpSimpleErrorPage_closed hc]
    simp

/-- The outcome of rendering a file: a status and nothing written, or something delivered,
unless an exception comes in between. -/
def Renders (k : Nat) (x : H Nat) (c : Conn) (delivered : Prop) : Prop :=
  (¬ delivered ∧ ∃ status, status ≠ 200 ∧ status ≠ 206 ∧ exec x c = (.ok status, c)) ∨
    (delivered ∧ ((∃ e, exec x c = (.error e, c)) ∨ ∃ status, (status = 200 ∨ status = 206) ∧
      exec x c = (.ok status, { c with sent := c.sent ++ [⟨k, status⟩] })))

theorem Renders.congr {x y : H Nat} {d d' : Prop} (h : Renders k x c d)
    (hy : exec y c = exec x c) (hd : d' ↔ d) : Renders k y c d' := by
  unfold Renders at *
  rw [hy, hd]
  exact h

theorem renderGitRepoFiles_renders (k : Nat) (out : Outside) (req : Request)
    (hc : c.isOpen = true) (merchant path : String) :
    Renders k (renderGitRepoFiles k out req merchant path) c
      ((out.file merchant path).delivered = true) := by
  cases hfile : out.file merchant path with
  | noRepo => exact .inl ⟨by simp [FileAnswer.delivered], 404, by simp [renderGitRepoFiles, hfile]⟩
  | missing => exact .inl ⟨by simp [FileAnswer.delivered], 404, by simp [renderGitRepoFiles, hfile]⟩
  | tooLarge => exact .inl ⟨by simp [FileAnswer.delivered], 413, by simp [renderGitRepoFiles, hfile]⟩
  | content body =>
    have hdone : ∀ status, exec (do write k status; return status : H Nat) c =
        (.ok status, { c with sent := c.sent ++ [⟨k, status⟩] }) := fun status =>
      exec_bind_ok (exec_write hc status)
    refine .inr ⟨rfl, ?_⟩
    simp only [renderGitRepoFiles, hfile]
    split
    · split
      · split
        · exact .inl ⟨_, exec_throw _⟩
        · exact .inr ⟨206, .inr rfl, hdone 206⟩
      · exact .inr ⟨200, .inl rfl, hdone 200⟩
    · exact .inr ⟨200, .inl rfl, hdone 200⟩

theorem renderPage_renders (k : Nat) (out : Outside) (req : Request) (hc : c.isOpen = true)
    (merchant path : String) :
    Renders k (renderPage k out req merchant path) c (¬ NoPage out merchant path) := by
  have hindex := renderGitRepoFiles_renders k out req hc merchant "pages/index.html"
  have hmissing : exec (renderGitRepoFiles k out req merchant path) c = (.ok 404, c) →
      exec (renderPage k out req merchant path) c =
        exec (renderGitRepoFiles k out req merchant "pages/index.html") c := by
    intro h
    rw [renderPage, exec_bind_ok h, if_pos rfl]
  cases hfile : out.file merchant path with
  | noRepo =>
    exact hindex.congr (hmissing (by simp [renderGitRepoFiles, hfile]))
      (by simp [NoPage, hfile, FileAnswer.delivered])
  | missing =>
    exact hindex.congr (hmissing (by simp [renderGitRepoFiles, hfile]))
      (by simp [NoPage, hfile, FileAnswer.delivered])
  | tooLarge =>
    have hpage : NoPage out merchant path := by simp [NoPage, hfile, FileAnswer.delivered]
    refine .inl ⟨not_not_intro hpage, 413, by decide, by decide, ?_⟩
    simp [renderPage, renderGitRepoFiles, hfile]
  | content body =>
    have hpage : ¬ NoPage out merchant path := by simp [NoPage, hfile, FileAnswer.delivered]
    refine .inr ⟨hpage, ?_⟩
    rcases renderGitRepoFiles_renders k out req hc merchant path with
      ⟨hnot, -⟩ | ⟨-, ⟨e, hexec⟩ | ⟨status, hstatus, hexec⟩⟩
    · exact absurd (by simp [hfile, FileAnswer.delivered]) hnot
    · exact .inl ⟨e, exec_bind_error hexec⟩
    · refine .inr ⟨status, hstatus, ?_⟩
      have hne : status ≠ 404 := by rcases hstatus with rfl | rfl <;> decide
      rw [renderPage, exec_bind_ok hexec, if_neg hne, exec_pure]

/-- Rendering, the error page and the static files: one response exactly when nothing has
been delivered. -/
theorem writes_rendered (out : Outside) {x : H Nat} {delivered : Prop} (hc : c.isOpen = true)
    (hx : Renders k x c delivered) : ∃ n, (n = 1 ↔ ¬ delivered) ∧
      Writes k (do errorPageUnlessOk k (← x); staticFile k out) c n := by
  rcases hx with ⟨hnot, status, h200, h206, hexec⟩ | ⟨hdel, ⟨e, hexec⟩ | ⟨status, hstatus, hexec⟩⟩
  · refine ⟨1, by simp [hnot], ?_⟩
    have hpage : exec (errorPageUnlessOk k status) c =
        (.ok (), { c with isOpen := false, sent := c.sent ++ [⟨k, status⟩] }) := by
      rw [errorPageUnlessOk, if_pos ⟨h200, h206⟩, exec_httpSimpleErrorPage hc]
    have hclosed := writes_staticFile_closed k out
      (c := { c with isOpen := false, sent := c.sent ++ [⟨k, status⟩] }) rfl
    unfold Writes at *
    rw [exec_bind_ok hexec, exec_bind_ok hpage, hclosed]
    simp
  · refine ⟨0, by simp [hdel], ?_⟩
    unfold Writes
    rw [exec_bind_error hexec]
    simp
  · refine ⟨2, by simp [hdel], ?_⟩
    have hpage : exec (errorPageUnlessOk k status) { c with sent := c.sent ++ [⟨k, status⟩] } =
        (.ok (), { c with sent := c.sent ++ [⟨k, status⟩] }) := by
      rw [errorPageUnlessOk, if_neg (by rcases hstatus with rfl | rfl <;> simp), exec_pure]
    have hopen := writes_staticFile k out
      (c := { c with sent := c.sent ++ [⟨k, status⟩] }) hc
    unfold Writes at *
    rw [exec_bind_ok hexec, exec_bind_ok hpage, hopen]
    simp [List.replicate_succ]

/-- A script that is there runs and is answered. -/
theorem exec_runCgi_content (k : Nat) (out : Outside) (req : Request) (hc : c.isOpen = true)
    {merchant path script : String} (text : String)
    (hfile : out.file merchant path = .content script) :
    ∃ c', exec (runCgi k out req merchant path text) c = (.ok true, c') ∧
      c'.isOpen = true ∧ c'.sent = c.sent ++ [⟨k, 200⟩] := by
  let token := merchant ++ "-" ++ out.random
  let started : Conn := { c with
    tokens := c.tokens.insert token
    runs := c.runs ++ [⟨script, req.body, scriptEnv req text token out.visitor, token,
      c.tokens.insert token⟩] }
  let dropped : Conn := { started with tokens := TokenOp.apply started.tokens (.erase token) }
  have hgen : exec (genTempApiToken merchant out.random) c =
      (.ok token, { c with tokens := c.tokens.insert token }) := rfl
  have hdrop : exec (dropTempApiToken token) started = (.ok (), dropped) := rfl
  have hwrite := exec_write (k := k) (c := dropped) hc 200
  refine ⟨{ dropped with sent := dropped.sent ++ [⟨k, 200⟩] }, ?_, hc, rfl⟩
  simp only [runCgi, hfile]
  rw [exec_bind_ok hgen, exec_bind_ok (exec_modify _)]
  change exec (dropTempApiToken token >>= _) started = _
  rw [exec_bind_ok hdrop, exec_bind_ok hwrite, exec_pure]

/-- For a script that is not there the error page is sent. -/
theorem exec_runCgi_missing (k : Nat) (out : Outside) (req : Request) (hc : c.isOpen = true)
    {merchant path : String} (text : String) (hfile : (out.file merchant path).delivered = false) :
    exec (runCgi k out req merchant path text) c =
      (.ok false, { c with isOpen := false, sent := c.sent ++ [⟨k, 404⟩] }) := by
  cases h : out.file merchant path with
  | content script => simp [h, FileAnswer.delivered] at hfile
  | _ =>
    simp only [runCgi, h]
    rw [exec_bind_ok (exec_httpSimpleErrorPage hc 404), exec_pure]

/-- A script: two responses when it is there, the error page when it is not. -/
theorem writes_script (k : Nat) (out : Outside) (req : Request) (hc : c.isOpen = true)
    (w : List String) (path : String) : ∃ n,
      (n = 1 ↔ (∃ text, remains w = .ok text) ∧ (out.file (sub w 1) path).delivered = false) ∧
      Writes k (do
        if ← runCgi k out req (sub w 1) path (← liftM (remains w)) then staticFile k out) c n := by
  cases htext : remains w with
  | error e =>
    refine ⟨0, by simp, ?_⟩
    unfold Writes
    rw [exec_bind_error (exec_liftM _)]
    simp
  | ok text =>
    cases hfile : out.file (sub w 1) path with
    | content script =>
      obtain ⟨c', hrun, hopen, hsent⟩ := exec_runCgi_content k out req hc text hfile
      have hstatic := writes_staticFile k out hopen
      refine ⟨2, by simp [FileAnswer.delivered], ?_⟩
      unfold Writes at *
      rw [exec_bind_ok (exec_liftM _), exec_bind_ok hrun, if_pos rfl, hstatic, hsent]
      simp [List.replicate_succ]
    | _ =>
      have hrun := exec_runCgi_missing k out req hc text
        (by rw [hfile]; rfl : (out.file (sub w 1) path).delivered = false)
      refine ⟨1, by simp [FileAnswer.delivered], ?_⟩
      unfold Writes
      rw [exec_bind_ok (exec_liftM _), exec_bind_ok hrun]
      simp

/-- A connection on which nothing more is written. -/
def Silent (sent : List Response) (c : Conn) : Prop := c.isOpen = false ∧ c.sent = sent

theorem stable_silent (k : Nat) (sent : List Response) : Stable k (Silent sent) := by
  refine ⟨fun c status hopen h => ?_, fun c h => ⟨rfl, h.2⟩⟩
  rw [h.1] at hopen
  cases hopen

theorem runCgi_silent (k : Nat) (out : Outside) (req : Request) (merchant path text : String)
    (sent : List Response) : Preserves (Silent sent) (runCgi k out req merchant path text) := by
  have hs := stable_silent k sent
  unfold runCgi
  split
  · refine preserves_bind (preserves_bind (preserves_modify fun _ h => h) fun _ => preserves_pure _)
      fun token => preserves_bind (preserves_modify fun _ h => h) fun _ => ?_
    refine preserves_bind (preserves_modify fun _ h => h) fun _ => ?_
    exact preserves_bind (write_preserves hs 200) fun _ => preserves_pure true
  · exact preserves_bind (httpSimpleErrorPage_preserves hs 404) fun _ => preserves_pure false

/-- A goods page: one response, unless the goods are not found. -/
theorem writes_goods (k : Nat) (out : Outside) (hc : c.isOpen = true) (merchant goodsId : String) :
    ∃ n, (n = 1 ↔ out.goods merchant goodsId ≠ .missing) ∧
      Writes k (do errorPageUnlessOk k (← renderGoodsDetailContent k out merchant goodsId)) c n := by
  cases hgoods : out.goods merchant goodsId with
  | noRepo =>
    refine ⟨1, by simp, ?_⟩
    unfold Writes
    simp only [renderGoodsDetailContent, hgoods]
    rw [exec_bind_ok (exec_pure 404), errorPageUnlessOk, if_pos (by decide),
      exec_httpSimpleErrorPage hc]
    simp
  | missing =>
    refine ⟨0, by simp, ?_⟩
    unfold Writes
    simp only [renderGoodsDetailContent, hgoods]
    rw [exec_bind_error (exec_throw _)]
    simp
  | detail text =>
    have hrender : exec (renderGoodsDetailContent k out merchant goodsId) c =
        (.ok 200, { c with sent := c.sent ++ [⟨k, 200⟩] }) := by
      simp only [renderGoodsDetailContent, hgoods]
      rw [exec_bind_ok (exec_write hc 200), exec_pure]
    refine ⟨1, by simp, ?_⟩
    unfold Writes
    rw [exec_bind_ok hrender, errorPageUnlessOk, if_neg (by decide), exec_pure]
    simp

/-- What follows the decoding of a part of the target is reached only if it is decoded. -/
theorem writes_decoded {text : String} {f : String → H Unit} {once : String → Prop}
    (h : ∀ a, ∃ n, (n = 1 ↔ once a) ∧ Writes k (f a) c n) :
    ∃ n, (n = 1 ↔ ∃ a, decodeURIComponent text = .ok a ∧ once a) ∧
      Writes k (do f (← liftM (decodeURIComponent text))) c n := by
  cases htext : decodeURIComponent text with
  | error e =>
    refine ⟨0, by simp, ?_⟩
    unfold Writes
    rw [exec_bind_error (exec_liftM _)]
    simp
  | ok a =>
    obtain ⟨n, hn, hwrites⟩ := h a
    refine ⟨n, by simp [hn], ?_⟩
    unfold Writes at *
    rw [exec_bind_ok (exec_liftM _), hwrites]

theorem writes_httpSimpleErrorPage (k : Nat) (hc : c.isOpen = true) (status : Nat) :
    Writes k (httpSimpleErrorPage k status) c 1 := by
  unfold Writes
  rw [exec_httpSimpleErrorPage hc]
  simp

theorem dispatch_writes (k : Nat) (req : Request) (out : Outside) (hc : c.isOpen = true) :
    ∃ n, (n = 1 ↔ RouteAnsweredOnce out (route req.target)) ∧
      Writes k (dispatch k req out (route req.target)) c n := by
  cases hroute : route req.target with
  | images merchant path =>
    refine writes_decoded fun path' => ?_
    obtain ⟨n, hn, h⟩ := writes_rendered out hc
      (renderGitRepoFiles_renders k out req hc merchant path')
    exact ⟨n, by simpa using hn, h⟩
  | callback w =>
    have htext : remains w = .ok "" := by
      rw [remains, callbackMatch_length (callbackMatch_of_route hroute), if_neg (by decide)]
    obtain ⟨n, hn, h⟩ := writes_script k out req hc w "scripts/callback.js"
    exact ⟨n, by simpa [htext, RouteAnsweredOnce] using hn, h⟩
  | scripts w => exact writes_script k out req hc w _
  | pages merchant path =>
    refine writes_decoded fun path' => ?_
    obtain ⟨n, hn, h⟩ := writes_rendered out hc
      (renderPage_renders k out req hc merchant (beforeQuery path'))
    exact ⟨n, hn.trans not_not, h⟩
  | pagesRoot merchant =>
    obtain ⟨n, hn, h⟩ := writes_rendered out hc
      (renderGitRepoFiles_renders k out req hc merchant "pages/index.html")
    exact ⟨n, by simpa [RouteAnsweredOnce] using hn, h⟩
  | goods w =>
    cases w with
    | none => exact ⟨1, by simp [RouteAnsweredOnce], writes_httpSimpleErrorPage k hc 401⟩
    | some w => exact writes_decoded fun goodsId => writes_goods k out hc (sub w 1) goodsId
  | wxPay =>
    cases hpay : out.pay with
    | handled =>
      refine ⟨1, by simp [RouteAnsweredOnce, hpay], ?_⟩
      simpa only [dispatch, hpay] using writes_httpSimpleErrorPage k hc 200
    | refused =>
      refine ⟨1, by simp [RouteAnsweredOnce, hpay], ?_⟩
      simpa only [dispatch, hpay] using writes_httpSimpleErrorPage k hc 500
    | threw =>
      refine ⟨0, by simp [RouteAnsweredOnce, hpay], ?_⟩
      unfold Writes
      simp [dispatch, hpay]
  | other => exact ⟨1, by simp [RouteAnsweredOnce], writes_staticFile k out hc⟩

/-- A target that is allowed, and a session that is recovered. -/
theorem exec_handle_legal
    (hlegal : illegal req.target = false) (hrec : out.recovered = true) :
    exec (handle k req out) c = exec (dispatch k req out (route req.target)) c := by
  have hanswer : exec (answerIllegal k req) c = (.ok (), c) := by
    rw [answerIllegal, hlegal]
    exact exec_pure ()
  have hrecover : exec (recoverCookie out) c = (.ok (), c) := by
    rw [recoverCookie, hrec]
    exact exec_pure ()
  rw [handle, exec_bind_ok hanswer, exec_bind_ok hrecover]

/-- The number of responses to one request on an open connection. -/
theorem handle_writes (k : Nat) (req : Request) (out : Outside) (hc : c.isOpen = true) :
    ∃ n, (n = 1 ↔ AnsweredOnce req out) ∧ Writes k (handle k req out) c n := by
  cases hill : illegal req.target with
  | true =>
    have hanswer : exec (answerIllegal k req) c =
        (.ok (), { c with isOpen := false, sent := c.sent ++ [⟨k, 400⟩] }) := by
      rw [answerIllegal, if_pos hill, exec_httpSimpleErrorPage hc]
    have hrest : Preserves (Silent (c.sent ++ [⟨k, 400⟩]))
        (do recoverCookie out; dispatch k req out (route req.target)) :=
      preserves_bind (recoverCookie_preserves out) fun _ => dispatch_preserves (stable_silent k _)
        fun merchant path text _ => runCgi_silent k out req merchant path text _
    refine ⟨1, by simp [AnsweredOnce, hill], ?_⟩
    unfold Writes
    rw [handle, exec_bind_ok hanswer, (hrest _ ⟨rfl, rfl⟩).2]
    simp
  | false =>
    cases hrec : out.recovered with
    | false =>
      have hanswer : exec (answerIllegal k req) c = (.ok (), c) := by
        rw [answerIllegal, hill]
        exact exec_pure ()
      have hrecover : exec (recoverCookie out) c = (.error (.system .internalServerError), c) := by
        rw [recoverCookie, hrec]
        exact exec_throw _
      refine ⟨0, by simp [AnsweredOnce, hill, hrec], ?_⟩
      unfold Writes
      rw [handle, exec_bind_ok hanswer, exec_bind_error hrecover]
      simp
    | true =>
      obtain ⟨n, hn, hwrites⟩ := dispatch_writes k req out hc
      refine ⟨n, by simpa [AnsweredOnce, hill, hrec] using hn, ?_⟩
      unfold Writes at *
      rw [exec_handle_legal hill hrec, hwrites]

end Writes

/-! ## Whole connections -/

/-- The responses when the `k`-th request and those after it get so many. -/
def numbered : Nat → List Nat → List Nat
  | _, [] => []
  | k, n :: ns => List.replicate n k ++ numbered (k + 1) ns

theorem le_of_mem_numbered {ns : List Nat} : ∀ {k i}, i ∈ numbered k ns → k ≤ i := by
  induction ns with
  | nil => simp [numbered]
  | cons n ns ih =>
    intro k i hi
    rcases List.mem_append.mp hi with hi | hi
    · exact (List.eq_of_mem_replicate hi).ge
    · have := ih hi
      omega

/-- The responses are numbered one after another exactly when each request gets one. -/
theorem numbered_eq_range {ns : List Nat} :
    ∀ k, numbered k ns = List.range' k ns.length ↔ ∀ n ∈ ns, n = 1 := by
  induction ns with
  | nil => simp [numbered]
  | cons n ns ih =>
    intro k
    have hlt : k ∉ numbered (k + 1) ns := fun h => by
      have := le_of_mem_numbered h
      omega
    have hlt' : k ∉ List.range' (k + 1) ns.length := by simp
    rw [List.length_cons, List.range'_succ, numbered, List.forall_mem_cons, ← ih (k + 1)]
    match n with
    | 0 =>
      simp only [List.replicate_zero, List.nil_append, Nat.zero_ne_one, false_and, iff_false]
      intro h
      rw [h] at hlt
      exact hlt List.mem_cons_self
    | 1 => simp
    | n + 2 =>
      simp only [List.replicate_succ, List.cons_append, List.cons.injEq, true_and]
      constructor
      · intro h
        rw [← h] at hlt'
        exact absurd List.mem_cons_self hlt'
      · intro h
        omega

/-- A connection and the number of responses to each of the requests read on it. -/
theorem connection_numbered (qs : List (Request × Outside)) : ∀ k c, ∃ ns,
    (connection qs k c).1 = k + ns.length ∧
    (connection qs k c).2.sent.map Response.request =
      c.sent.map Response.request ++ numbered k ns ∧
    List.Forall₂ (fun n q => n = 1 ↔ AnsweredOnce q.1 q.2) ns (qs.take ns.length) := by
  induction qs with
  | nil => exact fun k c => ⟨[], by simp [connection, numbered]⟩
  | cons q qs ih =>
    intro k c
    obtain ⟨req, out⟩ := q
    cases hc : c.isOpen with
    | false => exact ⟨[], by simp [connection, numbered, hc]⟩
    | true =>
      obtain ⟨n, hn, hwrites⟩ := handle_writes k req out hc
      have hlast : ∀ c' : Conn, c'.sent.map Response.request =
          c.sent.map Response.request ++ List.replicate n k → ∃ ns : List Nat,
          k + 1 = k + ns.length ∧
          c'.sent.map Response.request = c.sent.map Response.request ++ numbered k ns ∧
          List.Forall₂ (fun n q => n = 1 ↔ AnsweredOnce q.1 q.2) ns
            (((req, out) :: qs).take ns.length) := by
        intro c' hc'
        refine ⟨[n], rfl, by simpa [numbered] using hc', ?_⟩
        exact .cons hn .nil
      unfold Writes at hwrites
      rw [connection, if_pos hc]
      rcases hexec : exec (handle k req out) c with ⟨res, c'⟩
      rw [hexec] at hwrites
      cases res with
      | error e => exact hlast c' hwrites
      | ok u =>
        cases hkeep : req.keepAlive with
        | false => exact hlast c' hwrites
        | true =>
          obtain ⟨ns, hread, hsent, hall⟩ := ih (k + 1) c'
          refine ⟨n :: ns, ?_, ?_, .cons hn hall⟩
          · rw [List.length_cons]
            exact hread.trans (by omega)
          · refine hsent.trans ?_
            rw [hwrites, numbered, List.append_assoc]

theorem forall_one_iff {ns : List Nat} {qs : List (Request × Outside)}
    (h : List.Forall₂ (fun n q => n = 1 ↔ AnsweredOnce q.1 q.2) ns qs) :
    (∀ n ∈ ns, n = 1) ↔ ∀ q ∈ qs, AnsweredOnce q.1 q.2 := by
  induction h with
  | nil => simp
  | cons hn _ ih => rw [List.forall_mem_cons, List.forall_mem_cons, hn, ih]

/-- The stream of a connection that has just been accepted. -/
def accepted (tokens : List String) (runs : List ScriptRun) : Conn :=
  { tokens := tokens, runs := runs }

/-- Every request on an open connection gets exactly one response just when it is one of
those answered once, and over any sequence of requests the `k`-th response answers the
`k`-th request, for all requests read and with nothing more, just when all of them are. -/
theorem one_response_iff (qs : List (Request × Outside)) (tokens : List String)
    (runs : List ScriptRun) :
    (∀ k req out c, c.isOpen = true →
      ((exec (handle k req out) c).2.sent.map Response.request =
        c.sent.map Response.request ++ [k] ↔ AnsweredOnce req out)) ∧
    ((connection qs 0 (accepted tokens runs)).2.sent.map Response.request =
        List.range (connection qs 0 (accepted tokens runs)).1 ↔
      ∀ q ∈ qs.take (connection qs 0 (accepted tokens runs)).1, AnsweredOnce q.1 q.2) := by
  constructor
  · intro k req out c hc
    obtain ⟨n, hn, hwrites⟩ := handle_writes k req out hc
    rw [hwrites, ← hn, List.append_cancel_left_eq]
    constructor
    · intro h
      simpa using congrArg List.length h
    · intro h
      rw [h]
      rfl
  · obtain ⟨ns, hread, hsent, hall⟩ := connection_numbered qs 0 (accepted tokens runs)
    rw [Nat.zero_add] at hread
    rw [hsent, hread, List.range_eq_range']
    exact (numbered_eq_range 0).trans (forall_one_iff hall)

/-- Shop 3 has one image, and the site has its front page. -/
def imageShop : Outside where
  file merchant path := if merchant = "3" ∧ path = "images/a.png" then .content "png" else .missing
  site := .wrote 200

def homeRequest : Request := { method := "GET", target := "/" }

def imageRequest : Request := { method := "GET", target := "/repos/3/images/a.png" }

theorem route_home : route homeRequest.target = .other := by decide +kernel

theorem route_image : route imageRequest.target = .images "3" "images/a.png" := by decide +kernel

/-- A front page, asked for twice, is sent twice. -/
theorem one_response_home_twice :
    (connection [(homeRequest, imageShop), (homeRequest, imageShop)] 0
      (accepted [] [])).2.sent.map Response.request =
      List.range (connection [(homeRequest, imageShop), (homeRequest, imageShop)] 0
        (accepted [] [])).1 := by
  refine (one_response_iff _ [] []).2.mpr fun q hq => ?_
  have hq : q = (homeRequest, imageShop) := by
    have := List.mem_of_mem_take hq
    simpa using this
  subst hq
  right
  rw [route_home]
  exact ⟨rfl, trivial⟩

/-- An image is followed by the answer of the static files to the same request, which the
client takes for the answer to its next one. -/
theorem two_responses_for_image :
    (connection [(imageRequest, imageShop), (homeRequest, imageShop)] 0
      (accepted [] [])).2.sent.map Response.request = [0, 0, 1] ∧
    (connection [(imageRequest, imageShop), (homeRequest, imageShop)] 0
      (accepted [] [])).1 = 2 := by
  have himage : exec (handle 0 imageRequest imageShop) (accepted [] []) =
      (.ok (), { sent := [⟨0, 200⟩, ⟨0, 200⟩] }) := by
    have hpath : decodeURIComponent "images/a.png" = .ok "images/a.png" := by decide +kernel
    have hrender : exec (renderGitRepoFiles 0 imageShop imageRequest "3" "images/a.png")
        (accepted [] []) = (.ok 200, { sent := [⟨0, 200⟩] }) := by
      simp only [renderGitRepoFiles, imageShop, imageRequest, and_self, if_true]
      exact exec_bind_ok (exec_write rfl 200)
    rw [exec_handle_legal (by decide +kernel) rfl, route_image, dispatch, hpath,
      exec_bind_ok (exec_liftM _), exec_bind_ok hrender, errorPageUnlessOk, if_neg (by decide),
      exec_bind_ok (exec_pure ())]
    exact exec_write rfl 200
  have hhome : exec (handle 1 homeRequest imageShop) { sent := [⟨0, 200⟩, ⟨0, 200⟩] } =
      (.ok (), { sent := [⟨0, 200⟩, ⟨0, 200⟩, ⟨1, 200⟩] }) := by
    rw [exec_handle_legal (by decide +kernel) rfl, route_home]
    exact exec_write rfl 200
  have hread : connection [(imageRequest, imageShop), (homeRequest, imageShop)] 0
      (accepted [] []) = (2, { sent := [⟨0, 200⟩, ⟨0, 200⟩, ⟨1, 200⟩] }) := by
    simp only [connection, himage, hhome]
    rfl
  rw [hread]
  exact ⟨rfl, rfl⟩

end Cmall.Http
