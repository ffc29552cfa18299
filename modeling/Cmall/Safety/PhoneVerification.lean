import Cmall.Safety.OneAccount

/-!
Phone-verification binding.

`user_prelogin` writes the phone into the session before the SMS is sent and the
cookie of the code afterwards, and the branch of `handle_user_login` for a new
user reads the phone from the session once more. A login is bound to the phone its
code was sent to as long as nobody replaces the phone in between.
-/

namespace Cmall
open Coroutine Protocol

/-- Every user a request logged in with a code has the phone the code was sent to. -/
def CodesBound (trace : List Event) : Prop :=
  ∀ r cookie code a u, .codeAccepted r cookie code ∈ trace → .identified r a u ∈ trace →
    ∃ r', .smsSent r' u.activePhone cookie code ∈ trace

structure VerifyInv (s : Mem) : Prop where
  bound : CodesBound s.trace
  sent : ∀ cookie code, (cookie, code) ∈ s.codes → ∃ r tel, .smsSent r tel cookie code ∈ s.trace

/-- `t` extends `s` without a login event of request `r`. -/
structure LoginExt (r : Nat) (s t : Mem) : Prop where
  mono : ∀ e ∈ s.trace, e ∈ t.trace
  own : ∀ e ∈ t.trace, e.req = r → e.part = .loginEvents → e ∈ s.trace

/-! ## The condition -/

/-- The phone an event sent the code of `cookie` to. -/
def Event.sentTo (cookie : String) : Event → Option String
  | .smsSent _ tel c _ => if c = cookie then some tel else none
  | _ => none

/-- The phone in the session is the one the code of its cookie was sent to. -/
def ClientSession.phoneIsCookies (c : ClientSession) (trace : List Event) : Prop :=
  ∀ cookie ∈ c.verifySessionCookie, ∀ e ∈ trace, ∀ tel ∈ e.sentTo cookie, tel = c.verifyTelephone

/-- The phone that was looked up in vain. -/
def Spot.missed : Spot → Option String
  | .lookedUp _ tel none => some tel
  | _ => none

/-- What the steps of `user_login` need of the session of their connection: when
it begins, the phone is still that of the cookie, and when it goes on after a
look-up without result, the phone is still the one it looked up. -/
def phoneKept (_ : Nat) (q : Request) (p : Point) (_ : Input) (s : Mem) : Prop :=
  q.method = some .userLogin → ∀ a ∈ (s.conn p.ctx.conn).sessionInfo,
    (p.spot = .start (some .userLogin) → (s.heap a).phoneIsCookies s.trace) ∧
      ∀ tel ∈ p.spot.missed, (s.heap a).verifyTelephone = tel

def verifyProtocol : Protocol Request Mem Input Point where
  inv := VerifyInv
  rely r _ s t := LoginExt r s t
  guar r _ s t := (VerifyInv s → VerifyInv t) ∧ ∀ r', r' ≠ r → LoginExt r' s t
  guard := phoneKept
  permit _ _ := True
  fresh r s := ∀ e ∈ s.trace, e.part = .loginEvents → e.req ≠ r
  rely_refl _ _ _ := ⟨fun _ h => h, fun _ h _ _ => h⟩
  rely_trans _ _ _ _ _ h h' := ⟨fun e he => h'.mono e (h.mono e he),
    fun e he hr hp => h.own e (h'.own e he hr hp) hr hp⟩
  guar_refl _ _ _ := ⟨id, fun _ _ => ⟨fun _ h => h, fun _ h _ _ => h⟩⟩
  guar_trans _ _ _ _ _ h h' := ⟨h'.1 ∘ h.1, fun r' hr' =>
    ⟨fun e he => (h'.2 r' hr').mono e ((h.2 r' hr').mono e he), fun e he hr hp =>
      (h.2 r' hr').own e ((h'.2 r' hr').own e he hr hp) hr hp⟩⟩
  guar_inv _ _ _ _ h hg := hg.1 h
  guar_rely _ _ r' _ _ _ hne _ hg := hg.2 r' (Ne.symm hne)
  fresh_guar r _ r' s t hne hg hf e he hp hr :=
    hf e ((hg.2 r' (Ne.symm hne)).own e he hr hp) hp hr

instance (c : ClientSession) (trace : List Event) : Decidable (c.phoneIsCookies trace) :=
  inferInstanceAs (Decidable (∀ cookie ∈ c.verifySessionCookie, ∀ e ∈ trace,
    ∀ tel ∈ e.sentTo cookie, tel = c.verifyTelephone))

instance (r : Nat) (q : Request) (p : Point) (i : Input) (s : Mem) :
    Decidable (verifyProtocol.guard r q p i s) :=
  inferInstanceAs (Decidable (_ → ∀ a ∈ (s.conn p.ctx.conn).sessionInfo, (_ → _) ∧ ∀ tel ∈ _, _))

instance (q : Request) (s : Mem) : Decidable (verifyProtocol.permit q s) := .isTrue trivial

/-! ## Steps -/

/-- Steps outside the codes and the login events keep everything. -/
theorem VerifyInv.of_keeps {K : List Part} {r : Nat} {s t : Mem} (h : VerifyInv s)
    (hk : Keeps K r s t) (hc : .codes ∉ K) (he : .loginEvents ∉ K) : VerifyInv t := by
  obtain ⟨es, hes, hpart⟩ := hk.trace
  have hold : ∀ e ∈ t.trace, e.part = .loginEvents → e ∈ s.trace := by
    intro e h' hp
    rcases List.mem_append.mp (hes ▸ h') with h' | h'
    · exact absurd (hp ▸ (hpart e h').2) he
    · exact h'
  have hmono : ∀ e ∈ s.trace, e ∈ t.trace := fun e h' => hes ▸ List.mem_append_right _ h'
  refine ⟨fun r' cookie code a u h₁ h₂ => ?_, fun cookie code hcode => ?_⟩
  · obtain ⟨r'', hs⟩ := h.bound r' cookie code a u (hold _ h₁ rfl) (hold _ h₂ rfl)
    exact ⟨r'', hmono _ hs⟩
  · rw [hk.codes hc] at hcode
    obtain ⟨r'', tel, hs⟩ := h.sent cookie code hcode
    exact ⟨r'', tel, hmono _ hs⟩

theorem LoginExt.of_keeps {K : List Part} {r r' : Nat} {s t : Mem} (hk : Keeps K r s t)
    (h : r' ≠ r ∨ .loginEvents ∉ K) : LoginExt r' s t := by
  obtain ⟨es, hes, hpart⟩ := hk.trace
  refine ⟨fun e h' => hes ▸ List.mem_append_right _ h', fun e h' hr hp => ?_⟩
  rcases List.mem_append.mp (hes ▸ h') with h' | h'
  · obtain ⟨hreq, hK⟩ := hpart e h'
    rcases h with h | h
    · exact absurd (hr.symm.trans hreq) h
    · exact absurd (hp ▸ hK) h
  · exact h'

/-- The codes request `r` accepted were sent to `tel`. -/
def AcceptedFor (r : Nat) (tel : String) (s : Mem) : Prop :=
  ∀ cookie code, .codeAccepted r cookie code ∈ s.trace →
    ∃ r', .smsSent r' tel cookie code ∈ s.trace

theorem AcceptedFor.ext {r : Nat} {tel : String} {s t : Mem} (h : AcceptedFor r tel s)
    (hst : LoginExt r s t) : AcceptedFor r tel t := by
  intro cookie code hacc
  obtain ⟨r', hs⟩ := h cookie code (hst.own _ hacc rfl rfl)
  exact ⟨r', hst.mono _ hs⟩

theorem VerifyInv.identify {r a : Nat} {u : CmallUser} {s : Mem} (h : VerifyInv s)
    (hacc : AcceptedFor r u.activePhone s) :
    VerifyInv { s with trace := .identified r a u :: s.trace } := by
  refine ⟨fun r' cookie code b v h₁ h₂ => ?_, fun cookie code hc => ?_⟩
  · have h₁' : .codeAccepted r' cookie code ∈ s.trace := by simpa using h₁
    rcases List.mem_cons.mp h₂ with heq | h₂
    · cases heq
      obtain ⟨r'', hs⟩ := hacc cookie code h₁'
      exact ⟨r'', List.mem_cons_of_mem _ hs⟩
    · obtain ⟨r'', hs⟩ := h.bound r' cookie code b v h₁' h₂
      exact ⟨r'', List.mem_cons_of_mem _ hs⟩
  · obtain ⟨r', tel, hs⟩ := h.sent cookie code hc
    exact ⟨r', tel, List.mem_cons_of_mem _ hs⟩

theorem VerifyInv.accept {r : Nat} {cookie code : String} {s : Mem} (h : VerifyInv s)
    (hr : ∀ a u, .identified r a u ∉ s.trace) :
    VerifyInv { s with trace := .codeAccepted r cookie code :: s.trace } := by
  refine ⟨fun r' cookie' code' b v h₁ h₂ => ?_, fun cookie code hc => ?_⟩
  · have h₂' : .identified r' b v ∈ s.trace := by simpa using h₂
    rcases List.mem_cons.mp h₁ with heq | h₁
    · cases heq
      exact absurd h₂' (hr b v)
    · obtain ⟨r'', hs⟩ := h.bound r' cookie' code' b v h₁ h₂'
      exact ⟨r'', List.mem_cons_of_mem _ hs⟩
  · obtain ⟨r', tel, hs⟩ := h.sent cookie code hc
    exact ⟨r', tel, List.mem_cons_of_mem _ hs⟩

theorem VerifyInv.sms {r : Nat} {tel cookie code : String} {s : Mem} (h : VerifyInv s) :
    VerifyInv { s with trace := .smsSent r tel cookie code :: s.trace } := by
  refine ⟨fun r' cookie' code' b v h₁ h₂ => ?_, fun cookie' code' hc => ?_⟩
  · obtain ⟨r'', hs⟩ := h.bound r' cookie' code' b v (by simpa using h₁) (by simpa using h₂)
    exact ⟨r'', List.mem_cons_of_mem _ hs⟩
  · obtain ⟨r', tel', hs⟩ := h.sent cookie' code' hc
    exact ⟨r', tel', List.mem_cons_of_mem _ hs⟩

theorem VerifyInv.putCode {cookie code : String} {s : Mem} (h : VerifyInv s) {r : Nat}
    {tel : String} (hs : .smsSent r tel cookie code ∈ s.trace) :
    VerifyInv (s.putCode cookie code) := by
  unfold Mem.putCode
  split
  · exact h
  · refine ⟨h.bound, fun cookie' code' hc => ?_⟩
    rcases List.mem_append.mp hc with hc | hc
    · exact h.sent cookie' code' hc
    · cases List.mem_singleton.mp hc
      exact ⟨r, tel, hs⟩

/-! ## Handlers -/

section Handlers

variable {r : Nat} {q : Request} {ctx : Ctx} {cfg : Config} {α : Type} {L E : Mem → Prop}

/-- The parts a login touches without a word on codes. -/
def loginParts : List Part :=
  [.heap, .conn, .uuids, .accounts, .users, .sessions, .accountEvents, .otherEvents]

theorem triple_verify_of_each {x : M α} (hx : x.Each (Keeps loginParts r))
    (hL : ∀ s t, LoginExt r s t → L s → L t) (hE : ∀ s, L s → E s) :
    verifyProtocol.Triple r q L x (fun _ => L) E := by
  have hnot : .loginEvents ∉ loginParts := by simp [loginParts]
  refine .conseq (.each (G := Keeps loginParts r) hx (fun s t _ h => hL s t h) ?_) (fun _ _ h => h)
    (fun _ _ _ h => h) fun s _ h => hE s h
  intro s t _ hl hk
  refine ⟨⟨fun hi => hi.of_keeps hk (by simp [loginParts]) hnot, fun r' hr' => ?_⟩, ?_⟩
  · exact .of_keeps hk (.inl hr')
  · exact hL s t (.of_keeps hk (.inr hnot)) hl

/-- What a step that adds a login event of its own owes the others. -/
theorem loginExt_emit {s : Mem} {e : Event} (hr : e.req = r) (r' : Nat) (hne : r' ≠ r) :
    LoginExt r' s { s with trace := e :: s.trace } :=
  .of_keeps (hr ▸ keeps_emit (K := [e.part]) (by simp)) (.inl hne)

theorem triple_identify {a : Nat} {u : CmallUser} :
    verifyProtocol.Triple r q (AcceptedFor r u.activePhone) (emit (.identified r a u))
      (fun _ _ => True) (fun _ => True) :=
  .modify fun _ _ hacc => ⟨⟨fun hi => hi.identify hacc, loginExt_emit rfl⟩, trivial⟩

/-- The phone a login may continue with. -/
def LoginFor (r : Nat) (q : Request) (tel : String) (s : Mem) : Prop :=
  AcceptedFor r tel s ∧ (q.method ≠ some .userLogin → ∀ tel', AcceptedFor r tel' s)

theorem LoginFor.ext {tel : String} {s t : Mem} (hst : LoginExt r s t)
    (h : LoginFor r q tel s) : LoginFor r q tel t :=
  ⟨h.1.ext hst, fun hq tel' => (h.2 hq tel').ext hst⟩

theorem loadUserByPhone_verify (hr : ctx.req = r) (a : Nat) (tel : String) :
    verifyProtocol.Triple r q (LoginFor r q tel) (loadUserByPhone ctx a tel)
      (fun found s => LoginFor r q tel s ∧ (∀ u, found = some u → u.activePhone = tel) ∧
        (found = none → q.method = some .userLogin → ∀ b ∈ (s.conn ctx.conn).sessionInfo,
          (s.heap b).verifyTelephone = tel))
      (fun _ => True) := by
  have hstable : verifyProtocol.Stable r q (LoginFor r q tel) := fun s t _ h hl => hl.ext h
  refine triple_tx (fun (found : Option CmallUser) s =>
      (∀ u, found = some u → u.activePhone = tel) ∧ LoginFor r q tel s)
    hstable (fun found s t _ h hl => ⟨hl.1, hl.2.ext h⟩) (fun _ _ _ => trivial) ?_ ?_
  · intro i s _ hl _
    split
    · rename_i u hu
      refine ⟨verifyProtocol.guar_refl _ _ _, by simp, fun found hf => ?_⟩
      cases hf
      refine ⟨fun v hv => ?_, hl⟩
      cases hv
      simpa using (Table.queryOne_some hu).2
    · have hk : Keeps loginParts r s { s with trace := .userMissed ctx.req tel :: s.trace } :=
        hr ▸ keeps_emit (e := .userMissed ctx.req tel) (by simp [loginParts, Event.part])
      refine ⟨⟨fun hi => hi.of_keeps hk (by simp [loginParts]) (by simp [loginParts]),
        fun r' hr' => .of_keeps hk (.inl hr')⟩, by simp, fun found hf => ?_⟩
      cases hf
      exact ⟨by simp, hl.ext (.of_keeps hk (.inr (by simp [loginParts])))⟩
  · intro found i s _ hl hg
    refine ⟨hl.2, hl.1, fun hnone hq b hb => ?_⟩
    subst hnone
    exact (hg hq b hb).2 tel rfl

theorem addUser_verify (hr : ctx.req = r) (u : CmallUser) :
    verifyProtocol.Triple r q (AcceptedFor r u.activePhone) (addUser ctx u)
      (fun row s => AcceptedFor r row.activePhone s) (fun _ => True) := by
  refine triple_tx (fun (row : CmallUser) s => row.activePhone = u.activePhone ∧
      AcceptedFor r u.activePhone s)
    (fun s t _ h hl => hl.ext h) (fun row s t _ h hl => ⟨hl.1, hl.2.ext h⟩) (fun _ _ _ => trivial)
    ?_ fun row i s _ hl _ => hl.1 ▸ hl.2
  intro i s _ hl _
  have hk : Keeps loginParts r s { s with
      db := (s.db.persistUser u).2
      trace := .userAdded ctx.req u.activePhone :: s.trace } :=
    (keeps_db (Db.persistUser_keeps u (by simp [loginParts]) (by simp [loginParts]))).trans _ _ _
      (hr ▸ keeps_emit (e := .userAdded ctx.req u.activePhone) (by simp [loginParts, Event.part]))
  refine ⟨⟨fun hi => hi.of_keeps hk (by simp [loginParts]) (by simp [loginParts]),
    fun r' hr' => .of_keeps hk (.inl hr')⟩, by simp, fun row hrow => ?_⟩
  cases hrow
  exact ⟨rfl, hl.ext (.of_keeps hk (.inr (by simp [loginParts])))⟩

/-- What is left of a login once the user is identified. -/
theorem triple_verify_rest {x : M α} (hx : x.Each (Keeps loginParts r)) :
    verifyProtocol.Triple r q (fun _ => True) x (fun _ _ => True) (fun _ => True) :=
  triple_verify_of_each hx (fun _ _ _ _ => trivial) fun _ _ => trivial

/-- The phone of the new row is read from the session; the guard says which one
it is. -/
theorem loginNewUser_verify (hr : ctx.req = r) (tel : String) :
    verifyProtocol.Triple r q
      (fun s => LoginFor r q tel s ∧ (q.method = some .userLogin →
        ∀ b ∈ (s.conn ctx.conn).sessionInfo, (s.heap b).verifyTelephone = tel))
      (loginNewUser ctx) (fun _ _ => True) (fun _ => True) := by
  subst hr
  have hext : ∀ tel' s t, LoginExt ctx.req s t → AcceptedFor ctx.req tel' s →
      AcceptedFor ctx.req tel' t := fun _ s t h hl => hl.ext h
  simp only [loginNewUser]
  refine .bind (triple_thisSession fun _ _ _ => trivial) fun b => ?_
  refine .bind (triple_getSession b) fun c => ?_
  refine .conseq (L := AcceptedFor ctx.req c.verifyTelephone) ?_ ?_ (fun _ _ _ h => h)
    fun _ _ h => h
  · refine .bind (triple_verify_of_each localTime_each (hext _) fun _ _ => trivial) fun now => ?_
    have hadd := addUser_verify (q := q) (rfl : ctx.req = ctx.req)
      { activePhone := c.verifyTelephone, createdAt := now, updatedAt := now }
    refine .bind hadd fun row => ?_
    refine .bind (triple_verify_of_each thisSession_each (hext _) fun _ _ => trivial) fun b' => ?_
    refine .bind (triple_verify_of_each (by simp [loginParts]) (hext _) fun _ _ => trivial)
      fun _ => ?_
    refine .bind triple_identify fun _ => triple_verify_rest ?_
    exact Co.each_bind (became_each _ _ (by simp [loginParts])) fun _ => callCheckAdmin_each row
  · rintro s - ⟨rfl, hb, hl, hsame⟩
    by_cases hq : q.method = some .userLogin
    · rw [hsame hq b hb]
      exact hl.1
    · exact hl.2 hq _

theorem handleUserLogin_verify (hr : ctx.req = r) (a : Nat) (tel : String) :
    verifyProtocol.Triple r q (LoginFor r q tel) (handleUserLogin ctx a tel)
      (fun _ _ => True) (fun _ => True) := by
  subst hr
  simp only [handleUserLogin]
  refine .bind (loadUserByPhone_verify rfl a tel) fun found => ?_
  split
  · rename_i u
    have hL : verifyProtocol.Triple ctx.req q (fun s => AcceptedFor ctx.req u.activePhone s)
        (modifySession a fun c => { c with userInfo := some u })
        (fun _ s => AcceptedFor ctx.req u.activePhone s) (fun _ => True) :=
      triple_verify_of_each (by simp [loginParts]) (fun s t h hl => hl.ext h) fun _ _ => trivial
    refine .conseq (.bind hL fun _ => .bind triple_identify fun _ => ?_)
      (fun s _ h => h.2.1 u rfl ▸ h.1.1) (fun _ _ _ h => h) fun _ _ h => h
    repeat' first
      | with_reducible refine .bind (Q := fun _ _ => True) ?_ fun _ => ?_
      | (refine triple_verify_rest ?_; simp [loginParts]; done)
  · refine .bind (Q := fun _ _ => True) (.conseq (loginNewUser_verify rfl tel)
      (fun s _ h => ⟨h.1, h.2.2 rfl⟩) (fun _ _ _ h => h) fun _ _ h => h) fun _ => ?_
    repeat' first
      | with_reducible refine .bind (Q := fun _ _ => True) ?_ fun _ => ?_
      | (refine triple_verify_rest ?_; simp [loginParts]; done)

/-- Request `r` has no login event yet. -/
def NoLogin (r : Nat) (s : Mem) : Prop := ∀ e ∈ s.trace, e.part = .loginEvents → e.req ≠ r

theorem NoLogin.ext {s t : Mem} (hst : LoginExt r s t) (h : NoLogin r s) : NoLogin r t :=
  fun e he hp hr => h e (hst.own e he hr hp) hp hr

theorem NoLogin.loginFor {s : Mem} (h : NoLogin r s) (tel : String) : LoginFor r q tel s :=
  ⟨fun _ _ hacc => absurd rfl (h _ hacc rfl), fun _ _ _ _ hacc => absurd rfl (h _ hacc rfl)⟩

/-- The check of the code. The code kept for the cookie was sent to the phone in
the session, which is what the login goes on with. -/
theorem userLogin_verify (hr : ctx.req = r) (hq : q.method = some .userLogin) (a : Nat)
    (params : JsonObject) :
    verifyProtocol.Triple r q
      (fun s => NoLogin r s ∧ (s.heap a).phoneIsCookies s.trace) (userLogin ctx a params)
      (fun _ _ => True) (fun _ => True) := by
  simp only [userLogin]
  refine .bind (triple_getSession a) fun c => ?_
  split
  · rename_i cookie hcookie
    have hcheck : ∀ code, verifyProtocol.Triple r q
        (fun s => c = s.heap a ∧ NoLogin r s ∧ (s.heap a).phoneIsCookies s.trace)
        (verifyVerifyCode code cookie)
        (fun ok s => c = s.heap a ∧ NoLogin r s ∧
          (ok = true → ∃ r', .smsSent r' c.verifyTelephone cookie code ∈ s.trace))
        (fun _ => True) := by
      intro code
      refine .bind (Q := fun m s => m = s ∧ c = s.heap a ∧ NoLogin r s ∧
        (s.heap a).phoneIsCookies s.trace) (.get fun _ _ h => ⟨rfl, h⟩) fun m => .ret ?_
      rintro s hi ⟨rfl, rfl, hno, hphone⟩
      refine ⟨rfl, hno, fun hok => ?_⟩
      obtain ⟨e, he, hcode⟩ := Option.map_eq_some_iff.mp (of_decide_eq_true hok)
      have hkey : e.1 = cookie := by simpa using List.find?_some he
      obtain ⟨r', tel, hsent⟩ := hi.sent e.1 e.2 (List.mem_of_find?_eq_some he)
      have htel : tel = (m.heap a).verifyTelephone :=
        hphone cookie hcookie _ hsent tel (by simp [Event.sentTo, hkey])
      exact ⟨r', by rw [← htel, ← hkey, ← hcode]; exact hsent⟩
    refine .bind (hcheck _) fun ok => ?_
    split
    · rename_i hok
      refine .bind (Q := fun _ s => c = s.heap a ∧ AcceptedFor r c.verifyTelephone s)
        (.modify ?_) fun _ => .bind (triple_getSession a) fun c' => ?_
      · rintro s - ⟨rfl, hno, hsent⟩
        refine ⟨⟨fun hi => hi.accept fun b u h => ?_, loginExt_emit hr⟩, rfl, ?_⟩
        · exact hno _ h rfl hr
        · intro cookie' code' hacc
          rcases List.mem_cons.mp hacc with heq | hacc
          · cases heq
            obtain ⟨r', hs⟩ := hsent hok
            exact ⟨r', List.mem_cons_of_mem _ hs⟩
          · exact absurd rfl (hno _ hacc rfl)
      · refine .conseq (handleUserLogin_verify hr a c'.verifyTelephone) ?_ (fun _ _ _ h => h)
          fun _ _ h => h
        rintro s - ⟨hc', hc, hacc⟩
        exact ⟨hc'.trans hc.symm ▸ hacc, fun hne => absurd hq hne⟩
    · exact .throw fun _ _ _ => trivial
  · exact .throw fun _ _ _ => trivial

theorem userFastlogin_verify (hr : ctx.req = r) (a : Nat) :
    verifyProtocol.Triple r q (NoLogin r) (userFastlogin ctx a)
      (fun _ _ => True) (fun _ => True) := by
  have hext : ∀ s t, LoginExt r s t → NoLogin r s → NoLogin r t := fun s t h hl => hl.ext h
  simp only [userFastlogin]
  refine .bind (triple_verify_of_each external_each hext fun _ _ => trivial) fun tel => ?_
  split
  · exact .throw fun _ _ _ => trivial
  · refine .bind (triple_verify_of_each (by simp [loginParts]) hext fun _ _ => trivial) fun _ => ?_
    refine .bind (triple_verify_of_each (getSession_each a) hext fun _ _ => trivial) fun c => ?_
    exact .conseq (handleUserLogin_verify hr a _) (fun s _ h => h.loginFor _)
      (fun _ _ _ h => h) fun _ _ h => h

theorem sendVerifyCode_verify (hr : ctx.req = r) (tel : String) :
    verifyProtocol.Triple r q (fun _ => True) (sendVerifyCode ctx tel)
      (fun _ _ => True) (fun _ => True) := by
  subst hr
  simp only [sendVerifyCode]
  refine .bind (triple_verify_rest external_each) fun out => ?_
  refine .bind (triple_verify_rest (genUuid_each (by simp [loginParts]))) fun cookie => ?_
  refine .bind (Q := fun _ s => .smsSent ctx.req tel cookie
    (trimRightIf [' ', '\n', '\r'] out) ∈ s.trace) (.modify fun s _ _ => ?_) fun _ => ?_
  · exact ⟨⟨fun hi => hi.sms, loginExt_emit rfl⟩, List.mem_cons_self ..⟩
  · refine .bind (Q := fun _ _ => True) (.modify fun s _ hs => ?_) fun _ => .ret fun _ _ h => h
    refine ⟨⟨fun hi => hi.putCode hs, fun r' _ => ⟨fun e he => ?_, fun e he _ _ => ?_⟩⟩, trivial⟩
    · unfold Mem.putCode
      split <;> exact he
    · unfold Mem.putCode at he
      split at he <;> exact he

theorem recoverByApiToken_verify (hr : ctx.req = r) (apiToken : String) :
    verifyProtocol.Triple r q (NoLogin r) (recoverByApiToken ctx apiToken)
      (fun _ _ => True) (fun _ => True) := by
  subst hr
  have hext : ∀ s t, LoginExt ctx.req s t → NoLogin ctx.req s → NoLogin ctx.req t :=
    fun s t h hl => hl.ext h
  simp only [recoverByApiToken]
  refine .bind (triple_verify_of_each (apiTokenUid_each _) hext fun _ _ => trivial) fun uid => ?_
  refine .bind (triple_verify_of_each (asyncLoad_each _ _) hext fun _ _ => trivial) fun found => ?_
  split
  · exact .ret fun _ _ _ => trivial
  · rename_i u
    refine .bind (triple_verify_of_each (by simp [loginParts]) hext fun _ _ => trivial) fun c => ?_
    refine .bind (triple_verify_of_each (by simp [loginParts]) hext fun _ _ => trivial) fun _ => ?_
    refine .bind (triple_verify_of_each thisSession_each hext fun _ _ => trivial) fun b => ?_
    refine .bind (.conseq (triple_identify (u := u)) (fun s _ h => (h.loginFor (q := q) _).1)
      (fun _ _ _ h => h) fun _ _ h => h) fun _ => ?_
    repeat' first
      | with_reducible refine .bind (Q := fun _ _ => True) ?_ fun _ => ?_
      | (refine triple_verify_rest ?_; simp [loginParts]; done)

/-- The methods that send, check or use a code, or identify a user. -/
theorem handlerOf_verify {conn : Nat} {method : ReqMethod} {params : JsonObject}
    (hm : method = .recoverSession ∨ method = .userPrelogin ∨ method = .userLogin ∨
      method = .userFastlogin) :
    verifyProtocol.Triple r (.jsonrpc conn method params)
      (fun s => NoLogin r s ∧ (method = .userLogin → ∀ a ∈ (s.conn conn).sessionInfo,
        (s.heap a).phoneIsCookies s.trace))
      (handlerOf cfg ⟨conn, r⟩ method params) (fun _ _ => True) (fun _ => True) := by
  have hctx : (⟨conn, r⟩ : Ctx).req = r := rfl
  have hpure : ∀ s : Mem, (∀ L : Prop, NoLogin r s ∧ L → NoLogin r s) := fun _ _ h => h.1
  have hext : ∀ s t, LoginExt r s t → NoLogin r s → NoLogin r t := fun s t h hl => hl.ext h
  rcases hm with rfl | rfl | rfl | rfl
  · refine .conseq (L := NoLogin r) ?_ (fun s _ h => hpure s _ h) (fun _ _ _ h => h)
      fun _ _ h => h
    simp only [handlerOf, ReqMethod.api, recoverSession]
    refine .bind (triple_verify_of_each (by simp [loginParts]) hext fun _ _ => trivial) fun _ => ?_
    split
    · refine .conseq (triple_verify_rest ?_) (fun _ _ _ => trivial) (fun _ _ _ h => h)
        fun _ _ h => h
      simp only [recoverBySessionid]
      repeat' first
        | with_reducible refine Co.each_bind ?_ fun _ => ?_
        | simp [loginParts]; done
        | split
    · exact recoverByApiToken_verify hctx _
  · refine .conseq (L := fun _ => True) ?_ (fun _ _ _ => trivial) (fun _ _ _ h => h)
      fun _ _ h => h
    simp only [handlerOf, ReqMethod.api, handleJsonrpcUserApi, userPrelogin]
    repeat' first
      | with_reducible exact sendVerifyCode_verify hctx _
      | with_reducible refine .bind (Q := fun _ _ => True) ?_ fun _ => ?_
      | (refine triple_verify_rest ?_; simp [loginParts]; done)
      | split
  · simp only [handlerOf, ReqMethod.api, handleJsonrpcUserApi]
    refine .bind (triple_thisSession fun _ _ _ => trivial) fun a => ?_
    exact .conseq (userLogin_verify hctx rfl a params)
      (fun s _ h => ⟨h.2.1, h.2.2 trivial a h.1⟩) (fun _ _ _ h => h) fun _ _ h => h
  · refine .conseq (L := NoLogin r) ?_ (fun s _ h => hpure s _ h) (fun _ _ _ h => h)
      fun _ _ h => h
    simp only [handlerOf, ReqMethod.api, handleJsonrpcUserApi]
    exact .bind (triple_verify_of_each thisSession_each hext fun _ _ => trivial) fun a =>
      userFastlogin_verify hctx a

end Handlers

theorem ReqMethod.verify_of_footprint {method : ReqMethod}
    (h : .codes ∈ method.footprint ∨ .loginEvents ∈ method.footprint) :
    method = .recoverSession ∨ method = .userPrelogin ∨ method = .userLogin ∨
      method = .userFastlogin := by
  cases method <;> simp_all [ReqMethod.footprint]

/-- Every program keeps to the protocol. -/
theorem programs_verify (cfg : Config) : verifyProtocol.Programs (prog cfg) := by
  intro r q m _ hfresh _
  by_cases hq : .codes ∈ q.footprint ∨ .loginEvents ∈ q.footprint
  · cases q with
    | jsonrpc conn method params =>
      have hm := ReqMethod.verify_of_footprint (by simpa [Request.footprint] using hq)
      refine prog_suspended_of_handler (L := NoLogin r) (fun s t _ h hl => hl.ext h) hfresh ?_
        (fun _ _ _ => trivial) (handlerOf_verify hm) ?_
      · intro i s _ hno hg
        exact ⟨hno, fun hlogin a ha =>
          (hg (congrArg some hlogin) a ha).1 (congrArg (Spot.start ∘ some) hlogin)⟩
      · intro reply s _ _
        refine ⟨⟨fun hi => hi.of_keeps keeps_replied (by simp) (by simp), fun r' hr' => ?_⟩,
          trivial⟩
        exact .of_keeps keeps_replied (.inl hr')
    | purgeCode cookie =>
      -- a code that expires was sent all the same
      refine Triple.suspended (L := fun _ => True) stable_true trivial (fun _ _ _ _ _ => trivial)
        fun _ => .modify fun s _ _ => ⟨⟨fun hi => ⟨hi.bound, fun c code hc => ?_⟩, ?_⟩, trivial⟩
      · exact hi.sent c code (List.mem_of_mem_filter hc)
      · exact fun _ _ => ⟨fun _ h => h, fun _ h _ _ => h⟩
    | _ => simp [Request.footprint] at hq
  · rw [not_or] at hq
    refine prog_suspended_of_keeps (fun s t _ hk => ⟨fun hi => ?_, fun r' hr' => ?_⟩)
      fun _ => trivial
    · exact hi.of_keeps hk hq.1 hq.2
    · exact .of_keeps hk (.inl hr')

/-- In every run in which the phone of a session stays the one its code was sent
to until the login has used it, a login with a code makes the user of that phone
the user of the session. -/
theorem login_is_bound_to_verified_phone (cfg : Config) (m : Mem)
    (ls : List (Label Request Input)) (htrace : m.trace = []) (hcodes : m.codes = [])
    (hls : verifyProtocol.Admissible (prog cfg) (Sys.idle m) ls) :
    CodesBound ((Sys.idle m : Service).run (prog cfg) ls).mem.trace := by
  have hinv : VerifyInv m := by
    refine ⟨fun r cookie code a u h => ?_, fun cookie code h => ?_⟩
    · simp [htrace] at h
    · simp [hcodes] at h
  have hfresh : ∀ r, verifyProtocol.fresh r m := fun r e he => by simp [htrace] at he
  exact (run_good (programs_verify cfg) (good_idle hinv hfresh) hls).inv.bound

/-! ## Two phones in one session -/

/-- The parameters of a request that are all strings. -/
def stringParams (l : List (String × String)) : JsonObject :=
  l.map fun kv => (kv.1, .string kv.2)

/-- The session of connection 0 asks for a code for phone 100. -/
def prelogin100 : List (Label Request Input) :=
  [.spawn (.jsonrpc 0 .userPrelogin (stringParams [("telephone", "100")]))] ++ resumes 0 3 ++
    [.resume 0 { answer := some "1234" }] ++ resumes 0 2

/-- A login with the code that was sent. -/
def login1234 : Request := .jsonrpc 0 .userLogin (stringParams [("verify_code", "1234")])

/-- The account of phone 200. -/
def user200 : CmallUser := { uid := 7, activePhone := "200" }

/-- One after the other, prelogin and login end with the account of the phone. -/
theorem login_is_bound_to_verified_phone_in_sequence :
    CodesBound ((Sys.idle twoConnections : Service).run (prog bareConfig)
      (prelogin100 ++ [.spawn login1234] ++ resumes 1 7)).mem.trace :=
  login_is_bound_to_verified_phone bareConfig twoConnections _ rfl rfl (by decide)

/-- The same session as in `prelogin100` asks for a code for phone 200, but the SMS
cannot be sent; then it logs in with the code of phone 100. -/
def redirectedLogin : List (Label Request Input) :=
  prelogin100 ++ [.spawn (.jsonrpc 0 .userPrelogin (stringParams [("telephone", "200")]))] ++
    resumes 1 3 ++ [.resume 1 { answer := none }, .spawn login1234] ++ resumes 2 3

/-- The failed prelogin has left its phone behind: the code of phone 100 logs in
the account of phone 200. -/
theorem failed_prelogin_redirects_login :
    ¬ CodesBound ((Sys.idle { twoConnections with db.users := [user200] } : Service).run
      (prog bareConfig) redirectedLogin).mem.trace := by
  intro h
  obtain ⟨r, hs⟩ := h 2 (uuidOf 0 0) "1234" 0 user200 (by decide) (by decide)
  have hall : ∀ e ∈ ((Sys.idle { twoConnections with db.users := [user200] } : Service).run
      (prog bareConfig) redirectedLogin).mem.trace,
      ∀ tel ∈ e.sentTo (uuidOf 0 0), tel = "100" := by decide
  exact absurd (hall _ hs "200" rfl) (by decide)

end Cmall
