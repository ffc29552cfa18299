import Cmall.Coroutine.Views
import Cmall.Footprint.Triples
import Cmall.JsonText
import Cmall.Safety.CartAdditions
import Cmall.Safety.MerchantApproval

/-!
Notifications.

`send_notify_message` is told which connection to leave out and does not look at it. The
cart handlers name the user of the session they began on and put the session id into the
text as it is; `admin_approve_merchant` names the application instead of the applicant, and
its text is a raw string with the braces of a format string.
-/

namespace Cmall
open Coroutine JsonText

/-! ## What a notification should do -/

/-- The handlers that push a notification. -/
def ReqMethod.notifies : ReqMethod → Bool
  | .cartAdd | .cartMod | .cartDel | .adminApproveMerchant => true
  | _ => false

/-- The message is one JSON text, and it goes to the connections that are filed under `owner`,
but not to `exclude`. -/
structure RightFor (active : List (Nat × Nat)) (owner exclude : Nat) (conns : List Nat)
    (msg : String) : Prop where
  text : IsText msg
  all : ∀ c, (c, owner) ∈ active → c ≠ exclude → c ∈ conns
  only : ∀ c ∈ conns, (c, owner) ∈ active
  excluded : exclude ∉ conns

/-- The connections filed under `uid`. -/
def filedUnder (active : List (Nat × Nat)) (uid : Nat) : List Nat :=
  (active.filter fun e => e.2 = uid).map Prod.fst

def cartChanged (sessionId : String) : String :=
  "\x7b\"topic\":\"cart_changed\", \"session_id\": \"" ++ sessionId ++ "\"\x7d"

def statusUpdated : String := "\x7b\x7b\"topic\":\"status_updated\"\x7d\x7d"

/-- `exclude` is not filed under `uid`, and the others are filed under `uid` just when they
are filed under `owner`. -/
def FiledAlike (active : List (Nat × Nat)) (uid owner exclude : Nat) : Prop :=
  (exclude, uid) ∉ active ∧ ∀ c, c ≠ exclude → ((c, owner) ∈ active ↔ (c, uid) ∈ active)

theorem mem_filedUnder {active : List (Nat × Nat)} {uid c : Nat} :
    c ∈ filedUnder active uid ↔ (c, uid) ∈ active := by
  simp [filedUnder]

/-- The connections of one user are right for another when they are the same but for the
excluded one, and that one is not there. -/
theorem rightFor_filedUnder_iff {active : List (Nat × Nat)} {uid owner exclude : Nat} {msg : String} :
    RightFor active owner exclude (filedUnder active uid) msg ↔
      IsText msg ∧ FiledAlike active uid owner exclude := by
  constructor
  · intro h
    refine ⟨h.text, fun hmem => h.excluded (mem_filedUnder.mpr hmem), fun c hc => ⟨fun hmem => ?_,
      fun hmem => h.only c (mem_filedUnder.mpr hmem)⟩⟩
    exact mem_filedUnder.mp (h.all c hmem hc)
  · rintro ⟨htext, hnot, hsame⟩
    refine ⟨htext, fun c hmem hc => mem_filedUnder.mpr ((hsame c hc).mp hmem), fun c hmem => ?_,
      fun hmem => hnot (mem_filedUnder.mp hmem)⟩
    have hfiled := mem_filedUnder.mp hmem
    refine (hsame c ?_).mpr hfiled
    rintro rfl
    exact hnot hfiled

/-- Nothing is left to ask when the user is the owner. -/
theorem filedAlike_self {active : List (Nat × Nat)} {uid exclude : Nat} :
    FiledAlike active uid uid exclude ↔ (exclude, uid) ∉ active := by
  simp [FiledAlike]

theorem isText_cartChanged {sessionId : String} (h : Plain sessionId.toList) :
    IsText (cartChanged sessionId) := by
  have hplain : Plain "topic".toList ∧ Plain "cart_changed".toList ∧ Plain "session_id".toList := by
    refine ⟨plain_of_all ?_, plain_of_all ?_, plain_of_all ?_⟩ <;> decide
  obtain ⟨htopic, hchanged, hid⟩ := hplain
  have hfirst := member_of_plain blank_nil htopic (l := []) blank_nil hchanged rfl
  have hsecond := member_of_plain (b := [' ']) (by unfold Blank; simp) hid (l := [' '])
    (by unfold Blank; simp) h rfl
  have hobject := Element.mk blank_nil (.object (.more hfirst (.one hsecond))) blank_nil
  unfold IsText cartChanged
  simpa [String.toList_append] using hobject

theorem not_isText_statusUpdated : ¬ IsText statusUpdated :=
  not_element_of_braces _

/-! ## Segments -/

abbrev Views := List (Input × Mem)

/-- The handler began when the session of the connection was `a`. -/
def Began (conn a : Nat) (h : Views) : Prop :=
  ∃ i m, h.getLast? = some (i, m) ∧ (m.conn conn).sessionInfo = some a

/-- What is pushed for a request on `conn` in a segment that begins in `s`. -/
def Pushed (conn : Nat) (method : ReqMethod) (h : Views) (s : Mem) (conns : List Nat)
    (msg : String) : Prop :=
  if method = .adminApproveMerchant then msg = statusUpdated
  else ∃ a u b, Began conn a h ∧ (s.heap a).userInfo = some u ∧
    (s.conn conn).sessionInfo = some b ∧ conns = filedUnder s.activeUsers u.uid ∧
    msg = cartChanged (s.heap b).sessionId

/-- The segment has added `es` to the trace and pushed what it should push. -/
def PushedWell (r conn : Nat) (method : ReqMethod) (h : Views) (t : Mem) : Prop :=
  ∃ i s h' es, h = (i, s) :: h' ∧ t.trace = es ++ s.trace ∧
    ∀ conns msg, .notified r conns msg ∈ es → Pushed conn method h s conns msg

/-- Nothing has been pushed since the last resumption. -/
def PushedNothing (r : Nat) (h : Views) (t : Mem) : Prop :=
  ∃ i s h' es, h = (i, s) :: h' ∧ t.trace = es ++ s.trace ∧
    ∀ conns msg, .notified r conns msg ∉ es

/-- Nothing has been done since the last resumption. -/
def Shown (h : Views) (s : Mem) : Prop := ∃ i h', h = (i, s) :: h'

section Segments

variable {r conn a : Nat} {method : ReqMethod} {h : Views} {s t : Mem} {i : Input}

theorem Began.cons (hb : Began conn a h) (i : Input) (s : Mem) : Began conn a ((i, s) :: h) := by
  obtain ⟨j, m, hlast, hconn⟩ := hb
  refine ⟨j, m, ?_, hconn⟩
  cases h with
  | nil => cases hlast
  | cons v h => rw [List.getLast?_cons_cons, hlast]

theorem Shown.nothing (hs : Shown h s) : PushedNothing r h s := by
  obtain ⟨i, h', rfl⟩ := hs
  exact ⟨i, s, h', [], rfl, rfl, by simp⟩

theorem PushedNothing.well (hs : PushedNothing r h t) : PushedWell r conn method h t := by
  obtain ⟨i, s, h', es, hh, htrace, hno⟩ := hs
  exact ⟨i, s, h', es, hh, htrace, fun conns msg hmem => absurd hmem (hno conns msg)⟩

theorem shown_cons (i : Input) (s : Mem) (h : Views) : Shown ((i, s) :: h) s := ⟨i, h, rfl⟩

theorem Shown.well (hs : Shown h s) : PushedWell r conn method h s := hs.nothing.well

end Segments

/-! ## The operations of the cart handlers -/

section Cart

variable {r conn a : Nat} {method : ReqMethod} {h : Views} {s : Mem} {ctx : Ctx} {α : Type}
  {G : Views → Mem → Prop}

theorem along_thisSession {Q : Nat → Views → Mem → Prop} (hG : G h s)
    (hQ : ∀ b, (s.conn ctx.conn).sessionInfo = some b → Q b h s) :
    (thisSession ctx).Along G Q h s := by
  unfold thisSession
  rw [Co.along_bind, Co.along_get]
  split
  · rename_i b hb
    exact hQ b hb
  · exact hG

theorem along_thisUser {Q : CmallUser → Views → Mem → Prop} (hG : G h s)
    (hQ : ∀ u, (s.heap a).userInfo = some u → Q u h s) : (thisUser a).Along G Q h s := by
  unfold thisUser getSession
  simp only [Co.along_bind, Co.along_get, Co.pure_eq, Co.along_ret]
  split
  · rename_i u hu
    exact hQ u hu
  · exact hG

theorem along_liftExcept {x : Except Exn α} {Q : α → Views → Mem → Prop} (hG : G h s)
    (hQ : ∀ b, Q b h s) : (liftExcept x).Along G Q h s := by
  cases x with
  | ok b => exact hQ b
  | error e => exact hG

theorem along_ensureLogin {checkAdmin checkMerchant : Bool} {Q : Unit → Views → Mem → Prop}
    (hG : G h s) (hQ : Q () h s) : (ensureLogin ctx checkAdmin checkMerchant).Along G Q h s := by
  unfold ensureLogin
  rw [Co.along_bind]
  refine along_thisSession hG fun b _ => ?_
  unfold getSession
  simp only [Co.along_bind, Co.along_get, Co.pure_eq, Co.along_ret]
  split
  · exact hG
  · split
    · exact hG
    · split
      · exact hG
      · exact hQ

/-- A transaction that pushes nothing; the handler continues where it has done nothing yet. -/
theorem along_tx {spot : Spot} {f : Input → Mem → Option α × Mem} {after : α → Spot}
    {Q : α → Views → Mem → Prop} (hs : Shown h s)
    (hf : ∀ i t, ∃ es, (f i t).2.trace = es ++ t.trace ∧ ∀ conns msg, .notified r conns msg ∉ es)
    (hQ : ∀ b i j t t', Q b ((j, t') :: (i, t) :: h) t') :
    (tx ctx spot f after).Along (PushedWell r conn method) Q h s := by
  have hback : ∀ h' t, PushedWell r conn method h' t →
      (do let _ ← Co.suspend ⟨ctx, .back⟩; Co.throw (.system .internalServerError) : M α).Along
        (PushedWell r conn method) Q h' t := by
    intro h' t hw
    rw [Co.along_bind, Co.along_suspend]
    exact ⟨hw, fun i t' => (shown_cons i t' h').well⟩
  unfold tx
  rw [Co.along_bind, Co.along_suspend]
  refine ⟨hs.well, fun i t => ?_⟩
  split
  · obtain ⟨es, htrace, hno⟩ := hf i t
    have hw : PushedWell r conn method ((i, t) :: h) (f i t).2 :=
      PushedNothing.well ⟨i, t, h, es, rfl, htrace, hno⟩
    rw [Co.along_bind]
    cases hb : (f i t).1 with
    | none =>
      simp only [Co.modifyGet, Co.Along, hb]
      exact hback _ _ hw
    | some b =>
      simp only [Co.modifyGet, Co.Along, hb, Co.along_bind, Co.along_suspend]
      exact ⟨hw, fun j t' => hQ b i j t t'⟩
  · exact hback _ _ (shown_cons i t h).well

theorem along_asyncLoad {f : Db → α} {Q : α → Views → Mem → Prop} (hs : Shown h s)
    (hQ : ∀ b i j t t', Q b ((j, t') :: (i, t) :: h) t') :
    (asyncLoad ctx f).Along (PushedWell r conn method) Q h s :=
  along_tx hs (fun _ _ => ⟨[], rfl, by simp⟩) hQ

theorem along_asyncWrite {f : Mem → Option (α × Db)} {Q : α → Views → Mem → Prop} (hs : Shown h s)
    (hQ : ∀ b i j t t', Q b ((j, t') :: (i, t) :: h) t') :
    (asyncWrite ctx f).Along (PushedWell r conn method) Q h s := by
  refine along_tx hs (fun i t => ⟨[], ?_, by simp⟩) hQ
  cases f t <;> rfl

theorem along_storeCart {found : Option CmallCart} {item : CmallCart}
    {Q : Unit → Views → Mem → Prop} (hs : Shown h s)
    (hQ : ∀ b i j t t', Q b ((j, t') :: (i, t) :: h) t') :
    (storeCart ctx found item).Along (PushedWell r conn method) Q h s := by
  refine along_tx hs (fun i t => ?_) hQ
  split
  · exact ⟨[.cartStored ctx.req item], rfl, by simp⟩
  · exact ⟨[], rfl, by simp⟩

/-- The one place where a cart handler pushes: the session's user and the session id are read
in the segment that pushes. -/
theorem along_notifyCartChanged (hmethod : method ≠ .adminApproveMerchant) (hs : Shown h s)
    (hb : Began conn a h) :
    (notifyCartChanged ⟨conn, r⟩ a).Along (PushedWell r conn method) (fun _ h s => Shown h s) h s := by
  unfold notifyCartChanged
  rw [Co.along_bind]
  refine along_thisUser hs.well fun u hu => ?_
  simp only [Co.along_bind]
  refine along_thisSession hs.well fun b hconn => ?_
  unfold getSession sendNotifyMessage emit
  simp only [Co.along_bind, Co.along_get, Co.pure_eq, Co.along_ret, Co.along_modify, Co.along_suspend]
  refine ⟨?_, fun i t => shown_cons i t h⟩
  obtain ⟨i, h', rfl⟩ := hs
  refine ⟨i, s, h', [_], rfl, rfl, fun conns msg hmem => ?_⟩
  rw [List.mem_singleton] at hmem
  cases hmem
  rw [Pushed, if_neg hmethod]
  exact ⟨a, u, b, hb, hu, hconn, rfl, rfl⟩

/-- What a cart handler is asked to keep up. -/
abbrev CartAlong (r conn : Nat) (method : ReqMethod) (a : Nat) (x : M Reply) : Prop :=
  ∀ h s, Shown h s → Began conn a h →
    x.Along (PushedWell r conn method) (fun _ h s => Shown h s) h s

theorem along_notify_return (hmethod : method ≠ .adminApproveMerchant) :
    CartAlong r conn method a (do notifyCartChanged ⟨conn, r⟩ a; return .bool true) := by
  intro h s hs hb
  rw [Co.along_bind]
  exact (along_notifyCartChanged hmethod hs hb).mono fun _ _ _ hs => hs

theorem along_storeCart_notify (hmethod : method ≠ .adminApproveMerchant)
    (found : Option CmallCart) (item : CmallCart) :
    CartAlong r conn method a (do
      storeCart ⟨conn, r⟩ found item
      notifyCartChanged ⟨conn, r⟩ a
      return .bool true) := by
  intro h s hs hb
  rw [Co.along_bind]
  refine along_storeCart hs fun _ i j t t' => ?_
  exact along_notify_return hmethod _ _ (shown_cons _ _ _) ((hb.cons i t).cons j t')

theorem along_cartAdd (hmethod : method ≠ .adminApproveMerchant) (params : JsonObject) :
    CartAlong r conn method a (cartAdd ⟨conn, r⟩ a params) := by
  intro h s hs hb
  unfold cartAdd
  rw [Co.along_bind]
  refine along_liftExcept hs.well fun merchantId => ?_
  have hto : ∀ merchantId goodsId selection,
      CartAlong r conn method a (cartAddTo ⟨conn, r⟩ a merchantId goodsId selection) := by
    intro merchantId goodsId selection h s hs hb
    unfold cartAddTo
    rw [Co.along_bind]
    refine along_thisUser hs.well fun u _ => ?_
    rw [Co.along_bind]
    refine along_asyncLoad hs fun found i j t t' => ?_
    have hb' := (hb.cons i t).cons j t'
    split
    · exact along_storeCart_notify hmethod _ _ _ _ (shown_cons _ _ _) hb'
    · rw [Co.along_bind]
      refine along_thisUser (shown_cons _ _ _).well fun v _ => ?_
      unfold localTime
      rw [Co.along_bind, Co.along_bind, Co.along_get, Co.pure_eq, Co.along_ret]
      exact along_storeCart_notify hmethod _ _ _ _ (shown_cons _ _ _) hb'
  have hselection : ∀ selections, CartAlong r conn method a (do
      let selection ← liftExcept (selectionString selections)
      cartAddTo ⟨conn, r⟩ a merchantId.toNat (Json.getString params "goods_id") selection) := by
    intro selections h s hs hb
    rw [Co.along_bind]
    exact along_liftExcept hs.well fun selection => hto _ _ _ h s hs hb
  dsimp only
  split_ifs with hbad
  · exact hs.well
  split
  · rw [Co.along_bind]
    exact along_liftExcept hs.well fun selections => hselection selections h s hs hb
  · exact hselection [] h s hs hb

/-- The check of `cart_mod` and `cart_del` pushes nothing. -/
theorem along_cartOwned {itemId : Nat} {Q : Unit → Views → Mem → Prop} (hs : Shown h s)
    (hQ : ∀ i j t t', Q () ((j, t') :: (i, t) :: h) t') :
    (cartOwned ctx a itemId).Along (PushedWell r conn method) Q h s := by
  unfold cartOwned
  rw [Co.along_bind]
  refine along_asyncLoad hs fun found i j t t' => ?_
  split
  · exact (shown_cons _ _ _).well
  · rw [Co.along_bind]
    refine along_thisUser (shown_cons _ _ _).well fun u _ => ?_
    split
    · exact (shown_cons _ _ _).well
    · exact hQ i j t t'

/-- `cart_mod` and `cart_del` change the row they have checked. -/
theorem along_changeOwned (hmethod : method ≠ .adminApproveMerchant) (itemId : Nat)
    (f : Mem → Option (Unit × Db)) :
    CartAlong r conn method a (do
      cartOwned ⟨conn, r⟩ a itemId
      asyncWrite ⟨conn, r⟩ f
      notifyCartChanged ⟨conn, r⟩ a
      return .bool true) := by
  intro h s hs hb
  rw [Co.along_bind]
  refine along_cartOwned hs fun i j t t' => ?_
  rw [Co.along_bind]
  refine along_asyncWrite (shown_cons _ _ _) fun _ i₂ j₂ t₂ t₂' => ?_
  exact along_notify_return hmethod _ _ (shown_cons _ _ _)
    ((((hb.cons i t).cons j t').cons i₂ t₂).cons j₂ t₂')

theorem along_cartMod (hmethod : method ≠ .adminApproveMerchant) (params : JsonObject) :
    CartAlong r conn method a (cartMod ⟨conn, r⟩ a params) := by
  intro h s hs hb
  unfold cartMod
  rw [Co.along_bind]
  refine along_liftExcept hs.well fun itemId => ?_
  rw [Co.along_bind]
  refine along_liftExcept hs.well fun count => ?_
  dsimp only
  split
  · exact hs.well
  exact along_changeOwned hmethod _ _ h s hs hb

theorem along_cartDel (hmethod : method ≠ .adminApproveMerchant) (params : JsonObject) :
    CartAlong r conn method a (cartDel ⟨conn, r⟩ a params) := by
  intro h s hs hb
  unfold cartDel
  rw [Co.along_bind]
  refine along_liftExcept hs.well fun itemId => ?_
  dsimp only
  split
  · exact hs.well
  exact along_changeOwned hmethod _ _ h s hs hb

end Cart

/-! ## The approval -/

section Approval

variable {r conn a : Nat} {h : Views} {s t : Mem} {ctx : Ctx}

/-- An access that pushes nothing. -/
def Unpushed (r : Nat) (s t : Mem) : Prop :=
  ∃ es, t.trace = es ++ s.trace ∧ ∀ conns msg, .notified r conns msg ∉ es

theorem unpushed_of_keeps {K : List Part} {r' : Nat} (hk : Keeps K r' s t)
    (hK : .otherEvents ∉ K) : Unpushed r s t := by
  obtain ⟨es, htrace, hes⟩ := hk.trace
  exact ⟨es, htrace, fun conns msg hmem => hK (hes _ hmem).2⟩

theorem PushedNothing.access (hs : PushedNothing r h s) (hst : Unpushed r s t) :
    PushedNothing r h t := by
  obtain ⟨i, s₀, h', es, hh, htrace, hno⟩ := hs
  obtain ⟨es', htrace', hno'⟩ := hst
  refine ⟨i, s₀, h', es' ++ es, hh, by rw [htrace', htrace, List.append_assoc], ?_⟩
  intro conns msg hmem
  exact (List.mem_append.mp hmem).elim (hno' conns msg) (hno conns msg)

/-- What pushes nothing at all. -/
theorem along_unpushed {α : Type} {method : ReqMethod} {x : M α} (hx : x.Each (Unpushed r))
    (hs : PushedNothing r h s) :
    x.Along (PushedWell r conn method) (fun _ h s => PushedNothing r h s) h s :=
  hx.along (fun _ _ _ hst hs => hs.access hst) (fun _ _ hs => hs.well)
    (fun i t h _ _ => (shown_cons i t h).nothing) hs

theorem giteaCreate_unpushed {created : Event} (hc : ∀ conns msg, created ≠ .notified r conns msg) :
    (giteaCreate ctx created).Each (Unpushed r) := by
  have hexternal : (external ctx).Each (Unpushed r) :=
    (external_each (K := []) (r := r)).mono fun _ _ hk => unpushed_of_keeps hk (by simp)
  refine Co.each_bind hexternal fun status => ?_
  split
  · refine Co.each_bind (Co.each_modify fun s => ⟨[created], rfl, ?_⟩) fun _ => trivial
    intro conns msg hmem
    exact hc conns msg (List.mem_singleton.mp hmem).symm
  · trivial

theorem initUser_unpushed (uid : Nat) : (initUser ctx uid).Each (Unpushed r) := by
  refine Co.each_bind (giteaCreate_unpushed (by simp)) fun ok => ?_
  split
  · exact giteaCreate_unpushed (by simp)
  · trivial

theorem along_adminApproveMerchant (params : JsonObject) (hs : PushedNothing r h s) :
    (adminApproveMerchant ⟨conn, r⟩ params).Along (PushedWell r conn .adminApproveMerchant)
      (fun _ h s => PushedNothing r h s) h s := by
  have htransaction : ∀ applyId, (approveTransaction ⟨conn, r⟩ applyId).Each (Unpushed r) :=
    fun applyId => (approveTransaction_each (K := [.uuids, .applys, .merchants]) (r := r) applyId
      (by simp) (by simp) (by simp)).mono fun _ _ hk => unpushed_of_keeps hk (by simp)
  have hgit : ∀ uid, (loadMerchantGit ⟨conn, r⟩ uid).Each (Unpushed r) := fun uid =>
    (loadMerchantGit_each (K := [.repos]) (r := r) uid (by simp)).mono
      fun _ _ hk => unpushed_of_keeps hk (by simp)
  unfold adminApproveMerchant
  rw [Co.along_bind]
  refine along_liftExcept hs.well fun applyId => ?_
  dsimp only
  split
  · exact hs.well
  rw [Co.along_bind]
  refine (along_unpushed (htransaction _) hs).mono fun found h s hs => ?_
  split
  · exact hs
  unfold initMerchant
  rw [Co.along_bind]
  refine (along_unpushed (initUser_unpushed _) hs).mono fun _ h s hs => ?_
  rw [Co.along_bind]
  refine (along_unpushed (hgit _) hs).mono fun _ h s hs => ?_
  unfold sendNotifyMessage emit
  simp only [Co.along_bind, Co.along_get, Co.pure_eq, Co.along_ret, Co.along_modify, Co.along_suspend]
  refine ⟨?_, fun i t => (shown_cons i t h).nothing⟩
  obtain ⟨i, s₀, h', es, hh, htrace, hno⟩ := hs
  refine ⟨i, s₀, h', _ :: es, hh, by rw [htrace]; rfl, fun conns msg hmem => ?_⟩
  rcases List.mem_cons.mp hmem with heq | hmem
  · cases heq
    exact (if_pos rfl).mpr rfl
  · exact absurd hmem (hno conns msg)

end Approval

/-! ## Runs -/

section Runs

variable {r conn : Nat} {method : ReqMethod} {h : Views} {s : Mem} {cfg : Config}

/-- Every segment of a request that pushes ends well. -/
def pushesWell (r : Nat) (q : Request) (h : Views) (s : Mem) : Prop :=
  ∀ conn method params, q = .jsonrpc conn method params → method.notifies = true →
    PushedWell r conn method h s

theorem ReqMethod.notifies_cases (hm : method.notifies = true) :
    method = .cartAdd ∨ method = .cartMod ∨ method = .cartDel ∨ method = .adminApproveMerchant := by
  cases method <;> simp_all [ReqMethod.notifies]

/-- The whole call, from its first segment on. -/
theorem along_handleJsonrpcCall (hm : method.notifies = true) (params : JsonObject) (i : Input) :
    (handleJsonrpcCall cfg ⟨conn, r⟩ method params).Along (PushedWell r conn method)
      (fun _ h s => PushedNothing r h s) [(i, s)] s := by
  have hs : Shown [(i, s)] s := shown_cons i s []
  have hcart : ∀ (handler : Nat → M Reply), (∀ a, CartAlong r conn method a (handler a)) →
      (do let a ← thisSession ⟨conn, r⟩; handler a).Along (PushedWell r conn method)
        (fun _ h s => PushedNothing r h s) [(i, s)] s := by
    intro handler hhandler
    rw [Co.along_bind]
    refine along_thisSession hs.well fun a ha => ?_
    exact (hhandler a _ _ hs ⟨i, s, rfl, ha⟩).mono fun _ _ _ hs => hs.nothing
  unfold handleJsonrpcCall
  rw [Co.along_bind, Co.along_get]
  split
  · exact hs.well
  rcases ReqMethod.notifies_cases hm with rfl | rfl | rfl | rfl
  · rw [ReqMethod.api, Co.along_bind]
    exact along_ensureLogin hs.well (hcart _ fun a => along_cartAdd (by simp) params)
  · rw [ReqMethod.api, Co.along_bind]
    exact along_ensureLogin hs.well (hcart _ fun a => along_cartMod (by simp) params)
  · rw [ReqMethod.api, Co.along_bind]
    exact along_ensureLogin hs.well (hcart _ fun a => along_cartDel (by simp) params)
  · rw [ReqMethod.api, Co.along_bind]
    refine along_ensureLogin hs.well ?_
    unfold handleJsonrpcAdminApi
    rw [Co.along_bind]
    exact along_thisSession hs.well fun a _ => along_adminApproveMerchant params hs.nothing

theorem prog_awaits (cfg : Config) (r : Nat) (q : Request) :
    (prog cfg r q).Awaits (pushesWell r q) [] := by
  intro i t
  by_cases hq : ∃ conn method params, q = .jsonrpc conn method params ∧ method.notifies = true
  · obtain ⟨conn, method, params, rfl, hm⟩ := hq
    have hcall : (handleJsonrpcCall cfg ⟨conn, r⟩ method params).Along (PushedWell r conn method)
        (fun _ h s => PushedNothing r h s) [(i, t)] t := along_handleJsonrpcCall hm params i
    have hgoal : (serve cfg ⟨conn, r⟩ (.jsonrpc conn method params)).Along (PushedWell r conn method)
        (fun _ => PushedWell r conn method) [(i, t)] t := by
      unfold serve emit
      rw [Co.along_bind]
      refine hcall.mono fun reply h s hs => ?_
      rw [Co.along_modify]
      exact (hs.access ⟨[.replied r reply], rfl, by simp⟩).well
    have hsame : pushesWell r (.jsonrpc conn method params) = PushedWell r conn method := by
      funext h s
      refine propext ⟨fun hall => hall conn method params rfl hm, fun hw conn' method' params' hreq _ => ?_⟩
      cases hreq
      exact hw
    rw [hsame]
    exact hgoal
  · have hall : pushesWell r q = fun _ _ => True := by
      funext h s
      refine eq_true fun conn method params hreq hm => ?_
      exact absurd ⟨conn, method, params, hreq, hm⟩ hq
    rw [hall]
    exact (Co.each_any _).along (A := fun _ _ => True) (fun _ _ _ _ _ => trivial) (fun _ _ _ => trivial)
      (fun _ _ _ _ _ => trivial) trivial

/-- A cart handler, in a segment that begins in `s`: the session id can stand in the text, and
the user of the session object it began on has the connections of `owner`. -/
def NotifiesRight (conn : Nat) (method : ReqMethod) (h : Views) (s : Mem) (owner : Nat) : Prop :=
  method ≠ .adminApproveMerchant ∧ ∃ a u b, Began conn a h ∧ (s.heap a).userInfo = some u ∧
    (s.conn conn).sessionInfo = some b ∧ IsText (cartChanged (s.heap b).sessionId) ∧
    FiledAlike s.activeUsers u.uid owner conn

theorem Began.unique {a a' : Nat} (hb : Began conn a h) (hb' : Began conn a' h) : a = a' := by
  obtain ⟨i, m, hlast, hconn⟩ := hb
  obtain ⟨i', m', hlast', hconn'⟩ := hb'
  rw [hlast] at hlast'
  cases hlast'
  exact Option.some.inj (hconn.symm.trans hconn')

/-- What is pushed is right under the condition only. -/
theorem Pushed.right_iff {conns : List Nat} {msg : String} (hpushed : Pushed conn method h s conns msg)
    (owner : Nat) : RightFor s.activeUsers owner conn conns msg ↔ NotifiesRight conn method h s owner := by
  unfold Pushed at hpushed
  split at hpushed
  · rename_i hmethod
    constructor
    · intro hright
      exact absurd (hpushed ▸ hright.text) not_isText_statusUpdated
    · intro hright
      exact absurd hmethod hright.1
  · rename_i hmethod
    obtain ⟨a, u, b, hbegan, hu, hb, rfl, rfl⟩ := hpushed
    rw [rightFor_filedUnder_iff]
    constructor
    · rintro ⟨htext, halike⟩
      exact ⟨hmethod, a, u, b, hbegan, hu, hb, htext, halike⟩
    · rintro ⟨-, a', u', b', hbegan', hu', hb', htext, halike⟩
      obtain rfl := hbegan.unique hbegan'
      rw [hu] at hu'
      rw [hb] at hb'
      cases hu'
      cases hb'
      exact ⟨htext, halike⟩

end Runs

/-- User 1 has a page open on connection 9 and changes the cart on a connection that is not
indexed. -/
def onePage : Mem :=
  { userOne with heap := fun _ => { sessionId := "s", userInfo := some { uid := 1 } },
                 activeUsers := [(9, 1)] }

end Cmall
