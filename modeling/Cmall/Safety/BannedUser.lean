import Cmall.Safety.RoleCoherence

/-!
Banned users.

`admin_user_ban` marks the row of the user, and only `user_prelogin` looks at the mark.
A prelogin that starts after the ban does not take the phone of the user up. A login, a
stored session and an api token are not asked: they keep the user out only as long as
nobody comes with the phone, a stored session or a token of that user.
-/

namespace Cmall
open Coroutine Protocol

/-! ## The ban -/

/-- The account of the phone `tel` is `uid`, and it is banned. -/
def Db.Bans (db : Db) (uid : Nat) (tel : String) : Prop :=
  ∃ u ∈ db.userByPhone tel, u.uid = uid ∧ u.state = .banned

instance (db : Db) (uid : Nat) (tel : String) : Decidable (db.Bans uid tel) :=
  inferInstanceAs (Decidable (∃ u ∈ db.userByPhone tel, u.uid = uid ∧ u.state = .banned))

/-- The uids have come from the sequence. -/
def Db.UidsOk (db : Db) : Prop := ∀ u ∈ db.users, u.uid ≤ db.seq.user

instance (db : Db) : Decidable db.UidsOk :=
  inferInstanceAs (Decidable (∀ u ∈ db.users, u.uid ≤ db.seq.user))

/-- What no request undoes. -/
structure BanKept (uid : Nat) (tel : String) (s t : Mem) : Prop where
  uids : s.db.UidsOk → t.db.UidsOk
  bans : s.db.Bans uid tel → t.db.Bans uid tel

/-! ## The condition -/

/-- The ways into a session, with the prelogin. -/
def Request.isEntry : Request → Bool
  | .jsonrpc _ .userPrelogin _ | .jsonrpc _ .userLogin _ | .jsonrpc _ .userFastlogin _
  | .jsonrpc _ .recoverSession _ | .connect .. => true
  | _ => false

def Request.isRecovery : Request → Bool
  | .jsonrpc _ .recoverSession _ | .connect .. => true
  | _ => false

/-- The stored sessions a recovery asks for. -/
def Request.sessionids : Request → List String
  | .jsonrpc _ .recoverSession params => [Json.getString params "sessionid"]
  | .connect _ _ cookies _ => cookies
  | _ => []

def Request.apiToken : Request → Option String
  | .jsonrpc _ .recoverSession params => some (Json.getString params "api-token")
  | _ => none

/-- The user a login has found. -/
def Spot.found : Spot → Option CmallUser
  | .lookedUp _ _ found => found
  | _ => none

def Spot.isStart : Spot → Bool
  | .start _ => true
  | _ => false

/-- The token, a temporary or a stored one, is not one of `uid`. -/
def Mem.NoTokenOf (s : Mem) (uid : Nat) (token : String) : Prop :=
  (token ∈ s.tempApiToken → tempTokenUid token ≠ some uid) ∧
    ∀ t ∈ Table.queryOne s.db.apptokens (fun t => t.apptoken = token), t.uid ≠ uid

/-- The connection does not refer to a session of `uid`. -/
def Mem.Elsewhere (s : Mem) (uid c : Nat) : Prop :=
  ∀ a ∈ (s.conn c).sessionInfo, (s.heap a).uid ≠ some uid

instance (s : Mem) (uid : Nat) (token : String) : Decidable (s.NoTokenOf uid token) :=
  inferInstanceAs (Decidable ((token ∈ s.tempApiToken → tempTokenUid token ≠ some uid) ∧
    ∀ t ∈ Table.queryOne s.db.apptokens (fun t => t.apptoken = token), t.uid ≠ uid))

instance (s : Mem) (uid c : Nat) : Decidable (s.Elsewhere uid c) :=
  inferInstanceAs (Decidable (∀ a ∈ (s.conn c).sessionInfo, (s.heap a).uid ≠ some uid))

/-- The request starts after the ban. The phone of its login, the sessions it asks for, its
token and the session of its connection are not those of the banned user. -/
def comesAsOther (uid : Nat) (tel : String) (q : Request) (p : Point) (s : Mem) : Prop :=
  (p.spot.isStart = true → s.db.Bans uid tel) ∧
    (∀ u ∈ p.spot.found, u.uid ≠ uid) ∧
    (q.isRecovery = true →
      s.Elsewhere uid q.conn ∧
      (∀ k ∈ q.sessionids, ∀ row ∈ s.db.findSession k, row.cacheContent.uid ≠ some uid) ∧
      ∀ token ∈ q.apiToken, s.NoTokenOf uid token)

/-- What a step of an entry does: no session becomes one of `uid`, nor does the connection
turn to such a session, and a prelogin does not take the phone up. -/
structure EntryStep (uid : Nat) (tel : String) (q : Request) (s t : Mem) : Prop where
  nobody : ∀ b, (t.heap b).uid = some uid → (s.heap b).uid = some uid
  session : ∀ a, (t.conn q.conn).sessionInfo = some a →
    (s.conn q.conn).sessionInfo = some a ∨ (t.heap a).uid ≠ some uid
  phone : q.method = some .userPrelogin → ∀ b, (t.heap b).verifyTelephone = tel →
    (s.heap b).verifyTelephone = tel

theorem BanKept.refl (uid : Nat) (tel : String) (s : Mem) : BanKept uid tel s s := ⟨id, id⟩

theorem BanKept.trans {uid : Nat} {tel : String} {s t u : Mem} (h : BanKept uid tel s t)
    (h' : BanKept uid tel t u) : BanKept uid tel s u := ⟨h'.uids ∘ h.uids, h'.bans ∘ h.bans⟩

theorem EntryStep.refl (uid : Nat) (tel : String) (q : Request) (s : Mem) :
    EntryStep uid tel q s s := ⟨fun _ h => h, fun _ h => .inl h, fun _ _ h => h⟩

theorem EntryStep.trans {uid : Nat} {tel : String} {q : Request} {s t u : Mem}
    (h : EntryStep uid tel q s t) (h' : EntryStep uid tel q t u) : EntryStep uid tel q s u := by
  refine ⟨fun b hb => h.nobody b (h'.nobody b hb), fun a ha => ?_,
    fun hq b hb => h.phone hq b (h'.phone hq b hb)⟩
  rcases h'.session a ha with ht | hu
  · exact (h.session a ht).imp id fun hne heq => hne (h'.nobody a heq)
  · exact .inr hu

/-- Requests from number `n₀` on come after the ban. -/
def banProtocol (uid : Nat) (tel : String) (n₀ : Nat) : Protocol Request Mem Input Point where
  inv s := s.db.UidsOk
  rely _ _ s t := s.db.Bans uid tel → t.db.Bans uid tel
  guar r q s t := BanKept uid tel s t ∧ (n₀ ≤ r → q.isEntry = true → EntryStep uid tel q s t)
  guard r q p _ s := n₀ ≤ r → q.isEntry = true → comesAsOther uid tel q p s
  permit _ _ := True
  rely_refl _ _ _ := id
  rely_trans _ _ _ _ _ h h' := h' ∘ h
  guar_refl _ q s := ⟨.refl uid tel s, fun _ _ => .refl uid tel q s⟩
  guar_trans _ _ _ _ _ h h' := ⟨h.1.trans h'.1, fun hr hq => (h.2 hr hq).trans (h'.2 hr hq)⟩
  guar_inv _ _ _ _ hi h := h.1.uids hi
  guar_rely _ _ _ _ _ _ _ _ h := h.1.bans

instance (uid : Nat) (tel : String) (n₀ r : Nat) (q : Request) (p : Point) (i : Input) (s : Mem) :
    Decidable ((banProtocol uid tel n₀).guard r q p i s) :=
  inferInstanceAs (Decidable (n₀ ≤ r → q.isEntry = true →
    (p.spot.isStart = true → s.db.Bans uid tel) ∧
    (∀ u ∈ p.spot.found, u.uid ≠ uid) ∧
    (q.isRecovery = true →
      s.Elsewhere uid q.conn ∧
      (∀ k ∈ q.sessionids, ∀ row ∈ s.db.findSession k, row.cacheContent.uid ≠ some uid) ∧
      ∀ token ∈ q.apiToken, s.NoTokenOf uid token)))

instance (uid : Nat) (tel : String) (n₀ : Nat) (q : Request) (s : Mem) :
    Decidable ((banProtocol uid tel n₀).permit q s) := .isTrue trivial

/-! ## The ban stays -/

section Stays

variable {uid r : Nat} {tel : String} {db : Db} {K : List Part} {s t : Mem} {ctx : Ctx}
  {cfg : Config} {α : Type}

theorem Db.uidsOk_of_account {db' : Db}
    (hacc : db'.users.map CmallUser.account = db.users.map CmallUser.account)
    (hseq : db'.seq.user = db.seq.user) (h : db.UidsOk) : db'.UidsOk := by
  intro u hu
  have hmem : u.account ∈ db.users.map CmallUser.account := hacc ▸ List.mem_map_of_mem hu
  obtain ⟨v, hv, heq⟩ := List.mem_map.mp hmem
  have huid : v.uid = u.uid := congrArg Prod.fst heq
  rw [hseq, ← huid]
  exact h v hv

theorem banKept_of_keeps (hk : Keeps K r s t) (ha : .accounts ∉ K) (hu : .users ∉ K) :
    BanKept uid tel s t where
  uids := Db.uidsOk_of_account (hk.db.accounts ha) (hk.db.userSeq ha)
  bans h := by
    unfold Db.Bans Db.userByPhone
    rw [hk.db.users hu]
    exact h

/-- A new row for an old user, who stays banned. -/
theorem banKept_update {row old : CmallUser} (hold : s.db.findUser row.uid = some old)
    (hphone : row.activePhone = old.activePhone)
    (hstate : old.state = .banned → row.state = .banned)
    (ht : t.db = { s.db with users := Table.update CmallUser.uid s.db.users row }) :
    BanKept uid tel s t := by
  have hacc : row.account = old.account := by
    rw [CmallUser.account, CmallUser.account, hphone, Db.findUser_uid hold]
  constructor
  · refine Db.uidsOk_of_account ?_ ?_
    · rw [ht]
      exact Table.map_update hold hacc
    · rw [ht]
  · rintro ⟨u, hu, huid, hban⟩
    rw [ht]
    rcases Table.queryOne_update (p := fun u => u.activePhone = tel) hold (by rw [hphone]) with h | ⟨h, h'⟩
    · exact ⟨u, h.trans hu, huid, hban⟩
    · cases h.symm.trans hu
      exact ⟨row, h', (Db.findUser_uid hold).symm.trans huid, hstate hban⟩

theorem banKept_banUser (uid' : Nat) (now : PTime) :
    BanKept uid tel s { s with db := s.db.banUser uid' now } := by
  unfold Db.banUser
  split
  · rename_i old hold
    have huid := Db.findUser_uid hold
    have hrow : s.db.findUser ({ old with state := .banned, updatedAt := now } : CmallUser).uid =
        some old := by simpa [huid] using hold
    exact banKept_update hrow rfl (fun _ => rfl) rfl
  · exact .refl uid tel s

theorem banKept_persistUser (u : CmallUser) (trace : List Event) :
    BanKept uid tel s { s with db := (s.db.persistUser u).2, trace := trace } := by
  constructor
  · intro h v hv
    show v.uid ≤ s.db.seq.user + 1
    rcases List.mem_append.mp hv with hv | hv
    · exact Nat.le_succ_of_le (h v hv)
    · rw [List.mem_singleton.mp hv]
  · rintro ⟨v, hv, h⟩
    have hfind : s.db.users.find? (fun u => u.activePhone = tel) = some v := hv
    refine ⟨v, ?_, h⟩
    show (s.db.users ++ [_]).find? (fun u => u.activePhone = tel) = some v
    rw [List.find?_append, hfind]
    rfl

/-- The parts that are no users. -/
def offUsers : List Part :=
  [.heap, .conn, .codes, .uuids, .administrators, .apptokens, .merchants, .orders, .carts, .favs,
    .applys, .kvs, .sessions, .indexGoods, .loginEvents, .accountEvents, .sudoEvents, .orderEvents,
    .cartEvents, .otherEvents]

theorem banKept_of_each {x : M α} (hx : x.Each (Keeps offUsers r)) : x.Each (BanKept uid tel) :=
  hx.mono fun _ _ h => banKept_of_keeps h (by simp [offUsers]) (by simp [offUsers])

theorem addUser_banKept (u : CmallUser) : (addUser ctx u).Each (BanKept uid tel) :=
  tx_each fun _ _ => banKept_persistUser u _

/-- The user changes something of its row that is not the phone or the state. -/
theorem updateUser_banKept (a uid' : Nat) {f : CmallUser → CmallUser}
    (hf : ∀ v, (f v).uid = v.uid ∧ (f v).activePhone = v.activePhone ∧ (f v).state = v.state) :
    (updateUser ctx a uid' f).Each (BanKept uid tel) := by
  refine tx_each fun i s => ?_
  cases hold : s.db.findUser uid' with
  | none => exact .refl uid tel s
  | some old =>
    obtain ⟨huid, hphone, hstate⟩ := hf old
    have huid' := Db.findUser_uid hold
    have hdb : (s.overwriteUser a (f old)).db = s.db := by
      unfold Mem.overwriteUser
      split <;> rfl
    have hrow : s.db.findUser ({ f old with
        updatedAt := (s.overwriteUser a (f old)).clock } : CmallUser).uid = some old := by
      simpa [huid, huid'] using hold
    refine banKept_update hrow hphone (fun h => hstate.trans h) ?_
    show ({ (s.overwriteUser a (f old)).db with users := _ } : Db) = _
    rw [hdb]

theorem handleUserLogin_banKept (a : Nat) (phone : String) :
    (handleUserLogin ctx a phone).Each (BanKept uid tel) := by
  have hemit : ∀ b u, (emit (.identified ctx.req b u)).Each (BanKept uid tel) := fun b u =>
    Co.each_modify fun _ => ⟨id, id⟩
  simp only [handleUserLogin, loginNewUser]
  repeat' first
    | with_reducible exact addUser_banKept _
    | with_reducible exact hemit _ _
    | with_reducible refine Co.each_bind ?_ fun _ => ?_
    | (refine banKept_of_each (r := ctx.req) ?_; simp [offUsers]; done)
    | split

/-- The methods whose footprint has users in it. -/
theorem handlerOf_banKept {method : ReqMethod} {params : JsonObject}
    (hm : .users ∈ method.footprint) :
    (handlerOf cfg ctx method params).Each (BanKept uid tel) := by
  have hban : ∀ uid' : Nat, (asyncWrite ctx fun s => some ((), s.db.banUser uid' s.clock)).Each
      (BanKept uid tel) := fun uid' => tx_each fun _ s => banKept_banUser uid' s.clock
  have hemit : ∀ cookie code, (emit (.codeAccepted ctx.req cookie code)).Each (BanKept uid tel) :=
    fun _ _ => Co.each_modify fun _ => ⟨id, id⟩
  cases method <;> first | (simp [ReqMethod.footprint] at hm; done) | skip
  all_goals
    simp only [handlerOf, ReqMethod.api, handleJsonrpcUserApi, handleJsonrpcAdminApi, userLogin,
      userFastlogin, userAddRecipientAddress, userEraseReceiptAddress, adminUserBan]
    repeat' first
      | with_reducible exact handleUserLogin_banKept _ _
      | with_reducible exact hban _
      | with_reducible exact hemit _ _
      | (with_reducible refine updateUser_banKept _ _ fun v => ?_)
      | with_reducible refine Co.each_bind ?_ fun _ => ?_
      | (refine banKept_of_each (r := ctx.req) ?_; simp [offUsers]; done)
      | exact ⟨rfl, rfl, rfl⟩
      | split

theorem serve_banKept (q : Request) : (serve cfg ctx q).Each (BanKept uid tel) := by
  by_cases hq : .users ∈ q.footprint
  · cases q with
    | jsonrpc conn method params =>
      have hm : .users ∈ method.footprint := by simpa [Request.footprint] using hq
      refine Co.each_bind (handleJsonrpcCall_of_handler (BanKept.refl uid tel)
        (handlerOf_banKept hm)) fun reply => ?_
      exact Co.each_modify fun _ => ⟨id, id⟩
    | _ => simp [Request.footprint] at hq
  · have ha : .accounts ∉ q.footprint := by
      cases q <;> simp_all [Request.footprint]
      rename_i method _
      cases method <;> simp_all [ReqMethod.footprint]
    have heach : (serve cfg ctx q).Each (Keeps q.footprint ctx.req) := serve_each q
    exact heach.mono fun _ _ h => banKept_of_keeps h ha hq

end Stays

/-! ## Entries after the ban -/

section Entries

variable {uid n₀ r c : Nat} {tel : String} {q : Request} {ctx : Ctx} {cfg : Config} {α β : Type}
  {s t : Mem} {L : Mem → Prop}

theorem stable_bans : (banProtocol uid tel n₀).Stable r q fun s => s.db.Bans uid tel :=
  fun _ _ _ h hs => h hs

/-- The sessions stay as they are. -/
theorem EntryStep.of_same (hheap : t.heap = s.heap) (hconn : t.conn = s.conn) :
    EntryStep uid tel q s t := by
  refine ⟨fun b h => ?_, fun a h => .inl ?_, fun _ b h => ?_⟩
  · rwa [hheap] at h
  · rwa [hconn] at h
  · rwa [hheap] at h

theorem EntryStep.setSession {a : Nat} {x : ClientSession}
    (hx : x.uid = some uid → (s.heap a).uid = some uid)
    (hphone : q.method = some .userPrelogin → x.verifyTelephone = tel →
      (s.heap a).verifyTelephone = tel) : EntryStep uid tel q s (s.setSession a x) := by
  refine ⟨fun b h => ?_, fun _ h => .inl h, fun hq b h => ?_⟩
  · by_cases hb : b = a
    · subst hb
      exact hx (by simpa [Mem.setSession] using h)
    · simpa [Mem.setSession, hb] using h
  · by_cases hb : b = a
    · subst hb
      exact hphone hq (by simpa [Mem.setSession] using h)
    · simpa [Mem.setSession, hb] using h

/-- The parts that are neither sessions nor users. -/
def offEntry : List Part :=
  [.codes, .uuids, .sessions, .loginEvents, .accountEvents, .otherEvents]

theorem guar_of_keeps (hk : Keeps offEntry r s t) : (banProtocol uid tel n₀).guar r q s t :=
  ⟨banKept_of_keeps hk (by simp [offEntry]) (by simp [offEntry]), fun _ _ =>
    .of_same (hk.heap (by simp [offEntry])).1 (hk.conn (by simp [offEntry]))⟩

/-- The coroutine keeps to the protocol and keeps the ban. -/
abbrev EntrySafe (uid : Nat) (tel : String) (n₀ r : Nat) (q : Request) (x : M α)
    (Q : α → Prop := fun _ => True) : Prop :=
  (banProtocol uid tel n₀).Triple r q (fun s => s.db.Bans uid tel) x
    (fun a s => Q a ∧ s.db.Bans uid tel) (fun _ => True)

theorem EntrySafe.bind {x : M α} {g : α → M β} {Q : α → Prop} {R : β → Prop}
    (hx : EntrySafe uid tel n₀ r q x Q) (hg : ∀ a, Q a → EntrySafe uid tel n₀ r q (g a) R) :
    EntrySafe uid tel n₀ r q (x >>= g) R :=
  Triple.bind hx fun a => .pure fun ha => hg a ha

theorem entrySafe_of_each {x : M α} (hx : x.Each (Keeps offEntry r)) :
    EntrySafe uid tel n₀ r q x := by
  refine .conseq (.each hx stable_bans fun s t _ hs hk => ?_) (fun _ _ h => h)
    (fun _ _ _ h => ⟨trivial, h⟩) fun _ _ _ => trivial
  have hg : (banProtocol uid tel n₀).guar r q s t := guar_of_keeps hk
  exact ⟨hg, hg.1.bans hs⟩

/-- A write to a session that does not make it one of `uid`. -/
theorem modifySession_entry {a : Nat} {f : ClientSession → ClientSession}
    (hf : ∀ x, (f x).uid = some uid → x.uid = some uid)
    (hphone : q.method = some .userPrelogin → ∀ x, (f x).verifyTelephone = tel →
      x.verifyTelephone = tel) : EntrySafe uid tel n₀ r q (modifySession a f) :=
  .modify fun _ _ hs => ⟨⟨⟨id, id⟩, fun _ _ => .setSession (hf _) fun hq => hphone hq _⟩, trivial, hs⟩

/-- A read of the tables. -/
theorem asyncLoad_entry {f : Db → α} {after : α → Spot} (p : α → Prop)
    (hf : ∀ s : Mem, s.db.Bans uid tel → p (f s.db)) :
    EntrySafe uid tel n₀ r q (asyncLoad ctx f after) p := by
  refine triple_asyncLoad (fun x s => p x ∧ s.db.Bans uid tel) stable_bans
    (fun x s t _ h hs => ⟨hs.1, h hs.2⟩) (fun _ _ _ => trivial) (fun s _ hs => ⟨hf s hs, hs⟩) ?_
  exact fun x i s _ h _ => h

/-! ### Prelogin -/

/-- A prelogin that goes on is not for the phone of the banned user. -/
theorem userPrelogin_entry (hr : ctx.req = r) (a : Nat) (params : JsonObject) :
    EntrySafe uid tel n₀ r q (userPrelogin ctx a params) := by
  subst hr
  simp only [userPrelogin]
  generalize Json.jsonAsString (Json.get params "telephone" (.string "")) = phone
  have hrest : phone ≠ tel → EntrySafe uid tel n₀ ctx.req q (do
      modifySession a fun c => { c with verifyTelephone := phone }
      let cookie ← sendVerifyCode ctx phone
      modifySession a fun c => { c with verifySessionCookie := some cookie }
      saveSession ctx
      return .bool true : M Reply) := by
    intro hne
    refine .bind (modifySession_entry (fun _ h => h) fun _ _ h => absurd h hne) fun _ _ => ?_
    refine .bind (entrySafe_of_each (by simp [offEntry])) fun cookie _ => ?_
    refine .bind (modifySession_entry (fun _ h => h) fun _ _ h => h) fun _ _ => ?_
    refine .bind (entrySafe_of_each (by simp [offEntry])) fun _ _ => ?_
    exact entrySafe_of_each (each_pure _)
  refine .bind (asyncLoad_entry (fun found => phone = tel → ∃ u, found = some u ∧ u.state = .banned)
    fun s hs hphone => ?_) fun found hfound => ?_
  · obtain ⟨u, hu, -, hban⟩ := hs
    exact ⟨u, hphone ▸ hu, hban⟩
  · cases found with
    | none =>
      refine hrest fun hphone => ?_
      obtain ⟨u, hu, -⟩ := hfound hphone
      cases hu
    | some user =>
      simp only
      split
      · exact .throw fun _ _ _ => trivial
      · rename_i hstate
        refine hrest fun hphone => ?_
        obtain ⟨u, hu, hban⟩ := hfound hphone
        cases hu
        exact hstate hban

/-! ### Login -/

/-- A new user is another one. -/
theorem addUser_entry (u : CmallUser) :
    EntrySafe uid tel n₀ r q (addUser ctx u) fun row => row.uid ≠ uid := by
  refine triple_tx (fun (row : CmallUser) s => row.uid ≠ uid ∧ s.db.Bans uid tel) stable_bans
    (fun _ s t _ h hs => ⟨hs.1, h hs.2⟩) (fun _ _ _ => trivial) (fun i s hi hs _ => ?_)
    fun _ _ _ _ h _ => h
  have hkept : BanKept uid tel s { s with
      db := (s.db.persistUser u).2, trace := .userAdded ctx.req u.activePhone :: s.trace } :=
    banKept_persistUser u _
  refine ⟨⟨hkept, fun _ _ => .of_same rfl rfl⟩, fun _ => hkept.bans hs, ?_⟩
  rintro row ⟨⟩
  refine ⟨?_, hkept.bans hs⟩
  obtain ⟨v, hv, rfl, -⟩ := hs
  have hle := hi v (Table.queryOne_some hv).1
  show s.db.seq.user + 1 ≠ v.uid
  omega

theorem loginMerchant_entry (a uid' : Nat) :
    EntrySafe uid tel n₀ r q (loginMerchant ctx a uid') := by
  refine .bind (asyncLoad_entry (fun _ => True) fun _ _ => trivial) fun found _ => ?_
  split
  · split
    · exact modifySession_entry (fun _ h => h) fun _ _ h => h
    · exact entrySafe_of_each (each_pure _)
  · exact entrySafe_of_each (each_pure _)

theorem loginAdmin_entry (a uid' : Nat) : EntrySafe uid tel n₀ r q (loginAdmin ctx a uid') := by
  refine .bind (asyncLoad_entry (fun _ => True) fun _ _ => trivial) fun found _ => ?_
  split
  · exact modifySession_entry (fun _ h => h) fun _ _ h => h
  · exact entrySafe_of_each (each_pure _)

/-- The user of a login is written into the session. -/
theorem setUser_entry {u : CmallUser} (hu : u.uid ≠ uid) (a : Nat) :
    EntrySafe uid tel n₀ r q (modifySession a fun c => { c with userInfo := some u }) :=
  modifySession_entry (fun _ h => absurd (Option.some.inj h) hu) fun _ _ h => h

theorem loginNewUser_entry (hr : ctx.req = r) :
    EntrySafe uid tel n₀ r q (loginNewUser ctx) := by
  subst hr
  have hemit : ∀ b u, (emit (.identified ctx.req b u)).Each (Keeps offEntry ctx.req) := fun b u =>
    emit_each (by simp [offEntry, Event.part]) rfl
  refine .bind (entrySafe_of_each (by simp)) fun a _ => ?_
  refine .bind (entrySafe_of_each (by simp)) fun x _ => ?_
  refine .bind (entrySafe_of_each (by simp)) fun now _ => ?_
  refine .bind (addUser_entry _) fun newUser hne => ?_
  refine .bind (entrySafe_of_each (by simp)) fun b _ => ?_
  refine .bind (setUser_entry hne b) fun _ _ => ?_
  refine .bind (entrySafe_of_each (hemit b newUser)) fun _ _ => ?_
  refine .bind (entrySafe_of_each (became_each b _ (by simp [offEntry]))) fun _ _ => ?_
  exact entrySafe_of_each (callCheckAdmin_each _)

section Login

variable (hr₀ : n₀ ≤ r) (hentry : q.isEntry = true)
include hr₀ hentry

theorem loadUserByPhone_entry (a : Nat) (phone : String) :
    EntrySafe uid tel n₀ r q (loadUserByPhone ctx a phone) fun found => ∀ u ∈ found, u.uid ≠ uid := by
  refine triple_tx (fun _ s => s.db.Bans uid tel) stable_bans (fun _ => stable_bans)
    (fun _ _ _ => trivial) (fun i s _ hs _ => ?_)
    fun found i s _ hs hg => ⟨(hg hr₀ hentry).2.1, hs⟩
  split
  · exact ⟨(banProtocol uid tel n₀).guar_refl _ _ _, by simp, fun _ _ => hs⟩
  · exact ⟨⟨⟨id, id⟩, fun _ _ => .of_same rfl rfl⟩, by simp, fun _ _ => hs⟩

theorem handleUserLogin_entry (hr : ctx.req = r) (a : Nat) (phone : String) :
    EntrySafe uid tel n₀ r q (handleUserLogin ctx a phone) := by
  subst hr
  have hemit : ∀ u, (emit (.identified ctx.req a u)).Each (Keeps offEntry ctx.req) := fun u =>
    emit_each (by simp [offEntry, Event.part]) rfl
  have hend : EntrySafe uid tel n₀ ctx.req q (do
      modifySession a fun c => { c with verifySessionCookie := none }
      saveSession ctx
      let c ← getSession a
      pushActive ctx
      return .login c.isMerchant c.isAdmin c.sudoMode : M Reply) := by
    refine .bind (modifySession_entry (fun _ h => h) fun _ _ h => h) fun _ _ => ?_
    refine .bind (entrySafe_of_each (by simp [offEntry])) fun _ _ => ?_
    refine .bind (entrySafe_of_each (by simp)) fun x _ => ?_
    exact .bind (entrySafe_of_each (by simp)) fun _ _ => entrySafe_of_each (each_pure _)
  refine .bind (loadUserByPhone_entry hr₀ hentry a phone) fun found hfound => ?_
  cases found with
  | some u =>
    refine .bind (setUser_entry (hfound u rfl) a) fun _ _ => ?_
    refine .bind (entrySafe_of_each (hemit u)) fun _ _ => ?_
    refine .bind (entrySafe_of_each (became_each a _ (by simp [offEntry]))) fun _ _ => ?_
    refine .bind (loginMerchant_entry a u.uid) fun _ _ => ?_
    exact .bind (loginAdmin_entry a u.uid) fun _ _ => hend
  | none => exact .bind (loginNewUser_entry rfl) fun _ _ => hend

theorem userLogin_entry (hr : ctx.req = r) (a : Nat) (params : JsonObject) :
    EntrySafe uid tel n₀ r q (userLogin ctx a params) := by
  have hemit : ∀ cookie code, (emit (.codeAccepted ctx.req cookie code)).Each (Keeps offEntry r) :=
    fun _ _ => emit_each (by simp [offEntry, Event.part]) hr
  simp only [userLogin]
  refine .bind (entrySafe_of_each (by simp)) fun x _ => ?_
  split
  · refine .bind (entrySafe_of_each (by simp)) fun ok _ => ?_
    split
    · refine .bind (entrySafe_of_each (hemit _ _)) fun _ _ => ?_
      exact .bind (entrySafe_of_each (by simp)) fun _ _ => handleUserLogin_entry hr₀ hentry hr a _
    · exact .throw fun _ _ _ => trivial
  · exact .throw fun _ _ _ => trivial

theorem userFastlogin_entry (hr : ctx.req = r) (hm : q.method = some .userFastlogin) (a : Nat) :
    EntrySafe uid tel n₀ r q (userFastlogin ctx a) := by
  simp only [userFastlogin]
  refine .bind (entrySafe_of_each (by simp)) fun phone _ => ?_
  split
  · exact .throw fun _ _ _ => trivial
  · refine .bind (modifySession_entry (fun _ h => h) fun hpre => ?_) fun _ _ => ?_
    · rw [hm] at hpre
      cases hpre
    · exact .bind (entrySafe_of_each (by simp)) fun _ _ => handleUserLogin_entry hr₀ hentry hr a _

end Login

/-! ### Recovery -/

/-- The coroutine keeps to the protocol; its connection is elsewhere. -/
abbrev RecoverySafe (uid : Nat) (tel : String) (n₀ r : Nat) (q : Request) (x : M α)
    (Q : α → Prop := fun _ => True) : Prop :=
  (banProtocol uid tel n₀).Triple r q (fun s => s.Elsewhere uid q.conn) x
    (fun a s => Q a ∧ s.Elsewhere uid q.conn) (fun _ => True)

theorem RecoverySafe.bind {x : M α} {g : α → M β} {Q : α → Prop} {R : β → Prop}
    (hx : RecoverySafe uid tel n₀ r q x Q) (hg : ∀ a, Q a → RecoverySafe uid tel n₀ r q (g a) R) :
    RecoverySafe uid tel n₀ r q (x >>= g) R :=
  Triple.bind hx fun a => .pure fun ha => hg a ha

/-- What a step does is enough for the connection to stay elsewhere. -/
theorem EntryStep.elsewhere (h : EntryStep uid tel q s t) (hs : s.Elsewhere uid q.conn) :
    t.Elsewhere uid q.conn := by
  intro a ha hu
  rcases h.session a ha with ha' | hne
  · exact hs a ha' (h.nobody a hu)
  · exact hne hu

theorem EntryStep.newSession {x : ClientSession} (tel : String) (hx : x.uid ≠ some uid)
    (hq : q.method ≠ some .userPrelogin) :
    EntryStep uid tel q s { s with
      heap := fun b => if b = s.heapTop then x else s.heap b
      heapTop := s.heapTop + 1
      conn := fun d => if d = q.conn then { s.conn d with sessionInfo := some s.heapTop }
        else s.conn d } := by
  refine ⟨fun b h => ?_, fun a h => .inr ?_, fun hpre => absurd hpre hq⟩
  · dsimp only at h
    split at h
    · exact absurd h hx
    · exact h
  · simp only [if_true, Option.some.injEq] at h
    subst h
    simpa using hx

/-- The user of the session the connection refers to is another one. -/
theorem hereUser_recovery (hc : ctx.conn = q.conn) {k : Nat → CmallUser → M β} {R : β → Prop}
    (hk : ∀ a u, u.uid ≠ uid → RecoverySafe uid tel n₀ r q (k a u) R) :
    RecoverySafe uid tel n₀ r q (do
      let a ← thisSession ctx
      k a (← thisUser a)) R := by
  refine Triple.bind (triple_thisSession fun _ _ _ => trivial) fun a => ?_
  refine Triple.bind (triple_thisUser a fun _ _ _ => trivial) fun u => ?_
  rintro s₀ s hi hg ⟨hu, ha, hs⟩
  rw [hc] at ha
  have hne : u.uid ≠ uid := by
    have huid := hs a ha
    rw [ClientSession.uid, hu] at huid
    exact fun heq => huid (congrArg some heq)
  exact hk a u hne s₀ s hi hg hs

section Recovery

variable (hr₀ : n₀ ≤ r) (hrec : q.isRecovery = true)
include hrec

theorem Request.entry_of_recovery : q.isEntry = true := by
  unfold isRecovery at hrec
  split at hrec
  · rfl
  · rfl
  · cases hrec

theorem Request.not_prelogin : q.method ≠ some .userPrelogin := by
  unfold isRecovery at hrec
  split at hrec
  · exact fun h => nomatch h
  · exact fun h => nomatch h
  · cases hrec

theorem modifySession_recovery {a : Nat} {f : ClientSession → ClientSession}
    (hf : ∀ x, (f x).uid = some uid → x.uid = some uid) :
    RecoverySafe uid tel n₀ r q (modifySession a f) := by
  refine .modify fun s _ hs => ?_
  have hstep : EntryStep uid tel q s (s.setSession a (f (s.heap a))) :=
    .setSession (hf _) fun hpre => absurd hpre (Request.not_prelogin hrec)
  exact ⟨⟨⟨id, id⟩, fun _ _ => hstep⟩, trivial, hstep.elsewhere hs⟩

theorem newSession_recovery (hc : ctx.conn = q.conn) {x : ClientSession} (hx : x.uid ≠ some uid) :
    RecoverySafe uid tel n₀ r q (newSession ctx x) := by
  refine .modify fun s _ hs => ?_
  rw [hc]
  have hstep := EntryStep.newSession (s := s) (q := q) tel hx (Request.not_prelogin hrec)
  exact ⟨⟨⟨id, id⟩, fun _ _ => hstep⟩, trivial, hstep.elsewhere hs⟩

include hr₀

theorem guard_elsewhere {p : Point} {i : Input} (h : (banProtocol uid tel n₀).guard r q p i s) :
    s.Elsewhere uid q.conn :=
  ((h hr₀ (Request.entry_of_recovery hrec)).2.2 hrec).1

theorem recoverySafe_of_each {x : M α} (hx : x.Each (Keeps offEntry r)) :
    RecoverySafe uid tel n₀ r q x := by
  refine .conseq (.each_resumed (L := fun _ => True) hx stable_true
    (fun _ _ _ h => guard_elsewhere hr₀ hrec h) fun s t _ _ hs hk => ?_) (fun _ _ h => ⟨trivial, h⟩)
    (fun _ _ _ h => ⟨trivial, h.2⟩) fun _ _ _ => trivial
  have hg : (banProtocol uid tel n₀).guar r q s t := guar_of_keeps hk
  exact ⟨hg, trivial, (hg.2 hr₀ (Request.entry_of_recovery hrec)).elsewhere hs⟩

/-- A read of the tables. -/
theorem asyncLoad_recovery {f : Db → α} {after : α → Spot} (p : α → Prop)
    (hf : ∀ s : Mem, (∀ k ∈ q.sessionids, ∀ row ∈ s.db.findSession k,
      row.cacheContent.uid ≠ some uid) → (∀ token ∈ q.apiToken, s.NoTokenOf uid token) →
        p (f s.db)) :
    RecoverySafe uid tel n₀ r q (asyncLoad ctx f after) p := by
  refine .conseq (triple_tx (L := fun _ => True) (fun x _ => p x) stable_true
    (fun _ _ _ _ _ h => h) (fun _ _ _ => trivial) (fun i s _ _ hg => ?_)
    fun x i s _ h hg => ⟨h, guard_elsewhere hr₀ hrec hg⟩) (fun _ _ _ => trivial)
    (fun _ _ _ h => h) fun _ _ h => h
  obtain ⟨-, hstored, htoken⟩ := (hg hr₀ (Request.entry_of_recovery hrec)).2.2 hrec
  refine ⟨(banProtocol uid tel n₀).guar_refl _ _ _, fun _ => trivial, ?_⟩
  rintro x ⟨⟩
  exact hf s hstored htoken

theorem reloadUser_recovery {uid' : Nat} (hne : uid' ≠ uid) (a : Nat) (after : Bool → Spot) :
    RecoverySafe uid tel n₀ r q (reloadUser ctx a uid' after) := by
  refine .conseq (triple_tx (L := fun _ => True) (fun _ _ => True) stable_true
    (fun _ => stable_true) (fun _ _ _ => trivial) (fun i s _ _ _ => ⟨?_, fun _ => trivial,
      fun _ _ => trivial⟩) fun x i s _ _ hg => ⟨trivial, guard_elsewhere hr₀ hrec hg⟩)
    (fun _ _ _ => trivial) (fun _ _ _ h => h) fun _ _ h => h
  cases hrow : s.db.findUser uid' with
  | none => exact (banProtocol uid tel n₀).guar_refl _ _ _
  | some row =>
    have huid : row.uid ≠ uid := fun heq => hne ((Db.findUser_uid hrow).symm.trans heq)
    show (banProtocol uid tel n₀).guar r q s (s.overwriteUser a row)
    unfold Mem.overwriteUser
    split
    · exact ⟨⟨id, id⟩, fun _ _ => .setSession (fun h => absurd (Option.some.inj h) huid)
        fun hpre => absurd hpre (Request.not_prelogin hrec)⟩
    · exact (banProtocol uid tel n₀).guar_refl _ _ _

theorem recoverMerchant_recovery (uid' : Nat) :
    RecoverySafe uid tel n₀ r q (recoverMerchant ctx uid') := by
  refine .bind (asyncLoad_recovery hr₀ hrec (fun _ => True) fun _ _ _ => trivial) fun found _ => ?_
  split
  · refine .bind (recoverySafe_of_each hr₀ hrec thisSession_each) fun a _ => ?_
    exact modifySession_recovery hrec fun _ h => h
  · exact recoverySafe_of_each hr₀ hrec (each_pure _)

theorem recoverAdmin_recovery (uid' : Nat) :
    RecoverySafe uid tel n₀ r q (recoverAdmin ctx uid') := by
  refine .bind (asyncLoad_recovery hr₀ hrec (fun _ => True) fun _ _ _ => trivial) fun found _ => ?_
  split
  · refine .bind (recoverySafe_of_each hr₀ hrec thisSession_each) fun a _ => ?_
    exact modifySession_recovery hrec fun _ h => h
  · exact recoverySafe_of_each hr₀ hrec (each_pure _)

theorem recoverSudo_recovery : RecoverySafe uid tel n₀ r q (recoverSudo ctx) := by
  refine .bind (recoverySafe_of_each hr₀ hrec thisSession_each) fun a _ => ?_
  refine .bind (recoverySafe_of_each hr₀ hrec (getSession_each a)) fun x _ => ?_
  split
  · split
    · exact .throw fun _ _ _ => trivial
    · refine .bind (asyncLoad_recovery hr₀ hrec (fun _ => True) fun _ _ _ => trivial) fun d _ => ?_
      refine .bind (recoverySafe_of_each hr₀ hrec thisSession_each) fun b _ => ?_
      exact modifySession_recovery hrec fun _ h => h
  · exact recoverySafe_of_each hr₀ hrec (each_pure _)

theorem loadUserInfo_recovery (hc : ctx.conn = q.conn) :
    RecoverySafe uid tel n₀ r q (loadUserInfo ctx) := by
  simp only [loadUserInfo]
  refine hereUser_recovery hc fun a u hne => ?_
  refine .bind (reloadUser_recovery hr₀ hrec hne a _) fun found _ => ?_
  split
  · refine .bind (recoverySafe_of_each hr₀ hrec thisSession_each) fun b _ => ?_
    exact modifySession_recovery hrec fun _ h => by cases h
  · refine .bind (recoverySafe_of_each hr₀ hrec thisSession_each) fun b _ => ?_
    refine .bind (recoverySafe_of_each hr₀ hrec (thisUser_each b)) fun v _ => ?_
    refine .bind (recoverMerchant_recovery hr₀ hrec v.uid) fun _ _ => ?_
    refine .bind (recoverySafe_of_each hr₀ hrec thisSession_each) fun b _ => ?_
    refine .bind (recoverySafe_of_each hr₀ hrec (thisUser_each b)) fun v _ => ?_
    refine .bind (recoverAdmin_recovery hr₀ hrec v.uid) fun _ _ => ?_
    refine .bind (recoverSudo_recovery hr₀ hrec) fun _ _ => ?_
    exact recoverySafe_of_each hr₀ hrec pushActive_each

theorem allocaSessionid_recovery (hr : ctx.req = r) (hc : ctx.conn = q.conn) :
    RecoverySafe uid tel n₀ r q (allocaSessionid ctx) := by
  simp only [allocaSessionid, freshSession, Co.bind_assoc, Co.pure_eq, Co.ret_bind]
  refine .bind (recoverySafe_of_each hr₀ hrec (genUuid_each (by simp [offEntry]))) fun k _ => ?_
  refine .bind (newSession_recovery hrec hc fun h => nomatch h) fun _ _ => ?_
  exact recoverySafe_of_each hr₀ hrec (saveSession_each (by simp [offEntry]) hr)

theorem restoreSession_recovery (hc : ctx.conn = q.conn) {sessionid : String}
    (hid : sessionid ∈ q.sessionids) :
    RecoverySafe uid tel n₀ r q (restoreSession ctx sessionid) := by
  simp only [restoreSession, loadSession, Co.bind_assoc]
  refine .bind (asyncLoad_recovery hr₀ hrec (fun found => ∀ row ∈ found,
    row.cacheContent.uid ≠ some uid) fun s hstored _ => hstored sessionid hid) fun found hfound => ?_
  cases found with
  | none => exact .throw fun _ _ _ => trivial
  | some row =>
    refine newSession_recovery hrec hc fun h => hfound row rfl ?_
    simpa [ClientSession.uid, CmallSession.toSession, Function.comp_def] using h

theorem recoverBySessionid_recovery (hr : ctx.req = r) (hc : ctx.conn = q.conn) {sessionid : String}
    (hid : sessionid ∈ q.sessionids) :
    RecoverySafe uid tel n₀ r q (recoverBySessionid ctx sessionid) := by
  have hload : RecoverySafe uid tel n₀ r q (do
      if (← getSession (← thisSession ctx)).userInfo.isSome then
        loadUserInfo ctx
      let c ← getSession (← thisSession ctx)
      return .session c.sessionId c.isAdmin c.isMerchant c.userInfo.isSome c.sudoMode : M Reply) := by
    have hend : RecoverySafe uid tel n₀ r q (do
        let c ← getSession (← thisSession ctx)
        return .session c.sessionId c.isAdmin c.isMerchant c.userInfo.isSome c.sudoMode : M Reply) :=
      recoverySafe_of_each hr₀ hrec (by
        refine Co.each_bind thisSession_each fun _ => Co.each_bind (getSession_each _) fun _ => ?_
        exact each_pure _)
    refine .bind (recoverySafe_of_each hr₀ hrec thisSession_each) fun a _ => ?_
    refine .bind (recoverySafe_of_each hr₀ hrec (getSession_each a)) fun x _ => ?_
    split
    · exact .bind (loadUserInfo_recovery hr₀ hrec hc) fun _ _ => hend
    · exact hend
  simp only [recoverBySessionid]
  refine .bind (recoverySafe_of_each hr₀ hrec each_get) fun m _ => ?_
  split
  · split
    · exact .bind (allocaSessionid_recovery hr₀ hrec hr hc) fun _ _ => hload
    · refine .bind (recoverySafe_of_each hr₀ hrec (sessionExists_each _)) fun known _ => ?_
      split
      · exact .bind (allocaSessionid_recovery hr₀ hrec hr hc) fun _ _ => hload
      · refine .bind (restoreSession_recovery hr₀ hrec hc hid) fun _ _ => ?_
        exact .bind (recoverySafe_of_each hr₀ hrec (updateLifetime_each _ (by simp [offEntry])))
          fun _ _ => hload
  · exact hload

/-- The uid an api token stands for is another one. -/
theorem apiTokenUid_recovery {token : String} (htoken : token ∈ q.apiToken) :
    (banProtocol uid tel n₀).Triple r q (fun s => s.NoTokenOf uid token ∧ s.Elsewhere uid q.conn)
      (apiTokenUid ctx token) (fun uid' s => uid' ≠ uid ∧ s.Elsewhere uid q.conn) (fun _ => True) := by
  refine Triple.bind (Q := fun m s => m = s ∧ s.NoTokenOf uid token ∧ s.Elsewhere uid q.conn)
    (.get fun _ _ h => ⟨rfl, h⟩) fun m => ?_
  split
  · rename_i htemp
    split
    · rename_i uid' huid
      refine .ret fun s _ h => ⟨fun heq => ?_, h.2.2⟩
      have hne := h.2.1.1 (h.1 ▸ htemp)
      rw [huid, heq] at hne
      exact hne rfl
    · exact .throw fun _ _ _ => trivial
  · refine .conseq (L := fun s => s.Elsewhere uid q.conn) ?_ (fun _ _ h => h.2.2) (fun _ _ _ h => h)
      fun _ _ h => h
    refine RecoverySafe.bind (asyncLoad_recovery hr₀ hrec (fun found => ∀ t ∈ found, t.uid ≠ uid)
      fun s _ h => (h token htoken).2) fun found hfound => ?_
    cases found with
    | none => exact .throw fun _ _ _ => trivial
    | some t => exact .ret fun _ _ h => ⟨hfound t rfl, h⟩

theorem recoverByApiToken_recovery (hc : ctx.conn = q.conn) (hr : ctx.req = r) {token : String}
    (htoken : token ∈ q.apiToken) :
    (banProtocol uid tel n₀).Triple r q (fun s => s.NoTokenOf uid token ∧ s.Elsewhere uid q.conn)
      (recoverByApiToken ctx token) (fun _ s => True ∧ s.Elsewhere uid q.conn) (fun _ => True) := by
  have hemit : ∀ b u, (emit (.identified ctx.req b u)).Each (Keeps offEntry r) := fun b u =>
    emit_each (by simp [offEntry, Event.part]) hr
  simp only [recoverByApiToken, freshSession, Co.bind_assoc, Co.pure_eq, Co.ret_bind]
  refine Triple.bind (apiTokenUid_recovery hr₀ hrec htoken) fun uid' => .pure fun hne => ?_
  refine RecoverySafe.bind (asyncLoad_recovery hr₀ hrec (fun found => ∀ u ∈ found, u.uid ≠ uid)
    fun s _ _ u hu heq => hne ((Db.findUser_uid hu).symm.trans heq)) fun found hfound => ?_
  cases found with
  | none => exact recoverySafe_of_each hr₀ hrec (each_pure _)
  | some u =>
    refine .bind (recoverySafe_of_each hr₀ hrec (genUuid_each (by simp [offEntry]))) fun k _ => ?_
    refine .bind (newSession_recovery hrec hc fun h => hfound u rfl (Option.some.inj h)) fun _ _ => ?_
    refine .bind (recoverySafe_of_each hr₀ hrec thisSession_each) fun b _ => ?_
    refine .bind (recoverySafe_of_each hr₀ hrec (hemit b u)) fun _ _ => ?_
    refine .bind (recoverMerchant_recovery hr₀ hrec uid') fun _ _ => ?_
    refine .bind (recoverAdmin_recovery hr₀ hrec uid') fun _ _ => ?_
    refine .bind (recoverySafe_of_each hr₀ hrec thisSession_each) fun b _ => ?_
    refine .bind (recoverySafe_of_each hr₀ hrec (getSession_each b)) fun x _ => ?_
    exact recoverySafe_of_each hr₀ hrec (each_pure _)

omit hr₀ in
/-- What is known of the connection besides its session changes. -/
theorem setConnection_recovery {P : Mem → Prop} {f : Connection → Connection}
    (hf : ∀ x, (f x).sessionInfo = x.sessionInfo)
    (hP : ∀ s conn, P s → P { s with conn := conn }) :
    (banProtocol uid tel n₀).Triple r q (fun s => P s ∧ s.Elsewhere uid q.conn)
      (setConnection ctx f) (fun _ s => P s ∧ s.Elsewhere uid q.conn) (fun _ => True) := by
  refine .modify fun s _ h => ?_
  have hsession : ∀ d, (if d = ctx.conn then f (s.conn d) else s.conn d).sessionInfo =
      (s.conn d).sessionInfo := by
    intro d
    split
    · exact hf _
    · rfl
  have hstep : EntryStep uid tel q s { s with
      conn := fun d => if d = ctx.conn then f (s.conn d) else s.conn d } :=
    ⟨fun _ h => h, fun a ha => .inl ((hsession _).symm.trans ha),
      fun hpre => absurd hpre (Request.not_prelogin hrec)⟩
  exact ⟨⟨⟨id, id⟩, fun _ _ => hstep⟩, hP s _ h.1, hstep.elsewhere h.2⟩

theorem recoverByCookie_recovery (hc : ctx.conn = q.conn) (cookies : List String)
    (hid : ∀ k ∈ cookies, k ∈ q.sessionids) :
    RecoverySafe uid tel n₀ r q (recoverByCookie ctx cookies) := by
  induction cookies with
  | nil => exact recoverySafe_of_each hr₀ hrec (each_pure _)
  | cons sessionid rest ih =>
    have hrest := ih fun k hk => hid k (List.mem_cons_of_mem _ hk)
    have hlife : RecoverySafe uid tel n₀ r q (updateLifetime ctx sessionid) :=
      recoverySafe_of_each hr₀ hrec (updateLifetime_each _ (by simp [offEntry]))
    simp only [recoverByCookie]
    split
    · exact hrest
    refine .bind (recoverySafe_of_each hr₀ hrec (sessionExists_each _)) fun known _ => ?_
    split
    · refine .bind (restoreSession_recovery hr₀ hrec hc (hid _ (List.mem_cons_self ..))) fun _ _ => ?_
      refine .bind (recoverySafe_of_each hr₀ hrec thisSession_each) fun a _ => ?_
      refine .bind (recoverySafe_of_each hr₀ hrec (getSession_each a)) fun x _ => ?_
      split
      · exact .bind (loadUserInfo_recovery hr₀ hrec hc) fun _ _ => hlife
      · exact hlife
    · exact hrest

theorem clientConnected_recovery (hr : ctx.req = r) (hc : ctx.conn = q.conn) (ip : String)
    {cookies : List String} (hid : ∀ k ∈ cookies, k ∈ q.sessionids) (alloca : Bool) :
    RecoverySafe uid tel n₀ r q (clientConnected ctx ip cookies alloca) := by
  have hend : RecoverySafe uid tel n₀ r q (do
      if alloca ∧ ((← Co.get).conn ctx.conn).sessionInfo = none then
        allocaSessionid ctx : M Unit) := by
    refine .bind (recoverySafe_of_each hr₀ hrec each_get) fun m _ => ?_
    split
    · exact allocaSessionid_recovery hr₀ hrec hr hc
    · exact recoverySafe_of_each hr₀ hrec (each_pure _)
  refine Triple.bind (.conseq (setConnection_recovery (P := fun _ => True) hrec (fun _ => rfl)
    fun _ _ h => h) (fun _ _ h => ⟨trivial, h⟩) (fun _ _ _ h => h) fun _ _ h => h) fun _ =>
    .pure fun _ => ?_
  refine RecoverySafe.bind (recoverySafe_of_each hr₀ hrec each_get) fun m _ => ?_
  split
  · exact .bind (recoverByCookie_recovery hr₀ hrec hc cookies hid) fun _ _ => hend
  · exact hend

end Recovery

/-! ### Programs -/

theorem replied_ban (reply : Reply) : (banProtocol uid tel n₀).guar r q s
    { s with trace := .replied r reply :: s.trace } :=
  ⟨⟨id, id⟩, fun _ _ => .of_same rfl rfl⟩

/-- A login or a prelogin. -/
theorem prog_login {method : ReqMethod} {params : JsonObject} {m : Mem} (hr₀ : n₀ ≤ r)
    (hentry : (Request.jsonrpc c method params).isEntry = true)
    (h : EntrySafe uid tel n₀ r (.jsonrpc c method params) (handlerOf cfg ⟨c, r⟩ method params)) :
    (prog cfg r (.jsonrpc c method params)).Suspended (banProtocol uid tel n₀) r
      (.jsonrpc c method params) m := by
  have hstart : ∀ (i : Input) s, (banProtocol uid tel n₀).inv s → True →
      (banProtocol uid tel n₀).guard r (.jsonrpc c method params)
        ⟨⟨c, r⟩, .start (some method)⟩ i s → s.db.Bans uid tel :=
    fun _ _ _ _ hg => (hg hr₀ hentry).1 rfl
  refine prog_suspended_of_handler (L := fun _ => True) stable_true trivial hstart
    (fun _ _ _ => trivial) h fun reply s _ _ => ⟨replied_ban reply, trivial⟩

theorem prog_recoverSession {params : JsonObject} {m : Mem} (hr₀ : n₀ ≤ r) :
    (prog cfg r (.jsonrpc c .recoverSession params)).Suspended (banProtocol uid tel n₀) r
      (.jsonrpc c .recoverSession params) m := by
  have hstart : ∀ (i : Input) s, (banProtocol uid tel n₀).inv s → True →
      (banProtocol uid tel n₀).guard r (.jsonrpc c .recoverSession params)
        ⟨⟨c, r⟩, .start (some .recoverSession)⟩ i s →
      s.NoTokenOf uid (Json.getString params "api-token") ∧ s.Elsewhere uid c := by
    intro i s _ _ hg
    obtain ⟨helse, -, htoken⟩ := (hg hr₀ rfl).2.2 rfl
    exact ⟨htoken _ rfl, helse⟩
  refine prog_suspended_of_handler (L := fun _ => True) (Q := fun _ s => True ∧ s.Elsewhere uid c)
    stable_true trivial hstart (fun _ _ _ => trivial) ?_ fun reply s _ _ => ⟨replied_ban reply, trivial⟩
  simp only [handlerOf, ReqMethod.api, recoverSession]
  refine Triple.bind (setConnection_recovery (q := .jsonrpc c .recoverSession params) rfl
    (fun _ => rfl) fun s conn h => h) fun _ => ?_
  split
  · refine .conseq (recoverBySessionid_recovery (q := .jsonrpc c .recoverSession params) hr₀ rfl
      rfl rfl (List.mem_singleton_self _)) (fun _ _ h => h.2) (fun _ _ _ h => h) fun _ _ h => h
  · exact recoverByApiToken_recovery (q := .jsonrpc c .recoverSession params) hr₀ rfl rfl (by rfl) rfl

theorem prog_connect {ip : String} {cookies : List String} {alloca : Bool} {m : Mem}
    (hr₀ : n₀ ≤ r) :
    (prog cfg r (.connect c ip cookies alloca)).Suspended (banProtocol uid tel n₀) r
      (.connect c ip cookies alloca) m := by
  refine Triple.suspended (L := fun _ => True) stable_true trivial
    (fun _ _ _ _ hg => guard_elsewhere hr₀ rfl hg) fun _ => ?_
  exact .conseq (clientConnected_recovery hr₀ rfl (by rfl) (by rfl) ip (fun _ h => h) alloca)
    (fun _ _ h => h) (fun _ _ _ _ => trivial) fun _ _ _ => trivial

/-- Every program keeps to the protocol. -/
theorem programs_ban (uid : Nat) (tel : String) (n₀ : Nat) (cfg : Config) :
    (banProtocol uid tel n₀).Programs (prog cfg) := by
  intro r q m _ _ _
  by_cases h : n₀ ≤ r ∧ q.isEntry = true
  · obtain ⟨hr₀, hentry⟩ := h
    have hentry' := hentry
    unfold Request.isEntry at hentry'
    split at hentry'
    · refine prog_login hr₀ hentry (.bind (entrySafe_of_each thisSession_each) fun a _ => ?_)
      exact userPrelogin_entry (by rfl) a _
    · refine prog_login hr₀ hentry (.bind (entrySafe_of_each thisSession_each) fun a _ => ?_)
      exact userLogin_entry hr₀ hentry (by rfl) a _
    · refine prog_login hr₀ hentry (.bind (entrySafe_of_each thisSession_each) fun a _ => ?_)
      exact userFastlogin_entry hr₀ hentry (by rfl) rfl a
    · exact prog_recoverSession hr₀
    · exact prog_connect hr₀
    · cases hentry'
  · refine Triple.suspended (L := fun _ => True) stable_true trivial
      (fun _ _ _ _ _ => trivial) fun _ => ?_
    have heach : (serve cfg ⟨q.conn, r⟩ q).Each (BanKept uid tel) := serve_banKept q
    refine .conseq (.each heach stable_true fun s t _ _ hk => ?_) (fun _ _ h => h)
      (fun _ _ _ _ => trivial) fun _ _ _ => trivial
    exact ⟨⟨hk, fun hr₀ hentry => absurd ⟨hr₀, hentry⟩ h⟩, trivial⟩

end Entries

/-- Connection 0 is that of administrator 9; connection 2 has a new session. User 1 has a
stored session. -/
def beforeBan : Mem where
  db :=
    { users := [{ uid := 1, activePhone := "138" }, { uid := 9, activePhone := "139" }]
      administrators := [⟨9, some 9⟩]
      sessions := [⟨"S", some 1, ⟨some 1, "138", "", false, none⟩, none, 0, 0⟩]
      seq := { user := 9 } }
  heapTop := 2
  heap a := if a = 0 then { userInfo := some { uid := 9, activePhone := "139" }, isAdmin := true }
    else { sessionId := "T" }
  conn c := if c = 0 then { sessionInfo := some 0 } else if c = 2 then { sessionInfo := some 1 } else {}

/-- User 1 is banned, then connection 2 logs in with a phone of somebody. -/
def loginAfterBan (phone : String) : List (Label Request Input) :=
  [.spawn (.jsonrpc 0 .adminUserBan [("uid", .int64 1)])] ++ resumes 0 5 ++
    [.spawn (.jsonrpc 2 .userFastlogin []), .resume 1 {}, .resume 1 { answer := some phone }] ++
    resumes 1 7

end Cmall
