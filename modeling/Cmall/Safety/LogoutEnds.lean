import Cmall.Coroutine.Sequential
import Cmall.Safety.RoleCoherence

/-!
What a logout leaves of the privileges of a session.

The requests of one client run one after the other, on connections that are opened
one after the other. From a completed `user_logout` on, the session is watched: it
is an administrator again only after a later login as one, and leaves sudo mode
only after a later `admin_sudo`. This holds when the session is not in sudo mode
at the logout: `client_session::clear` forgets the user and the roles, but neither
the mode nor the original user.
-/

namespace Cmall
open Coroutine Protocol

/-- The watch on a session since some moment: the id of the session, if one is
watched yet, and the trace, the address of the session and the end of the heap at
that moment. -/
structure Watch where
  sessionId : Option String
  trace : List Event
  session : Nat
  heapTop : Nat

namespace Watch

/-- The session at `a` is watched from `s` on. -/
def since (s : Mem) (a : Nat) : Watch := ⟨some (s.heap a).sessionId, s.trace, a, s.heapTop⟩

/-- Nothing is watched yet. -/
def nothing (s : Mem) : Watch := ⟨none, s.trace, 0, 0⟩

/-- The object is the one that is watched, or younger. -/
def Own (w : Watch) (a : Nat) : Prop := a = w.session ∨ w.heapTop ≤ a

/-- The object at `a` is one of the watched session. -/
def Has (w : Watch) (s : Mem) (a : Nat) : Prop :=
  a < s.heapTop ∧ w.sessionId = some (s.heap a).sessionId

/-- The event is younger than the watch. -/
def Later (w : Watch) (s : Mem) (e : Event) : Prop := ∃ es, s.trace = es ++ w.trace ∧ e ∈ es

/-- Since then a login has made `uid` the user of the session. -/
def IdentifiedAs (w : Watch) (s : Mem) (uid : Nat) : Prop :=
  ∃ r a u, w.Later s (.identified r a u) ∧ w.Has s a ∧ u.uid = uid

/-- Since then a login has made someone with an administrators row the user of the
session. -/
def AdminIdentified (w : Watch) (s : Mem) : Prop :=
  ∃ uid, w.IdentifiedAs s uid ∧ (s.db.findAdministrators uid).isSome = true

/-- Since then the session has entered sudo mode. -/
def Sudoed (w : Watch) (s : Mem) : Prop :=
  ∃ r a uid, w.Later s (.sudoed r a uid) ∧ w.Has s a

/-- Every privilege in `c` was acquired since then. -/
structure Clean (w : Watch) (s : Mem) (c : ClientSession) : Prop where
  user : ∀ u, c.userInfo = some u → w.IdentifiedAs s u.uid ∨ w.Sudoed s
  admin : c.isAdmin = true → w.AdminIdentified s
  sudoMode : c.sudoMode = true → c.originalUser.isSome = true → w.Sudoed s

end Watch

/-- While the requests of connection `c` run: no later connection has a session
yet, and the sessions in use and the stored one have acquired their privileges
since the logout. -/
structure Gone (w : Watch) (c : Nat) (s : Mem) : Prop where
  later : ∀ d, c < d → (s.conn d).sessionInfo = none
  own : ∀ a, (s.conn c).sessionInfo = some a → w.Own a ∧ a < s.heapTop
  heapTop : w.heapTop ≤ s.heapTop
  trace : ∃ es, s.trace = es ++ w.trace
  session : ∀ a, w.Own a → w.Has s a → w.Clean s (s.heap a)
  row : ∀ S, w.sessionId = some S → S ≠ "" → ∀ row, s.db.findSession S = some row →
    w.Clean s (row.toSession S)
  sudoed : w.Sudoed s → w.AdminIdentified s
  sudoedAt : ∀ r a uid, w.Later s (.sudoed r a uid) → a < s.heapTop

/-! ## What stays -/

/-- Nothing that was acquired is taken back. -/
structure Grows (s t : Mem) : Prop where
  trace : ∃ es, t.trace = es ++ s.trace
  heapTop : s.heapTop ≤ t.heapTop
  sessionIds : ∀ a < s.heapTop, (t.heap a).sessionId = (s.heap a).sessionId
  admins : ∀ uid, (s.db.findAdministrators uid).isSome = true →
    (t.db.findAdministrators uid).isSome = true

def Upward (L : Mem → Prop) : Prop := ∀ s t, Grows s t → L s → L t

namespace Watch

variable {w : Watch} {s t : Mem} {a uid : Nat} {c : ClientSession} {e : Event}

theorem Has.grows (hg : Grows s t) (h : w.Has s a) : w.Has t a :=
  ⟨Nat.lt_of_lt_of_le h.1 hg.heapTop, (hg.sessionIds a h.1).symm ▸ h.2⟩

theorem Later.grows (hg : Grows s t) (h : w.Later s e) : w.Later t e := by
  obtain ⟨es, hes, he⟩ := h
  obtain ⟨es', hes'⟩ := hg.trace
  exact ⟨es' ++ es, by rw [hes', hes, List.append_assoc], List.mem_append_right _ he⟩

theorem IdentifiedAs.grows (hg : Grows s t) (h : w.IdentifiedAs s uid) : w.IdentifiedAs t uid := by
  obtain ⟨r, a, u, hl, ha, hu⟩ := h
  exact ⟨r, a, u, hl.grows hg, ha.grows hg, hu⟩

theorem AdminIdentified.grows (hg : Grows s t) (h : w.AdminIdentified s) : w.AdminIdentified t := by
  obtain ⟨uid, hid, hadmin⟩ := h
  exact ⟨uid, hid.grows hg, hg.admins uid hadmin⟩

theorem Sudoed.grows (hg : Grows s t) (h : w.Sudoed s) : w.Sudoed t := by
  obtain ⟨r, a, uid, hl, ha⟩ := h
  exact ⟨r, a, uid, hl.grows hg, ha.grows hg⟩

theorem Clean.grows (hg : Grows s t) (h : w.Clean s c) : w.Clean t c where
  user u hu := (h.user u hu).imp (·.grows hg) (·.grows hg)
  admin ha := (h.admin ha).grows hg
  sudoMode hm ho := (h.sudoMode hm ho).grows hg

/-- A session without privileges. -/
theorem clean_of_none (hu : c.userInfo = none) (ha : c.isAdmin = false)
    (hm : c.sudoMode = true → c.originalUser.isSome = false) : w.Clean s c where
  user u h := by
    rw [hu] at h
    cases h
  admin h := by
    rw [ha] at h
    cases h
  sudoMode h h' := by
    rw [hm h] at h'
    cases h'

/-- Which events are younger after some more. -/
theorem Later.cases (es : List Event) (ht : t.trace = es ++ s.trace)
    (hs : ∃ es, s.trace = es ++ w.trace) (h : w.Later t e) : e ∈ es ∨ w.Later s e := by
  obtain ⟨es', hes', he⟩ := h
  obtain ⟨es₀, hes₀⟩ := hs
  have happ : es' = es ++ es₀ := by
    rw [ht, hes₀, ← List.append_assoc] at hes'
    exact (List.append_cancel_right hes').symm
  rw [happ] at he
  rcases List.mem_append.mp he with he | he
  · exact .inl he
  · exact .inr ⟨es₀, hes₀, he⟩

theorem later_emit (hs : ∃ es, s.trace = es ++ w.trace) :
    w.Later { s with trace := e :: s.trace } e := by
  obtain ⟨es, hes⟩ := hs
  exact ⟨e :: es, by simp [hes], List.mem_cons_self ..⟩

end Watch

theorem Grows.refl (s : Mem) : Grows s s := ⟨⟨[], rfl⟩, Nat.le_refl _, fun _ _ => rfl, fun _ h => h⟩

theorem Grows.trans {s t u : Mem} (h : Grows s t) (h' : Grows t u) : Grows s u where
  trace := by
    obtain ⟨es, hes⟩ := h.trace
    obtain ⟨es', hes'⟩ := h'.trace
    exact ⟨es' ++ es, by rw [hes', hes, List.append_assoc]⟩
  heapTop := Nat.le_trans h.heapTop h'.heapTop
  sessionIds a ha :=
    (h'.sessionIds a (Nat.lt_of_lt_of_le ha h.heapTop)).trans (h.sessionIds a ha)
  admins uid ha := h'.admins uid (h.admins uid ha)

section Gone

variable {w : Watch} {c r : Nat} {s t : Mem}

/-- Every part of the memory but those that hold a session. -/
def offSession : List Part :=
  [.codes, .uuids, .accounts, .users, .apptokens, .merchants, .orders, .carts, .favs, .applys,
    .kvs, .indexGoods, .loginEvents, .accountEvents, .orderEvents, .cartEvents,
    .otherEvents, .repos]

theorem Keeps.grows {K : List Part} (hk : Keeps K r s t) (hh : .heap ∉ K)
    (ha : .administrators ∉ K) : Grows s t := by
  obtain ⟨hheap, htop⟩ := hk.heap hh
  obtain ⟨es, hes, -⟩ := hk.trace
  refine ⟨⟨es, hes⟩, htop.ge, fun a _ => by rw [hheap], fun uid h => ?_⟩
  simpa [Db.findAdministrators, hk.db.administrators ha] using h

/-- A step that records no `admin_sudo`. -/
theorem Gone.next (es : List Event) (h : Gone w c s) (hg : Grows s t)
    (ht : t.trace = es ++ s.trace) (hes : ∀ r a uid, .sudoed r a uid ∉ es)
    (hlater : ∀ d, c < d → (t.conn d).sessionInfo = none)
    (hown : ∀ a, (t.conn c).sessionInfo = some a → w.Own a ∧ a < t.heapTop)
    (hsession : ∀ a, w.Own a → w.Has t a → w.Clean t (t.heap a))
    (hrow : ∀ S, w.sessionId = some S → S ≠ "" → ∀ row, t.db.findSession S = some row →
      w.Clean t (row.toSession S)) : Gone w c t where
  later := hlater
  own := hown
  heapTop := Nat.le_trans h.heapTop hg.heapTop
  trace := by
    obtain ⟨es₀, hes₀⟩ := h.trace
    exact ⟨es ++ es₀, by rw [ht, hes₀, List.append_assoc]⟩
  session := hsession
  row := hrow
  sudoed := by
    rintro ⟨r, a, uid, hl, ha⟩
    have hl' := (hl.cases es ht h.trace).resolve_left (hes r a uid)
    have hlt := h.sudoedAt r a uid hl'
    have hs : w.Has s a := ⟨hlt, (hg.sessionIds a hlt) ▸ ha.2⟩
    exact (h.sudoed ⟨r, a, uid, hl', hs⟩).grows hg
  sudoedAt := by
    intro r a uid hl
    have hl' := (hl.cases es ht h.trace).resolve_left (hes r a uid)
    exact Nat.lt_of_lt_of_le (h.sudoedAt r a uid hl') hg.heapTop

theorem Gone.of_keeps (h : Gone w c s) (hk : Keeps offSession r s t) : Gone w c t := by
  have hg : Grows s t := hk.grows (by simp [offSession]) (by simp [offSession])
  obtain ⟨hheap, htop⟩ := hk.heap (by simp [offSession])
  have hconn := hk.conn (by simp [offSession])
  obtain ⟨es, hes, hpart⟩ := hk.trace
  have hnone : ∀ r a uid, Event.sudoed r a uid ∉ es := by
    intro r a uid he
    have := (hpart _ he).2
    simp [Event.part, offSession] at this
  refine h.next es hg hes hnone ?_ ?_ ?_ ?_
  · rw [hconn]
    exact h.later
  · rw [hconn, htop]
    exact h.own
  · intro a ha hhas
    rw [Watch.Has, htop, hheap] at hhas
    rw [hheap]
    exact (h.session a ha hhas).grows hg
  · intro S hS hne row hrow
    rw [Db.findSession, hk.db.sessions (by simp [offSession])] at hrow
    exact (h.row S hS hne row hrow).grows hg

theorem grows_setSession {a : Nat} {x : ClientSession}
    (hid : x.sessionId = (s.heap a).sessionId) : Grows s (s.setSession a x) := by
  refine ⟨⟨[], rfl⟩, Nat.le_refl _, fun b _ => ?_, fun _ h => h⟩
  by_cases hb : b = a
  · simpa [Mem.setSession, hb] using hid
  · simp [Mem.setSession, hb]

theorem Gone.setSession {a : Nat} {x : ClientSession} (h : Gone w c s)
    (hid : x.sessionId = (s.heap a).sessionId)
    (hx : w.Has s a → w.Clean s (s.heap a) → w.Clean s x) : Gone w c (s.setSession a x) := by
  have hg : Grows s (s.setSession a x) := grows_setSession hid
  refine h.next [] hg rfl (by simp) h.later h.own ?_ ?_
  · intro b hb hhas
    have hs : w.Has s b := ⟨hhas.1, (hg.sessionIds b hhas.1) ▸ hhas.2⟩
    have hc : w.Clean s ((s.setSession a x).heap b) := by
      by_cases hba : b = a
      · subst hba
        simpa [Mem.setSession] using hx hs (h.session b hb hs)
      · simpa [Mem.setSession, hba] using h.session b hb hs
    exact hc.grows hg
  · intro S hS hne row hrow
    exact (h.row S hS hne row hrow).grows hg

theorem grows_emit (s : Mem) (e : Event) : Grows s { s with trace := e :: s.trace } :=
  ⟨⟨[e], rfl⟩, Nat.le_refl _, fun _ _ => rfl, fun _ h => h⟩

theorem Gone.emit {e : Event} (h : Gone w c s) (he : e.part ≠ .sudoEvents) :
    Gone w c { s with trace := e :: s.trace } := by
  have hg := grows_emit s e
  refine h.next [e] hg rfl ?_ h.later h.own (fun a ha hhas => (h.session a ha hhas).grows hg) ?_
  · rintro r a uid hmem
    cases List.mem_singleton.mp hmem
    exact he rfl
  · exact fun S hS hne row hrow => (h.row S hS hne row hrow).grows hg

/-- A login records the user and writes it into the session. -/
theorem Gone.identify {r a : Nat} {u : CmallUser} (h : Gone w c s) :
    Gone w c ({ s with trace := .identified r a u :: s.trace }.setSession a
      { s.heap a with userInfo := some u }) := by
  have he : Gone w c { s with trace := .identified r a u :: s.trace } :=
    h.emit (by simp [Event.part])
  refine he.setSession rfl fun hhas hc => ⟨?_, hc.admin, hc.sudoMode⟩
  intro v hv
  cases hv
  exact .inl ⟨r, a, u, Watch.later_emit h.trace, hhas, rfl⟩

/-- `admin_sudo` records itself in the session of an administrator. -/
theorem Gone.emitSudoed {r a uid : Nat} (h : Gone w c s) (ha : a < s.heapTop)
    (hadmin : w.Has s a → w.AdminIdentified s) :
    Gone w c { s with trace := .sudoed r a uid :: s.trace } where
  later := h.later
  own := h.own
  heapTop := h.heapTop
  trace := by
    obtain ⟨es, hes⟩ := h.trace
    exact ⟨.sudoed r a uid :: es, by simp [hes]⟩
  session b hb hhas := (h.session b hb hhas).grows (grows_emit s _)
  row S hS hne row hrow := (h.row S hS hne row hrow).grows (grows_emit s _)
  sudoed := by
    rintro ⟨r', b, uid', hl, hb⟩
    rcases hl.cases [_] rfl h.trace with he | hl
    · cases List.mem_singleton.mp he
      exact (hadmin hb).grows (grows_emit s _)
    · exact (h.sudoed ⟨r', b, uid', hl, hb⟩).grows (grows_emit s _)
  sudoedAt := by
    intro r' b uid' hl
    rcases hl.cases [_] rfl h.trace with he | hl
    · cases List.mem_singleton.mp he
      exact ha
    · exact h.sudoedAt r' b uid' hl

/-- The session object that `newSession` puts into the connection. -/
def Mem.allocSession (s : Mem) (conn : Nat) (x : ClientSession) : Mem :=
  { s with
    heap := fun b => if b = s.heapTop then x else s.heap b
    heapTop := s.heapTop + 1
    conn := fun d => if d = conn then { s.conn d with sessionInfo := some s.heapTop }
      else s.conn d }

theorem grows_allocSession (s : Mem) (conn : Nat) (x : ClientSession) :
    Grows s (s.allocSession conn x) := by
  refine ⟨⟨[], rfl⟩, Nat.le_succ _, fun a ha => ?_, fun _ h => h⟩
  simp [Mem.allocSession, Nat.ne_of_lt ha]

theorem Gone.allocSession {x : ClientSession} (h : Gone w c s)
    (hx : w.Has (s.allocSession c x) s.heapTop → w.Clean (s.allocSession c x) x) :
    Gone w c (s.allocSession c x) := by
  have hg := grows_allocSession s c x
  refine h.next [] hg rfl (by simp) ?_ ?_ ?_ ?_
  · intro d hd
    simpa [Mem.allocSession, (Nat.ne_of_lt hd).symm] using h.later d hd
  · intro a ha
    have hnew : s.heapTop = a := by simpa [Mem.allocSession] using ha
    subst hnew
    exact ⟨.inr h.heapTop, Nat.lt_succ_self _⟩
  · intro a ha hhas
    by_cases hnew : a = s.heapTop
    · subst hnew
      simpa [Mem.allocSession] using hx hhas
    · have hlt : a < s.heapTop := by
        have := hhas.1
        simp only [Mem.allocSession] at this
        omega
      have hs : w.Has s a := ⟨hlt, (hg.sessionIds a hlt) ▸ hhas.2⟩
      simpa [Mem.allocSession, hnew] using (h.session a ha hs).grows hg
  · intro S hS hne row hrow
    exact (h.row S hS hne row hrow).grows hg

theorem Gone.setConnection {conn : Nat} {f : Connection → Connection} (h : Gone w c s)
    (hf : ∀ x, (f x).sessionInfo = x.sessionInfo) :
    Gone w c { s with conn := fun d => if d = conn then f (s.conn d) else s.conn d } := by
  have hsame : ∀ d, (if d = conn then f (s.conn d) else s.conn d).sessionInfo =
      (s.conn d).sessionInfo := by
    intro d
    split
    · exact hf _
    · rfl
  have hg : Grows s { s with conn := fun d => if d = conn then f (s.conn d) else s.conn d } :=
    ⟨⟨[], rfl⟩, Nat.le_refl _, fun _ _ => rfl, fun _ h => h⟩
  refine h.next [] hg rfl (by simp) ?_ ?_ ?_ ?_
  · intro d hd
    exact (hsame d).trans (h.later d hd)
  · intro a ha
    exact h.own a ((hsame c).symm.trans ha)
  · intro a ha hhas
    exact (h.session a ha hhas).grows hg
  · intro S hS hne row hrow
    exact (h.row S hS hne row hrow).grows hg

/-- The stored session changes. -/
theorem Gone.sessions {db : Db} (h : Gone w c s)
    (hadmins : db.administrators = s.db.administrators)
    (hrow : ∀ S, w.sessionId = some S → S ≠ "" → ∀ row, db.findSession S = some row →
      w.Clean s (row.toSession S)) : Gone w c { s with db := db } := by
  have hg : Grows s { s with db := db } := by
    refine ⟨⟨[], rfl⟩, Nat.le_refl _, fun _ _ => rfl, fun uid ha => ?_⟩
    simpa [Db.findAdministrators, hadmins] using ha
  refine h.next [] hg rfl (by simp) h.later h.own ?_ ?_
  · intro a ha hhas
    exact (h.session a ha hhas).grows hg
  · intro S hS hne row hr
    exact (hrow S hS hne row hr).grows hg

/-- The session as `persist_session::save` stores it and `load` builds it again. -/
theorem Watch.Clean.toRow {x : ClientSession} {ip : String} {now : PTime} (h : w.Clean s x) :
    w.Clean s ((x.toRow ip now).toSession x.sessionId) where
  user u hu := by
    obtain ⟨uid, huid, rfl⟩ := Option.map_eq_some_iff.mp hu
    obtain ⟨v, hv, rfl⟩ := Option.map_eq_some_iff.mp huid
    exact h.user v hv
  admin ha := by cases ha
  sudoMode hm ho := by
    have hm' : x.sudoMode = true := hm
    refine h.sudoMode hm' ?_
    simpa [CmallSession.toSession, ClientSession.toRow, hm'] using ho

/-- Only the user of the session changes, and only to one with the same uid. -/
theorem Gone.overwriteUser {a : Nat} {row : CmallUser} (h : Gone w c s)
    (hrow : w.Has s a → w.IdentifiedAs s row.uid ∨ w.Sudoed s) :
    Gone w c (s.overwriteUser a row) := by
  unfold Mem.overwriteUser
  split
  · refine h.setSession rfl fun hhas hc => ⟨?_, hc.admin, hc.sudoMode⟩
    intro u hu
    cases hu
    exact hrow hhas
  · exact h

end Gone

/-! ## The operations of a turn -/

section Handlers

variable {w : Watch} {c r : Nat} {q : Request} {ctx : Ctx} {cfg : Config} {α : Type}
  {L : Mem → Prop}

/-- The coroutine of request `r` runs alone, on connection `c`. -/
abbrev alone (w : Watch) (c r : Nat) : Protocol Request Mem Input Point := solo r (Gone w c)

/-- The coroutine keeps the watch, whatever holds before and after. -/
def GoneSafe (w : Watch) (c r : Nat) (q : Request) (x : M α) : Prop :=
  (alone w c r).Triple r q (fun _ => True) x (fun _ _ => True) (fun _ => True)

theorem GoneSafe.bind {β : Type} {x : M α} {g : α → M β} (hx : GoneSafe w c r q x)
    (hg : ∀ a, GoneSafe w c r q (g a)) : GoneSafe w c r q (x >>= g) :=
  Triple.bind hx hg

theorem GoneSafe.triple {x : M α} (h : GoneSafe w c r q x) :
    (alone w c r).Triple r q L x (fun _ _ => True) (fun _ => True) :=
  .conseq h (fun _ _ _ => trivial) (fun _ _ _ h => h) fun _ _ h => h

/-- What does not touch a session. -/
theorem triple_offSession {x : M α} (hx : x.Each (Keeps offSession r))
    (hL : ∀ s t, Keeps offSession r s t → L s → L t) :
    (alone w c r).Triple r q L x (fun _ => L) (fun _ => True) := by
  refine .conseq (.each hx solo_stable ?_) (fun _ _ h => h) (fun _ _ _ h => h)
    fun _ _ _ => trivial
  exact fun s t _ hl hk => ⟨solo_guar fun hi => hi.of_keeps hk, hL s t hk hl⟩

theorem triple_gone_of_each {x : M α} (hx : x.Each (Keeps offSession r)) (hL : Upward L) :
    (alone w c r).Triple r q L x (fun _ => L) (fun _ => True) :=
  triple_offSession hx fun s t hk =>
    hL s t (hk.grows (by simp [offSession]) (by simp [offSession]))

theorem goneSafe_of_each {x : M α} (hx : x.Each (Keeps offSession r)) : GoneSafe w c r q x :=
  triple_gone_of_each hx fun _ _ _ h => h

/-- What holds of the session at `a` if it is watched. -/
def Watch.At (w : Watch) (a : Nat) (p : Mem → Prop) (s : Mem) : Prop :=
  a < s.heapTop ∧ (w.Has s a → p s)

theorem upward_at {a : Nat} {p : Mem → Prop} (hp : Upward p) : Upward (w.At a p) := by
  intro s t hg h
  refine ⟨Nat.lt_of_lt_of_le h.1 hg.heapTop, fun hhas => hp s t hg (h.2 ⟨h.1, ?_⟩)⟩
  exact (hg.sessionIds a h.1) ▸ hhas.2

theorem upward_lt {a : Nat} : Upward fun s => a < s.heapTop :=
  fun _ _ hg h => Nat.lt_of_lt_of_le h hg.heapTop

/-- What a session needs to take on the roles of `uid`. -/
def Watch.User (w : Watch) (uid : Nat) (s : Mem) : Prop := w.IdentifiedAs s uid ∨ w.Sudoed s

theorem upward_user {uid : Nat} : Upward (w.User uid) :=
  fun _ _ hg h => h.imp (·.grows hg) (·.grows hg)

/-- What holds of the session the connection refers to if it is watched. -/
def Watch.Here (w : Watch) (c : Nat) (p : Mem → Prop) (s : Mem) : Prop :=
  ∀ a, (s.conn c).sessionInfo = some a → w.At a p s

theorem Watch.Here.grows {p : Mem → Prop} {s t : Mem} (hp : Upward p) (hg : Grows s t)
    (hconn : t.conn = s.conn) (h : w.Here c p s) : w.Here c p t :=
  fun a ha => upward_at hp s t hg (h a (hconn ▸ ha))

/-- A change of the session that keeps its id. -/
theorem triple_modifyGone {a : Nat} {f : ClientSession → ClientSession} {L' : Mem → Prop}
    (hid : ∀ x, (f x).sessionId = x.sessionId)
    (hL : ∀ s, L s → Grows s (s.setSession a (f (s.heap a))) → L' (s.setSession a (f (s.heap a))))
    (hf : ∀ s, Gone w c s → L s → w.Has s a → w.Clean s (s.heap a) → w.Clean s (f (s.heap a))) :
    (alone w c r).Triple r q L (modifySession a f) (fun _ => L') (fun _ => True) := by
  refine .modify fun s hi hl => ⟨solo_guar fun h => ?_, ?_⟩
  · exact h.setSession (hid _) (hf s h hl)
  · exact hL s hl (grows_setSession (hid _))

/-- A change that leaves the privileges as they are. -/
theorem modifySession_gone {a : Nat} {f : ClientSession → ClientSession} (hL : Upward L)
    (hf : ∀ x, (f x).sessionId = x.sessionId ∧ (f x).userInfo = x.userInfo ∧
      (f x).isAdmin = x.isAdmin ∧ (f x).sudoMode = x.sudoMode ∧
      (f x).originalUser = x.originalUser) :
    (alone w c r).Triple r q L (modifySession a f) (fun _ => L) (fun _ => True) := by
  refine triple_modifyGone (fun x => (hf x).1) (fun s hl hg => hL s _ hg hl) fun s _ _ _ hc => ?_
  obtain ⟨-, hu, ha, hm, ho⟩ := hf (s.heap a)
  refine ⟨?_, ?_, ?_⟩
  · rw [hu]
    exact hc.user
  · rw [ha]
    exact hc.admin
  · rw [hm, ho]
    exact hc.sudoMode

theorem newSession_gone {x : ClientSession} (hc : ctx.conn = c)
    (hx : ∀ s, Gone w c s → L s → w.sessionId = some x.sessionId → w.Clean s x) :
    (alone w c r).Triple r q L (newSession ctx x) (fun _ _ => True) (fun _ => True) := by
  subst hc
  refine .modify fun s hi hl => ⟨solo_guar fun h => ?_, trivial⟩
  refine Gone.allocSession (x := x) h fun hhas => (hx s h hl ?_).grows (grows_allocSession _ _ _)
  simpa [Mem.allocSession] using hhas.2

theorem became_gone {a : Nat} {op : IdentityOp} (hL : Upward L) :
    (alone w c r).Triple r q L (became ctx a op) (fun _ => L) (fun _ => True) :=
  .modify fun s _ hl =>
    ⟨solo_guar fun h => h.emit (by simp [Event.part]), hL s _ (grows_emit s _) hl⟩

theorem saveSession_gone (hc : ctx.conn = c) (hL : Upward L) :
    (alone w c r).Triple r q L (saveSession ctx) (fun _ => L) (fun _ => True) := by
  subst hc
  refine .bind (triple_thisSession fun _ _ _ => trivial) fun a => ?_
  refine .bind (Q := fun m s => (m = s ∧ w.Own a ∧ a < s.heapTop) ∧ L s) ?_ fun m => ?_
  · exact .get fun s hi h => ⟨⟨rfl, hi.own a h.1⟩, h.2⟩
  -- what was read of a watched session stays justified until it is stored
  refine .conseq (L := fun s => (w.sessionId = some (m.heap a).sessionId →
      w.Clean s (m.heap a)) ∧ L s) ?_ ?_ (fun _ _ _ h => h) fun _ _ h => h
  · refine triple_tx (fun _ => L) solo_stable (fun _ => solo_stable) (fun _ _ _ => trivial) ?_
      fun _ _ _ _ h _ => h
    intro i s hi hl _
    have hadmins : (s.db.upsetSession ((m.heap a).toRow (m.conn ctx.conn).xRealIp m.clock)
        s.clock).administrators = s.db.administrators := by
      unfold Db.upsetSession
      split <;> rfl
    refine ⟨solo_guar fun h => Gone.emit (h.sessions hadmins ?_) (by simp [Event.part]), by simp,
      fun _ _ => ?_⟩
    · intro S hS hne row hrow
      rcases Db.findSession_upset hrow with ⟨hkey, hrow⟩ | ⟨-, hrow⟩
      · have hkey' : (m.heap a).sessionId = S := hkey
        rw [CmallSession.toSession_congr hrow, ← hkey']
        exact (hl.1 (hkey' ▸ hS)).toRow
      · exact h.row S hS hne row hrow
    · refine hL s _ ⟨⟨[_], rfl⟩, Nat.le_refl _, fun _ _ => rfl, fun uid h => ?_⟩ hl.2
      simpa [Db.findAdministrators, hadmins] using h
  · rintro s hi ⟨⟨rfl, hown, hlt⟩, hl⟩
    exact ⟨fun hS => hi.session a hown ⟨hlt, hS⟩, hl⟩

/-- A stored session that is watched has acquired its privileges since the logout. -/
theorem loadRow_gone {sessionid : String} {after : Option CmallSession → Spot}
    (hne : sessionid ≠ "") :
    (alone w c r).Triple r q (fun _ => True)
      (asyncLoad ctx (fun db => db.findSession sessionid) after)
      (fun found s => ∀ row, found = some row → row.cacheKey = sessionid ∧
        (w.sessionId = some sessionid → w.Clean s (row.toSession sessionid))) (fun _ => True) := by
  refine triple_asyncLoad _ solo_stable (fun _ => solo_stable) (fun _ _ _ => trivial) ?_
    fun _ _ _ _ h _ => h
  intro s hi _ row hrow
  exact ⟨Table.find_key hrow, fun hS => hi.row sessionid hS hne row hrow⟩

/-- What is read of the row stays justified until it is written back. -/
theorem updateLifetime_gone {sessionid : String} (hne : sessionid ≠ "") :
    GoneSafe w c r q (updateLifetime ctx sessionid) := by
  refine .bind (goneSafe_of_each each_get) fun m => ?_
  refine Triple.bind (loadRow_gone hne) fun found => ?_
  split
  · rename_i row
    refine triple_tx (fun _ _ => True) solo_stable (fun _ => solo_stable) (fun _ _ _ => trivial) ?_
      fun _ _ _ _ _ _ => trivial
    intro i s hi hl _
    refine ⟨solo_guar fun h => h.sessions rfl ?_, by simp, fun _ _ => trivial⟩
    intro S hS hne' row' hrow'
    rcases Table.find_update_cases hrow' with ⟨hkey, rfl⟩ | ⟨-, hrow'⟩
    · have hkey' : row.cacheKey = S := hkey
      obtain ⟨hid, hclean⟩ := hl row rfl
      have hc := hclean (by rw [hS, ← hkey', hid])
      rw [← hkey', hid]
      exact ⟨hc.user, hc.admin, hc.sudoMode⟩
    · exact h.row S hS hne' row' hrow'
  · exact .ret fun _ _ _ => trivial

theorem restoreSession_gone (hc : ctx.conn = c) {sessionid : String} (hne : sessionid ≠ "") :
    GoneSafe w c r q (restoreSession ctx sessionid) := by
  simp only [restoreSession, loadSession]
  refine Triple.bind (Q := fun x s => w.sessionId = some x.sessionId → w.Clean s x)
    (Triple.bind (loadRow_gone hne) fun found => ?_) fun x =>
      newSession_gone hc fun s _ hl hS => hl hS
  split
  · rename_i row
    exact .ret fun s _ h => (h row rfl).2
  · exact .throw fun _ _ _ => trivial

theorem thisSession_gone (hc : ctx.conn = c) :
    (alone w c r).Triple r q L (thisSession ctx)
      (fun a s => w.Own a ∧ a < s.heapTop ∧ (s.conn c).sessionInfo = some a ∧ L s)
      (fun _ => True) := by
  subst hc
  refine .conseq (triple_thisSession fun _ _ _ => trivial) (fun _ _ h => h) ?_ fun _ _ h => h
  intro a s hi h
  exact ⟨(hi.own a h.1).1, (hi.own a h.1).2, h.1, h.2⟩

/-- The user of a session in use was acquired by it. -/
theorem thisUser_gone {a : Nat} (hown : w.Own a) :
    (alone w c r).Triple r q (fun s => a < s.heapTop ∧ L s) (thisUser a)
      (fun u s => w.At a (w.User u.uid) s ∧ L s) (fun _ => True) := by
  refine .conseq (triple_thisUser a fun _ _ _ => trivial) (fun _ _ h => h) ?_ fun _ _ h => h
  rintro u s hi ⟨hu, hlt, hl⟩
  exact ⟨⟨hlt, fun hhas => (hi.session a hown hhas).user u hu⟩, hl⟩

theorem reloadUser_gone {a uid : Nat} {after : Bool → Spot} :
    (alone w c r).Triple r q (w.At a (w.User uid)) (reloadUser ctx a uid after)
      (fun _ s => a < s.heapTop) (fun _ => True) := by
  refine triple_tx (fun _ s => a < s.heapTop) solo_stable (fun _ => solo_stable)
    (fun _ _ _ => trivial) ?_ fun _ _ _ _ h _ => h
  intro i s hi hl _
  split
  · rename_i row hrow
    have huid := Db.findUser_uid hrow
    refine ⟨solo_guar fun h => h.overwriteUser ?_, by simp, fun _ _ => ?_⟩
    · rw [huid]
      exact hl.2
    · simp only [Mem.overwriteUser]
      split <;> exact hl.1
  · exact ⟨(alone w c r).guar_refl _ _ _, by simp, fun _ _ => hl.1⟩

theorem updateUser_gone {a uid : Nat} {f : CmallUser → CmallUser} (hf : ∀ v, (f v).uid = v.uid) :
    (alone w c r).Triple r q (w.At a (w.User uid)) (updateUser ctx a uid f)
      (fun _ s => a < s.heapTop) (fun _ => True) := by
  refine triple_tx (fun _ s => a < s.heapTop) solo_stable (fun _ => solo_stable)
    (fun _ _ _ => trivial) ?_ fun _ _ _ _ h _ => h
  intro i s hi hl _
  split
  · rename_i row hrow
    have huid := (hf row).trans (Db.findUser_uid hrow)
    refine ⟨solo_guar fun h => ?_, by simp, fun _ _ => ?_⟩
    · have hover : Gone w c (s.overwriteUser a (f row)) := h.overwriteUser (huid ▸ hl.2)
      exact hover.sessions rfl hover.row
    · simp only [Mem.overwriteUser]
      split <;> exact hl.1
  · exact ⟨(alone w c r).guar_refl _ _ _, by simp, fun _ _ => hl.1⟩

/-! ## Login -/

/-- The coroutine works on the session at `a`. -/
def SessionSafe (w : Watch) (c r : Nat) (q : Request) (a : Nat) (x : M α) : Prop :=
  (alone w c r).Triple r q (fun s => a < s.heapTop) x (fun _ s => a < s.heapTop) (fun _ => True)

theorem SessionSafe.bind {β : Type} {a : Nat} {x : M α} {g : α → M β}
    (hx : SessionSafe w c r q a x) (hg : ∀ b, SessionSafe w c r q a (g b)) :
    SessionSafe w c r q a (x >>= g) :=
  Triple.bind hx hg

theorem sessionSafe_of_each {a : Nat} {x : M α} (hx : x.Each (Keeps offSession r)) :
    SessionSafe w c r q a x :=
  triple_gone_of_each hx upward_lt

/-- The login of `u` is written into the session and recorded. -/
theorem triple_identify_gone {β : Type} {a : Nat} {u : CmallUser} {k : Unit → M β}
    {Q : β → Mem → Prop} {E : Mem → Prop} (hL : Upward L)
    (hk : (alone w c r).Triple r q (fun s => w.At a (fun s => w.IdentifiedAs s u.uid) s ∧ L s)
      (k ()) Q E) :
    (alone w c r).Triple r q (fun s => a < s.heapTop ∧ L s)
      (modifySession a (fun x => { x with userInfo := some u }) >>= fun _ =>
        emit (.identified r a u) >>= k) Q E := by
  refine .modify_modify (.bind (.modify fun s hi hl => ⟨solo_guar fun h => h.identify, ?_, ?_⟩)
    fun _ => hk)
  · exact ⟨hl.1, fun hhas => ⟨r, a, u, Watch.later_emit hi.trace, hhas, rfl⟩⟩
  · have hset : Grows s (s.setSession a { s.heap a with userInfo := some u }) :=
      grows_setSession rfl
    exact hL s _ (hset.trans (grows_emit _ _)) hl.2

theorem loginMerchant_gone {a uid : Nat} (hL : Upward L) :
    (alone w c r).Triple r q L (loginMerchant ctx a uid) (fun _ => L) (fun _ => True) := by
  simp only [loginMerchant]
  refine .bind (triple_gone_of_each (asyncLoad_each _ _) hL) fun m => ?_
  split
  · split
    · exact modifySession_gone hL fun x => ⟨rfl, rfl, rfl, rfl, rfl⟩
    · exact .ret fun _ _ h => h
  · exact .ret fun _ _ h => h

/-- The look-up of an administrators row, and that it is there. -/
theorem loadAdministrators_gone {uid : Nat} {after : Option Administrators → Spot} :
    (alone w c r).Triple r q L (asyncLoad ctx (fun db => db.findAdministrators uid) after)
      (fun found s => (found.isSome = true → (s.db.findAdministrators uid).isSome = true) ∧ L s)
      (fun _ => True) := by
  refine triple_asyncLoad _ solo_stable (fun _ => solo_stable) (fun _ _ _ => trivial) ?_
    fun _ _ _ _ h _ => h
  exact fun s _ hl => ⟨fun h => h, hl⟩

theorem loginAdmin_gone {a uid : Nat} :
    (alone w c r).Triple r q (w.At a fun s => w.IdentifiedAs s uid) (loginAdmin ctx a uid)
      (fun _ s => a < s.heapTop) (fun _ => True) := by
  simp only [loginAdmin]
  refine .bind loadAdministrators_gone fun found => ?_
  split
  · refine triple_modifyGone (fun _ => rfl) (fun s hl _ => hl.2.1) ?_
    intro s hi hl hhas hc
    exact ⟨hc.user, fun _ => ⟨uid, hl.2.2 hhas, hl.1 rfl⟩, hc.sudoMode⟩
  · exact .ret fun _ _ h => h.2.1

theorem loginNewUser_gone (hc : ctx.conn = c) (hr : ctx.req = r) {a : Nat} :
    SessionSafe w c r q a (loginNewUser ctx) := by
  simp only [loginNewUser, hr]
  refine .bind (sessionSafe_of_each thisSession_each) fun b => ?_
  refine .bind (sessionSafe_of_each (getSession_each b)) fun x => ?_
  refine .bind (sessionSafe_of_each localTime_each) fun now => ?_
  refine .bind (sessionSafe_of_each (hr ▸ addUser_each _ ?_ ?_ ?_)) fun u => ?_
  · simp [offSession]
  · simp [offSession]
  · simp [offSession]
  · refine Triple.bind (thisSession_gone hc) fun b => .pure fun _ => ?_
    refine .conseq (triple_identify_gone (upward_lt (a := a)) ?_)
      (fun s _ h => ⟨h.1, h.2.2⟩) (fun _ _ _ h => h) fun _ _ h => h
    refine .conseq (L := fun s => a < s.heapTop) ?_ (fun _ _ h => h.2) (fun _ _ _ h => h)
      fun _ _ h => h
    exact .bind (became_gone upward_lt) fun _ =>
      triple_gone_of_each (callCheckAdmin_each u) upward_lt

theorem handleUserLogin_gone (hc : ctx.conn = c) (hr : ctx.req = r) {a : Nat} {tel : String} :
    SessionSafe w c r q a (handleUserLogin ctx a tel) := by
  have hcookie : SessionSafe w c r q a
      (modifySession a fun x => { x with verifySessionCookie := none }) :=
    modifySession_gone upward_lt fun x => ⟨rfl, rfl, rfl, rfl, rfl⟩
  have hsave : SessionSafe w c r q a (saveSession ctx) := saveSession_gone hc upward_lt
  have hload : (loadUserByPhone ctx a tel).Each (Keeps offSession r) :=
    hr ▸ loadUserByPhone_each a tel (by simp [offSession])
  simp only [handleUserLogin, hr]
  refine .bind (sessionSafe_of_each hload) fun found => ?_
  split
  · rename_i u
    refine .conseq (triple_identify_gone (L := fun _ => True) (fun _ _ _ _ => trivial) ?_)
      (fun s _ h => ⟨h, trivial⟩) (fun _ _ _ h => h) fun _ _ h => h
    refine .conseq (L := w.At a fun s => w.IdentifiedAs s u.uid) ?_ (fun _ _ h => h.1)
      (fun _ _ _ h => h) fun _ _ h => h
    refine .bind (became_gone (upward_at fun _ _ hg h => h.grows hg)) fun _ => ?_
    refine .bind (loginMerchant_gone (upward_at fun _ _ hg h => h.grows hg)) fun _ => ?_
    refine .bind loginAdmin_gone fun _ => ?_
    refine SessionSafe.bind hcookie fun _ => .bind hsave fun _ => ?_
    refine .bind (sessionSafe_of_each (getSession_each a)) fun x => ?_
    exact .bind (sessionSafe_of_each pushActive_each) fun _ => sessionSafe_of_each (each_pure _)
  · refine .bind (loginNewUser_gone hc hr) fun _ => ?_
    refine .bind hcookie fun _ => .bind hsave fun _ => ?_
    refine .bind (sessionSafe_of_each (getSession_each a)) fun x => ?_
    exact .bind (sessionSafe_of_each pushActive_each) fun _ => sessionSafe_of_each (each_pure _)

/-! ## Recovery -/

theorem allocaSessionid_gone (hc : ctx.conn = c) : GoneSafe w c r q (allocaSessionid ctx) := by
  have hfresh : (alone w c r).Triple r q (fun _ => True) (freshSession ctx)
      (fun x _ => x = { sessionId := x.sessionId } ∧ True) (fun _ => True) :=
    .bind (Q := fun _ _ => True) (goneSafe_of_each (genUuid_each (by simp [offSession])))
      fun id => .ret fun _ _ _ => ⟨rfl, trivial⟩
  refine Triple.bind hfresh fun x => .pure fun hx => ?_
  refine .bind (newSession_gone hc fun s _ _ _ => ?_) fun _ =>
    saveSession_gone hc fun _ _ _ h => h
  rw [hx]
  exact Watch.clean_of_none rfl rfl fun _ => rfl

theorem recoverMerchant_gone {p : Mem → Prop} (hc : ctx.conn = c) (hp : Upward p) (uid : Nat) :
    (alone w c r).Triple r q (w.Here c p) (recoverMerchant ctx uid) (fun _ => w.Here c p)
      (fun _ => True) := by
  simp only [recoverMerchant]
  refine .bind (Q := fun _ => w.Here c p) ?_ fun m => ?_
  · exact triple_asyncLoad (fun _ => w.Here c p) solo_stable (fun _ => solo_stable)
      (fun _ _ _ => trivial) (fun _ _ h => h) fun _ _ _ _ h _ => h
  split
  · refine .bind (thisSession_gone hc) fun a => ?_
    refine triple_modifyGone (fun _ => rfl) (fun s hl hg => hl.2.2.2.grows hp hg rfl) ?_
    exact fun s _ _ _ h => ⟨h.user, h.admin, h.sudoMode⟩
  · exact .ret fun _ _ h => h

theorem recoverAdmin_gone (hc : ctx.conn = c) (uid : Nat) :
    (alone w c r).Triple r q (w.Here c (w.User uid)) (recoverAdmin ctx uid) (fun _ _ => True)
      (fun _ => True) := by
  simp only [recoverAdmin]
  refine .bind loadAdministrators_gone fun found => ?_
  split
  · refine .bind (thisSession_gone hc) fun a => ?_
    refine triple_modifyGone (fun _ => rfl) (fun _ _ _ => trivial) ?_
    rintro s hi ⟨-, -, hconn, hadmin, hhere⟩ hhas h
    refine ⟨h.user, fun _ => ?_, h.sudoMode⟩
    rcases (hhere a hconn).2 hhas with hid | hsudoed
    · exact ⟨uid, hid, hadmin rfl⟩
    · exact hi.sudoed hsudoed
  · exact .ret fun _ _ _ => trivial

theorem recoverSudo_gone (hc : ctx.conn = c) : GoneSafe w c r q (recoverSudo ctx) := by
  simp only [recoverSudo]
  refine Triple.bind (thisSession_gone hc) fun a => .bind (triple_getSession a) fun x => ?_
  split
  · rename_i hmode
    split
    · exact .throw fun _ _ _ => trivial
    · rename_i o ho
      -- in sudo mode with an original user, the session has entered it since the logout
      refine .conseq (L := w.Here c w.Sudoed) ?_ ?_ (fun _ _ _ h => h) fun _ _ h => h
      · refine .bind (Q := fun _ => w.Here c w.Sudoed) ?_ fun loaded => ?_
        · exact triple_asyncLoad (fun _ => w.Here c w.Sudoed) solo_stable (fun _ => solo_stable)
            (fun _ _ _ => trivial) (fun _ _ h => h) fun _ _ _ _ h _ => h
        · refine .bind (thisSession_gone hc) fun b => ?_
          refine triple_modifyGone (fun _ => rfl) (fun _ _ _ => trivial) ?_
          rintro s hi ⟨-, -, hconn, hhere⟩ hhas h
          exact ⟨h.user, h.admin, fun _ _ => (hhere b hconn).2 hhas⟩
      · rintro s hi ⟨hx, hown, hlt, hconn, -⟩ b hb
        cases hconn.symm.trans hb
        refine ⟨hlt, fun hhas => (hi.session a hown hhas).sudoMode ?_ ?_⟩
        · rw [← hx]
          exact hmode
        · rw [← hx, ho]
          rfl
  · exact .ret fun _ _ _ => trivial

/-- The user of the session the connection refers to. -/
theorem hereUser_gone {β : Type} (hc : ctx.conn = c) {k : CmallUser → M β}
    (hk : ∀ u, (alone w c r).Triple r q (w.Here c (w.User u.uid)) (k u) (fun _ _ => True)
      (fun _ => True)) :
    GoneSafe w c r q (do k (← thisUser (← thisSession ctx))) := by
  refine Triple.bind (thisSession_gone hc) fun a => .pure fun hown => ?_
  refine .bind (.conseq (thisUser_gone hown) (fun s _ h => ⟨h.1, h.2.1⟩) (fun _ _ _ h => h)
    fun _ _ h => h) fun u => .conseq (hk u) ?_ (fun _ _ _ h => h) fun _ _ h => h
  rintro s _ ⟨hat, hconn⟩ b hb
  cases hconn.symm.trans hb
  exact hat

theorem loadUserInfo_gone (hc : ctx.conn = c) : GoneSafe w c r q (loadUserInfo ctx) := by
  simp only [loadUserInfo]
  refine Triple.bind (thisSession_gone hc) fun a => .pure fun hown => ?_
  refine .bind (Q := fun u s => w.At a (w.User u.uid) s ∧ True) ?_ fun u => ?_
  · exact .conseq (thisUser_gone hown) (fun s _ h => ⟨h.1, trivial⟩) (fun _ _ _ h => h)
      fun _ _ h => h
  refine .bind (.conseq reloadUser_gone (fun _ _ h => h.1) (fun _ _ _ h => h) fun _ _ h => h)
    fun found => GoneSafe.triple ?_
  split
  · refine Triple.bind (thisSession_gone hc) fun b => ?_
    refine triple_modifyGone (fun _ => rfl) (fun _ _ _ => trivial) ?_
    exact fun s _ _ _ h => ⟨fun u hu => (by cases hu), h.admin, h.sudoMode⟩
  · refine hereUser_gone hc fun u => ?_
    refine .bind (recoverMerchant_gone hc upward_user u.uid) fun _ => GoneSafe.triple ?_
    refine hereUser_gone hc fun v => ?_
    refine .bind (recoverAdmin_gone hc v.uid) fun _ => ?_
    exact GoneSafe.bind (recoverSudo_gone hc) fun _ => goneSafe_of_each pushActive_each

theorem recoverBySessionid_gone (hc : ctx.conn = c) (sessionid : String) :
    GoneSafe w c r q (recoverBySessionid ctx sessionid) := by
  simp only [recoverBySessionid]
  repeat' first
    | with_reducible exact allocaSessionid_gone hc
    | (with_reducible refine restoreSession_gone hc ?_; assumption)
    | (with_reducible refine updateLifetime_gone ?_; assumption)
    | with_reducible exact loadUserInfo_gone hc
    | with_reducible refine .bind ?_ fun _ => ?_
    | (refine goneSafe_of_each ?_; simp; done)
    | split

/-- A new session of the user `u`, recorded as a login. -/
theorem triple_apiSession {β : Type} {x : ClientSession} {u : CmallUser} {k : Unit → M β}
    {Q : β → Mem → Prop} {E : Mem → Prop} (hc : ctx.conn = c) (hr : ctx.req = r)
    (hu : x.userInfo = some u) (ha : x.isAdmin = false) (hm : x.sudoMode = false)
    (hk : (alone w c r).Triple r q (w.Here c (w.User u.uid)) (k ()) Q E) :
    (alone w c r).Triple r q L (newSession ctx x >>= fun _ => thisSession ctx >>= fun a =>
      emit (.identified ctx.req a u) >>= k) Q E := by
  subst hc hr
  intro s₀ s hi hg _
  let m : Mem := { s with trace := .identified ctx.req s.heapTop u :: s.trace }
  have hs : Gone w ctx.conn s := (alone w ctx.conn ctx.req).guar_inv _ _ _ _ hi hg
  have hid : ∀ t, Grows m t → w.Has t s.heapTop → w.IdentifiedAs t u.uid := by
    intro t hgrow hhas
    exact ⟨ctx.req, s.heapTop, u, (Watch.later_emit hs.trace).grows hgrow, hhas, rfl⟩
  have hgrow := grows_allocSession m ctx.conn x
  have hgone : Gone w ctx.conn s → Gone w ctx.conn (m.allocSession ctx.conn x) := by
    intro h
    have hm' : Gone w ctx.conn m := h.emit (by simp [Event.part, offSession])
    refine hm'.allocSession fun hhas => ⟨fun v hv => ?_, fun h => ?_, fun h => ?_⟩
    · cases hu.symm.trans hv
      exact .inl (hid _ hgrow hhas)
    · cases ha.symm.trans h
    · cases hm.symm.trans h
  have hhere : w.Here ctx.conn (w.User u.uid) (m.allocSession ctx.conn x) := by
    intro b hb
    have hb' : s.heapTop = b := by simpa [Mem.allocSession, m] using hb
    subst hb'
    exact ⟨Nat.lt_succ_self _, fun hhas => .inl (hid _ hgrow hhas)⟩
  have hsafe := hk s₀ (m.allocSession ctx.conn x) hi
    ((alone w ctx.conn ctx.req).guar_trans _ _ _ _ _ hg (solo_guar hgone)) hhere
  simpa [newSession, thisSession, emit, Mem.allocSession, m] using hsafe

theorem recoverByApiToken_gone (hc : ctx.conn = c) (hr : ctx.req = r) (apiToken : String) :
    GoneSafe w c r q (recoverByApiToken ctx apiToken) := by
  simp only [recoverByApiToken]
  refine .bind (goneSafe_of_each (apiTokenUid_each _)) fun uid => ?_
  refine Triple.bind (Q := fun (found : Option CmallUser) _ =>
    (∀ u, found = some u → u.uid = uid) ∧ True) ?_ fun found => .pure fun hfound => ?_
  · refine triple_asyncLoad _ solo_stable (fun _ => solo_stable) (fun _ _ _ => trivial) ?_
      fun _ _ _ _ h _ => h
    exact fun s _ _ => ⟨fun u hu => Db.findUser_uid hu, trivial⟩
  split
  · exact goneSafe_of_each (each_ret _)
  · rename_i u
    have huid := hfound u rfl
    refine Triple.bind (Q := fun (x : ClientSession) _ =>
      (x.isAdmin = false ∧ x.sudoMode = false) ∧ True) ?_ fun x => .pure fun hx => ?_
    · exact .bind (Q := fun _ _ => True) (goneSafe_of_each (genUuid_each (by simp [offSession])))
        fun id => .ret fun _ _ _ => ⟨⟨rfl, rfl⟩, trivial⟩
    · refine triple_apiSession hc hr rfl hx.1 hx.2 ?_
      rw [huid]
      refine .bind (recoverMerchant_gone hc upward_user uid) fun _ => ?_
      refine .bind (recoverAdmin_gone hc uid) fun _ => ?_
      refine GoneSafe.bind (goneSafe_of_each thisSession_each) fun a => ?_
      exact .bind (goneSafe_of_each (getSession_each a)) fun _ => goneSafe_of_each (each_pure _)

theorem recoverByCookie_gone (hc : ctx.conn = c) (cookies : List String) :
    GoneSafe w c r q (recoverByCookie ctx cookies) := by
  induction cookies with
  | nil => exact goneSafe_of_each (each_ret _)
  | cons sessionid rest ih =>
    simp only [recoverByCookie]
    repeat' first
      | (with_reducible refine restoreSession_gone hc ?_; assumption)
      | (with_reducible refine updateLifetime_gone ?_; assumption)
      | with_reducible exact loadUserInfo_gone hc
      | with_reducible exact ih
      | with_reducible refine .bind ?_ fun _ => ?_
      | (refine goneSafe_of_each ?_; simp)
      | split

theorem setConnection_gone {f : Connection → Connection}
    (hf : ∀ x, (f x).sessionInfo = x.sessionInfo) : GoneSafe w c r q (setConnection ctx f) :=
  .modify fun s _ _ => ⟨solo_guar fun h => h.setConnection hf, trivial⟩

theorem clientConnected_gone (hc : ctx.conn = c) (ip : String) (cookies : List String)
    (alloca : Bool) : GoneSafe w c r q (clientConnected ctx ip cookies alloca) := by
  simp only [clientConnected]
  refine .bind (setConnection_gone fun _ => rfl) fun _ => ?_
  repeat' first
    | with_reducible exact allocaSessionid_gone hc
    | with_reducible exact recoverByCookie_gone hc _
    | with_reducible refine .bind ?_ fun _ => ?_
    | (refine goneSafe_of_each ?_; simp; done)
    | split

/-! ## Sudo -/

theorem adminSudoTo_gone (hc : ctx.conn = c) (hr : ctx.req = r) {a actor uid : Nat} :
    (alone w c r).Triple r q (w.At a w.AdminIdentified) (adminSudoTo ctx a actor uid)
      (fun _ _ => True) (fun _ => True) := by
  have hup : Upward (w.At a w.AdminIdentified) := upward_at fun _ _ hg h => h.grows hg
  simp only [adminSudoTo, hr]
  refine .bind (triple_gone_of_each (asyncLoad_each _ _) hup) fun found => ?_
  split
  · exact .throw fun _ _ _ => trivial
  · rename_i u
    refine .bind (triple_gone_of_each (asyncLoad_each _ _) hup) fun m => ?_
    refine .modify_modify (.bind (Q := fun _ _ => True) (.modify fun s hi hl =>
      ⟨solo_guar fun h => ?_, trivial⟩) fun _ => ?_)
    · have he : Gone w c { s with trace := .sudoed r a uid :: s.trace } :=
        h.emitSudoed hl.1 hl.2
      refine he.setSession (x := (s.heap a).sudoTo u m) rfl fun hhas _ => ?_
      have hsudoed : w.Sudoed { s with trace := .sudoed r a uid :: s.trace } :=
        ⟨r, a, uid, Watch.later_emit h.trace, hhas⟩
      exact ⟨fun _ _ => .inr hsudoed, fun h => (by cases h), fun _ _ => hsudoed⟩
    · refine GoneSafe.bind (became_gone fun _ _ _ h => h) fun _ => ?_
      refine .bind (saveSession_gone hc fun _ _ _ h => h) fun _ => ?_
      exact .bind (goneSafe_of_each (getSession_each a)) fun _ => goneSafe_of_each (each_pure _)

theorem adminSudo_gone (hc : ctx.conn = c) (hr : ctx.req = r) {a : Nat} (params : JsonObject) :
    (alone w c r).Triple r q (w.At a w.AdminIdentified) (adminSudo ctx a params)
      (fun _ _ => True) (fun _ => True) := by
  have hup : Upward (w.At a w.AdminIdentified) := upward_at fun _ _ hg h => h.grows hg
  have hrest : ∀ uid, (alone w c r).Triple r q (w.At a w.AdminIdentified) (do
      let actor := (← thisUser a).uid
      if uid = actor then Co.throw (.system .cannotSudo)
      else adminSudoTo ctx a actor uid : M Reply) (fun _ _ => True) (fun _ => True) := by
    intro uid
    refine .bind (triple_gone_of_each (thisUser_each a) hup) fun u => ?_
    dsimp only
    split
    · exact .throw fun _ _ _ => trivial
    · exact adminSudoTo_gone hc hr
  simp only [adminSudo]
  split
  · exact hrest _
  · exact hrest _
  · exact .bind (Q := fun _ => w.At a w.AdminIdentified) (.throw fun _ _ _ => trivial) hrest

/-- `admin_sudo_cancel` in a session that has entered sudo mode since the logout. -/
theorem adminSudoCancel_gone (hc : ctx.conn = c) {a : Nat} (hL : Upward L) :
    (alone w c r).Triple r q (fun s => w.At a w.Sudoed s ∧ L s) (adminSudoCancel ctx a)
      (fun _ => L) (fun _ => True) := by
  have hup : Upward fun s => w.At a w.Sudoed s ∧ L s :=
    fun s t hg h => ⟨upward_at (fun _ _ hg h => h.grows hg) s t hg h.1, hL s t hg h.2⟩
  simp only [adminSudoCancel]
  refine .bind (triple_gone_of_each (originalUser_each a) hup) fun o => ?_
  refine .bind (triple_gone_of_each (asyncLoad_each _ _) hup) fun m => ?_
  refine .bind (triple_gone_of_each (originalUser_each a) hup) fun u => ?_
  refine .bind (Q := fun _ => L) ?_ fun _ => ?_
  · refine triple_modifyGone (fun _ => rfl) (fun s hl hg => hL s _ hg hl.2) ?_
    intro s hi hl hhas _
    have hsudoed := hl.1.2 hhas
    exact ⟨fun _ _ => .inr hsudoed, fun _ => hi.sudoed hsudoed, fun h => (by cases h)⟩
  · refine .bind (became_gone hL) fun _ => .bind (saveSession_gone hc hL) fun _ => ?_
    refine .bind (triple_gone_of_each (getSession_each a) hL) fun x => ?_
    exact .ret fun _ _ h => h

/-- The guard of the administrators' requests. -/
theorem ensureAdmin_gone (hc : ctx.conn = c) :
    (alone w c r).Triple r q (fun _ => True) (ensureLogin ctx true)
      (fun _ => w.Here c w.AdminIdentified) (fun _ => True) := by
  simp only [ensureLogin]
  refine .bind (thisSession_gone hc) fun a => .bind (triple_getSession a) fun x => ?_
  split
  · exact .throw fun _ _ _ => trivial
  · split
    · exact .throw fun _ _ _ => trivial
    · rename_i hadmin
      split
      · exact .throw fun _ _ _ => trivial
      · refine .ret ?_
        rintro s hi ⟨rfl, hown, hlt, hconn, -⟩ b hb
        cases hconn.symm.trans hb
        refine ⟨hlt, fun hhas => (hi.session a hown hhas).admin ?_⟩
        simpa using hadmin

theorem call_adminSudo_gone (hc : ctx.conn = c) (hr : ctx.req = r) (params : JsonObject) :
    GoneSafe w c r q (handleJsonrpcCall cfg ctx .adminSudo params) := by
  refine .bind (goneSafe_of_each each_get) fun m => ?_
  split
  · exact goneSafe_of_each (each_throw _)
  · refine Triple.bind (ensureAdmin_gone hc) fun _ => ?_
    refine .bind (thisSession_gone hc) fun a => ?_
    exact .conseq (adminSudo_gone hc hr params) (fun s _ h => h.2.2.2 a h.2.2.1)
      (fun _ _ _ h => h) fun _ _ h => h

/-- `admin_sudo_cancel` is answered only in a session that, if it is watched (`p`),
has entered sudo mode since the logout. -/
theorem call_adminSudoCancel_gone (hc : ctx.conn = c) (params : JsonObject) (b : Nat) (p : Prop) :
    (alone w c r).Triple r q
      (fun s => (s.conn c).sessionInfo = some b ∧ (p → w.Has s b))
      (handleJsonrpcCall cfg ctx .adminSudoCancel params) (fun _ s => p → w.Sudoed s)
      (fun _ => True) := by
  refine .bind (Q := fun _ s => (s.conn c).sessionInfo = some b ∧ (p → w.Has s b))
    (.get fun _ _ h => h) fun m => ?_
  split
  · exact .throw fun _ _ _ => trivial
  · refine .bind (thisSession_gone hc) fun a => .bind (triple_getSession a) fun x => ?_
    split
    · rename_i hsudo
      refine .conseq (L := fun s => (s.conn c).sessionInfo = some b ∧
        w.At b w.Sudoed s ∧ (p → w.Sudoed s)) ?_ ?_ (fun _ _ _ h => h) fun _ _ h => h
      · refine .bind (thisSession_gone hc) fun a' => ?_
        refine .conseq (L := fun s => a' = b ∧ w.At b w.Sudoed s ∧ (p → w.Sudoed s)) (.pure ?_) ?_
          (fun _ _ _ h => h) fun _ _ h => h
        · rintro rfl
          exact adminSudoCancel_gone hc fun s t hg h hp => (h hp).grows hg
        · rintro s _ ⟨-, -, ha, hb, hat⟩
          exact ⟨Option.some.inj (ha.symm.trans hb), hat⟩
      · rintro s hi ⟨rfl, hown, hlt, hconn, hb, hp⟩
        cases hconn.symm.trans hb
        have hsudoed : w.Has s b → w.Sudoed s := fun hhas =>
          (hi.session b hown hhas).sudoMode hsudo.1 hsudo.2
        exact ⟨hb, ⟨hlt, hsudoed⟩, fun h => hsudoed (hp h)⟩
    · exact .throw fun _ _ _ => trivial

/-! ## The other requests -/

theorem userLogout_gone (hc : ctx.conn = c) (hr : ctx.req = r) :
    GoneSafe w c r q (userLogout ctx) := by
  simp only [userLogout, hr]
  refine .bind (goneSafe_of_each eraseActive_each) fun _ => ?_
  refine .bind (goneSafe_of_each thisSession_each) fun a => ?_
  refine Triple.bind (Q := fun _ _ => True) ?_ fun _ => ?_
  · refine triple_modifyGone (fun _ => rfl) (fun _ _ _ => trivial) fun s _ _ _ h => ?_
    exact ⟨fun u hu => (by cases hu), fun h => (by cases h), h.sudoMode⟩
  · refine GoneSafe.bind (goneSafe_of_each (emit_each (e := .loggedOut r a) ?_ rfl)) fun _ => ?_
    · simp [Event.part, offSession]
    refine .bind (became_gone fun _ _ _ h => h) fun _ => ?_
    refine .bind (goneSafe_of_each (getSession_each a)) fun x => ?_
    split
    · exact .bind (saveSession_gone hc fun _ _ _ h => h) fun _ => goneSafe_of_each (each_pure _)
    · exact goneSafe_of_each (each_pure _)

/-- The user of the session at `a` is loaded again. -/
theorem reloadThisUser_gone {β : Type} {a : Nat} {after : Bool → Spot} {k : Bool → M β}
    (hown : w.Own a) (hk : ∀ ok, SessionSafe w c r q a (k ok)) :
    SessionSafe w c r q a (thisUser a >>= fun u => reloadUser ctx a u.uid after >>= k) := by
  refine Triple.bind (.conseq (thisUser_gone (L := fun _ => True) hown)
    (fun s _ h => ⟨h, trivial⟩) (fun _ _ _ h => h.1) fun _ _ h => h) fun u => ?_
  exact .bind reloadUser_gone hk

/-- The row of the user of the session at `a` is changed. -/
theorem updateThisUser_gone {β : Type} {a : Nat} {f : CmallUser → CmallUser} {k : Bool → M β}
    (hown : w.Own a) (hf : ∀ v, (f v).uid = v.uid) (hk : ∀ ok, SessionSafe w c r q a (k ok)) :
    SessionSafe w c r q a (thisUser a >>= fun u => updateUser ctx a u.uid f >>= k) := by
  refine Triple.bind (.conseq (thisUser_gone (L := fun _ => True) hown)
    (fun s _ h => ⟨h, trivial⟩) (fun _ _ _ h => h.1) fun _ _ h => h) fun u => ?_
  exact .bind (updateUser_gone hf) hk

/-- A handler that begins with the session of the connection. -/
theorem goneSafe_session {x : Nat → M α} (hc : ctx.conn = c)
    (hx : ∀ a, w.Own a → SessionSafe w c r q a (x a)) :
    GoneSafe w c r q (thisSession ctx >>= x) := by
  refine Triple.bind (thisSession_gone hc) fun a => .pure fun hown => ?_
  exact .conseq (hx a hown) (fun s _ h => h.1) (fun _ _ _ _ => trivial) fun _ _ h => h

/-- The methods whose footprint has sessions in it. -/
theorem handlerOf_gone {method : ReqMethod} {params : JsonObject} (hc : ctx.conn = c)
    (hr : ctx.req = r) (hm : .heap ∈ method.footprint) (hs : method ≠ .adminSudo)
    (hs' : method ≠ .adminSudoCancel) : GoneSafe w c r q (handlerOf cfg ctx method params) := by
  cases method <;> first | (simp [ReqMethod.footprint] at hm; done) | skip
  case recoverSession =>
    refine .bind (setConnection_gone fun _ => rfl) fun _ => ?_
    dsimp only
    split
    · exact recoverBySessionid_gone hc _
    · exact recoverByApiToken_gone hc hr _
  case userLogout => exact .bind (goneSafe_of_each thisSession_each) fun _ => userLogout_gone hc hr
  case adminSudo => exact absurd rfl hs
  case adminSudoCancel => exact absurd rfl hs'
  all_goals
    simp only [handlerOf, ReqMethod.api, handleJsonrpcUserApi, handleJsonrpcOrderApi,
      handleJsonrpcMerchantApi, merchantEntry_bind, userPrelogin, userLogin, userFastlogin,
      userAddRecipientAddress, userEraseReceiptAddress, orderCreate, merchantInfo,
      merchantResetGiteaPassword, merchantAlterName, modifyMerchantInfo]
    refine goneSafe_session hc fun a hown => ?_
    repeat' first
      | with_reducible exact handleUserLogin_gone hc hr
      | exact saveSession_gone hc upward_lt
      | (with_reducible refine reloadThisUser_gone hown ?_; intro ok)
      | (with_reducible refine updateThisUser_gone hown ?_ ?_; (intro v; rfl); intro ok)
      | (with_reducible refine updateThisUser_gone hown ?_ ?_; (intro v; split <;> rfl); intro ok)
      | (refine modifySession_gone upward_lt ?_; intro x; exact ⟨rfl, rfl, rfl, rfl, rfl⟩)
      | with_reducible refine SessionSafe.bind ?_ fun _ => ?_
      | (refine sessionSafe_of_each ?_; simp [offSession]; done)
      | (refine sessionSafe_of_each ?_; exact hr ▸ emit_each (by simp [Event.part, offSession]) rfl)
      | (refine sessionSafe_of_each ?_; exact hr ▸ sendVerifyCode_each _ (by simp [offSession])
          (by simp [offSession]) (by simp [offSession]))
      | split

theorem checkAdmin_gone : GoneSafe w c r q (checkAdmin ctx) := by
  simp only [checkAdmin]
  refine .bind (goneSafe_of_each each_get) fun m => ?_
  split
  · rename_i newUser _
    refine .bind (goneSafe_of_each (Co.each_modify fun s => { Keeps.refl _ _ s with })) fun _ => ?_
    refine .bind (goneSafe_of_each (asyncLoad_each _ _)) fun admins => ?_
    split
    · refine triple_tx (fun _ _ => True) solo_stable (fun _ => solo_stable) (fun _ _ _ => trivial)
        ?_ fun _ _ _ _ _ _ => trivial
      intro i s _ _ _
      refine ⟨solo_guar fun h => ?_, fun _ => trivial, fun _ _ => trivial⟩
      have hg : Grows s { s with db := s.db.persistAdministrators (some newUser.uid) } := by
        refine ⟨⟨[], rfl⟩, Nat.le_refl _, fun _ _ => rfl, fun uid ha => ?_⟩
        simp only [Db.findAdministrators, Option.isSome_map] at ha ⊢
        obtain ⟨row, hrow⟩ := Option.isSome_iff_exists.mp ha
        exact Option.isSome_of_eq_some (Table.find_append_of_some hrow)
      refine h.next [] hg rfl (by simp) h.later h.own ?_ ?_
      · exact fun a ha hhas => (h.session a ha hhas).grows hg
      · exact fun S hS hne row hrow => (h.row S hS hne row hrow).grows hg
    · exact goneSafe_of_each (each_pure _)
  · exact goneSafe_of_each (each_pure _)

theorem handleJsonrpcCall_gone {method : ReqMethod} {params : JsonObject} (hc : ctx.conn = c)
    (hr : ctx.req = r) : GoneSafe w c r q (handleJsonrpcCall cfg ctx method params) := by
  by_cases hm : .heap ∈ method.footprint
  · by_cases hs : method = .adminSudo
    · subst hs
      exact call_adminSudo_gone hc hr params
    · by_cases hs' : method = .adminSudoCancel
      · subst hs' hc
        intro s₀ s hi hg _
        cases hb : (s.conn ctx.conn).sessionInfo with
        | none =>
          simp only [handleJsonrpcCall, Co.safe_bind, Co.safe_get, hb]
          exact ⟨hi, hg, trivial⟩
        | some b =>
          exact (call_adminSudoCancel_gone rfl params b False s₀ s hi hg ⟨hb, False.elim⟩).mono
            (fun _ _ _ h => ⟨h.1, h.2.1, trivial⟩) fun _ _ _ h => h
      · exact triple_handleJsonrpcCall (fun _ _ _ => trivial) (handlerOf_gone hc hr hm hs hs')
  · have hK : method.footprint ⊆ offSession := by
      cases method <;> simp [ReqMethod.footprint, offSession] at hm ⊢
    exact goneSafe_of_each (hr ▸ handleJsonrpcCall_each method params hK)

/-- The connection of a client a request comes in on. -/
def Request.client : Request → Option Nat
  | .jsonrpc c _ _ | .connect c _ _ _ | .disconnect c => some c
  | _ => none

/-- Every request keeps the watch. -/
theorem serve_gone (hq : ∀ d ∈ q.client, d = c) :
    GoneSafe w c r q (serve cfg ⟨q.conn, r⟩ q) := by
  cases q with
  | jsonrpc conn method params =>
    refine .bind (handleJsonrpcCall_gone (hq conn rfl) rfl) fun reply => ?_
    exact goneSafe_of_each (emit_each (by simp [Event.part, offSession]) rfl)
  | connect conn ip cookies alloca => exact clientConnected_gone (hq conn rfl) ip cookies alloca
  | checkAdmin => exact checkAdmin_gone
  | disconnect conn => exact goneSafe_of_each eraseActive_each
  | wxCallback msg =>
    have hx : (handleOrderWxCallback ⟨0, r⟩ msg).Each (Keeps offSession (⟨0, r⟩ : Ctx).req) :=
      handleOrderWxCallback_each msg (by simp [offSession]) (by simp [offSession])
    refine .bind (goneSafe_of_each hx) fun reply => ?_
    exact goneSafe_of_each (emit_each (by simp [Event.part, offSession]) rfl)
  | purgeCode cookie =>
    exact goneSafe_of_each (Co.each_modify fun s => { Keeps.refl _ _ s with
      codes := fun hK => absurd (by simp [offSession]) hK })
  | setRepo merchantId repo =>
    exact goneSafe_of_each (Co.each_modify fun s => { Keeps.refl _ _ s with
      repos := fun hK => absurd (by simp [offSession]) hK })
  | setSearch searchGoods =>
    exact goneSafe_of_each (Co.each_modify fun s => { Keeps.refl _ _ s with })
  | tick clock => exact goneSafe_of_each (Co.each_modify fun s => { Keeps.refl _ _ s with })

end Handlers

/-! ## Turns -/

section Turns

variable {w : Watch} {c d : Nat} {s : Service} {cfg : Config}

/-- The client goes on to a later connection. -/
theorem Gone.reconnect {m : Mem} (h : Gone w c m) (hcd : c ≤ d) : Gone w d m where
  __ := h
  later e he := h.later e (Nat.lt_of_le_of_lt hcd he)
  own a ha := by
    rcases Nat.lt_or_eq_of_le hcd with hlt | rfl
    · cases (h.later d hlt).symm.trans ha
    · exact h.own a ha

theorem turn_gone {q : Request} {is : List Input} (h : Gone w c s.mem)
    (hq : ∀ d ∈ q.client, d = c) : Gone w c (s.turn (prog cfg) q is).mem := by
  have halone : Alone s.procs.length q (Gone w c) (fun _ _ => True) (fun _ => True)
      (prog cfg s.procs.length q) s.mem :=
    alone_of_triple (L := fun _ => True) (fun _ => serve_gone hq) h trivial
  exact (turn_alone is halone).1

/-- The connections of the clients, in the order of their requests. -/
def connections (ts : List (Request × List Input)) : List Nat :=
  ts.filterMap fun t => t.1.client

theorem turns_gone {ts : List (Request × List Input)} (h : Gone w c s.mem)
    (hts : (c :: connections ts ++ [d]).Pairwise (· ≤ ·)) :
    Gone w d (s.turns (prog cfg) ts).mem := by
  induction ts generalizing c s with
  | nil =>
    have hcd : c ≤ d := by simpa [connections] using hts
    exact h.reconnect hcd
  | cons t ts ih =>
    rw [Sys.turns_cons]
    cases ht : t.1.client with
    | none =>
      have hts' : (c :: connections ts ++ [d]).Pairwise (· ≤ ·) := by
        simpa [connections, ht] using hts
      exact ih (turn_gone h (by simp [ht])) hts'
    | some e =>
      have hcons : connections (t :: ts) = e :: connections ts := by simp [connections, ht]
      rw [hcons, List.cons_append, List.pairwise_cons] at hts
      have hce : c ≤ e := hts.1 e (by simp)
      exact ih (turn_gone (h.reconnect hce) (by simp [ht])) hts.2

end Turns

/-! ## The logout -/

/-- The session is in sudo mode with a user to go back to: what
`handle_jsonrpc_call` asks before `admin_sudo_cancel`. -/
def ClientSession.inSudo (x : ClientSession) : Bool := x.sudoMode && x.originalUser.isSome

/-- The session has no privilege. -/
structure ClientSession.Bare (x : ClientSession) : Prop where
  user : x.userInfo = none
  admin : x.isAdmin = false
  noSudo : x.inSudo = false

theorem ClientSession.Bare.clean {w : Watch} {s : Mem} {x : ClientSession} (h : x.Bare) :
    w.Clean s x := by
  refine Watch.clean_of_none h.user h.admin fun hm => ?_
  simpa [ClientSession.inSudo, hm] using h.noSudo

theorem ClientSession.Bare.toRow {x : ClientSession} {ip S : String} {now : PTime} (h : x.Bare) :
    ((x.toRow ip now).toSession S).Bare := by
  refine ⟨?_, rfl, ?_⟩
  · simp [CmallSession.toSession, ClientSession.toRow, h.user]
  · have hs := h.noSudo
    simp only [ClientSession.inSudo, CmallSession.toSession, ClientSession.toRow] at hs ⊢
    by_cases hm : x.sudoMode = true
    · simpa [hm] using hs
    · simp [hm]

/-- The session at `a` and the stored one have no privilege. -/
structure LoggedOut (c a : Nat) (s : Mem) : Prop where
  conn : (s.conn c).sessionInfo = some a
  session : (s.heap a).Bare
  row : (s.heap a).sessionId ≠ "" → ∀ row, s.db.findSession (s.heap a).sessionId = some row →
    (row.toSession (s.heap a).sessionId).Bare

section Logout

variable {w : Watch} {c r a : Nat} {q : Request} {ctx : Ctx} {cfg : Config}

/-- `persist_session::save` after `clear`. -/
theorem saveSession_loggedOut (hc : ctx.conn = c) :
    (alone w c r).Triple r q (fun s => (s.conn c).sessionInfo = some a ∧ (s.heap a).Bare)
      (saveSession ctx) (fun _ => LoggedOut c a) (fun _ => True) := by
  subst hc
  refine .bind (triple_thisSession fun _ _ _ => trivial) fun b => ?_
  refine .bind (Q := fun m s => m = s ∧ b = a ∧ (s.conn ctx.conn).sessionInfo = some a ∧
    (s.heap a).Bare) ?_ fun m => ?_
  · refine .get fun s _ h => ⟨rfl, ?_, h.2⟩
    exact Option.some.inj (h.1.symm.trans h.2.1)
  refine triple_tx (fun _ => LoggedOut ctx.conn a) solo_stable (fun _ => solo_stable)
    (fun _ _ _ => trivial) ?_ fun _ _ _ _ h _ => h
  rintro i s hi ⟨rfl, rfl, hconn, hbare⟩ _
  have hadmins : (m.db.upsetSession ((m.heap b).toRow (m.conn ctx.conn).xRealIp m.clock)
      m.clock).administrators = m.db.administrators := by
    unfold Db.upsetSession
    split <;> rfl
  refine ⟨solo_guar fun h => Gone.emit (h.sessions hadmins ?_) (by simp [Event.part]), by simp,
    fun _ _ => ⟨hconn, hbare, ?_⟩⟩
  · intro S hS hne row hrow
    rcases Db.findSession_upset hrow with ⟨-, hrow⟩ | ⟨-, hrow⟩
    · rw [CmallSession.toSession_congr hrow]
      exact hbare.toRow.clean
    · exact h.row S hS hne row hrow
  · intro _ row hrow
    rcases Db.findSession_upset hrow with ⟨-, hrow⟩ | ⟨hne, -⟩
    · rw [CmallSession.toSession_congr hrow]
      exact hbare.toRow
    · exact absurd rfl hne

theorem LoggedOut.of_keeps {s t : Mem} (hk : Keeps offSession r s t) (h : LoggedOut c a s) :
    LoggedOut c a t := by
  obtain ⟨hheap, -⟩ := hk.heap (by simp [offSession])
  refine ⟨?_, ?_, ?_⟩
  · rw [hk.conn (by simp [offSession])]
    exact h.conn
  · rw [hheap]
    exact h.session
  · rw [hheap, Db.findSession, hk.db.sessions (by simp [offSession])]
    exact h.row

/-- A `user_logout` of a session that is not in sudo mode. -/
theorem userLogout_loggedOut (hc : ctx.conn = c) (hr : ctx.req = r) :
    (alone w c r).Triple r q
      (fun s => (s.conn c).sessionInfo = some a ∧ (s.heap a).inSudo = false)
      (userLogout ctx) (fun _ => LoggedOut c a) (fun _ => True) := by
  simp only [userLogout, hr]
  refine .bind (triple_offSession eraseActive_each ?_) fun _ => ?_
  · intro s t hk hl
    rw [hk.conn (by simp [offSession]), (hk.heap (by simp [offSession])).1]
    exact hl
  refine .bind (thisSession_gone hc) fun b => ?_
  refine .conseq (L := fun s => b = a ∧ (s.conn c).sessionInfo = some a ∧
    (s.heap a).inSudo = false) (.pure ?_) ?_ (fun _ _ _ h => h) fun _ _ h => h
  · rintro rfl
    refine .bind (Q := fun _ s => (s.conn c).sessionInfo = some b ∧ (s.heap b).Bare) ?_ fun _ => ?_
    · refine triple_modifyGone (fun _ => rfl) ?_ ?_
      · intro s hl _
        refine ⟨hl.1, ?_⟩
        have hsudo := hl.2
        simp only [Mem.setSession, if_pos]
        exact ⟨rfl, rfl, hsudo⟩
      · exact fun s _ _ _ h => ⟨fun u hu => (by cases hu), fun h => (by cases h), h.sudoMode⟩
    · refine .bind (triple_offSession (emit_each (e := .loggedOut r b) ?_ rfl) ?_) fun _ => ?_
      · simp [Event.part, offSession]
      · intro s t hk hl
        rw [hk.conn (by simp [offSession]), (hk.heap (by simp [offSession])).1]
        exact hl
      refine .bind (Q := fun _ s => (s.conn c).sessionInfo = some b ∧ (s.heap b).Bare)
        (.modify fun s _ hl => ⟨solo_guar fun h => h.emit (by simp [Event.part]), hl⟩) fun _ => ?_
      refine .bind (triple_getSession b) fun x => ?_
      split
      · refine .bind (.conseq (saveSession_loggedOut hc) (fun _ _ h => h.2) (fun _ _ _ h => h)
          fun _ _ h => h) fun _ => ?_
        exact .ret fun _ _ h => h
      · rename_i hid
        refine .ret ?_
        rintro s _ ⟨rfl, hconn, hbare⟩
        exact ⟨hconn, hbare, fun hne => absurd hne hid⟩
  · rintro s _ ⟨-, -, hb, ha, hsudo⟩
    exact ⟨Option.some.inj (hb.symm.trans ha), ha, hsudo⟩

theorem call_userLogout_loggedOut (hc : ctx.conn = c) (hr : ctx.req = r) (params : JsonObject) :
    (alone w c r).Triple r q
      (fun s => (s.conn c).sessionInfo = some a ∧ (s.heap a).inSudo = false)
      (handleJsonrpcCall cfg ctx .userLogout params) (fun _ => LoggedOut c a) (fun _ => True) := by
  refine triple_handleJsonrpcCall (fun _ _ _ => trivial) ?_
  refine .bind (Q := fun _ s => (s.conn c).sessionInfo = some a ∧ (s.heap a).inSudo = false) ?_
    fun _ => userLogout_loggedOut hc hr
  exact .conseq (triple_thisSession fun _ _ _ => trivial) (fun _ _ h => h) (fun _ _ _ h => h.2)
    fun _ _ h => h

/-- From a completed logout on, the session can be watched. -/
theorem Gone.since {s : Mem} (h : Gone w c s) (hout : LoggedOut c a s) :
    Gone (Watch.since s a) c s where
  later := h.later
  own b hb := by
    cases hout.conn.symm.trans hb
    exact ⟨.inl rfl, (h.own a hb).2⟩
  heapTop := Nat.le_refl _
  trace := ⟨[], rfl⟩
  session b hb hhas := by
    rcases hb with rfl | hb
    · exact hout.session.clean
    · exact absurd hhas.1 (Nat.not_lt.mpr hb)
  row S hS hne row hrow := by
    cases hS
    exact (hout.row hne row hrow).clean
  sudoed := by
    rintro ⟨r, b, uid, ⟨es, hes, he⟩, -⟩
    have hnil : es = [] := by simpa [Watch.since] using hes
    simp [hnil] at he
  sudoedAt := by
    rintro r b uid ⟨es, hes, he⟩
    have hnil : es = [] := by simpa [Watch.since] using hes
    simp [hnil] at he

/-- A completed logout of a session that is not in sudo mode starts the watch. -/
theorem logout_turn {s : Service} {is : List Input} {params : JsonObject} (h : Gone w c s.mem)
    (hconn : (s.mem.conn c).sessionInfo = some a) (hsudo : (s.mem.heap a).inSudo = false)
    (hret : (s.turn (prog cfg) (.jsonrpc c .userLogout params) is).returned s.procs.length = true) :
    Gone (Watch.since (s.turn (prog cfg) (.jsonrpc c .userLogout params) is).mem a) c
      (s.turn (prog cfg) (.jsonrpc c .userLogout params) is).mem := by
  have hlogout : Alone s.procs.length (Request.jsonrpc c .userLogout params) (Gone w c)
      (fun _ => LoggedOut c a) (fun _ => True)
      (prog cfg s.procs.length (.jsonrpc c .userLogout params)) s.mem := by
    refine alone_of_triple (L := fun s => (s.conn c).sessionInfo = some a ∧
      (s.heap a).inSudo = false) (fun _ => ?_) h ⟨hconn, hsudo⟩
    refine .bind (call_userLogout_loggedOut (by rfl) (by rfl) params) fun reply => ?_
    exact triple_offSession (emit_each (by simp [Event.part, offSession]) rfl)
      fun _ _ hk h => h.of_keeps hk
  obtain ⟨ht, hout⟩ := turn_alone is hlogout
  obtain ⟨_, hout⟩ := hout hret
  exact ht.since hout

/-- An `admin_sudo_cancel` that is answered in a watched session. -/
theorem sudoCancel_turn {s : Service} {is : List Input} {params : JsonObject} (h : Gone w c s.mem)
    (hconn : (s.mem.conn c).sessionInfo = some a) (hhas : w.Has s.mem a)
    (hret : (s.turn (prog cfg) (.jsonrpc c .adminSudoCancel params) is).returned
      s.procs.length = true) :
    w.Sudoed (s.turn (prog cfg) (.jsonrpc c .adminSudoCancel params) is).mem ∧
      w.AdminIdentified (s.turn (prog cfg) (.jsonrpc c .adminSudoCancel params) is).mem := by
  have hcancel : Alone s.procs.length (Request.jsonrpc c .adminSudoCancel params) (Gone w c)
      (fun _ s => True → w.Sudoed s) (fun _ => True)
      (prog cfg s.procs.length (.jsonrpc c .adminSudoCancel params)) s.mem := by
    refine alone_of_triple (L := fun s => (s.conn c).sessionInfo = some a ∧ (True → w.Has s a))
      (fun _ => ?_) h ⟨hconn, fun _ => hhas⟩
    refine .bind (call_adminSudoCancel_gone (by rfl) params a True) fun reply => ?_
    exact triple_gone_of_each (emit_each (by simp [Event.part, offSession]) rfl)
      fun _ _ hg h hp => (h hp).grows hg
  obtain ⟨hgone, hsudoed⟩ := turn_alone is hcancel
  obtain ⟨_, hsudoed⟩ := hsudoed hret
  exact ⟨hsudoed trivial, hgone.sudoed (hsudoed trivial)⟩

/-- Before any connection has a session. -/
theorem gone_nothing {m : Mem} (hm : ∀ c, (m.conn c).sessionInfo = none) :
    Gone (Watch.nothing m) 0 m where
  later d _ := hm d
  own a ha := by cases (hm 0).symm.trans ha
  heapTop := Nat.zero_le _
  trace := ⟨[], rfl⟩
  session a _ h := by cases h.2
  row S hS := by cases hS
  sudoed := by
    rintro ⟨r, a, uid, -, h⟩
    cases h.2
  sudoedAt := by
    rintro r a uid ⟨es, hes, he⟩
    have hnil : es = [] := by simpa [Watch.nothing] using hes
    simp [hnil] at he

end Logout

/-- User 1 of phone 100 is an administrator; user 7 of phone 200 is not. -/
def adminAndUser : Mem where
  db :=
    { users := [{ uid := 1, activePhone := "100" }, user200]
      administrators := [⟨1, some 1⟩] }

/-- Every operation of the database succeeds. -/
def smooth (n : Nat) : List Input := List.replicate n {}

/-- A one-click login with phone 100 on connection 0. -/
def loginTurn : Request × List Input :=
  (.jsonrpc 0 .userFastlogin [], smooth 1 ++ [{ answer := some "100" }] ++ smooth 8)

/-- A new client on connection 0 logs in. -/
def loginAsAdmin : List (Request × List Input) :=
  [(.jsonrpc 0 .recoverSession [], smooth 3), loginTurn]

/-- The administrator takes on the identity of user 7. -/
def sudoAsAdmin : List (Request × List Input) :=
  loginAsAdmin ++ [(.jsonrpc 0 .adminSudo [("target_uid", .int64 7)], smooth 7)]

end Cmall
