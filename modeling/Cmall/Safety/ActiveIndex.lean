import Cmall.ActiveUsers
import Cmall.Transition

/-!
The index of the connections that are logged in.

An entry is made at the end of a login and of `load_user_info` and goes with a logout and
with the connection; nothing files a connection anew when its user changes in place, and the
id that an entry goes by is only one of its acceptor. As long as no request makes use of
that, the index is exact.
-/

namespace Cmall.Active
open Transition

/-! ## The property -/

/-- The request is one that made, or found, somebody the user and will file the connection. -/
def Phase.files : Phase → Bool
  | alloca | lifetime true | loadUser _ _ _ | loadMerchant _ | loadAdmin _ | loadOriginal _ => true
  | loginMerchant _ | loginAdmin _ | loginSave => true
  | _ => false

namespace State

variable (s : State)

def Connected (c : Nat) : Prop := ∃ k, s.conns[c]? = some k ∧ k.connected = true

def Filed (c : Nat) : Prop := ∃ e ∈ s.activeUsers, e.conn = c

/-- A login or a recovery of the connection has not got to its end. -/
def Filing (c : Nat) : Prop := ∃ t ∈ s.tasks, t.conn = c ∧ t.phase.files = true

/-- The index is exact. -/
structure IndexExact : Prop where
  /-- Who is found is connected and logged in as the user asked for. -/
  sound : ∀ uid, ∀ c ∈ s.equalRange uid, s.Connected c ∧ s.user c = some uid
  /-- Nothing is filed under a uid it no longer has. -/
  buckets : ∀ e ∈ s.activeUsers, s.user e.conn = some e.bucket
  /-- Who is logged in is found, once the login is over. -/
  complete : ∀ c uid, s.Connected c → s.user c = some uid → ¬ s.Filing c → c ∈ s.equalRange uid
  once : ∀ uid, (s.equalRange uid).Nodup

end State

/-! ## The condition -/

/-- The segment of a request on connection `c`, which is `k`, may run; `others` are the
other requests. -/
structure Permitted (s : State) (c : Nat) (k : Connection) (others : List Task) (o : Outcome) :
    Prop where
  /-- It dereferences nothing that is not there. -/
  defined : o.next ≠ .undefined
  /-- It gives no filed connection another user. -/
  sameUser : o.index ≠ .erase → ∀ e ∈ s.activeUsers, e.conn = c → o.connection.user = some e.bucket
  /-- When it files or erases the connection, no other one with its id is filed. -/
  ownId : o.index ≠ .keep → ∀ e ∈ s.activeUsers, s.connectionId e.conn = some k.connectionId →
    e.conn = c
  /-- It files no connection that has gone. -/
  live : o.index = .push → k.connected = true
  /-- It leaves no connection with a user that nobody files. -/
  leaves : o.index = .keep → o.next.files = false → k.connected = true →
    o.connection.user.isSome = true →
      (∃ e ∈ s.activeUsers, e.conn = c) ∨ ∃ t ∈ others, t.conn = c ∧ t.phase.files = true

def Allowed (s : State) : Step → Prop
  | .accept _ => True
  | .request c r => ∀ k ∈ s.conns[c]?, Permitted s c k s.tasks (start k r)
  | .resume i answer => ∀ t ∈ s.tasks[i]?, ∀ k ∈ s.conns[t.conn]?,
    Permitted s t.conn k (s.tasks.eraseIdx i) (resume k t.phase answer)
  | .disconnect c => ∀ k ∈ s.conns[c]?,
    ∀ e ∈ s.activeUsers, s.connectionId e.conn = some k.connectionId → e.conn = c

instance (s : State) (c : Nat) (k : Connection) (others : List Task) (o : Outcome) :
    Decidable (Permitted s c k others o) :=
  decidable_of_iff
    (o.next ≠ .undefined ∧
      (o.index ≠ .erase → ∀ e ∈ s.activeUsers, e.conn = c →
        o.connection.user = some e.bucket) ∧
      (o.index ≠ .keep → ∀ e ∈ s.activeUsers, s.connectionId e.conn = some k.connectionId →
        e.conn = c) ∧
      (o.index = .push → k.connected = true) ∧
      (o.index = .keep → o.next.files = false → k.connected = true →
        o.connection.user.isSome = true →
          (∃ e ∈ s.activeUsers, e.conn = c) ∨
            ∃ t ∈ others, t.conn = c ∧ t.phase.files = true))
    ⟨fun ⟨hdefined, huser, hid, hlive, hleaves⟩ => ⟨hdefined, huser, hid, hlive, hleaves⟩,
      fun h => ⟨h.defined, h.sameUser, h.ownId, h.live, h.leaves⟩⟩

instance (s : State) : ∀ l : Step, Decidable (Allowed s l)
  | .accept _ => isTrue trivial
  | .request c r =>
    inferInstanceAs (Decidable (∀ k ∈ s.conns[c]?, Permitted s c k s.tasks (start k r)))
  | .resume i answer =>
    inferInstanceAs (Decidable (∀ t ∈ s.tasks[i]?, ∀ k ∈ s.conns[t.conn]?,
      Permitted s t.conn k (s.tasks.eraseIdx i) (resume k t.phase answer)))
  | .disconnect c =>
    inferInstanceAs (Decidable (∀ k ∈ s.conns[c]?,
      ∀ e ∈ s.activeUsers, s.connectionId e.conn = some k.connectionId → e.conn = c))

/-! ## Segments -/

/-- What every segment leaves alone, and what it says of the user when it changes the index. -/
structure Outcome.Sane (k : Connection) (o : Outcome) : Prop where
  connectionId : o.connection.connectionId = k.connectionId
  connected : o.connection.connected = k.connected
  push : o.index = .push → o.connection.user.isSome = true
  erase : o.index = .erase → o.connection.user = none

section Segments

variable {k : Connection}

theorem sane_keep {o : Outcome} (hid : o.connection.connectionId = k.connectionId)
    (hconn : o.connection.connected = k.connected) (hindex : o.index = .keep) : o.Sane k where
  connectionId := hid
  connected := hconn
  push h := by rw [hindex] at h; cases h
  erase h := by rw [hindex] at h; cases h

theorem sane_change (g : Nat) (f : Session → Session) (next : Phase) :
    (change k g f next).Sane k := by
  unfold change
  split
  · split <;> exact sane_keep rfl rfl rfl
  · exact sane_keep rfl rfl rfl

theorem sane_pushActive {j : Connection} (hid : j.connectionId = k.connectionId)
    (hconn : j.connected = k.connected) (next : Phase) : (pushActive j next).Sane k := by
  unfold pushActive
  split
  · rename_i uid huser
    exact ⟨hid, hconn, fun _ => by rw [huser]; rfl, fun h => by cases h⟩
  · exact sane_keep hid hconn rfl

theorem sane_loadSudo {j : Connection} (hid : j.connectionId = k.connectionId)
    (hconn : j.connected = k.connected) (cookie : Bool) : (loadSudo j cookie).Sane k := by
  unfold loadSudo
  split
  · split
    · exact sane_keep hid hconn rfl
    · exact sane_pushActive hid hconn _
  · exact sane_keep hid hconn rfl

theorem sane_start (r : Request) : (start k r).Sane k := by
  cases r with
  | logout =>
    simp only [start]
    split
    · exact ⟨rfl, rfl, fun h => (by cases h), fun _ => rfl⟩
    · exact sane_keep rfl rfl rfl
  | _ =>
    simp only [start]
    repeat' first
      | exact sane_keep rfl rfl rfl
      | split

theorem sane_proceed (phase : Phase) (answer : Answer) : (proceed k phase answer).Sane k := by
  unfold proceed
  split
  all_goals first
    | exact sane_keep rfl rfl rfl
    | exact sane_change _ _ _
    | exact sane_pushActive (j := k) rfl rfl _
    | (refine sane_pushActive ?_ ?_ _ <;> rfl)
    | (refine sane_loadSudo ?_ ?_ _ <;> rfl)
    | split
  all_goals first
    | exact sane_keep rfl rfl rfl
    | exact sane_change _ _ _

theorem sane_resume (phase : Phase) (answer : Answer) : (resume k phase answer).Sane k := by
  unfold resume
  split
  · exact sane_keep rfl rfl rfl
  · exact sane_proceed phase answer

end Segments

/-! ## The invariant -/

/-- What holds of connection `c`. -/
structure ConnOk (s : State) (c : Nat) : Prop where
  entries : ∀ e ∈ s.activeUsers, e.conn = c →
    ∃ k, s.conns[c]? = some k ∧ k.connected = true ∧ k.user = some e.bucket
  filed : ∀ k, s.conns[c]? = some k → k.connected = true → k.user.isSome = true →
    s.Filed c ∨ s.Filing c

structure Inv (s : State) : Prop where
  conns : ∀ c, ConnOk s c
  once : (s.activeUsers.map Entry.conn).Nodup

section Steps

variable {s : State} {c : Nat} {k : Connection} {others tasks : List Task} {o : Outcome}

theorem mem_eraseId {id : Nat} {e : Entry} :
    e ∈ s.eraseId id ↔ e ∈ s.activeUsers ∧ s.connectionId e.conn ≠ some id := by
  simp [State.eraseId]

theorem once_eraseId (h : (s.activeUsers.map Entry.conn).Nodup) (id : Nat) :
    ((s.eraseId id).map Entry.conn).Nodup :=
  h.sublist (List.filter_sublist.map Entry.conn)

/-- The entries of other connections. -/
theorem mem_index_of_ne (ho : o.Sane k)
    (hown : o.index ≠ .keep → ∀ e ∈ s.activeUsers, s.connectionId e.conn = some k.connectionId →
      e.conn = c) {e : Entry} (he : e.conn ≠ c) :
    e ∈ s.index c o.connection o.index ↔ e ∈ s.activeUsers := by
  cases hindex : o.index with
  | keep => rfl
  | push =>
    cases huser : o.connection.user with
    | none => simp [State.index, huser]
    | some uid =>
      simp only [State.index, huser, State.pushBack]
      split
      · rfl
      · constructor
        · intro h
          rcases List.mem_append.mp h with h | h
          · exact h
          · rw [List.mem_singleton] at h
            exact absurd (congrArg Entry.conn h) he
        · exact List.mem_append_left _
  | erase =>
    show e ∈ s.eraseId o.connection.connectionId ↔ _
    rw [mem_eraseId, ho.connectionId]
    constructor
    · exact And.left
    · intro h
      exact ⟨h, fun hid => he (hown (by rw [hindex]; decide) e h hid)⟩

/-- The entries of the connection itself. -/
theorem mem_index_self {e : Entry} (h : e ∈ s.index c o.connection o.index) (he : e.conn = c) :
    (e ∈ s.activeUsers ∧ (o.index = .erase → s.connectionId c ≠ some o.connection.connectionId)) ∨
      (o.index = .push ∧ o.connection.user = some e.bucket) := by
  cases hindex : o.index with
  | keep =>
    rw [hindex] at h
    exact .inl ⟨h, fun h' => by cases h'⟩
  | push =>
    rw [hindex] at h
    cases huser : o.connection.user with
    | none =>
      simp only [State.index, huser] at h
      exact .inl ⟨h, fun h' => by cases h'⟩
    | some uid =>
      simp only [State.index, huser, State.pushBack] at h
      split at h
      · exact .inl ⟨h, fun h' => by cases h'⟩
      · rcases List.mem_append.mp h with h | h
        · exact .inl ⟨h, fun h' => by cases h'⟩
        · rw [List.mem_singleton] at h
          subst h
          exact .inr ⟨rfl, rfl⟩
  | erase =>
    rw [hindex] at h
    obtain ⟨hmem, hid⟩ := mem_eraseId.mp h
    exact .inl ⟨hmem, fun _ => he ▸ hid⟩

/-- A connection that is filed is in the index from then on. -/
theorem filed_of_push (hk : s.conns[c]? = some k) (ho : o.Sane k)
    (hown : ∀ e ∈ s.activeUsers, s.connectionId e.conn = some k.connectionId → e.conn = c)
    (hpush : o.index = .push) : ∃ e ∈ s.index c o.connection o.index, e.conn = c := by
  obtain ⟨uid, huser⟩ := Option.isSome_iff_exists.mp (ho.push hpush)
  have hid : s.connectionId c = some k.connectionId := by
    simp [State.connectionId, hk]
  simp only [hpush, State.index, huser, State.pushBack]
  split
  · rename_i hany
    obtain ⟨e, he, heq⟩ := List.any_eq_true.mp hany
    have heq' : s.connectionId e.conn = s.connectionId c := of_decide_eq_true heq
    exact ⟨e, he, hown e he (heq'.trans hid)⟩
  · exact ⟨⟨c, uid⟩, by simp, rfl⟩

/-- A connection whose view of the state has not changed. -/
theorem ConnOk.congr {t : State} (h : ConnOk s c) (hconn : t.conns[c]? = s.conns[c]?)
    (hentries : ∀ e : Entry, e.conn = c → (e ∈ t.activeUsers ↔ e ∈ s.activeUsers))
    (htasks : ∀ x ∈ s.tasks, x.conn = c → x ∈ t.tasks) : ConnOk t c where
  entries e he hc := by
    obtain ⟨k, hk, hrest⟩ := h.entries e ((hentries e hc).mp he) hc
    exact ⟨k, hconn.trans hk, hrest⟩
  filed k hk hconnected huser := by
    rcases h.filed k (hconn.symm.trans hk) hconnected huser with ⟨e, he, hc⟩ | ⟨x, hx, hc, hfiles⟩
    · exact .inl ⟨e, (hentries e hc).mpr he, hc⟩
    · exact .inr ⟨x, htasks x hx hc, hc, hfiles⟩

/-- A segment that may run keeps the invariant. -/
theorem inv_apply (h : Inv s) (hk : s.conns[c]? = some k) (ho : o.Sane k)
    (hp : Permitted s c k others o)
    (hothers : ∀ x ∈ others, x ∈ tasks) (hnew : (⟨c, o.next⟩ : Task) ∈ tasks)
    (hrest : ∀ x ∈ s.tasks, x.conn ≠ c → x ∈ tasks) : Inv (s.apply c o tasks) := by
  have hlen : c < s.conns.length := (List.getElem?_eq_some_iff.mp hk).1
  have hid : s.connectionId c = some k.connectionId := by
    simp [State.connectionId, hk]
  have hself : (s.apply c o tasks).conns[c]? = some o.connection := by
    simp [State.apply, hlen]
  refine ⟨fun d => ?_, ?_⟩
  · by_cases hd : d = c
    · subst hd
      constructor
      · intro e he hc
        have huser : o.index = .keep ∨ o.index = .push →
            e ∈ s.activeUsers → o.connection.user = some e.bucket := by
          intro hindex hmem
          refine hp.sameUser ?_ e hmem hc
          rcases hindex with hindex | hindex <;> rw [hindex] <;> decide
        rcases mem_index_self he hc with ⟨hmem, herase⟩ | ⟨hpush, huser'⟩
        · obtain ⟨k', hk', hconnected, -⟩ := (h.conns d).entries e hmem hc
          cases hk.symm.trans hk'
          refine ⟨o.connection, hself, ho.connected.trans hconnected, ?_⟩
          cases hindex : o.index with
          | keep => exact huser (.inl hindex) hmem
          | push => exact huser (.inr hindex) hmem
          | erase =>
            -- the entries of the connection have its id and are gone
            exact absurd (hid.trans (by rw [ho.connectionId])) (herase hindex)
        · exact ⟨o.connection, hself, ho.connected.trans (hp.live hpush), huser'⟩
      · intro k' hk' hconnected huser
        cases hself.symm.trans hk'
        rw [ho.connected] at hconnected
        cases hindex : o.index with
        | push => exact .inl (filed_of_push hk ho (hp.ownId (by rw [hindex]; decide)) hindex)
        | erase =>
          rw [ho.erase hindex] at huser
          cases huser
        | keep =>
          cases hfiles : o.next.files with
          | true => exact .inr ⟨⟨d, o.next⟩, hnew, rfl, hfiles⟩
          | false =>
            rcases hp.leaves hindex hfiles hconnected huser with ⟨e, he, hc⟩ | ⟨x, hx, hrest⟩
            · refine .inl ⟨e, ?_, hc⟩
              show e ∈ s.index d o.connection o.index
              rw [hindex]
              exact he
            · exact .inr ⟨x, hothers x hx, hrest⟩
    · refine (h.conns d).congr ?_ ?_ ?_
      · simp [State.apply, Ne.symm hd]
      · intro e he
        exact mem_index_of_ne ho hp.ownId (he ▸ hd)
      · intro x hx hc
        exact hrest x hx (hc ▸ hd)
  · show ((s.index c o.connection o.index).map Entry.conn).Nodup
    cases o.index with
    | keep => exact h.once
    | erase => exact once_eraseId h.once _
    | push =>
      cases huser : o.connection.user with
      | none =>
        simp only [State.index, huser]
        exact h.once
      | some uid =>
        simp only [State.index, huser, State.pushBack]
        split
        · exact h.once
        · rename_i hany
          rw [List.map_append, List.nodup_append]
          refine ⟨h.once, by simp, ?_⟩
          intro a ha b hb hab
          obtain ⟨e, he, rfl⟩ := List.mem_map.mp ha
          rw [List.map_singleton, List.mem_singleton] at hb
          subst hb
          exact hany (List.any_eq_true.mpr ⟨e, he, by simp [hab]⟩)

/-- What ends a connection takes its entry and no other. -/
theorem inv_disconnect (h : Inv s) (hk : s.conns[c]? = some k)
    (hown : ∀ e ∈ s.activeUsers, s.connectionId e.conn = some k.connectionId → e.conn = c) :
    Inv { s with
      conns := s.conns.set c { k with connected := false }
      activeUsers := s.eraseId k.connectionId } := by
  have hlen : c < s.conns.length := (List.getElem?_eq_some_iff.mp hk).1
  refine ⟨fun d => ?_, once_eraseId h.once _⟩
  by_cases hd : d = c
  · subst hd
    constructor
    · intro e he hc
      have hne := (mem_eraseId.mp he).2
      rw [hc] at hne
      exact absurd (by simp [State.connectionId, hk]) hne
    · intro k' hk' hconnected
      have hself : (s.conns.set d { k with connected := false })[d]? = some k' := hk'
      simp [hlen] at hself
      subst hself
      cases hconnected
  · refine (h.conns d).congr ?_ ?_ fun _ hx _ => hx
    · simp [Ne.symm hd]
    · intro e he
      rw [mem_eraseId]
      exact ⟨And.left, fun hmem => ⟨hmem, fun hid => hd (he.symm.trans (hown e hmem hid))⟩⟩

theorem mem_set_of_mem_eraseIdx {i : Nat} {x y : Task} {l : List Task} (h : x ∈ l.eraseIdx i) :
    x ∈ l.set i y := by
  obtain ⟨j, hj, hx⟩ := List.mem_eraseIdx_iff_getElem?.mp h
  exact List.mem_of_getElem? (by rw [List.getElem?_set_ne (Ne.symm hj)]; exact hx)

theorem mem_set_of_ne {i : Nat} {x y t : Task} {l : List Task} (ht : l[i]? = some t) (hx : x ∈ l)
    (hne : x ≠ t) : x ∈ l.set i y := by
  obtain ⟨j, hj⟩ := List.mem_iff_getElem?.mp hx
  have hij : i ≠ j := by
    rintro rfl
    exact hne (Option.some.inj (hj.symm.trans ht))
  exact List.mem_of_getElem? (by rw [List.getElem?_set_ne hij]; exact hj)

theorem inv_step (h : Inv s) {l : Step} (hl : Allowed s l) : Inv (step s l) := by
  cases l with
  | accept acceptor =>
    refine ⟨fun d => ?_, h.once⟩
    by_cases hd : d < s.conns.length
    · exact (h.conns d).congr (List.getElem?_append_left hd) (fun _ _ => .rfl) fun _ hx _ => hx
    · constructor
      · intro e he hc
        obtain ⟨k, hk, -⟩ := (h.conns d).entries e he hc
        exact absurd (List.getElem?_eq_some_iff.mp hk).1 hd
      · intro k hk _ huser
        -- only the new connection has such a place, and it has no session
        have hnew : k.sessionInfo = none := by
          have hk' : (s.conns ++ [{ acceptor, connectionId := s.nextId acceptor }])[d]? = some k := hk
          rw [List.getElem?_append_right (by omega), List.getElem?_singleton] at hk'
          split at hk'
          · cases hk'
            rfl
          · cases hk'
        rw [Connection.user, hnew] at huser
        cases huser
  | request c r =>
    simp only [step]
    split
    · rename_i k hk
      exact inv_apply h hk (sane_start r) (hl k hk) (fun x hx => List.mem_append_left _ hx)
        (by simp) fun x hx _ => List.mem_append_left _ hx
    · exact h
  | resume i answer =>
    simp only [step]
    split
    · rename_i t ht
      split
      · rename_i k hk
        refine inv_apply h hk (sane_resume t.phase answer) (hl t ht k hk) ?_ ?_ ?_
        · exact fun x hx => mem_set_of_mem_eraseIdx hx
        · exact List.mem_set (List.getElem?_eq_some_iff.mp ht).1 _
        · exact fun x hx hne => mem_set_of_ne ht hx fun h => hne (congrArg Task.conn h)
      · exact h
    · exact h
  | disconnect c =>
    simp only [step]
    split
    · rename_i k hk
      exact inv_disconnect h hk (hl k hk)
    · exact h

theorem inv_init : Inv {} where
  conns c := by
    constructor
    · intro e he
      cases he
    · intro k hk
      cases hk
  once := List.nodup_nil

theorem Inv.indexExact (h : Inv s) : s.IndexExact where
  sound uid c hc := by
    obtain ⟨e, he, rfl⟩ := List.mem_map.mp hc
    obtain ⟨hmem, hbucket⟩ := List.mem_filter.mp he
    obtain ⟨k, hk, hconnected, -⟩ := (h.conns e.conn).entries e hmem rfl
    exact ⟨⟨k, hk, hconnected⟩, (of_decide_eq_true hbucket).2⟩
  buckets e he := by
    obtain ⟨k, hk, -, huser⟩ := (h.conns e.conn).entries e he rfl
    rw [State.user, hk]
    exact huser
  complete c uid hconn huser hfiling := by
    obtain ⟨k, hk, hconnected⟩ := hconn
    have huser' : k.user = some uid := by
      rw [State.user, hk] at huser
      exact huser
    rcases (h.conns c).filed k hk hconnected (by rw [huser']; rfl) with ⟨e, he, rfl⟩ | hfile
    · obtain ⟨k', hk', -, hbucket⟩ := (h.conns e.conn).entries e he rfl
      cases hk.symm.trans hk'
      have hu : e.bucket = uid := Option.some.inj (hbucket.symm.trans huser')
      exact List.mem_map.mpr ⟨e, List.mem_filter.mpr ⟨he, decide_eq_true ⟨hu, huser⟩⟩, rfl⟩
    · exact absurd hfile hfiling
  once uid := h.once.sublist (List.filter_sublist.map Entry.conn)

end Steps

/-! ## Every run -/

/-- Connection `c` is given a session and logs in as `uid`; `n` requests were made before. -/
def logIn (c n uid : Nat) : List Step :=
  [.request c (.recoverSession false), .resume n .yes,
    .request c .login, .resume (n + 1) (.user uid), .resume (n + 1) .no, .resume (n + 1) .no,
    .resume (n + 1) .yes]

end Cmall.Active
