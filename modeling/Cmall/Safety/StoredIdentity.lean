import Cmall.Safety.OneAccount

/-!
The stored session follows the last change of its identity.

Every connection holds a copy of the session and saves it whole; a login, a logout, a sudo
and its cancellation change the copy and save it, a prelogin saves it with whatever identity
it has, and `update_lifetime` writes back the row that it read before. The row of a session
id is that of the last operation that was completed on the id in every run in which the
writes come in the order of the operations.
-/

namespace Cmall
open Coroutine Protocol

/-! ## What the events say -/

/-- The identity that an operation of request `r` gave the session `key`. -/
def becameOf (r : Nat) (key : String) : List Event → Option Identity
  | [] => none
  | .became r' _ _ k identity :: rest =>
    if r' = r ∧ k = key then some identity else becameOf r key rest
  | _ :: rest => becameOf r key rest

def answered (r : Nat) (trace : List Event) : Bool :=
  trace.any fun
    | .replied r' _ => r' = r
    | _ => false

/-- The identity that the last operation to be completed gave the session `key`. -/
def lastCompleted (key : String) : List Event → Option Identity
  | [] => none
  | .replied r _ :: rest => (becameOf r key rest).or (lastCompleted key rest)
  | _ :: rest => lastCompleted key rest

/-- The last request that saved the session `key` for an operation of its own, with the
identity that it saved. -/
def lastSaved (key : String) : List Event → Option (Nat × Identity)
  | [] => none
  | .sessionSaved r row :: rest =>
    if row.cacheKey = key ∧ (becameOf r key rest).isSome then some (r, row.identity)
    else lastSaved key rest
  | _ :: rest => lastSaved key rest

/-! ## The condition -/

/-- The row has the identity that the last operation saved. -/
def CmallSession.inOrder (row : CmallSession) (trace : List Event) : Bool :=
  (lastSaved row.cacheKey trace).all fun x => row.identity = x.2

/-- The last operation that saved the session `key` is that of `r`, or one that will be
answered after it. -/
def inTurn (r : Nat) (key : String) (trace : List Event) : Bool :=
  (lastSaved key trace).any fun x => x.1 = r || !answered x.1 trace

/-- `r` can be answered: on every session that it changed it is its turn. -/
def answerable (r : Nat) (trace : List Event) : Bool :=
  trace.all fun
    | .became r' _ _ key _ => r' ≠ r || inTurn r key trace
    | _ => true

/-- The connection's session has a user. -/
def Mem.hasUser (s : Mem) (conn : Nat) : Bool :=
  (s.conn conn).sessionInfo.any fun a => (s.heap a).userInfo.isSome

def ReqMethod.logsIn (method : ReqMethod) : Bool :=
  method = .userLogin ∨ method = .userFastlogin

/-- What a step that writes the stored session, or comes back from it, needs. -/
def writesInOrder (r : Nat) (q : Request) (p : Point) (s : Mem) : Bool :=
  match p.spot with
  | .save _ row =>
    match becameOf r row.cacheKey s.trace with
    | some identity => row.identity = identity
    | none => row.inOrder s.trace
  | .refresh row => row.inOrder s.trace
  | .saved => answerable r s.trace && (!q.method.any ReqMethod.logsIn || s.hasUser p.ctx.conn)
  | _ => true

/-- For every session id, what the last operation saved is stored, and once that operation is
answered it is the last one completed. -/
structure StoryInv (s : Mem) : Prop where
  stored : ∀ key r identity, lastSaved key s.trace = some (r, identity) →
    ∃ row, s.db.findSession key = some row ∧ row.identity = identity
  own : ∀ key r identity, lastSaved key s.trace = some (r, identity) →
    becameOf r key s.trace = some identity
  completed : ∀ key r identity, key ≠ "" → lastSaved key s.trace = some (r, identity) →
    answered r s.trace = true → lastCompleted key s.trace = some identity
  saved : ∀ key, key ≠ "" → lastSaved key s.trace = none → lastCompleted key s.trace = none

/-! ## Traces -/

section Traces

variable {r r' : Nat} {key : String} {es trace : List Event}

/-- Not an event of the story. -/
def Event.aside (e : Event) : Prop := e.part ≠ .sessions ∧ ∀ r reply, e ≠ .replied r reply

theorem becameOf_append (h : ∀ e ∈ es, e.req = r → e.part ≠ .sessions) :
    becameOf r key (es ++ trace) = becameOf r key trace := by
  induction es with
  | nil => rfl
  | cons e es ih =>
    have hrest := ih fun e' he' => h e' (List.mem_cons_of_mem _ he')
    cases e with
    | became r' a op k identity =>
      have hne : r' ≠ r := fun hr => h _ (List.mem_cons_self ..) hr rfl
      simpa [becameOf, hne] using hrest
    | _ => exact hrest

theorem lastSaved_append (h : ∀ e ∈ es, e.part ≠ .sessions) :
    lastSaved key (es ++ trace) = lastSaved key trace := by
  induction es with
  | nil => rfl
  | cons e es ih =>
    have hrest := ih fun e' he' => h e' (List.mem_cons_of_mem _ he')
    cases e with
    | sessionSaved r' row => exact absurd rfl (h _ (List.mem_cons_self ..))
    | _ => exact hrest

/-- A save of `r` in a longer trace was there before, if the new events are of others. -/
theorem lastSaved_own {identity : Identity} (h : ∀ e ∈ es, e.req ≠ r)
    (hs : lastSaved key (es ++ trace) = some (r, identity)) :
    lastSaved key trace = some (r, identity) := by
  induction es with
  | nil => exact hs
  | cons e es ih =>
    have hrest := ih fun e' he' => h e' (List.mem_cons_of_mem _ he')
    cases e with
    | sessionSaved r' row =>
      simp only [List.cons_append, lastSaved] at hs
      split at hs
      · have hr : r' = r := (Prod.mk.inj (Option.some.inj hs)).1
        exact absurd hr (h _ (List.mem_cons_self ..))
      · exact hrest hs
    | _ => exact hrest hs

theorem answered_append (h : ∀ e ∈ es, e.req = r → ∀ reply, e ≠ .replied r reply) :
    answered r (es ++ trace) = answered r trace := by
  have hes : answered r es = false := by
    refine List.any_eq_false.mpr fun e he => ?_
    cases e with
    | replied r' reply =>
      have hne : r' ≠ r := fun hr => h _ he hr reply (by rw [hr])
      simpa using hne
    | _ => simp
  rw [answered, List.any_append]
  exact (congrArg (· || _) hes).trans (Bool.false_or _)

theorem answered_mono (h : answered r trace = true) : answered r (es ++ trace) = true := by
  rw [answered, List.any_append]
  exact Bool.or_eq_true_iff.mpr (.inr h)

/-- Events of a request that changed nothing, and saves of others, complete nothing. -/
theorem lastCompleted_append (hnone : becameOf r key trace = none)
    (h : ∀ e ∈ es, e.req = r ∧ e.part ≠ .sessions) :
    lastCompleted key (es ++ trace) = lastCompleted key trace := by
  induction es with
  | nil => rfl
  | cons e es ih =>
    have hes : ∀ e' ∈ es, e'.req = r ∧ e'.part ≠ .sessions :=
      fun e' he' => h e' (List.mem_cons_of_mem _ he')
    have hrest := ih hes
    cases e with
    | replied r' reply =>
      have hr : r' = r := (h _ (List.mem_cons_self ..)).1
      subst hr
      have hno : becameOf r' key (es ++ trace) = none :=
        (becameOf_append fun e' he' _ => (hes e' he').2).trans hnone
      simpa [lastCompleted, hno] using hrest
    | _ => exact hrest

theorem lastCompleted_aside (h : ∀ e ∈ es, e.aside) :
    lastCompleted key (es ++ trace) = lastCompleted key trace := by
  induction es with
  | nil => rfl
  | cons e es ih =>
    have hrest := ih fun e' he' => h e' (List.mem_cons_of_mem _ he')
    cases e with
    | replied r' reply => exact absurd rfl ((h _ (List.mem_cons_self ..)).2 r' reply)
    | _ => exact hrest

end Traces

/-! ## The stored row -/

section Rows

variable {db : Db} {row : CmallSession} {now : PTime} {key : String}

theorem findSession_upset_self :
    ∃ found, (db.upsetSession row now).findSession row.cacheKey = some found ∧
      found.identity = row.identity := by
  unfold Db.upsetSession
  cases hold : db.findSession row.cacheKey with
  | some old =>
    let row' := { row with updatedAt := now, createdAt := old.createdAt }
    have hsome : (Table.find CmallSession.cacheKey db.sessions row'.cacheKey).isSome = true :=
      Option.isSome_iff_exists.mpr ⟨old, hold⟩
    exact ⟨row', Table.find_update_self hsome, rfl⟩
  | none =>
    have hnone : Table.find CmallSession.cacheKey db.sessions row.cacheKey = none := hold
    refine ⟨row, ?_, rfl⟩
    simp only [Db.findSession, Table.find] at hnone ⊢
    rw [List.find?_append, hnone]
    simp

theorem findSession_upset_ne (h : key ≠ row.cacheKey) :
    (db.upsetSession row now).findSession key = db.findSession key := by
  unfold Db.upsetSession
  split
  · exact Table.find_update_ne h
  · simp [Db.findSession, Table.find, List.find?_append, h.symm]

end Rows

/-! ## Steps -/

section Steps

variable {r : Nat} {s t : Mem} {key : String}

/-- Request `r` has changed no session. -/
def NoBecame (r : Nat) (s : Mem) : Prop := ∀ key, becameOf r key s.trace = none

/-- Request `r` has saved no session for an operation of its own. -/
def NotSaved (r : Nat) (s : Mem) : Prop :=
  ∀ key identity, lastSaved key s.trace ≠ some (r, identity)

/-- What `r` saved for an operation of its own is answered. -/
def SavedAnswered (r : Nat) (s : Mem) : Prop :=
  ∀ key identity, lastSaved key s.trace = some (r, identity) → answered r s.trace = true

theorem StoryInv.notSaved (hi : StoryInv s) (h : NoBecame r s) : NotSaved r s := by
  intro key identity hs
  have hb := hi.own key r identity hs
  rw [h key] at hb
  cases hb

theorem NotSaved.savedAnswered (h : NotSaved r s) : SavedAnswered r s :=
  fun key identity hs => absurd hs (h key identity)

/-- Events beside the story. -/
theorem StoryInv.aside {es : List Event} (hi : StoryInv s) (hrows : t.db.sessions = s.db.sessions)
    (htrace : t.trace = es ++ s.trace) (hes : ∀ e ∈ es, e.aside) : StoryInv t := by
  have hfind : ∀ key, t.db.findSession key = s.db.findSession key := fun key => by
    rw [Db.findSession, hrows, Db.findSession]
  have hsaved : ∀ key, lastSaved key t.trace = lastSaved key s.trace := fun key => by
    rw [htrace, lastSaved_append fun e he => (hes e he).1]
  have hbecame : ∀ r key, becameOf r key t.trace = becameOf r key s.trace := fun r key => by
    rw [htrace, becameOf_append fun e he _ => (hes e he).1]
  have hanswered : ∀ r, answered r t.trace = answered r s.trace := fun r => by
    rw [htrace, answered_append fun e he _ reply => (hes e he).2 r reply]
  have hlast : ∀ key, lastCompleted key t.trace = lastCompleted key s.trace := fun key => by
    rw [htrace, lastCompleted_aside hes]
  refine ⟨fun key r i h => ?_, fun key r i h => ?_, fun key r i hk h ha => ?_, fun key hk h => ?_⟩
  · rw [hfind]
    exact hi.stored key r i (hsaved key ▸ h)
  · rw [hbecame]
    exact hi.own key r i (hsaved key ▸ h)
  · rw [hlast]
    exact hi.completed key r i hk (hsaved key ▸ h) (hanswered r ▸ ha)
  · rw [hlast]
    exact hi.saved key hk (hsaved key ▸ h)

/-- The events of a request that changes no session, its answer among them. -/
theorem StoryInv.idle {es : List Event} (hi : StoryInv s) (hno : NoBecame r s)
    (hrows : t.db.sessions = s.db.sessions) (htrace : t.trace = es ++ s.trace)
    (hes : ∀ e ∈ es, e.req = r ∧ e.part ≠ .sessions) : StoryInv t ∧ NoBecame r t := by
  have hfind : ∀ key, t.db.findSession key = s.db.findSession key := fun key => by
    rw [Db.findSession, hrows, Db.findSession]
  have hsaved : ∀ key, lastSaved key t.trace = lastSaved key s.trace := fun key => by
    rw [htrace, lastSaved_append fun e he => (hes e he).2]
  have hbecame : ∀ r' key, becameOf r' key t.trace = becameOf r' key s.trace := fun r' key => by
    rw [htrace, becameOf_append fun e he _ => (hes e he).2]
  have hlast : ∀ key, lastCompleted key t.trace = lastCompleted key s.trace := fun key => by
    rw [htrace, lastCompleted_append (hno key) hes]
  refine ⟨⟨fun key r' i h => ?_, fun key r' i h => ?_, fun key r' i hk h ha => ?_,
    fun key hk h => ?_⟩, fun key => (hbecame r key).trans (hno key)⟩
  · rw [hfind]
    exact hi.stored key r' i (hsaved key ▸ h)
  · rw [hbecame]
    exact hi.own key r' i (hsaved key ▸ h)
  · rw [hsaved] at h
    have hne : r ≠ r' := by
      intro hr
      subst hr
      exact hi.notSaved hno key i h
    rw [htrace, answered_append fun e he hr => absurd ((hes e he).1.symm.trans hr) hne] at ha
    rw [hlast]
    exact hi.completed key r' i hk h ha
  · rw [hlast]
    exact hi.saved key hk (hsaved key ▸ h)

/-- An operation changes the session. -/
theorem StoryInv.became {a : Nat} {op : IdentityOp} {identity : Identity} (hi : StoryInv s)
    (hno : NoBecame r s) :
    StoryInv { s with trace := .became r a op key identity :: s.trace } := by
  refine ⟨hi.stored, fun k r' i h => ?_, hi.completed, hi.saved⟩
  have hb := hi.own k r' i h
  have hne : r ≠ r' := by
    intro hr
    subst hr
    exact hi.notSaved hno k i h
  simpa [becameOf, hne] using hb

theorem lastSaved_save_ne {row : CmallSession} {trace : List Event} (h : key ≠ row.cacheKey) :
    lastSaved key (.sessionSaved r row :: trace) = lastSaved key trace := by
  simp [lastSaved, h.symm]

/-- A row is saved: that of an operation of `r`, or one with the identity that is stored. -/
theorem StoryInv.save {row : CmallSession} {now : PTime} (hi : StoryInv s)
    (hrow : becameOf r row.cacheKey s.trace = some row.identity ∧ answered r s.trace = false ∨
      becameOf r row.cacheKey s.trace = none ∧ row.inOrder s.trace = true) :
    StoryInv { s with
      db := s.db.upsetSession row now, trace := .sessionSaved r row :: s.trace } := by
  obtain ⟨found, hfound, hidentity⟩ := @findSession_upset_self s.db row now
  have hself : lastSaved row.cacheKey (.sessionSaved r row :: s.trace) =
      some (r, row.identity) ∧ becameOf r row.cacheKey s.trace = some row.identity ∧
        answered r s.trace = false ∨
      lastSaved row.cacheKey (.sessionSaved r row :: s.trace) = lastSaved row.cacheKey s.trace ∧
        row.inOrder s.trace = true := by
    rcases hrow with ⟨hb, ha⟩ | ⟨hb, ho⟩
    · exact .inl ⟨by simp [lastSaved, hb], hb, ha⟩
    · exact .inr ⟨by simp [lastSaved, hb], ho⟩
  refine ⟨fun key r' i h => ?_, fun key r' i h => ?_, fun key r' i hk h ha => ?_, fun key hk h => ?_⟩
  all_goals
    dsimp only at h
    by_cases hkey : key = row.cacheKey
  · subst hkey
    refine ⟨found, hfound, hidentity.trans ?_⟩
    rcases hself with ⟨hs, -, -⟩ | ⟨hs, ho⟩
    · cases hs.symm.trans h
      rfl
    · have hl := hs.symm.trans h
      simpa [CmallSession.inOrder, hl] using ho
  · rw [lastSaved_save_ne hkey] at h
    obtain ⟨old, hold, hid⟩ := hi.stored key r' i h
    exact ⟨old, (findSession_upset_ne hkey).trans hold, hid⟩
  · subst hkey
    rcases hself with ⟨hs, hb, -⟩ | ⟨hs, -⟩
    · cases hs.symm.trans h
      exact hb
    · exact hi.own _ r' i (hs.symm.trans h)
  · rw [lastSaved_save_ne hkey] at h
    exact hi.own key r' i h
  · subst hkey
    rcases hself with ⟨hs, -, hun⟩ | ⟨hs, -⟩
    · cases hs.symm.trans h
      have htrue : answered r s.trace = true := ha
      rw [hun] at htrue
      cases htrue
    · exact hi.completed _ r' i hk (hs.symm.trans h) ha
  · rw [lastSaved_save_ne hkey] at h
    exact hi.completed key r' i hk h ha
  · subst hkey
    rcases hself with ⟨hs, -, -⟩ | ⟨hs, -⟩
    · cases hs.symm.trans h
    · exact hi.saved _ hk (hs.symm.trans h)
  · rw [lastSaved_save_ne hkey] at h
    exact hi.saved key hk h

/-- A row is written back with the identity that is stored. -/
theorem StoryInv.refresh {row row' : CmallSession} (hi : StoryInv s)
    (hrow : row.inOrder s.trace = true) (hkey : row'.cacheKey = row.cacheKey)
    (hidentity : row'.identity = row.identity) :
    StoryInv { s with db := { s.db with
      sessions := Table.update CmallSession.cacheKey s.db.sessions row' } } := by
  refine ⟨fun key r' i h => ?_, hi.own, hi.completed, hi.saved⟩
  obtain ⟨old, hold, hid⟩ := hi.stored key r' i h
  by_cases hk : key = row'.cacheKey
  · subst hk
    refine ⟨row', Table.find_update_self (Option.isSome_iff_exists.mpr ⟨old, hold⟩), ?_⟩
    have hl : lastSaved row.cacheKey s.trace = some (r', i) := hkey ▸ h
    rw [hidentity]
    simpa [CmallSession.inOrder, hl] using hrow
  · exact ⟨old, (Table.find_update_ne hk).trans hold, hid⟩

/-- Request `r` is answered: what it saved last, or what is still to be answered, is stored. -/
theorem StoryInv.replied {reply : Reply} (hi : StoryInv s)
    (hready : ∀ key, key ≠ "" → becameOf r key s.trace ≠ none → inTurn r key s.trace = true) :
    StoryInv { s with trace := .replied r reply :: s.trace } := by
  refine ⟨hi.stored, hi.own, fun key r' i hk h ha => ?_, fun key hk h => ?_⟩
  · have hown := hi.own key r' i h
    cases hb : becameOf r key s.trace with
    | none =>
      have hne : r ≠ r' := by
        intro hr
        subst hr
        exact absurd (hown.symm.trans hb) (by simp)
      have ha' : answered r' s.trace = true := by
        simpa [answered, hne] using ha
      simpa [lastCompleted, hb] using hi.completed key r' i hk h ha'
    | some identity =>
      have hturn := hready key hk (by simp [hb])
      have hl : lastSaved key s.trace = some (r', i) := h
      simp only [inTurn, hl, Option.any_some] at hturn
      by_cases hr : r' = r
      · subst hr
        cases hown.symm.trans hb
        simp [lastCompleted, hb]
      · have hun : answered r' s.trace = false := by simpa [hr] using hturn
        have ha' : answered r' s.trace = true := by
          simpa [answered, Ne.symm hr] using ha
        rw [hun] at ha'
        cases ha'
  · have hl : lastSaved key s.trace = none := h
    cases hb : becameOf r key s.trace with
    | none => simpa [lastCompleted, hb] using hi.saved key hk hl
    | some identity =>
      have hturn := hready key hk (by simp [hb])
      simp [inTurn, hl] at hturn

end Steps

/-! ## The protocol -/

/-- The events added since `s` satisfy `p`. -/
def Adds (p : Event → Prop) (s t : Mem) : Prop := ∃ es, t.trace = es ++ s.trace ∧ ∀ e ∈ es, p e

theorem Adds.refl {p : Event → Prop} (s : Mem) : Adds p s s := ⟨[], rfl, by simp⟩

theorem Adds.trans {p : Event → Prop} {s t u : Mem} (h : Adds p s t) (h' : Adds p t u) :
    Adds p s u := by
  obtain ⟨es, hes, he⟩ := h
  obtain ⟨es', hes', he'⟩ := h'
  refine ⟨es' ++ es, by rw [hes', hes, List.append_assoc], fun e hmem => ?_⟩
  rcases List.mem_append.mp hmem with hmem | hmem
  · exact he' e hmem
  · exact he e hmem

theorem Adds.emit {p : Event → Prop} {s t : Mem} {e : Event} (h : t.trace = e :: s.trace)
    (he : p e) : Adds p s t := ⟨[e], h, by simpa using he⟩

theorem SavedAnswered.rely {r : Nat} {s t : Mem} (h : SavedAnswered r s)
    (hr : Adds (fun e => e.req ≠ r) s t) : SavedAnswered r t := by
  obtain ⟨es, hes, he⟩ := hr
  intro key identity hs
  rw [hes] at hs ⊢
  exact answered_mono (h key identity (lastSaved_own he hs))

/-- Every request reports what it does, and keeps the story. -/
def storyProtocol : Protocol Request Mem Input Point where
  inv := StoryInv
  rely r _ s t := Adds (fun e => e.req ≠ r) s t
  guar r _ s t := (StoryInv s → StoryInv t) ∧ Adds (fun e => e.req = r) s t
  guard r q p _ s := writesInOrder r q p s = true
  permit _ _ := True
  fresh r s := ∀ e ∈ s.trace, e.req ≠ r
  post r _ s := SavedAnswered r s
  rely_refl _ _ s := .refl s
  rely_trans _ _ _ _ _ h h' := h.trans h'
  guar_refl _ _ s := ⟨id, .refl s⟩
  guar_trans _ _ _ _ _ h h' := ⟨h'.1 ∘ h.1, h.2.trans h'.2⟩
  guar_inv _ _ _ _ hi h := h.1 hi
  guar_rely _ _ _ _ s t hne _ h := by
    obtain ⟨es, hes, he⟩ := h.2
    exact ⟨es, hes, fun e hmem hr => hne ((he e hmem).symm.trans hr)⟩
  fresh_guar r _ r' s t hne h hf := by
    obtain ⟨es, hes, he⟩ := h.2
    intro e hmem hr
    rw [hes] at hmem
    rcases List.mem_append.mp hmem with hmem | hmem
    · exact hne ((he e hmem).symm.trans hr)
    · exact hf e hmem hr
  post_rely _ _ _ _ hr h := h.rely hr

instance (r : Nat) (q : Request) (p : Point) (i : Input) (s : Mem) :
    Decidable (storyProtocol.guard r q p i s) :=
  inferInstanceAs (Decidable (writesInOrder r q p s = true))

instance (q : Request) (s : Mem) : Decidable (storyProtocol.permit q s) := .isTrue trivial

section Assertions

variable {r : Nat} {q : Request} {s t : Mem}

def Unanswered (r : Nat) (s : Mem) : Prop := answered r s.trace = false

theorem noBecame_stable : storyProtocol.Stable r q (NoBecame r) := by
  rintro s t - ⟨es, hes, he⟩ h key
  rw [hes, becameOf_append fun e hmem hr => absurd hr (he e hmem)]
  exact h key

theorem unanswered_stable : storyProtocol.Stable r q (Unanswered r) := by
  rintro s t - ⟨es, hes, he⟩ h
  rw [Unanswered, hes, answered_append fun e hmem hr => absurd hr (he e hmem)]
  exact h

theorem notSaved_stable : storyProtocol.Stable r q (NotSaved r) := by
  rintro s t - ⟨es, hes, he⟩ h key identity hs
  rw [hes] at hs
  exact h key identity (lastSaved_own he hs)

/-- What a step beside the story leaves as it is. -/
structure Beside (r : Nat) (s t : Mem) : Prop where
  sessions : t.db.sessions = s.db.sessions
  trace : Adds (fun e => e.req = r ∧ e.aside) s t

/-- The parts that have nothing to do with the story. -/
def asideParts : List Part :=
  [.heap, .conn, .codes, .uuids, .accounts, .users, .administrators, .apptokens, .merchants,
    .orders, .carts, .favs, .applys, .kvs, .indexGoods, .repos, .loginEvents, .accountEvents,
    .sudoEvents, .orderEvents, .cartEvents]

theorem beside_of_keeps (h : Keeps asideParts r s t) : Beside r s t := by
  obtain ⟨es, hes, he⟩ := h.trace
  refine ⟨h.db.sessions (by simp [asideParts]), es, hes, fun e hmem => ⟨(he e hmem).1, ?_, ?_⟩⟩
  · intro hpart
    have hmem' := (he e hmem).2
    simp [hpart, asideParts] at hmem'
  · rintro r' reply rfl
    have hmem' := (he _ hmem).2
    simp [Event.part, asideParts] at hmem'

theorem Beside.guar (h : Beside r s t) : storyProtocol.guar r q s t := by
  obtain ⟨es, hes, he⟩ := h.trace
  exact ⟨fun hi => hi.aside h.sessions hes fun e hmem => (he e hmem).2,
    es, hes, fun e hmem => (he e hmem).1⟩

/-- An assertion on which the other requests and the steps beside the story have no bearing. -/
structure Own (r : Nat) (q : Request) (L : Mem → Prop) : Prop where
  stable : storyProtocol.Stable r q L
  beside : ∀ s t, Beside r s t → L s → L t

theorem Own.and {L L' : Mem → Prop} (h : Own r q L) (h' : Own r q L') :
    Own r q fun s => L s ∧ L' s :=
  ⟨h.stable.and h'.stable, fun s t hb hl => ⟨h.beside s t hb hl.1, h'.beside s t hb hl.2⟩⟩

theorem own_noBecame : Own r q (NoBecame r) := by
  refine ⟨noBecame_stable, ?_⟩
  rintro s t ⟨-, es, hes, he⟩ h key
  rw [hes, becameOf_append fun e hmem _ => (he e hmem).2.1]
  exact h key

theorem own_unanswered : Own r q (Unanswered r) := by
  refine ⟨unanswered_stable, ?_⟩
  rintro s t ⟨-, es, hes, he⟩ h
  rw [Unanswered, hes, answered_append fun e hmem _ reply => (he e hmem).2.2 r reply]
  exact h

theorem own_notSaved : Own r q (NotSaved r) := by
  refine ⟨notSaved_stable, ?_⟩
  rintro s t ⟨-, es, hes, he⟩ h key identity
  rw [hes, lastSaved_append fun e hmem => (he e hmem).2.1]
  exact h key identity

end Assertions

/-! ## Operations -/

section Operations

variable {r : Nat} {q : Request} {ctx : Ctx} {cfg : Config} {α : Type} {L : Mem → Prop}

theorem aside_triple {x : M α} (hL : Own r q L) (hx : x.Each (Keeps asideParts r)) :
    storyProtocol.Triple r q L x (fun _ => L) L :=
  .each hx hL.stable fun s t _ hl hk =>
    ⟨(beside_of_keeps hk).guar, hL.beside s t (beside_of_keeps hk) hl⟩

/-- A request that changes no session. -/
abbrev IdleSafe (r : Nat) (q : Request) (x : M α) : Prop :=
  storyProtocol.Triple r q (NoBecame r) x (fun _ => NoBecame r) (NoBecame r)

theorem idleSafe_of_each {x : M α} (hx : x.Each (Keeps asideParts r)) : IdleSafe r q x :=
  aside_triple own_noBecame hx

theorem idle_bind {β : Type} {x : M α} {k : α → M β} (hx : IdleSafe r q x)
    (hk : ∀ a, IdleSafe r q (k a)) : IdleSafe r q (x >>= k) := .bind hx hk

theorem saveSession_idle (hr : ctx.req = r) : IdleSafe r q (saveSession ctx) := by
  subst hr
  refine .bind (idleSafe_of_each thisSession_each) fun a => .bind (idleSafe_of_each each_get) fun m => ?_
  refine triple_tx (fun _ => NoBecame ctx.req) noBecame_stable (fun _ => noBecame_stable)
    (fun _ _ h => h) (fun i s _ hl hg => ?_) fun _ _ _ _ h _ => h
  have horder : ((m.heap a).toRow (m.conn ctx.conn).xRealIp m.clock).inOrder s.trace = true := by
    have hstep : writesInOrder ctx.req q ⟨ctx, .save a _⟩ s = true := hg
    simpa only [writesInOrder, hl _] using hstep
  exact ⟨⟨fun hi => hi.save (.inr ⟨hl _, horder⟩), .emit rfl rfl⟩, by simp, fun _ _ => hl⟩

theorem updateLifetime_idle (hr : ctx.req = r) (sessionid : String) :
    IdleSafe r q (updateLifetime ctx sessionid) := by
  subst hr
  refine .bind (idleSafe_of_each each_get) fun m => ?_
  refine .bind (idleSafe_of_each (asyncLoad_each _ _)) fun found => ?_
  split
  · rename_i row
    refine triple_asyncWrite (fun _ => NoBecame ctx.req) noBecame_stable (fun _ => noBecame_stable)
      (fun _ _ h => h) ?_ fun _ _ _ _ h _ => h
    rintro i s ⟨⟩ db _ hl hg ⟨⟩
    exact ⟨⟨fun hi => hi.refresh hg rfl rfl, .refl s⟩, hl⟩
  · exact .ret fun _ _ h => h

/-- `r` has an operation to save. -/
def ToSave (r : Nat) (s : Mem) : Prop := Unanswered r s ∧ NotSaved r s

theorem own_toSave : Own r q (ToSave r) := own_unanswered.and own_notSaved

/-- On every session that it changed it is the turn of `r` to be answered. -/
def Ready (r : Nat) (s : Mem) : Prop :=
  ∀ key, key ≠ "" → becameOf r key s.trace ≠ none → inTurn r key s.trace = true

theorem exists_became {key : String} {trace : List Event} (h : becameOf r key trace ≠ none) :
    ∃ a op identity, .became r a op key identity ∈ trace := by
  induction trace with
  | nil => exact absurd rfl h
  | cons e trace ih =>
    have hrest : becameOf r key trace ≠ none →
        ∃ a op identity, .became r a op key identity ∈ e :: trace := by
      intro h'
      obtain ⟨a, op, identity, hmem⟩ := ih h'
      exact ⟨a, op, identity, List.mem_cons_of_mem _ hmem⟩
    cases e with
    | became r' a op k identity =>
      unfold becameOf at h
      split at h
      · rename_i hk
        obtain ⟨rfl, rfl⟩ := hk
        exact ⟨a, op, identity, List.mem_cons_self ..⟩
      · exact hrest h
    | _ => exact hrest h

theorem ready_of_answerable {s : Mem} (h : answerable r s.trace = true) : Ready r s := by
  intro key _ hb
  obtain ⟨a, op, identity, hmem⟩ := exists_became hb
  have hturn := List.all_eq_true.mp h _ hmem
  simpa using hturn

/-- What is known when the row of an operation is stored. -/
def Stored (r : Nat) (q : Request) (ctx : Ctx) (s : Mem) : Prop :=
  Ready r s ∧ (q.method.any ReqMethod.logsIn = true → s.hasUser ctx.conn = true)

theorem saveSession_toSave (hr : ctx.req = r) :
    storyProtocol.Triple r q (ToSave r) (saveSession ctx) (fun _ => Stored r q ctx) (ToSave r) := by
  subst hr
  refine .bind (aside_triple own_toSave thisSession_each) fun a =>
    .bind (aside_triple own_toSave each_get) fun m => ?_
  refine triple_tx (fun _ _ => True) own_toSave.stable (fun _ => stable_true) (fun _ _ h => h)
    (fun i s _ hl hg => ?_) fun _ i s _ _ hg => ?_
  · have hstep : writesInOrder ctx.req q ⟨ctx, .save a _⟩ s = true := hg
    refine ⟨⟨fun hi => hi.save ?_, .emit rfl rfl⟩, by simp, fun _ _ => trivial⟩
    simp only [writesInOrder] at hstep
    split at hstep
    · rename_i identity hb
      have hrow : _ = identity := of_decide_eq_true hstep
      exact .inl ⟨hrow ▸ hb, hl.1⟩
    · rename_i hb
      exact .inr ⟨hb, hstep⟩
  · have hstep : (answerable ctx.req s.trace &&
        (!q.method.any ReqMethod.logsIn || s.hasUser ctx.conn)) = true := hg
    rw [Bool.and_eq_true] at hstep
    refine ⟨ready_of_answerable hstep.1, fun hq => ?_⟩
    simpa [hq] using hstep.2

/-- The session at `a` is the only one that `r` has changed. -/
def ChangedOnly (r a : Nat) (s : Mem) : Prop :=
  ∀ key, becameOf r key s.trace ≠ none → key = (s.heap a).sessionId

theorem became_story (hr : ctx.req = r) (a : Nat) (op : IdentityOp) :
    storyProtocol.Triple r q (fun s => NoBecame r s ∧ Unanswered r s) (became ctx a op)
      (fun _ s => ToSave r s ∧ ChangedOnly r a s) fun _ => False := by
  subst hr
  refine .modify fun s hi hl => ⟨⟨fun hi => hi.became hl.1, .emit rfl rfl⟩, ⟨hl.2, ?_⟩, ?_⟩
  · exact hi.notSaved hl.1
  · intro key hkey
    by_contra hne
    refine hkey ?_
    simpa [becameOf, Ne.symm hne] using hl.1 key

/-! ## Handlers -/

/-- `r` has neither changed a session nor been answered. -/
def Waiting (r : Nat) (s : Mem) : Prop := NoBecame r s ∧ Unanswered r s

theorem own_waiting : Own r q (Waiting r) := own_noBecame.and own_unanswered

/-- A request that changes the identity of a session, from its beginning to its answer. -/
abbrev OpSafe (r : Nat) (q : Request) (x : M α) : Prop :=
  storyProtocol.Triple r q (Waiting r) x (fun _ => Ready r) (SavedAnswered r)

theorem waiting_skip {β : Type} {x : M α} {k : α → M β} (hx : x.Each (Keeps asideParts r))
    (hk : ∀ a, OpSafe r q (k a)) : OpSafe r q (x >>= k) := by
  refine .bind (Q := fun _ => Waiting r) ?_ hk
  refine .conseq (aside_triple own_waiting hx) (fun _ _ h => h) (fun _ _ _ h => h) ?_
  exact fun s hi h => (hi.notSaved h.1).savedAnswered

theorem toSave_skip {β : Type} {Q : β → Mem → Prop} {x : M α} {k : α → M β}
    (hx : x.Each (Keeps asideParts r))
    (hk : ∀ a, storyProtocol.Triple r q (ToSave r) (k a) Q (SavedAnswered r)) :
    storyProtocol.Triple r q (ToSave r) (x >>= k) Q (SavedAnswered r) := by
  refine .bind (Q := fun _ => ToSave r) ?_ hk
  refine .conseq (aside_triple own_toSave hx) (fun _ _ h => h) (fun _ _ _ h => h) ?_
  exact fun s _ h => h.2.savedAnswered

/-- An operation that changed the session at `a` saves it and is answered. -/
theorem save_answer {β : Type} {k : Unit → M β} (hr : ctx.req = r)
    (hk : storyProtocol.Triple r q (Stored r q ctx) (k ()) (fun _ => Ready r) (SavedAnswered r)) :
    storyProtocol.Triple r q (ToSave r) (saveSession ctx >>= k) (fun _ => Ready r)
      (SavedAnswered r) := by
  refine .bind (Q := fun _ => Stored r q ctx) ?_ fun _ => hk
  refine .conseq (saveSession_toSave hr) (fun _ _ h => h) (fun _ _ _ h => h) ?_
  exact fun s _ h => h.2.savedAnswered

/-- The reply says what the session is like. -/
theorem reply_story (a : Nat) (f : ClientSession → Reply) :
    storyProtocol.Triple r q (Stored r q ctx) (getSession a >>= fun c => pure (f c))
      (fun _ => Ready r) (SavedAnswered r) :=
  .bind (triple_getSession a) fun _ => .ret fun _ _ h => h.2.1

theorem userLogout_story (hr : ctx.req = r) : OpSafe r q (userLogout ctx) := by
  simp only [userLogout]
  refine waiting_skip eraseActive_each fun _ => waiting_skip thisSession_each fun a => ?_
  refine waiting_skip (modifySession_each a _ (by simp [asideParts])) fun _ => ?_
  refine .bind (Q := fun _ => Waiting r) (.modify fun s hi h => ?_) fun _ => ?_
  · have hb : Beside r s { s with trace := .loggedOut ctx.req a :: s.trace } :=
      ⟨rfl, .emit rfl ⟨hr, by simp [Event.part], by simp⟩⟩
    exact ⟨hb.guar, (own_waiting (q := q)).beside s _ hb h⟩
  · refine .bind (.conseq (became_story hr a .logout) (fun _ _ h => h) (fun _ _ _ h => h)
      fun _ _ h => h.elim) fun _ => ?_
    refine .bind (triple_getSession a) fun c => ?_
    split
    · exact .conseq (save_answer hr (.ret fun _ _ h => h.1)) (fun _ _ h => h.2.1)
        (fun _ _ _ h => h) fun _ _ h => h
    · rename_i hid
      refine .ret fun s _ h key hkey hb => absurd ?_ hkey
      rw [h.2.2 key hb, ← h.1]
      simpa using hid

theorem became_skip {β : Type} {k : Unit → M β} (hr : ctx.req = r) (a : Nat) (op : IdentityOp)
    (hk : storyProtocol.Triple r q (ToSave r) (k ()) (fun _ => Ready r) (SavedAnswered r)) :
    OpSafe r q (became ctx a op >>= k) := by
  refine .bind (.conseq (became_story hr a op) (fun _ _ h => h) (fun _ _ _ h => h)
    fun _ _ h => h.elim) fun _ => ?_
  exact .conseq hk (fun _ _ h => h.1) (fun _ _ _ h => h) fun _ _ h => h

theorem adminSudoTo_story (hr : ctx.req = r) (a actor uid : Nat) :
    OpSafe r q (adminSudoTo ctx a actor uid) := by
  simp only [adminSudoTo]
  refine waiting_skip (asyncLoad_each _ _) fun found => ?_
  split
  · exact .throw fun s hi h => (hi.notSaved h.1).savedAnswered
  · refine waiting_skip (asyncLoad_each _ _) fun merchant => ?_
    refine waiting_skip (modifySession_each a _ (by simp [asideParts])) fun _ => ?_
    refine waiting_skip (emit_each (by simp [asideParts, Event.part]) hr) fun _ => ?_
    exact became_skip hr a _ (save_answer hr (reply_story a _))

theorem adminSudo_story (hr : ctx.req = r) (a : Nat) (params : JsonObject) :
    OpSafe r q (adminSudo ctx a params) := by
  have hrest : ∀ x : M Nat, x.Each (Keeps asideParts r) → OpSafe r q (x >>= fun targetUid =>
      thisUser a >>= fun u => if targetUid = u.uid then Co.throw (.system .cannotSudo)
        else adminSudoTo ctx a u.uid targetUid) := by
    intro x hx
    refine waiting_skip hx fun targetUid => waiting_skip (thisUser_each a) fun u => ?_
    split
    · exact .throw fun s hi h => (hi.notSaved h.1).savedAnswered
    · exact adminSudoTo_story hr a _ _
  simp only [adminSudo]
  split
  · exact hrest _ (each_pure _)
  · exact hrest _ (each_pure _)
  · exact hrest _ (each_throw _)

theorem adminSudoCancel_story (hr : ctx.req = r) (a : Nat) :
    OpSafe r q (adminSudoCancel ctx a) := by
  simp only [adminSudoCancel]
  refine waiting_skip (originalUser_each a) fun o => waiting_skip (asyncLoad_each _ _) fun m => ?_
  refine waiting_skip (originalUser_each a) fun u => ?_
  refine waiting_skip (modifySession_each a _ (by simp [asideParts])) fun _ => ?_
  exact became_skip hr a _ (save_answer hr (reply_story a _))

/-- A login whose session still has a user is filed and answered. -/
theorem pushActive_story {β : Type} (hq : q.method.any ReqMethod.logsIn = true) (b : β) :
    storyProtocol.Triple r q (Stored r q ctx) (pushActive ctx >>= fun _ => pure b) (fun _ => Ready r)
      (SavedAnswered r) := by
  simp only [pushActive, thisSession, thisUser, getSession, Co.bind_assoc]
  refine .bind (Q := fun m s => m = s ∧ Stored r q ctx s) (.get fun _ _ h => ⟨rfl, h⟩) fun m => ?_
  cases hconn : (m.conn ctx.conn).sessionInfo with
  | none =>
    refine .throw fun s _ h => absurd (h.2.2 hq) ?_
    simp [Mem.hasUser, ← h.1, hconn]
  | some a =>
    refine .bind (Q := fun m' s => (m' = s ∧ m = s) ∧ Stored r q ctx s)
      (.get fun _ _ h => ⟨⟨rfl, h.1⟩, h.2⟩) fun m' => ?_
    simp only [Co.pure_eq, Co.ret_bind]
    cases huser : (m'.heap a).userInfo with
    | none =>
      refine .throw fun s _ h => absurd (h.2.2 hq) ?_
      obtain ⟨⟨rfl, rfl⟩, -⟩ := h
      simp [Mem.hasUser, hconn, huser]
    | some u =>
      refine .bind (Q := fun _ => Stored r q ctx) (.ret fun s _ h => h.2) fun v => ?_
      refine .bind (Q := fun _ => Ready r) (.modify fun s _ h => ?_) fun _ => .ret fun _ _ h => h
      split
      · exact ⟨⟨id, .refl s⟩, h.1⟩
      · have hb : Beside r s { s with activeUsers := s.activeUsers ++ [(ctx.conn, v.uid)] } :=
          ⟨rfl, .refl s⟩
        exact ⟨hb.guar, h.1⟩

theorem handleUserLogin_story (hr : ctx.req = r) (hq : q.method.any ReqMethod.logsIn = true)
    (a : Nat) (tel : String) : OpSafe r q (handleUserLogin ctx a tel) := by
  have hrest : storyProtocol.Triple r q (ToSave r)
      (modifySession a (fun c => { c with verifySessionCookie := none }) >>= fun _ =>
        saveSession ctx >>= fun _ => getSession a >>= fun c => pushActive ctx >>= fun _ =>
          pure (Reply.login c.isMerchant c.isAdmin c.sudoMode)) (fun _ => Ready r)
      (SavedAnswered r) := by
    refine toSave_skip (modifySession_each a _ (by simp [asideParts])) fun _ => ?_
    refine save_answer hr (.bind (triple_getSession a) fun c => ?_)
    exact .conseq (pushActive_story hq _) (fun _ _ h => h.2) (fun _ _ _ h => h) fun _ _ h => h
  have heap : Part.heap ∈ asideParts := by simp [asideParts]
  simp only [handleUserLogin]
  refine waiting_skip ?_ fun found => ?_
  · exact hr ▸ loadUserByPhone_each a tel (by simp [asideParts])
  · split
    · refine waiting_skip (modifySession_each a _ heap) fun _ => ?_
      refine waiting_skip (emit_each (by simp [asideParts, Event.part]) hr) fun _ => ?_
      refine became_skip hr a _ (toSave_skip (loginMerchant_each a _ heap) fun _ => ?_)
      exact toSave_skip (loginAdmin_each a _ heap) fun _ => hrest
    · simp only [loginNewUser, Co.bind_assoc]
      refine waiting_skip thisSession_each fun b => waiting_skip (getSession_each b) fun c => ?_
      refine waiting_skip localTime_each fun now => waiting_skip ?_ fun u => ?_
      · exact hr ▸ addUser_each _ (by simp [asideParts]) (by simp [asideParts]) (by simp [asideParts])
      · refine waiting_skip thisSession_each fun b => waiting_skip (modifySession_each b _ heap) fun _ => ?_
        refine waiting_skip (emit_each (by simp [asideParts, Event.part]) hr) fun _ => ?_
        refine became_skip hr b _ (toSave_skip (callCheckAdmin_each u) fun _ => hrest)

/-! ## The requests that change no session but write the stored one -/

theorem userPrelogin_idle (hr : ctx.req = r) (a : Nat) (params : JsonObject) :
    IdleSafe r q (userPrelogin ctx a params) := by
  subst hr
  simp only [userPrelogin]
  repeat' first
    | with_reducible exact saveSession_idle rfl
    | with_reducible refine idle_bind ?_ fun _ => ?_
    | (refine idleSafe_of_each ?_; simp [asideParts]; done)
    | split

theorem allocaSessionid_idle (hr : ctx.req = r) : IdleSafe r q (allocaSessionid ctx) := by
  subst hr
  refine .bind (idleSafe_of_each (freshSession_each (by simp [asideParts]))) fun c => ?_
  refine .bind (idleSafe_of_each (newSession_each c ?_ ?_)) fun _ => saveSession_idle rfl
  all_goals simp [asideParts]

theorem recoverSession_idle (hr : ctx.req = r) (params : JsonObject) :
    IdleSafe r q (recoverSession ctx params) := by
  subst hr
  simp only [recoverSession, recoverBySessionid, recoverByApiToken]
  repeat' first
    | with_reducible exact allocaSessionid_idle rfl
    | with_reducible exact updateLifetime_idle rfl _
    | with_reducible refine idle_bind ?_ fun _ => ?_
    | (refine idleSafe_of_each ?_; simp [asideParts]; done)
    | exact idleSafe_of_each (emit_each (by simp [asideParts, Event.part]) rfl)
    | split

theorem recoverByCookie_idle (hr : ctx.req = r) (cookies : List String) :
    IdleSafe r q (recoverByCookie ctx cookies) := by
  subst hr
  induction cookies with
  | nil => exact idleSafe_of_each (each_ret _)
  | cons sessionid rest ih =>
    simp only [recoverByCookie]
    repeat' first
      | with_reducible exact ih
      | with_reducible exact updateLifetime_idle rfl _
      | with_reducible refine idle_bind ?_ fun _ => ?_
      | (refine idleSafe_of_each ?_; simp [asideParts]; done)
      | split

theorem clientConnected_idle (hr : ctx.req = r) (ip : String) (cookies : List String)
    (alloca : Bool) : IdleSafe r q (clientConnected ctx ip cookies alloca) := by
  subst hr
  simp only [clientConnected]
  repeat' first
    | with_reducible exact recoverByCookie_idle rfl _
    | with_reducible exact allocaSessionid_idle rfl
    | with_reducible refine idle_bind ?_ fun _ => ?_
    | (refine idleSafe_of_each ?_; simp [asideParts]; done)
    | split

/-- A request that does not touch the stored sessions. -/
theorem idleSafe_of_keeps {K : List Part} {x : M α} (hK : .sessions ∉ K)
    (hx : x.Each (Keeps K r)) : IdleSafe r q x := by
  refine .each hx noBecame_stable fun s t hi hl hk => ?_
  obtain ⟨es, hes, he⟩ := hk.trace
  have hev : ∀ e ∈ es, e.req = r ∧ e.part ≠ .sessions := fun e hmem =>
    ⟨(he e hmem).1, fun hpart => hK (hpart ▸ (he e hmem).2)⟩
  have hstep := hi.idle hl (hk.db.sessions hK) hes hev
  exact ⟨⟨fun _ => hstep.1, es, hes, fun e hmem => (hev e hmem).1⟩, hstep.2⟩

theorem opSafe_of_idle {x : M α} (hx : IdleSafe r q x) : OpSafe r q x :=
  .conseq hx (fun _ _ h => h.1) (fun _ _ _ h key _ hb => absurd (h key) hb)
    fun _ hi h => (hi.notSaved h).savedAnswered

/-! ## Programs -/

theorem handlerOf_story {conn : Nat} {method : ReqMethod} {params : JsonObject}
    (hq : q.method = some method) (hm : .sessions ∈ method.footprint) :
    OpSafe r q (handlerOf cfg ⟨conn, r⟩ method params) := by
  cases method <;> first | (simp [ReqMethod.footprint] at hm; done) | skip
  all_goals simp only [handlerOf, ReqMethod.api]
  case recoverSession => exact opSafe_of_idle (recoverSession_idle (by rfl) params)
  all_goals
    simp only [handleJsonrpcUserApi, handleJsonrpcAdminApi]
    refine waiting_skip thisSession_each fun a => ?_
  case userPrelogin => exact opSafe_of_idle (userPrelogin_idle (by rfl) a params)
  case userLogout => exact userLogout_story (by rfl)
  case adminSudo => exact adminSudo_story (by rfl) a params
  case adminSudoCancel => exact adminSudoCancel_story (by rfl) a
  case userFastlogin =>
    refine waiting_skip external_each fun phone => ?_
    split
    · exact .throw fun s hi h => (hi.notSaved h.1).savedAnswered
    · refine waiting_skip (modifySession_each a _ (by simp [asideParts])) fun _ => ?_
      refine waiting_skip (getSession_each a) fun c => ?_
      exact handleUserLogin_story (by rfl) (by rw [hq]; rfl) a _
  case userLogin =>
    have hthrow : ∀ e, OpSafe r q (Co.throw e : M Reply) := fun e =>
      .throw fun s hi h => (hi.notSaved h.1).savedAnswered
    simp only [userLogin]
    refine waiting_skip (getSession_each a) fun c => ?_
    split
    · refine waiting_skip (verifyVerifyCode_each _ _) fun ok => ?_
      split
      · refine waiting_skip (emit_each (by simp [asideParts, Event.part]) rfl) fun _ => ?_
        refine waiting_skip (getSession_each a) fun c => ?_
        exact handleUserLogin_story (by rfl) (by rw [hq]; rfl) a _
      · exact hthrow _
    · exact hthrow _

theorem replied_story {reply : Reply} {s : Mem} (hi : StoryInv s) (h : Ready r s) :
    storyProtocol.guar r q s { s with trace := .replied r reply :: s.trace } ∧
      SavedAnswered r { s with trace := .replied r reply :: s.trace } := by
  refine ⟨⟨fun _ => hi.replied h, .emit rfl rfl⟩, fun key identity _ => ?_⟩
  simp [answered]

end Operations

theorem programs_story (cfg : Config) : storyProtocol.Programs (prog cfg) := by
  intro r q m hi hf _
  have hno : NoBecame r m := by
    intro key
    by_contra hb
    obtain ⟨a, op, identity, hmem⟩ := exists_became hb
    exact hf _ hmem rfl
  have hun : Unanswered r m := by
    refine List.any_eq_false.mpr fun e he => ?_
    cases e with
    | replied r' reply =>
      have hne : r' ≠ r := hf _ he
      simpa using hne
    | _ => simp
  have hidle : IdleSafe r q (serve cfg ⟨q.conn, r⟩ q) →
      (prog cfg r q).Suspended storyProtocol r q m := by
    intro h
    refine Triple.suspended (L := NoBecame r) noBecame_stable hno (fun _ _ _ h _ => h) fun _ => ?_
    exact .conseq h (fun _ _ h => h) (fun _ _ hi h => (hi.notSaved h).savedAnswered)
      fun _ hi h => (hi.notSaved h).savedAnswered
  by_cases hq : .sessions ∈ q.footprint
  · cases q with
    | jsonrpc conn method params =>
      have hm : .sessions ∈ method.footprint := by simpa [Request.footprint] using hq
      refine prog_suspended_of_handler (L := Waiting r) own_waiting.stable ⟨hno, hun⟩
        (fun _ _ _ h _ => h) (fun s hi h => (hi.notSaved h.1).savedAnswered) ?_
        fun reply s hi h => replied_story hi h
      exact handlerOf_story (by rfl) hm
    | connect conn ip cookies alloca => exact hidle (clientConnected_idle (by rfl) ip cookies alloca)
    | _ => simp [Request.footprint] at hq
  · have heach : (serve cfg ⟨q.conn, r⟩ q).Each (Keeps q.footprint r) :=
      @serve_each ⟨q.conn, r⟩ cfg q
    exact hidle (idleSafe_of_keeps hq heach)

/-- In every run in which the stored session is written in the order of the operations: once
no request is in flight, the stored row of a session id has the identity of the last
operation that was completed on it, and if that left nobody logged in, the session that is
recovered has no user. -/
theorem stored_identity_follows (cfg : Config) (m : Mem) (hm : m.trace = [])
    (ls : List (Label Request Input))
    (hls : storyProtocol.Admissible (prog cfg) (Sys.idle m) ls) (key : String) (hkey : key ≠ "")
    (identity : Identity) :
    let s := (Sys.idle m : Service).run (prog cfg) ls
    s.quiet = true → lastCompleted key s.mem.trace = some identity →
      ∃ row, s.mem.db.findSession key = some row ∧ row.identity = identity ∧
        (identity.uid = none → (row.toSession key).userInfo = none) := by
  have hinv : StoryInv m := by
    refine ⟨fun key r i h => ?_, fun key r i h => ?_, fun key r i _ h => ?_, fun key _ _ => ?_⟩
    all_goals rw [hm] at *
    · cases h
    · cases h
    · cases h
    · rfl
  have hgood := run_good (programs_story cfg)
    (good_idle (P := storyProtocol) (ε := Exn) (α := Unit) hinv fun r e he => by
      rw [hm] at he
      cases he) hls
  intro s hquiet hlast
  have hi : StoryInv s.mem := hgood.inv
  cases hs : lastSaved key s.mem.trace with
  | none =>
    have hno := hi.saved key hkey hs
    rw [hlast] at hno
    cases hno
  | some x =>
    obtain ⟨r, i⟩ := x
    have hstarted : r < s.procs.length := by
      by_contra hlen
      have hb : becameOf r key s.mem.trace ≠ none := by
        rw [hi.own key r i hs]
        simp
      obtain ⟨a, op, identity', hmem⟩ := exists_became hb
      exact hgood.fresh r (Nat.le_of_not_lt hlen) _ hmem rfl
    have hproc : s.procs[r]? = some s.procs[r] := List.getElem?_eq_getElem hstarted
    have hanswered : answered r s.mem.trace = true := hgood.post hquiet hproc key i hs
    have hi' : i = identity := by
      have hc := hi.completed key r i hkey hs hanswered
      rw [hlast] at hc
      exact (Option.some.inj hc).symm
    subst hi'
    obtain ⟨row, hrow, hid⟩ := hi.stored key r i hs
    refine ⟨row, hrow, hid, fun hnone => ?_⟩
    have huid : row.cacheContent.uid = none := (congrArg Identity.uid hid).trans hnone
    simp [CmallSession.toSession, huid]

/-! ## Two connections with one cookie -/

/-- The stored session "s" is that of user 1. -/
def loggedInRow : Mem where
  db :=
    { users := [{ uid := 1 }]
      sessions := [{
        cacheKey := "s"
        uid := some 1
        cacheContent :=
          { uid := some 1, tel := "", verifyCookie := "", sudoMode := false, originalUser := none }
        ipAddress := none
        createdAt := 0
        updatedAt := 0 }] }

def nobody : Identity := ⟨none, false, none⟩

/-- Connection `c` comes with the cookie as request `r`, up to its resumption `n`. -/
def comes (c r n : Nat) : List (Label Request Input) :=
  .spawn (.connect c "" ["s"] false) :: resumes r n

def logsOut (c r : Nat) : List (Label Request Input) :=
  .spawn (.jsonrpc c .userLogout []) :: resumes r 3

/-- The second connection comes after the logout on the first. -/
theorem stored_identity_follows_logout :
    ∃ row, ((Sys.idle loggedInRow : Service).run (prog bareConfig)
        (comes 0 0 15 ++ logsOut 0 1 ++ comes 1 2 9)).mem.db.findSession "s" = some row ∧
      row.identity = nobody ∧ (nobody.uid = none → (row.toSession "s").userInfo = none) :=
  stored_identity_follows bareConfig loggedInRow rfl _ (by decide +kernel) "s" (by decide) nobody
    (by decide +kernel) (by decide +kernel)

/-- The second connection has read the row when the first logs out, and writes it back after
that: the session is logged in again. -/
theorem logout_is_undone :
    let s := (Sys.idle loggedInRow : Service).run (prog bareConfig)
      (comes 0 0 15 ++ comes 1 1 13 ++ logsOut 0 2 ++ resumes 1 2)
    s.quiet = true ∧ lastCompleted "s" s.mem.trace = some nobody ∧
      (s.mem.db.findSession "s").map CmallSession.identity = some ⟨some 1, false, none⟩ := by
  decide +kernel

end Cmall
