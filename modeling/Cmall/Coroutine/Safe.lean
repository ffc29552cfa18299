import Cmall.Coroutine.Basic

/-!
Rely-guarantee reasoning for interleaved coroutines.

A `Protocol` says what every segment may assume (`inv`, `rely`), what it must
establish (`guar`), what is known of a number that is not in use yet (`fresh`),
what a coroutine that has ended leaves behind (`post`) and which resumptions and
starts a run is restricted to (`guard`, `permit`).
`Co.Safe` is the verification condition of one coroutine; `Protocol.run_good`
puts them together: if every program is safe on its own, then in every admissible
run the invariant holds in every state and every single step obeys the guarantee
of the coroutine that makes it.
-/

namespace Coroutine

variable {ρ σ ι τ ε α β : Type}

structure Protocol (ρ σ ι τ : Type) where
  inv : σ → Prop
  rely : Nat → ρ → σ → σ → Prop
  guar : Nat → ρ → σ → σ → Prop
  guard : Nat → ρ → τ → ι → σ → Prop
  permit : ρ → σ → Prop
  fresh : Nat → σ → Prop := fun _ _ => True
  post : Nat → ρ → σ → Prop := fun _ _ _ => True
  rely_refl : ∀ r q s, rely r q s s
  rely_trans : ∀ r q s t u, rely r q s t → rely r q t u → rely r q s u
  guar_refl : ∀ r q s, guar r q s s
  guar_trans : ∀ r q s t u, guar r q s t → guar r q t u → guar r q s u
  guar_inv : ∀ r q s t, inv s → guar r q s t → inv t
  guar_rely : ∀ r q r' q' s t, r ≠ r' → inv s → guar r q s t → rely r' q' s t
  fresh_guar : ∀ r q r' s t, r ≠ r' → guar r q s t → fresh r' s → fresh r' t := by
    intros; trivial
  post_rely : ∀ r q s t, rely r q s t → post r q s → post r q t := by intros; trivial

/-- What the last segment of a coroutine must establish. -/
def Protocol.Done (P : Protocol ρ σ ι τ) (r : Nat) (q : ρ) (s₀ s : σ) : Prop :=
  P.guar r q s₀ s ∧ P.post r q s

namespace Co

/-- `Safe P r q p Q E s₀ s`: coroutine `r`, started for `q` and now at `p`, keeps
to the protocol. `s₀` is the memory its current segment began in and `s` the
memory now; `Q` and `E` are the conditions at its end and at its failure. -/
def Safe (P : Protocol ρ σ ι τ) (r : Nat) (q : ρ) : Co σ ι τ ε α →
    (α → σ → σ → Prop) → (ε → σ → σ → Prop) → σ → σ → Prop
  | ret a, Q, _, s₀, s => Q a s₀ s
  | fail e, _, E, s₀, s => E e s₀ s
  | act f k, Q, E, s₀, s => (k s).Safe P r q Q E s₀ (f s)
  | await t k, Q, E, s₀, s =>
    P.guar r q s₀ s ∧ ∀ s', P.inv s' → P.rely r q s s' → ∀ i, P.guard r q t i s' →
      (k i).Safe P r q Q E s' s'

variable {P : Protocol ρ σ ι τ} {r : Nat} {q : ρ}

@[simp] theorem safe_ret (a : α) (Q : α → σ → σ → Prop) (E : ε → σ → σ → Prop) (s₀ s : σ) :
    (ret a : Co σ ι τ ε α).Safe P r q Q E s₀ s ↔ Q a s₀ s := Iff.rfl

@[simp] theorem safe_fail (e : ε) (Q : α → σ → σ → Prop) (E : ε → σ → σ → Prop) (s₀ s : σ) :
    (fail e : Co σ ι τ ε α).Safe P r q Q E s₀ s ↔ E e s₀ s := Iff.rfl

@[simp] theorem safe_throw (e : ε) (Q : α → σ → σ → Prop) (E : ε → σ → σ → Prop) (s₀ s : σ) :
    (throw e : Co σ ι τ ε α).Safe P r q Q E s₀ s ↔ E e s₀ s := Iff.rfl

@[simp] theorem safe_get (Q : σ → σ → σ → Prop) (E : ε → σ → σ → Prop) (s₀ s : σ) :
    (get : Co σ ι τ ε σ).Safe P r q Q E s₀ s ↔ Q s s₀ s := Iff.rfl

@[simp] theorem safe_modify (f : σ → σ) (Q : Unit → σ → σ → Prop) (E : ε → σ → σ → Prop)
    (s₀ s : σ) :
    (modify f : Co σ ι τ ε Unit).Safe P r q Q E s₀ s ↔ Q () s₀ (f s) := Iff.rfl

@[simp] theorem safe_modifyGet (f : σ → α × σ) (Q : α → σ → σ → Prop) (E : ε → σ → σ → Prop)
    (s₀ s : σ) :
    (modifyGet f : Co σ ι τ ε α).Safe P r q Q E s₀ s ↔ Q (f s).1 s₀ (f s).2 := Iff.rfl

@[simp] theorem safe_suspend (t : τ) (Q : ι → σ → σ → Prop) (E : ε → σ → σ → Prop)
    (s₀ s : σ) :
    (suspend t : Co σ ι τ ε ι).Safe P r q Q E s₀ s ↔
      P.guar r q s₀ s ∧ ∀ s', P.inv s' → P.rely r q s s' → ∀ i, P.guard r q t i s' → Q i s' s' :=
  Iff.rfl

@[simp] theorem safe_bind (x : Co σ ι τ ε α) (g : α → Co σ ι τ ε β)
    (Q : β → σ → σ → Prop) (E : ε → σ → σ → Prop) (s₀ s : σ) :
    (x >>= g).Safe P r q Q E s₀ s ↔
      x.Safe P r q (fun a => (g a).Safe P r q Q E) E s₀ s := by
  induction x generalizing s₀ s with
  | ret a => exact Iff.rfl
  | fail e => exact Iff.rfl
  | act f k ih => exact ih s s₀ (f s)
  | await t k ih =>
    simp only [await_bind, Safe]
    constructor
    · rintro ⟨hg, h⟩
      exact ⟨hg, fun s' hi hr i ht => (ih i s' s').mp (h s' hi hr i ht)⟩
    · rintro ⟨hg, h⟩
      exact ⟨hg, fun s' hi hr i ht => (ih i s' s').mpr (h s' hi hr i ht)⟩

theorem safe_tryCatch (x : Co σ ι τ ε α) (h : ε → Co σ ι τ ε α)
    (Q : α → σ → σ → Prop) (E : ε → σ → σ → Prop) (s₀ s : σ) :
    (x.tryCatch h).Safe P r q Q E s₀ s ↔
      x.Safe P r q Q (fun e => (h e).Safe P r q Q E) s₀ s := by
  induction x generalizing s₀ s with
  | ret a => exact Iff.rfl
  | fail e => exact Iff.rfl
  | act f k ih => exact ih s s₀ (f s)
  | await t k ih =>
    simp only [tryCatch, Safe]
    constructor
    · rintro ⟨hg, h⟩
      exact ⟨hg, fun s' hi hr i ht => (ih i s' s').mp (h s' hi hr i ht)⟩
    · rintro ⟨hg, h⟩
      exact ⟨hg, fun s' hi hr i ht => (ih i s' s').mpr (h s' hi hr i ht)⟩

/-- Rule of consequence. -/
theorem Safe.mono {x : Co σ ι τ ε α} {Q Q' : α → σ → σ → Prop} {E E' : ε → σ → σ → Prop}
    {s₀ s : σ} (h : x.Safe P r q Q E s₀ s) (hQ : ∀ a s₀ s, Q a s₀ s → Q' a s₀ s)
    (hE : ∀ e s₀ s, E e s₀ s → E' e s₀ s) : x.Safe P r q Q' E' s₀ s := by
  induction x generalizing s₀ s with
  | ret a => exact hQ _ _ _ h
  | fail e => exact hE _ _ _ h
  | act f k ih => exact ih s h
  | await t k ih => exact ⟨h.1, fun s' hi hr i ht => ih i (h.2 s' hi hr i ht)⟩

/-- Every single access of the memory is a `G` step. -/
def Each (G : σ → σ → Prop) : Co σ ι τ ε α → Prop
  | ret _ => True
  | fail _ => True
  | act f k => ∀ s, G s (f s) ∧ (k s).Each G
  | await _ k => ∀ i, (k i).Each G

section Each

variable {G : σ → σ → Prop}

theorem each_ret (a : α) : (ret a : Co σ ι τ ε α).Each G := trivial

theorem each_throw (e : ε) : (throw e : Co σ ι τ ε α).Each G := trivial

theorem each_get (h : ∀ s, G s s) : (get : Co σ ι τ ε σ).Each G := fun s => ⟨h s, trivial⟩

theorem each_modify {f : σ → σ} (h : ∀ s, G s (f s)) : (modify f : Co σ ι τ ε Unit).Each G :=
  fun s => ⟨h s, trivial⟩

theorem each_modifyGet {f : σ → α × σ} (h : ∀ s, G s (f s).2) :
    (modifyGet f : Co σ ι τ ε α).Each G :=
  fun s => ⟨h s, trivial⟩

theorem each_suspend (t : τ) : (suspend t : Co σ ι τ ε ι).Each G := fun _ => trivial

/-- Nothing is asked of the accesses. -/
theorem each_any (x : Co σ ι τ ε α) : x.Each fun _ _ => True := by
  induction x with
  | ret a => trivial
  | fail e => trivial
  | act f k ih => exact fun s => ⟨trivial, ih s⟩
  | await t k ih => exact ih

theorem each_bind {x : Co σ ι τ ε α} {g : α → Co σ ι τ ε β}
    (hx : x.Each G) (hg : ∀ a, (g a).Each G) : (x >>= g).Each G := by
  induction x with
  | ret a => exact hg a
  | fail e => trivial
  | act f k ih => exact fun s => ⟨(hx s).1, ih s (hx s).2⟩
  | await t k ih => exact fun i => ih i (hx i)

theorem each_suspend_bind {t : τ} {g : ι → Co σ ι τ ε β} :
    (suspend t >>= g).Each G ↔ ∀ i, (g i).Each G := Iff.rfl

theorem each_modifyGet_bind {f : σ → α × σ} {g : α → Co σ ι τ ε β} :
    (modifyGet f >>= g).Each G ↔ ∀ s, G s (f s).2 ∧ (g (f s).1).Each G := Iff.rfl

theorem each_tryCatch {x : Co σ ι τ ε α} {h : ε → Co σ ι τ ε α}
    (hx : x.Each G) (hh : ∀ e, (h e).Each G) : (x.tryCatch h).Each G := by
  induction x with
  | ret a => trivial
  | fail e => exact hh e
  | act f k ih => exact fun s => ⟨(hx s).1, ih s (hx s).2⟩
  | await t k ih => exact fun i => ih i (hx i)

theorem Each.mono {G' : σ → σ → Prop} {x : Co σ ι τ ε α} (hx : x.Each G)
    (h : ∀ s t, G s t → G' s t) : x.Each G' := by
  induction x with
  | ret a => trivial
  | fail e => trivial
  | act f k ih => exact fun s => ⟨h s (f s) (hx s).1, ih s (hx s).2⟩
  | await t k ih => exact fun i => ih i (hx i)

/-- What every access keeps, a segment keeps. -/
theorem Each.advance {J : σ → Prop} {x : Co σ ι τ ε α} {s : σ} (hx : x.Each G)
    (hJ : ∀ s t, G s t → J s → J t) (hs : J s) :
    J (x.advance s).1 ∧ (x.advance s).2.Each G := by
  induction x generalizing s with
  | ret a => exact ⟨hs, trivial⟩
  | fail e => exact ⟨hs, trivial⟩
  | act f k ih => exact ih s (hx s).2 (hJ s (f s) (hx s).1 hs)
  | await t k _ => exact ⟨hs, hx⟩

theorem Each.resume {J : σ → Prop} {x : Co σ ι τ ε α} {s : σ} (hx : x.Each G) (i : ι)
    (hJ : ∀ s t, G s t → J s → J t) (hs : J s) :
    J (x.resume i s).1 ∧ (x.resume i s).2.Each G := by
  cases x with
  | await t k => exact Each.advance (hx i) hJ hs
  | _ => exact Each.advance hx hJ hs

end Each

/-- Every result satisfies `p`. -/
def Returns (p : α → Prop) : Co σ ι τ ε α → Prop
  | ret a => p a
  | fail _ => True
  | act _ k => ∀ s, (k s).Returns p
  | await _ k => ∀ i, (k i).Returns p

theorem returns_bind {p : α → Prop} {p' : β → Prop} {x : Co σ ι τ ε α} {g : α → Co σ ι τ ε β}
    (hx : x.Returns p) (hg : ∀ a, p a → (g a).Returns p') : (x >>= g).Returns p' := by
  induction x with
  | ret a => exact hg a hx
  | fail e => trivial
  | act f k ih => exact fun s => ih s (hx s)
  | await t k ih => exact fun i => ih i (hx i)

theorem each_bind_of_returns {G : σ → σ → Prop} {p : α → Prop} {x : Co σ ι τ ε α}
    {g : α → Co σ ι τ ε β} (hx : x.Each G) (hr : x.Returns p) (hg : ∀ a, p a → (g a).Each G) :
    (x >>= g).Each G := by
  induction x with
  | ret a => exact hg a hr
  | fail e => trivial
  | act f k ih => exact fun s => ⟨(hx s).1, ih s (hx s).2 (hr s)⟩
  | await t k ih => exact fun i => ih i (hx i) (hr i)

theorem returns_true (x : Co σ ι τ ε α) : x.Returns fun _ => True := by
  induction x with
  | ret a => trivial
  | fail e => trivial
  | act f k ih => exact ih
  | await t k ih => exact ih

theorem Safe.returns {p : α → Prop} {x : Co σ ι τ ε α} {Q : α → σ → σ → Prop}
    {E : ε → σ → σ → Prop} {s₀ s : σ} (hx : x.Returns p) (h : x.Safe P r q Q E s₀ s) :
    x.Safe P r q (fun a s₀ s => p a ∧ Q a s₀ s) E s₀ s := by
  induction x generalizing s₀ s with
  | ret a => exact ⟨hx, h⟩
  | fail e => exact h
  | act f k ih => exact ih s (hx s) h
  | await t k ih => exact ⟨h.1, fun s' hi hr i ht => ih i (hx i) (h.2 s' hi hr i ht)⟩

/-- A coroutine that waits to be resumed and keeps to the protocol from here on,
or has ended. -/
def Suspended (P : Protocol ρ σ ι τ) (r : Nat) (q : ρ) (p : Co σ ι τ ε α) (s : σ) : Prop :=
  match p with
  | await t k => ∀ s', P.inv s' → P.rely r q s s' → ∀ i, P.guard r q t i s' →
      (k i).Safe P r q (fun _ => P.Done r q) (fun _ => P.Done r q) s' s'
  | ret _ => P.post r q s
  | fail _ => P.post r q s
  | act _ _ => False

theorem Suspended.rely {p : Co σ ι τ ε α} {s t : σ} (h : p.Suspended P r q s)
    (hr : P.rely r q s t) : p.Suspended P r q t := by
  cases p with
  | await t k => exact fun s' hi hr' => h s' hi (P.rely_trans _ _ _ _ _ hr hr')
  | ret a => exact P.post_rely _ _ _ _ hr h
  | fail e => exact P.post_rely _ _ _ _ hr h
  | act f k => exact h

theorem Suspended.post {p : Co σ ι τ ε α} {s : σ} (h : p.Suspended P r q s)
    (hf : p.finished = true) : P.post r q s := by
  cases p with
  | ret a => exact h
  | fail e => exact h
  | act f k => cases hf
  | await t k => cases hf

/-- Executing a safe segment obeys the guarantee and ends suspended. -/
theorem Safe.advance {p : Co σ ι τ ε α} {s₀ s : σ}
    (h : p.Safe P r q (fun _ => P.Done r q) (fun _ => P.Done r q) s₀ s) :
    P.guar r q s₀ (p.advance s).1 ∧ (p.advance s).2.Suspended P r q (p.advance s).1 := by
  induction p generalizing s with
  | ret a => exact h
  | fail e => exact h
  | act f k ih => exact ih s h
  | await t k _ => exact ⟨h.1, h.2⟩

end Co

/-- What every access of every program keeps holds in every state of every run. -/
theorem Sys.run_each {G : σ → σ → Prop} {J : σ → Prop} {prog : Nat → ρ → Co σ ι τ ε α}
    (hprog : ∀ r q, (prog r q).Each G) (hJ : ∀ s t, G s t → J s → J t) {m : σ} (hm : J m)
    (ls : List (Label ρ ι)) : J ((Sys.idle m : Sys ρ σ ι τ ε α).run prog ls).mem := by
  have hrun : ∀ s : Sys ρ σ ι τ ε α, J s.mem → (∀ p ∈ s.procs, p.code.Each G) →
      J (s.run prog ls).mem := by
    induction ls with
    | nil => exact fun s hs _ => hs
    | cons l ls ih =>
      intro s hs hp
      rw [Sys.run_cons]
      cases l with
      | spawn q =>
        refine ih _ hs fun p hmem => ?_
        rcases List.mem_append.mp hmem with hmem | hmem
        · exact hp p hmem
        · rw [List.mem_singleton.mp hmem]
          exact hprog _ _
      | resume r i =>
        cases hr : s.procs[r]? with
        | none =>
          have hstep : s.step prog (.resume r i) = s := by simp [Sys.step, hr]
          rw [hstep]
          exact ih s hs hp
        | some p =>
          have hres := Co.Each.resume (hp p (List.mem_of_getElem? hr)) i hJ hs
          have hstep : s.step prog (.resume r i) = ⟨(p.code.resume i s.mem).1,
              s.procs.set r ⟨p.req, (p.code.resume i s.mem).2⟩⟩ := by simp [Sys.step, hr]
          rw [hstep]
          refine ih _ hres.1 fun p' hmem => ?_
          rcases List.mem_or_eq_of_mem_set hmem with hmem | rfl
          · exact hp p' hmem
          · exact hres.2
  exact hrun _ hm (by simp [Sys.idle])

namespace Protocol

/-- The label may be taken: a start is permitted, a resumption meets the guard of
the suspension point the coroutine waits at. -/
def Allows (P : Protocol ρ σ ι τ) (s : Sys ρ σ ι τ ε α) : Label ρ ι → Prop
  | .spawn q => P.permit q s.mem
  | .resume r i =>
    match s.procs[r]? with
    | some ⟨q, .await t _⟩ => P.guard r q t i s.mem
    | _ => False

/-- The guard of a resumption that may be taken. -/
theorem Allows.guard {P : Protocol ρ σ ι τ} {s : Sys ρ σ ι τ ε α} {r : Nat} {i : ι}
    {p : Proc ρ σ ι τ ε α} (h : P.Allows s (.resume r i)) (hp : s.procs[r]? = some p) :
    ∃ t, P.guard r p.req t i s.mem := by
  obtain ⟨q, code⟩ := p
  cases code with
  | await t k => exact ⟨t, by simpa [Allows, hp] using h⟩
  | ret a => simp [Allows, hp] at h
  | fail e => simp [Allows, hp] at h
  | act f k => simp [Allows, hp] at h

def Admissible (P : Protocol ρ σ ι τ) (prog : Nat → ρ → Co σ ι τ ε α) :
    Sys ρ σ ι τ ε α → List (Label ρ ι) → Prop
  | _, [] => True
  | s, l :: ls => P.Allows s l ∧ P.Admissible prog (s.step prog l) ls

section Decidable

variable (P : Protocol ρ σ ι τ) [∀ r q t i s, Decidable (P.guard r q t i s)]
  [∀ q s, Decidable (P.permit q s)]

instance decidableAllows (s : Sys ρ σ ι τ ε α) : (l : Label ρ ι) → Decidable (P.Allows s l)
  | .spawn q => inferInstanceAs (Decidable (P.permit q s.mem))
  | .resume r i =>
    match h : s.procs[r]? with
    | none => .isFalse (by simp [Allows, h])
    | some ⟨q, .await t _⟩ => decidable_of_iff (P.guard r q t i s.mem) (by simp [Allows, h])
    | some ⟨_, .ret _⟩ => .isFalse (by simp [Allows, h])
    | some ⟨_, .fail _⟩ => .isFalse (by simp [Allows, h])
    | some ⟨_, .act _ _⟩ => .isFalse (by simp [Allows, h])

instance decidableAdmissible (prog : Nat → ρ → Co σ ι τ ε α) :
    (s : Sys ρ σ ι τ ε α) → (ls : List (Label ρ ι)) → Decidable (P.Admissible prog s ls)
  | _, [] => .isTrue trivial
  | s, l :: ls =>
    have := decidableAdmissible prog (s.step prog l) ls
    inferInstanceAs (Decidable (P.Allows s l ∧ P.Admissible prog (s.step prog l) ls))

end Decidable

/-- The invariant holds and every coroutine keeps to the protocol. -/
structure Good (P : Protocol ρ σ ι τ) (s : Sys ρ σ ι τ ε α) : Prop where
  inv : P.inv s.mem
  fresh : ∀ r, s.procs.length ≤ r → P.fresh r s.mem
  procs : ∀ (r : Nat) (p : Proc ρ σ ι τ ε α), s.procs[r]? = some p →
    p.code.Suspended P r p.req s.mem

/-- Every program, when started under a new number, keeps to the protocol. -/
def Programs (P : Protocol ρ σ ι τ) (prog : Nat → ρ → Co σ ι τ ε α) : Prop :=
  ∀ r q m, P.inv m → P.fresh r m → P.permit q m → (prog r q).Suspended P r q m

variable {P : Protocol ρ σ ι τ} {prog : Nat → ρ → Co σ ι τ ε α} {s : Sys ρ σ ι τ ε α}

theorem good_idle {m : σ} (h : P.inv m) (hf : ∀ r, P.fresh r m) :
    P.Good (Sys.idle m : Sys ρ σ ι τ ε α) :=
  ⟨h, fun r _ => hf r, by simp [Sys.idle]⟩

/-- A resumption obeys the guarantee of the coroutine that is resumed. -/
theorem Good.step_guar (prog : Nat → ρ → Co σ ι τ ε α) (h : P.Good s) {r : Nat} {i : ι}
    (ha : P.Allows s (.resume r i)) :
    ∃ p, s.procs[r]? = some p ∧ P.guar r p.req s.mem (s.step prog (.resume r i)).mem ∧
      (p.code.resume i s.mem).2.Suspended P r p.req (s.step prog (.resume r i)).mem := by
  cases hp : s.procs[r]? with
  | none => simp [Allows, hp] at ha
  | some p =>
    obtain ⟨q, code⟩ := p
    cases code with
    | await t k =>
      have hg : P.guard r q t i s.mem := by simpa [Allows, hp] using ha
      have hs := h.procs r _ hp s.mem h.inv (P.rely_refl _ _ _) i hg
      refine ⟨_, rfl, ?_⟩
      simpa [Sys.step, hp, Co.resume] using hs.advance
    | ret a => simp [Allows, hp] at ha
    | fail e => simp [Allows, hp] at ha
    | act f k => simp [Allows, hp] at ha

theorem Good.step (hprog : P.Programs prog) (h : P.Good s) {l : Label ρ ι}
    (ha : P.Allows s l) : P.Good (s.step prog l) := by
  cases l with
  | spawn q =>
    refine ⟨h.inv, fun r hr => h.fresh r ?_, fun r p hp => ?_⟩
    · simp only [Sys.step, List.length_append, List.length_singleton] at hr
      omega
    simp only [Sys.step, List.getElem?_append] at hp
    split at hp
    · exact h.procs r p hp
    · rename_i hlen
      rw [List.getElem?_singleton] at hp
      split at hp
      · have hr : r = s.procs.length := by omega
        cases hp
        rw [hr]
        exact hprog _ _ _ h.inv (h.fresh _ (Nat.le_refl _)) ha
      · cases hp
  | resume r i =>
    obtain ⟨p, hp, hg, hsus⟩ := Good.step_guar prog h ha
    have hi := P.guar_inv _ _ _ _ h.inv hg
    have hlt : r < s.procs.length := (List.getElem?_eq_some_iff.mp hp).1
    refine ⟨hi, fun r' hr' => ?_, fun r' p' hp' => ?_⟩
    · have hlen : s.procs.length ≤ r' := by simpa [Sys.step, hp] using hr'
      exact P.fresh_guar _ _ _ _ _ (by omega) hg (h.fresh r' hlen)
    simp only [Sys.step, hp, List.getElem?_set] at hp'
    split at hp'
    · rename_i hr
      subst hr
      cases hp'
      exact hsus
    · rename_i hr
      exact (h.procs r' p' hp').rely (P.guar_rely _ _ _ _ _ _ hr h.inv hg)

/-- **Soundness.** In an admissible run of safe programs the invariant holds
throughout. -/
theorem run_good (hprog : P.Programs prog) (h : P.Good s) {ls : List (Label ρ ι)}
    (ha : P.Admissible prog s ls) : P.Good (s.run prog ls) := by
  induction ls generalizing s with
  | nil => exact h
  | cons l ls ih => exact ih (h.step hprog ha.1) ha.2

/-- In a system at rest every coroutine has left behind what it must. -/
theorem Good.post (h : P.Good s) (hq : s.quiet = true) {r : Nat} {p : Proc ρ σ ι τ ε α}
    (hp : s.procs[r]? = some p) : P.post r p.req s.mem :=
  (h.procs r p hp).post (List.all_eq_true.mp hq p (List.mem_of_getElem? hp))

theorem admissible_append {ls ms : List (Label ρ ι)} :
    P.Admissible prog s (ls ++ ms) ↔
      P.Admissible prog s ls ∧ P.Admissible prog (s.run prog ls) ms := by
  induction ls generalizing s with
  | nil => simp [Admissible]
  | cons l ls ih => simp [Admissible, ih, and_assoc]

/-- Which runs are admissible depends on the restrictions alone. -/
theorem Admissible.congr {P' : Protocol ρ σ ι τ} {ls : List (Label ρ ι)}
    (h : P.Admissible prog s ls) (hguard : P'.guard = P.guard) (hpermit : P'.permit = P.permit) :
    P'.Admissible prog s ls := by
  have hallows : ∀ (s : Sys ρ σ ι τ ε α) (l : Label ρ ι), P.Allows s l → P'.Allows s l := by
    intro s l hl
    cases l with
    | spawn q =>
      simp only [Allows, hpermit]
      exact hl
    | resume r i =>
      simp only [Allows, hguard] at hl ⊢
      exact hl
  induction ls generalizing s with
  | nil => trivial
  | cons l ls ih => exact ⟨hallows s l h.1, ih h.2⟩

/-- Every step of an admissible run obeys the guarantee of its coroutine. -/
theorem run_guar (hprog : P.Programs prog) (h : P.Good s) {ls : List (Label ρ ι)} {r : Nat}
    {i : ι} (ha : P.Admissible prog s (ls ++ [.resume r i])) :
    ∃ p, (s.run prog ls).procs[r]? = some p ∧
      P.guar r p.req (s.run prog ls).mem (s.run prog (ls ++ [.resume r i])).mem := by
  obtain ⟨hl, hr, -⟩ := admissible_append.mp ha
  obtain ⟨p, hp, hg, -⟩ := Good.step_guar prog (run_good hprog h hl) hr
  exact ⟨p, hp, by simpa [Sys.run_append] using hg⟩

/-- A property of the requests started so far and the memory holds in every state
of an admissible run if a permitted start keeps it, and a step of a started request
that obeys the guarantee. -/
theorem run_view {J : List ρ → σ → Prop} (hprog : P.Programs prog) (h : P.Good s)
    {ls : List (Label ρ ι)} (ha : P.Admissible prog s ls)
    (hspawn : ∀ qs m q, P.permit q m → J qs m → J (qs ++ [q]) m)
    (hstep : ∀ qs m m' r q, P.inv m → qs[r]? = some q → P.guar r q m m' → J qs m → J qs m')
    (hJ : J s.reqs s.mem) : J (s.run prog ls).reqs (s.run prog ls).mem := by
  induction ls generalizing s with
  | nil => exact hJ
  | cons l ls ih =>
    refine ih (h.step hprog ha.1) ha.2 ?_
    cases l with
    | spawn q =>
      rw [Sys.reqs_spawn]
      exact hspawn _ _ q ha.1 hJ
    | resume r i =>
      obtain ⟨p, hp, hg, -⟩ := Good.step_guar prog h ha.1
      rw [Sys.reqs_resume]
      exact hstep _ _ _ r p.req h.inv (by simp [Sys.reqs, hp]) hg hJ

end Protocol

end Coroutine
