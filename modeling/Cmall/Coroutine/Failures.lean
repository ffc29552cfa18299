import Cmall.Coroutine.Triple

/-!
The errors a coroutine can fail with.

A triple says what holds of the memory when a coroutine fails; here is what is known
of the error itself. `P.Raises r q L x F`: when coroutine `r`, started for `q`,
executes `x` from a memory where `L` holds and fails, the error satisfies `F`.
`run_fails` puts this together for whole runs.
-/

namespace Coroutine

variable {ρ σ ι τ ε α β : Type} {P : Protocol ρ σ ι τ} {r : Nat} {q : ρ} {F : ε → Prop}

namespace Co

/-- The error it has failed with. -/
def error? : Co σ ι τ ε α → Option ε
  | fail e => some e
  | _ => none

/-- Every error satisfies `F`, on every path. -/
def Throws (F : ε → Prop) : Co σ ι τ ε α → Prop
  | ret _ => True
  | fail e => F e
  | act _ k => ∀ s, (k s).Throws F
  | await _ k => ∀ i, (k i).Throws F

theorem throws_bind {x : Co σ ι τ ε α} {g : α → Co σ ι τ ε β} (hx : x.Throws F)
    (hg : ∀ a, (g a).Throws F) : (x >>= g).Throws F := by
  induction x with
  | ret a => exact hg a
  | fail e => exact hx
  | act f k ih => exact fun s => ih s (hx s)
  | await t k ih => exact fun i => ih i (hx i)

/-- What is caught does not matter. -/
theorem throws_tryCatch {x : Co σ ι τ ε α} {h : ε → Co σ ι τ ε α} (hh : ∀ e, (h e).Throws F) :
    (x.tryCatch h).Throws F := by
  induction x with
  | ret a => trivial
  | fail e => exact hh e
  | act f k ih => exact fun s => ih s
  | await t k ih => exact fun i => ih i

theorem Safe.throws {x : Co σ ι τ ε α} {Q : α → σ → σ → Prop} {E : ε → σ → σ → Prop} {s₀ s : σ}
    (hx : x.Throws F) (h : x.Safe P r q Q E s₀ s) :
    x.Safe P r q Q (fun e s₀ s => F e ∧ E e s₀ s) s₀ s := by
  induction x generalizing s₀ s with
  | ret a => exact h
  | fail e => exact ⟨hx, h⟩
  | act f k ih => exact ih s (hx s) h
  | await t k ih => exact ⟨h.1, fun s' hi hr i ht => ih i (hx i) (h.2 s' hi hr i ht)⟩

theorem Safe.and {x : Co σ ι τ ε α} {Q Q' : α → σ → σ → Prop} {E E' : ε → σ → σ → Prop} {s₀ s : σ}
    (h : x.Safe P r q Q E s₀ s) (h' : x.Safe P r q Q' E' s₀ s) :
    x.Safe P r q (fun a s₀ s => Q a s₀ s ∧ Q' a s₀ s) (fun e s₀ s => E e s₀ s ∧ E' e s₀ s) s₀ s := by
  induction x generalizing s₀ s with
  | ret a => exact ⟨h, h'⟩
  | fail e => exact ⟨h, h'⟩
  | act f k ih => exact ih s h h'
  | await t k ih =>
    exact ⟨h.1, fun s' hi hr i ht => ih i (h.2 s' hi hr i ht) (h'.2 s' hi hr i ht)⟩

/-- A coroutine that waits to be resumed and will not fail but with `F`, or has ended so. -/
def Fails (P : Protocol ρ σ ι τ) (F : ε → Prop) (r : Nat) (q : ρ) (p : Co σ ι τ ε α) (s : σ) :
    Prop :=
  match p with
  | await t k => ∀ s', P.inv s' → P.rely r q s s' → ∀ i, P.guard r q t i s' →
      (k i).Safe P r q (fun _ _ _ => True) (fun e _ _ => F e) s' s'
  | fail e => F e
  | ret _ => True
  | act _ _ => False

theorem Fails.rely {p : Co σ ι τ ε α} {s t : σ} (h : p.Fails P F r q s) (hr : P.rely r q s t) :
    p.Fails P F r q t := by
  cases p with
  | await t k => exact fun s' hi hr' => h s' hi (P.rely_trans _ _ _ _ _ hr hr')
  | ret a => trivial
  | fail e => exact h
  | act f k => exact h

theorem Fails.error {p : Co σ ι τ ε α} {s : σ} {e : ε} (h : p.Fails P F r q s)
    (he : p.error? = some e) : F e := by
  cases p with
  | fail e' =>
    cases he
    exact h
  | ret a => cases he
  | act f k => cases he
  | await t k => cases he

/-- Nothing is claimed of the error. -/
theorem Suspended.fails {p : Co σ ι τ ε α} {s : σ} (h : p.Suspended P r q s) (hF : ∀ e, F e) :
    p.Fails P F r q s := by
  cases p with
  | await t k =>
    intro s' hi hr i hg
    exact (h s' hi hr i hg).mono (fun _ _ _ _ => trivial) fun e _ _ _ => hF e
  | ret a => trivial
  | fail e => exact hF e
  | act f k => exact h

theorem fails_advance {p : Co σ ι τ ε α} {s₀ s : σ}
    (h : p.Safe P r q (fun _ _ _ => True) (fun e _ _ => F e) s₀ s) :
    (p.advance s).2.Fails P F r q (p.advance s).1 := by
  induction p generalizing s with
  | ret a => trivial
  | fail e => exact h
  | act f k ih => exact ih s h
  | await t k _ => exact h.2

end Co

namespace Protocol

variable {L E : σ → Prop}

def Raises (P : Protocol ρ σ ι τ) (r : Nat) (q : ρ) (L : σ → Prop) (x : Co σ ι τ ε α)
    (F : ε → Prop) : Prop :=
  ∀ s₀ s, P.inv s₀ → P.guar r q s₀ s → L s →
    x.Safe P r q (fun _ _ _ => True) (fun e _ _ => F e) s₀ s

namespace Raises

theorem of_throws {x : Co σ ι τ ε α} {Q : α → σ → Prop} (hx : x.Throws F)
    (h : P.Triple r q L x Q E) : P.Raises r q L x F := by
  intro s₀ s hi hg hl
  exact (Co.Safe.throws hx (h s₀ s hi hg hl)).mono (fun _ _ _ _ => trivial) fun _ _ _ h => h.1

theorem bind {x : Co σ ι τ ε α} {g : α → Co σ ι τ ε β} {Q : α → σ → Prop}
    (hx : P.Triple r q L x Q E) (hr : P.Raises r q L x F)
    (hg : ∀ a, P.Raises r q (Q a) (g a) F) : P.Raises r q L (x >>= g) F := by
  intro s₀ s hi hgu hl
  rw [Co.safe_bind]
  refine ((hx s₀ s hi hgu hl).and (hr s₀ s hi hgu hl)).mono ?_ fun _ _ _ h => h.2
  exact fun a s₀ s h => hg a s₀ s h.1.1 h.1.2.1 h.1.2.2

theorem conseq {x : Co σ ι τ ε α} {L' : σ → Prop} (h : P.Raises r q L x F)
    (hL : ∀ s, P.inv s → L' s → L s) : P.Raises r q L' x F :=
  fun s₀ s hi hg hl => h s₀ s hi hg (hL s (P.guar_inv _ _ _ _ hi hg) hl)

theorem mono {x : Co σ ι τ ε α} {F' : ε → Prop} (h : P.Raises r q L x F)
    (hF : ∀ e, F e → F' e) : P.Raises r q L x F' :=
  fun s₀ s hi hg hl => (h s₀ s hi hg hl).mono (fun _ _ _ h => h) fun e _ _ => hF e

/-- A program that suspends first. -/
theorem fails {t : τ} {k : ι → Co σ ι τ ε α} {m : σ} {L' : ι → σ → Prop}
    (hL : P.Stable r q L) (hm : L m) (hg : ∀ i s, P.inv s → L s → P.guard r q t i s → L' i s)
    (h : ∀ i, P.Raises r q (L' i) (k i) F) : (Co.suspend t >>= k).Fails P F r q m := by
  intro s' hi hr i hguard
  exact h i s' s' hi (P.guar_refl _ _ _) (hg i s' hi (hL m s' hi hr hm) hguard)

end Raises

variable {prog : Nat → ρ → Co σ ι τ ε α} {s : Sys ρ σ ι τ ε α} {F : Nat → ρ → ε → Prop}

/-- Every coroutine started so far fails, if at all, with an error that is known. -/
def FailsWith (P : Protocol ρ σ ι τ) (F : Nat → ρ → ε → Prop) (s : Sys ρ σ ι τ ε α) : Prop :=
  ∀ (r : Nat) (p : Proc ρ σ ι τ ε α), s.procs[r]? = some p → p.code.Fails P (F r p.req) r p.req s.mem

theorem FailsWith.step (h : P.FailsWith F s) (hgood : P.Good s)
    (hF : ∀ r q m, P.inv m → P.fresh r m → P.permit q m → (prog r q).Fails P (F r q) r q m)
    {l : Label ρ ι} (ha : P.Allows s l) : P.FailsWith F (s.step prog l) := by
  cases l with
  | spawn q =>
    intro r p hp
    simp only [Sys.step, List.getElem?_append] at hp
    split at hp
    · exact h r p hp
    · rw [List.getElem?_singleton] at hp
      split at hp
      · have hr : r = s.procs.length := by omega
        cases hp
        rw [hr]
        exact hF _ _ _ hgood.inv (hgood.fresh _ (Nat.le_refl _)) ha
      · cases hp
  | resume r i =>
    obtain ⟨p, hp, hg, -⟩ := Good.step_guar prog hgood ha
    intro r' p' hp'
    simp only [Sys.step, hp, List.getElem?_set] at hp'
    split at hp'
    · rename_i hr
      subst hr
      obtain ⟨q, code⟩ := p
      cases code with
      | await t k =>
        have hguard : P.guard r q t i s.mem := by simpa [Allows, hp] using ha
        have hsafe := h r _ hp s.mem hgood.inv (P.rely_refl _ _ _) i hguard
        split at hp'
        · cases hp'
          simpa [Sys.step, hp, Co.resume] using Co.fails_advance hsafe
        · cases hp'
      | ret a => simp [Allows, hp] at ha
      | fail e => simp [Allows, hp] at ha
      | act f k => simp [Allows, hp] at ha
    · rename_i hr
      exact (h r' p' hp').rely (P.guar_rely _ _ _ _ _ _ hr hgood.inv hg)

/-- In an admissible run of safe programs the errors are known throughout. -/
theorem run_fails (hprog : P.Programs prog)
    (hF : ∀ r q m, P.inv m → P.fresh r m → P.permit q m → (prog r q).Fails P (F r q) r q m)
    (hgood : P.Good s) (h : P.FailsWith F s) {ls : List (Label ρ ι)}
    (ha : P.Admissible prog s ls) : P.FailsWith F (s.run prog ls) := by
  induction ls generalizing s with
  | nil => exact h
  | cons l ls ih => exact ih (hgood.step hprog ha.1) (h.step hgood hF ha.1) ha.2

end Protocol

end Coroutine
