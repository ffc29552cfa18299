import Cmall.Coroutine.Safe

/-!
Hoare triples for coroutines that keep to a protocol.

`P.Triple r q L x Q E`: when coroutine `r`, started for `q`, executes `x` from a
memory where `L` holds, every segment obeys the guarantee, `Q` holds of the result
and `E` if `x` fails. Between two suspension points only the coroutine itself
moves, so an assertion has to be stable under the rely condition exactly where the
coroutine suspends.
-/

namespace Coroutine
namespace Protocol

variable {ρ σ ι τ ε α β : Type} {P : Protocol ρ σ ι τ} {r : Nat} {q : ρ}

def Triple (P : Protocol ρ σ ι τ) (r : Nat) (q : ρ) (L : σ → Prop) (x : Co σ ι τ ε α)
    (Q : α → σ → Prop) (E : σ → Prop) : Prop :=
  ∀ s₀ s, P.inv s₀ → P.guar r q s₀ s → L s →
    x.Safe P r q (fun a s₀ s => P.inv s₀ ∧ P.guar r q s₀ s ∧ Q a s)
      (fun _ s₀ s => P.inv s₀ ∧ P.guar r q s₀ s ∧ E s) s₀ s

/-- `L` survives what the others do. -/
def Stable (P : Protocol ρ σ ι τ) (r : Nat) (q : ρ) (L : σ → Prop) : Prop :=
  ∀ s t, P.inv t → P.rely r q s t → L s → L t

variable {L : σ → Prop} {E : σ → Prop}

theorem stable_true : P.Stable r q fun _ => True := fun _ _ _ _ _ => trivial

theorem Stable.and {L' : σ → Prop} (h : P.Stable r q L) (h' : P.Stable r q L') :
    P.Stable r q fun s => L s ∧ L' s :=
  fun s t hi hr hl => ⟨h s t hi hr hl.1, h' s t hi hr hl.2⟩

namespace Triple

theorem ret {a : α} {Q : α → σ → Prop} (h : ∀ s, P.inv s → L s → Q a s) :
    P.Triple r q L (Co.ret a : Co σ ι τ ε α) Q E :=
  fun s₀ s hi hg hl => ⟨hi, hg, h s (P.guar_inv _ _ _ _ hi hg) hl⟩

theorem throw {e : ε} {Q : α → σ → Prop} (h : ∀ s, P.inv s → L s → E s) :
    P.Triple r q L (Co.throw e : Co σ ι τ ε α) Q E :=
  fun s₀ s hi hg hl => ⟨hi, hg, h s (P.guar_inv _ _ _ _ hi hg) hl⟩

theorem get {Q : σ → σ → Prop} (h : ∀ s, P.inv s → L s → Q s s) :
    P.Triple r q L (Co.get : Co σ ι τ ε σ) Q E :=
  fun s₀ s hi hg hl => ⟨hi, hg, h s (P.guar_inv _ _ _ _ hi hg) hl⟩

theorem modify {f : σ → σ} {Q : Unit → σ → Prop}
    (h : ∀ s, P.inv s → L s → P.guar r q s (f s) ∧ Q () (f s)) :
    P.Triple r q L (Co.modify f : Co σ ι τ ε Unit) Q E := by
  intro s₀ s hi hg hl
  obtain ⟨hg', hq⟩ := h s (P.guar_inv _ _ _ _ hi hg) hl
  exact ⟨hi, P.guar_trans _ _ _ _ _ hg hg', hq⟩

/-- Two changes in a row are one. -/
theorem modify_modify {f g : σ → σ} {k : Unit → Co σ ι τ ε β} {R : β → σ → Prop}
    (h : P.Triple r q L (Co.modify (fun s => g (f s)) >>= k) R E) :
    P.Triple r q L (Co.modify f >>= fun _ => Co.modify g >>= k) R E := h

theorem modifyGet {f : σ → α × σ} {Q : α → σ → Prop}
    (h : ∀ s, P.inv s → L s → P.guar r q s (f s).2 ∧ Q (f s).1 (f s).2) :
    P.Triple r q L (Co.modifyGet f : Co σ ι τ ε α) Q E := by
  intro s₀ s hi hg hl
  obtain ⟨hg', hq⟩ := h s (P.guar_inv _ _ _ _ hi hg) hl
  exact ⟨hi, P.guar_trans _ _ _ _ _ hg hg', hq⟩

theorem suspend {t : τ} {Q : ι → σ → Prop} (hL : P.Stable r q L)
    (h : ∀ i s, P.inv s → L s → P.guard r q t i s → Q i s) :
    P.Triple r q L (Co.suspend t : Co σ ι τ ε ι) Q E := by
  intro s₀ s hi hg hl
  refine ⟨hg, fun s' hi' hr i hguard => ⟨hi', P.guar_refl _ _ _, ?_⟩⟩
  exact h i s' hi' (hL s s' hi' hr hl) hguard

theorem bind {x : Co σ ι τ ε α} {g : α → Co σ ι τ ε β} {Q : α → σ → Prop} {R : β → σ → Prop}
    (hx : P.Triple r q L x Q E) (hg : ∀ a, P.Triple r q (Q a) (g a) R E) :
    P.Triple r q L (x >>= g) R E := by
  intro s₀ s hi hgu hl
  rw [Co.safe_bind]
  exact (hx s₀ s hi hgu hl).mono (fun a s₀ s h => hg a s₀ s h.1 h.2.1 h.2.2) fun _ _ _ h => h

theorem tryCatch {x : Co σ ι τ ε α} {h : ε → Co σ ι τ ε α} {Q : α → σ → Prop} {F : σ → Prop}
    (hx : P.Triple r q L x Q F) (hh : ∀ e, P.Triple r q F (h e) Q E) :
    P.Triple r q L (x.tryCatch h) Q E := by
  intro s₀ s hi hgu hl
  rw [Co.safe_tryCatch]
  exact (hx s₀ s hi hgu hl).mono (fun _ _ _ h => h) fun e s₀ s h' =>
    hh e s₀ s h'.1 h'.2.1 h'.2.2

/-- Rule of consequence. -/
theorem conseq {x : Co σ ι τ ε α} {L' : σ → Prop} {Q Q' : α → σ → Prop} {E' : σ → Prop}
    (h : P.Triple r q L x Q E) (hL : ∀ s, P.inv s → L' s → L s)
    (hQ : ∀ a s, P.inv s → Q a s → Q' a s) (hE : ∀ s, P.inv s → E s → E' s) :
    P.Triple r q L' x Q' E' := by
  intro s₀ s hi hg hl
  refine (h s₀ s hi hg (hL s (P.guar_inv _ _ _ _ hi hg) hl)).mono ?_ ?_
  · exact fun a s₀ s h => ⟨h.1, h.2.1, hQ a s (P.guar_inv _ _ _ _ h.1 h.2.1) h.2.2⟩
  · exact fun e s₀ s h => ⟨h.1, h.2.1, hE s (P.guar_inv _ _ _ _ h.1 h.2.1) h.2.2⟩

/-- A fact that does not speak about the memory can be taken out of the assertion. -/
theorem pure {p : Prop} {x : Co σ ι τ ε α} {Q : α → σ → Prop}
    (h : p → P.Triple r q L x Q E) : P.Triple r q (fun s => p ∧ L s) x Q E :=
  fun s₀ s hi hg hl => h hl.1 s₀ s hi hg hl.2

/-- An unknown in the assertion. -/
theorem of_exists {γ : Type} {K : γ → σ → Prop} {x : Co σ ι τ ε α} {Q : α → σ → Prop}
    (h : ∀ c, P.Triple r q (K c) x Q E) : P.Triple r q (fun s => ∃ c, K c s) x Q E := by
  rintro s₀ s hi hg ⟨c, hl⟩
  exact h c s₀ s hi hg hl

/-- A coroutine all of whose accesses obey the guarantee and keep a stable
assertion. -/
theorem each {G : σ → σ → Prop} {x : Co σ ι τ ε α} (hx : x.Each G) (hL : P.Stable r q L)
    (hG : ∀ s t, P.inv s → L s → G s t → P.guar r q s t ∧ L t) :
    P.Triple r q L x (fun _ => L) L := by
  induction x with
  | ret a => exact ret fun _ _ h => h
  | fail e => exact fun s₀ s hi hg hl => ⟨hi, hg, hl⟩
  | act f k ih =>
    intro s₀ s hi hg hl
    obtain ⟨hg', hl'⟩ := hG s (f s) (P.guar_inv _ _ _ _ hi hg) hl (hx s).1
    exact ih s (hx s).2 s₀ (f s) hi (P.guar_trans _ _ _ _ _ hg hg') hl'
  | await t k ih =>
    intro s₀ s hi hg hl
    refine ⟨hg, fun s' hi' hr i _ => ?_⟩
    exact ih i (hx i) s' s' hi' (P.guar_refl _ _ _) (hL s s' hi' hr hl)

/-- The same with an assertion `A` that every resumption establishes anew. -/
theorem each_resumed {G : σ → σ → Prop} {A : σ → Prop} {x : Co σ ι τ ε α} (hx : x.Each G)
    (hL : P.Stable r q L) (hA : ∀ t i s, P.guard r q t i s → A s)
    (hG : ∀ s t, P.inv s → L s → A s → G s t → P.guar r q s t ∧ L t ∧ A t) :
    P.Triple r q (fun s => L s ∧ A s) x (fun _ s => L s ∧ A s) (fun s => L s ∧ A s) := by
  induction x with
  | ret a => exact ret fun _ _ h => h
  | fail e => exact fun s₀ s hi hg hl => ⟨hi, hg, hl⟩
  | act f k ih =>
    intro s₀ s hi hg hl
    obtain ⟨hg', hl', ha'⟩ := hG s (f s) (P.guar_inv _ _ _ _ hi hg) hl.1 hl.2 (hx s).1
    exact ih s (hx s).2 s₀ (f s) hi (P.guar_trans _ _ _ _ _ hg hg') ⟨hl', ha'⟩
  | await t k ih =>
    intro s₀ s hi hg hl
    refine ⟨hg, fun s' hi' hr i hguard => ?_⟩
    exact ih i (hx i) s' s' hi' (P.guar_refl _ _ _) ⟨hL s s' hi' hr hl.1, hA t i s' hguard⟩

/-- What is known of the result on every path. -/
theorem returns {p : α → Prop} {x : Co σ ι τ ε α} {Q : α → σ → Prop} (hx : x.Returns p)
    (h : P.Triple r q L x Q E) : P.Triple r q L x (fun a s => p a ∧ Q a s) E := by
  intro s₀ s hi hg hl
  refine (Co.Safe.returns hx (h s₀ s hi hg hl)).mono ?_ fun _ _ _ h => h
  exact fun a s₀ s h => ⟨h.2.1, h.2.2.1, h.1, h.2.2.2⟩

/-- A program that suspends first and then keeps to the protocol. -/
theorem suspended {t : τ} {k : ι → Co σ ι τ ε α} {m : σ} {L' : ι → σ → Prop}
    (hL : P.Stable r q L) (hm : L m)
    (hg : ∀ i s, P.inv s → L s → P.guard r q t i s → L' i s)
    (h : ∀ i, P.Triple r q (L' i) (k i) (fun _ => P.post r q) (P.post r q)) :
    (Co.suspend t >>= k : Co σ ι τ ε α).Suspended P r q m := by
  intro s' hi hr i hguard
  refine (h i s' s' hi (P.guar_refl _ _ _) (hg i s' hi (hL m s' hi hr hm) hguard)).mono ?_ ?_
  · exact fun a s₀ s h => h.2
  · exact fun e s₀ s h => h.2

end Triple

end Protocol
end Coroutine
