import Mathlib.Logic.Basic

/-!
Machines that take one labelled step after the other.

`Meets` restricts a run to steps that satisfy a condition on the state they are made in;
`Meets.invariant` is the rule for what such steps preserve.
-/

namespace Transition

variable {σ ℓ : Type}

def run (step : σ → ℓ → σ) (s : σ) (ls : List ℓ) : σ := ls.foldl step s

@[simp] theorem run_nil (step : σ → ℓ → σ) (s : σ) : run step s [] = s := rfl

@[simp] theorem run_cons (step : σ → ℓ → σ) (s : σ) (l : ℓ) (ls : List ℓ) :
    run step s (l :: ls) = run step (step s l) ls := rfl

/-- Every step of the run satisfies `ok` in the state it is made in. -/
def Meets (step : σ → ℓ → σ) (ok : σ → ℓ → Prop) : σ → List ℓ → Prop
  | _, [] => True
  | s, l :: ls => ok s l ∧ Meets step ok (step s l) ls

instance Meets.decidable {step : σ → ℓ → σ} {ok : σ → ℓ → Prop} [∀ s l, Decidable (ok s l)] :
    ∀ s ls, Decidable (Meets step ok s ls)
  | _, [] => isTrue trivial
  | s, l :: ls =>
    have : Decidable (Meets step ok (step s l) ls) := Meets.decidable (step s l) ls
    inferInstanceAs (Decidable (_ ∧ _))

/-- What the allowed steps preserve holds at the end of every run of them. -/
theorem Meets.invariant {step : σ → ℓ → σ} {ok : σ → ℓ → Prop} {I : σ → Prop}
    (hstep : ∀ s l, I s → ok s l → I (step s l)) {s : σ} {ls : List ℓ}
    (h : Meets step ok s ls) (hs : I s) : I (run step s ls) := by
  induction ls generalizing s with
  | nil => exact hs
  | cons l ls ih => exact ih h.2 (hstep s l hs h.1)

/-- The same, for a property of the state and of the steps made so far. -/
theorem Meets.history_invariant {step : σ → ℓ → σ} {ok : σ → ℓ → Prop} {I : List ℓ → σ → Prop}
    (hstep : ∀ done s l, I done s → ok s l → I (done ++ [l]) (step s l)) {done : List ℓ} {s : σ}
    {ls : List ℓ} (h : Meets step ok s ls) (hs : I done s) : I (done ++ ls) (run step s ls) := by
  induction ls generalizing done s with
  | nil =>
    rw [List.append_nil]
    exact hs
  | cons l ls ih =>
    have htail := ih h.2 (hstep done s l hs h.1)
    rwa [List.append_assoc] at htail

theorem Meets.append_iff {step : σ → ℓ → σ} {ok : σ → ℓ → Prop} {s : σ} {ls ls' : List ℓ} :
    Meets step ok s (ls ++ ls') ↔ Meets step ok s ls ∧ Meets step ok (run step s ls) ls' := by
  induction ls generalizing s with
  | nil => exact (and_iff_right trivial).symm
  | cons l ls ih =>
    rw [List.cons_append, Meets, ih, Meets, and_assoc, run_cons]

end Transition
