import Cmall.Coroutine.Safe

/-!
What a coroutine has seen of a run.

At every resumption a coroutine is shown an input and the memory as the others have left
it. A property of its segments that speaks about these views, the last one first, needs no
protocol: the other coroutines may do anything. `Co.Along` is the verification condition of
one coroutine, and `Sys.run_along` puts a run together.
-/

namespace Coroutine

variable {ρ σ ι τ ε α β : Type}

namespace Co

/-- Every segment, from the views it ends with, leaves a memory with `G`. `h` are the views
so far and `s` is the memory now; `Q` is the condition at the end. -/
def Along (G : List (ι × σ) → σ → Prop) : Co σ ι τ ε α → (α → List (ι × σ) → σ → Prop) →
    List (ι × σ) → σ → Prop
  | ret a, Q, h, s => Q a h s
  | fail _, _, h, s => G h s
  | act f k, Q, h, s => (k s).Along G Q h (f s)
  | await _ k, Q, h, s => G h s ∧ ∀ i t, (k i).Along G Q ((i, t) :: h) t

/-- A coroutine that waits to be resumed after these views, or has ended. -/
def Awaits (G : List (ι × σ) → σ → Prop) (h : List (ι × σ)) : Co σ ι τ ε α → Prop
  | await _ k => ∀ i t, (k i).Along G (fun _ => G) ((i, t) :: h) t
  | act _ _ => False
  | _ => True

variable {G : List (ι × σ) → σ → Prop} {h : List (ι × σ)} {s : σ}

@[simp] theorem along_ret (a : α) (Q : α → List (ι × σ) → σ → Prop) :
    (ret a : Co σ ι τ ε α).Along G Q h s ↔ Q a h s := Iff.rfl

@[simp] theorem along_throw (e : ε) (Q : α → List (ι × σ) → σ → Prop) :
    (throw e : Co σ ι τ ε α).Along G Q h s ↔ G h s := Iff.rfl

@[simp] theorem along_get (Q : σ → List (ι × σ) → σ → Prop) :
    (get : Co σ ι τ ε σ).Along G Q h s ↔ Q s h s := Iff.rfl

@[simp] theorem along_modify (f : σ → σ) (Q : Unit → List (ι × σ) → σ → Prop) :
    (modify f : Co σ ι τ ε Unit).Along G Q h s ↔ Q () h (f s) := Iff.rfl

@[simp] theorem along_suspend (t : τ) (Q : ι → List (ι × σ) → σ → Prop) :
    (suspend t : Co σ ι τ ε ι).Along G Q h s ↔ G h s ∧ ∀ i t, Q i ((i, t) :: h) t := Iff.rfl

theorem along_bind (x : Co σ ι τ ε α) (g : α → Co σ ι τ ε β)
    (Q : β → List (ι × σ) → σ → Prop) :
    (x >>= g).Along G Q h s ↔ x.Along G (fun a => (g a).Along G Q) h s := by
  induction x generalizing h s with
  | ret a => exact Iff.rfl
  | fail e => exact Iff.rfl
  | act f k ih => exact ih s
  | await t k ih =>
    simp only [await_bind, Along]
    constructor
    · rintro ⟨hg, hk⟩
      exact ⟨hg, fun i t => (ih i).mp (hk i t)⟩
    · rintro ⟨hg, hk⟩
      exact ⟨hg, fun i t => (ih i).mpr (hk i t)⟩

/-- Rule of consequence. -/
theorem Along.mono {x : Co σ ι τ ε α} {Q Q' : α → List (ι × σ) → σ → Prop}
    (hx : x.Along G Q h s) (hQ : ∀ a h s, Q a h s → Q' a h s) : x.Along G Q' h s := by
  induction x generalizing h s with
  | ret a => exact hQ a h s hx
  | fail e => exact hx
  | act f k ih => exact ih s hx
  | await t k ih => exact ⟨hx.1, fun i t => ih i (hx.2 i t)⟩

/-- A coroutine all of whose accesses keep an assertion that every resumption establishes
anew from the views before it. -/
theorem Each.along {R : σ → σ → Prop} {A : List (ι × σ) → σ → Prop} {x : Co σ ι τ ε α}
    (hx : x.Each R) (hR : ∀ h s t, R s t → A h s → A h t) (hG : ∀ h s, A h s → G h s)
    (hA : ∀ i t h s, A h s → A ((i, t) :: h) t) (hs : A h s) :
    x.Along G (fun _ => A) h s := by
  induction x generalizing h s with
  | ret a => exact hs
  | fail e => exact hG h s hs
  | act f k ih => exact ih s (hx s).2 (hR h s (f s) (hx s).1 hs)
  | await t k ih => exact ⟨hG h s hs, fun i t => ih i (hx i) (hA i t h s hs)⟩

/-- Executing a segment ends with `G`, and what is left waits. -/
theorem Along.advance {x : Co σ ι τ ε α} (hx : x.Along G (fun _ => G) h s) :
    G h (x.advance s).1 ∧ (x.advance s).2.Awaits G h := by
  induction x generalizing s with
  | ret a => exact ⟨hx, trivial⟩
  | fail e => exact ⟨hx, trivial⟩
  | act f k ih => exact ih s hx
  | await t k _ => exact ⟨hx.1, hx.2⟩

/-- A resumption shows one view more. -/
theorem Awaits.resume {x : Co σ ι τ ε α} (hx : x.Awaits G h) (hw : x.finished = false) (i : ι) (s : σ) :
    G ((i, s) :: h) (x.resume i s).1 ∧ (x.resume i s).2.Awaits G ((i, s) :: h) := by
  cases x with
  | await t k => exact (hx i s).advance
  | act f k => exact hx.elim
  | ret a => cases hw
  | fail e => cases hw

theorem Awaits.resume_finished {x : Co σ ι τ ε α} (hw : x.finished = true) (i : ι) (s : σ) :
    x.resume i s = (s, x) := by
  cases x with
  | ret a => rfl
  | fail e => rfl
  | act f k => cases hw
  | await t k => cases hw

end Co

namespace Sys

/-- What coroutine `r` is shown in a run: the inputs it is resumed with while it waits and
the memories it finds then, the last one first. -/
def views (prog : Nat → ρ → Co σ ι τ ε α) (r : Nat) (s : Sys ρ σ ι τ ε α) :
    List (Label ρ ι) → List (ι × σ)
  | [] => []
  | .spawn q :: ls => (s.step prog (.spawn q)).views prog r ls
  | .resume r' i :: ls =>
    (s.step prog (.resume r' i)).views prog r ls ++
      if r' = r ∧ (s.procs[r]?).any fun p => ! p.code.finished then [(i, s.mem)] else []

/-- A step of another coroutine. -/
theorem step_resume_ne (prog : Nat → ρ → Co σ ι τ ε α) (s : Sys ρ σ ι τ ε α) {r r' : Nat}
    (hr : r' ≠ r) (i : ι) : (s.step prog (.resume r' i)).procs[r]? = s.procs[r]? := by
  cases hold : s.procs[r']? with
  | none => simp [step, hold]
  | some old => simp [step, hold, List.getElem?_set_ne hr]

/-- Every coroutine waits after what it has been shown. -/
theorem run_along {G : Nat → ρ → List (ι × σ) → σ → Prop} {prog : Nat → ρ → Co σ ι τ ε α}
    (hprog : ∀ r q, (prog r q).Awaits (G r q) []) {s : Sys ρ σ ι τ ε α} {r : Nat}
    {h : List (ι × σ)} (hs : ∀ p, s.procs[r]? = some p → p.code.Awaits (G r p.req) h)
    (hnew : s.procs[r]? = none → h = []) (ls : List (Label ρ ι)) {p : Proc ρ σ ι τ ε α}
    (hp : (s.run prog ls).procs[r]? = some p) :
    p.code.Awaits (G r p.req) (s.views prog r ls ++ h) := by
  induction ls generalizing s h with
  | nil => exact hs p hp
  | cons l ls ih =>
    rw [run_cons] at hp
    cases l with
    | spawn q =>
      refine ih (fun p' hp' => ?_) (fun hnone => hnew ?_) hp
      · simp only [step, List.getElem?_append] at hp'
        split at hp'
        · exact hs p' hp'
        · rename_i hlen
          rw [List.getElem?_singleton] at hp'
          split at hp'
          · have hr : r = s.procs.length := by omega
            cases hp'
            rw [hr, hnew (List.getElem?_eq_none (by omega))]
            exact hprog _ _
          · cases hp'
      · simp only [step, List.getElem?_eq_none_iff, List.length_append] at hnone
        exact List.getElem?_eq_none (by omega)
    | resume r' i =>
      simp only [views, List.append_assoc]
      refine ih (fun p' hp' => ?_) (fun hnone => ?_) hp
      · by_cases hr : r' = r
        · subst hr
          cases hold : s.procs[r']? with
          | none => simp [step, hold] at hp'
          | some old =>
            have hlt : r' < s.procs.length := (List.getElem?_eq_some_iff.mp hold).1
            simp only [step, hold, List.getElem?_set_self hlt] at hp'
            cases hp'
            cases hw : old.code.finished with
            | true => simpa [hw, Co.Awaits.resume_finished hw] using hs old hold
            | false => simpa [hw] using (Co.Awaits.resume (hs old hold) hw i s.mem).2
        · simpa [hr] using hs p' (step_resume_ne prog s hr i ▸ hp')
      · by_cases hr : r' = r
        · subst hr
          have hold : s.procs[r']? = none := by
            cases hold : s.procs[r']? with
            | none => rfl
            | some old => simp_all [step]
          simpa [hold] using hnew hold
        · simpa [hr] using hnew (step_resume_ne prog s hr i ▸ hnone)

/-- The segment a step executes ends with `G`, or nothing was left to execute. -/
theorem step_along {G : Nat → ρ → List (ι × σ) → σ → Prop} {prog : Nat → ρ → Co σ ι τ ε α}
    (hprog : ∀ r q, (prog r q).Awaits (G r q) []) (m : σ) (ls : List (Label ρ ι)) {r : Nat} (i : ι)
    {p : Proc ρ σ ι τ ε α} (hp : ((idle m).run prog ls).procs[r]? = some p) :
    G r p.req ((i, ((idle m).run prog ls).mem) :: (idle m : Sys ρ σ ι τ ε α).views prog r ls)
        (((idle m).run prog ls).step prog (.resume r i)).mem ∨
      (((idle m).run prog ls).step prog (.resume r i)).mem = ((idle m).run prog ls).mem := by
  have hcode := run_along (s := idle m) (h := []) hprog (by simp [idle]) (fun _ => rfl) ls hp
  rw [List.append_nil] at hcode
  simp only [step, hp]
  cases hw : p.code.finished with
  | true => exact .inr (by rw [Co.Awaits.resume_finished hw])
  | false => exact .inl (hcode.resume hw i _).1

end Sys

end Coroutine
