import Mathlib.Logic.Basic

/-!
Coroutines over a shared memory, and the interleaved runs of many of them.

A coroutine `Co σ ι τ ε α` works on a memory `σ`, is resumed with inputs `ι`,
names its suspension points by `τ`, and ends with a value `α` or an error `ε`.
Between two suspension points it runs alone: `advance` executes such a segment
to its end. A `Sys` is the memory with every coroutine started so far; a
`Label` starts one or resumes one, in any order, so a list of labels is an
arbitrary interleaving.
-/

namespace Coroutine

inductive Co (σ ι τ ε α : Type) : Type where
  | ret (a : α)
  | fail (e : ε)
  | act (f : σ → σ) (k : σ → Co σ ι τ ε α)
  | await (t : τ) (k : ι → Co σ ι τ ε α)

variable {σ ι τ ε α β : Type}

namespace Co

def bind : Co σ ι τ ε α → (α → Co σ ι τ ε β) → Co σ ι τ ε β
  | ret a, g => g a
  | fail e, _ => fail e
  | act f k, g => act f (fun s => (k s).bind g)
  | await t k, g => await t (fun i => (k i).bind g)

instance : Monad (Co σ ι τ ε) where
  pure := ret
  bind := bind

@[simp] theorem pure_eq (a : α) : (pure a : Co σ ι τ ε α) = ret a := rfl

@[simp] theorem ret_bind (a : α) (g : α → Co σ ι τ ε β) : (ret a >>= g) = g a := rfl

@[simp] theorem fail_bind (e : ε) (g : α → Co σ ι τ ε β) :
    ((fail e : Co σ ι τ ε α) >>= g) = fail e := rfl

@[simp] theorem act_bind (f : σ → σ) (k : σ → Co σ ι τ ε α) (g : α → Co σ ι τ ε β) :
    (act f k >>= g) = act f (fun s => k s >>= g) := rfl

@[simp] theorem await_bind (t : τ) (k : ι → Co σ ι τ ε α) (g : α → Co σ ι τ ε β) :
    (await t k >>= g) = await t (fun i => k i >>= g) := rfl

theorem bind_assoc {γ : Type} (x : Co σ ι τ ε α) (g : α → Co σ ι τ ε β) (h : β → Co σ ι τ ε γ) :
    (x >>= g >>= h) = (x >>= fun a => g a >>= h) := by
  induction x with
  | ret a => rfl
  | fail e => rfl
  | act f k ih => simp only [act_bind, ih]
  | await t k ih => simp only [await_bind, ih]

/-- Leave the coroutine with an error. -/
def throw (e : ε) : Co σ ι τ ε α := fail e

/-- Run `h` on the error of a coroutine that fails. -/
def tryCatch : Co σ ι τ ε α → (ε → Co σ ι τ ε α) → Co σ ι τ ε α
  | ret a, _ => ret a
  | fail e, h => h e
  | act f k, h => act f (fun s => (k s).tryCatch h)
  | await t k, h => await t (fun i => (k i).tryCatch h)

/-- Read the memory. -/
def get : Co σ ι τ ε σ := act id ret

/-- Change the memory. -/
def modify (f : σ → σ) : Co σ ι τ ε Unit := act f (fun _ => ret ())

/-- Change the memory and return a result computed from the old one. -/
def modifyGet (f : σ → α × σ) : Co σ ι τ ε α := act (fun s => (f s).2) (fun s => ret (f s).1)

/-- Suspend until resumed with an input. -/
def suspend (t : τ) : Co σ ι τ ε ι := await t ret

/-- Execute up to the next suspension point. -/
def advance : Co σ ι τ ε α → σ → σ × Co σ ι τ ε α
  | act f k, s => (k s).advance (f s)
  | ret a, s => (s, ret a)
  | fail e, s => (s, fail e)
  | await t k, s => (s, await t k)

/-- Resume with an input and execute up to the next suspension point. -/
def resume : Co σ ι τ ε α → ι → σ → σ × Co σ ι τ ε α
  | await _ k, i, s => (k i).advance s
  | p, _, s => p.advance s

/-- It has ended with a value. -/
def returned : Co σ ι τ ε α → Bool
  | ret _ => true
  | _ => false

/-- No further step is left. -/
def finished : Co σ ι τ ε α → Bool
  | ret _ => true
  | fail _ => true
  | _ => false

end Co

/-- A coroutine together with the request `ρ` it was started for. -/
structure Proc (ρ σ ι τ ε α : Type) where
  req : ρ
  code : Co σ ι τ ε α

/-- The memory and every coroutine started so far; the number of a coroutine is
its place in the list. -/
structure Sys (ρ σ ι τ ε α : Type) where
  mem : σ
  procs : List (Proc ρ σ ι τ ε α)

inductive Label (ρ ι : Type) where
  | spawn (q : ρ)
  | resume (r : Nat) (i : ι)

variable {ρ : Type}

namespace Sys

def step (prog : Nat → ρ → Co σ ι τ ε α) (s : Sys ρ σ ι τ ε α) :
    Label ρ ι → Sys ρ σ ι τ ε α
  | .spawn q => { s with procs := s.procs ++ [⟨q, prog s.procs.length q⟩] }
  | .resume r i =>
    match s.procs[r]? with
    | none => s
    | some p =>
      { mem := (p.code.resume i s.mem).1
        procs := s.procs.set r ⟨p.req, (p.code.resume i s.mem).2⟩ }

def run (prog : Nat → ρ → Co σ ι τ ε α) (s : Sys ρ σ ι τ ε α)
    (ls : List (Label ρ ι)) : Sys ρ σ ι τ ε α :=
  ls.foldl (step prog) s

/-- A system in which nothing has been started. -/
def idle (m : σ) : Sys ρ σ ι τ ε α := ⟨m, []⟩

/-- The requests started so far, in the order of their numbers. -/
def reqs (s : Sys ρ σ ι τ ε α) : List ρ := s.procs.map Proc.req

/-- Every coroutine has ended. -/
def quiet (s : Sys ρ σ ι τ ε α) : Bool := s.procs.all fun p => p.code.finished

theorem reqs_spawn (prog : Nat → ρ → Co σ ι τ ε α) (s : Sys ρ σ ι τ ε α) (q : ρ) :
    (s.step prog (.spawn q)).reqs = s.reqs ++ [q] := by
  simp [step, reqs]

/-- A coroutine keeps its request. -/
theorem reqs_resume (prog : Nat → ρ → Co σ ι τ ε α) (s : Sys ρ σ ι τ ε α) (r : Nat) (i : ι) :
    (s.step prog (.resume r i)).reqs = s.reqs := by
  cases hp : s.procs[r]? with
  | none => simp [step, hp]
  | some p =>
    have hr : r < s.procs.length := (List.getElem?_eq_some_iff.mp hp).1
    simp only [step, hp, reqs, List.map_set]
    refine List.ext_getElem? fun n => ?_
    rw [List.getElem?_set]
    split
    · rename_i hn
      subst hn
      rw [List.getElem?_map, hp]
      simp [hr]
    · rfl

@[simp] theorem run_nil (prog : Nat → ρ → Co σ ι τ ε α) (s : Sys ρ σ ι τ ε α) :
    run prog s [] = s := rfl

@[simp] theorem run_cons (prog : Nat → ρ → Co σ ι τ ε α) (s : Sys ρ σ ι τ ε α)
    (l : Label ρ ι) (ls : List (Label ρ ι)) :
    run prog s (l :: ls) = run prog (step prog s l) ls := rfl

theorem run_append (prog : Nat → ρ → Co σ ι τ ε α) (s : Sys ρ σ ι τ ε α)
    (ls ms : List (Label ρ ι)) :
    run prog s (ls ++ ms) = run prog (run prog s ls) ms := by
  simp [run]

end Sys

end Coroutine
