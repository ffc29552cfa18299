import Cmall.Coroutine.Triple

/-!
Coroutines that run one after the other.

A turn starts a coroutine and resumes nothing else until it is over, so what it
suspends for does not matter: the memory it finds is the memory it left. `solo`
is the protocol of such a coroutine, and the triples of an interleaved run are
triples of a turn as well; `turn_alone` says what a turn leaves behind.
-/

namespace Coroutine

variable {ρ σ ι τ ε α : Type}

/-- Resume with every input in turn. -/
def Co.feed : Co σ ι τ ε α → List ι → σ → σ × Co σ ι τ ε α
  | p, [], s => (s, p)
  | p, i :: is, s => (p.resume i s).2.feed is (p.resume i s).1

namespace Sys

variable (prog : Nat → ρ → Co σ ι τ ε α) (s : Sys ρ σ ι τ ε α)

/-- Start a coroutine and resume it with the inputs. -/
def turn (q : ρ) (is : List ι) : Sys ρ σ ι τ ε α :=
  s.run prog (.spawn q :: is.map (.resume s.procs.length))

/-- One turn after the other. -/
def turns (ts : List (ρ × List ι)) : Sys ρ σ ι τ ε α :=
  ts.foldl (fun s t => s.turn prog t.1 t.2) s

/-- Coroutine `r` has ended with a value. -/
def returned (r : Nat) : Bool := (s.procs[r]?).any fun p => p.code.returned

/-- Coroutine `r` has ended with an error. -/
def failed (r : Nat) : Bool := (s.procs[r]?).any fun p => p.code.finished && !p.code.returned

variable {prog s}

theorem run_resumes {ps : List (Proc ρ σ ι τ ε α)} {q : ρ} {p : Co σ ι τ ε α} {m : σ}
    (is : List ι) :
    run prog ⟨m, ps ++ [⟨q, p⟩]⟩ (is.map (.resume ps.length)) =
      ⟨(p.feed is m).1, ps ++ [⟨q, (p.feed is m).2⟩]⟩ := by
  induction is generalizing p m with
  | nil => rfl
  | cons i is ih =>
    have hstep : step prog (⟨m, ps ++ [⟨q, p⟩]⟩ : Sys ρ σ ι τ ε α) (.resume ps.length i) =
        ⟨(p.resume i m).1, ps ++ [⟨q, (p.resume i m).2⟩]⟩ := by
      simp [step]
    rw [List.map_cons, run_cons, hstep, ih]
    rfl

theorem turn_eq (q : ρ) (is : List ι) :
    s.turn prog q is = ⟨((prog s.procs.length q).feed is s.mem).1,
      s.procs ++ [⟨q, ((prog s.procs.length q).feed is s.mem).2⟩]⟩ := by
  rw [turn, run_cons]
  exact run_resumes is

theorem turns_cons (t : ρ × List ι) (ts : List (ρ × List ι)) :
    s.turns prog (t :: ts) = (s.turn prog t.1 t.2).turns prog ts := rfl

end Sys

/-- Alone, a coroutine ends whatever it is answered. -/
theorem Co.feed_finished (p : Co σ ι τ ε α) (f : Nat → ι) (s : σ) :
    ∃ n, ((p.advance s).2.feed ((List.range n).map f) (p.advance s).1).2.finished = true := by
  induction p generalizing f s with
  | ret a => exact ⟨0, rfl⟩
  | fail e => exact ⟨0, rfl⟩
  | act g k ih => exact ih s f (g s)
  | await t k ih =>
    obtain ⟨n, hn⟩ := ih (f 0) (fun i => f (i + 1)) s
    refine ⟨n + 1, ?_⟩
    rw [List.range_succ_eq_map, List.map_cons, List.map_map]
    exact hn

/-! ## Evaluation -/

namespace Co

/-- What a coroutine does alone when every answer is `i`. -/
def eval (i : ι) : Co σ ι τ ε α → σ → Except ε α × σ
  | ret a, s => (.ok a, s)
  | fail e, s => (.error e, s)
  | act f k, s => (k s).eval i (f s)
  | await _ k, s => (k i).eval i s

/-- A coroutine that is over. -/
def ofResult : Except ε α → Co σ ι τ ε α
  | .ok a => ret a
  | .error e => fail e

section Eval

variable {β : Type} {i : ι} {s t : σ}

@[simp] theorem eval_ret (a : α) : (ret a : Co σ ι τ ε α).eval i s = (.ok a, s) := rfl

@[simp] theorem eval_pure (a : α) : (pure a : Co σ ι τ ε α).eval i s = (.ok a, s) := rfl

@[simp] theorem eval_throw (e : ε) : (throw e : Co σ ι τ ε α).eval i s = (.error e, s) := rfl

@[simp] theorem eval_get : (get : Co σ ι τ ε σ).eval i s = (.ok s, s) := rfl

@[simp] theorem eval_modify (f : σ → σ) :
    (modify f : Co σ ι τ ε Unit).eval i s = (.ok (), f s) := rfl

@[simp] theorem eval_modifyGet (f : σ → α × σ) :
    (modifyGet f : Co σ ι τ ε α).eval i s = (.ok (f s).1, (f s).2) := rfl

@[simp] theorem eval_suspend (p : τ) : (suspend p : Co σ ι τ ε ι).eval i s = (.ok i, s) := rfl

theorem eval_bind_ok {x : Co σ ι τ ε α} {g : α → Co σ ι τ ε β} {a : α}
    (hx : x.eval i s = (.ok a, t)) : (x >>= g).eval i s = (g a).eval i t := by
  induction x generalizing s with
  | ret b =>
    cases hx
    rfl
  | fail e => cases hx
  | act f k ih => exact ih s hx
  | await p k ih => exact ih i hx

theorem eval_bind_error {x : Co σ ι τ ε α} {g : α → Co σ ι τ ε β} {e : ε}
    (hx : x.eval i s = (.error e, t)) : (x >>= g).eval i s = (.error e, t) := by
  induction x generalizing s with
  | ret b => cases hx
  | fail e' =>
    cases hx
    rfl
  | act f k ih => exact ih s hx
  | await p k ih => exact ih i hx

theorem feed_ofResult (x : Except ε α) (is : List ι) :
    (ofResult x : Co σ ι τ ε α).feed is s = (s, ofResult x) := by
  induction is with
  | nil => rfl
  | cons j is ih =>
    cases x with
    | ok a => exact ih
    | error e => exact ih

/-- From some number of answers on it is over. -/
theorem feed_eval (p : Co σ ι τ ε α) (i : ι) (s : σ) :
    ∃ n, ∀ k, n ≤ k → (p.advance s).2.feed (List.replicate k i) (p.advance s).1 =
      ((p.eval i s).2, ofResult (p.eval i s).1) := by
  induction p generalizing s with
  | ret a => exact ⟨0, fun k _ => feed_ofResult (.ok a) _⟩
  | fail e => exact ⟨0, fun k _ => feed_ofResult (.error e) _⟩
  | act f k ih => exact ih s (f s)
  | await t k ih =>
    obtain ⟨n, hn⟩ := ih i s
    refine ⟨n + 1, fun k' hk' => ?_⟩
    obtain ⟨k'', rfl⟩ : ∃ k'', k' = k'' + 1 := ⟨k' - 1, by omega⟩
    rw [List.replicate_succ]
    exact hn k'' (by omega)

end Eval

end Co

/-- A turn with enough answers. -/
theorem Sys.turn_eval {prog : Nat → ρ → Co σ ι τ ε α} {s : Sys ρ σ ι τ ε α} {q : ρ} {t : τ}
    {k : ι → Co σ ι τ ε α} (i : ι) (hprog : prog s.procs.length q = (Co.suspend t >>= k)) :
    ∃ n, ∀ m, n ≤ m → s.turn prog q (List.replicate m i) =
      ⟨((k i).eval i s.mem).2, s.procs ++ [⟨q, Co.ofResult ((k i).eval i s.mem).1⟩]⟩ := by
  obtain ⟨n, hn⟩ := Co.feed_eval (prog s.procs.length q) i s.mem
  refine ⟨n, fun m hm => ?_⟩
  have hfeed := hn m hm
  rw [hprog] at hfeed
  rw [turn_eq, hprog]
  have h : (Co.suspend t >>= k : Co σ ι τ ε α).feed (List.replicate m i) s.mem =
      (((k i).eval i s.mem).2, Co.ofResult ((k i).eval i s.mem).1) := hfeed
  rw [h]

/-! ## Answers -/

namespace Co

/-- What a coroutine does alone when it is resumed with the answers one after the other,
with the answers it leaves over; `none` when there are too few. -/
def answered : Co σ ι τ ε α → List ι → σ → Option (Except ε α × List ι × σ)
  | ret a, is, s => some (.ok a, is, s)
  | fail e, is, s => some (.error e, is, s)
  | act f k, is, s => (k s).answered is (f s)
  | await _ k, i :: is, s => (k i).answered is s
  | await _ _, [], _ => none

section Answered

variable {β : Type} {i : ι} {is : List ι} {s : σ}

@[simp] theorem answered_ret (a : α) :
    (ret a : Co σ ι τ ε α).answered is s = some (.ok a, is, s) := rfl

@[simp] theorem answered_pure (a : α) :
    (pure a : Co σ ι τ ε α).answered is s = some (.ok a, is, s) := rfl

@[simp] theorem answered_throw (e : ε) :
    (throw e : Co σ ι τ ε α).answered is s = some (.error e, is, s) := rfl

@[simp] theorem answered_get : (get : Co σ ι τ ε σ).answered is s = some (.ok s, is, s) := rfl

@[simp] theorem answered_modify (f : σ → σ) :
    (modify f : Co σ ι τ ε Unit).answered is s = some (.ok (), is, f s) := rfl

@[simp] theorem answered_modifyGet (f : σ → α × σ) :
    (modifyGet f : Co σ ι τ ε α).answered is s = some (.ok (f s).1, is, (f s).2) := rfl

@[simp] theorem answered_suspend (p : τ) :
    (suspend p : Co σ ι τ ε ι).answered (i :: is) s = some (.ok i, is, s) := rfl

@[simp] theorem answered_suspend_nil (p : τ) :
    (suspend p : Co σ ι τ ε ι).answered [] s = none := rfl

@[simp] theorem answered_bind (x : Co σ ι τ ε α) (g : α → Co σ ι τ ε β) :
    (x >>= g).answered is s = match x.answered is s with
      | some (.ok a, is', t) => (g a).answered is' t
      | some (.error e, is', t) => some (.error e, is', t)
      | none => none := by
  induction x generalizing is s with
  | ret a => rfl
  | fail e => rfl
  | act f k ih => exact ih s
  | await p k ih =>
    cases is with
    | nil => rfl
    | cons i is => exact ih i

@[simp] theorem answered_tryCatch (x : Co σ ι τ ε α) (h : ε → Co σ ι τ ε α) :
    (x.tryCatch h).answered is s = match x.answered is s with
      | some (.ok a, is', t) => some (.ok a, is', t)
      | some (.error e, is', t) => (h e).answered is' t
      | none => none := by
  induction x generalizing is s with
  | ret a => rfl
  | fail e => rfl
  | act f k ih => exact ih s
  | await p k ih =>
    cases is with
    | nil => rfl
    | cons i is => exact ih i

theorem feed_answered {p : Co σ ι τ ε α} {js rest : List ι} {x : Except ε α} {t : σ}
    (h : p.answered js s = some (x, rest, t)) :
    (p.advance s).2.feed js (p.advance s).1 = (t, ofResult x) := by
  induction p generalizing js s with
  | ret a =>
    cases h
    exact feed_ofResult (.ok a) _
  | fail e =>
    cases h
    exact feed_ofResult (.error e) _
  | act f k ih => exact ih s h
  | await p k ih =>
    cases js with
    | nil => cases h
    | cons j js => exact ih j h

theorem answered_bind_some {x : Co σ ι τ ε α} {g : α → Co σ ι τ ε β} {y : Except ε β}
    {rest : List ι} {t : σ} (h : (x >>= g).answered is s = some (y, rest, t)) :
    (∃ a is' s', x.answered is s = some (.ok a, is', s') ∧
        (g a).answered is' s' = some (y, rest, t)) ∨
      ∃ e, x.answered is s = some (.error e, rest, t) ∧ y = .error e := by
  rw [answered_bind] at h
  split at h
  · rename_i a is' s' hx
    exact .inl ⟨a, is', s', hx, h⟩
  · rename_i e is' s' hx
    cases h
    exact .inr ⟨e, hx, rfl⟩
  · cases h

/-- What is over has had all the answers it needs. -/
theorem answered_of_finished {p : Co σ ι τ ε α} {js : List ι}
    (h : ((p.advance s).2.feed js (p.advance s).1).2.finished = true) :
    ∃ x rest t, p.answered js s = some (x, rest, t) := by
  induction p generalizing js s with
  | ret a => exact ⟨.ok a, js, s, rfl⟩
  | fail e => exact ⟨.error e, js, s, rfl⟩
  | act f k ih => exact ih s h
  | await p k ih =>
    cases js with
    | nil => cases h
    | cons j js => exact ih j h

end Answered

end Co

/-- A turn that is given all the answers it needs. -/
theorem Sys.turn_answered {prog : Nat → ρ → Co σ ι τ ε α} {s : Sys ρ σ ι τ ε α} {q : ρ} {t : τ}
    {k : ι → Co σ ι τ ε α} {j : ι} {js rest : List ι} {x : Except ε α} {m : σ}
    (hprog : prog s.procs.length q = (Co.suspend t >>= k))
    (h : (k j).answered js s.mem = some (x, rest, m)) :
    s.turn prog q (j :: js) = ⟨m, s.procs ++ [⟨q, Co.ofResult x⟩]⟩ := by
  have hall : (Co.suspend t >>= k : Co σ ι τ ε α).answered (j :: js) s.mem = some (x, rest, m) := h
  have hfeed : (Co.suspend t >>= k : Co σ ι τ ε α).feed (j :: js) s.mem = (m, Co.ofResult x) :=
    Co.feed_answered hall
  rw [turn_eq, hprog, hfeed]

/-- Coroutine `r` has ended. -/
def Sys.ended (s : Sys ρ σ ι τ ε α) (r : Nat) : Bool :=
  (s.procs[r]?).any fun p => p.code.finished

/-- A turn that has ended has had all the answers it needs. -/
theorem Sys.turn_ended {prog : Nat → ρ → Co σ ι τ ε α} {s : Sys ρ σ ι τ ε α} {q : ρ} {t : τ}
    {k : ι → Co σ ι τ ε α} {is : List ι} (hprog : prog s.procs.length q = (Co.suspend t >>= k))
    (h : (s.turn prog q is).ended s.procs.length = true) :
    ∃ j js x rest m, is = j :: js ∧ (k j).answered js s.mem = some (x, rest, m) := by
  rw [turn_eq, hprog] at h
  have hend : ((Co.suspend t >>= k : Co σ ι τ ε α).feed is s.mem).2.finished = true := by
    simpa [Sys.ended] using h
  cases is with
  | nil => cases hend
  | cons j js =>
    obtain ⟨x, rest, m, hx⟩ := Co.answered_of_finished (p := k j) (s := s.mem) hend
    exact ⟨j, js, x, rest, m, rfl, hx⟩

/-- Coroutine `r₀` runs alone and keeps `I`. -/
def Protocol.solo (r₀ : Nat) (I : σ → Prop) : Protocol ρ σ ι τ where
  inv := I
  rely r _ s t := r = r₀ → s = t
  guar r _ s t := s = t ∨ r = r₀ ∧ (I s → I t)
  guard _ _ _ _ _ := True
  permit _ _ := True
  rely_refl _ _ _ _ := rfl
  rely_trans _ _ _ _ _ h h' hr := (h hr).trans (h' hr)
  guar_refl _ _ _ := .inl rfl
  guar_trans r q s t u h h' := by
    rcases h with rfl | ⟨hr, h⟩
    · exact h'
    · rcases h' with rfl | ⟨-, h'⟩
      · exact .inr ⟨hr, h⟩
      · exact .inr ⟨hr, fun hi => h' (h hi)⟩
  guar_inv r q s t hi hg := by
    rcases hg with rfl | ⟨-, hg⟩
    · exact hi
    · exact hg hi
  guar_rely r q r' q' s t hne hi hg hr := by
    rcases hg with h | ⟨hr₀, -⟩
    · exact h
    · exact absurd (hr₀.trans hr.symm) hne

namespace Protocol

variable {r : Nat} {q : ρ} {I : σ → Prop} {L E : σ → Prop} {Q : α → σ → Prop}

/-- Nothing happens while a coroutine that runs alone is suspended. -/
theorem solo_stable : (solo r I : Protocol ρ σ ι τ).Stable r q L := by
  intro s t _ hr hl
  cases hr rfl
  exact hl

theorem solo_guar {s t : σ} (h : I s → I t) : (solo r I : Protocol ρ σ ι τ).guar r q s t :=
  .inr ⟨rfl, h⟩

/-- Coroutine `r` has run alone up to `p` and memory `s`. -/
def Alone (r : Nat) (q : ρ) (I : σ → Prop) (Q : α → σ → Prop) (E : σ → Prop)
    (p : Co σ ι τ ε α) (s : σ) : Prop :=
  I s ∧ match p with
    | .ret a => Q a s
    | .fail _ => E s
    | .act _ _ => False
    | .await _ k => ∀ i, (k i).Safe (solo r I : Protocol ρ σ ι τ) r q
        (fun a s₀ s => I s₀ ∧ (solo r I : Protocol ρ σ ι τ).guar r q s₀ s ∧ Q a s)
        (fun _ s₀ s => I s₀ ∧ (solo r I : Protocol ρ σ ι τ).guar r q s₀ s ∧ E s) s s

theorem alone_advance {p : Co σ ι τ ε α} {s₀ s : σ} (hi : I s₀)
    (h : p.Safe (solo r I : Protocol ρ σ ι τ) r q
      (fun a s₀ s => I s₀ ∧ (solo r I : Protocol ρ σ ι τ).guar r q s₀ s ∧ Q a s)
      (fun _ s₀ s => I s₀ ∧ (solo r I : Protocol ρ σ ι τ).guar r q s₀ s ∧ E s) s₀ s) :
    Alone r q I Q E (p.advance s).2 (p.advance s).1 := by
  induction p generalizing s with
  | ret a => exact ⟨(solo r I).guar_inv r q s₀ s hi h.2.1, h.2.2⟩
  | fail e => exact ⟨(solo r I).guar_inv r q s₀ s hi h.2.1, h.2.2⟩
  | act f k ih => exact ih s h
  | await t k _ =>
    have hi' : I s := (solo r I).guar_inv r q s₀ s hi h.1
    exact ⟨hi', fun i => h.2 s hi' (fun _ => rfl) i trivial⟩

theorem Alone.feed {p : Co σ ι τ ε α} {s : σ} (h : Alone r q I Q E p s) (is : List ι) :
    Alone r q I Q E (p.feed is s).2 (p.feed is s).1 := by
  induction is generalizing p s with
  | nil => exact h
  | cons i is ih =>
    apply ih
    cases p with
    | ret a => exact h
    | fail e => exact h
    | act f k => exact h.2.elim
    | await t k => exact alone_advance h.1 (h.2 i)

/-- A program that suspends first, from a memory where its triple applies. -/
theorem alone_of_triple {t : τ} {k : ι → Co σ ι τ ε α} {s : σ}
    (h : ∀ i, (solo r I : Protocol ρ σ ι τ).Triple r q L (k i) Q E) (hi : I s) (hl : L s) :
    Alone r q I Q E (Co.suspend t >>= k) s :=
  ⟨hi, fun i => h i s s hi (.inl rfl) hl⟩

variable {prog : Nat → ρ → Co σ ι τ ε α} {s : Sys ρ σ ι τ ε α}

/-- What a turn leaves behind. -/
theorem turn_alone (is : List ι)
    (h : Alone s.procs.length q I Q E (prog s.procs.length q) s.mem) :
    I (s.turn prog q is).mem ∧
      ((s.turn prog q is).returned s.procs.length = true → ∃ a, Q a (s.turn prog q is).mem) := by
  obtain ⟨hi, hcode⟩ := h.feed is
  rw [Sys.turn_eq]
  refine ⟨hi, ?_⟩
  intro hret
  cases hp : ((prog s.procs.length q).feed is s.mem).2 with
  | ret a =>
    rw [hp] at hcode
    exact ⟨a, hcode⟩
  | fail e => simp [Sys.returned, hp, Co.returned] at hret
  | act f k => simp [Sys.returned, hp, Co.returned] at hret
  | await t k => simp [Sys.returned, hp, Co.returned] at hret

/-- A turn comes to its end, with a value or with an error. -/
theorem turn_ends (f : Nat → ι)
    (h : Alone s.procs.length q I Q E (prog s.procs.length q) s.mem) :
    ∃ n, ((s.turn prog q ((List.range n).map f)).returned s.procs.length = true ∧
        ∃ a, Q a (s.turn prog q ((List.range n).map f)).mem) ∨
      ((s.turn prog q ((List.range n).map f)).failed s.procs.length = true ∧
        E (s.turn prog q ((List.range n).map f)).mem) := by
  have hadvance : (prog s.procs.length q).advance s.mem = (s.mem, prog s.procs.length q) := by
    have hcode := h.2
    cases hp : prog s.procs.length q with
    | act g k => simp [hp] at hcode
    | _ => rfl
  obtain ⟨n, hn⟩ := Co.feed_finished (prog s.procs.length q) f s.mem
  rw [hadvance] at hn
  refine ⟨n, ?_⟩
  obtain ⟨-, hcode⟩ := h.feed ((List.range n).map f)
  rw [Sys.turn_eq]
  cases hp : ((prog s.procs.length q).feed ((List.range n).map f) s.mem).2 with
  | ret a =>
    rw [hp] at hcode
    exact .inl ⟨by simp [Sys.returned, Co.returned], a, hcode⟩
  | fail e =>
    rw [hp] at hcode
    exact .inr ⟨by simp [Sys.failed, Co.finished, Co.returned], hcode⟩
  | act g k => simp [hp, Co.finished] at hn
  | await t k => simp [hp, Co.finished] at hn

end Protocol

end Coroutine
