import Cmall.AsyncConnect

/-!
A parallel connect completes at most once. It never completes when an endpoint has been rejected and
a failed attempt comes last: the rejected endpoints are not taken off the remaining attempts.
-/

namespace Cmall.AsyncConnect

variable {endpoints : List Family} {accept : Nat → Bool} {n i : Nat} {s : State}

/-! ## What is claimed -/

/-- The endpoint of the first attempt that succeeded. -/
def firstSuccess (events : List Event) : Option Nat :=
  events.findSome? fun
    | .success i => some i
    | _ => none

/-- The handler has been invoked once: with the first success, else with an error. -/
def CompletedOnce (events : List Event) (s : State) : Prop :=
  (∀ i, firstSuccess events = some i → s.posted = [⟨none, i⟩] ∧ s.stream = some i) ∧
    (firstSuccess events = none → ∃ e i, s.posted = [⟨some e, i⟩])

/-- The run ends with a failed attempt. -/
def EndsInFailure (events : List Event) : Prop := ∃ i, events.getLast? = some (.failure i)

/-! ## Counting -/

/-- The attempts and timers that are pending. -/
def State.live (s : State) : Nat := s.attempts.countP Attempt.pending

/-- The rejected endpoints. -/
def State.rejected (s : State) : Nat := s.attempts.countP (· = .rejected)

theorem live_settle {a b : Attempt} (h : s.attempts[i]? = some a) (ha : a.pending = true) :
    (s.settle i b).live = s.live - 1 + if b.pending then 1 else 0 := by
  obtain ⟨hi, rfl⟩ := List.getElem?_eq_some_iff.mp h
  rw [State.live, State.live, State.settle, List.countP_set hi, if_pos ha]

theorem rejected_settle {a b : Attempt} (h : s.attempts[i]? = some a) (ha : a ≠ .rejected) :
    (s.settle i b).rejected = s.rejected + if b = .rejected then 1 else 0 := by
  obtain ⟨hi, rfl⟩ := List.getElem?_eq_some_iff.mp h
  rw [State.rejected, State.rejected, State.settle, List.countP_set hi]
  simp [ha]

theorem live_pos {a : Attempt} (h : s.attempts[i]? = some a) (ha : a.pending = true) :
    0 < s.live :=
  List.countP_pos_iff.mpr ⟨a, List.mem_of_getElem? h, ha⟩

/-! ## The invariant -/

/-- The attempts fit the answers of the condition. -/
def Fits (accept : Nat → Bool) (s : State) : Prop :=
  ∀ i a, s.attempts[i]? = some a → (a = .rejected → accept i = false) ∧
    (a = .connecting ∨ a = .failed → accept i = true)

/-- No attempt has succeeded yet. -/
structure Open (n : Nat) (accept : Nat → Bool) (s : State) : Prop where
  flag : s.flag = false
  stream : s.stream = none
  length : s.attempts.length = n
  kept : ∀ a ∈ s.attempts, a ≠ .connected ∧ a ≠ .skipped
  fits : Fits accept s
  reject : s.reject = s.rejected
  num : s.num = s.live + s.rejected

theorem Fits.settle {a : Attempt} (h : Fits accept s)
    (ha : (a = .rejected → accept i = false) ∧ (a = .connecting ∨ a = .failed → accept i = true)) :
    Fits accept (s.settle i a) := by
  intro j b hb
  rw [State.settle, List.getElem?_set] at hb
  by_cases hij : i = j
  · subst hij
    rw [if_pos rfl] at hb
    split at hb
    · cases hb
      exact ha
    · contradiction
  · rw [if_neg hij] at hb
    exact h j b hb

theorem kept_settle {a : Attempt} (h : ∀ b ∈ s.attempts, b ≠ .connected ∧ b ≠ .skipped)
    (ha : a ≠ .connected ∧ a ≠ .skipped) :
    ∀ b ∈ (s.settle i a).attempts, b ≠ .connected ∧ b ≠ .skipped := by
  intro b hb
  rcases List.mem_or_eq_of_mem_set hb with hb | rfl
  · exact h b hb
  · exact ha

theorem Open.settle {a : Attempt} (h : Open n accept s) (ha : a ≠ .connected ∧ a ≠ .skipped)
    (hfits : (a = .rejected → accept i = false) ∧ (a = .connecting ∨ a = .failed → accept i = true))
    {num reject : Int} {posted : List Completion} (hreject : reject = (s.settle i a).rejected)
    (hnum : num = (s.settle i a).live + (s.settle i a).rejected) :
    Open n accept { s.settle i a with num := num, reject := reject, posted := posted } where
  flag := h.flag
  stream := h.stream
  length := (List.length_set).trans h.length
  kept := kept_settle h.kept ha
  fits := h.fits.settle hfits
  reject := hreject
  num := hnum

/-- A connector whose endpoint is rejected. -/
theorem connFunc_rejects (haccept : accept i = false) : connFunc accept i s =
    { s.settle i .rejected with
      num := s.num, reject := s.reject + 1
      posted := if s.reject + 1 = s.num then s.posted ++ [⟨some .notFound, i⟩] else s.posted } := by
  unfold connFunc
  rw [haccept, if_neg (by decide)]
  show (if s.reject + 1 = s.num then _ else _) = _
  split
  · rfl
  · rfl

/-- A connector that runs leaves its attempt pending, or rejects the endpoint; the last endpoint that
is rejected completes the operation. -/
theorem connFunc_open (h : Open n accept s) (hposted : s.posted = [])
    (hi : s.attempts[i]? = some .waiting) :
    Open n accept (connFunc accept i s) ∧
      (0 < (connFunc accept i s).live → (connFunc accept i s).posted = []) ∧
      ((connFunc accept i s).live = 0 → (connFunc accept i s).posted = [⟨some .notFound, i⟩]) := by
  have hpos := live_pos hi rfl
  have hreject := h.reject
  have hnum := h.num
  cases haccept : accept i with
  | true =>
    have hlive : (s.settle i .connecting).live = s.live - 1 + 1 := live_settle hi rfl
    have hrejected : (s.settle i .connecting).rejected = s.rejected := rejected_settle hi (by decide)
    rw [connFunc, if_pos haccept]
    refine ⟨h.settle (by decide) ⟨by simp, fun _ => haccept⟩ (by omega) (by omega),
      fun _ => hposted, fun hquiet => ?_⟩
    omega
  | false =>
    have hlive : (s.settle i .rejected).live = s.live - 1 := live_settle hi rfl
    have hrejected : (s.settle i .rejected).rejected = s.rejected + 1 :=
      rejected_settle hi (by decide)
    rw [connFunc_rejects haccept, hposted]
    refine ⟨h.settle (by decide) ⟨fun _ => haccept, by simp⟩ (by omega) (by omega),
      fun hpending => if_neg ?_, fun hquiet => if_pos ?_⟩
    · have : 0 < (s.settle i .rejected).live := hpending
      omega
    · have : (s.settle i .rejected).live = 0 := hquiet
      omega

/-- The first success. -/
theorem connectHandler_success (hflag : s.flag = false) : connectHandler i none s =
    { s.settle i .connected with
      flag := true, num := s.num - 1, stream := some i, posted := s.posted ++ [⟨none, i⟩] } := by
  simp [connectHandler, State.settle, State.callback, hflag]

theorem connectHandler_success_late (hflag : s.flag = true) :
    connectHandler i none s = s.settle i .connected := by
  simp [connectHandler, State.settle, hflag]

theorem connectHandler_failure (e : Error) : connectHandler i (some e) s =
    { s.settle i .failed with
      num := s.num - 1
      posted := if s.flag = true ∨ s.num - 1 ≠ 0 then s.posted else s.posted ++ [⟨some e, i⟩] } := by
  by_cases hlast : s.flag = true ∨ s.num - 1 ≠ 0
  · simp [connectHandler, State.settle, hlast]
  · simp [connectHandler, State.settle, State.callback, hlast]

/-! ## The invariant over a run -/

/-- Nothing has succeeded: the handler is invoked when nothing is pending any more, unless an endpoint
has been rejected and a failed attempt comes last. -/
structure Undecided (n : Nat) (accept : Nat → Bool) (done : List Event) (s : State) : Prop where
  opened : Open n accept s
  first : firstSuccess done = none
  pending : 0 < s.live → s.posted = []
  completed : s.live = 0 → s.rejected = 0 ∨ ¬EndsInFailure done → ∃ e i, s.posted = [⟨some e, i⟩]
  stuck : s.live = 0 → s.rejected ≠ 0 → EndsInFailure done → s.posted = []

/-- The first success has completed the operation. -/
structure Decided (done : List Event) (s : State) : Prop where
  flag : s.flag = true
  first : ∃ i, firstSuccess done = some i ∧ s.posted = [⟨none, i⟩] ∧ s.stream = some i

def Inv (n : Nat) (accept : Nat → Bool) (done : List Event) (s : State) : Prop :=
  Undecided n accept done s ∨ Decided done s

theorem endsInFailure_append (done : List Event) (e : Event) :
    EndsInFailure (done ++ [e]) ↔ ∃ i, e = .failure i := by
  simp [EndsInFailure]

theorem firstSuccess_append (done : List Event) (e : Event) :
    firstSuccess (done ++ [e]) = (firstSuccess done).or (firstSuccess [e]) :=
  List.findSome?_append

/-- After the first success nothing is posted any more. -/
theorem Decided.preserved {done : List Event} (h : Decided done s) (e : Event) :
    Decided (done ++ [e]) (step accept s e) := by
  obtain ⟨hflag, i, hfirst, hposted, hstream⟩ := h
  have hkept : (step accept s e).flag = true ∧ (step accept s e).posted = s.posted ∧
      (step accept s e).stream = s.stream := by
    cases e with
    | timer j =>
      rw [step, timerHandler, if_pos hflag]
      exact ⟨hflag, rfl, rfl⟩
    | success j =>
      rw [step, connectHandler_success_late hflag]
      exact ⟨hflag, rfl, rfl⟩
    | failure j =>
      rw [step, connectHandler_failure]
      exact ⟨hflag, if_pos (.inl hflag), rfl⟩
  exact ⟨hkept.1, i, (by rw [firstSuccess_append, hfirst]; rfl), hkept.2.1.trans hposted,
    hkept.2.2.trans hstream⟩

theorem Undecided.timer {done : List Event} (h : Undecided n accept done s)
    (hi : s.attempts[i]? = some .waiting) :
    Undecided n accept (done ++ [.timer i]) (step accept s (.timer i)) := by
  obtain ⟨hopen, hpending, hquiet⟩ :=
    connFunc_open h.opened (h.pending (live_pos hi rfl)) hi
  rw [step, timerHandler, if_neg (by rw [h.opened.flag]; decide)]
  refine ⟨hopen, by rw [firstSuccess_append, h.first]; rfl, hpending, fun hlive _ => ⟨_, _, hquiet hlive⟩, ?_⟩
  intro _ _ hends
  obtain ⟨j, hj⟩ := (endsInFailure_append done _).mp hends
  contradiction

theorem Undecided.success {done : List Event} (h : Undecided n accept done s)
    (hi : s.attempts[i]? = some .connecting) :
    Decided (done ++ [.success i]) (step accept s (.success i)) := by
  have hposted := h.pending (live_pos hi rfl)
  rw [step, connectHandler_success h.opened.flag, hposted]
  exact ⟨rfl, i, by rw [firstSuccess_append, h.first]; rfl, rfl, rfl⟩

/-- A failure that leaves nothing pending completes the operation when no endpoint is rejected. -/
theorem Undecided.failure {done : List Event} (h : Undecided n accept done s)
    (hi : s.attempts[i]? = some .connecting) :
    Undecided n accept (done ++ [.failure i]) (step accept s (.failure i)) := by
  have hpos := live_pos hi rfl
  have hposted := h.pending hpos
  have hnum := h.opened.num
  have hreject := h.opened.reject
  have hlive : (s.settle i .failed).live = s.live - 1 := live_settle hi rfl
  have hrejected : (s.settle i .failed).rejected = s.rejected := rejected_settle hi (by decide)
  have hflag := h.opened.flag
  have haccept := (h.opened.fits i _ hi).2 (.inl rfl)
  have hopen := fun posted => @Open.settle accept n i s .failed h.opened (by decide)
    ⟨by simp, fun _ => haccept⟩ (s.num - 1) s.reject posted (by omega) (by omega)
  rw [step, connectHandler_failure, hposted, hflag]
  refine ⟨hopen _, by rw [firstSuccess_append, h.first]; rfl, ?_, ?_, ?_⟩
  · intro hpending
    have : 0 < (s.settle i .failed).live := hpending
    exact if_pos (.inr (by omega))
  · intro hquiet hnone
    have : (s.settle i .failed).live = 0 := hquiet
    have hzero : (s.settle i .failed).rejected = 0 :=
      hnone.resolve_right fun hnot => hnot ((endsInFailure_append done _).mpr ⟨i, rfl⟩)
    exact ⟨_, _, if_neg (by simp; omega)⟩
  · intro hquiet hsome _
    have : (s.settle i .failed).live = 0 := hquiet
    have : (s.settle i .failed).rejected ≠ 0 := hsome
    exact if_pos (.inr (by omega))

theorem inv_step (done : List Event) (s : State) (e : Event) (h : Inv n accept done s)
    (he : Enabled s e) : Inv n accept (done ++ [e]) (step accept s e) := by
  rcases h with h | h
  · cases e with
    | timer i => exact .inl (h.timer he)
    | success i => exact .inr (h.success he)
    | failure i => exact .inl (h.failure he)
  · exact .inr (h.preserved e)

/-! ## The start -/

theorem connFunc_attempts (j : Nat) (hij : i ≠ j) :
    (connFunc accept i s).attempts[j]? = s.attempts[j]? := by
  have hset : ∀ a, (s.attempts.set i a)[j]? = s.attempts[j]? := fun a =>
    List.getElem?_set_ne hij
  unfold connFunc
  split
  · exact hset _
  · show (if _ then _ else _ : State).attempts[j]? = _
    split
    · exact hset _
    · exact hset _

/-- The loop leaves every attempt pending or rejected. -/
theorem startConnectors_undecided (is : List Nat) (his : is.Nodup)
    (hwaiting : ∀ i ∈ is, s.attempts[i]? = some .waiting) (h : Undecided n accept [] s) :
    Undecided n accept [] (startConnectors endpoints accept is s) := by
  induction is generalizing s with
  | nil => exact h
  | cons i is ih =>
    obtain ⟨hi, his⟩ := List.nodup_cons.mp his
    have hwaiting' := fun j hj => hwaiting j (List.mem_cons_of_mem i hj)
    rw [startConnectors]
    split
    · exact ih his hwaiting' h
    · refine ih his (fun j hj => ?_) ?_
      · rw [connFunc_attempts j (by rintro rfl; exact hi hj)]
        exact hwaiting' j hj
      · have hwait := hwaiting i List.mem_cons_self
        obtain ⟨hopen, hpending, hquiet⟩ :=
          connFunc_open h.opened (h.pending (live_pos hwait rfl)) hwait
        refine ⟨hopen, rfl, hpending, fun hlive _ => ⟨_, _, hquiet hlive⟩, ?_⟩
        rintro _ _ ⟨j, hj⟩
        contradiction

/-- Before the loop. -/
theorem open_start (n : Nat) (accept : Nat → Bool) (posted : List Completion) :
    Open n accept { num := n, attempts := List.replicate n .waiting, posted := posted } where
  flag := rfl
  stream := rfl
  length := List.length_replicate
  kept := by
    intro a ha
    rw [List.eq_of_mem_replicate ha]
    decide
  fits := by
    intro i a ha
    rw [List.eq_of_mem_replicate (List.mem_of_getElem? ha)]
    exact ⟨by simp, by simp⟩
  reject := by simp [State.rejected, List.countP_replicate]
  num := by simp [State.live, State.rejected, List.countP_replicate, Attempt.pending]

theorem doAsyncConnect_undecided (endpoints : List Family) (accept : Nat → Bool) :
    Undecided endpoints.length accept [] (doAsyncConnect endpoints accept) := by
  have hends : ¬EndsInFailure [] := by
    rintro ⟨i, hi⟩
    contradiction
  unfold doAsyncConnect
  by_cases hnone : (endpoints.length : Int) = 0
  · simp only [hnone, if_true]
    have hlength : endpoints.length = 0 := by omega
    have hopen := open_start endpoints.length accept [⟨some .noData, 0⟩]
    rw [hnone] at hopen
    refine ⟨hopen, rfl, fun hlive => ?_, fun _ _ => ⟨_, _, rfl⟩, fun _ _ h => absurd h hends⟩
    rw [State.live, State.callback, hlength] at hlive
    contradiction
  · simp only [hnone, if_false]
    refine startConnectors_undecided _ List.nodup_range (fun i hi => ?_) ?_
    · rw [List.getElem?_replicate, if_pos (List.mem_range.mp hi)]
    · refine ⟨open_start _ accept [], rfl, fun _ => rfl, fun hlive => ?_, fun _ _ _ => rfl⟩
      rw [State.live, List.countP_replicate] at hlive
      simp [Attempt.pending] at hlive
      rw [hlive] at hnone
      contradiction

/-! ## Runs -/

theorem live_eq_zero (h : s.Quiet) : s.live = 0 :=
  List.countP_eq_zero.mpr fun a ha => by rw [h a ha]; decide

/-- When nothing is pending, the attempts tell what the condition has answered. -/
theorem Open.rejected_eq_zero_iff (h : Open n accept s) (hquiet : s.Quiet) :
    s.rejected = 0 ↔ ∀ i < n, accept i = true := by
  rw [State.rejected, List.countP_eq_zero]
  constructor
  · intro hnone i hi
    have hlt : i < s.attempts.length := h.length.symm ▸ hi
    have hmem := List.getElem_mem hlt
    have hget := List.getElem?_eq_getElem hlt
    have hfits := h.fits i _ hget
    have hrejected := hnone _ hmem
    have hkept := h.kept _ hmem
    have hpending := hquiet _ hmem
    cases ha : s.attempts[i] with
    | waiting => rw [ha] at hpending; contradiction
    | connecting => rw [ha] at hpending; contradiction
    | rejected => rw [ha] at hrejected; simp at hrejected
    | skipped => exact absurd ha hkept.2
    | failed => exact hfits.2 (.inr ha)
    | connected => exact absurd ha hkept.1
  · intro hall a ha hrejected
    obtain ⟨i, hi⟩ := List.getElem?_of_mem ha
    have hlt := (List.getElem?_eq_some_iff.mp hi).1
    have hfalse := (h.fits i a hi).1 (by simpa using hrejected)
    rw [hall i (h.length ▸ hlt)] at hfalse
    contradiction

theorem Undecided.length_posted {done : List Event} (h : Undecided n accept done s) :
    s.posted.length ≤ 1 := by
  by_cases hlive : s.live = 0
  · by_cases hends : s.rejected = 0 ∨ ¬EndsInFailure done
    · obtain ⟨e, i, hposted⟩ := h.completed hlive hends
      rw [hposted]
      exact Nat.le_refl 1
    · rw [not_or, not_not] at hends
      rw [h.stuck hlive hends.1 hends.2]
      exact Nat.zero_le 1
  · rw [h.pending (by omega)]
    exact Nat.zero_le 1

theorem Undecided.completedOnce_iff {done : List Event} (h : Undecided n accept done s)
    (hquiet : s.Quiet) : CompletedOnce done s ↔
      (∀ i < n, accept i = true) ∨ ¬EndsInFailure done := by
  have hlive := live_eq_zero hquiet
  rw [← h.opened.rejected_eq_zero_iff hquiet]
  constructor
  · rintro ⟨_, herror⟩
    obtain ⟨e, i, hposted⟩ := herror h.first
    by_cases hends : s.rejected = 0 ∨ ¬EndsInFailure done
    · exact hends
    · rw [not_or, not_not] at hends
      rw [h.stuck hlive hends.1 hends.2] at hposted
      contradiction
  · intro hends
    refine ⟨fun i hi => ?_, fun _ => h.completed hlive hends⟩
    rw [h.first] at hi
    contradiction

/-- The endpoint of IPv6 is accepted and that of IPv4 is not. -/
def onlyFirst (i : Nat) : Bool := i = 0

end Cmall.AsyncConnect
