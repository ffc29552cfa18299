import Cmall.Sandbox

/-!
Answers to intercepted calls.

After the switch, `resp->val` other than 0 is read as "the descriptor was sent". It holds
the result of the `ADDFD` call, so a failed call (`-1`) leaves the notification without an
answer, and descriptor 0 is followed by a second one. `answered_once_iff` says that nothing
else goes wrong, whatever the kernel answers.
-/

namespace Cmall.Sandbox

def Answer.id : Answer → UInt64
  | .sent addfd => addfd.id
  | .responded resp => resp.id

/-- The process is gone and the supervisor returns. -/
def Handled.gaveUp (h : Handled) : Prop := h.req.nr = sysOpenat ∧ h.kernel.idValid ≠ 0

/-- One answer, for this notification. -/
def Handled.AnsweredOnce (h : Handled) : Prop := ∃ x, h.answers = [x] ∧ x.id = h.req.id

/-- Every notification that is received is answered once, up to the one at which the
supervisor gives up. -/
def EveryCallAnswered (vfs : Vfs) (inputs : List (Notif × Kernel)) : Prop :=
  ∀ h ∈ startSupervisor vfs inputs, ¬ h.gaveUp → h.AnsweredOnce

/-- The call is for a file of the script that no test on its path has caught before. -/
def ServedFromVfs (vfs : Vfs) (req : Notif) (k : Kernel) : Prop :=
  req.nr = sysOpenat ∧ k.idValid = 0 ∧ req.dirfd = atFdcwd ∧ vfs.contains (k.nodeWantOpen req) ∧
    ¬ (req.openFlag = oRdonly ||| oCloexec ∧ startsWithAny (k.nodeWantOpen req) cloexecEntries) ∧
    ¬ (req.openFlag = oRdonly ∧ startsWithAny (k.nodeWantOpen req) rdonlyEntries) ∧
    ¬ startsWithAny (k.nodeWantOpen req) ["/dev/"] ∧
    ¬ startsWithAny (k.nodeWantOpen req) ["/dev/pts/"] ∧
    ¬ startsWithAny (k.nodeWantOpen req) ["/run/systemd/"]

variable {vfs : Vfs} {req : Notif} {k : Kernel}

/-! ## One notification -/

/-- A turn that leaves `val` alone responds. -/
theorem finish_answeredOnce {r : Resp × List Answer} (hval : r.1.val = 0) (hnil : r.2 = [])
    (hid : r.1.id = req.id) : (finish req k r).AnsweredOnce := by
  refine ⟨.responded r.1, ?_, ?_⟩
  · simp [finish, hval, hnil]
  · simpa [finish, hval, Answer.id] using hid

theorem openat_of_served (h : ServedFromVfs vfs req k) :
    (openat vfs req k req.refused).1.val = k.addfd ∧
      (openat vfs req k req.refused).1.id = req.id ∧
      (0 ≤ k.addfd → ∃ x, (openat vfs req k req.refused).2 = [x] ∧ x.id = req.id) ∧
      (k.addfd < 0 → (openat vfs req k req.refused).2 = []) := by
  obtain ⟨_, _, hdir, hvfs, h1, h2, h3, h4, h5⟩ := h
  rw [openat, if_neg (fun hc => h1 ⟨hc.1.2, hc.2⟩), if_neg (fun hc => h2 ⟨hc.1.2, hc.2⟩),
    if_neg (fun hc => h3 hc.1), if_neg (fun hc => h4 hc.1), if_neg (fun hc => h5 hc.1),
    if_pos ⟨hdir, hvfs⟩]
  refine ⟨rfl, rfl, fun hpos => ⟨_, if_pos hpos, rfl⟩, fun hneg => if_neg (by omega)⟩

theorem openat_of_not_served (hnr : req.nr = sysOpenat) (hid : k.idValid = 0)
    (h : ¬ ServedFromVfs vfs req k) :
    (openat vfs req k req.refused).1.val = 0 ∧ (openat vfs req k req.refused).2 = [] ∧
      (openat vfs req k req.refused).1.id = req.id := by
  simp only [openat]
  split
  case isTrue => exact ⟨rfl, rfl, rfl⟩
  case isFalse h1 =>
  split
  case isTrue => exact ⟨rfl, rfl, rfl⟩
  case isFalse h2 =>
  split
  case isTrue => exact ⟨rfl, rfl, rfl⟩
  case isFalse h3 =>
  split
  case isTrue => exact ⟨rfl, rfl, rfl⟩
  case isFalse h4 =>
  split
  case isTrue => exact ⟨rfl, rfl, rfl⟩
  case isFalse h5 =>
  split
  case isTrue hd =>
    exact absurd ⟨hnr, hid, hd.1, hd.2, fun hc => h1 ⟨⟨hd.1, hc.1⟩, hc.2⟩,
      fun hc => h2 ⟨⟨hd.1, hc.1⟩, hc.2⟩, fun hc => h3 ⟨hc, hd.1⟩, fun hc => h4 ⟨hc, hd.1⟩,
      fun hc => h5 ⟨hc, hd.1⟩⟩ h
  case isFalse => exact ⟨rfl, rfl, rfl⟩

/-- A descriptor above 0 is the only result of the call that ends in one answer. -/
theorem served_answeredOnce_iff (h : ServedFromVfs vfs req k) :
    (handle vfs req k).AnsweredOnce ↔ 0 < k.addfd := by
  obtain ⟨hval, hid, hsent, hfailed⟩ := openat_of_served h
  have hhandle : handle vfs req k = finish req k (openat vfs req k req.refused) := by
    simp [handle, h.1, h.2.1]
  rw [hhandle]
  generalize openat vfs req k req.refused = r at *
  rcases Int.lt_trichotomy k.addfd 0 with hneg | hzero | hpos
  · have hanswers : (finish req k r).answers = [] := by
      have hne : r.1.val ≠ 0 := by omega
      simp [finish, hne, hfailed hneg]
    constructor
    · rintro ⟨x, hx, _⟩
      rw [hanswers] at hx
      cases hx
    · intro hpos
      omega
  · obtain ⟨x, hx, _⟩ := hsent (by omega)
    have hanswers : (finish req k r).answers = [x, .responded r.1] := by
      have heq : r.1.val = 0 := by omega
      simp [finish, heq, hx]
    constructor
    · rintro ⟨y, hy, _⟩
      rw [hanswers] at hy
      cases hy
    · intro hpos
      omega
  · obtain ⟨x, hx, hxid⟩ := hsent (by omega)
    have hne : r.1.val ≠ 0 := by omega
    refine iff_of_true ⟨x, ?_, ?_⟩ hpos
    · simp [finish, hne, hx]
    · simpa [finish, hne] using hxid

theorem handle_req : (handle vfs req k).req = req ∧ (handle vfs req k).kernel = k := by
  have hfinish : ∀ r, (finish req k r).req = req ∧ (finish req k r).kernel = k := by
    intro r
    simp only [finish]
    split <;> exact ⟨rfl, rfl⟩
  simp only [handle]
  repeat' split
  all_goals first
    | exact hfinish _
    | exact ⟨rfl, rfl⟩

theorem handle_answeredOnce_iff (hup : ¬ (handle vfs req k).gaveUp) :
    (handle vfs req k).AnsweredOnce ↔ (ServedFromVfs vfs req k → 0 < k.addfd) := by
  rw [Handled.gaveUp, handle_req.1, handle_req.2] at hup
  by_cases hserved : ServedFromVfs vfs req k
  · rw [served_answeredOnce_iff hserved]
    exact ⟨fun h _ => h, fun h => h hserved⟩
  · refine iff_of_true ?_ fun h => absurd h hserved
    by_cases hnr : req.nr = sysOpenat
    · have hid : k.idValid = 0 := by
        by_contra hid
        exact hup ⟨hnr, hid⟩
      obtain ⟨hval, hnil, hresp⟩ := openat_of_not_served hnr hid hserved
      simp only [handle, hnr, hid, ne_eq, not_true, if_true, if_false]
      exact finish_answeredOnce hval hnil hresp
    · simp only [handle, if_neg hnr]
      split
      · exact finish_answeredOnce (connect_val _ _ _) rfl (connect_id _ _ _)
      · exact finish_answeredOnce rfl rfl rfl

/-! ## The run -/

theorem mem_startSupervisor {inputs : List (Notif × Kernel)} {h : Handled}
    (hmem : h ∈ startSupervisor vfs inputs) : h = handle vfs h.req h.kernel := by
  induction inputs with
  | nil => cases hmem
  | cons x rest ih =>
    obtain ⟨req, k⟩ := x
    simp only [startSupervisor] at hmem
    split at hmem
    · cases hmem
    · rcases List.mem_cons.mp hmem with rfl | hmem
      · rw [handle_req.1, handle_req.2]
      · split at hmem
        · exact ih hmem
        · cases hmem

/-- The script is read from `/proc/cmdline` and the kernel cannot install the descriptor. -/
def scriptOpened : Notif × Kernel :=
  ({ id := 7, nr := sysOpenat, arg0 := 0xffffff9c, arg1 := 0, arg2 := oCloexec },
    { memory := fun _ => bytes "/proc/cmdline", addfd := -1 })

def scriptVfs : Vfs := [(bytes "/proc/cmdline", bytes "run()")]

end Cmall.Sandbox
