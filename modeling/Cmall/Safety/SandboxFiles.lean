import Cmall.Paths
import Cmall.Sandbox

/-!
The file policy of the sandbox.

The supervisor compares the text of the path with the start of each whitelisted entry. The
text is not normalised and an entry may stop inside a name, so the path that is opened need
not lie in the tree the test meant. `file_policy_iff` says which paths do.
-/

namespace Cmall.Sandbox
open Paths

/-! ## Paths -/

/-- The path the script passed: up to its first zero byte, however long. -/
def Kernel.path (k : Kernel) (req : Notif) : Bytes := (k.memory req.arg1).takeWhile (· != 0)

/-- The components of a path: `//` and `.` say nothing. -/
def moves (path : Bytes) : List (Move Bytes) :=
  (path.splitOn 47).filterMap fun name =>
    if name = [] ∨ name = bytes "." then none
    else if name = bytes ".." then some .up
    else some (.down name)

/-- The trees and files of the policy. -/
def trees : List (List Bytes) :=
  [["usr"], ["lib"], ["run"], ["dev"], ["etc", "ssl"], ["etc", "resolv.conf"],
    ["etc", "localtime"], ["etc", "host.conf"], ["etc", "hosts"], ["etc", "nsswitch.conf"],
    ["etc", "gai.conf"], ["sys", "fs", "cgroup", "memory"], ["proc", "meminfo"]].map (·.map bytes)

/-- The normalised path lies in one of the trees, or is one of `/etc/ld*`. -/
def Inside (path : Bytes) : Prop :=
  (∃ tree ∈ trees, tree <+: names (moves path)) ∨
    ∃ name, bytes "ld" <+: name ∧ [bytes "etc", name] <+: names (moves path)

def InDev (path : Bytes) : Prop := [bytes "dev"] <+: names (moves path)

/-- `O_ACCMODE` of the flags is `O_RDONLY`. -/
def ReadOnly (flags : UInt64) : Prop := flags &&& 3 = oRdonly

instance (flags : UInt64) : Decidable (ReadOnly flags) := inferInstanceAs (Decidable (_ = _))

/-- What the policy is for. -/
def FilePolicy (vfs : Vfs) (req : Notif) (k : Kernel) : Prop :=
  LetsContinue vfs req k →
    bytes "/" <+: k.path req ∧ Inside (k.path req) ∧
      (InDev (k.path req) ∨ ReadOnly req.openFlag)

/-! ## The tests -/

/-- The tests of the supervisor that end with `SECCOMP_USER_NOTIF_FLAG_CONTINUE`. -/
def Whitelisted (path : Bytes) (flags : UInt64) : Prop :=
  (flags = oRdonly ||| oCloexec ∧ startsWithAny path cloexecEntries) ∨
    (flags = oRdonly ∧ startsWithAny path rdonlyEntries) ∨ startsWithAny path ["/dev/"]

/-- The path enters one of the trees for good. -/
def EntersInside (path : Bytes) : Prop :=
  (∃ tree ∈ trees, Enters tree (moves path)) ∨
    ∃ name, bytes "ld" <+: name ∧ Enters [bytes "etc", name] (moves path)

theorem inside_iff (path : Bytes) : Inside path ↔ EntersInside path := by
  simp only [Inside, EntersInside, prefix_names_iff]

theorem inDev_iff (path : Bytes) : InDev path ↔ Enters [bytes "dev"] (moves path) :=
  prefix_names_iff _ _

theorem takeWhile_take (mem : Bytes) (n : Nat) :
    (mem.take n).takeWhile (· != 0) = (mem.takeWhile (· != 0)).take n := by
  induction mem generalizing n with
  | nil => simp
  | cons b mem ih =>
    cases n with
    | zero => simp
    | succ n =>
      simp only [List.take_succ_cons, List.takeWhile_cons]
      split
      · rw [ih, List.take_succ_cons]
      · rfl

/-- The copy stops at 4096 bytes, and every entry is shorter than that. -/
theorem startsWithAny_nodeWantOpen (k : Kernel) (req : Notif) (texts : List String)
    (h : ∀ text ∈ texts, (bytes text).length ≤ 4096) :
    startsWithAny (k.nodeWantOpen req) texts = startsWithAny (k.path req) texts := by
  rw [startsWithAny, startsWithAny, Bool.eq_iff_iff, List.any_eq_true, List.any_eq_true]
  refine exists_congr fun text => and_congr_right fun ht => ?_
  rw [List.isPrefixOf_iff_prefix, List.isPrefixOf_iff_prefix, Kernel.nodeWantOpen,
    Kernel.processVmReadv, takeWhile_take, List.prefix_take_iff]
  exact and_iff_left (h text ht)

/-- Every entry is absolute. -/
theorem startsWithAny_absolute {path : Bytes} {texts : List String}
    (h : ∀ text ∈ texts, bytes "/" <+: bytes text) (hp : startsWithAny path texts = true) :
    bytes "/" <+: path := by
  obtain ⟨text, ht, htext⟩ := List.any_eq_true.mp hp
  exact (h text ht).trans (List.isPrefixOf_iff_prefix.mp htext)

theorem Whitelisted.absolute {path : Bytes} {flags : UInt64} (h : Whitelisted path flags) :
    bytes "/" <+: path := by
  rcases h with ⟨_, h⟩ | ⟨_, h⟩ | h
  · exact startsWithAny_absolute (by decide) h
  · exact startsWithAny_absolute (by decide) h
  · exact startsWithAny_absolute (by decide) h

/-- A path under `/dev/pts/` has passed the test for `/dev/`. -/
theorem startsWithAny_dev {path : Bytes} (h : startsWithAny path ["/dev/pts/"] = true) :
    startsWithAny path ["/dev/"] = true := by
  simp only [startsWithAny, List.any_cons, List.any_nil, Bool.or_false,
    List.isPrefixOf_iff_prefix] at h ⊢
  have hdev : bytes "/dev/" <+: bytes "/dev/pts/" := by decide
  exact hdev.trans h

theorem openat_continues_iff (vfs : Vfs) (req : Notif) (k : Kernel) :
    (openat vfs req k req.refused).1.continues ↔
      req.dirfd = atFdcwd ∧ Whitelisted (k.path req) req.openFlag := by
  have hcloexec := startsWithAny_nodeWantOpen k req cloexecEntries (by decide)
  have hrdonly := startsWithAny_nodeWantOpen k req rdonlyEntries (by decide)
  have hdev := startsWithAny_nodeWantOpen k req ["/dev/"] (by decide)
  simp only [openat, Whitelisted, ← hcloexec, ← hrdonly, ← hdev]
  split
  case isTrue h => exact iff_of_true rfl ⟨h.1.1, .inl ⟨h.1.2, h.2⟩⟩
  case isFalse h1 =>
  split
  case isTrue h => exact iff_of_true rfl ⟨h.1.1, .inr (.inl ⟨h.1.2, h.2⟩)⟩
  case isFalse h2 =>
  split
  case isTrue h => exact iff_of_true rfl ⟨h.2, .inr (.inr h.1)⟩
  case isFalse h3 =>
  split
  case isTrue h => exact absurd ⟨startsWithAny_dev h.1, h.2⟩ h3
  -- what is left refuses the call or sends a descriptor
  have hflags : ∀ r : Resp, r.flags = 0 → ¬ r.continues := by
    intro r hr hc
    rw [Resp.continues, hr] at hc
    cases hc
  have hnot : ¬ (req.dirfd = atFdcwd ∧
      (req.openFlag = oRdonly ||| oCloexec ∧ startsWithAny (k.nodeWantOpen req) cloexecEntries = true ∨
        req.openFlag = oRdonly ∧ startsWithAny (k.nodeWantOpen req) rdonlyEntries = true ∨
        startsWithAny (k.nodeWantOpen req) ["/dev/"] = true)) := by
    rintro ⟨hd, ⟨hf, hs⟩ | ⟨hf, hs⟩ | hs⟩
    · exact h1 ⟨⟨hd, hf⟩, hs⟩
    · exact h2 ⟨⟨hd, hf⟩, hs⟩
    · exact h3 ⟨hs, hd⟩
  split
  · exact iff_of_false (hflags _ rfl) hnot
  split
  · exact iff_of_false (hflags _ rfl) hnot
  · exact iff_of_false (hflags _ rfl) hnot

/-! ## The policy -/

/-- A path that the tests let through enters a tree for good, and `/dev` if it is not only
read. -/
def FileGuard (req : Notif) (k : Kernel) : Prop :=
  k.idValid = 0 → req.dirfd = atFdcwd → Whitelisted (k.path req) req.openFlag →
    EntersInside (k.path req) ∧
      (Enters [bytes "dev"] (moves (k.path req)) ∨ ReadOnly req.openFlag)

/-- The supervisor keeps its file policy just for the paths that, where a test lets them
through, enter one of the trees and do not climb out of it again, and enter `/dev` if they
are not opened for reading. -/
theorem file_policy_iff {vfs : Vfs} {req : Notif} {k : Kernel} (hnr : req.nr = sysOpenat) :
    FilePolicy vfs req k ↔ FileGuard req k := by
  simp only [FilePolicy, FileGuard, letsContinue_openat_iff hnr, openat_continues_iff, inside_iff,
    inDev_iff]
  constructor
  · intro h hid hd hw
    exact (h ⟨hid, hd, hw⟩).2
  · rintro h ⟨hid, hd, hw⟩
    exact ⟨hw.absolute, h hid hd hw⟩

/-- An `openat` of a text by a script with nothing else in its memory. -/
def opens (text : String) (flags : UInt64) : Notif × Kernel :=
  ({ id := 7, nr := sysOpenat, arg0 := 0xffffff9c, arg1 := 0, arg2 := flags },
    { memory := fun _ => bytes text })

theorem file_policy_library :
    FilePolicy [] (opens "/usr/lib/../lib/libc.so.6" oCloexec).1
      (opens "/usr/lib/../lib/libc.so.6" oCloexec).2 := by
  refine (file_policy_iff rfl).mpr fun _ _ _ => ?_
  rw [← inside_iff]
  exact ⟨.inl ⟨[bytes "usr"], by decide, by decide⟩, .inr (by decide)⟩

/-- The shadow file, named through `/usr`. -/
theorem shadow_is_opened :
    ¬ FilePolicy [] (opens "/usr/../etc/shadow" oCloexec).1
      (opens "/usr/../etc/shadow" oCloexec).2 := by
  intro h
  have hlets : LetsContinue [] (opens "/usr/../etc/shadow" oCloexec).1
      (opens "/usr/../etc/shadow" oCloexec).2 := by
    refine (letsContinue_openat_iff rfl).mpr ⟨rfl, (openat_continues_iff _ _ _).mpr ⟨by decide, ?_⟩⟩
    exact .inl ⟨by decide, by decide⟩
  have hnames : names (moves ((opens "/usr/../etc/shadow" oCloexec).2.path
      (opens "/usr/../etc/shadow" oCloexec).1)) = [bytes "etc", bytes "shadow"] := by
    decide
  obtain ⟨_, hin, _⟩ := h hlets
  simp only [Inside, hnames] at hin
  rcases hin with ⟨tree, ht, htree⟩ | ⟨name, hld, hname⟩
  · revert tree
    decide
  · simp only [List.cons_prefix_cons, List.nil_prefix, true_and, and_true] at hname
    subst hname
    revert hld
    decide

end Cmall.Sandbox
