import Cmall.Wxpay

/-!
The supervisor of the payment scripts: `sandbox.cpp`, `start_supervisor`.

The script runs under seccomp; `openat` and `connect` are reported to the supervisor, which
reads their arguments from the memory of the script and answers each report. What the kernel
answers to the calls made on the way is data of the turn (`Kernel`). The buffer of `connect`
is read through `Reads`, which notes the offsets, since the script chooses its length.
-/

namespace Cmall.Sandbox

/-- The bytes of a text of the source. -/
def bytes (text : String) : Bytes := text.toList.map fun c => c.toNat.toUInt8

/-- `seccomp_notif`. -/
structure Notif where
  id : UInt64
  nr : Int
  arg0 : UInt64
  arg1 : UInt64
  arg2 : UInt64
  deriving DecidableEq, Repr

/-- `seccomp_notif_resp`. -/
structure Resp where
  id : UInt64
  error : Int
  val : Int
  flags : Nat
  deriving DecidableEq, Repr

/-- `seccomp_notif_addfd`. -/
structure Addfd where
  id : UInt64
  srcfd : Int
  newfdFlags : UInt64
  newfd : Int
  flags : Nat
  deriving DecidableEq, Repr

/-- What the kernel answers while one notification is handled. -/
structure Kernel where
  /-- `seccomp_notify_receive` -/
  receive : Int := 0
  /-- `seccomp_notify_id_valid` -/
  idValid : Int := 0
  /-- The readable bytes of the script from an address on. -/
  memory : UInt64 → Bytes := fun _ => []
  /-- What lies in the supervisor behind the buffer of an address. -/
  beyond : Nat → UInt8 := fun _ => 0
  memfdCreate : Int := 3
  write : Int := 0
  /-- `SECCOMP_IOCTL_NOTIF_ADDFD`: the new descriptor of the script, or `-1`. -/
  addfd : Int := 1
  /-- `seccomp_notify_respond` -/
  respond : Int := 0

def Kernel.processVmReadv (k : Kernel) (addr : UInt64) (len : Nat) : Bytes := (k.memory addr).take len

/-- `sandboxVFS`: the files that exist for the script only. -/
abbrev Vfs := List (Bytes × Bytes)

def Vfs.contains (vfs : Vfs) (path : Bytes) : Bool := vfs.any (·.1 == path)

inductive Answer where
  /-- `SECCOMP_ADDFD_FLAG_SEND` was carried out. -/
  | sent (addfd : Addfd)
  /-- `seccomp_notify_respond` -/
  | responded (resp : Resp)
  deriving DecidableEq, Repr

def sysOpenat : Int := 257
def sysConnect : Int := 42
def atFdcwd : Int := -100
def oRdonly : UInt64 := 0
def oCloexec : UInt64 := 0x80000
def eperm : Int := 1
def enoent : Int := 2
/-- `SECCOMP_USER_NOTIF_FLAG_CONTINUE` -/
def flagContinue : Nat := 1
/-- `SECCOMP_ADDFD_FLAG_SEND` -/
def flagSend : Nat := 2

def Resp.letContinue (resp : Resp) : Resp := { resp with error := 0, flags := flagContinue }

def Resp.continues (resp : Resp) : Prop := resp.flags = flagContinue

instance (resp : Resp) : Decidable resp.continues := inferInstanceAs (Decidable (_ = _))

/-- The answer before the call is looked at: refused. -/
def Notif.refused (req : Notif) : Resp := { id := req.id, error := -eperm, val := 0, flags := 0 }

/-! ## openat -/

def Notif.dirfd (req : Notif) : Int := Int.bmod req.arg0.toNat (2 ^ 32)
def Notif.openFlag (req : Notif) : UInt64 := req.arg2

def startsWithAny (path : Bytes) (texts : List String) : Bool :=
  texts.any fun text => (bytes text).isPrefixOf path

/-- What may be opened with `O_RDONLY | O_CLOEXEC`. -/
def cloexecEntries : List String :=
  ["/usr", "/lib", "/etc/ld", "/run", "/etc/resolv.conf", "/etc/localtime", "/etc/ssl",
    "/etc/host.conf", "/etc/hosts", "/sys/fs/cgroup/memory/", "/proc/meminfo",
    "/etc/nsswitch.conf", "/etc/gai.conf", "/dev/"]

/-- What may be opened with `O_RDONLY`. -/
def rdonlyEntries : List String :=
  ["/etc/resolv.conf", "/etc/localtime", "/etc/ssl", "/etc/hosts", "/usr/share",
    "/etc/host.conf", "/etc/nsswitch.conf", "/etc/gai.conf", "/dev/urandom"]

/-- The buffer is zero before the copy, so the text ends with the first zero byte or with
what was copied. -/
def Kernel.nodeWantOpen (k : Kernel) (req : Notif) : Bytes :=
  (k.processVmReadv req.arg1 4096).takeWhile (· != 0)

def openat (vfs : Vfs) (req : Notif) (k : Kernel) (resp : Resp) : Resp × List Answer :=
  let path := k.nodeWantOpen req
  if (req.dirfd = atFdcwd ∧ req.openFlag = oRdonly ||| oCloexec) ∧ startsWithAny path cloexecEntries then
    (resp.letContinue, [])
  else if (req.dirfd = atFdcwd ∧ req.openFlag = oRdonly) ∧ startsWithAny path rdonlyEntries then
    (resp.letContinue, [])
  else if startsWithAny path ["/dev/"] ∧ req.dirfd = atFdcwd then
    (resp.letContinue, [])
  else if startsWithAny path ["/dev/pts/"] ∧ req.dirfd = atFdcwd then
    (resp.letContinue, [])
  else if startsWithAny path ["/run/systemd/"] ∧ req.dirfd = atFdcwd then
    ({ resp with error := enoent, flags := 0 }, [])
  else if req.dirfd = atFdcwd ∧ vfs.contains path then
    let addfd : Addfd :=
      { id := req.id, srcfd := k.memfdCreate,
        newfdFlags := if req.openFlag &&& oCloexec ≠ 0 then oCloexec else 0,
        newfd := 0, flags := flagSend }
    ({ resp with val := k.addfd, error := 0, flags := 0 },
      if 0 ≤ k.addfd then [.sent addfd] else [])
  else
    (resp, [])

/-! ## connect -/

/-- A computation that reads a buffer; the state holds the offsets read. -/
abbrev Reads := StateM (List Nat)

def peek (mem : Nat → UInt8) (i : Nat) : Reads UInt8 := fun log => (mem i, log ++ [i])

def peekBytes (mem : Nat → UInt8) (off len : Nat) : Reads Bytes := fun log =>
  ((List.range' off len).map mem, log ++ List.range' off len)

/-- `memcmp` of the buffer at `off` with a text. -/
def peekText (mem : Nat → UInt8) (off : Nat) (text : String) : Reads Bool := do
  let found ← peekBytes mem off (bytes text).length
  return found == bytes text

def Notif.addrlen (req : Notif) : Nat := req.arg2.toNat % 2 ^ 32

/-- `raw_socket`: what was copied, zeros where the copy fell short, and beyond its end
whatever is there. -/
def Kernel.rawSocket (k : Kernel) (req : Notif) (i : Nat) : UInt8 :=
  if i < req.addrlen then (k.processVmReadv req.arg1 req.addrlen).getD i 0 else k.beyond i

def afUnspec : UInt8 := 0
def afLocal : UInt8 := 1
def afInet : UInt8 := 2
def afInet6 : UInt8 := 10

/-- A 16-bit field as the machine reads it. -/
def littleEndian (lo hi : UInt8) : Nat := lo.toNat + 256 * hi.toNat

/-- `ntohs` of a 16-bit field. -/
def ntohs (first second : UInt8) : Nat := 256 * first.toNat + second.toNat

/-- `address_v4::is_multicast`: the first four bits are `1110`. -/
def isMulticastV4 (addr : Bytes) : Bool := (addr.getD 0 0).toNat / 16 == 14

/-- `address_v6::is_multicast` -/
def isMulticastV6 (addr : Bytes) : Bool := addr.getD 0 0 == 0xff

/-- `address_v6::is_site_local` -/
def isSiteLocal (addr : Bytes) : Bool := addr.getD 0 0 == 0xfe && (addr.getD 1 0).toNat / 64 == 3

def connect (mem : Nat → UInt8) (addrlen : Nat) (resp : Resp) : Reads Resp := do
  let family ← peek mem 0
  if family = afUnspec then
    return resp.letContinue
  else if family = afLocal then
    if ← peekText mem 2 "/run/systemd/resolve" then
      return resp.letContinue
    else if ← peekText mem 2 "/var/run/nscd/socket" then
      return resp.letContinue
    else
      return resp
  else if family = afInet ∧ addrlen = 16 then
    let p0 ← peek mem 2
    let p1 ← peek mem 3
    let destip ← peekBytes mem 4 4
    if ntohs p0 p1 = 5432 then return resp
    else if isMulticastV4 destip then return resp
    else return resp.letContinue
  else if family = afInet6 ∧ addrlen = 28 then
    let p0 ← peek mem 2
    let p1 ← peek mem 3
    let destip ← peekBytes mem 8 16
    let _scope ← peekBytes mem 24 4
    if littleEndian p0 p1 = 5432 then return resp
    else if isMulticastV6 destip then return resp
    else if isSiteLocal destip then return resp
    else return resp.letContinue
  else
    return resp

/-! ## The loop -/

/-- A notification that was received: what was answered, and whether the loop goes on. -/
structure Handled where
  req : Notif
  kernel : Kernel
  answers : List Answer
  running : Bool

/-- The end of a turn: `resp->val` other than 0 means that the descriptor was sent. -/
def finish (req : Notif) (k : Kernel) (r : Resp × List Answer) : Handled :=
  if r.1.val ≠ 0 then
    { req := req, kernel := k, answers := r.2, running := true }
  else
    { req := req, kernel := k, answers := r.2 ++ [.responded r.1], running := k.respond = 0 }

/-- One notification. -/
def handle (vfs : Vfs) (req : Notif) (k : Kernel) : Handled :=
  if req.nr = sysOpenat then
    if k.idValid ≠ 0 then { req := req, kernel := k, answers := [], running := false }
    else finish req k (openat vfs req k req.refused)
  else if req.nr = sysConnect then
    finish req k ((connect (k.rawSocket req) req.addrlen req.refused []).1, [])
  else
    finish req k (req.refused, [])

/-- The answer is that the call goes on in the kernel. -/
def LetsContinue (vfs : Vfs) (req : Notif) (k : Kernel) : Prop :=
  ∃ resp, .responded resp ∈ (handle vfs req k).answers ∧ resp.continues

/-- `start_supervisor` over the notifications and the answers of the kernel, one after the
other; a failed receive and a failed answer end it. -/
def startSupervisor (vfs : Vfs) : List (Notif × Kernel) → List Handled
  | [] => []
  | (req, k) :: rest =>
    if k.receive ≠ 0 then []
    else
      let h := handle vfs req k
      h :: if h.running then startSupervisor vfs rest else []

/-! ## What a turn answers -/

theorem responded_finish_iff (req : Notif) (k : Kernel) {r : Resp × List Answer} (resp : Resp)
    (h : ∀ x, .responded x ∉ r.2) :
    .responded resp ∈ (finish req k r).answers ↔ r.1.val = 0 ∧ resp = r.1 := by
  by_cases hval : r.1.val = 0
  · simp [finish, hval, h]
  · simp [finish, hval, h]

/-- Only the branch of the files that are not on disk sets `val`. -/
theorem openat_continues {vfs : Vfs} {req : Notif} {k : Kernel}
    (h : (openat vfs req k req.refused).1.continues) :
    (openat vfs req k req.refused).1.val = 0 := by
  revert h
  simp only [openat]
  repeat' split
  all_goals simp [Resp.continues, Resp.letContinue, Notif.refused, flagContinue]

theorem openat_not_responded (vfs : Vfs) (req : Notif) (k : Kernel) (resp x : Resp) :
    .responded x ∉ (openat vfs req k resp).2 := by
  simp only [openat]
  repeat' split
  all_goals simp

theorem letsContinue_openat_iff {vfs : Vfs} {req : Notif} {k : Kernel} (hnr : req.nr = sysOpenat) :
    LetsContinue vfs req k ↔ k.idValid = 0 ∧ (openat vfs req k req.refused).1.continues := by
  by_cases hid : k.idValid = 0
  · have hanswers : (handle vfs req k).answers =
        (finish req k (openat vfs req k req.refused)).answers := by
      simp [handle, hnr, hid]
    have hiff := fun resp => responded_finish_iff req k resp (openat_not_responded vfs req k req.refused)
    simp only [LetsContinue, hanswers, hiff, hid, true_and]
    constructor
    · rintro ⟨resp, ⟨_, hresp⟩, h⟩
      exact Eq.subst hresp h
    · intro h
      exact ⟨_, ⟨openat_continues h, rfl⟩, h⟩
  · simp [LetsContinue, handle, hnr, hid]

/-- `connect` with its binds carried out. -/
theorem connect_apply (mem : Nat → UInt8) (addrlen : Nat) (resp : Resp) :
    connect mem addrlen resp [] =
      if mem 0 = afUnspec then (resp.letContinue, [0])
      else if mem 0 = afLocal then
        if (List.range' 2 20).map mem = bytes "/run/systemd/resolve" then
          (resp.letContinue, 0 :: List.range' 2 20)
        else if (List.range' 2 20).map mem = bytes "/var/run/nscd/socket" then
          (resp.letContinue, 0 :: List.range' 2 20 ++ List.range' 2 20)
        else (resp, 0 :: List.range' 2 20 ++ List.range' 2 20)
      else if mem 0 = afInet ∧ addrlen = 16 then
        (if ntohs (mem 2) (mem 3) = 5432 ∨ isMulticastV4 ((List.range' 4 4).map mem) then resp
          else resp.letContinue, [0, 2, 3] ++ List.range' 4 4)
      else if mem 0 = afInet6 ∧ addrlen = 28 then
        (if littleEndian (mem 2) (mem 3) = 5432 ∨ isMulticastV6 ((List.range' 8 16).map mem) ∨
            isSiteLocal ((List.range' 8 16).map mem) then resp
          else resp.letContinue, [0, 2, 3] ++ List.range' 8 16 ++ List.range' 24 4)
      else (resp, [0]) := by
  have hbind : ∀ {α β : Type} (x : Reads α) (f : α → Reads β) (log : List Nat),
      (x >>= f) log = f (x log).1 (x log).2 := fun _ _ _ => rfl
  have hpure : ∀ {α : Type} (a : α) (log : List Nat), (pure a : Reads α) log = (a, log) :=
    fun _ _ => rfl
  have hresolve : (bytes "/run/systemd/resolve").length = 20 := by decide
  have hnscd : (bytes "/var/run/nscd/socket").length = 20 := by decide
  by_cases h0 : mem 0 = afUnspec
  · simp only [connect, hbind, peek, eq_true h0, ↓reduceIte, List.nil_append]
    rfl
  by_cases h1 : mem 0 = afLocal
  · simp only [connect, hbind, hpure, peek, peekText, peekBytes, eq_false h0, eq_true h1,
      ↓reduceIte, hresolve, hnscd, beq_iff_eq, List.nil_append, List.cons_append]
    by_cases hr : (List.range' 2 20).map mem = bytes "/run/systemd/resolve"
    · simp only [eq_true hr, ↓reduceIte, hpure]
    by_cases hn : (List.range' 2 20).map mem = bytes "/var/run/nscd/socket"
    · simp only [eq_false hr, eq_true hn, ↓reduceIte, hbind, hpure, peekBytes, List.cons_append,
        beq_iff_eq]
    · simp only [eq_false hr, eq_false hn, ↓reduceIte, hbind, hpure, peekBytes, List.cons_append,
        beq_iff_eq]
  by_cases h2 : mem 0 = afInet ∧ addrlen = 16
  · simp only [connect, hbind, peek, peekBytes, eq_false h0, eq_false h1, eq_true h2,
      ↓reduceIte, List.nil_append, List.cons_append]
    by_cases hp : ntohs (mem 2) (mem 3) = 5432
    · simp only [eq_true hp, ↓reduceIte, true_or, hpure]
    by_cases hm : isMulticastV4 ((List.range' 4 4).map mem) = true
    · simp only [eq_false hp, eq_true hm, ↓reduceIte, or_true, hpure]
    · simp only [eq_false hp, eq_false hm, ↓reduceIte, or_false, hpure]
  by_cases h3 : mem 0 = afInet6 ∧ addrlen = 28
  · simp only [connect, hbind, peek, peekBytes, eq_false h0, eq_false h1, eq_false h2,
      eq_true h3, ↓reduceIte, List.nil_append, List.cons_append]
    by_cases hp : littleEndian (mem 2) (mem 3) = 5432
    · simp only [eq_true hp, ↓reduceIte, true_or, hpure]
    by_cases hm : isMulticastV6 ((List.range' 8 16).map mem) = true
    · simp only [eq_false hp, eq_true hm, ↓reduceIte, or_true, true_or, hpure]
    by_cases hl : isSiteLocal ((List.range' 8 16).map mem) = true
    · simp only [eq_false hp, eq_false hm, eq_true hl, ↓reduceIte, or_true, hpure]
    · simp only [eq_false hp, eq_false hm, eq_false hl, ↓reduceIte, or_false, hpure]
  · simp only [connect, hbind, hpure, peek, eq_false h0, eq_false h1, eq_false h2, eq_false h3,
      ↓reduceIte, List.nil_append]

theorem connect_val (mem : Nat → UInt8) (addrlen : Nat) (resp : Resp) :
    (connect mem addrlen resp []).1.val = resp.val := by
  rw [connect_apply]
  repeat' split
  all_goals rfl

theorem connect_id (mem : Nat → UInt8) (addrlen : Nat) (resp : Resp) :
    (connect mem addrlen resp []).1.id = resp.id := by
  rw [connect_apply]
  repeat' split
  all_goals rfl

theorem letsContinue_connect_iff {vfs : Vfs} {req : Notif} {k : Kernel}
    (hnr : req.nr = sysConnect) :
    LetsContinue vfs req k ↔
      (connect (k.rawSocket req) req.addrlen req.refused []).1.continues := by
  have hval := connect_val (k.rawSocket req) req.addrlen req.refused
  have hne : sysConnect ≠ sysOpenat := by decide
  simp only [LetsContinue, handle, hnr, if_neg hne, if_true,
    responded_finish_iff (r := (_, [])) _ _ _ (fun _ => List.not_mem_nil)]
  constructor
  · rintro ⟨resp, ⟨_, hresp⟩, h⟩
    rwa [hresp] at h
  · intro h
    exact ⟨_, ⟨hval, rfl⟩, h⟩

end Cmall.Sandbox
