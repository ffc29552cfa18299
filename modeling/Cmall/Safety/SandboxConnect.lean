import Cmall.Sandbox

/-!
The connect policy of the sandbox.

The script chooses the length of the address. The supervisor looks at the first byte without
asking for one, compares twenty bytes of a socket path without asking for them, and of an
IPv6 address it compares the port as the machine reads it. `connect_policy_iff` says for
which addresses none of this matters.
-/

namespace Cmall.Sandbox

/-! ## Addresses -/

/-- The bytes that were copied. -/
def Kernel.address (k : Kernel) (req : Notif) : Bytes :=
  (List.range req.addrlen).map (k.rawSocket req)

/-- `sa_family`: two bytes. -/
def family : Bytes → Option Nat
  | b0 :: b1 :: _ => some (littleEndian b0 b1)
  | _ => none

/-- `sin_port` and `sin6_port`, in network byte order. -/
def port (addr : Bytes) : Nat := ntohs (addr.getD 2 0) (addr.getD 3 0)

def socketPath (addr : Bytes) : Bytes := addr.drop 2

/-- What the policy is for: the buffer is read inside its bounds, the database and multicast
addresses stay out of reach, and only two local sockets may be connected to. -/
structure ConnectPolicy (vfs : Vfs) (req : Notif) (k : Kernel) : Prop where
  inBounds : ∀ i ∈ (connect (k.rawSocket req) req.addrlen req.refused []).2, i < req.addrlen
  inet : LetsContinue vfs req k → family (k.address req) = some 2 →
    port (k.address req) ≠ 5432 ∧ ¬ isMulticastV4 ((k.address req).drop 4)
  inet6 : LetsContinue vfs req k → family (k.address req) = some 10 →
    port (k.address req) ≠ 5432 ∧ ¬ isMulticastV6 ((k.address req).drop 8)
  unix : LetsContinue vfs req k → family (k.address req) = some 1 →
    bytes "/run/systemd/resolve" <+: socketPath (k.address req) ∨
      bytes "/var/run/nscd/socket" <+: socketPath (k.address req)

/-- The address of an IPv6 destination with the port of the database, other than the
destinations that are refused for their address. -/
def ReachesDatabase (addr : Bytes) : Prop :=
  addr.length = 28 ∧ family addr = some 10 ∧ port addr = 5432 ∧
    ¬ isMulticastV6 (addr.drop 8) ∧ ¬ isSiteLocal (addr.drop 8)

/-- The address has a first byte, a local one has the bytes that are compared, and it is not
that of the database over IPv6. -/
def ConnectGuard (addr : Bytes) : Prop :=
  addr ≠ [] ∧ (addr.head? = some afLocal → 22 ≤ addr.length) ∧ ¬ ReachesDatabase addr

/-! ## What is copied -/

variable {vfs : Vfs} {req : Notif} {k : Kernel}

@[simp] theorem length_address (k : Kernel) (req : Notif) :
    (k.address req).length = req.addrlen := by
  simp [Kernel.address]

theorem address_getD (k : Kernel) (req : Notif) {i : Nat} (h : i < req.addrlen) :
    (k.address req).getD i 0 = k.rawSocket req i := by
  simp [Kernel.address, List.getD, h]

theorem address_drop (off : Nat) :
    (k.address req).drop off = (List.range' off (req.addrlen - off)).map (k.rawSocket req) := by
  rw [Kernel.address, ← List.map_drop, List.range_eq_range', List.drop_range']
  simp

/-- A part of the address, read byte by byte. -/
theorem map_range'_prefix (k : Kernel) {off len : Nat} (h : off + len ≤ req.addrlen) :
    (List.range' off len).map (k.rawSocket req) <+: (k.address req).drop off := by
  rw [address_drop]
  apply List.IsPrefix.map
  exact ⟨List.range' (off + len) (req.addrlen - off - len), by
    rw [List.range'_append_1]
    congr 1
    omega⟩

theorem address_drop_getD {off i : Nat} (h : off + i < req.addrlen) :
    ((k.address req).drop off).getD i 0 = k.rawSocket req (off + i) := by
  rw [← address_getD k req h, List.getD, List.getD, List.getElem?_drop]

theorem map_range'_getD {mem : Nat → UInt8} {off len i : Nat} (h : i < len) :
    ((List.range' off len).map mem).getD i 0 = mem (off + i) := by
  simp [List.getD, h]

theorem family_address_iff {c : UInt8} :
    family (k.address req) = some c.toNat ↔
      2 ≤ req.addrlen ∧ k.rawSocket req 0 = c ∧ k.rawSocket req 1 = 0 := by
  have h0 : 0 < req.addrlen → _ := address_getD k req
  have h1 : 1 < req.addrlen → _ := address_getD k req
  have hlen := length_address k req
  rcases haddr : k.address req with _ | ⟨b0, _ | ⟨b1, rest⟩⟩
  · rw [haddr] at hlen
    simp [family] at hlen ⊢
    omega
  · rw [haddr] at hlen
    simp [family] at hlen ⊢
    omega
  · rw [haddr] at hlen h0 h1
    simp only [List.length_cons] at hlen
    rw [← h0 (by omega), ← h1 (by omega)]
    simp only [family, littleEndian, List.getD_cons_zero, List.getD_cons_succ, Option.some.injEq]
    have hb0 := b0.toNat_lt
    have hb1 := b1.toNat_lt
    have hc := c.toNat_lt
    constructor
    · intro h
      exact ⟨by omega, UInt8.toNat_inj.mp (by omega), UInt8.toNat_inj.mp (by simp; omega)⟩
    · rintro ⟨_, rfl, rfl⟩
      simp

theorem port_address (h : 4 ≤ req.addrlen) :
    port (k.address req) = ntohs (k.rawSocket req 2) (k.rawSocket req 3) := by
  rw [port, address_getD k req (by omega), address_getD k req (by omega)]

theorem head_address (h : 0 < req.addrlen) : (k.address req).head? = some (k.rawSocket req 0) := by
  obtain ⟨n, hn⟩ : ∃ n, req.addrlen = n + 1 := ⟨req.addrlen - 1, by omega⟩
  simp [Kernel.address, hn, List.range_succ_eq_map]

/-- The two readings of a port differ on the port of the database. -/
theorem littleEndian_ne_of_ntohs {p0 p1 : UInt8} (h : ntohs p0 p1 = 5432) :
    littleEndian p0 p1 ≠ 5432 := by
  simp only [ntohs, littleEndian] at h ⊢
  have h0 := p0.toNat_lt
  have h1 := p1.toNat_lt
  omega

theorem refused_not_continues : ¬ req.refused.continues := by
  simp [Resp.continues, Notif.refused, flagContinue]

theorem letContinue_continues (resp : Resp) : resp.letContinue.continues := rfl

/-! ## The branches -/

/-- The offsets read for an address: the first byte, twenty bytes of a path, or the fields
of an address of full length. -/
theorem connect_reads_iff :
    (∀ i ∈ (connect (k.rawSocket req) req.addrlen req.refused []).2, i < req.addrlen) ↔
      0 < req.addrlen ∧ (k.rawSocket req 0 = afLocal → 22 ≤ req.addrlen) := by
  have hlocal : afLocal ≠ afUnspec := by decide
  rw [connect_apply]
  constructor
  · intro h
    constructor
    · apply h 0
      repeat' split
      all_goals simp
    · intro hfam
      have h21 : 21 < req.addrlen := by
        apply h 21
        rw [if_neg (hfam ▸ hlocal), if_pos hfam]
        repeat' split
        all_goals simp
      omega
  · rintro ⟨hpos, h22⟩ i
    split
    · intro hi
      rw [List.mem_singleton.mp hi]
      exact hpos
    split
    · next hfam =>
      have := h22 hfam
      repeat' split
      all_goals
        intro hi
        simp at hi
        omega
    split
    · next h =>
      intro hi
      simp at hi
      omega
    split
    · next h =>
      intro hi
      simp at hi
      omega
    · intro hi
      rw [List.mem_singleton.mp hi]
      exact hpos

theorem connect_local (h : k.rawSocket req 0 = afLocal)
    (hc : (connect (k.rawSocket req) req.addrlen req.refused []).1.continues) :
    (List.range' 2 20).map (k.rawSocket req) = bytes "/run/systemd/resolve" ∨
      (List.range' 2 20).map (k.rawSocket req) = bytes "/var/run/nscd/socket" := by
  have hlocal : afLocal ≠ afUnspec := by decide
  rw [connect_apply, if_neg (h ▸ hlocal), if_pos h] at hc
  split at hc
  · next hr => exact .inl hr
  split at hc
  · next hn => exact .inr hn
  · exact absurd hc refused_not_continues

theorem connect_inet_iff (h : k.rawSocket req 0 = afInet) :
    (connect (k.rawSocket req) req.addrlen req.refused []).1.continues ↔
      req.addrlen = 16 ∧ ntohs (k.rawSocket req 2) (k.rawSocket req 3) ≠ 5432 ∧
        ¬ isMulticastV4 ((List.range' 4 4).map (k.rawSocket req)) := by
  have hne : afInet ≠ afUnspec ∧ afInet ≠ afLocal ∧ afInet ≠ afInet6 := by decide
  rw [connect_apply, if_neg (h ▸ hne.1), if_neg (h ▸ hne.2.1)]
  by_cases hlen : req.addrlen = 16
  · rw [if_pos ⟨h, hlen⟩]
    dsimp only
    split
    · next hor => exact iff_of_false refused_not_continues (by tauto)
    · next hor => exact iff_of_true (letContinue_continues _) (by tauto)
  · rw [if_neg (fun hc => hlen hc.2), if_neg (fun hc => hne.2.2 (h ▸ hc.1))]
    exact iff_of_false refused_not_continues (fun hc => hlen hc.1)

theorem connect_inet6_iff (h : k.rawSocket req 0 = afInet6) :
    (connect (k.rawSocket req) req.addrlen req.refused []).1.continues ↔
      req.addrlen = 28 ∧ littleEndian (k.rawSocket req 2) (k.rawSocket req 3) ≠ 5432 ∧
        ¬ isMulticastV6 ((List.range' 8 16).map (k.rawSocket req)) ∧
        ¬ isSiteLocal ((List.range' 8 16).map (k.rawSocket req)) := by
  have hne : afInet6 ≠ afUnspec ∧ afInet6 ≠ afLocal ∧ afInet6 ≠ afInet := by decide
  rw [connect_apply, if_neg (h ▸ hne.1), if_neg (h ▸ hne.2.1),
    if_neg (fun hc => hne.2.2 (h ▸ hc.1))]
  by_cases hlen : req.addrlen = 28
  · rw [if_pos ⟨h, hlen⟩]
    dsimp only
    split
    · next hor => exact iff_of_false refused_not_continues (by tauto)
    · next hor => exact iff_of_true (letContinue_continues _) (by tauto)
  · rw [if_neg (fun hc => hlen hc.2)]
    exact iff_of_false refused_not_continues (fun hc => hlen hc.1)

theorem isMulticastV4_address (h : 16 ≤ req.addrlen) :
    isMulticastV4 ((k.address req).drop 4) =
      isMulticastV4 ((List.range' 4 4).map (k.rawSocket req)) := by
  rw [isMulticastV4, isMulticastV4, address_drop_getD (by omega), map_range'_getD (by omega)]

theorem isMulticastV6_address (h : 24 ≤ req.addrlen) :
    isMulticastV6 ((k.address req).drop 8) =
      isMulticastV6 ((List.range' 8 16).map (k.rawSocket req)) := by
  rw [isMulticastV6, isMulticastV6, address_drop_getD (by omega), map_range'_getD (by omega)]

theorem isSiteLocal_address (h : 24 ≤ req.addrlen) :
    isSiteLocal ((k.address req).drop 8) =
      isSiteLocal ((List.range' 8 16).map (k.rawSocket req)) := by
  rw [isSiteLocal, isSiteLocal, address_drop_getD (by omega), address_drop_getD (by omega),
    map_range'_getD (by omega), map_range'_getD (by omega)]

/-! ## The policy -/

theorem connectGuard_iff :
    ConnectGuard (k.address req) ↔
      (0 < req.addrlen ∧ (k.rawSocket req 0 = afLocal → 22 ≤ req.addrlen)) ∧
        ¬ ReachesDatabase (k.address req) := by
  by_cases hpos : 0 < req.addrlen
  · have hne : k.address req ≠ [] := by
      intro h
      have := length_address k req
      rw [h] at this
      simp at this
      omega
    simp only [ConnectGuard, head_address hpos, Option.some.injEq, length_address, ne_eq, hne,
      not_false_eq_true, true_and, hpos]
  · have h0 : k.address req = [] := by
      rw [← List.length_eq_zero_iff, length_address]
      omega
    simp [ConnectGuard, h0, hpos]

/-- An IPv6 destination is let through with the port of the database just when its address
is not refused. -/
theorem inet6_policy_iff (h : family (k.address req) = some 10) :
    ((connect (k.rawSocket req) req.addrlen req.refused []).1.continues →
      port (k.address req) ≠ 5432 ∧ ¬ isMulticastV6 ((k.address req).drop 8)) ↔
      ¬ ReachesDatabase (k.address req) := by
  obtain ⟨_, h0, _⟩ := (family_address_iff (c := afInet6)).mp h
  rw [connect_inet6_iff h0]
  constructor
  · rintro hp ⟨hlen, _, hport, hmulti, hlocal⟩
    rw [length_address] at hlen
    rw [isMulticastV6_address (by omega)] at hmulti
    rw [isSiteLocal_address (by omega)] at hlocal
    have hport' := hport
    rw [port_address (by omega)] at hport'
    exact (hp ⟨hlen, littleEndian_ne_of_ntohs hport', hmulti, hlocal⟩).1 hport
  · rintro hr ⟨hlen, _, hmulti, hlocal⟩
    rw [← isMulticastV6_address (by omega)] at hmulti
    rw [← isSiteLocal_address (by omega)] at hlocal
    refine ⟨fun hport => hr ⟨?_, h, hport, hmulti, hlocal⟩, hmulti⟩
    rw [length_address, hlen]

/-- The supervisor keeps its connect policy just for the addresses that are long enough for
what it reads and are not that of the database over IPv6. -/
theorem connect_policy_iff (hnr : req.nr = sysConnect) :
    ConnectPolicy vfs req k ↔ ConnectGuard (k.address req) := by
  rw [connectGuard_iff]
  constructor
  · intro h
    refine ⟨connect_reads_iff.mp h.inBounds, fun hr => ?_⟩
    have hinet6 := h.inet6
    rw [letsContinue_connect_iff hnr] at hinet6
    exact (inet6_policy_iff hr.2.1).mp (fun hc => hinet6 hc hr.2.1) hr
  · rintro ⟨hreads, hr⟩
    constructor
    · exact connect_reads_iff.mpr hreads
    · intro hc hfam
      obtain ⟨_, h0, _⟩ := (family_address_iff (c := afInet)).mp hfam
      obtain ⟨hlen, hport, hmulti⟩ := (connect_inet_iff h0).mp ((letsContinue_connect_iff hnr).mp hc)
      rw [port_address (by omega), isMulticastV4_address (by omega)]
      exact ⟨hport, hmulti⟩
    · intro hc hfam
      exact (inet6_policy_iff hfam).mpr hr ((letsContinue_connect_iff hnr).mp hc)
    · intro hc hfam
      obtain ⟨_, h0, _⟩ := (family_address_iff (c := afLocal)).mp hfam
      have hlen := hreads.2 h0
      have hfound := map_range'_prefix k (show 2 + 20 ≤ req.addrlen by omega)
      rcases connect_local h0 ((letsContinue_connect_iff hnr).mp hc) with h | h
      · exact .inl (h ▸ hfound)
      · exact .inr (h ▸ hfound)

/-- A `connect` to the address in the memory of the script. -/
def connects (addr : Bytes) : Notif × Kernel :=
  ({ id := 7, nr := sysConnect, arg0 := 3, arg1 := 0, arg2 := addr.length.toUInt64 },
    { memory := fun _ => addr })

/-- Port 443 of 10.0.0.1. -/
theorem connect_policy_https :
    ConnectPolicy [] (connects [2, 0, 1, 187, 10, 0, 0, 1, 0, 0, 0, 0, 0, 0, 0, 0]).1
      (connects [2, 0, 1, 187, 10, 0, 0, 1, 0, 0, 0, 0, 0, 0, 0, 0]).2 := by
  refine (connect_policy_iff rfl).mpr ⟨by decide, by decide, ?_⟩
  rintro ⟨hlen, _⟩
  revert hlen
  decide

/-- Port 5432 of `::1`. -/
def localDatabase : Notif × Kernel :=
  connects ([10, 0, 21, 56, 0, 0, 0, 0] ++ List.replicate 15 0 ++ [1, 0, 0, 0, 0])

theorem database_is_reached : ¬ ConnectPolicy [] localDatabase.1 localDatabase.2 := by
  intro h
  have hlets : LetsContinue [] localDatabase.1 localDatabase.2 := by
    refine (letsContinue_connect_iff rfl).mpr ?_
    decide
  exact (h.inet6 hlets (by decide)).1 (by decide)

end Cmall.Sandbox
