import Cmall.FormUrlencoded
import Cmall.Neteasesdk

/-!
The form of the one-click login.

The body is put together without an encoding. Names, nonce, time and signature need none, so
the receiver reads back what was signed exactly when the identifiers of the shop and both
values of the client need none either.
-/

namespace Cmall.Neteasesdk
open Uri FormUrlencoded

/-- A receiver decodes the body to the parameters, each of them once. -/
def Received (req : Httpc.RequestOptions) (params : Params) : Prop :=
  ∃ body, req.body = some body ∧ (decodeForm body).Perm params

/-! ## The body -/

/-- A parameter as it stands in the body. -/
def pair (p : List Int8 × List Int8) : List Int8 := p.1 ++ ('=' : Int8) :: p.2

theorem pair_ne (p : List Int8 × List Int8) : pair p ≠ [] := by simp [pair]

theorem joined_cons (p : List Int8 × List Int8) (params : Params) :
    joined (p :: params) = pair p ++ params.flatMap fun p => ('&' : Int8) :: pair p := by
  unfold joined
  induction params generalizing p with
  | nil => simp [pair]
  | cons q params ih =>
    have hq := ih q
    rw [List.map_cons] at hq ⊢
    rw [List.map_cons, List.intercalate_cons_cons, hq, List.flatMap_cons]
    simp [pair]

/-- Once something is written, every further parameter follows an `&`. -/
theorem foldl_pair (body : List Int8) (h : body ≠ []) (params : Params) :
    params.foldl (fun body p => (if body ≠ [] then body ++ chars "&" else body) ++ pair p) body =
      body ++ params.flatMap fun p => ('&' : Int8) :: pair p := by
  induction params generalizing body with
  | nil => simp
  | cons p params ih =>
    rw [List.foldl_cons, if_pos h, ih _ (by simp [h]), List.flatMap_cons]
    simp [chars]

theorem bodyOf_eq_joined (params : Params) : bodyOf params = joined params := by
  have hpair : ∀ p : List Int8 × List Int8, p.1 ++ chars "=" ++ p.2 = pair p := by
    simp [chars, pair]
  simp only [bodyOf, hpair]
  cases params with
  | nil => rfl
  | cons p params =>
    rw [joined_cons, List.foldl_cons]
    exact foldl_pair (pair p) (pair_ne p) params

theorem received_iff {req : Httpc.RequestOptions} {params : Params}
    (hbody : req.body = some (bodyOf params)) (hne : params ≠ []) (hnames : PlainNames params) :
    Received req params ↔ ∀ p ∈ params, Plain p.2 := by
  rw [← decodeForm_perm_iff hne hnames, ← bodyOf_eq_joined]
  constructor
  · rintro ⟨body, hbody', hperm⟩
    rw [hbody] at hbody'
    rwa [← Option.some.inj hbody'] at hperm
  · intro hperm
    exact ⟨bodyOf params, hbody, hperm⟩

/-! ## Parameters that need no encoding -/

/-- Letters and digits. -/
def Alnum (str : List Int8) : Prop := ∀ c ∈ str, (isalpha c || isdigit c) = true

instance (str : List Int8) : Decidable (Alnum str) :=
  List.decidableBAll (fun c => (isalpha c || isdigit c) = true) str

theorem Alnum.plain {str : List Int8} (h : Alnum str) : Plain str := by
  have hne : ∀ c : Int8, (isalpha c || isdigit c) = false → c ∉ str := by
    intro c hc hmem
    rw [h c hmem] at hc
    cases hc
  refine ⟨hne _ (by decide), hne _ (by decide), ?_⟩
  rintro ⟨first, second, -, -, hinside⟩
  exact hne '%' (by decide) (hinside.subset List.mem_cons_self)

theorem Alnum.sublist {str str' : List Int8} (h : Alnum str') (hsub : str.Sublist str') :
    Alnum str := fun c hc => h c (hsub.subset hc)

theorem alnum_nonce (nonce : Nonce) : Alnum nonce.text :=
  Alnum.sublist (by decide) nonce.sampled

theorem alnum_repr (n : Nat) : Alnum (chars (Nat.repr n)) := by
  intro c hc
  obtain ⟨d, hd, rfl⟩ := List.mem_map.mp hc
  rw [Nat.toList_repr] at hd
  have hdigit := Nat.isDigit_of_mem_toDigits (by decide) (by decide) hd
  have hvalue : ∀ n < 58, 48 ≤ n → (isalpha (Int8.ofNat n) || isdigit (Int8.ofNat n)) = true := by
    decide
  rw [Char.isDigit_iff_toNat] at hdigit
  exact hvalue d.toNat (Nat.lt_succ_of_le hdigit.2) hdigit.1

theorem alnum_toHex (c : UInt8) : Alnum (toHex c) := by
  have hdigit : ∀ n < 16, (isalpha (hexstring.getD n 0) || isdigit (hexstring.getD n 0)) = true := by
    decide
  have hc : c.toNat < 256 := c.toNat_lt
  intro d hd
  simp only [toHex, List.mem_cons, List.not_mem_nil, or_false] at hd
  rcases hd with rfl | rfl
  · exact hdigit _ (by omega)
  · exact hdigit _ (by omega)

theorem alnum_md5sum (md5 : List Int8 → Vector UInt8 16) (input : List Int8) :
    Alnum (md5sum md5 input) := by
  intro d hd
  rcases List.mem_append.mp hd with hzero | hdigit
  · rw [List.eq_of_mem_replicate hzero]
    rfl
  · obtain ⟨c, -, hc⟩ := List.mem_flatMap.mp hdigit
    exact alnum_toHex c d hc

theorem signed_eq (sdk : Neteasesdk) (md5 : List Int8 → Vector UInt8 16) (nonce : Nonce)
    (ms : UInt64) (token accessToken : List Int8) :
    signed sdk md5 nonce ms token accessToken =
      [(chars "accessToken", accessToken), (chars "businessId", sdk.businessId),
        (chars "nonce", nonce.text), (chars "secretId", sdk.secretId),
        (chars "signature", genSig sdk md5 (unsigned sdk nonce ms token accessToken)),
        (chars "timestamp", chars (Nat.repr ms.toNat)), (chars "token", token),
        (chars "version", chars "v1")] := rfl

theorem plainNames_signed (sdk : Neteasesdk) (md5 : List Int8 → Vector UInt8 16) (nonce : Nonce)
    (ms : UInt64) (token accessToken : List Int8) :
    PlainNames (signed sdk md5 nonce ms token accessToken) := by
  have hnames : (signed sdk md5 nonce ms token accessToken).map Prod.fst =
      ["accessToken", "businessId", "nonce", "secretId", "signature", "timestamp", "token",
        "version"].map chars := rfl
  have halnum : ∀ name ∈ (signed sdk md5 nonce ms token accessToken).map Prod.fst, Alnum name := by
    rw [hnames]
    decide
  refine ⟨fun p hp => (halnum p.1 (List.mem_map_of_mem hp)).plain, fun p hp hmem => ?_, ?_⟩
  · exact absurd (halnum p.1 (List.mem_map_of_mem hp) '=' hmem) (by decide)
  · rw [hnames]
    decide

/-- What was signed is received exactly when the identifiers of the shop and both values of
the client may be written as they are. -/
theorem checkRequest_received_iff (sdk : Neteasesdk) (md5 : List Int8 → Vector UInt8 16)
    (nonce : Nonce) (ms : UInt64) (token accessToken : List Int8) :
    Received (checkRequest sdk md5 nonce ms token accessToken)
        (signed sdk md5 nonce ms token accessToken) ↔
      (Plain token ∧ Plain accessToken) ∧ Plain sdk.secretId ∧ Plain sdk.businessId := by
  have hreceived := @received_iff (checkRequest sdk md5 nonce ms token accessToken) _ rfl
    (by simp [signed_eq]) (plainNames_signed sdk md5 nonce ms token accessToken)
  have hsignature := (alnum_md5sum md5
    ((unsigned sdk nonce ms token accessToken).flatMap (fun p => p.1 ++ p.2) ++ sdk.secretKey)).plain
  have hversion : Plain (chars "v1") := Alnum.plain (by decide)
  rw [hreceived, signed_eq]
  simp only [List.forall_mem_cons, List.not_mem_nil, (alnum_nonce nonce).plain,
    (alnum_repr ms.toNat).plain, genSig, hsignature, hversion]
  tauto

/-- A token with an `&` adds a parameter. -/
theorem checkRequest_adds_parameter :
    let sdk : Neteasesdk := ⟨chars "id", chars "key", chars "shop"⟩
    let md5 : List Int8 → Vector UInt8 16 := fun _ => Vector.replicate 16 0
    let nonce : Nonce := ⟨chartable.take 32, List.take_sublist 32 chartable, rfl⟩
    ¬ Received (checkRequest sdk md5 nonce 0 (chars "t&version=v2") (chars "a"))
      (signed sdk md5 nonce 0 (chars "t&version=v2") (chars "a")) := by
  intro sdk md5 nonce hreceived
  obtain ⟨body, hbody, hperm⟩ := hreceived
  have htext : body = bodyOf (signed sdk md5 nonce 0 (chars "t&version=v2") (chars "a")) :=
    Option.some.inj hbody.symm
  have hlength : (decodeForm body).length = 9 := by
    rw [htext]
    decide +kernel
  exact absurd (hlength.symm.trans hperm.length_eq) (by decide)

end Cmall.Neteasesdk
