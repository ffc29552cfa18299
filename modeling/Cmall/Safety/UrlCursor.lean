import Cmall.UrlCursor

/-!
The loop of `uri::parse` stays inside the URL, and ends.

The pointers that are remembered are not behind the cursor, and a probe that is not empty ends
before it. A pass that does not move the cursor on leaves it in a state that will.
-/

namespace Cmall.Uri.Cursor

/-! ## The invariant -/

/-- The view is a piece of the URL. -/
structure Range.Inside (e : Int) (range : Range) : Prop where
  data : 0 ≤ range.data
  size : 0 ≤ range.size
  last : range.data + range.size ≤ e

/-- The component is what it was before, or it is a piece of the URL. -/
def Set (e : Int) (old new : Range) : Prop := new = old ∨ new.Inside e

structure Parts.Within (e : Int) (uri old : Parts) : Prop where
  scheme : Set e old.scheme_ uri.scheme_
  username : Set e old.username_ uri.username_
  password : Set e old.password_ uri.password_
  host : Set e old.host_ uri.host_
  port : Set e old.port_ uri.port_
  path : Set e old.path_ uri.path_
  query : Set e old.query_ uri.query_
  fragment : Set e old.fragment_ uri.fragment_

/-- The states up to the one that reads the host, if no user is before it. -/
def probing : State → Bool
  | .schemeStart | .scheme | .slashStart | .slash | .probeUserinfoHostname => true
  | _ => false

/-- Nothing that is remembered lies behind `bound`. -/
structure Vars.Bounded (v : Vars) (old : Parts) (e bound : Int) : Prop where
  partStart_nonneg : 0 ≤ v.partStart
  partStart_le : v.partStart ≤ bound
  v6Start : ∀ s ∈ v.v6Start, 0 ≤ s ∧ s ≤ bound
  v6End : ∀ t ∈ v.v6End, t ≤ bound ∧ ∀ s ∈ v.v6Start, s ≤ t
  ended : v.v6End.isSome = true → v.v6Start.isSome = true
  opened : probing v.state = true → v.isIpv6 = true → v.v6Start.isSome = true
  probe : v.probe.Inside e
  probe_le : v.probe.size ≠ 0 → v.behindProbe ≤ bound
  within : v.uri.Within e old
  scheme : v.state = .slashStart → v.uri.scheme_.Inside e

/-- The states from which the cursor may go back. -/
def rewinds : State → Bool
  | .slashStart | .probeUserinfoHostname | .host | .port => true
  | _ => false

/-- The cursor has moved on, or it is where it was in a state that will move it on. -/
def Progress (v w : Vars) : Prop :=
  v.b < w.b ∨ (w.b = v.b ∧ rewinds v.state = true ∧ rewinds w.state = false)

/-- What is kept by a pass that begins with `v`. -/
def Outcome.Keeps (old : Parts) (e : Int) (v : Vars) : Outcome → Prop
  | .next w => w.Bounded old e w.b ∧ w.b ≤ e ∧ Progress v w
  | .returned _ uri => uri.Within e old
  | .outside => False

/-! ## Small steps -/

section Bounded

variable {old uri : Parts} {e bound : Int} {v v₀ : Vars} {range : Range}

theorem Vars.Bounded.mono {bound' : Int} (h : v.Bounded old e bound) (hle : bound ≤ bound') :
    v.Bounded old e bound' :=
  { h with
    partStart_le := by have := h.partStart_le; omega
    v6Start := fun s hs => by have := h.v6Start s hs; omega
    v6End := fun t ht => ⟨by have := (h.v6End t ht).1; omega, (h.v6End t ht).2⟩
    probe_le := fun hne => by have := h.probe_le hne; omega }

/-- Into another state, with another start of its part. -/
theorem Vars.Bounded.goto (h : v.Bounded old e bound) {partStart b : Int} {state : State}
    (hpart : 0 ≤ partStart ∧ partStart ≤ bound)
    (hstate : probing state = true → probing v.state = true) (hscheme : state ≠ .slashStart) :
    ({ v with b := b, partStart := partStart, state := state } : Vars).Bounded old e bound :=
  { h with
    partStart_nonneg := hpart.1
    partStart_le := hpart.2
    opened := fun hs => h.opened (hstate hs)
    scheme := fun hs => absurd hs hscheme }

/-- Into a state behind the host. -/
theorem Vars.Bounded.leave (h : v.Bounded old e bound) {partStart b : Int} {state : State}
    (hpart : 0 ≤ partStart ∧ partStart ≤ bound) (hstate : probing state = false) :
    ({ v with b := b, partStart := partStart, state := state } : Vars).Bounded old e bound := by
  refine h.goto hpart (fun hs => ?_) ?_
  · rw [hstate] at hs
    cases hs
  · rintro rfl
    cases hstate

theorem Vars.Bounded.setUri (h : v.Bounded old e bound) (hstate : v.state ≠ .slashStart)
    (huri : uri.Within e old) : ({ v with uri := uri } : Vars).Bounded old e bound :=
  { h with
    within := huri
    scheme := fun hs => absurd hs hstate }

theorem before_inside (h : v.Bounded old e (v.b - 1)) (hb : v.b ≤ e) : v.before.Inside e := by
  have hnonneg := h.partStart_nonneg
  have hle := h.partStart_le
  constructor <;> simp only [Vars.before] <;> omega

theorem through_inside (h : v.Bounded old e v.b) (hb : v.b ≤ e) : v.through.Inside e := by
  have hnonneg := h.partStart_nonneg
  have hle := h.partStart_le
  constructor <;> simp only [Vars.through] <;> omega

/-- The pass goes on behind the character. -/
theorem keeps_next (h : v.Bounded old e v.b) (hb : v.b ≤ e) (hv₀ : v₀.b < v.b) :
    (Outcome.next v).Keeps old e v₀ := ⟨h, hb, .inl hv₀⟩

/-- The pass goes back before the character. -/
theorem keeps_rewind (h : v.Bounded old e (v.b - 1)) (hb : v.b ≤ e) (hv₀ : v₀.b = v.b - 1)
    (hrewinds : rewinds v₀.state = true) {state : State}
    (hstate : rewinds state = false := by rfl) (hleave : probing state = false := by rfl) :
    (v.rewind state).Keeps old e v₀ := by
  have hnonneg := h.partStart_nonneg
  have hle := h.partStart_le
  have hback := h.leave (b := v.b - 1) ⟨by omega, Int.le_refl _⟩ hleave
  exact ⟨hback, by simp only; omega, .inr ⟨hv₀.symm, hrewinds, hstate⟩⟩

theorem keeps_enter (h : v.Bounded old e (v.b - 1)) (hb : v.b ≤ e) (hv₀ : v₀.b < v.b)
    {state : State} (hleave : probing state = false := by rfl) :
    (v.enter e state).Keeps old e v₀ := by
  have hnonneg := h.partStart_nonneg
  have hle := h.partStart_le
  rw [Vars.enter]
  split
  · exact h.within
  · have hmono : v.Bounded old e v.b := h.mono (by omega)
    exact keeps_next (hmono.leave (b := v.b) ⟨by omega, Int.le_refl _⟩ hleave) hb hv₀

end Bounded

/-! ## The states -/

section States

open Step

variable {old : Parts} {e : Int} {v v₀ : Vars} {c : Int8}

theorem keeps_state (h : v.Bounded old e (v.b - 1)) (hb : v.b ≤ e) (hv₀ : v₀.b < v.b)
    {state : State} (hstate : probing state = true → probing v.state = true)
    (hscheme : state ≠ .slashStart) : (Outcome.next { v with state := state }).Keeps old e v₀ := by
  have hnonneg := h.partStart_nonneg
  have hle := h.partStart_le
  have hmono : v.Bounded old e v.b := h.mono (by omega)
  exact keeps_next (hmono.goto (b := v.b) ⟨by omega, by omega⟩ hstate hscheme) hb hv₀

theorem schemeStart_keeps (h : v.Bounded old e (v.b - 1)) (hb : v.b ≤ e) (hv₀ : v₀.b < v.b)
    (hstate : v.state = .schemeStart) : (schemeStart v c).Keeps old e v₀ := by
  rw [schemeStart]
  split
  · exact keeps_state h hb hv₀ (fun _ => by rw [hstate]; rfl) (by decide)
  · exact h.within

theorem scheme_keeps (h : v.Bounded old e (v.b - 1)) (hb : v.b ≤ e) (hv₀ : v₀.b < v.b)
    (hstate : v.state = .scheme) : (scheme v c).Keeps old e v₀ := by
  have hmono : v.Bounded old e v.b := h.mono (by omega)
  rw [scheme]
  split
  · exact keeps_next hmono hb hv₀
  split
  · have hscheme := before_inside h hb
    have hwithin : ({ v.uri with scheme_ := v.before } : Parts).Within e old :=
      { h.within with scheme := .inr hscheme }
    refine keeps_next ?_ hb hv₀
    exact { hmono with
      opened := fun _ => hmono.opened (by rw [hstate]; rfl)
      within := hwithin
      scheme := fun _ => hscheme }
  · exact h.within

theorem deref_keeps {url : List Int8} {p : Int} {k : Int8 → Outcome} (hp : 0 ≤ p)
    (hlt : p < url.length) (hk : ∀ c, (k c).Keeps old e v₀) : (deref url p k).Keeps old e v₀ := by
  have hindex : p.toNat < url.length := by omega
  rw [deref, if_pos hp, List.getElem?_eq_getElem hindex]
  exact hk _

theorem slashStart_keeps {url : List Int8} (he : e = url.length)
    (h : v.Bounded old e (v.b - 1)) (hb : v.b ≤ e) (hv₀ : v₀.b = v.b - 1)
    (hstate : v.state = .slashStart) (hstate₀ : v₀.state = .slashStart) :
    (slashStart url e v c).Keeps old e v₀ := by
  have hnonneg := h.partStart_nonneg
  have hle := h.partStart_le
  have hscheme := h.scheme hstate
  have hslash : (Outcome.next { v with state := .slash }).Keeps old e v₀ :=
    keeps_state h hb (by omega) (fun _ => by rw [hstate]; rfl) (by decide)
  rw [slashStart]
  split
  · rw [view, if_pos ⟨hscheme.data, hscheme.size, he ▸ hscheme.last⟩]
    split
    next hfile =>
      refine deref_keeps (by omega) (by omega) fun first => ?_
      split
      · refine deref_keeps (by omega) (by omega) fun second => ?_
        split
        · have hmono : v.Bounded old e (v.b + 1) := h.mono (by omega)
          refine keeps_next (hmono.goto ⟨by omega, by omega⟩ (fun _ => by rw [hstate]; rfl)
            (by decide)) (by simp only; omega) (by simp only; omega)
        · exact hslash
      · exact hslash
    next hfile => exact hslash
  · exact keeps_rewind h hb hv₀ (by rw [hstate₀]; rfl)

theorem slash_keeps (h : v.Bounded old e (v.b - 1)) (hb : v.b ≤ e) (hv₀ : v₀.b < v.b)
    (hstate : v.state = .slash) : (slash v c).Keeps old e v₀ := by
  have hnonneg := h.partStart_nonneg
  have hle := h.partStart_le
  have hmono : v.Bounded old e v.b := h.mono (by omega)
  rw [slash]
  split
  · exact keeps_next (hmono.goto (b := v.b) ⟨by omega, Int.le_refl _⟩ (fun _ => by rw [hstate]; rfl)
      (by decide)) hb hv₀
  · exact h.within

theorem urn_keeps (h : v.Bounded old e (v.b - 1)) (hb : v.b ≤ e) (hv₀ : v₀.b < v.b)
    (hstate : v.state = .urn) : (urn e v c).Keeps old e v₀ := by
  have hnonneg := h.partStart_nonneg
  have hle := h.partStart_le
  have hmono : v.Bounded old e v.b := h.mono (by omega)
  rw [urn]
  split
  · exact { h.within with path := .inr (through_inside hmono hb) }
  split
  · have hpath : ({ v.uri with path_ := v.before } : Parts).Within e old :=
      { h.within with path := .inr (before_inside h hb) }
    have huri := hmono.setUri (by rw [hstate]; decide) hpath
    exact keeps_next (huri.leave (b := v.b) ⟨by omega, Int.le_refl _⟩ rfl) hb hv₀
  · exact keeps_next hmono hb hv₀

theorem hostStart_keeps (h : v.Bounded old e (v.b - 1)) (hb : v.b ≤ e) (hv₀ : v₀.b < v.b) :
    (hostStart v c).Keeps old e v₀ := by
  have hnonneg := h.partStart_nonneg
  have hle := h.partStart_le
  have hmono : v.Bounded old e v.b := h.mono (by omega)
  rw [hostStart]
  split
  · split
    · have hleave : ({ v with partStart := v.b, state := .host } : Vars).Bounded old e v.b :=
        hmono.leave ⟨by omega, Int.le_refl _⟩ rfl
      exact keeps_next { hleave with opened := fun hs => nomatch hs } hb hv₀
    · exact keeps_state h hb hv₀ (fun hs => nomatch hs) (by decide)
  · exact h.within

theorem portStart_keeps (h : v.Bounded old e (v.b - 1)) (hb : v.b ≤ e) (hv₀ : v₀.b < v.b) :
    (portStart v c).Keeps old e v₀ := by
  rw [portStart]
  split
  · exact keeps_state h hb hv₀ (fun hs => nomatch hs) (by decide)
  · exact h.within

/-- A component that ends before the character, or behind it. -/
theorem port_keeps (h : v.Bounded old e (v.b - 1)) (hb : v.b ≤ e) (hv₀ : v₀.b = v.b - 1)
    (hstate : v.state = .port) (hstate₀ : v₀.state = .port) : (Step.port e v c).Keeps old e v₀ := by
  have hlt : v₀.b < v.b := by omega
  have hmono : v.Bounded old e v.b := h.mono (by omega)
  have hport : ({ v.uri with port_ := v.before } : Parts).Within e old :=
    { h.within with port := .inr (before_inside h hb) }
  have huri := h.setUri (by rw [hstate]; decide) hport
  rw [Step.port]
  split
  · exact keeps_rewind huri hb hv₀ (by rw [hstate₀]; rfl)
  split
  · exact keeps_enter huri hb hlt
  split
  · exact keeps_enter huri hb hlt
  split
  · exact { h.within with port := .inr (through_inside hmono hb) }
  split
  · exact keeps_next hmono hb hlt
  · exact h.within

theorem path_keeps (h : v.Bounded old e (v.b - 1)) (hb : v.b ≤ e) (hv₀ : v₀.b < v.b)
    (hstate : v.state = .path) : (path e v c).Keeps old e v₀ := by
  have hmono : v.Bounded old e v.b := h.mono (by omega)
  have hpath : ({ v.uri with path_ := v.before } : Parts).Within e old :=
    { h.within with path := .inr (before_inside h hb) }
  have huri := h.setUri (by rw [hstate]; decide) hpath
  rw [path]
  split
  · exact keeps_enter huri hb hv₀
  split
  · exact keeps_enter huri hb hv₀
  split
  · exact { h.within with path := .inr (through_inside hmono hb) }
  split
  · exact keeps_next hmono hb hv₀
  · exact h.within

theorem query_keeps (h : v.Bounded old e (v.b - 1)) (hb : v.b ≤ e) (hv₀ : v₀.b < v.b)
    (hstate : v.state = .query) : (query e v c).Keeps old e v₀ := by
  have hmono : v.Bounded old e v.b := h.mono (by omega)
  have hquery : ({ v.uri with query_ := v.before } : Parts).Within e old :=
    { h.within with query := .inr (before_inside h hb) }
  have huri := h.setUri (by rw [hstate]; decide) hquery
  rw [query]
  split
  · exact keeps_enter huri hb hv₀
  split
  · exact { h.within with query := .inr (through_inside hmono hb) }
  split
  · exact keeps_next hmono hb hv₀
  · exact h.within

theorem fragment_keeps (h : v.Bounded old e (v.b - 1)) (hb : v.b ≤ e) (hv₀ : v₀.b < v.b) :
    (fragment e v c).Keeps old e v₀ := by
  have hmono : v.Bounded old e v.b := h.mono (by omega)
  rw [fragment]
  split
  · exact { h.within with fragment := .inr (through_inside hmono hb) }
  split
  · exact keeps_next hmono hb hv₀
  · exact h.within

theorem afterBracket_keeps {url : List Int8} (he : e = url.length)
    (h : v.Bounded old e (v.b - 1)) (hb : v.b ≤ e) (hv₀ : v₀.b < v.b) :
    (afterBracket url e v).Keeps old e v₀ := by
  have hnonneg := h.partStart_nonneg
  have hle := h.partStart_le
  have hmono : v.Bounded old e v.b := h.mono (by omega)
  have hmore : v.Bounded old e (v.b + 1) := h.mono (by omega)
  rw [afterBracket]
  split
  · exact h.within
  next hend =>
    have hskip (hlt : v.b < e) {state : State} (hstate : probing state = false) :
        (Outcome.next { v with b := v.b + 1, partStart := v.b + 1, state := state }).Keeps old e v₀ :=
      keeps_next (hmore.leave (b := v.b + 1) ⟨by omega, Int.le_refl _⟩ hstate) (by simp only; omega)
        (by simp only; omega)
    refine deref_keeps (by omega) (by omega) fun c => ?_
    split
    · exact hskip (by omega) rfl
    split
    · exact keeps_next (hmono.leave (b := v.b) ⟨by omega, Int.le_refl _⟩ rfl) hb hv₀
    split
    · exact hskip (by omega) rfl
    split
    · exact hskip (by omega) rfl
    · exact h.within

theorem host_keeps {url : List Int8} (he : e = url.length) (h : v.Bounded old e (v.b - 1))
    (hb : v.b ≤ e) (hv₀ : v₀.b = v.b - 1) (hstate : v.state = .host) (hstate₀ : v₀.state = .host) :
    (host url e v c).Keeps old e v₀ := by
  have hlt : v₀.b < v.b := by omega
  have hnonneg := h.partStart_nonneg
  have hle := h.partStart_le
  have hmono : v.Bounded old e v.b := h.mono (by omega)
  have hhost : ({ v.uri with host_ := v.before } : Parts).Within e old :=
    { h.within with host := .inr (before_inside h hb) }
  have huri := h.setUri (by rw [hstate]; decide) hhost
  rw [host]
  split
  · split
    · exact h.within
    split
    · exact hhost
    · exact { h.within with host := .inr (through_inside hmono hb) }
  split
  · exact afterBracket_keeps he huri hb hlt
  split
  · exact h.within
  split
  · have hmonoUri : ({ v with uri := { v.uri with host_ := v.before } } : Vars).Bounded old e v.b :=
      huri.mono (by omega)
    exact keeps_next (hmonoUri.leave (b := v.b) ⟨by omega, Int.le_refl _⟩ rfl) hb hlt
  split
  · exact keeps_rewind huri hb hv₀ (by rw [hstate₀]; rfl)
  split
  · exact keeps_next hmono hb hlt
  split
  · exact keeps_enter huri hb hlt
  split
  · exact keeps_enter huri hb hlt
  · exact h.within

/-! ## The probe -/

theorem bracket_other (v : Vars) {c : Int8} (hopen : c ≠ '[') (hclose : c ≠ ']') :
    bracket v c = v := by
  rw [bracket, if_neg hopen, if_neg hclose]

theorem bracket_b (v : Vars) (c : Int8) : (bracket v c).b = v.b := by
  rw [bracket]
  split
  · split <;> rfl
  split
  · split <;> rfl
  · rfl

theorem inside_default {e : Int} (he : 0 ≤ e) : ({} : Range).Inside e :=
  ⟨Int.le_refl 0, Int.le_refl 0, he⟩

theorem bracket_bounded (h : v.Bounded old e (v.b - 1)) (he : v.b ≤ e) (hb : 1 ≤ v.b) (c : Int8)
    (hstate : v.state = .probeUserinfoHostname) : (bracket v c).Bounded old e v.b := by
  have hmono : v.Bounded old e v.b := h.mono (by omega)
  rw [bracket]
  split
  · split
    · exact { hmono with opened := fun _ hs => nomatch hs }
    next hnone =>
      have hv6End : v.v6End = none := by
        cases hend : v.v6End with
        | none => rfl
        | some t => exact absurd (h.ended (by rw [hend]; rfl)) hnone
      exact { hmono with
        v6Start := fun s hs => by
          obtain rfl := Option.some.inj hs
          omega
        v6End := fun t ht => by
          rw [Option.mem_def, hv6End] at ht
          cases ht
        ended := fun _ => rfl
        opened := fun _ _ => rfl }
  split
  · split
    next hfirst =>
      have hopened := h.opened (by rw [hstate]; rfl) hfirst.1
      refine { hmono with
        v6End := fun t ht => ?_
        ended := fun _ => hopened
        probe := ?_
        probe_le := ?_ }
      · obtain rfl := Option.some.inj ht
        exact ⟨by omega, fun s hs => (h.v6Start s hs).2⟩
      · dsimp only
        split
        · exact inside_default (by omega)
        · exact h.probe
      · dsimp only
        intro hne
        split at hne
        · exact absurd rfl hne
        next hempty => exact absurd hne hempty
    · exact { hmono with opened := fun _ hs => nomatch hs }
  · exact hmono

/-- The host and the port are pieces of the URL. -/
theorem hostPort_within {stop : Int} {uri : Parts} (h : v.Bounded old e v.b) (hb : v.b ≤ e)
    (hstop : stop ≤ e) (hpart : v.partStart ≤ stop)
    (hprobe : v.probe.size ≠ 0 → v.behindProbe ≤ stop) (huri : hostPort v stop = some uri) :
    uri.Within e old := by
  have hnonneg := h.partStart_nonneg
  have hdata := h.probe.data
  have hsize := h.probe.size
  have hport (hne : v.probe.size ≠ 0) :
      (⟨v.behindProbe, stop - v.behindProbe⟩ : Range).Inside e := by
    have hle := hprobe hne
    constructor <;> simp only [Vars.behindProbe] at hle ⊢ <;> omega
  have hwithin := h.within
  rw [hostPort] at huri
  split at huri
  · cases hs : v.v6Start with
    | none => simp [hs] at huri
    | some s =>
      cases ht : v.v6End with
      | none => simp [hs, ht] at huri
      | some t =>
        have hfirst := h.v6Start s hs
        have hlast := h.v6End t ht
        have hst := hlast.2 s hs
        have hhost : (⟨s, t - s⟩ : Range).Inside e := by
          constructor <;> simp only <;> omega
        simp only [hs, ht] at huri
        split at huri
        · cases huri
        split at huri
        next hne =>
          obtain rfl := Option.some.inj huri
          exact { hwithin with host := .inr hhost, port := .inr (hport hne) }
        next hempty =>
          obtain rfl := Option.some.inj huri
          exact { hwithin with host := .inr hhost }
  split at huri
  · cases huri
  split at huri
  next hne =>
    obtain rfl := Option.some.inj huri
    exact { hwithin with host := .inr h.probe, port := .inr (hport hne) }
  next hempty =>
    obtain rfl := Option.some.inj huri
    have hhost : (⟨v.partStart, stop - v.partStart⟩ : Range).Inside e := by
      constructor <;> simp only <;> omega
    exact { hwithin with host := .inr hhost }

theorem userinfo_within (h : v.Bounded old e (v.b - 1)) (hb : v.b ≤ e) :
    (userinfo v).Within e old := by
  have hnonneg := h.partStart_nonneg
  have hle := h.partStart_le
  have hwithin := h.within
  rw [userinfo]
  split
  next hne =>
    have hdata := h.probe.data
    have hsize := h.probe.size
    have hprobe := h.probe_le hne
    have hpassword : (⟨v.behindProbe, v.b - v.behindProbe - 1⟩ : Range).Inside e := by
      constructor <;> simp only [Vars.behindProbe] at hprobe ⊢ <;> omega
    exact { hwithin with username := .inr h.probe, password := .inr hpassword }
  next hempty => exact { hwithin with username := .inr (before_inside h hb) }

/-- The user or the host before a colon. -/
theorem colon_bounded (h : v.Bounded old e (v.b - 1)) (hb : v.b ≤ e) :
    ({ v with probe := if v.probe.size = 0 then v.before else v.probe } : Vars).Bounded old e v.b := by
  have hmono : v.Bounded old e v.b := h.mono (by omega)
  by_cases hempty : v.probe.size = 0
  · rw [if_pos hempty]
    refine { hmono with probe := before_inside h hb, probe_le := fun _ => ?_ }
    simp only [Vars.behindProbe, Vars.before]
    omega
  · rw [if_neg hempty]
    exact hmono

theorem probeUserinfoHostname_keeps (h : v.Bounded old e (v.b - 1)) (hb : v.b ≤ e)
    (hv₀ : v₀.b = v.b - 1) (hstate : v.state = .probeUserinfoHostname)
    (hstate₀ : v₀.state = .probeUserinfoHostname) :
    (probeUserinfoHostname e v c).Keeps old e v₀ := by
  have hnonneg := h.partStart_nonneg
  have hle := h.partStart_le
  have hlt : v₀.b < v.b := by omega
  have hmono : v.Bounded old e v.b := h.mono (by omega)
  have hrewinds : rewinds v₀.state = true := by rw [hstate₀]; rfl
  rw [probeUserinfoHostname]
  dsimp only
  split
  next hat =>
    subst hat
    rw [bracket_other v (by decide) (by decide)]
    have huri := hmono.setUri (by rw [hstate]; decide) (userinfo_within h hb)
    have hleave : ({ v with uri := userinfo v, partStart := v.b, state := .hostStart } : Vars).Bounded
        old e v.b := huri.leave ⟨by omega, Int.le_refl _⟩ rfl
    exact keeps_next { hleave with opened := fun hs => nomatch hs } hb hlt
  split
  next hcolon =>
    subst hcolon
    rw [bracket_other v (by decide) (by decide)]
    exact keeps_next (colon_bounded h hb) hb hlt
  split
  next hstop =>
    have hother : bracket v c = v := by
      rcases hstop with rfl | rfl | rfl <;> exact bracket_other v (by decide) (by decide)
    rw [hother]
    cases hhost : hostPort v (v.b - 1) with
    | none => exact h.within
    | some uri =>
      have huri := h.setUri (by rw [hstate]; decide)
        (hostPort_within hmono hb (by omega) h.partStart_le h.probe_le hhost)
      dsimp only
      split
      · exact keeps_rewind huri hb hv₀ hrewinds
      split
      · exact keeps_enter huri hb hlt
      · exact keeps_enter huri hb hlt
  have hw := bracket_bounded h hb (by omega) c hstate
  have hwb := bracket_b v c
  rw [← hwb] at hw hb hlt
  split
  · cases hhost : hostPort (bracket v c) (bracket v c).b with
    | none => exact hw.within
    | some uri => exact hostPort_within hw hb hb hw.partStart_le hw.probe_le hhost
  split
  · refine keeps_next { hw with opened := fun hs hipv6 => hw.opened hs ?_ } hb hlt
    exact (Bool.and_eq_true _ _ ▸ hipv6).1
  · exact hw.within

end States

/-! ## The loop -/

section Loop

variable {old : Parts} {url : List Int8} {v : Vars}

theorem dispatch_keeps {w : Vars} (c : Int8) (h : w.Bounded old url.length (w.b - 1))
    (hb : w.b ≤ url.length) (hv : v.b = w.b - 1) (hstate : v.state = w.state) :
    (dispatch url w c).Keeps old url.length v := by
  have hlt : v.b < w.b := by omega
  rw [dispatch]
  split
  next hs => exact schemeStart_keeps h hb hlt hs
  next hs => exact scheme_keeps h hb hlt hs
  next hs => exact slashStart_keeps rfl h hb hv hs (hstate.trans hs)
  next hs => exact slash_keeps h hb hlt hs
  next hs => exact urn_keeps h hb hlt hs
  next hs => exact probeUserinfoHostname_keeps h hb hv hs (hstate.trans hs)
  next hs => exact hostStart_keeps h hb hlt
  next hs => exact host_keeps rfl h hb hv hs (hstate.trans hs)
  next hs => exact portStart_keeps h hb hlt
  next hs => exact port_keeps h hb hv hs (hstate.trans hs)
  next hs => exact path_keeps h hb hlt hs
  next hs => exact query_keeps h hb hlt hs
  next hs => exact fragment_keeps h hb hlt

theorem pass_keeps (h : v.Bounded old url.length v.b) (hb : v.b ≤ url.length) :
    (pass url v).Keeps old url.length v := by
  have hnonneg := h.partStart_nonneg
  have hle := h.partStart_le
  rw [pass]
  split
  · exact h.within
  · refine deref_keeps (by omega) (by omega) fun c => dispatch_keeps c ?_ ?_ ?_ rfl
    · have hread : v.b + 1 - 1 = v.b := by omega
      simp only [hread]
      exact { h with }
    · simp only
      omega
    · simp only
      omega

/-- How many passes are left at most. -/
def left (e : Int) (v : Vars) : Nat := (2 * (e - v.b)).toNat + (if rewinds v.state then 1 else 0)

theorem left_of_progress {e : Int} {v w : Vars} (h : Progress v w) (hw : w.b ≤ e) :
    left e w < left e v := by
  simp only [left]
  rcases h with hlt | ⟨hb, hv, hw'⟩
  · split <;> split <;> omega
  · rw [hb, hv, hw']
    simp

theorem start_bounded (uri : Parts) (url : List Int8) :
    (start uri).Bounded uri url.length (start uri).b where
  partStart_nonneg := Int.le_refl 0
  partStart_le := Int.le_refl 0
  v6Start := fun _ hs => nomatch hs
  v6End := fun _ ht => nomatch ht
  ended := fun ht => nomatch ht
  opened := fun _ hs => nomatch hs
  probe := inside_default (by omega)
  probe_le := fun hne => absurd rfl hne
  within := ⟨.inl rfl, .inl rfl, .inl rfl, .inl rfl, .inl rfl, .inl rfl, .inl rfl, .inl rfl⟩
  scheme := fun hs => nomatch hs

/-- What holds wherever the loop is. -/
def Outcome.Stays (old : Parts) (e : Int) : Outcome → Prop
  | .next v => v.Bounded old e v.b ∧ v.b ≤ e
  | .returned _ uri => uri.Within e old
  | .outside => False

theorem run_stays (h : v.Bounded old url.length v.b) (hb : v.b ≤ url.length) (n : Nat) :
    (run url n v).Stays old url.length := by
  induction n generalizing v with
  | zero => exact ⟨h, hb⟩
  | succ n ih =>
    have hpass := pass_keeps h hb
    rw [run]
    cases hnext : pass url v with
    | next w =>
      rw [hnext] at hpass
      exact ih hpass.1 hpass.2.1
    | returned result uri =>
      rw [hnext] at hpass
      exact hpass
    | outside =>
      rw [hnext] at hpass
      exact hpass.elim

/-- The loop is left after as many passes as are left. -/
theorem run_returns (h : v.Bounded old url.length v.b) (hb : v.b ≤ url.length) {n : Nat}
    (hn : left url.length v < n) : ∃ result uri, run url n v = .returned result uri := by
  induction n generalizing v with
  | zero => exact absurd hn (Nat.not_lt_zero _)
  | succ n ih =>
    have hpass := pass_keeps h hb
    rw [run]
    cases hnext : pass url v with
    | next w =>
      rw [hnext] at hpass
      obtain ⟨hw, hwb, hprogress⟩ := hpass
      have hleft := left_of_progress hprogress hwb
      exact ih hw hwb (by omega)
    | returned result uri => exact ⟨result, uri, rfl⟩
    | outside =>
      rw [hnext] at hpass
      exact hpass.elim

end Loop

/-- The cursor, the probe and the components are in the URL. -/
def Outcome.Safe (old : Parts) (e : Int) : Outcome → Prop
  | .next v => 0 ≤ v.b ∧ v.b ≤ e ∧ v.probe.Inside e ∧ v.uri.Within e old
  | .returned _ uri => uri.Within e old
  | .outside => False

/-- Wherever the loop is, it has read nothing but the URL, and every view that was set is a piece
of it. Every pass makes progress, and the loop is left after a number of passes that is linear in
the length. -/
theorem parse_safe (uri : Parts) (url : List Int8) :
    (∀ n, (run url n (start uri)).Safe uri url.length) ∧
      (∀ n v w, run url n (start uri) = .next v → pass url v = .next w → Progress v w) ∧
        ∃ result parts, run url (2 * url.length + 1) (start uri) = .returned result parts := by
  have hstart := start_bounded uri url
  have hb : (start uri).b ≤ url.length := Int.natCast_nonneg _
  have hstays := run_stays hstart hb
  refine ⟨fun n => ?_, fun n v w hrun hnext => ?_, run_returns hstart hb ?_⟩
  · have hn := hstays n
    cases hrun : run url n (start uri) with
    | next v =>
      rw [hrun] at hn
      have hnonneg := hn.1.partStart_nonneg
      have hle := hn.1.partStart_le
      exact ⟨by omega, hn.2, hn.1.probe, hn.1.within⟩
    | returned result parts =>
      rw [hrun] at hn
      exact hn
    | outside =>
      rw [hrun] at hn
      exact hn
  · have hn := hstays n
    rw [hrun] at hn
    have hpass := pass_keeps hn.1 hn.2
    rw [hnext] at hpass
    exact hpass.2.2
  · simp [left, start, rewinds]

end Cmall.Uri.Cursor
