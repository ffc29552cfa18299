import Cmall.WxpayConfig
import Mathlib.Data.List.Perm.Basic

/-!
The WeChat configuration stays usable.

The `DELETE` of a transaction does not see the rows of another one that has not committed
yet, and the table has no unique key on the names: two overlapping requests leave fourteen
rows, and `load_configs` wants seven. When no request erases while another one is between
its `DELETE` and its commit, the seven rows are those of the last commit.
-/

namespace Cmall.WxpayConfig
open Transition

/-! ## What is to hold -/

/-- The parameters of the requests so far. -/
def State.asked (s : State) : List JsonObject := s.requests.map (·.params)

/-- Every name has one row, all with the values of one request, and `load_configs` finds
seven of them in whatever order the rows come and configures the service with them. -/
structure UsableFor (s : State) (cfg : PayCfg) : Prop where
  oneRow : ∀ x ∈ newConfigs cfg,
    ∃ id, s.rows.filter (fun row => row.configName = x.1) = [⟨id, x.1, x.2⟩]
  complete : ∀ config rows, rows.Perm s.rows → (loadRows config rows).complete = 7
  configured : ∀ config services rows, rows.Perm s.rows →
    (loadConfigs config services rows).2 cfg.appid = some cfg

def Usable (s : State) : Prop := ∃ params ∈ s.asked, UsableFor s (wxpayDetail params)

def Phase.isErased : Phase → Bool
  | .erased _ _ => true
  | _ => false

/-- No request is between its `DELETE` and its commit when another one erases. -/
def NoOverlap (s : State) : Step → Prop
  | .erase _ => ∀ r ∈ s.requests, r.phase.isErased = false
  | _ => True

/-! ## Seven rows -/

theorem persist_isWxpay (seq : Nat) (cfg : PayCfg) :
    ∀ row ∈ persist seq (newConfigs cfg), row.isWxpay = true := by
  simp [persist, newConfigs, CmallConfig.isWxpay, wxpayNames]

theorem mem_wxpayNames {cfg : PayCfg} {x : String × String} (h : x ∈ newConfigs cfg) :
    x.1 ∈ wxpayNames := by
  simp only [newConfigs, List.mem_cons, List.not_mem_nil, or_false] at h
  rcases h with rfl | rfl | rfl | rfl | rfl | rfl | rfl <;> simp [wxpayNames]

/-- The names are different. -/
theorem persist_filter_name (seq : Nat) {cfg : PayCfg} {x : String × String}
    (h : x ∈ newConfigs cfg) :
    ∃ id, (persist seq (newConfigs cfg)).filter (fun row => row.configName = x.1) =
      [⟨id, x.1, x.2⟩] := by
  simp only [newConfigs, List.mem_cons, List.not_mem_nil, or_false] at h
  rcases h with rfl | rfl | rfl | rfl | rfl | rfl | rfl <;> simp [persist, newConfigs]

/-- Rows of one name are among the rows the query finds. -/
theorem filter_name {rows : List CmallConfig} {name : String} (h : name ∈ wxpayNames) :
    rows.filter (fun row => row.configName = name) =
      (rows.filter CmallConfig.isWxpay).filter (fun row => row.configName = name) := by
  rw [List.filter_filter]
  apply List.filter_congr
  intro row _
  by_cases hn : row.configName = name
  · simp [hn, CmallConfig.isWxpay, h]
  · simp [hn]

/-! ## load_configs -/

theorem service_item_none {config : ServiceConfig} {row : CmallConfig}
    (h : row.configName ∈ wxpayNames) : config.item row = none := by
  simp only [wxpayNames, List.mem_cons, List.not_mem_nil, or_false] at h
  rcases h with h | h | h | h | h | h | h <;> simp [ServiceConfig.item, h]

theorem pay_item_none_iff {cfg : PayCfg} {row : CmallConfig} :
    cfg.item row = none ↔ row.configName ∉ wxpayNames := by
  simp only [PayCfg.item, wxpayNames, List.mem_cons, List.not_mem_nil, or_false, not_or]
  repeat' split
  all_goals simp [*]

/-- What a row does: one of the seven names counts and changes the payment service. -/
theorem item_of_mem {l : Loading} {row : CmallConfig} (h : row.configName ∈ wxpayNames) :
    ∃ cfg, l.cfg.item row = some cfg ∧
      l.item row = { l with cfg := cfg, complete := l.complete + 1 } := by
  obtain ⟨cfg, hcfg⟩ : ∃ cfg, l.cfg.item row = some cfg := by
    rw [← Option.ne_none_iff_exists', ne_eq, pay_item_none_iff, not_not]
    exact h
  refine ⟨cfg, hcfg, ?_⟩
  simp only [Loading.item, service_item_none h, hcfg]

theorem item_of_notMem {l : Loading} {row : CmallConfig} (h : row.configName ∉ wxpayNames) :
    (l.item row).cfg = l.cfg ∧ (l.item row).complete = l.complete := by
  simp only [Loading.item, pay_item_none_iff.mpr h]
  split <;> exact ⟨rfl, rfl⟩

theorem foldl_complete (rows : List CmallConfig) (l : Loading) :
    (rows.foldl Loading.item l).complete =
      l.complete + (rows.filter CmallConfig.isWxpay).length := by
  induction rows generalizing l with
  | nil => rfl
  | cons row rows ih =>
    rw [List.foldl_cons, ih]
    by_cases h : row.configName ∈ wxpayNames
    · obtain ⟨cfg, _, hitem⟩ := item_of_mem (l := l) h
      simp [hitem, CmallConfig.isWxpay, h]
      omega
    · simp [(item_of_notMem (l := l) h).2, CmallConfig.isWxpay, h]

/-- `get` is the field that the rows of the name set. -/
structure SetBy (get : PayCfg → String) (name : String) : Prop where
  mem : name ∈ wxpayNames
  set : ∀ cfg cfg' row, PayCfg.item cfg row = some cfg' → row.configName = name →
    get cfg' = row.configValue
  keep : ∀ cfg cfg' row, PayCfg.item cfg row = some cfg' → row.configName ≠ name →
    get cfg' = get cfg

theorem setBy_fields :
    SetBy PayCfg.appid "wxpay_appid" ∧ SetBy PayCfg.rsaKey "wxpay_rsa_key" ∧
      SetBy PayCfg.rsaCert "wxpay_rsa_cert" ∧ SetBy PayCfg.apiv3Key "wxpay_apiv3_key" ∧
      SetBy PayCfg.mchid "wxpay_mchid" ∧ SetBy PayCfg.appSecret "wxpay_appSecret" ∧
      SetBy PayCfg.notifyUrl "wxpay_notify_url" := by
  refine ⟨?_, ?_, ?_, ?_, ?_, ?_, ?_⟩
  all_goals
    refine ⟨by simp [wxpayNames], fun cfg cfg' row h hn => ?_, fun cfg cfg' row h hn => ?_⟩
    · simp only [PayCfg.item, hn] at h
      simp at h
      rw [← h]
    · simp only [PayCfg.item] at h
      repeat' split at h
      all_goals first
        | (cases h; rfl)
        | (rename_i hname; exact absurd hname hn)
        | cases h

/-- A field holds the value of the only row of its name. -/
theorem foldl_field {get : PayCfg → String} {name value : String} {rows : List CmallConfig}
    {id : Nat} (hget : SetBy get name) (l : Loading)
    (hrow : rows.filter (fun row => row.configName = name) = [⟨id, name, value⟩]) :
    get (rows.foldl Loading.item l).cfg = value := by
  have hkeep : ∀ (l : Loading) (row : CmallConfig), row.configName ≠ name →
      get (l.item row).cfg = get l.cfg := by
    intro l row hn
    by_cases h : row.configName ∈ wxpayNames
    · obtain ⟨cfg, hcfg, hitem⟩ := item_of_mem (l := l) h
      rw [hitem]
      exact hget.keep _ _ _ hcfg hn
    · rw [(item_of_notMem h).1]
  have hrest : ∀ (rows : List CmallConfig) (l : Loading),
      rows.filter (fun row => row.configName = name) = [] →
        get (rows.foldl Loading.item l).cfg = get l.cfg := by
    intro rows
    induction rows with
    | nil => intro l _; rfl
    | cons row rows ih =>
      intro l hnil
      by_cases hn : row.configName = name
      · simp [hn] at hnil
      · rw [List.filter_cons_of_neg (by simpa using hn)] at hnil
        rw [List.foldl_cons, ih _ hnil, hkeep l row hn]
  induction rows generalizing l with
  | nil => cases hrow
  | cons row rows ih =>
    by_cases hn : row.configName = name
    · rw [List.filter_cons_of_pos (by simpa using hn)] at hrow
      simp only [List.cons.injEq] at hrow
      obtain ⟨cfg, hcfg, hitem⟩ := item_of_mem (l := l) (hn ▸ hget.mem)
      rw [List.foldl_cons, hrest rows _ hrow.2, hitem, hget.set _ _ _ hcfg hn, hrow.1]
    · rw [List.filter_cons_of_neg (by simpa using hn)] at hrow
      rw [List.foldl_cons]
      exact ih (l.item row) hrow

/-- The seven rows of one request decide what is loaded, whatever the order. -/
theorem loadRows_of_rows {rows : List CmallConfig} {seq : Nat} {cfg : PayCfg}
    (hseven : (rows.filter CmallConfig.isWxpay).Perm (persist seq (newConfigs cfg)))
    (config : ServiceConfig) :
    (loadRows config rows).complete = 7 ∧ (loadRows config rows).cfg = cfg := by
  have hname : ∀ x ∈ newConfigs cfg,
      ∃ id, rows.filter (fun row => row.configName = x.1) = [⟨id, x.1, x.2⟩] := by
    intro x hx
    obtain ⟨id, hid⟩ := persist_filter_name seq hx
    refine ⟨id, ?_⟩
    rw [filter_name (mem_wxpayNames hx)]
    exact List.perm_singleton.mp (hid ▸ hseven.filter _)
  have hfield : ∀ (get : PayCfg → String) (x : String × String), x ∈ newConfigs cfg →
      SetBy get x.1 → get (loadRows config rows).cfg = x.2 := by
    intro get x hx hget
    obtain ⟨id, hid⟩ := hname x hx
    exact foldl_field hget _ hid
  constructor
  · rw [loadRows, foldl_complete, hseven.length_eq]
    rfl
  · obtain ⟨happid, hkey, hcert, hv3, hmch, hsecret, hurl⟩ := setBy_fields
    have h1 := hfield _ ("wxpay_appid", cfg.appid) (by simp [newConfigs]) happid
    have h2 := hfield _ ("wxpay_rsa_key", cfg.rsaKey) (by simp [newConfigs]) hkey
    have h3 := hfield _ ("wxpay_rsa_cert", cfg.rsaCert) (by simp [newConfigs]) hcert
    have h4 := hfield _ ("wxpay_apiv3_key", cfg.apiv3Key) (by simp [newConfigs]) hv3
    have h5 := hfield _ ("wxpay_mchid", cfg.mchid) (by simp [newConfigs]) hmch
    have h6 := hfield _ ("wxpay_appSecret", cfg.appSecret) (by simp [newConfigs]) hsecret
    have h7 := hfield _ ("wxpay_notify_url", cfg.notifyUrl) (by simp [newConfigs]) hurl
    generalize (loadRows config rows).cfg = loaded at *
    cases loaded
    cases cfg
    simp_all

/-! ## Runs -/

/-- Between its `DELETE` and its commit a request is alone and has chosen all rows there
are; after the first commit the rows are those of one request. -/
structure Inv (s : State) : Prop where
  alone : ∀ (i j : Nat) (a b : Request), s.requests[i]? = some a → s.requests[j]? = some b →
    a.phase.isErased = true → b.phase.isErased = true → i = j
  chosen : ∀ r ∈ s.requests, ∀ count victims, r.phase = .erased count victims →
    ∀ row ∈ s.rows, row.isWxpay = true → row.id ∈ victims
  rows : (∃ r ∈ s.requests, r.phase = .replied) →
    ∃ params ∈ s.asked, ∃ seq, s.rows.filter CmallConfig.isWxpay =
      persist seq (newConfigs (wxpayDetail params))

theorem usable_of_rows {s : State} {params : JsonObject} {seq : Nat} (hp : params ∈ s.asked)
    (hrows : s.rows.filter CmallConfig.isWxpay = persist seq (newConfigs (wxpayDetail params))) :
    Usable s := by
  have hload : ∀ config rows, rows.Perm s.rows →
      (loadRows config rows).complete = 7 ∧ (loadRows config rows).cfg = wxpayDetail params := by
    intro config rows hperm
    exact loadRows_of_rows (hrows ▸ hperm.filter _) config
  refine ⟨params, hp, fun x hx => ?_, fun config rows hperm => (hload config rows hperm).1,
    fun config services rows hperm => ?_⟩
  · rw [filter_name (mem_wxpayNames hx), hrows]
    exact persist_filter_name seq hx
  · obtain ⟨hcomplete, hcfg⟩ := hload config rows hperm
    simp [loadConfigs, hcomplete, hcfg]

section Steps

variable {s : State} {n : Nat} {r : Request} {phase : Phase}

theorem asked_set (hn : s.requests[n]? = some r) (phase : Phase) :
    (s.setPhase n r phase).asked = s.asked := by
  obtain ⟨hlt, hget⟩ := List.getElem?_eq_some_iff.mp hn
  rw [State.asked, State.asked, State.setPhase, List.map_set]
  apply List.ext_getElem?
  intro i
  by_cases hi : n = i
  · subst hi
    rw [List.getElem?_set_self (by simpa using hlt), List.getElem?_map, hn]
    rfl
  · rw [List.getElem?_set_ne hi]

/-- A request that is not between its `DELETE` and its commit has been replaced. -/
theorem alone_set (h : Inv s) (hn : s.requests[n]? = some r)
    (hphase : phase.isErased = true → r.phase.isErased = true) (i j : Nat) (a b : Request)
    (ha : (s.requests.set n ⟨r.params, phase⟩)[i]? = some a)
    (hb : (s.requests.set n ⟨r.params, phase⟩)[j]? = some b)
    (hea : a.phase.isErased = true) (heb : b.phase.isErased = true) : i = j := by
  have hold : ∀ (i : Nat) (a : Request), (s.requests.set n ⟨r.params, phase⟩)[i]? = some a →
      a.phase.isErased = true → ∃ b, s.requests[i]? = some b ∧ b.phase.isErased = true := by
    intro i a ha hea
    by_cases hi : n = i
    · subst hi
      rw [List.getElem?_set_self (List.getElem?_eq_some_iff.mp hn).1] at ha
      cases ha
      exact ⟨r, hn, hphase hea⟩
    · rw [List.getElem?_set_ne hi] at ha
      exact ⟨a, ha, hea⟩
  obtain ⟨a', ha', hea'⟩ := hold i a ha hea
  obtain ⟨b', hb', heb'⟩ := hold j b hb heb
  exact h.alone i j a' b' ha' hb' hea' heb'

theorem mem_set_cases {x : Request} (h : x ∈ s.requests.set n ⟨r.params, phase⟩) :
    x = ⟨r.params, phase⟩ ∨ x ∈ s.requests := by
  rcases List.mem_or_eq_of_mem_set h with h | h
  · exact .inr h
  · exact .inl h

theorem inv_request (h : Inv s) (params : JsonObject) : Inv (step s (.request params)) := by
  have hmem : ∀ x, x ∈ (step s (.request params)).requests →
      x ∈ s.requests ∨ x = ⟨params, .attempt 0⟩ := by
    intro x hx
    simpa [step] using hx
  constructor
  · intro i j a b ha hb hea heb
    have hold : ∀ (i : Nat) (a : Request), (step s (.request params)).requests[i]? = some a →
        a.phase.isErased = true → s.requests[i]? = some a := by
      intro i a ha hea
      have hreq : (step s (.request params)).requests = s.requests ++ [⟨params, .attempt 0⟩] := rfl
      rw [hreq, List.getElem?_append] at ha
      split at ha
      · exact ha
      · rw [List.getElem?_singleton] at ha
        split at ha
        · cases ha
          cases hea
        · cases ha
    exact h.alone i j a b (hold i a ha hea) (hold j b hb heb) hea heb
  · intro x hx count victims hp
    rcases hmem x hx with hx | rfl
    · exact h.chosen x hx count victims hp
    · cases hp
  · rintro ⟨x, hx, hp⟩
    rcases hmem x hx with hx | rfl
    · obtain ⟨params', hmem', hrows⟩ := h.rows ⟨x, hx, hp⟩
      refine ⟨params', ?_, hrows⟩
      simp only [State.asked, step, List.map_append, List.mem_append]
      exact .inl hmem'
    · cases hp

/-- A phase that neither holds a transaction open nor ends in success. -/
theorem inv_setPhase (h : Inv s) (hn : s.requests[n]? = some r) (hphase : phase.isErased = false)
    (hreplied : phase ≠ .replied) : Inv (s.setPhase n r phase) := by
  constructor
  · exact alone_set h hn (by simp [hphase])
  · intro x hx count victims hp
    rcases mem_set_cases hx with rfl | hx
    · rw [show phase = .erased count victims from hp] at hphase
      cases hphase
    · exact h.chosen x hx count victims hp
  · rintro ⟨x, hx, hp⟩
    rcases mem_set_cases hx with rfl | hx
    · exact absurd hp hreplied
    · obtain ⟨params, hmem, hrows⟩ := h.rows ⟨x, hx, hp⟩
      exact ⟨params, (asked_set hn phase).symm ▸ hmem, hrows⟩

theorem inv_erase (h : Inv s) {params : JsonObject} {count : Nat}
    (hn : s.requests[n]? = some ⟨params, .attempt count⟩)
    (hfree : ∀ r ∈ s.requests, r.phase.isErased = false) :
    Inv (s.setPhase n ⟨params, .attempt count⟩
      (.erased count ((s.rows.filter CmallConfig.isWxpay).map (·.id)))) := by
  constructor
  · intro i j a b ha hb hea heb
    -- only the request in place `n` has an open transaction
    have honly : ∀ (i : Nat) (a : Request), (s.requests.set n ⟨params,
        .erased count ((s.rows.filter CmallConfig.isWxpay).map (·.id))⟩)[i]? = some a →
          a.phase.isErased = true → i = n := by
      intro i a ha hea
      by_contra hi
      rw [List.getElem?_set_ne (Ne.symm hi)] at ha
      rw [hfree a (List.mem_of_getElem? ha)] at hea
      cases hea
    exact (honly i a ha hea).trans (honly j b hb heb).symm
  · intro x hx count' victims hp row hrow hw
    rcases mem_set_cases hx with rfl | hx
    · cases hp
      exact List.mem_map.mpr ⟨row, List.mem_filter.mpr ⟨hrow, hw⟩, rfl⟩
    · have := hfree x hx
      rw [hp] at this
      cases this
  · rintro ⟨x, hx, hp⟩
    rcases mem_set_cases hx with rfl | hx
    · cases hp
    · obtain ⟨params', hmem, hrows⟩ := h.rows ⟨x, hx, hp⟩
      exact ⟨params', (asked_set hn _).symm ▸ hmem, hrows⟩

/-- A commit: the rows are those of this request, and no other transaction is open. -/
theorem inv_commit (h : Inv s) {params : JsonObject} {count : Nat} {victims : List Nat}
    (hn : s.requests[n]? = some ⟨params, .erased count victims⟩) (hphase : phase.isErased = false) :
    Inv ((s.commit victims (wxpayDetail params)).setPhase n ⟨params, .erased count victims⟩
      phase) := by
  have hlt := (List.getElem?_eq_some_iff.mp hn).1
  have hrows : (s.commit victims (wxpayDetail params)).rows.filter CmallConfig.isWxpay =
      persist s.seq (newConfigs (wxpayDetail params)) := by
    have hgone : (s.rows.filter fun row => !victims.contains row.id).filter CmallConfig.isWxpay = [] := by
      rw [List.filter_filter, List.filter_eq_nil_iff]
      intro row hrow hboth
      rw [Bool.and_eq_true] at hboth
      have hmem := h.chosen _ (List.mem_of_getElem? hn) count victims rfl row hrow hboth.1
      simp [hmem] at hboth
    have hnew : (persist s.seq (newConfigs (wxpayDetail params))).filter CmallConfig.isWxpay =
        persist s.seq (newConfigs (wxpayDetail params)) :=
      List.filter_eq_self.mpr (persist_isWxpay s.seq (wxpayDetail params))
    rw [State.commit, List.filter_append, hgone, hnew, List.nil_append]
  have hfree : ∀ x ∈ (s.requests.set n ⟨params, phase⟩), x.phase.isErased = false := by
    intro x hx
    obtain ⟨i, hi⟩ := List.mem_iff_getElem?.mp hx
    by_cases hin : n = i
    · subst hin
      rw [List.getElem?_set_self hlt] at hi
      cases hi
      exact hphase
    · rw [List.getElem?_set_ne hin] at hi
      by_contra he
      exact hin (h.alone n i _ x hn hi rfl (by simpa using he))
  constructor
  · intro i j a b ha hb hea
    rw [hfree a (List.mem_of_getElem? ha)] at hea
    cases hea
  · intro x hx count' victims' hp
    have := hfree x hx
    rw [hp] at this
    cases this
  · intro _
    have hmem : params ∈ s.asked := List.mem_map.mpr ⟨_, List.mem_of_getElem? hn, rfl⟩
    exact ⟨params, (asked_set hn phase).symm ▸ hmem, s.seq, hrows⟩

theorem inv_step (h : Inv s) {l : Step} (hl : NoOverlap s l) : Inv (step s l) := by
  cases l with
  | request params => exact inv_request h params
  | erase n =>
    simp only [step]
    split
    · next params count hn => exact inv_erase h hn hl
    · exact h
  | finish n outcome =>
    simp only [step]
    split
    · next params count victims hn =>
      have hretry : (retried count).isErased = false ∧ retried count ≠ .replied := by
        rw [retried]
        split
        · exact ⟨rfl, by simp⟩
        · exact ⟨rfl, by simp⟩
      cases outcome with
      | committed => exact inv_commit h hn rfl
      | lost => exact inv_commit h hn hretry.1
      | recoverable => exact inv_setPhase h hn hretry.1 hretry.2
      | error => exact inv_setPhase h hn rfl (by simp)
    · exact h

end Steps

/-- In every run in which no request erases while another one is between its `DELETE` and
its commit, the configuration is usable from the first success on. -/
theorem wxpay_config_usable (rows : List CmallConfig) (seq : Nat) {ls : List Step}
    (h : Meets step NoOverlap (State.start rows seq) ls)
    (hdone : ∃ r ∈ (run step (State.start rows seq) ls).requests, r.phase = .replied) :
    Usable (run step (State.start rows seq) ls) := by
  have hstart : Inv (State.start rows seq) := by
    refine ⟨fun i j a b ha => ?_, fun r hr => ?_, fun hr => ?_⟩
    · simp [State.start] at ha
    · cases hr
    · obtain ⟨r, hr, _⟩ := hr
      cases hr
  obtain ⟨params, hmem, seq', hrows⟩ := (h.invariant (fun _ _ hi hl => inv_step hi hl) hstart).rows hdone
  exact usable_of_rows hmem hrows

/-- Two requests, one after the other. -/
theorem wxpay_config_usable_twice :
    Usable (run step (State.start [] 1) [.request [("sp_appid", .string "wx1")], .erase 0,
      .finish 0 .committed, .request [("sp_appid", .string "wx2")], .erase 1,
      .finish 1 .committed]) := by
  refine wxpay_config_usable [] 1 ?_ ?_
  · simp [Meets, NoOverlap, step, State.start, State.setPhase, State.commit, Phase.isErased]
  · simp [run, step, State.start, State.setPhase, State.commit]

/-- The second request erases before the first has committed: fourteen rows. -/
theorem wxpay_config_doubled :
    ¬ Usable (run step (State.start [] 1) [.request [("sp_appid", .string "wx1")],
      .request [("sp_appid", .string "wx2")], .erase 0, .erase 1, .finish 0 .committed,
      .finish 1 .committed]) := by
  rintro ⟨params, _, h⟩
  have hcomplete := h.complete {} _ (List.Perm.refl _)
  have hfourteen : (loadRows {} (run step (State.start [] 1)
      [.request [("sp_appid", .string "wx1")], .request [("sp_appid", .string "wx2")], .erase 0,
        .erase 1, .finish 0 .committed, .finish 1 .committed]).rows).complete = 14 := by
    decide +kernel
  rw [hfourteen] at hcomplete
  cases hcomplete

end Cmall.WxpayConfig
