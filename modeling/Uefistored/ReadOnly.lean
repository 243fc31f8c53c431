/-
# `Uefistored.ReadOnly` — the variables a guest cannot write

SecureBoot, SetupMode, AuditMode, DeployedMode and SignatureSupport belong to
the firmware.  `is_ro` refuses a request for one of them by its name and its
exact size, while the store keys on the size that `sanitize_namesz` leaves.
The two tests differ for one kind of name only: a read-only name with a NUL
unit behind it passes `is_ro` and is stored as the read-only name
(`ShadowsRo`).  A lower slot that is empty then takes it, and it hides the real
variable from every look-up (`secureBoot_shadowed`).

Without such names, no request changes what a look-up of a read-only variable
returns, except inside `update_platform_mode` (`readOnly_changedByMode`).
-/
import Uefistored.Effect

namespace Uefistored

open Lib

/-- The five variables that `is_ro` protects. -/
def roKeys : List Key := roNames.map (Key.of · gEfiGlobalVariableGuid)

theorem roNames_nulFree : ∀ str ∈ roNames, NulFree str ∧ str.length ≤ MAX_VARIABLE_NAME_SIZE := by
  decide

theorem roKeys_clean : ∀ K ∈ roKeys, K.Clean := by
  intro K hK
  obtain ⟨str, hstr, rfl⟩ := List.mem_map.mp hK
  obtain ⟨hfree, hfits⟩ := roNames_nulFree str hstr
  exact Key.clean_of_nulFree hfree hfits _

theorem roKeys_isRo : ∀ str ∈ roNames, isRo (Key.of str gEfiGlobalVariableGuid) = true := by
  intro str hstr
  have hself : strcmp16Len (Key.of str gEfiGlobalVariableGuid) str = true := by
    simp [strcmp16Len, strcmp16, Key.of]
  rw [isRo, Bool.and_eq_true]
  exact ⟨beq_self_eq_true _, List.any_eq_true.mpr ⟨str, hstr, hself⟩⟩

example : isRo (Key.of EFI_AUDIT_MODE_NAME gEfiImageSecurityDatabaseGuid) = false := by
  decide +kernel

/-- The name of the request is a read-only name and one NUL unit. -/
def SetRequest.ShadowsRo (req : SetRequest) : Prop :=
  req.guid = gEfiGlobalVariableGuid ∧ ∃ str ∈ roNames, req.name = str ++ [0, 0]

instance (req : SetRequest) : Decidable req.ShadowsRo :=
  inferInstanceAs (Decidable (_ ∧ ∃ str ∈ roNames, _))

theorem isRo_of_refusal {req : SetRequest} (h : refusal req = none) : isRo req.key = false := by
  unfold refusal at h
  split at h
  · cases h
  split at h
  · cases h
  split at h
  · cases h
  · rename_i hro
    simpa using hro

theorem modeKeys_isRo : ∀ k ∈ modeKeys, isRo k = true := by
  intro k hk
  simp only [modeKeys, List.mem_cons, List.not_mem_nil, or_false] at hk
  rcases hk with rfl | rfl | rfl <;> exact roKeys_isRo _ (by simp [roNames])

theorem modeKeys_of : ∀ k ∈ modeKeys, ∃ l, l.length ≤ MAX_VARIABLE_NAME_SIZE ∧
    k = Key.of l gEfiGlobalVariableGuid := by
  intro k hk
  simp only [modeKeys, List.mem_cons, List.not_mem_nil, or_false] at hk
  rcases hk with rfl | rfl | rfl <;> exact ⟨_, by decide, rfl⟩

/-- A request that passes the checks has no mode variable's name. -/
theorem SetRequest.not_same_mode {req : SetRequest} (hr : refusal req = none) :
    ∀ K ∈ modeKeys, ¬ req.key.Same K := by
  intro K hK hsame
  obtain ⟨l, hl, rfl⟩ := modeKeys_of K hK
  have hro := isRo_of_refusal hr
  rw [SetRequest.key, hsame.key_eq req.name_fits hl, modeKeys_isRo _ hK] at hro
  cases hro

/-! ## What a request can be stored as -/

/-- A name of two bytes more, whose last unit is NUL. -/
theorem eq_append_nul {l str : List UInt8} (heven : str.length % 2 = 0)
    (hlen : str.length + 2 = l.length) (htake : l.take str.length = str)
    (hlast : unitAt l (l.length / 2 - 1) = 0) : l = str ++ [0, 0] := by
  have hdrop : (l.drop str.length).length = 2 := by rw [List.length_drop]; omega
  obtain ⟨lo, hi, htail⟩ := List.length_eq_two.mp hdrop
  have hl : l = str ++ [lo, hi] := by
    have happ := List.take_append_drop str.length l
    rw [htake, htail] at happ
    exact happ.symm
  have hidx : l.length / 2 - 1 - str.length / 2 = 0 := by omega
  have hle : str.length ≤ 2 * (l.length / 2 - 1) := by omega
  have hunit : unitAt (str ++ [lo, hi]) (l.length / 2 - 1) = unitAt [lo, hi] 0 := by
    rw [unitAt_append_right heven hle, hidx]
  rw [← hl, hlast] at hunit
  have hlast := hunit.symm
  obtain ⟨rfl, rfl⟩ := unitAt_cons_cons_zero.mp hlast
  exact hl

/-- A request that passes the checks and is no read-only name with a NUL behind it touches
no slot that a look-up of a read-only variable accepts. -/
theorem SetRequest.spares_ro {req : SetRequest} (hr : refusal req = none)
    (hs : ¬ req.ShadowsRo) {K : Key} (hK : K ∈ roKeys) : req.key.Spares K := by
  have hclean := roKeys_clean K hK
  obtain ⟨str, hstr, rfl⟩ := List.mem_map.mp hK
  obtain ⟨hfree, hfits⟩ := roNames_nulFree str hstr
  have heven : str.length % 2 = 0 := hfree.2.1
  rintro v (hfree | ⟨hg, hb, hsz⟩)
  · exact Variable.not_isMatch_of_isFree hclean hfree
  by_contra hm
  rw [Bool.not_eq_false] at hm
  obtain ⟨hsz', hb', hg'⟩ := Variable.isMatch_iff.mp hm
  rw [Key.bytes_of hfits] at hb'
  have hname : v.name.bytes.take req.name.length = req.name :=
    hb.trans (Key.bytes_of req.name_fits req.guid)
  have hguid : req.guid = gEfiGlobalVariableGuid := hg.symm.trans hg'
  -- the size of the request is that of the read-only name: `is_ro` refused it
  have hsame : v.namesz ≠ req.name.length := by
    intro h
    have heq : req.name = str := by rw [← hname, ← h]; exact hb'
    have hro := isRo_of_refusal hr
    rw [SetRequest.key, heq, hguid, roKeys_isRo str hstr] at hro
    cases hro
  rcases hsz with h | ⟨below, h⟩
  · exact hsame h
  have hst : (Key.of req.name req.guid).stored below = str.length := h.symm.trans hsz'
  rcases Key.stored_of_fits req.name_fits (by rw [hst]; exact hfits) with h' | ⟨hlen, hlast⟩
  · exact hsame (h.trans h')
  · rw [hst] at hlen
    refine hs ⟨hguid, str, hstr, eq_append_nul heven hlen ?_ hlast⟩
    have htake := congrArg (List.take str.length) hname
    rw [List.take_take, Nat.min_eq_left (by omega)] at htake
    have hsz'' : v.namesz = str.length := hsz'
    rw [← htake, ← hsz'']
    exact hb'

/-! ## Runs -/

/-- From `m` to `m'` the request left every read-only variable as it was, but for one
`update_platform_mode` at its end. -/
def ChangedByMode (req : SetRequest) (m m' : Machine) : Prop :=
  ∃ mid, Effect req.key m mid ∧ (∀ K ∈ roKeys, view mid.storage K = view m.storage K) ∧
    (m'.storage = mid.storage ∨ variableClass req.key = .pk ∧ ∃ mode,
      m'.storage = (updatePlatformMode mid mode).2.storage)

section
variable {P X : Type}

theorem Step.changedByMode {m m' : Machine} {r : Request P X} (h : Step m r m')
    (hs : ¬ r.set.ShadowsRo) : ChangedByMode r.set m m' := by
  obtain ⟨status, h⟩ := h
  cases hr : refusal r.set with
  | some st =>
      have hst : m'.storage = m.storage := by
        cases handleSetVariable_cases h with
        | refused => rfl
        | authenticated hr' => rw [hr] at hr'; cases hr'
        | plain hr' => rw [hr] at hr'; cases hr'
      exact ⟨m, .refl m, fun _ _ => rfl, .inl hst⟩
  | none =>
      obtain ⟨mid, hmid, hm⟩ := handleSetVariable_effect h
      refine ⟨mid, hmid, ?_, ?_⟩
      · intro K hK
        have hfind : storageFindVariable mid.storage K = storageFindVariable m.storage K := by
          refine hmid.writes.find_eq ?_
          rintro k rfl
          exact SetRequest.spares_ro hr hs hK
        rw [view, view, hfind]
      · rcases hm with ⟨hst, _⟩ | ⟨hpk, mode, hst, _⟩
        · exact .inl hst
        · exact .inr ⟨hpk, mode, hst⟩

/-- The two that `update_platform_mode` does not write either. -/
def fixedKeys : List Key := [auditModeKey, signatureSupportKey]

theorem fixedKeys_not_mode : ∀ K ∈ fixedKeys, K ∈ roKeys ∧ ∀ k ∈ modeKeys, ¬ k.Same K := by
  decide +kernel

theorem ChangedByMode.fixed {req : SetRequest} {m m' : Machine} (h : ChangedByMode req m m')
    {K : Key} (hK : K ∈ fixedKeys) : view m'.storage K = view m.storage K := by
  obtain ⟨hro, hne⟩ := fixedKeys_not_mode K hK
  obtain ⟨mid, _, hviews, hst | ⟨_, mode, hst⟩⟩ := h
  · rw [hst, hviews K hro]
  · rw [← hviews K hro, hst, view, view,
      updatePlatformMode_find_eq (roKeys_clean K hro) hne mid mode]

/-- In any run, from any state that start-up leaves or any other: as long as no request
carries a read-only name with one NUL unit behind it, every request leaves the read-only
variables to `update_platform_mode`, and the two that it does not write never change. -/
theorem readOnly_changedByMode {m m' : Machine} {rs : List (Request P X)}
    (hrun : Run Step m rs m') (hnames : ∀ r ∈ rs, ¬ r.set.ShadowsRo) :
    Run (fun m r m' => Step m r m' ∧ ChangedByMode r.set m m') m rs m' ∧
      ∀ K ∈ fixedKeys, view m'.storage K = view m.storage K := by
  have hmode : Run (fun m r m' => Step m r m' ∧ ChangedByMode r.set m m') m rs m' :=
    (hrun.restrict hnames).mono (fun _ _ _ h => ⟨h.1, h.1.changedByMode h.2⟩)
  refine ⟨hmode, ?_⟩
  intro K hK
  refine hmode.invariant (I := fun m₁ => view m₁.storage K = view m.storage K) ?_ rfl
  intro m₁ r m₂ hstep ih
  exact (hstep.2.fixed hK).trans ih

end

/-- A store with one volatile variable in front, loaded before start-up. -/
def preloadedMachine : Machine :=
  .ofStorage (.ofList [.ofKey (.of (wide ['A']) gEfiGlobalVariableGuid) [1] RT_BS_ATTRS]) .setup

theorem readOnly_changedByMode_A : ∃ m m',
    authLibInitialize (fun _ => OpenSsl.accepting) preloadedMachine [] = some (.success, m) ∧
    Run Step m [volatileRequest (wide ['A']) [] (by decide)] m' ∧
    view m.storage signatureSupportKey = some (RT_BS_ATTRS, signatureSupport) ∧
    view m'.storage signatureSupportKey = view m.storage signatureSupportKey := by
  have hrun : ((authLibInitialize (fun _ => OpenSsl.accepting) preloadedMachine []).bind
      (fun r => (handleAll r.2 [volatileRequest (wide ['A']) [] (by decide)]).map
        (fun _ => (r.1, view r.2.storage signatureSupportKey)))) =
      some (.success, some (RT_BS_ATTRS, signatureSupport)) := by
    decide +kernel
  obtain ⟨⟨status, m⟩, hinit, hrun⟩ := Option.bind_eq_some_iff.mp hrun
  obtain ⟨m', hrun, hview⟩ := Option.map_eq_some_iff.mp hrun
  obtain ⟨rfl, hview⟩ := Prod.mk.inj hview
  have hrun := run_iff_handleAll.mpr hrun
  exact ⟨m, m', hinit, hrun, hview,
    (readOnly_changedByMode hrun (by decide +kernel)).2 _ (by simp [fixedKeys])⟩

/-- `SecureBoot` with a NUL behind it, once slot 0 is empty: the request passes `is_ro`, its
variable is stored as `SecureBoot` in slot 0, and a look-up finds that one. -/
theorem secureBoot_shadowed : ∃ m m₁ m₂,
    authLibInitialize (fun _ => OpenSsl.accepting) preloadedMachine [] = some (.success, m) ∧
    Run Step m [volatileRequest (wide ['A']) [] (by decide)] m₁ ∧
    Step m₁ (volatileRequest (EFI_SECURE_BOOT_MODE_NAME ++ [0, 0]) [1] (by decide)) m₂ ∧
    view m₁.storage secureBootKey = some (RT_BS_ATTRS, [0]) ∧
    view m₂.storage secureBootKey = some (RT_BS_ATTRS, [1]) ∧
    ¬ ChangedByMode
      (volatileRequest (EFI_SECURE_BOOT_MODE_NAME ++ [0, 0]) [1] (by decide)).set m₁ m₂ := by
  have hrun : ((authLibInitialize (fun _ => OpenSsl.accepting) preloadedMachine []).bind
      (fun r => (handleAll r.2 [volatileRequest (wide ['A']) [] (by decide)]).bind
        (fun m₁ => (handleSetVariable (fun _ => OpenSsl.accepting) m₁
          (volatileRequest (EFI_SECURE_BOOT_MODE_NAME ++ [0, 0]) [1] (by decide)).set).map
            (fun r₂ => (r.1, view m₁.storage secureBootKey, view r₂.2.storage secureBootKey))))) =
      some (.success, some (RT_BS_ATTRS, [0]), some (RT_BS_ATTRS, [1])) := by
    decide +kernel
  obtain ⟨⟨status, m⟩, hinit, hrun⟩ := Option.bind_eq_some_iff.mp hrun
  obtain ⟨m₁, hrun₁, hrun⟩ := Option.bind_eq_some_iff.mp hrun
  obtain ⟨⟨status₂, m₂⟩, hstep, hviews⟩ := Option.map_eq_some_iff.mp hrun
  simp only [Prod.mk.injEq] at hviews
  obtain ⟨rfl, hview₁, hview₂⟩ := hviews
  refine ⟨m, m₁, m₂, hinit, run_iff_handleAll.mpr hrun₁, ⟨status₂, hstep⟩, hview₁, hview₂, ?_⟩
  rintro ⟨mid, _, hsame, hst | ⟨hpk, _⟩⟩
  · have hviewmid := hsame secureBootKey (by decide +kernel)
    rw [← hst, hview₂, hview₁] at hviewmid
    simp at hviewmid
  · exact absurd hpk (by decide +kernel)

end Uefistored
