/-
# `Uefistored.Frame` — the slots a request leaves alone

A write goes to the first slot that a look-up of its key accepts, or to an empty
one (`Write.kept`).  So a request leaves alone every variable with another key,
but for the mode variables that `update_platform_mode` sets behind a request for
PK; and of these it changes the data only, because they are there: start-up has
created them (`authLibInitialize_hasModes`), and no request can remove them, as
`is_ro` refuses their names (`Step.hasModes`).
-/
import Uefistored.PlatformKey
import Uefistored.ReadOnly

namespace Uefistored

open Lib

/-! ## Slots that a write does not reach -/

theorem Write.kept {k : Key} {s s' : Storage} (h : Write k s s') {i : Fin MAX_VAR_COUNT}
    (hused : (s.vars i).isFree = false) (hmiss : (s.vars i).isMatch k = false) :
    s'.vars i = s.vars i := by
  have hfound : ∀ {j}, s.findSlot k = some j → i ≠ j := by
    rintro j hj rfl
    rw [Storage.findSlot_isMatch hj] at hmiss
    cases hmiss
  cases h with
  | mark time cert hj => exact Function.update_of_ne (hfound hj) _ _
  | set data attrs =>
      have hc := storageSet_cases s k data attrs
      generalize storageSet s k data attrs = r at hc
      obtain ⟨st, s'⟩ := r
      cases hc with
      | refused => rfl
      | removed _ hj => exact Function.update_of_ne (hfound hj) _ _
      | replaced _ _ _ _ _ hj => exact Function.update_of_ne (hfound hj) _ _
      | renamed _ _ _ hj => exact Function.update_of_ne (hfound hj) _ _
      | created _ _ _ _ _ _ hj => exact Function.update_of_ne (freeSlot_ne hused hj).symm _ _

/-- A write with another key does not lose a variable. -/
theorem Write.findSlot_isSome {k K : Key} {s s' : Storage} (h : Write k s s') (hK : K.Clean)
    (hne : ¬ k.Same K) (hs : (s.findSlot K).isSome) : (s'.findSlot K).isSome := by
  obtain ⟨i, hi⟩ := Option.isSome_iff_exists.mp hs
  have hmatch := Storage.findSlot_isMatch hi
  have hused := Variable.isFree_of_isMatch hK hmatch
  have hmiss : (s.vars i).isMatch k = false := by
    by_contra hm
    rw [Bool.not_eq_false] at hm
    exact hne (Variable.same_of_isMatch hm hmatch)
  rw [← h.kept hused hmiss] at hmatch
  exact Slots.first_isSome_of hmatch

/-! ## The mode variables are there -/

/-- Each of the three mode variables is found. -/
def Storage.HasModes (s : Storage) : Prop := ∀ K ∈ modeKeys, (s.findSlot K).isSome

theorem asksRemoval_mode (value : UInt8) : asksRemoval (some [value]) RT_BS_ATTRS = false := rfl

/-- A write of a mode variable does not lose one. -/
theorem modeWrite_findSlot_isSome {s : Storage} {K K' : Key} (hK : K ∈ modeKeys)
    (hK' : K' ∈ modeKeys) (value : UInt8) (h : (s.findSlot K').isSome) :
    ((storageSet s K (some [value]) RT_BS_ATTRS).2.findSlot K').isSome := by
  by_cases hsame : K.Same K'
  · obtain ⟨i, hi⟩ := Option.isSome_iff_exists.mp h
    rw [← hsame.findSlot_eq] at hi ⊢
    rw [storageSet_findSlot (modeKeys_clean K hK) hi (asksRemoval_mode value)]
    rfl
  · exact (Write.set _ _).findSlot_isSome (modeKeys_clean K' hK') hsame h

theorem Storage.HasModes.set {s : Storage} (h : s.HasModes) {K : Key} (hK : K ∈ modeKeys)
    (value : UInt8) : (storageSet s K (some [value]) RT_BS_ATTRS).2.HasModes :=
  fun K' hK' => modeWrite_findSlot_isSome hK hK' value (h K' hK')

/-- A write with a key that is no mode variable's does not lose one. -/
theorem Storage.HasModes.write {s s' : Storage} (h : s.HasModes) {k : Key}
    (hk : ∀ K ∈ modeKeys, ¬ k.Same K) (hw : Write k s s') : s'.HasModes :=
  fun K hK => hw.findSlot_isSome (modeKeys_clean K hK) (hk K hK) (h K hK)

/-- Where every write of the list succeeds, every key of the list is found. -/
theorem setModeVariables_found : ∀ (l : List (Key × UInt8)) {s : Storage},
    (∀ K ∈ l.map Prod.fst, K ∈ modeKeys) → (setModeVariables s l).1 = .success →
    ∀ K ∈ l.map Prod.fst, ((setModeVariables s l).2.findSlot K).isSome
  | [], _, _, _, _, hK => by cases hK
  | (K₁, value) :: rest, s, hl, hok, K, hK => by
      have hrest : ∀ K ∈ rest.map Prod.fst, K ∈ modeKeys :=
        fun K hK => hl K (List.mem_cons_of_mem _ hK)
      have hK₁ : K₁ ∈ modeKeys := hl K₁ List.mem_cons_self
      cases hset : storageSet s K₁ (some [value]) RT_BS_ATTRS with
      | mk status s₁ =>
          unfold setModeVariables at hok ⊢
          rw [hset] at hok ⊢
          cases status with
          | success =>
              dsimp only at hok ⊢
              rcases List.mem_cons.mp hK with rfl | hK
              · have hfirst : (s₁.findSlot K).isSome := by
                  have hfound := storageSet_findSlot_isSome (modeKeys_clean K hK₁)
                    (asksRemoval_mode value) (congrArg Prod.fst hset)
                  rwa [hset] at hfound
                refine setModeVariables_invariant (I := fun s => (s.findSlot K).isSome) rest ?_
                  hfirst
                intro s K' value hK'
                exact modeWrite_findSlot_isSome (hrest K' hK') hK₁ value
              · exact setModeVariables_found rest hrest hok K hK
          | _ => cases hok

theorem updatePlatformMode_hasModes {m : Machine} {mode : PlatformMode}
    (hok : (updatePlatformMode m mode).1 = .success) :
    (updatePlatformMode m mode).2.storage.HasModes := by
  have hfound := setModeVariables_found (s := m.storage) (modeVariables m.secureBootEnabled mode)
    (by rw [modeVariables_keys]; exact fun _ h => h) hok
  rw [modeVariables_keys] at hfound
  exact hfound

section
variable {P X : Type}

theorem LibResult.hasModes {ssl : Phase → OpenSsl P X} {m : Machine} {k : Key} {data : Buffer}
    {dataSize : Nat} {attrs : Attrs} {o : Outcome} (hk : ∀ K ∈ modeKeys, ¬ k.Same K)
    (h : LibResult ssl m k data dataSize attrs o) (hm : m.storage.HasModes) :
    o.machine.storage.HasModes := by
  refine h.invariant (I := Storage.HasModes) ?_ ?_ ?_ hm
  · intro s d a _ hs
    exact hs.write hk (.set _ _)
  · intro s i time cert hi hs
    exact hs.write hk (.mark time cert hi)
  · intro _ s K value hK hs
    exact hs.set hK value

theorem loadAuthFiles_hasModes {ssl : Phase → OpenSsl P X} : ∀ {auths : List AuthData}
    {m m' : Machine} {status : EfiStatus}, (∀ a ∈ auths, ∀ K ∈ modeKeys, ¬ a.key.Same K) →
    loadAuthFiles ssl m auths = some (status, m') → m.storage.HasModes → m'.storage.HasModes
  | [], _, _, _, _, h, hm => by
      cases h
      exact hm
  | auth :: rest, m, m', status, hkeys, h, hm => by
      have hrest : ∀ a ∈ rest, ∀ K ∈ modeKeys, ¬ a.key.Same K :=
        fun a ha => hkeys a (List.mem_cons_of_mem _ ha)
      unfold loadAuthFiles at h
      split at h
      · exact loadAuthFiles_hasModes hrest h hm
      · obtain ⟨o, ho, h⟩ := Option.bind_eq_some_iff.mp h
        have ho' := (authLibProcessVariable_cases ho).hasModes (hkeys auth List.mem_cons_self) hm
        split at h
        · cases h
          exact ho'
        · exact loadAuthFiles_hasModes hrest h ho'

theorem auditModeKey_not_same : ∀ K ∈ modeKeys, ¬ auditModeKey.Same K := by decide +kernel

/-- After a successful start-up the mode variables are there. -/
theorem authLibInitialize_hasModes {ssl : Phase → OpenSsl P X} {m m' : Machine}
    {auths : List AuthData} (hkeys : ∀ a ∈ auths, ∀ K ∈ modeKeys, ¬ a.key.Same K)
    (h : authLibInitialize ssl m auths = some (.success, m')) : m'.storage.HasModes := by
  obtain ⟨m₁, m₂, hmode, hload, hok₃, rfl⟩ := authLibInitialize_success h
  have h₁ := updatePlatformMode_hasModes (congrArg Prod.fst hmode)
  rw [hmode] at h₁
  have h₂ := loadAuthFiles_hasModes hkeys hload h₁
  have h₃ : (userModeIfPk m₂).2.storage.HasModes := by
    unfold userModeIfPk at hok₃ ⊢
    split
    · rename_i hpk
      rw [if_pos hpk] at hok₃
      exact updatePlatformMode_hasModes hok₃
    · exact h₂
  exact h₃.write auditModeKey_not_same (.set _ _)

/-- No request loses a mode variable, whatever its name. -/
theorem Step.hasModes {m m' : Machine} {r : Request P X} (h : Step m r m')
    (hm : m.storage.HasModes) : m'.storage.HasModes := by
  obtain ⟨status, h⟩ := h
  refine handleSetVariable_invariant (I := Storage.HasModes) h ?_ ?_ ?_ hm
  · intro hr s d a _ hs
    exact hs.write (SetRequest.not_same_mode hr) (.set _ _)
  · intro hr s i time cert hi hs
    exact hs.write (SetRequest.not_same_mode hr) (.mark time cert hi)
  · intro _ s K value hK hs
    exact hs.set hK value

/-! ## The slots of other variables -/

/-- What a request leaves in a slot with another key: the variable as it was, or a mode
variable with other data, and that only behind a request for PK. -/
def Spared (k : Key) (v v' : Variable) : Prop :=
  v' = v ∨ variableClass k = .pk ∧ (∃ K ∈ modeKeys, v.isMatch K = true) ∧
    ∃ d, v' = { v with data := d }

/-- Either way the slot is in use and has the key it had. -/
theorem Spared.key_eq {k : Key} {v v' : Variable} (h : Spared k v v') :
    v'.isFree = v.isFree ∧ ∀ K, v'.isMatch K = v.isMatch K := by
  rcases h with rfl | ⟨_, _, d, rfl⟩
  · exact ⟨rfl, fun _ => rfl⟩
  · exact ⟨rfl, fun _ => rfl⟩

/-- The store `s` on the way from `s₀`: other variables are spared, and an empty slot is still
empty or has the variable of the request. -/
structure Framed (k : Key) (s₀ s : Storage) : Prop where
  modes : s.HasModes
  spared : ∀ i, (s₀.vars i).isFree = false → (s₀.vars i).isMatch k = false →
    Spared k (s₀.vars i) (s.vars i)
  empty : ∀ i, (s₀.vars i).isFree = true →
    (s.vars i).isFree = true ∨ (s.vars i).isMatch k = true

namespace Framed

variable {k : Key} {s₀ s s' : Storage}

/-- A write with the key of the request. -/
theorem write (h : Framed k s₀ s) (hk : k.Clean) (hne : ∀ K ∈ modeKeys, ¬ k.Same K)
    (hw : Write k s s') : Framed k s₀ s' := by
  refine ⟨h.modes.write hne hw, ?_, ?_⟩
  · intro i hused hmiss
    have hi := h.spared i hused hmiss
    rw [hw.kept (hi.key_eq.1.trans hused) ((hi.key_eq.2 k).trans hmiss)]
    exact hi
  · intro i hempty
    cases hw with
    | mark time cert hj =>
        rename_i j
        by_cases hij : i = j
        · subst hij
          rw [Storage.setSlot_vars, Function.update_self]
          exact .inr (Storage.findSlot_isMatch hj)
        · rw [Storage.setSlot_vars, Function.update_of_ne hij]
          exact h.empty i hempty
    | set data attrs =>
        have hr := storageSet_slot (s := s) hk data attrs i
        generalize (storageSet s k data attrs).2.vars i = v at hr ⊢
        cases hr with
        | kept => exact h.empty i hempty
        | removed => exact .inl Variable.isFree_zero
        | replaced _ _ _ hi => exact .inr (Storage.findSlot_isMatch hi)
        | created => exact .inr (Variable.isMatch_created hk _ _ _ _)

/-- A write of a mode variable, behind a request for PK: it is there, so its data are new. -/
theorem modeWrite (h : Framed k s₀ s) (hpk : variableClass k = .pk) {K : Key} (hK : K ∈ modeKeys)
    (value : UInt8) : Framed k s₀ (storageSet s K (some [value]) RT_BS_ATTRS).2 := by
  have hslot : ∀ i, (storageSet s K (some [value]) RT_BS_ATTRS).2.vars i = s.vars i ∨
      (s.vars i).isMatch K = true ∧ ∃ d,
        (storageSet s K (some [value]) RT_BS_ATTRS).2.vars i = { s.vars i with data := d } := by
    intro i
    have hr := storageSet_slot (s := s) (modeKeys_clean K hK) (some [value]) RT_BS_ATTRS i
    generalize (storageSet s K (some [value]) RT_BS_ATTRS).2.vars i = v at hr ⊢
    cases hr with
    | kept => exact .inl rfl
    | removed hrem => rw [asksRemoval_mode] at hrem; cases hrem
    | replaced _ _ _ hi => exact .inr ⟨Storage.findSlot_isMatch hi, _, rfl⟩
    | created _ _ _ hnone =>
        have hsome := h.modes K hK
        rw [hnone] at hsome
        cases hsome
  refine ⟨h.modes.set hK value, ?_, ?_⟩
  · intro i hused hmiss
    have hi := h.spared i hused hmiss
    rcases hslot i with heq | ⟨hm, d, heq⟩
    · rw [heq]
      exact hi
    · rw [heq]
      refine .inr ⟨hpk, ⟨K, hK, (hi.key_eq.2 K).symm.trans hm⟩, ?_⟩
      rcases hi with hsame | ⟨_, _, d', hsame⟩
      · exact ⟨d, by rw [hsame]⟩
      · exact ⟨d, by rw [hsame]⟩
  · intro i hempty
    rcases hslot i with heq | ⟨_, d, heq⟩
    · rw [heq]
      exact h.empty i hempty
    · rw [heq]
      exact h.empty i hempty

end Framed

theorem Step.framed {m m' : Machine} {r : Request P X} (h : Step m r m')
    (hname : NulFree r.set.name) (hm : m.storage.HasModes) :
    Framed r.set.key m.storage m'.storage := by
  have hk := SetRequest.key_clean hname
  obtain ⟨status, h⟩ := h
  refine handleSetVariable_invariant (I := Framed r.set.key m.storage) h ?_ ?_ ?_ ?_
  · intro hr s d a _ hs
    exact hs.write hk (SetRequest.not_same_mode hr) (.set _ _)
  · intro hr s i time cert hi hs
    exact hs.write hk (SetRequest.not_same_mode hr) (.mark time cert hi)
  · intro hpk s K value hK hs
    exact hs.modeWrite hpk hK value
  · exact ⟨hm, fun _ _ _ => .inl rfl, fun _ hempty => .inl hempty⟩

end

theorem authFiles_not_same (db dbx kek pk : List UInt8) :
    ∀ a ∈ authFiles db dbx kek pk, ∀ K ∈ modeKeys, ¬ a.key.Same K := by
  have hkeys : ∀ k ∈ [dbKey, dbxKey, kekKey, pkKey], ∀ K ∈ modeKeys, ¬ k.Same K := by
    decide +kernel
  intro a ha
  refine hkeys a.key ?_
  simp only [authFiles, List.mem_cons, List.not_mem_nil, or_false] at ha
  rcases ha with rfl | rfl | rfl | rfl <;> simp

/-- In every state that is reached after a successful start-up, by requests of any kind: a
request with a name without NUL units leaves every variable with another name or GUID as it
was, but for the data of the mode variables behind a request for PK; and an empty slot stays
empty or has the variable of the request. -/
theorem request_spares_others {P₀ X₀ P X : Type} {ssl : Phase → OpenSsl P₀ X₀}
    {m₀ m₁ m m' : Machine} {db dbx kek pk : List UInt8} {rs : List (Request P X)}
    {r : Request P X}
    (hinit : authLibInitialize ssl m₀ (authFiles db dbx kek pk) = some (.success, m₁))
    (hrun : Run Step m₁ rs m) (hname : NulFree r.set.name) (hstep : Step m r m')
    (i : Fin MAX_VAR_COUNT) :
    ((m.storage.vars i).isFree = false →
      ((m.storage.vars i).keyBytes, (m.storage.vars i).guid) ≠ (r.set.name, r.set.guid) →
      m'.storage.vars i = m.storage.vars i ∨ r.set.key = pkKey ∧
        (∃ K ∈ modeKeys, (m.storage.vars i).isMatch K = true) ∧
        ∃ d, m'.storage.vars i = { m.storage.vars i with data := d }) ∧
    ((m.storage.vars i).isFree = true →
      (m'.storage.vars i).isFree = true ∨ (m'.storage.vars i).isMatch r.set.key = true) := by
  have hmodes : m.storage.HasModes :=
    hrun.invariant (I := fun m => m.storage.HasModes) (fun _ _ _ h => h.hasModes)
      (authLibInitialize_hasModes (authFiles_not_same db dbx kek pk) hinit)
  have hframed := hstep.framed hname hmodes
  refine ⟨?_, hframed.empty i⟩
  intro hused hkey
  have hmiss : (m.storage.vars i).isMatch r.set.key = false := by
    by_contra hm
    rw [Bool.not_eq_false] at hm
    obtain ⟨_, hb, hg⟩ := Variable.isMatch_iff.mp hm
    exact hkey (Prod.ext (hb.trans (Key.bytes_of r.set.name_fits r.set.guid)) hg)
  rcases hframed.spared i hused hmiss with hsame | ⟨hpk, hK, hd⟩
  · exact .inl hsame
  · exact .inr ⟨pkKey_of_class hname hpk, hK, hd⟩

/-- The enrolment of PK leaves `SignatureSupport`, in the first slot, as it was. -/
theorem request_spares_others_enrolPk : ∃ m m',
    authLibInitialize (fun _ => OpenSsl.accepting) freshMachine (authFiles [] [] [] []) =
      some (.success, m) ∧
    Step m (enrolPk .accepting) m' ∧ m'.setupMode = .user ∧
    (m.storage.vars 0).isFree = false ∧ m'.storage.vars 0 = m.storage.vars 0 := by
  have hrun : ((authLibInitialize (fun _ => OpenSsl.accepting) freshMachine
      (authFiles [] [] [] [])).bind (fun r =>
        (handleSetVariable (fun _ => OpenSsl.accepting) r.2 (enrolPk .accepting).set).map
          (fun r' => (r.1, r'.2.setupMode, (r.2.storage.vars 0).isFree,
            (r.2.storage.vars 0).keyBytes == EFI_SIGNATURE_SUPPORT_NAME,
            modeKeys.any (fun K => (r.2.storage.vars 0).isMatch K))))) =
      some (.success, .user, false, true, false) := by
    decide +kernel
  obtain ⟨⟨_, m⟩, hinit, hrun⟩ := Option.bind_eq_some_iff.mp hrun
  obtain ⟨⟨status, m'⟩, hstep, hr⟩ := Option.map_eq_some_iff.mp hrun
  simp only [Prod.mk.injEq] at hr
  obtain ⟨rfl, hmode, hused, hbytes, hmodes⟩ := hr
  have hstep' : Step m (enrolPk .accepting) m' := ⟨status, hstep⟩
  refine ⟨m, m', hinit, hstep', hmode, hused, ?_⟩
  have hkey : ((m.storage.vars 0).keyBytes, (m.storage.vars 0).guid) ≠
      ((enrolPk .accepting).set.name, (enrolPk .accepting).set.guid) := by
    rw [beq_iff_eq.mp hbytes]
    intro heq
    exact absurd (Prod.mk.inj heq).1 (by decide)
  rcases (request_spares_others hinit (.nil m) (by decide) hstep' 0).1 hused hkey with
    hsame | ⟨_, ⟨K, hK, hm⟩, _⟩
  · exact hsame
  · rw [List.any_eq_false] at hmodes
    exact absurd hm (hmodes K hK)

end Uefistored
