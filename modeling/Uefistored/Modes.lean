/-
# `Uefistored.Modes` — what the read-only variables say

The firmware reads the platform mode from variables: SecureBoot, SetupMode and
DeployedMode repeat `setup_mode` and `secure_boot_enabled`, AuditMode is always 0 and
SignatureSupport lists the supported types.  The mode itself is a static that no request
reads, and the variables are separate writes with ways to fail; so nothing in the code
keeps the two together but the order of its steps.

`readOnly_shown` says that they are together after every successful start-up and every
run of requests with names without NUL units.  So the variable SecureBoot can be taken as
what it says; and `secureBoot_cleared` says what it takes to turn it off: the deletion of
PK, behind a `verify_pk` that returned true.
-/
import Uefistored.Frame
import Uefistored.VarMap

namespace Uefistored

open Lib

/-! ## One write -/

/-- A write that succeeds, and neither removes nor appends, is what is found afterwards. -/
theorem storageSet_view {s : Storage} {k : Key} (hk : k.Clean) {d : List UInt8} {attrs : Attrs}
    (hrem : asksRemoval (some d) attrs = false) (happ : attrs.append = false)
    (hok : (storageSet s k (some d) attrs).1 = .success) :
    view (storageSet s k (some d) attrs).2 k = some (attrs, d) := by
  have hattrs : attrs.withoutAppend = attrs := Attrs.withoutAppend_of_not happ
  have hc := storageSet_cases s k (some d) attrs
  generalize storageSet s k (some d) attrs = r at hc hok
  obtain ⟨st, s'⟩ := r
  cases hc with
  | refused hst => exact absurd hok hst
  | removed hr => rw [hrem] at hr; cases hr
  | renamed hst => exact absurd hok hst
  | @replaced i d' _ hd' _ _ _ hi hsame _ =>
      obtain rfl := Option.some.inj hd'
      have hmatch := Storage.findSlot_isMatch hi
      rw [Variable.named_self hk hmatch, happ, if_neg Bool.false_ne_true]
      have hfind := Slots.first_update_self (a := { s.vars i with data := d }) hi hmatch
      rw [view, show storageFindVariable _ k = _ from Slots.lookup_eq_some hfind]
      simp only [Function.update_self, Option.map_some, hsame, hattrs]
  | @created i d' _ hd' _ _ _ hnone hi _ =>
      obtain rfl := Option.some.inj hd'
      have hfind := Slots.first_update_of_none (i := i) hnone
        (Variable.isMatch_created hk (s.vars i) (s.below i) d attrs.withoutAppend)
      rw [view, show storageFindVariable _ k = _ from Slots.lookup_eq_some hfind]
      simp only [Storage.setSlot_vars, Function.update_self, Option.map_some, hattrs]

/-- A write of one byte to a variable with its attributes does not fail. -/
theorem storageSet_mode_ok {s : Storage} (hs : s.Tidy) (K : VarKey) {d : List UInt8}
    (hview : view s K.key = some (RT_BS_ATTRS, d)) (value : UInt8) :
    (storageSet s K.key (some [value]) RT_BS_ATTRS).1 = .success := by
  obtain ⟨v, hv, hd⟩ := Option.map_eq_some_iff.mp hview
  obtain ⟨i, hi, rfl⟩ := Option.map_eq_some_iff.mp hv
  have hattrs : (s.vars i).attrs = RT_BS_ATTRS := congrArg Prod.fst hd
  have hone : [value].length ≤ MAX_VARIABLE_DATA_SIZE := by simp [MAX_VARIABLE_DATA_SIZE]
  have happ : RT_BS_ATTRS.append = false := by decide
  have hreplace := storageSet_replaces hs hone (asksRemoval_mode value) (by simp) hi
    (hattrs.trans (Attrs.withoutAppend_of_not happ).symm) (by rw [happ]; exact hone)
  rw [hreplace]

/-- A write with another key is not seen. -/
theorem Write.view_eq {k K : Key} {s s' : Storage} (h : Write k s s') (hk : k.Clean)
    (hK : K.Clean) (hne : ¬ k.Same K) : view s' K = view s K := by
  have hfind := (Writes.single (K := (· = k)) rfl h).find_eq (K := K)
    (by rintro _ rfl; exact hk.spares hK hne)
  rw [view, view, hfind]

/-! ## The mode variables -/

/-- The store shows these values under these keys. -/
def Storage.Shows (s : Storage) (l : List (Key × UInt8)) : Prop :=
  ∀ kv ∈ l, view s kv.1 = some (RT_BS_ATTRS, [kv.2])

/-- The keys of the list are names without NUL units, and different ones. -/
structure ModeList (l : List (Key × UInt8)) : Prop where
  varKey : ∀ kv ∈ l, kv.1.IsVarKey
  apart : l.Pairwise (fun kv kv' => ¬ kv.1.Same kv'.1 ∧ ¬ kv'.1.Same kv.1)

theorem ModeList.tail {kv : Key × UInt8} {l : List (Key × UInt8)} (h : ModeList (kv :: l)) :
    ModeList l :=
  ⟨fun kv' hkv' => h.varKey kv' (List.mem_cons_of_mem _ hkv'), (List.pairwise_cons.mp h.apart).2⟩

theorem modeKeys_apart : modeKeys.Pairwise (fun K K' => ¬ K.Same K' ∧ ¬ K'.Same K) := by
  decide +kernel

theorem modeList_modeVariables (b : Bool) (mode : PlatformMode) :
    ModeList (modeVariables b mode) := by
  have hkeys := modeVariables_keys b mode
  refine ⟨fun kv hkv => modeKeys_isVarKey kv.1 (hkeys ▸ List.mem_map_of_mem hkv), ?_⟩
  have hapart := modeKeys_apart
  rw [← hkeys] at hapart
  exact List.pairwise_map.mp hapart

/-- The writes of `update_platform_mode` succeed on variables that are there. -/
theorem setModeVariables_ok : ∀ (l : List (Key × UInt8)) {s : Storage}, ModeList l → s.Tidy →
    (∀ kv ∈ l, ∃ d, view s kv.1 = some (RT_BS_ATTRS, d)) → (setModeVariables s l).1 = .success
  | [], _, _, _, _ => rfl
  | (k, value) :: rest, s, hl, hs, hviews => by
      obtain ⟨K, rfl⟩ := hl.varKey (k, value) List.mem_cons_self
      obtain ⟨d, hd⟩ := hviews (K.key, value) List.mem_cons_self
      have hok := storageSet_mode_ok hs K hd value
      have hw : Write K.key s (storageSet s K.key (some [value]) RT_BS_ATTRS).2 := .set _ _
      have htidy := hw.tidy hs
      have hrest : ∀ kv ∈ rest, ∃ d,
          view (storageSet s K.key (some [value]) RT_BS_ATTRS).2 kv.1 = some (RT_BS_ATTRS, d) := by
        intro kv hkv
        obtain ⟨K', hK'⟩ := hl.varKey kv (List.mem_cons_of_mem _ hkv)
        have hne := ((List.pairwise_cons.mp hl.apart).1 kv hkv).1
        obtain ⟨d', hd'⟩ := hviews kv (List.mem_cons_of_mem _ hkv)
        exact ⟨d', (hw.view_eq K.clean (hK' ▸ K'.clean) hne).trans hd'⟩
      unfold setModeVariables
      cases hset : storageSet s K.key (some [value]) RT_BS_ATTRS with
      | mk status s₁ =>
          rw [hset] at hok htidy hrest
          obtain rfl : status = .success := hok
          exact setModeVariables_ok rest hl.tail htidy hrest

/-- Where they succeed, the store shows what was written. -/
theorem setModeVariables_shows : ∀ (l : List (Key × UInt8)) {s : Storage}, ModeList l →
    (setModeVariables s l).1 = .success → (setModeVariables s l).2.Shows l
  | [], _, _, _ => fun _ h => by cases h
  | (k, value) :: rest, s, hl, hok => by
      obtain ⟨K, rfl⟩ := hl.varKey (k, value) List.mem_cons_self
      unfold setModeVariables at hok ⊢
      cases hset : storageSet s K.key (some [value]) RT_BS_ATTRS with
      | mk status s₁ =>
          rw [hset] at hok
          cases status with
          | success =>
              dsimp only at hok ⊢
              have hfirst := storageSet_view K.clean (asksRemoval_mode value) (by decide)
                (congrArg Prod.fst hset)
              rw [hset] at hfirst
              -- the later writes are under other keys
              have hkept : view (setModeVariables s₁ rest).2 K.key = view s₁ K.key := by
                have hfind := (setModeVariables_writes s₁ rest).find_eq (K := K.key) (by
                  intro k' hk'
                  obtain ⟨kv, hkv, rfl⟩ := List.mem_map.mp hk'
                  obtain ⟨K', hK'⟩ := hl.varKey kv (List.mem_cons_of_mem _ hkv)
                  have hne := ((List.pairwise_cons.mp hl.apart).1 kv hkv).2
                  exact (hK' ▸ K'.clean : kv.1.Clean).spares K.clean hne)
                rw [view, view, hfind]
              intro kv hkv
              rcases List.mem_cons.mp hkv with rfl | hkv
              · exact hkept.trans hfirst
              · exact setModeVariables_shows rest hl.tail hok kv hkv
          | _ => cases hok

/-- The mode variables repeat the mode. -/
structure Machine.Shown (m : Machine) : Prop where
  tidy : m.storage.Tidy
  modes : m.storage.Shows (modeVariables m.secureBootEnabled m.setupMode)

theorem updatePlatformMode_tidy {m : Machine} (h : m.storage.Tidy) (mode : PlatformMode) :
    (updatePlatformMode m mode).2.storage.Tidy :=
  ((updatePlatformMode_writes m mode).mono modeKeys_isVarKey).tidy h

theorem updatePlatformMode_shown {m : Machine} (h : m.storage.Tidy) {mode : PlatformMode}
    (hok : (updatePlatformMode m mode).1 = .success) : (updatePlatformMode m mode).2.Shown :=
  ⟨updatePlatformMode_tidy h mode, setModeVariables_shows _ (modeList_modeVariables _ _) hok⟩

/-- The other mode, too, can be entered. -/
theorem Machine.Shown.update {m : Machine} (h : m.Shown) (mode : PlatformMode) :
    (updatePlatformMode m mode).1 = .success ∧ (updatePlatformMode m mode).2.Shown := by
  have hok : (updatePlatformMode m mode).1 = .success := by
    refine setModeVariables_ok _ (modeList_modeVariables _ _) h.tidy ?_
    intro kv hkv
    have hmem : kv.1 ∈ (modeVariables m.secureBootEnabled m.setupMode).map Prod.fst := by
      rw [modeVariables_keys, ← modeVariables_keys m.secureBootEnabled mode]
      exact List.mem_map_of_mem hkv
    obtain ⟨kv', hkv', heq⟩ := List.mem_map.mp hmem
    exact ⟨_, heq ▸ h.modes kv' hkv'⟩
  exact ⟨hok, updatePlatformMode_shown h.tidy hok⟩

/-! ## Requests -/

/-- Writes for another variable leave them. -/
theorem Effect.shown {k : Key} (hk : k.IsVarKey) (hne : ∀ K ∈ modeKeys, ¬ k.Same K)
    {m m' : Machine} (h : Effect k m m') (hm : m.Shown) : m'.Shown := by
  obtain ⟨K, rfl⟩ := hk
  have hwrites : Writes Key.IsVarKey m.storage m'.storage :=
    h.writes.mono (by rintro _ rfl; exact ⟨K, rfl⟩)
  refine ⟨hwrites.tidy hm.tidy, ?_⟩
  rw [h.secureBootEnabled, h.setupMode]
  intro kv hkv
  have hmem : kv.1 ∈ modeKeys :=
    modeVariables_keys m.secureBootEnabled m.setupMode ▸ List.mem_map_of_mem hkv
  have hfind := h.writes.find_eq (K := kv.1) (by
    rintro _ rfl
    exact K.clean.spares (modeKeys_clean _ hmem) (hne _ hmem))
  rw [view, hfind]
  exact hm.modes kv hkv

theorem PkEffect.shown {k : Key} (hk : k.IsVarKey) (hne : ∀ K ∈ modeKeys, ¬ k.Same K)
    {isPk : Bool} {m m' : Machine} (h : PkEffect k isPk m m') (hm : m.Shown) : m'.Shown := by
  obtain ⟨mid, hmid, rfl | ⟨_, mode, rfl⟩⟩ := h
  · exact hmid.shown hk hne hm
  · exact ((hmid.shown hk hne hm).update mode).2

theorem Machine.Shown.saved {m : Machine} (h : m.Shown) (status : EfiStatus) (attrs : Attrs) :
    (m.saved status attrs).Shown :=
  ⟨by rw [Machine.saved_storage]; exact h.tidy, by
    rw [Machine.saved_storage, Machine.saved_secureBootEnabled, Machine.saved_setupMode]
    exact h.modes⟩

section
variable {P X : Type}

theorem Step.shown {m m' : Machine} {r : Request P X} (h : Step m r m')
    (hname : NulFree r.set.name) (hm : m.Shown) : m'.Shown := by
  have hk : r.set.key.IsVarKey := ⟨r.set.varKey hname, rfl⟩
  have hopened : (m.opened r.set).Shown := ⟨hm.tidy, hm.modes⟩
  obtain ⟨status, h⟩ := h
  cases handleSetVariable_cases h with
  | refused => exact hopened
  | authenticated hr _ hl =>
      exact (hl.effect.shown hk (SetRequest.not_same_mode hr) hopened).saved _ _
  | plain hr =>
      have heff : Effect r.set.key (m.opened r.set) { m.opened r.set with
          storage := (storageSet m.storage r.set.key (some r.set.data) r.set.attrs).2 } :=
        ⟨.single (k := r.set.key) rfl (.set _ _), rfl, rfl⟩
      exact (heff.shown hk (SetRequest.not_same_mode hr) hopened).saved _ _

theorem Step.secureBootEnabled {m m' : Machine} {r : Request P X} (h : Step m r m') :
    m'.secureBootEnabled = m.secureBootEnabled := by
  obtain ⟨status, h⟩ := h
  cases handleSetVariable_cases h with
  | refused => rfl
  | authenticated _ _ hl =>
      rw [Machine.saved_secureBootEnabled]
      obtain ⟨mid, hmid, hm | ⟨_, mode, hm⟩⟩ := hl.effect
      · rw [hm]
        exact hmid.secureBootEnabled
      · rw [hm]
        exact hmid.secureBootEnabled
  | plain => rw [Machine.saved_secureBootEnabled]; rfl

/-! ## Start-up -/

theorem startKeys_isVarKey (db dbx kek pk : List UInt8) :
    ∀ k ∈ startKeys (authFiles db dbx kek pk), k.IsVarKey := by
  have hof : ∀ (l : List UInt8) (g : Guid), NulFree l → l.length ≤ MAX_VARIABLE_NAME_SIZE →
      (Key.of l g).IsVarKey := fun l g hn hl => ⟨⟨l, g, hn, hl⟩, rfl⟩
  intro k hk
  simp only [startKeys, authFiles, List.map_cons, List.map_nil, List.cons_append, List.nil_append,
    List.mem_cons] at hk
  rcases hk with rfl | rfl | rfl | rfl | rfl | rfl | hk
  · exact hof _ _ (by decide) (by decide)
  · exact hof _ _ (by decide) (by decide)
  · exact hof _ _ (by decide) (by decide)
  · exact hof _ _ (by decide) (by decide)
  · exact hof _ _ (by decide) (by decide)
  · exact hof _ _ (by decide) (by decide)
  · exact modeKeys_isVarKey k hk

theorem loadAuthFiles_shown {ssl : Phase → OpenSsl P X} : ∀ {auths : List AuthData}
    {m m' : Machine} {status : EfiStatus}, (∀ a ∈ auths, a.key.IsVarKey) →
    (∀ a ∈ auths, ∀ K ∈ modeKeys, ¬ a.key.Same K) →
    loadAuthFiles ssl m auths = some (status, m') → m.Shown → m'.Shown
  | [], _, _, _, _, _, h, hm => by
      cases h
      exact hm
  | auth :: rest, m, m', status, hvar, hne, h, hm => by
      have hvar' : ∀ a ∈ rest, a.key.IsVarKey := fun a ha => hvar a (List.mem_cons_of_mem _ ha)
      have hne' : ∀ a ∈ rest, ∀ K ∈ modeKeys, ¬ a.key.Same K :=
        fun a ha => hne a (List.mem_cons_of_mem _ ha)
      unfold loadAuthFiles at h
      split at h
      · exact loadAuthFiles_shown hvar' hne' h hm
      · obtain ⟨o, ho, h⟩ := Option.bind_eq_some_iff.mp h
        have ho' := (authLibProcessVariable_cases ho).effect.shown (hvar auth List.mem_cons_self)
          (hne auth List.mem_cons_self) hm
        split at h
        · cases h
          exact ho'
        · exact loadAuthFiles_shown hvar' hne' h ho'

/-- The first and the last write of a successful start-up succeeded. -/
theorem authLibInitialize_ends {ssl : Phase → OpenSsl P X} {m m' : Machine}
    {auths : List AuthData} (h : authLibInitialize ssl m auths = some (.success, m')) :
    (storageSet m.storage signatureSupportKey (some signatureSupport) RT_BS_ATTRS).1 = .success ∧
      ∃ s, storageSet s auditModeKey (some [0]) RT_BS_ATTRS = (.success, m'.storage) := by
  unfold authLibInitialize at h
  dsimp only at h
  split at h
  · rename_i hfail
    exact absurd (congrArg Prod.fst (Option.some.inj h)) hfail
  rename_i hok
  refine ⟨not_not.mp hok, ?_⟩
  split at h
  · rename_i hfail
    exact absurd (congrArg Prod.fst (Option.some.inj h)) hfail
  obtain ⟨⟨status, m₂⟩, -, h⟩ := Option.bind_eq_some_iff.mp h
  dsimp only at h
  split at h
  · rename_i hfail
    exact absurd (congrArg Prod.fst (Option.some.inj h)) hfail
  split at h
  · rename_i hfail
    exact absurd (congrArg Prod.fst (Option.some.inj h)) hfail
  · obtain ⟨hstatus, rfl⟩ := Prod.mk.inj (Option.some.inj h)
    exact ⟨_, Prod.ext hstatus rfl⟩

theorem authLibInitialize_shown {ssl : Phase → OpenSsl P X} {m m' : Machine}
    {db dbx kek pk : List UInt8} (hm : m.storage.Tidy)
    (h : authLibInitialize ssl m (authFiles db dbx kek pk) = some (.success, m')) : m'.Shown := by
  obtain ⟨m₁, m₂, hmode, hload, hok₃, rfl⟩ := authLibInitialize_success h
  have hkeys := startKeys_isVarKey db dbx kek pk
  have hsupport : signatureSupportKey.IsVarKey := hkeys _ (by simp [startKeys])
  have haudit : auditModeKey.IsVarKey := hkeys _ (by simp [startKeys])
  have hfiles : ∀ a ∈ authFiles db dbx kek pk, a.key.IsVarKey := fun a ha =>
    hkeys _ (List.mem_cons_of_mem _ (List.mem_cons_of_mem _
      (List.mem_append_left _ (List.mem_map_of_mem ha))))
  have htidy : (storageSet m.storage signatureSupportKey (some signatureSupport)
      RT_BS_ATTRS).2.Tidy := by
    obtain ⟨K, hK⟩ := hsupport
    exact (hK ▸ Write.set _ _ : Write K.key m.storage _).tidy hm
  have h₁ : m₁.Shown := by
    have hshown := updatePlatformMode_shown (m := { m with storage := (storageSet m.storage
      signatureSupportKey (some signatureSupport) RT_BS_ATTRS).2 }) htidy (congrArg Prod.fst hmode)
    rwa [hmode] at hshown
  have h₂ := loadAuthFiles_shown hfiles (authFiles_not_same db dbx kek pk) hload h₁
  have h₃ : (userModeIfPk m₂).2.Shown := by
    unfold userModeIfPk
    split
    · exact (h₂.update .user).2
    · exact h₂
  have heff : Effect auditModeKey (userModeIfPk m₂).2 { (userModeIfPk m₂).2 with
      storage := (storageSet (userModeIfPk m₂).2.storage auditModeKey (some [0]) RT_BS_ATTRS).2 } :=
    ⟨.single (k := auditModeKey) rfl (.set _ _), rfl, rfl⟩
  exact heff.shown haudit auditModeKey_not_same h₃

/-- The keys that start-up writes behind SignatureSupport. -/
def OtherStartKey (db dbx kek pk : List UInt8) (k : Key) : Prop :=
  k ∈ auditModeKey :: ((authFiles db dbx kek pk).map AuthData.key ++ modeKeys)

theorem otherStartKey_spares (db dbx kek pk : List UInt8) :
    ∀ k, OtherStartKey db dbx kek pk k → k.Spares signatureSupportKey := by
  have hclean : signatureSupportKey.Clean := roKeys_clean _ (by decide +kernel)
  have hne : ∀ k ∈ auditModeKey :: ([dbKey, dbxKey, kekKey, pkKey] ++ modeKeys),
      ¬ k.Same signatureSupportKey := by
    decide +kernel
  intro k hk
  obtain ⟨K, rfl⟩ := startKeys_isVarKey db dbx kek pk k (List.mem_cons_of_mem _ hk)
  exact K.clean.spares hclean (hne _ hk)

theorem authLibInitialize_fixed {ssl : Phase → OpenSsl P X} {m m' : Machine}
    {db dbx kek pk : List UInt8}
    (h : authLibInitialize ssl m (authFiles db dbx kek pk) = some (.success, m')) :
    view m'.storage signatureSupportKey = some (RT_BS_ATTRS, signatureSupport) ∧
      view m'.storage auditModeKey = some (RT_BS_ATTRS, [0]) := by
  obtain ⟨hsupport, s, haudit⟩ := authLibInitialize_ends h
  have hro := roKeys_clean
  have hkeys : signatureSupportKey ∈ roKeys ∧ auditModeKey ∈ roKeys := by decide +kernel
  constructor
  · have hfirst := storageSet_view (hro _ hkeys.1) (by rfl) (by decide) hsupport
    obtain ⟨m₁, m₂, hmode, hload, -, rfl⟩ := authLibInitialize_success h
    obtain rfl := congrArg Prod.snd hmode
    -- everything behind the first write is under other keys
    have hupdate : ∀ m₃ mode, Writes (OtherStartKey db dbx kek pk) m₃.storage
        (updatePlatformMode m₃ mode).2.storage :=
      fun m₃ mode => (updatePlatformMode_writes m₃ mode).mono
        (fun k hk => List.mem_cons_of_mem _ (List.mem_append_right _ hk))
    have hfiles : Writes (OtherStartKey db dbx kek pk) _ m₂.storage :=
      (loadAuthFiles_writes hload).mono
        (fun k hk => List.mem_cons_of_mem _ (List.mem_append.mpr hk))
    have huser : Writes (OtherStartKey db dbx kek pk) m₂.storage (userModeIfPk m₂).2.storage := by
      unfold userModeIfPk
      split
      · exact hupdate m₂ .user
      · exact .refl _
    have hlast : Writes (OtherStartKey db dbx kek pk) (userModeIfPk m₂).2.storage
        (storageSet (userModeIfPk m₂).2.storage auditModeKey (some [0]) RT_BS_ATTRS).2 :=
      .single (k := auditModeKey) List.mem_cons_self (.set _ _)
    have hall := (hupdate { m with storage := (storageSet m.storage signatureSupportKey
      (some signatureSupport) RT_BS_ATTRS).2 } .setup).trans (hfiles.trans (huser.trans hlast))
    rw [view, hall.find_eq (otherStartKey_spares db dbx kek pk)]
    exact hfirst
  · have hview := storageSet_view (hro _ hkeys.2) (asksRemoval_mode 0) (by decide)
      (congrArg Prod.fst haudit)
    rwa [haudit] at hview

/-! ## Runs -/

/-- The read-only variables and what they hold, in a mode. -/
def roValues (secureBootEnabled : Bool) (mode : PlatformMode) : List (Key × List UInt8) :=
  (signatureSupportKey, signatureSupport) :: (auditModeKey, [0]) ::
    (modeVariables secureBootEnabled mode).map (fun kv => (kv.1, [kv.2]))

theorem NulFree.not_shadowsRo {req : SetRequest} (h : NulFree req.name) : ¬ req.ShadowsRo := by
  rintro ⟨-, str, hstr, hname⟩
  have heven : str.length % 2 = 0 := (roNames_nulFree str hstr).1.2.1
  have hlen : req.name.length = str.length + 2 := by rw [hname]; simp
  refine h.2.2 (str.length / 2) (by omega) ?_
  rw [hname, unitAt_append_right heven (by omega), Nat.sub_self]
  rfl

theorem Run.shown {m m' : Machine} {rs : List (Request P X)} (hrun : Run Step m rs m')
    (hnames : ∀ r ∈ rs, NulFree r.set.name) (hm : m.Shown) : m'.Shown :=
  (hrun.restrict hnames).invariant (fun _ _ _ h => h.1.shown h.2) hm

/-- After a successful start-up from a store with names without NUL units, and any requests
with such names: the five read-only variables are there, and hold what the mode is, which is
that of this start of the program where it is `secure_boot_enabled`. -/
theorem readOnly_shown {ssl : Phase → OpenSsl P X} {m₀ m m' : Machine}
    {db dbx kek pk : List UInt8} {rs : List (Request P X)} (htidy : m₀.storage.Tidy)
    (hinit : authLibInitialize ssl m₀ (authFiles db dbx kek pk) = some (.success, m))
    (hrun : Run Step m rs m') (hnames : ∀ r ∈ rs, NulFree r.set.name) :
    m'.secureBootEnabled = m.secureBootEnabled ∧
      ∀ kv ∈ roValues m'.secureBootEnabled m'.setupMode,
        view m'.storage kv.1 = some (RT_BS_ATTRS, kv.2) := by
  have hshown := Run.shown hrun hnames (authLibInitialize_shown htidy hinit)
  have hfixed : ∀ K ∈ fixedKeys, view m'.storage K = view m.storage K := by
    intro K hK
    refine (hrun.restrict hnames).invariant (I := fun m₁ => view m₁.storage K = view m.storage K)
      ?_ rfl
    intro m₁ r m₂ hstep hview
    exact ((hstep.1.changedByMode hstep.2.not_shadowsRo).fixed hK).trans hview
  obtain ⟨hsupport, haudit⟩ := authLibInitialize_fixed hinit
  refine ⟨hrun.invariant (I := fun m₁ => m₁.secureBootEnabled = m.secureBootEnabled)
    (fun _ _ _ h hm => h.secureBootEnabled.trans hm) rfl, ?_⟩
  intro kv hkv
  simp only [roValues, List.mem_cons, List.mem_map] at hkv
  rcases hkv with rfl | rfl | ⟨kv, hkv, rfl⟩
  · exact (hfixed _ (by simp [fixedKeys])).trans hsupport
  · exact (hfixed _ (by simp [fixedKeys])).trans haudit
  · exact hshown.modes kv hkv

/-- After the enrolment of PK. -/
theorem readOnly_shown_enrolPk : ∃ m m',
    authLibInitialize (fun _ => OpenSsl.accepting) freshMachine (authFiles [] [] [] []) =
      some (.success, m) ∧ Run Step m [enrolPk .accepting] m' ∧ m'.setupMode = .user ∧
    view m'.storage secureBootKey = some (RT_BS_ATTRS, [1]) := by
  have hrun : ((authLibInitialize (fun _ => OpenSsl.accepting) freshMachine
      (authFiles [] [] [] [])).bind (fun r =>
        (handleSetVariable (fun _ => OpenSsl.accepting) r.2 (enrolPk .accepting).set).map
          (fun r' => (r.1, r'.2.setupMode, r'.2.secureBootEnabled)))) =
      some (.success, .user, true) := by
    decide +kernel
  obtain ⟨⟨_, m⟩, hinit, hrun⟩ := Option.bind_eq_some_iff.mp hrun
  obtain ⟨⟨status, m'⟩, hstep, hr⟩ := Option.map_eq_some_iff.mp hrun
  simp only [Prod.mk.injEq] at hr
  obtain ⟨rfl, hmode, hboot⟩ := hr
  have hrun : Run Step m [enrolPk .accepting] m' := .cons ⟨status, hstep⟩ (.nil m')
  refine ⟨m, m', hinit, hrun, hmode, ?_⟩
  have hshown := (readOnly_shown (Storage.tidy_empty 0) hinit hrun (by decide +kernel)).2
  rw [hmode, hboot] at hshown
  exact hshown (secureBootKey, [1]) (by simp [roValues, modeVariables])

/-! ## Turning secure boot off -/

theorem Storage.Tidy.oneSlot {s : Storage} (h : s.Tidy) {K : Key} (hK : K.Clean) :
    OneSlot K s := by
  intro i j hi hj _
  exact Option.some.inj ((h.keyed.findSlot_eq hK hi).symm.trans (h.keyed.findSlot_eq hK hj))

/-- A request that leaves user mode has deleted PK, and `verify_pk` returned true on it. -/
theorem Step.leaves_userMode {m m' : Machine} {r : Request P X} (h : Step m r m')
    (hname : NulFree r.set.name) (htidy : m.storage.Tidy) (huser : m.setupMode = .user)
    (hsetup : m'.setupMode = .setup) :
    r.set.key = pkKey ∧ r.set.VerifiedBy (r.ssl .verify) m.storage m' .pk ∧
      storageExists m'.storage pkKey = false := by
  obtain ⟨status, h⟩ := h
  cases handleSetVariable_cases h with
  | refused =>
      rw [Machine.opened_setupMode, huser] at hsetup
      cases hsetup
  | plain =>
      rw [Machine.saved_setupMode] at hsetup
      exact absurd (huser.symm.trans hsetup) (by simp)
  | @authenticated o _ _ hl =>
      rw [Machine.saved_setupMode] at hsetup
      rw [Machine.saved_storage]
      have hclass : variableClass r.set.key = .pk := by
        obtain ⟨mid, hmid, hm | ⟨hpk, -⟩⟩ := hl.effect
        · rw [hm, hmid.setupMode, Machine.opened_setupMode, huser] at hsetup
          cases hsetup
        · exact beq_iff_eq.mp hpk
      have hkey := pkKey_of_class hname hclass
      refine ⟨hkey, ?_⟩
      have hp := hl.of_pk hclass
      have hopened : (m.opened r.set).setupMode = .user := huser
      cases hp with
      | wrongAttrs => exact absurd (huser.symm.trans hsetup) (by simp)
      | enrol hs => rw [hopened] at hs; cases hs
      | @user o' del _ _ htb hu _ =>
          rw [if_pos rfl] at hsetup ⊢
          have huser' : o'.machine.setupMode = .user := hu.effect.setupMode.trans huser
          rcases followPk_cases o' del with ho | ⟨hok, mode, hmode, ho⟩
          · rw [ho, huser'] at hsetup
            cases hsetup
          obtain ⟨-, -, rfl⟩ | ⟨-, rfl, rfl⟩ := hmode
          · rw [ho, updatePlatformMode_setupMode] at hsetup
            cases hsetup
          rw [ho]
          constructor
          · obtain ⟨-, -, hfail⟩ | ⟨off, size, msg, time, hacc, hc⟩ := hu.unchanged_or_accepted
            · exact absurd hok hfail
            · exact ⟨off, msg, hacc.described.requestMessage_eq, hacc.verified,
                by rwa [Machine.saved_calls]⟩
          · rw [hkey] at hu
            cases hu.settled pkKey_clean htb with
            | deleted _ _ hi _ hst _ =>
                rw [updatePlatformMode_pk, hst, Machine.opened_storage, storageExists,
                  (htidy.oneSlot pkKey_clean).findSlot_remove pkKey_clean hi]
                rfl

/-- Where SecureBoot is 1, a request after which it is not has deleted PK, `verify_pk` returned
true on its message, and SetupMode is 1 from then on. -/
theorem secureBoot_cleared {ssl : Phase → OpenSsl P X} {m₀ m m₁ m₂ : Machine}
    {db dbx kek pk : List UInt8} {rs : List (Request P X)} {r : Request P X}
    (htidy : m₀.storage.Tidy)
    (hinit : authLibInitialize ssl m₀ (authFiles db dbx kek pk) = some (.success, m))
    (hrun : Run Step m rs m₁) (hnames : ∀ r ∈ rs, NulFree r.set.name) (hstep : Step m₁ r m₂)
    (hname : NulFree r.set.name) (hon : view m₁.storage secureBootKey = some (RT_BS_ATTRS, [1]))
    (hoff : view m₂.storage secureBootKey ≠ some (RT_BS_ATTRS, [1])) :
    r.set.key = pkKey ∧ r.set.VerifiedBy (r.ssl .verify) m₁.storage m₂ .pk ∧
      storageExists m₂.storage pkKey = false ∧
      view m₂.storage setupModeKey = some (RT_BS_ATTRS, [1]) := by
  have h₁ := Run.shown hrun hnames (authLibInitialize_shown htidy hinit)
  have h₂ := hstep.shown hname h₁
  have henabled := hstep.secureBootEnabled
  obtain ⟨huser, hboot⟩ : m₁.setupMode = .user ∧ m₁.secureBootEnabled = true := by
    have hmodes := h₁.modes
    cases hmode : m₁.setupMode with
    | setup =>
        rw [hmode] at hmodes
        have hview := hmodes (secureBootKey, 0) (by simp [modeVariables])
        simp [hon] at hview
    | user =>
        rw [hmode] at hmodes
        refine ⟨rfl, ?_⟩
        cases hb : m₁.secureBootEnabled with
        | true => rfl
        | false =>
            rw [hb] at hmodes
            have hview := hmodes (secureBootKey, 0) (by simp [modeVariables])
            simp [hon] at hview
  have hsetup : m₂.setupMode = .setup := by
    cases hmode : m₂.setupMode with
    | setup => rfl
    | user =>
        have hmodes := h₂.modes
        rw [hmode, henabled, hboot] at hmodes
        exact absurd (hmodes (secureBootKey, 1) (by simp [modeVariables])) hoff
  obtain ⟨hkey, hverified, hgone⟩ := hstep.leaves_userMode hname h₁.tidy huser hsetup
  refine ⟨hkey, hverified, hgone, ?_⟩
  have hmodes := h₂.modes
  rw [hsetup] at hmodes
  exact hmodes (setupModeKey, 1) (by simp [modeVariables])

end

/-- The request to delete PK: a signed descriptor with nothing behind it. -/
def deletePk : Request Unit Unit where
  ssl := fun _ => .accepting
  set := authRequest EFI_PLATFORM_KEY_NAME gEfiGlobalVariableGuid 2022 AT_ATTRS [] (by decide)

theorem secureBoot_cleared_deletePk : ∃ m m₁ m₂,
    authLibInitialize (fun _ => OpenSsl.accepting) freshMachine (authFiles [] [] [] []) =
      some (.success, m) ∧ Run Step m [enrolPk .accepting] m₁ ∧ Step m₁ deletePk m₂ ∧
    view m₁.storage secureBootKey = some (RT_BS_ATTRS, [1]) ∧
    storageExists m₂.storage pkKey = false := by
  have hrun : ((authLibInitialize (fun _ => OpenSsl.accepting) freshMachine
      (authFiles [] [] [] [])).bind (fun r =>
        (handleSetVariable (fun _ => OpenSsl.accepting) r.2 (enrolPk .accepting).set).bind
          (fun r₁ => (handleSetVariable (fun _ => OpenSsl.accepting) r₁.2 deletePk.set).map
            (fun r₂ => (r.1, view r₁.2.storage secureBootKey, view r₂.2.storage secureBootKey))))) =
      some (.success, some (RT_BS_ATTRS, [1]), some (RT_BS_ATTRS, [0])) := by
    decide +kernel
  obtain ⟨⟨_, m⟩, hinit, hrun⟩ := Option.bind_eq_some_iff.mp hrun
  obtain ⟨⟨status₁, m₁⟩, hstep₁, hrun⟩ := Option.bind_eq_some_iff.mp hrun
  obtain ⟨⟨status₂, m₂⟩, hstep₂, hr⟩ := Option.map_eq_some_iff.mp hrun
  simp only [Prod.mk.injEq] at hr
  obtain ⟨rfl, hon, hoff⟩ := hr
  have hrun : Run Step m [enrolPk .accepting] m₁ := .cons ⟨status₁, hstep₁⟩ (.nil m₁)
  have hstep : Step m₁ deletePk m₂ := ⟨status₂, hstep₂⟩
  exact ⟨m, m₁, m₂, hinit, hrun, hstep, hon, (secureBoot_cleared (Storage.tidy_empty 0) hinit hrun
    (by decide +kernel) hstep (by decide +kernel) hon (by rw [hoff]; decide)).2.2.1⟩

end Uefistored
