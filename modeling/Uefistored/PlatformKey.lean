/-
# `Uefistored.PlatformKey` — PK and the platform mode

The mode follows the key: enrolling PK enters user mode and deleting it goes
back to setup mode.  The two are separate writes, with ways to fail in between.
One of them is open: in setup mode PK is stored first, and when the signer's
digest cannot be computed the request ends with an error and the mode is not
touched, so there is a PK in setup mode (`enrolled_in_setupMode`).

Where the digest of every enrolment can be computed, and the store that was
loaded holds PK in one slot at most, the two agree in every state
(`pk_iff_userMode`).  The invariant is `PkMode`; it holds at the end of a
successful start-up and every request keeps it.
-/
import Uefistored.SecureBoot
import Uefistored.Written

namespace Uefistored

open Lib

/-! ## At most one slot -/

/-- At most one slot is accepted by a look-up of `K`. -/
def OneSlot (K : Key) (s : Storage) : Prop :=
  Slots.Distinct (fun v : Variable => v.isMatch K = true) (fun _ => ()) s.vars

namespace OneSlot

variable {K : Key} {s s' : Storage} {i : Fin MAX_VAR_COUNT} {v : Variable}

/-- A write that brings no new match. -/
theorem update (h : OneSlot K s) (hs : s'.vars = Function.update s.vars i v)
    (hv : v.isMatch K = true → ∀ j, (s.vars j).isMatch K = true → j = i) : OneSlot K s' := by
  unfold OneSlot
  rw [hs]
  refine Slots.Distinct.update h ?_
  intro hm j hj hocc _
  exact hj (hv hm j hocc)

/-- Writing a slot without touching name and GUID. -/
theorem rewrite (h : OneSlot K s) (hs : s'.vars = Function.update s.vars i v)
    (hv : v.isMatch K = (s.vars i).isMatch K) : OneSlot K s' := by
  refine h.update hs ?_
  intro hm j hj
  exact h j i hj (hv.symm.trans hm) rfl

/-- With one slot at most, destroying it leaves nothing to find. -/
theorem findSlot_remove (h : OneSlot K s) (hK : K.Clean) (hi : s.findSlot K = some i) :
    (s.remove i).findSlot K = none := by
  refine Slots.first_eq_none_iff.mpr ?_
  intro j
  show (Function.update s.vars i Variable.zero j).isMatch K = false
  by_cases hj : j = i
  · subst hj
    rw [Function.update_self]
    exact Variable.not_isMatch_of_isFree hK Variable.isFree_zero
  · rw [Function.update_of_ne hj]
    by_contra hm
    rw [Bool.not_eq_false] at hm
    exact hj (h j i hm (Storage.findSlot_isMatch hi) rfl)

end OneSlot

theorem storageSet_oneSlot {K k : Key} (hK : K.Clean) (hk : k.Clean) {s : Storage}
    (h : OneSlot K s) (data : Option (List UInt8)) (attrs : Attrs) :
    OneSlot K (storageSet s k data attrs).2 := by
  have hc := storageSet_cases s k data attrs
  generalize storageSet s k data attrs = r at hc
  obtain ⟨st, s'⟩ := r
  cases hc with
  | refused => exact h
  | removed _ _ =>
      refine h.update rfl ?_
      intro hm
      rw [variableDestroyNoalloc, Variable.not_isMatch_of_isFree hK Variable.isFree_zero] at hm
      cases hm
  | replaced _ _ _ _ _ hi _ =>
      rw [Variable.named_self hk (Storage.findSlot_isMatch hi)]
      exact h.rewrite rfl rfl
  | renamed _ _ _ hi =>
      rw [Variable.named_self hk (Storage.findSlot_isMatch hi)]
      exact h.rewrite rfl rfl
  | @created i d _ _ _ _ _ hnone _ =>
      refine h.update rfl ?_
      intro hm j hj
      -- a slot of `K` would have been found under `k`
      have hmk := Variable.isMatch_created hk (s.vars i) (s.below i) d attrs.withoutAppend
      obtain ⟨h1, h2, h3⟩ := Variable.same_of_isMatch hmk hm
      have hjk : (s.vars j).isMatch k = true := by
        rw [Variable.isMatch_iff] at hj ⊢
        rwa [h1, h2, h3]
      rw [Slots.first_eq_none_iff.mp hnone j] at hjk
      cases hjk

theorem Writes.oneSlot {S : Key → Prop} {K : Key} (hK : K.Clean) (hS : ∀ k, S k → k.Clean)
    {s s' : Storage} (h : Writes S s s') (hs : OneSlot K s) : OneSlot K s' := by
  refine h.invariant ?_ hs
  intro k s₁ s₂ hk hw h₁
  cases hw with
  | set data attrs => exact storageSet_oneSlot hK (hS k hk) h₁ data attrs
  | mark time cert _ => exact h₁.rewrite rfl rfl

/-! ## The invariant -/

theorem pkKey_clean : pkKey.Clean := secureBootKeys_clean pkKey (by simp [secureBootKeys])

theorem modeKeys_not_pk : ∀ k ∈ modeKeys, ¬ k.Same pkKey := by
  intro k hk
  exact modeKeys_not_secureBoot k hk pkKey (by simp [secureBootKeys])

theorem storageExists_eq (s : Storage) (K : Key) :
    storageExists s K = (storageFindVariable s K).isSome := by
  rw [storageExists, storageFindVariable, Slots.lookup, Option.isSome_map]
  rfl

example : storageExists (.empty 0) pkKey = false := by
  decide +kernel

theorem storageExists_of_find {s s' : Storage} {K : Key}
    (h : storageFindVariable s' K = storageFindVariable s K) :
    storageExists s' K = storageExists s K := by
  rw [storageExists_eq, storageExists_eq, h]

theorem updatePlatformMode_pk (m : Machine) (mode : PlatformMode) :
    storageExists (updatePlatformMode m mode).2.storage pkKey = storageExists m.storage pkKey :=
  storageExists_of_find (updatePlatformMode_find_eq pkKey_clean modeKeys_not_pk m mode)

/-- There is a PK exactly in user mode, and one at most. -/
structure PkMode (m : Machine) : Prop where
  one : OneSlot pkKey m.storage
  mode : storageExists m.storage pkKey = true ↔ m.setupMode = .user

/-- Writes for another variable. -/
theorem Effect.pk_spared {k : Key} (hk : k.Clean) (hne : ¬ k.Same pkKey) {m m' : Machine}
    (h : Effect k m m') : (OneSlot pkKey m.storage → OneSlot pkKey m'.storage) ∧
      storageExists m'.storage pkKey = storageExists m.storage pkKey := by
  constructor
  · exact h.writes.oneSlot pkKey_clean (by rintro _ rfl; exact hk)
  · refine storageExists_of_find (h.writes.find_eq ?_)
    rintro _ rfl
    exact hk.spares pkKey_clean hne

/-! ## The end of `process_var_with_pk` -/

theorem followPk_failed {o : Outcome} (del : Bool) (h : o.status ≠ .success) :
    followPk o del = o := by
  simp [followPk, h]

theorem followPk_enrolled {o : Outcome} (h : o.status = .success)
    (hm : o.machine.setupMode = .setup) :
    (followPk o false).machine = (updatePlatformMode o.machine .user).2 := by
  simp [followPk, h, hm]

theorem followPk_updated {o : Outcome} (hm : o.machine.setupMode = .user) :
    followPk o false = o := by
  simp [followPk, hm]

theorem followPk_deleted {o : Outcome} (h : o.status = .success)
    (hm : o.machine.setupMode = .user) :
    (followPk o true).machine = (updatePlatformMode o.machine .setup).2 := by
  simp [followPk, h, hm]

section
variable {P X : Type}

/-- A request for PK keeps the invariant: a failed digest after an enrolment in setup mode
is excluded, by assumption or by a status of success. -/
theorem PkResult.pkMode {ssl : Phase → OpenSsl P X} {m : Machine} {data : Buffer}
    {dataSize : Nat} {attrs : Attrs} {o : Outcome} (hm : PkMode m)
    (hd : m.setupMode = .setup →
      (∀ st, sha256FromAuth (ssl .digest) data ≠ some (.error st)) ∨ o.status = .success)
    (h : PkResult ssl m pkKey data dataSize attrs true o) : PkMode o.machine := by
  have hone : OneSlot pkKey o.machine.storage := by
    refine h.effect.writes.oneSlot pkKey_clean ?_ hm.one
    rintro k (rfl | hk)
    · exact pkKey_clean
    · exact modeKeys_clean k hk
  -- a slot that was written is found again
  have hwrote : ∀ {s s' : Storage} {attrs time i}, Wrote s pkKey attrs time i s' →
      storageExists s' pkKey = true := by
    intro s s' attrs time i hw
    rw [storageExists, hw.findSlot pkKey_clean]
    rfl
  refine ⟨hone, ?_⟩
  cases h with
  | wrongAttrs => exact hm.mode
  | @enrol o' del hs htb hu =>
      have hmode' : o'.machine.setupMode = .setup := hu.effect.setupMode.trans hs
      have hnone : m.storage.findSlot pkKey = none := by
        have hex : storageExists m.storage pkKey ≠ true := by rw [ne_eq, hm.mode, hs]; simp
        simpa [storageExists] using hex
      cases hu.settled pkKey_clean htb with
      | unchanged hfail hst _ =>
          rw [followPk_failed _ hfail, hst, hu.effect.setupMode]
          exact hm.mode
      | deleted _ _ hi => rw [hnone] at hi; cases hi
      | undigested _ _ hfail _ hdata hsha =>
          rcases hd hs with hdigest | hok
          · rcases hdata with hdata | ⟨v, hv, _⟩
            · rw [hdata] at hsha
              exact absurd hsha (hdigest _)
            · rw [storageFindVariable_eq_none.mpr hnone] at hv
              cases hv
          · rw [followPk_failed _ hfail] at hok
            exact absurd hok hfail
      | recorded _ hw hok _ _ hst =>
          rw [followPk_enrolled hok hmode', updatePlatformMode_pk, updatePlatformMode_setupMode,
            hst, storageExists, Storage.findSlot_mark _ _ (Storage.vars _ _).timestamp,
            hw.findSlot pkKey_clean]
          simp
  | @user o' del _ hs htb hu =>
      have hmode' : o'.machine.setupMode = .user := hu.effect.setupMode.trans hs
      rw [if_pos rfl] at hone ⊢
      cases hu.settled pkKey_clean htb with
      | unchanged hfail hst _ =>
          rw [followPk_failed _ hfail, hst, hu.effect.setupMode]
          exact hm.mode
      | deleted _ _ hi hok hst _ =>
          rw [followPk_deleted hok hmode', updatePlatformMode_pk, updatePlatformMode_setupMode,
            hst, storageExists, hm.one.findSlot_remove pkKey_clean hi]
          simp
      | undigested _ hw hfail _ _ _ =>
          rw [followPk_failed _ hfail, hwrote hw, hmode']
          simp
      | recorded _ hw _ _ _ hst =>
          rw [followPk_updated hmode', hst, storageExists,
            Storage.findSlot_mark _ _ (Storage.vars _ _).timestamp, hw.findSlot pkKey_clean, hmode']
          simp

/-! ## Requests -/

/-- PK by its name. -/
theorem pkKey_of_class {req : SetRequest} (hname : NulFree req.name)
    (h : variableClass req.key = .pk) : req.key = pkKey := by
  have hmem := SetRequest.key_mem_of_class hname (by rw [h]; simp)
  rcases secureBootKeys_class req.key hmem with ⟨_, hkey⟩ | ⟨hc, _⟩ | ⟨hc, _⟩
  · exact hkey
  · rw [h] at hc; cases hc
  · rw [h] at hc; cases hc

/-- One request with a NUL-free name; an enrolment of PK in setup mode has a signer whose
digest can be computed. -/
structure EnrolStep (m : Machine) (r : Request P X) (m' : Machine) : Prop where
  step : Step m r m'
  name : NulFree r.set.name
  digest : m.setupMode = .setup → r.set.key = pkKey →
    ∀ st, sha256FromAuth (r.ssl .digest) r.set.buffer ≠ some (.error st)

theorem EnrolStep.pkMode {m m' : Machine} {r : Request P X} (h : EnrolStep m r m')
    (hm : PkMode m) : PkMode m' := by
  obtain ⟨⟨status, hstep⟩, hname, hdigest⟩ := h
  by_cases hkey : r.set.key = pkKey
  · cases handleSetVariable_cases hstep with
    | refused => exact ⟨hm.one, hm.mode⟩
    | plain _ _ hsb =>
        rw [hkey, secureBootKeys_dispatched pkKey (by simp [secureBootKeys])] at hsb
        cases hsb
    | @authenticated o _ _ hl =>
        have hclass : variableClass r.set.key = .pk := by rw [hkey]; decide +kernel
        have hpk : PkMode o.machine := by
          have hp := hl.of_pk hclass
          rw [hkey] at hp
          exact hp.pkMode (m := m.opened r.set) ⟨hm.one, hm.mode⟩
            (fun hs => .inl (hdigest hs hkey))
        exact ⟨by rw [Machine.saved_storage]; exact hpk.one,
          by rw [Machine.saved_storage, Machine.saved_setupMode]; exact hpk.mode⟩
  · obtain ⟨mid, hmid, hm'⟩ := handleSetVariable_effect hstep
    have hne : ¬ r.set.key.Same pkKey := by
      intro hsame
      exact hkey (key_eq_of_same (by simp [secureBootKeys]) hsame)
    obtain ⟨hone, hex⟩ := hmid.pk_spared (SetRequest.key_clean hname) hne
    rcases hm' with ⟨hst, hmode⟩ | ⟨hclass, _⟩
    · exact ⟨by rw [hst]; exact hone hm.one, by rw [hst, hmode, hex, hmid.setupMode]; exact hm.mode⟩
    · exact absurd (pkKey_of_class hname hclass) hkey

/-! ## Start-up -/

/-- The invariant of start-up, where PK may be there before the mode follows it. -/
structure Starting (m : Machine) : Prop where
  one : OneSlot pkKey m.storage
  mode : m.setupMode = .user → storageExists m.storage pkKey = true

/-- The keys of the files are those of PK and of variables that are not PK. -/
def StartKey (k : Key) : Prop := k = pkKey ∨ k.Clean ∧ ¬ k.Same pkKey ∧ variableClass k ≠ .pk

theorem LibResult.starting {ssl : Phase → OpenSsl P X} {m : Machine} {k : Key} {data : Buffer}
    {dataSize : Nat} {attrs : Attrs} {o : Outcome} (hk : StartKey k) (hm : Starting m)
    (hex : storageExists m.storage k = false) (hok : o.status = .success)
    (h : LibResult ssl m k data dataSize attrs o) : Starting o.machine := by
  rcases hk with rfl | ⟨hk, hne, hclass⟩
  · have hsetup : m.setupMode = .setup := by
      cases hmode : m.setupMode with
      | setup => rfl
      | user => rw [hm.mode hmode] at hex; cases hex
    have hpkm : PkMode m := ⟨hm.one, by rw [hex, hsetup]; simp⟩
    have hclass : variableClass pkKey = .pk := by decide +kernel
    have hpk := (h.of_pk hclass).pkMode hpkm (fun _ => .inr hok)
    exact ⟨hpk.one, hpk.mode.mpr⟩
  · obtain ⟨mid, hmid, rfl | ⟨hpk, _⟩⟩ := h.effect
    · obtain ⟨hone, hex'⟩ := hmid.pk_spared hk hne
      refine ⟨hone hm.one, ?_⟩
      rw [hmid.setupMode, hex']
      exact hm.mode
    · exact absurd (by simpa using hpk) hclass

theorem loadAuthFiles_starting {ssl : Phase → OpenSsl P X} : ∀ {auths : List AuthData}
    {m m' : Machine}, (∀ a ∈ auths, StartKey a.key) →
    loadAuthFiles ssl m auths = some (.success, m') → Starting m → Starting m'
  | [], _, _, _, h, hm => by
      cases h
      exact hm
  | auth :: rest, m, m', hkeys, h, hm => by
      have hrest : ∀ a ∈ rest, StartKey a.key := by
        intro a ha
        exact hkeys a (List.mem_cons_of_mem _ ha)
      unfold loadAuthFiles at h
      split at h
      · exact loadAuthFiles_starting hrest h hm
      · rename_i hcond
        obtain ⟨o, ho, h⟩ := Option.bind_eq_some_iff.mp h
        split at h
        · rename_i hfail
          exact absurd (congrArg Prod.fst (Option.some.inj h)) hfail
        · rename_i hok
          rw [not_not] at hok
          have hex : storageExists m.storage auth.key = false := by
            simp only [Bool.or_eq_true, not_or, Bool.not_eq_true] at hcond
            exact hcond.1
          exact loadAuthFiles_starting hrest h ((authLibProcessVariable_cases ho).starting
            (hkeys auth List.mem_cons_self) hm hex hok)

theorem authFiles_startKey (db dbx kek pk : List UInt8) :
    ∀ a ∈ authFiles db dbx kek pk, StartKey a.key := by
  have hother : ∀ k ∈ [dbKey, dbxKey, kekKey],
      k.Clean ∧ ¬ k.Same pkKey ∧ variableClass k ≠ .pk := by
    decide +kernel
  intro a ha
  simp only [authFiles, List.mem_cons, List.not_mem_nil, or_false] at ha
  rcases ha with rfl | rfl | rfl | rfl
  · exact .inr (hother _ (by simp))
  · exact .inr (hother _ (by simp))
  · exact .inr (hother _ (by simp))
  · exact .inl rfl

theorem userModeIfPk_pkMode {m : Machine} (hm : Starting m) : PkMode (userModeIfPk m).2 := by
  unfold userModeIfPk
  split
  · rename_i hex
    refine ⟨?_, ?_⟩
    · exact (updatePlatformMode_writes m .user).oneSlot pkKey_clean modeKeys_clean hm.one
    · rw [updatePlatformMode_pk, updatePlatformMode_setupMode, hex]
      simp
  · rename_i hex
    refine ⟨hm.one, ?_⟩
    constructor
    · intro h
      exact absurd h hex
    · exact hm.mode

/-- A `storage_set` of another variable. -/
theorem PkMode.storageSet {m : Machine} (hm : PkMode m) {k : Key} (hk : k.Clean)
    (hne : ¬ k.Same pkKey) (data : Option (List UInt8)) (attrs : Attrs) :
    PkMode { m with storage := (Uefistored.storageSet m.storage k data attrs).2 } := by
  have heff : Effect k m { m with storage := (Uefistored.storageSet m.storage k data attrs).2 } :=
    ⟨.single (k := k) rfl (.set data attrs), rfl, rfl⟩
  obtain ⟨hone, hex⟩ := heff.pk_spared hk hne
  exact ⟨hone hm.one, by rw [hex]; exact hm.mode⟩

/-- At the end of a successful start-up, from a store with one PK at most. -/
theorem authLibInitialize_pkMode {ssl : Phase → OpenSsl P X} {m m' : Machine}
    {db dbx kek pk : List UInt8} (hone : OneSlot pkKey m.storage)
    (h : authLibInitialize ssl m (authFiles db dbx kek pk) = some (.success, m')) :
    PkMode m' := by
  have hkeys : signatureSupportKey.Clean ∧ auditModeKey.Clean ∧ ¬ auditModeKey.Same pkKey := by
    decide +kernel
  obtain ⟨m₁, m₂, hmode, hload, _, rfl⟩ := authLibInitialize_success h
  obtain rfl := congrArg Prod.snd hmode
  have hstart : Starting m₂ := by
    refine loadAuthFiles_starting (authFiles_startKey db dbx kek pk) hload ⟨?_, ?_⟩
    · exact (updatePlatformMode_writes _ _).oneSlot pkKey_clean modeKeys_clean
        (storageSet_oneSlot pkKey_clean hkeys.1 hone _ _)
    · rw [updatePlatformMode_setupMode]
      intro hmode
      cases hmode
  exact (userModeIfPk_pkMode hstart).storageSet hkeys.2.1 hkeys.2.2 _ _

/-- After a successful start-up from a store with one PK at most, and any requests with
NUL-free names whose enrolments of PK have a signer that can be digested: PK exists exactly
in user mode. -/
theorem pk_iff_userMode {ssl : Phase → OpenSsl P X} {m₀ m m' : Machine}
    {db dbx kek pk : List UInt8} {rs : List (Request P X)} (hone : OneSlot pkKey m₀.storage)
    (hinit : authLibInitialize ssl m₀ (authFiles db dbx kek pk) = some (.success, m))
    (hrun : Run EnrolStep m rs m') :
    storageExists m'.storage pkKey = true ↔ m'.setupMode = .user := by
  have hstart := authLibInitialize_pkMode hone hinit
  have hend : PkMode m' := hrun.invariant (fun _ _ _ hstep hm => hstep.pkMode hm) hstart
  exact hend.mode

end

/-- The request to enrol PK, with the answers of OpenSSL. -/
def enrolPk (ssl : OpenSsl Unit Unit) : Request Unit Unit where
  ssl := fun _ => ssl
  set := authRequest EFI_PLATFORM_KEY_NAME gEfiGlobalVariableGuid 2021 AT_ATTRS oneCertList
    (by decide)

theorem pk_iff_userMode_enrolPk : ∃ m m',
    authLibInitialize (fun _ => OpenSsl.accepting) freshMachine (authFiles [] [] [] []) =
      some (.success, m) ∧
    Run EnrolStep m [enrolPk .accepting] m' ∧
    m'.setupMode = .user ∧ storageExists m'.storage pkKey = true := by
  have hrun : ((authLibInitialize (fun _ => OpenSsl.accepting) freshMachine
      (authFiles [] [] [] [])).bind (fun r =>
        (handleSetVariable (fun _ => OpenSsl.accepting) r.2 (enrolPk .accepting).set).map
          (fun r' => (r.1, r'.2.setupMode)))) = some (.success, .user) := by
    decide +kernel
  have hdigest : (sha256FromAuth OpenSsl.accepting (enrolPk .accepting).set.buffer).map
      Except.isOk = some true := by
    decide +kernel
  obtain ⟨⟨_, m⟩, hinit, hrun⟩ := Option.bind_eq_some_iff.mp hrun
  obtain ⟨⟨status, m'⟩, hstep, hr⟩ := Option.map_eq_some_iff.mp hrun
  obtain ⟨rfl, hmode⟩ := Prod.mk.inj hr
  have henrol : EnrolStep m (enrolPk .accepting) m' := by
    refine ⟨⟨status, hstep⟩, by decide +kernel, ?_⟩
    intro _ _ st hsha
    rw [show sha256FromAuth OpenSsl.accepting (enrolPk .accepting).set.buffer =
      some (.error st) from hsha] at hdigest
    cases hdigest
  have hrun := Run.cons henrol (.nil m')
  refine ⟨m, m', hinit, hrun, hmode, (pk_iff_userMode ?_ hinit hrun).mpr hmode⟩
  intro i j hi
  rw [show (freshMachine.storage.vars i).isMatch pkKey = false from
    Variable.not_isMatch_of_isFree pkKey_clean Variable.isFree_zero] at hi
  cases hi

/-- A signer without a common name, for which no digest is computed. -/
def OpenSsl.nameless : OpenSsl Unit Unit := { OpenSsl.accepting with commonName := fun _ => none }

/-- PK signed by such a signer: the request fails, and there is a PK in setup mode. -/
theorem enrolled_in_setupMode : ∃ m m',
    authLibInitialize (fun _ => OpenSsl.accepting) freshMachine (authFiles [] [] [] []) =
      some (.success, m) ∧
    handleSetVariable (fun _ => OpenSsl.nameless) m (enrolPk .nameless).set =
      some (.securityViolation, m') ∧
    storageExists m'.storage pkKey = true ∧ m'.setupMode = .setup := by
  have hrun : ((authLibInitialize (fun _ => OpenSsl.accepting) freshMachine
      (authFiles [] [] [] [])).bind (fun r =>
        (handleSetVariable (fun _ => OpenSsl.nameless) r.2 (enrolPk .nameless).set).map
          (fun r' => (r.1, r'.1, storageExists r'.2.storage pkKey, r'.2.setupMode)))) =
      some (.success, .securityViolation, true, .setup) := by
    decide +kernel
  obtain ⟨⟨_, m⟩, hinit, hrun⟩ := Option.bind_eq_some_iff.mp hrun
  obtain ⟨⟨_, m'⟩, hstep, hr⟩ := Option.map_eq_some_iff.mp hrun
  simp only [Prod.mk.injEq] at hr
  obtain ⟨rfl, rfl, hex, hmode⟩ := hr
  exact ⟨m, m', hinit, hstep, hex, hmode⟩

end Uefistored
