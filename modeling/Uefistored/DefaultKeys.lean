/-
# `Uefistored.DefaultKeys` — the keys that start-up finds on disk

`auth_lib_load` reads the key files, and does not read PK when KEK could not be
loaded; `load_auth_files` enrols what was read.  A PK without a KEK would turn
secure boot on and leave nobody who may change db and dbx.

What start-up leaves of a key is plain (`loadAuthFiles_exists`): it is there if
it was there before or its entry has data.  The two passes do not agree on when
there is a KEK, though.  The first asks whether the file could be read, the
second whether it holds anything, and an empty file is between the two
(`kek_with_pk_iff`).
-/
import Uefistored.PlatformKey

namespace Uefistored

open Lib

section
variable {P X : Type}

/-! ## One key -/

theorem Wrote.exists {s s' : Storage} {k : Key} {attrs : Attrs} {time : EfiTime}
    {i : Fin MAX_VAR_COUNT} (hk : k.Clean) (h : Wrote s k attrs time i s') :
    storageExists s' k = true := by
  rw [storageExists, h.findSlot hk]
  rfl

section
variable {ssl : Phase → OpenSsl P X} {m : Machine} {k : Key} {data : Buffer} {dataSize : Nat}
  {attrs : Attrs} {o : Outcome}

/-- A verified update that succeeds puts a variable there that was not. -/
theorem UpdateResult.puts {kind : AuthVarType} {del : Bool} (hk : k.Clean)
    (htb : attrs.timeBased = true) (hnone : m.storage.findSlot k = none)
    (hok : o.status = .success) (h : UpdateResult ssl m k data dataSize attrs kind o del) :
    storageExists o.machine.storage k = true := by
  cases h.settled hk htb with
  | unchanged hfail => exact absurd hok hfail
  | deleted _ _ hi => rw [hnone] at hi; cases hi
  | undigested _ _ hfail => exact absurd hok hfail
  | recorded _ hw _ _ _ hst =>
      rw [hst, storageExists, Storage.findSlot_mark _ _ (Storage.vars _ _).timestamp,
        hw.findSlot hk]
      rfl

theorem updateInSetupMode_puts (hk : k.Clean) (htb : attrs.timeBased = true)
    (hnone : m.storage.findSlot k = none) (hok : o.status = .success)
    (h : updateInSetupMode (ssl .verify) m k data dataSize attrs = some o) :
    storageExists o.machine.storage k = true := by
  rcases updateInSetupMode_cases h with
    ⟨hfail, _⟩ | ⟨off, time, status, s, data', _, _, hstore, rfl⟩
  · exact absurd hok hfail
  · obtain rfl : status = .success := hok
    rcases hstore.wrote hk htb with ⟨_, _, hfail⟩ | ⟨_, _, _, _, i, hi, _⟩ | ⟨_, _, i, hw⟩
    · exact absurd rfl hfail
    · rw [hnone] at hi
      cases hi
    · exact hw.exists hk

/-- The mode that follows PK is kept in other variables. -/
theorem followPk_exists {del : Bool} (hk : k.Clean) (hne : ∀ K ∈ modeKeys, ¬ K.Same k) :
    storageExists (followPk o del).machine.storage k = storageExists o.machine.storage k := by
  rcases followPk_cases o del with heq | ⟨_, mode, _, heq⟩
  · rw [heq]
  · rw [heq]
    exact storageExists_of_find (updatePlatformMode_find_eq hk hne o.machine mode)

theorem followPk_success {del : Bool} (h : (followPk o del).status = .success) :
    o.status = .success := by
  rcases followPk_cases o del with heq | ⟨hok, _⟩
  · rw [heq] at h
    exact h
  · exact hok

theorem PkResult.puts {isPk : Bool} (hk : k.Clean) (hne : ∀ K ∈ modeKeys, ¬ K.Same k)
    (hnone : m.storage.findSlot k = none) (hok : o.status = .success)
    (h : PkResult ssl m k data dataSize attrs isPk o) :
    storageExists o.machine.storage k = true := by
  cases h with
  | wrongAttrs => cases hok
  | setup _ htb hu => exact updateInSetupMode_puts hk htb hnone hok hu
  | enrol _ htb hu =>
      rw [followPk_exists hk hne]
      exact hu.puts hk htb hnone (followPk_success hok)
  | user _ htb hu =>
      cases isPk with
      | true =>
          show storageExists (followPk _ _).machine.storage k = true
          rw [followPk_exists hk hne]
          exact hu.puts hk htb hnone (followPk_success hok)
      | false => exact hu.puts hk htb hnone hok

end

/-! ## The files -/

/-- PK and KEK, the keys of the rule. -/
structure RuleKey (K : Key) : Prop where
  clean : K.Clean
  modes : ∀ k ∈ modeKeys, ¬ k.Same K
  support : ¬ signatureSupportKey.Same K
  audit : ¬ auditModeKey.Same K
  class_eq : variableClass K = .pk ∨ variableClass K = .kek

theorem ruleKey_pk : RuleKey pkKey := by
  refine ⟨pkKey_clean, modeKeys_not_pk, ?_, ?_, ?_⟩
  · decide +kernel
  · decide +kernel
  · decide +kernel

theorem ruleKey_kek : RuleKey kekKey := by
  refine ⟨secureBootKeys_clean _ (by simp [secureBootKeys]), ?_, ?_, ?_, ?_⟩
  · exact fun k hk => modeKeys_not_secureBoot k hk _ (by simp [secureBootKeys])
  · decide +kernel
  · decide +kernel
  · decide +kernel

theorem RuleKey.puts {ssl : Phase → OpenSsl P X} {m : Machine} {K : Key} {data : Buffer}
    {dataSize : Nat} {attrs : Attrs} {o : Outcome} (hK : RuleKey K)
    (hnone : storageExists m.storage K = false) (hok : o.status = .success)
    (h : LibResult ssl m K data dataSize attrs o) : storageExists o.machine.storage K = true := by
  have hslot : m.storage.findSlot K = none := by
    simpa [storageExists] using hnone
  have hres : ∃ isPk, PkResult ssl m K data dataSize attrs isPk o := by
    rcases hK.class_eq with hclass | hclass
    · exact ⟨true, h.of_pk hclass⟩
    · exact ⟨false, h.of_kek hclass⟩
  obtain ⟨isPk, hres⟩ := hres
  exact hres.puts hK.clean hK.modes hslot hok

/-- **What start-up leaves of a key**: it was there, or an entry brought it. -/
theorem loadAuthFiles_exists {ssl : Phase → OpenSsl P X} {K : Key} (hK : RuleKey K) :
    ∀ {auths : List AuthData} {m m' : Machine},
      (∀ a ∈ auths, a.key = K ∨ a.key.Clean ∧ ¬ a.key.Same K) →
      loadAuthFiles ssl m auths = some (.success, m') →
      (storageExists m'.storage K = true ↔
        storageExists m.storage K = true ∨ ∃ a ∈ auths, a.key = K ∧ a.data ≠ [])
  | [], m, m', _, h => by
      cases h
      simp
  | auth :: rest, m, m', hkeys, h => by
      have hrest : ∀ a ∈ rest, a.key = K ∨ a.key.Clean ∧ ¬ a.key.Same K :=
        fun a ha => hkeys a (List.mem_cons_of_mem _ ha)
      unfold loadAuthFiles at h
      split at h
      · rename_i hskip
        rw [loadAuthFiles_exists hK hrest h, List.exists_mem_cons_iff]
        -- an entry that is skipped has no data, or its key is there
        constructor
        · rintro (hex | hdata)
          · exact .inl hex
          · exact .inr (.inr hdata)
        · rintro (hex | ⟨hkey, hne⟩ | hdata)
          · exact .inl hex
          · simp [hkey, hne] at hskip
            exact .inl hskip
          · exact .inr hdata
      · rename_i hcond
        obtain ⟨o, ho, h⟩ := Option.bind_eq_some_iff.mp h
        split at h
        · rename_i hfail
          exact absurd (congrArg Prod.fst (Option.some.inj h)) hfail
        rename_i hok
        simp only [Bool.or_eq_true, not_or, Bool.not_eq_true, beq_eq_false_iff_ne] at hcond
        obtain ⟨hex, hlen⟩ := hcond
        have hlib := authLibProcessVariable_cases ho
        rw [loadAuthFiles_exists hK hrest h, List.exists_mem_cons_iff]
        rcases hkeys auth List.mem_cons_self with hkey | ⟨hclean, hne⟩
        · rw [hkey] at hex hlib
          have hput := hK.puts hex (not_not.mp hok) hlib
          have hdata : auth.data ≠ [] := by
            intro hnil
            exact hlen (by rw [hnil]; rfl)
          simp [hput, hkey, hdata]
        · have hspared : storageExists o.machine.storage K = storageExists m.storage K := by
            refine storageExists_of_find (hlib.effect.writes.find_eq ?_)
            rintro k (rfl | hk)
            · exact hclean.spares hK.clean hne
            · exact (modeKeys_clean k hk).spares hK.clean (hK.modes k hk)
          have hother : auth.key ≠ K := by
            rintro rfl
            exact hne ⟨rfl, rfl, rfl⟩
          simp [hspared, hother]

theorem authLibInitialize_exists {ssl : Phase → OpenSsl P X} {K : Key} (hK : RuleKey K)
    {auths : List AuthData} {m m' : Machine}
    (hkeys : ∀ a ∈ auths, a.key = K ∨ a.key.Clean ∧ ¬ a.key.Same K)
    (h : authLibInitialize ssl m auths = some (.success, m')) :
    storageExists m'.storage K = true ↔
      storageExists m.storage K = true ∨ ∃ a ∈ auths, a.key = K ∧ a.data ≠ [] := by
  have hclean : signatureSupportKey.Clean ∧ auditModeKey.Clean := by decide +kernel
  have hset : ∀ (s : Storage) (k : Key) d a, k.Clean → ¬ k.Same K →
      storageExists (storageSet s k d a).2 K = storageExists s K := by
    intro s k d a hk hne
    refine storageExists_of_find (Writes.find_eq (S := (· = k)) (.single rfl (.set d a)) ?_)
    rintro _ rfl
    exact hk.spares hK.clean hne
  have hmodes : ∀ m mode, storageExists (updatePlatformMode m mode).2.storage K =
      storageExists m.storage K :=
    fun m mode => storageExists_of_find (updatePlatformMode_find_eq hK.clean hK.modes m mode)
  obtain ⟨m₁, m₂, hmode, hload, _, rfl⟩ := authLibInitialize_success h
  obtain rfl := congrArg Prod.snd hmode
  have huser : storageExists (userModeIfPk m₂).2.storage K = storageExists m₂.storage K := by
    unfold userModeIfPk
    split
    · exact hmodes m₂ .user
    · rfl
  rw [hset _ _ _ _ hclean.2 hK.audit, huser, loadAuthFiles_exists hK hkeys hload, hmodes,
    hset _ _ _ _ hclean.1 hK.support]

/-! ## What was loaded -/

theorem loadAuth_cases {auth auth' : AuthData} {file : AuthFile} {ok : Bool}
    (h : loadAuth auth file = some (ok, auth')) :
    ∃ data, auth' = { auth with data := data } ∧ (ok = true → file = .contents data) := by
  cases file with
  | missing =>
      cases h
      exact ⟨_, rfl, fun hok => by cases hok⟩
  | unopened =>
      cases h
      exact ⟨_, rfl, fun hok => by cases hok⟩
  | unread left =>
      obtain ⟨_, h⟩ := Option.ite_none_right_eq_some.mp h
      cases h
      exact ⟨left, rfl, fun hok => by cases hok⟩
  | contents bytes =>
      obtain ⟨_, h⟩ := Option.ite_none_right_eq_some.mp h
      cases h
      exact ⟨bytes, rfl, fun _ => rfl⟩

/-- One turn of the loop of `auth_lib_load`: PK is left out if it is to be skipped, and it is
not to be skipped only if KEK was read. -/
theorem authLibLoad_cons {skip : Bool} {auth : AuthData} {file : AuthFile}
    {rest : List (AuthData × AuthFile)} {auths : List AuthData}
    (h : authLibLoad skip ((auth, file) :: rest) = some auths) :
    ∃ data skip' rest', auths = { auth with data := data } :: rest' ∧
      authLibLoad skip' rest = some rest' ∧
      (strcmp16 auth.key.name (nameArray EFI_PLATFORM_KEY_NAME) = true → skip = true →
        data = auth.data) ∧
      (strcmp16 auth.key.name (nameArray EFI_KEY_EXCHANGE_KEY_NAME) = true → skip' = false →
        file = .contents data) := by
  unfold authLibLoad at h
  split at h
  · rename_i hskip
    rw [Bool.and_eq_true] at hskip
    obtain ⟨rest', hrest, h⟩ := Option.bind_eq_some_iff.mp h
    cases h
    refine ⟨auth.data, skip, rest', rfl, hrest, fun _ _ => rfl, ?_⟩
    intro _ hno
    rw [hskip.1] at hno
    cases hno
  · rename_i hskip
    obtain ⟨⟨ok, auth'⟩, hfile, h⟩ := Option.bind_eq_some_iff.mp h
    obtain ⟨rest', hrest, h⟩ := Option.bind_eq_some_iff.mp h
    cases h
    obtain ⟨data, rfl, hok⟩ := loadAuth_cases hfile
    refine ⟨data, _, rest', rfl, hrest, ?_, ?_⟩
    · intro hpk hsk
      rw [hpk, hsk] at hskip
      exact absurd rfl hskip
    · intro hkek hno
      rw [hkek, Bool.and_true, Bool.or_eq_false_iff, Bool.not_eq_false'] at hno
      exact hok hno.2

/-- PK has data only if KEK was read. -/
theorem loadKeyFiles_pk {db dbx kek pk : AuthFile} {auths : List AuthData}
    (h : loadKeyFiles db dbx kek pk = some auths) :
    ∃ db' dbx' kek' pk', auths = authFiles db' dbx' kek' pk' ∧
      (pk' ≠ [] → kek = .contents kek') := by
  obtain ⟨db', _, _, rfl, h, _⟩ := authLibLoad_cons h
  obtain ⟨dbx', _, _, rfl, h, _⟩ := authLibLoad_cons h
  obtain ⟨kek', skip, _, rfl, h, _, hkek⟩ := authLibLoad_cons h
  obtain ⟨pk', _, _, rfl, h, hpk, _⟩ := authLibLoad_cons h
  cases h
  refine ⟨db', dbx', kek', pk', rfl, ?_⟩
  intro hne
  refine hkek (by decide +kernel) (Bool.of_not_eq_true ?_)
  intro hskip
  exact hne (hpk (by decide +kernel) hskip)

example : (loadKeyFiles .missing .missing .missing (.contents [1])).map (·.map AuthData.data) =
    some [[], [], [], []] := by
  decide +kernel

/-! ## The rule -/

theorem authFiles_keys {K : Key} (hK : K ∈ [pkKey, kekKey]) (db dbx kek pk : List UInt8) :
    ∀ a ∈ authFiles db dbx kek pk, a.key = K ∨ a.key.Clean ∧ ¬ a.key.Same K := by
  have hkeys : ∀ K ∈ [pkKey, kekKey], ∀ k ∈ [dbKey, dbxKey, kekKey, pkKey],
      k = K ∨ k.Clean ∧ ¬ k.Same K := by
    decide +kernel
  intro a ha
  exact hkeys K hK a.key (List.mem_map_of_mem (f := AuthData.key) ha)

theorem authFiles_pk {db dbx kek pk : List UInt8} :
    (∃ a ∈ authFiles db dbx kek pk, a.key = pkKey ∧ a.data ≠ []) ↔ pk ≠ [] := by
  have hne : dbKey ≠ pkKey ∧ dbxKey ≠ pkKey ∧ kekKey ≠ pkKey := by decide +kernel
  simp [authFiles, hne]

theorem authFiles_kek {db dbx kek pk : List UInt8} :
    (∃ a ∈ authFiles db dbx kek pk, a.key = kekKey ∧ a.data ≠ []) ↔ kek ≠ [] := by
  have hne : dbKey ≠ kekKey ∧ dbxKey ≠ kekKey ∧ pkKey ≠ kekKey := by decide +kernel
  simp [authFiles, hne]

/-- **Where start-up brought a PK, there is a KEK exactly if there was one before or its file
is not an empty one.** -/
theorem kek_with_pk_iff {ssl : Phase → OpenSsl P X} {m m' : Machine} {db dbx kek pk : AuthFile}
    {auths : List AuthData} (hload : loadKeyFiles db dbx kek pk = some auths)
    (hinit : authLibInitialize ssl m auths = some (.success, m'))
    (hbefore : storageExists m.storage pkKey = false)
    (hafter : storageExists m'.storage pkKey = true) :
    storageExists m'.storage kekKey = true ↔
      storageExists m.storage kekKey = true ∨ kek ≠ .contents [] := by
  obtain ⟨db', dbx', kek', pk', rfl, hkek⟩ := loadKeyFiles_pk hload
  have hpk := authLibInitialize_exists ruleKey_pk (authFiles_keys (by simp) db' dbx' kek' pk') hinit
  rw [authFiles_pk, hafter, hbefore] at hpk
  obtain hno | hne := hpk.mp rfl
  · cases hno
  rw [authLibInitialize_exists ruleKey_kek (authFiles_keys (by simp) db' dbx' kek' pk') hinit,
    authFiles_kek, hkek hne]
  simp

end

/-- A key file with a certificate, as it is enrolled. -/
def certFile : AuthFile := .contents (enrolPk .accepting).set.data

/-- With both files there are both keys. -/
theorem kek_with_pk_both : ∃ auths m',
    loadKeyFiles .missing .missing certFile certFile = some auths ∧
    authLibInitialize (fun _ => OpenSsl.accepting) freshMachine auths = some (.success, m') ∧
    storageExists m'.storage pkKey = true ∧ storageExists m'.storage kekKey = true := by
  have hrun : (loadKeyFiles .missing .missing certFile certFile).bind (fun auths =>
      (authLibInitialize (fun _ => OpenSsl.accepting) freshMachine auths).map (fun r =>
        (r.1, storageExists r.2.storage pkKey))) = some (.success, true) := by
    decide +kernel
  obtain ⟨auths, hload, hinit⟩ := Option.bind_eq_some_iff.mp hrun
  obtain ⟨⟨_, m'⟩, hinit, hr⟩ := Option.map_eq_some_iff.mp hinit
  obtain ⟨rfl, hpk⟩ := Prod.mk.inj hr
  refine ⟨auths, m', hload, hinit, hpk, (kek_with_pk_iff hload hinit ?_ hpk).mpr (.inr ?_)⟩
  · decide +kernel
  · decide +kernel

/-- With an empty file for KEK there is a PK without a KEK. -/
theorem emptyKek_pk_alone : ∃ auths m',
    loadKeyFiles .missing .missing (.contents []) certFile = some auths ∧
    authLibInitialize (fun _ => OpenSsl.accepting) freshMachine auths = some (.success, m') ∧
    storageExists freshMachine.storage pkKey = false ∧ storageExists m'.storage pkKey = true ∧
    storageExists m'.storage kekKey = false ∧ m'.setupMode = .user := by
  have hrun : (loadKeyFiles .missing .missing (.contents []) certFile).bind (fun auths =>
      (authLibInitialize (fun _ => OpenSsl.accepting) freshMachine auths).map (fun r =>
        (r.1, storageExists r.2.storage pkKey, storageExists r.2.storage kekKey, r.2.setupMode))) =
      some (.success, true, false, .user) := by
    decide +kernel
  obtain ⟨auths, hload, hinit⟩ := Option.bind_eq_some_iff.mp hrun
  obtain ⟨⟨_, m'⟩, hinit, hr⟩ := Option.map_eq_some_iff.mp hinit
  obtain ⟨rfl, hr⟩ := Prod.mk.inj hr
  obtain ⟨hpk, hr⟩ := Prod.mk.inj hr
  obtain ⟨hkek, hmode⟩ := Prod.mk.inj hr
  exact ⟨auths, m', hload, hinit, by decide +kernel, hpk, hkek, hmode⟩

end Uefistored
