/-
# `Uefistored.Effect` — requests as sequences of writes

A request reaches the store in two ways only: `storage_set` with some key, and
the in-place updates of a time stamp or a cert in the slot a look-up of that
key ends at.  `Write k` is one of the two, `Writes K` any number of them with
keys in `K`, and the functions on the way from `handle_set_variable` to the
store are placed in that relation once:

    a verified update of `k`              Writes (· = k)        (`UpdateResult.effect`)
    `update_platform_mode`                Writes of mode keys   (`updatePlatformMode_writes`)
    `handle_set_variable`                 an effect of the request's key, then at most one
                                          `update_platform_mode`   (`handleSetVariable_effect`)

So an invariant of the store needs a proof for each of the two kinds of write
(`Writes.invariant`), and a frame holds for all of them (`Writes.frame`).
-/
import Uefistored.Offers
import Uefistored.Server

namespace Uefistored

open Lib

/-! ## Writes -/

/-- One write with the key `k`. -/
inductive Write (k : Key) (s : Storage) : Storage → Prop
  | set (data : Option (List UInt8)) (attrs : Attrs) : Write k s (storageSet s k data attrs).2
  | mark {i : Fin MAX_VAR_COUNT} (time : EfiTime) (cert : Digest) : s.findSlot k = some i →
      Write k s (s.setSlot i { s.vars i with timestamp := time, cert := cert })

/-- Any number of writes with keys in `K`. -/
def Writes (K : Key → Prop) : Storage → Storage → Prop :=
  Relation.ReflTransGen (fun s s' => ∃ k, K k ∧ Write k s s')

namespace Writes

variable {K K' : Key → Prop} {s s' s'' : Storage}

theorem refl (s : Storage) : Writes K s s := Relation.ReflTransGen.refl

theorem trans (h : Writes K s s') (h' : Writes K s' s'') : Writes K s s'' :=
  Relation.ReflTransGen.trans h h'

theorem single {k : Key} (hk : K k) (h : Write k s s') : Writes K s s' :=
  Relation.ReflTransGen.single ⟨k, hk, h⟩

theorem mono (hK : ∀ k, K k → K' k) (h : Writes K s s') : Writes K' s s' :=
  Relation.ReflTransGen.mono (fun _ _ ⟨k, hk, hw⟩ => ⟨k, hK k hk, hw⟩) _ _ h

/-- What every single write preserves, any number of them preserves. -/
theorem invariant {I : Storage → Prop} (hstep : ∀ k s s', K k → Write k s s' → I s → I s')
    (h : Writes K s s') (hs : I s) : I s' := by
  induction h with
  | refl => exact hs
  | tail _ hw ih =>
      obtain ⟨k, hk, hw⟩ := hw
      exact hstep k _ _ hk hw ih

end Writes

theorem Variable.Hit.mark {k : Key} {v : Variable} (h : v.Hit k) (time : EfiTime)
    (cert : Digest) : Variable.Hit k { v with timestamp := time, cert := cert } := h

theorem Write.frame {k : Key} {s s' : Storage} (h : Write k s s') :
    Slots.AgreeOff (Variable.Touched k) s.vars s'.vars := by
  cases h with
  | set data attrs => exact storageSet_frame s k data attrs
  | mark time cert hi =>
      have hit := Variable.hit_of_isMatch (Storage.findSlot_isMatch hi)
      exact .update (Or.inr hit) (Or.inr (hit.mark time cert))

/-- Writes leave every slot alone that none of their keys touches. -/
theorem Writes.frame {K : Key → Prop} {Q : Variable → Prop} {s s' : Storage}
    (hQ : ∀ k, K k → ∀ v, Variable.Touched k v → Q v) (h : Writes K s s') :
    Slots.AgreeOff Q s.vars s'.vars := by
  refine h.invariant (I := fun t => Slots.AgreeOff Q s.vars t.vars) ?_ (.refl _ _)
  intro k t t' hk hw ih
  exact ih.trans (hw.frame.mono (hQ k hk))

/-! ## Look-ups that a write cannot change -/

/-- Attributes and data, as a look-up returns them. -/
def view (s : Storage) (K : Key) : Option (Attrs × List UInt8) :=
  (storageFindVariable s K).map (fun v => (v.attrs, v.data))

/-- The two keys find the same slots. -/
def Key.Same (k K : Key) : Prop := k.namesz = K.namesz ∧ k.bytes = K.bytes ∧ k.guid = K.guid

instance (k K : Key) : Decidable (k.Same K) := inferInstanceAs (Decidable (_ ∧ _ ∧ _))

/-- No write with `k` touches a slot that a look-up of `K` accepts. -/
def Key.Spares (k K : Key) : Prop := ∀ v, Variable.Touched k v → v.isMatch K = false

theorem Key.Same.key_eq {l l' : List UInt8} {g g' : Guid}
    (hl : l.length ≤ MAX_VARIABLE_NAME_SIZE) (hl' : l'.length ≤ MAX_VARIABLE_NAME_SIZE)
    (h : (Key.of l g).Same (Key.of l' g')) : Key.of l g = Key.of l' g' := by
  obtain ⟨_, hb, hg⟩ := h
  rw [Key.bytes_of hl, Key.bytes_of hl'] at hb
  obtain rfl : g = g' := hg
  rw [hb]

/-- Keys that find the same slots are accepted by the same slots. -/
theorem Key.Same.isMatch_eq {k K : Key} (h : k.Same K) (v : Variable) :
    v.isMatch k = v.isMatch K := by
  obtain ⟨hsz, hb, hg⟩ := h
  rw [Bool.eq_iff_iff, Variable.isMatch_iff, Variable.isMatch_iff, hsz, hb, hg]

theorem Key.Same.findSlot_eq {k K : Key} (h : k.Same K) (s : Storage) :
    s.findSlot k = s.findSlot K :=
  Slots.first_congr (fun i => h.isMatch_eq (s.vars i))

theorem Variable.key_same {v : Variable} {k : Key} (h : v.isMatch k = true) : v.key.Same k :=
  Variable.isMatch_iff.mp h

theorem Variable.same_of_isMatch {k K : Key} {v : Variable} (h : v.isMatch k = true)
    (h' : v.isMatch K = true) : k.Same K := by
  obtain ⟨h1, h2, h3⟩ := Variable.isMatch_iff.mp h
  obtain ⟨h1', h2', h3'⟩ := Variable.isMatch_iff.mp h'
  exact ⟨h1.symm.trans h1', h2.symm.trans h2', h3.symm.trans h3'⟩

/-- An empty slot is never what a look-up of a stored name finds. -/
theorem Variable.not_isMatch_of_isFree {K : Key} {v : Variable} (hK : K.Clean)
    (hv : v.isFree = true) : v.isMatch K = false := by
  by_contra hm
  rw [Bool.not_eq_false] at hm
  obtain ⟨hsz, hb, _⟩ := Variable.isMatch_iff.mp hm
  have h2 := hK.two_le
  have hunit : unitAt v.name.bytes 0 = unitAt K.name.bytes 0 := by
    rw [← unitAt_take (l := v.name.bytes) (n := v.namesz) (by omega),
      ← unitAt_take (l := K.name.bytes) (n := K.namesz) (by omega)]
    exact congrArg (unitAt · 0) hb
  have h0 : unitAt v.name.bytes 0 = 0 := by simpa [Variable.isFree] using hv
  exact hK.head (by rw [← hunit, h0])

theorem Variable.isFree_of_isMatch {K : Key} {v : Variable} (hK : K.Clean)
    (h : v.isMatch K = true) : v.isFree = false := by
  by_contra hfree
  rw [Bool.not_eq_false] at hfree
  rw [Variable.not_isMatch_of_isFree hK hfree] at h
  cases h

theorem Variable.Hit.isMatch {k : Key} {v : Variable} (hk : k.Clean) (h : v.Hit k) :
    v.isMatch k = true := by
  obtain ⟨hg, hb, hsz⟩ := h
  have hsz' : v.namesz = k.namesz := by
    rcases hsz with h | ⟨below, h⟩
    · exact h
    · rw [h, hk.stored_eq]
  exact Variable.isMatch_iff.mpr ⟨hsz', by rw [Variable.keyBytes, hsz', hb], hg⟩

/-- A name that is stored as it came spares every other such name. -/
theorem Key.Clean.spares {k K : Key} (hk : k.Clean) (hK : K.Clean) (hne : ¬ k.Same K) :
    k.Spares K := by
  rintro v (hfree | hit)
  · exact Variable.not_isMatch_of_isFree hK hfree
  · by_contra hm
    rw [Bool.not_eq_false] at hm
    exact hne (Variable.same_of_isMatch (hit.isMatch hk) hm)

/-- A look-up that every write spares finds the same variable, in the same slot. -/
theorem Writes.find_eq {S : Key → Prop} {K : Key} {s s' : Storage} (h : Writes S s s')
    (hS : ∀ k, S k → k.Spares K) : storageFindVariable s' K = storageFindVariable s K :=
  (h.frame (Q := fun v => v.isMatch K = false) hS).lookup_eq (fun _ hv => hv)

theorem Writes.findSlot_eq {S : Key → Prop} {K : Key} {s s' : Storage} (h : Writes S s s')
    (hS : ∀ k, S k → k.Spares K) : s'.findSlot K = s.findSlot K :=
  (h.frame (Q := fun v => v.isMatch K = false) hS).first_eq (fun _ hv => hv)

/-! ## The functions as writes -/

theorem WritesOf.writes {W : Storage → Option (List UInt8) → Attrs → Prop} {k : Key}
    {s s' : Storage} (h : WritesOf W k s s') : Writes (· = k) s s' := by
  refine h.invariant (I := Writes (· = k) s) ?_ (.refl s)
  intro s₁ s₂ hw ih
  refine ih.trans (.single (k := k) rfl ?_)
  cases hw with
  | set => exact .set _ _
  | mark time cert hi => exact .mark time cert hi

section
variable {P X : Type}

/-- The effect of processing a variable: writes with its key, in an unchanged mode. -/
structure Effect (k : Key) (m m' : Machine) : Prop where
  writes : Writes (· = k) m.storage m'.storage
  setupMode : m'.setupMode = m.setupMode
  secureBootEnabled : m'.secureBootEnabled = m.secureBootEnabled

theorem Effect.refl {k : Key} (m : Machine) : Effect k m m := ⟨.refl _, rfl, rfl⟩

theorem Fed.effect {ssl : OpenSsl P X} {k : Key} {data : Buffer} {dataSize : Nat} {attrs : Attrs}
    {m : Machine} {o : Outcome} (h : Fed ssl k data dataSize attrs m o) : Effect k m o.machine :=
  ⟨h.writes.writes, h.setupMode, h.secureBootEnabled⟩

theorem UpdateResult.effect {ssl : Phase → OpenSsl P X} {m : Machine} {k : Key} {data : Buffer}
    {dataSize : Nat} {attrs : Attrs} {kind : AuthVarType} {o : Outcome} {del : Bool}
    (h : UpdateResult ssl m k data dataSize attrs kind o del) : Effect k m o.machine :=
  h.fed.effect

/-! ## The platform mode -/

/-- The three variables that `update_platform_mode` writes. -/
def modeKeys : List Key := [secureBootKey, setupModeKey, deployedModeKey]

theorem modeKeys_clean : ∀ k ∈ modeKeys, k.Clean := by
  intro k hk
  simp only [modeKeys, List.mem_cons, List.not_mem_nil, or_false] at hk
  rcases hk with rfl | rfl | rfl <;> exact Key.clean_of_nulFree (by decide) (by decide) _

theorem setModeVariables_writes : ∀ (s : Storage) (l : List (Key × UInt8)),
    Writes (fun k => k ∈ l.map Prod.fst) s (setModeVariables s l).2
  | s, [] => .refl s
  | s, (k, value) :: rest => by
      have hset : Writes (fun k' => k' ∈ ((k, value) :: rest).map Prod.fst) s
          (storageSet s k (some [value]) RT_BS_ATTRS).2 :=
        .single (k := k) (by simp) (.set _ _)
      unfold setModeVariables
      split
      · rename_i s₁ hs
        rw [hs] at hset
        refine hset.trans ((setModeVariables_writes s₁ rest).mono ?_)
        intro k' hk'
        exact List.mem_cons_of_mem _ hk'
      · rename_i hs
        rw [hs] at hset
        exact hset

theorem modeVariables_keys (b : Bool) (mode : PlatformMode) :
    (modeVariables b mode).map Prod.fst = modeKeys := by
  cases mode <;> rfl

theorem updatePlatformMode_writes (m : Machine) (mode : PlatformMode) :
    Writes (· ∈ modeKeys) m.storage (updatePlatformMode m mode).2.storage := by
  have h := setModeVariables_writes m.storage (modeVariables m.secureBootEnabled mode)
  rw [modeVariables_keys] at h
  exact h

/-- `update_platform_mode` leaves every variable alone that is not a mode variable. -/
theorem updatePlatformMode_find_eq {K : Key} (hK : K.Clean) (hne : ∀ k ∈ modeKeys, ¬ k.Same K)
    (m : Machine) (mode : PlatformMode) :
    storageFindVariable (updatePlatformMode m mode).2.storage K =
      storageFindVariable m.storage K := by
  refine (updatePlatformMode_writes m mode).find_eq ?_
  intro k hk
  exact (modeKeys_clean k hk).spares hK (hne k hk)

@[simp] theorem updatePlatformMode_setupMode (m : Machine) (mode : PlatformMode) :
    (updatePlatformMode m mode).2.setupMode = mode := rfl

@[simp] theorem updatePlatformMode_calls (m : Machine) (mode : PlatformMode) :
    (updatePlatformMode m mode).2.calls = m.calls := rfl

/-! ## The ways to process a variable -/

theorem followPk_cases (o : Outcome) (del : Bool) :
    followPk o del = o ∨ o.status = .success ∧ ∃ mode,
      (o.machine.setupMode = .setup ∧ del = false ∧ mode = .user ∨
        o.machine.setupMode = .user ∧ del = true ∧ mode = .setup) ∧
      followPk o del = ⟨(updatePlatformMode o.machine mode).1,
        (updatePlatformMode o.machine mode).2, o.data⟩ := by
  unfold followPk
  split
  · exact .inl rfl
  · rename_i hs
    rw [not_not] at hs
    split
    · rename_i hmode
      exact .inr ⟨hs, .user, .inl ⟨hmode, rfl, rfl⟩, rfl⟩
    · rename_i hmode
      exact .inr ⟨hs, .setup, .inr ⟨hmode, rfl, rfl⟩, rfl⟩
    · exact .inl rfl

/-- The update without authentication: refused for its format, or stored. -/
theorem updateInSetupMode_cases {ssl : OpenSsl P X} {m : Machine} {k : Key} {data : Buffer}
    {dataSize : Nat} {attrs : Attrs} {o : Outcome}
    (h : updateInSetupMode ssl m k data dataSize attrs = some o) :
    (o.status ≠ .success ∧ o.machine = m) ∨
      ∃ off time status s data', authInfo2Size data = some off ∧ authTimeStamp data = some time ∧
        StoreResult m.storage k data off (sub64 dataSize off) attrs time status s data' ∧
        o = ⟨status, { m with storage := s }, data'⟩ := by
  unfold updateInSetupMode at h
  obtain ⟨off, hoff, h⟩ := Option.bind_eq_some_iff.mp h
  obtain ⟨status, _, h⟩ := Option.bind_eq_some_iff.mp h
  split at h
  · rename_i hfail
    cases h
    exact .inl ⟨hfail, rfl⟩
  · obtain ⟨time, htime, h⟩ := Option.bind_eq_some_iff.mp h
    obtain ⟨⟨status', s, data'⟩, hup, h⟩ := Option.bind_eq_some_iff.mp h
    cases h
    exact .inr ⟨off, time, status', s, data', hoff, htime, authInternalUpdate_cases hup, rfl⟩

/-- Everything `process_var_with_pk` can have done. -/
inductive PkResult (ssl : Phase → OpenSsl P X) (m : Machine) (k : Key) (data : Buffer)
    (dataSize : Nat) (attrs : Attrs) : Bool → Outcome → Prop
  | wrongAttrs {isPk : Bool} : (!attrs.nonVolatile || !attrs.timeBased) = true →
      PkResult ssl m k data dataSize attrs isPk ⟨.invalidParameter, m, data⟩
  | setup {o : Outcome} : m.setupMode = .setup → attrs.timeBased = true →
      updateInSetupMode (ssl .verify) m k data dataSize attrs = some o →
      attrs.nonVolatile = true → PkResult ssl m k data dataSize attrs false o
  | enrol {o : Outcome} {del : Bool} : m.setupMode = .setup → attrs.timeBased = true →
      UpdateResult ssl m k data dataSize attrs .payload o del → attrs.nonVolatile = true →
      PkResult ssl m k data dataSize attrs true (followPk o del)
  | user {o : Outcome} {del isPk : Bool} : m.setupMode = .user → attrs.timeBased = true →
      UpdateResult ssl m k data dataSize attrs .pk o del → attrs.nonVolatile = true →
      PkResult ssl m k data dataSize attrs isPk (if isPk then followPk o del else o)

theorem processVarWithPk_cases {ssl : Phase → OpenSsl P X} {m : Machine} {k : Key}
    {data : Buffer} {dataSize : Nat} {attrs : Attrs} {isPk : Bool} {o : Outcome}
    (h : processVarWithPk ssl m k data dataSize attrs isPk = some o) :
    PkResult ssl m k data dataSize attrs isPk o := by
  unfold processVarWithPk at h
  split at h
  · rename_i hattrs
    cases h
    exact .wrongAttrs hattrs
  · rename_i hattrs
    simp only [Bool.or_eq_true, not_or, Bool.not_eq_true', Bool.not_eq_false] at hattrs
    obtain ⟨hnv, htb⟩ := hattrs
    split at h
    · rename_i hmode
      obtain ⟨⟨o', del⟩, hv, h⟩ := Option.bind_eq_some_iff.mp h
      cases h
      exact .enrol hmode htb (verifyTimeBasedPayloadAndUpdate_cases hv) hnv
    · rename_i hmode
      exact .setup hmode htb h hnv
    · rename_i hmode
      obtain ⟨⟨o', del⟩, hv, h⟩ := Option.bind_eq_some_iff.mp h
      cases h
      exact .user hmode htb (verifyTimeBasedPayloadAndUpdate_cases hv) hnv

/-- Everything `process_var_with_kek` can have done. -/
inductive KekResult (ssl : Phase → OpenSsl P X) (m : Machine) (k : Key) (data : Buffer)
    (dataSize : Nat) (attrs : Attrs) : Outcome → Prop
  | wrongAttrs : (!attrs.nonVolatile || !attrs.timeBased) = true →
      KekResult ssl m k data dataSize attrs ⟨.invalidParameter, m, data⟩
  | setup {o : Outcome} : m.setupMode = .setup → attrs.timeBased = true →
      updateInSetupMode (ssl .verify) m k data dataSize attrs = some o →
      attrs.nonVolatile = true → KekResult ssl m k data dataSize attrs o
  | user {o : Outcome} {del : Bool} : m.setupMode = .user → attrs.timeBased = true →
      UpdateResult ssl m k data dataSize attrs .kek o del → attrs.nonVolatile = true →
      KekResult ssl m k data dataSize attrs o

theorem processVarWithKek_cases {ssl : Phase → OpenSsl P X} {m : Machine} {k : Key}
    {data : Buffer} {dataSize : Nat} {attrs : Attrs} {o : Outcome}
    (h : processVarWithKek ssl m k data dataSize attrs = some o) :
    KekResult ssl m k data dataSize attrs o := by
  unfold processVarWithKek at h
  split at h
  · rename_i hattrs
    cases h
    exact .wrongAttrs hattrs
  · rename_i hattrs
    simp only [Bool.or_eq_true, not_or, Bool.not_eq_true', Bool.not_eq_false] at hattrs
    obtain ⟨hnv, htb⟩ := hattrs
    split at h
    · rename_i hmode
      obtain ⟨⟨o', del⟩, hv, h⟩ := Option.bind_eq_some_iff.mp h
      cases h
      exact .user hmode htb (verifyTimeBasedPayloadAndUpdate_cases hv) hnv
    · rename_i hmode
      exact .setup hmode htb h hnv

/-- Everything `process_variable` can have done. -/
inductive VarResult (ssl : Phase → OpenSsl P X) (m : Machine) (k : Key) (data : Buffer)
    (dataSize : Nat) (attrs : Attrs) : Outcome → Prop
  /-- The descriptor alone, under the stored attributes: deleted without a signature. -/
  | descriptorOnly {v : Variable} : storageFindVariable m.storage k = some v →
      isDeleteAuthVariable v.attrs data dataSize attrs = some true →
      VarResult ssl m k data dataSize attrs
        ⟨(storageSet m.storage k none 0).1,
          { m with storage := (storageSet m.storage k none 0).2 }, data⟩
  | unsupported : VarResult ssl m k data dataSize attrs ⟨.unsupported, m, data⟩
  | verified {o : Outcome} {del : Bool} : attrs.timeBased = true →
      UpdateResult ssl m k data dataSize attrs .priv o del →
      deletesByDescriptor m.storage k data dataSize attrs = some false →
      VarResult ssl m k data dataSize attrs o
  | plain {payload : List UInt8} : attrs.timeBased = false → data.slice 0 dataSize = some payload →
      VarResult ssl m k data dataSize attrs
        ⟨(storageSet m.storage k (some payload) attrs).1,
          { m with storage := (storageSet m.storage k (some payload) attrs).2 }, data⟩

theorem processVariable_cases {ssl : Phase → OpenSsl P X} {m : Machine} {k : Key}
    {data : Buffer} {dataSize : Nat} {attrs : Attrs} {o : Outcome}
    (h : processVariable ssl m k data dataSize attrs = some o) :
    VarResult ssl m k data dataSize attrs o := by
  unfold processVariable at h
  obtain ⟨del, hdel, h⟩ := Option.bind_eq_some_iff.mp h
  split at h
  · rename_i hd
    subst hd
    cases h
    unfold deletesByDescriptor at hdel
    split at hdel
    · rename_i v hv
      exact .descriptorOnly hv hdel
    · cases hdel
  · rename_i hd
    rw [Bool.not_eq_true] at hd
    subst hd
    split at h
    · cases h
      exact .unsupported
    · split at h
      · rename_i htb
        obtain ⟨⟨o', del'⟩, hv, h⟩ := Option.bind_eq_some_iff.mp h
        cases h
        exact .verified htb (verifyTimeBasedPayloadAndUpdate_cases hv) hdel
      · rename_i htb
        obtain ⟨payload, hp, h⟩ := Option.bind_eq_some_iff.mp h
        cases h
        exact .plain (by simpa using htb) hp

/-! ## The dispatch -/

/-- Everything `auth_lib_process_variable` can have done. -/
inductive LibResult (ssl : Phase → OpenSsl P X) (m : Machine) (k : Key) (data : Buffer)
    (dataSize : Nat) (attrs : Attrs) : Outcome → Prop
  | pk {o : Outcome} : variableClass k = .pk → PkResult ssl m k data dataSize attrs true o →
      LibResult ssl m k data dataSize attrs o
  | kek {o : Outcome} : variableClass k = .kek → PkResult ssl m k data dataSize attrs false o →
      LibResult ssl m k data dataSize attrs o
  | db {o : Outcome} : variableClass k = .db → PkResult ssl m k data dataSize attrs false o →
      o.status = .success → LibResult ssl m k data dataSize attrs o
  /-- The second chance: the attempt with PK failed, perhaps after it wrote. -/
  | dbRetry {o o' : Outcome} : variableClass k = .db →
      PkResult ssl m k data dataSize attrs false o → o.status ≠ .success →
      KekResult ssl o.machine k o.data dataSize attrs o' →
      LibResult ssl m k data dataSize attrs o'
  | other {o : Outcome} : variableClass k = .other → VarResult ssl m k data dataSize attrs o →
      LibResult ssl m k data dataSize attrs o

/-- The class of the key decides. -/
theorem LibResult.of_pk {ssl : Phase → OpenSsl P X} {m : Machine} {k : Key} {data : Buffer}
    {dataSize : Nat} {attrs : Attrs} {o : Outcome} (h : LibResult ssl m k data dataSize attrs o)
    (hk : variableClass k = .pk) : PkResult ssl m k data dataSize attrs true o := by
  cases h with
  | pk _ hp => exact hp
  | kek hc => rw [hk] at hc; cases hc
  | db hc => rw [hk] at hc; cases hc
  | dbRetry hc => rw [hk] at hc; cases hc
  | other hc => rw [hk] at hc; cases hc

theorem LibResult.of_kek {ssl : Phase → OpenSsl P X} {m : Machine} {k : Key} {data : Buffer}
    {dataSize : Nat} {attrs : Attrs} {o : Outcome} (h : LibResult ssl m k data dataSize attrs o)
    (hk : variableClass k = .kek) : PkResult ssl m k data dataSize attrs false o := by
  cases h with
  | kek _ hp => exact hp
  | pk hc => rw [hk] at hc; cases hc
  | db hc => rw [hk] at hc; cases hc
  | dbRetry hc => rw [hk] at hc; cases hc
  | other hc => rw [hk] at hc; cases hc

theorem LibResult.of_other {ssl : Phase → OpenSsl P X} {m : Machine} {k : Key} {data : Buffer}
    {dataSize : Nat} {attrs : Attrs} {o : Outcome} (h : LibResult ssl m k data dataSize attrs o)
    (hk : variableClass k = .other) : VarResult ssl m k data dataSize attrs o := by
  cases h with
  | other _ hv => exact hv
  | pk hc => rw [hk] at hc; cases hc
  | kek hc => rw [hk] at hc; cases hc
  | db hc => rw [hk] at hc; cases hc
  | dbRetry hc => rw [hk] at hc; cases hc

theorem authLibProcessVariable_cases {ssl : Phase → OpenSsl P X} {m : Machine} {k : Key}
    {data : Buffer} {dataSize : Nat} {attrs : Attrs} {o : Outcome}
    (h : authLibProcessVariable ssl m k data dataSize attrs = some o) :
    LibResult ssl m k data dataSize attrs o := by
  unfold authLibProcessVariable at h
  split at h
  · rename_i hc
    exact .pk hc (processVarWithPk_cases h)
  · rename_i hc
    exact .kek hc (processVarWithPk_cases h)
  · rename_i hc
    obtain ⟨o₁, h₁, h⟩ := Option.bind_eq_some_iff.mp h
    split at h
    · rename_i hfail
      exact .dbRetry hc (processVarWithPk_cases h₁) hfail (processVarWithKek_cases h)
    · rename_i hok
      cases h
      exact .db hc (processVarWithPk_cases h₁) (not_not.mp hok)
  · rename_i hc
    exact .other hc (processVariable_cases h)

/-- Everything `handle_set_variable` can have done. -/
inductive SetOutcome (ssl : Phase → OpenSsl P X) (m : Machine) (req : SetRequest) :
    EfiStatus → Machine → Prop
  | refused {status : EfiStatus} : refusal req = some status →
      SetOutcome ssl m req status (m.opened req)
  | authenticated {o : Outcome} : refusal req = none →
      (req.attrs.timeBased || isSecureBootVariable req.key) = true →
      LibResult ssl (m.opened req) req.key req.buffer req.data.length req.attrs o →
      SetOutcome ssl m req o.status (o.machine.saved o.status req.attrs)
  | plain : refusal req = none → req.attrs.timeBased = false →
      isSecureBootVariable req.key = false →
      SetOutcome ssl m req (storageSet m.storage req.key (some req.data) req.attrs).1
        ({ m.opened req with
            storage := (storageSet m.storage req.key (some req.data) req.attrs).2 }.saved
          (storageSet m.storage req.key (some req.data) req.attrs).1 req.attrs)

theorem handleSetVariable_cases {ssl : Phase → OpenSsl P X} {m m' : Machine} {req : SetRequest}
    {status : EfiStatus} (h : handleSetVariable ssl m req = some (status, m')) :
    SetOutcome ssl m req status m' := by
  unfold handleSetVariable at h
  split at h
  · rename_i hr
    cases h
    exact .refused hr
  · rename_i hr
    obtain ⟨⟨status', m₁⟩, hd, h⟩ := Option.bind_eq_some_iff.mp h
    cases h
    unfold dispatch at hd
    split at hd
    · rename_i hcond
      obtain ⟨o, ho, hd⟩ := Option.bind_eq_some_iff.mp hd
      cases hd
      exact .authenticated hr hcond (authLibProcessVariable_cases ho)
    · rename_i hcond
      cases hd
      simp only [Bool.or_eq_true, not_or, Bool.not_eq_true] at hcond
      exact .plain hr hcond.1 hcond.2

theorem refusal_ne_success {req : SetRequest} {status : EfiStatus}
    (h : refusal req = some status) : status ≠ .success := by
  unfold refusal at h
  split at h
  · cases h; simp
  split at h
  · cases h; simp
  split at h
  · cases h; simp
  split at h
  · rename_i hne
    cases h
    exact hne
  · cases h

/-! ## The effect of a request -/

/-- Writes with the key of the request and, for PK only, an `update_platform_mode` behind
them. -/
def PkEffect (k : Key) (isPk : Bool) (m m' : Machine) : Prop :=
  ∃ mid, Effect k m mid ∧ (m' = mid ∨ isPk = true ∧ ∃ mode, m' = (updatePlatformMode mid mode).2)

/-- The same with what was handed over. -/
def PkFed (ssl : OpenSsl P X) (k : Key) (data : Buffer) (dataSize : Nat) (attrs : Attrs)
    (isPk : Bool) (m m' : Machine) : Prop :=
  ∃ o : Outcome, Fed ssl k data dataSize attrs m o ∧
    (m' = o.machine ∨ isPk = true ∧ ∃ mode, m' = (updatePlatformMode o.machine mode).2)

theorem Fed.toPk {ssl : OpenSsl P X} {k : Key} {data : Buffer} {dataSize : Nat} {attrs : Attrs}
    {isPk : Bool} {m : Machine} {o : Outcome} (h : Fed ssl k data dataSize attrs m o) :
    PkFed ssl k data dataSize attrs isPk m o.machine :=
  ⟨o, h, .inl rfl⟩

theorem PkFed.effect {ssl : OpenSsl P X} {k : Key} {data : Buffer} {dataSize : Nat}
    {attrs : Attrs} {isPk : Bool} {m m' : Machine}
    (h : PkFed ssl k data dataSize attrs isPk m m') : PkEffect k isPk m m' := by
  obtain ⟨o, ho, hm⟩ := h
  exact ⟨o.machine, ho.effect, hm⟩

theorem followPk_fed {ssl : OpenSsl P X} {k : Key} {data : Buffer} {dataSize : Nat}
    {attrs : Attrs} {m : Machine} {o : Outcome} {del : Bool}
    (h : Fed ssl k data dataSize attrs m o) :
    PkFed ssl k data dataSize attrs true m (followPk o del).machine := by
  rcases followPk_cases o del with ho | ⟨_, mode, _, ho⟩
  · rw [ho]
    exact h.toPk
  · rw [ho]
    exact ⟨o, h, .inr ⟨rfl, mode, rfl⟩⟩

section
variable {ssl : Phase → OpenSsl P X} {m : Machine} {k : Key} {data : Buffer} {dataSize : Nat}
  {attrs : Attrs} {o : Outcome}

theorem PkResult.fed {isPk : Bool} (h : PkResult ssl m k data dataSize attrs isPk o) :
    PkFed (ssl .verify) k data dataSize attrs isPk m o.machine := by
  cases h with
  | wrongAttrs => exact ⟨⟨.success, m, data⟩, .unchanged _ _, .inl rfl⟩
  | setup _ _ hu => exact (updateInSetupMode_fed hu).toPk
  | enrol _ _ hu => exact followPk_fed hu.fed
  | user _ _ hu =>
      cases isPk with
      | true => exact followPk_fed hu.fed
      | false => exact hu.fed.toPk

/-- A verified update without the mode change of PK. -/
theorem PkResult.fed_false (h : PkResult ssl m k data dataSize attrs false o) :
    Fed (ssl .verify) k data dataSize attrs m o := by
  cases h with
  | wrongAttrs => exact .unchanged _ _
  | setup _ _ hu => exact updateInSetupMode_fed hu
  | user _ _ hu => exact hu.fed

theorem KekResult.fed (h : KekResult ssl m k data dataSize attrs o) :
    Fed (ssl .verify) k data dataSize attrs m o := by
  cases h with
  | wrongAttrs => exact .unchanged _ _
  | setup _ _ hu => exact updateInSetupMode_fed hu
  | user _ _ hu => exact hu.fed

theorem VarResult.fed (hk : variableClass k = .other)
    (h : VarResult ssl m k data dataSize attrs o) :
    Fed (ssl .verify) k data dataSize attrs m o := by
  cases h with
  | descriptorOnly => exact ⟨.single (.set (.nothing hk)), rfl, rfl, rfl, id⟩
  | unsupported => exact .unchanged _ _
  | verified _ hu => exact hu.fed
  | plain htb => exact ⟨.single (.set (.plain htb (.inl hk))), rfl, rfl, rfl, id⟩

theorem LibResult.fed (h : LibResult ssl m k data dataSize attrs o) :
    PkFed (ssl .verify) k data dataSize attrs (variableClass k == .pk) m o.machine := by
  cases h with
  | pk hc hp => rw [hc]; exact hp.fed
  | kek _ hp => exact hp.fed_false.toPk
  | db _ hp _ => exact hp.fed_false.toPk
  | dbRetry _ hp _ hk => exact (hp.fed_false.trans hk.fed).toPk
  | other hc hv => exact (hv.fed hc).toPk

/-- The saved copy is not touched on the way. -/
theorem LibResult.persistent (h : LibResult ssl m k data dataSize attrs o) :
    o.machine.persistent = m.persistent := by
  obtain ⟨o', ho', hm | ⟨_, mode, hm⟩⟩ := h.fed
  · rw [hm]
    exact ho'.persistent
  · rw [hm]
    exact ho'.persistent

theorem PkResult.effect {isPk : Bool} (h : PkResult ssl m k data dataSize attrs isPk o) :
    PkEffect k isPk m o.machine :=
  h.fed.effect

theorem PkResult.effect_false (h : PkResult ssl m k data dataSize attrs false o) :
    Effect k m o.machine :=
  h.fed_false.effect

theorem LibResult.effect (h : LibResult ssl m k data dataSize attrs o) :
    PkEffect k (variableClass k == .pk) m o.machine :=
  h.fed.effect

end

/-- The whole of a request: writes with its key, then at most one `update_platform_mode`,
and that only for a request that names PK. -/
theorem handleSetVariable_effect {ssl : Phase → OpenSsl P X} {m m' : Machine}
    {req : SetRequest} {status : EfiStatus}
    (h : handleSetVariable ssl m req = some (status, m')) :
    ∃ mid, Effect req.key m mid ∧ (m'.storage = mid.storage ∧ m'.setupMode = mid.setupMode ∨
      variableClass req.key = .pk ∧ ∃ mode,
        m'.storage = (updatePlatformMode mid mode).2.storage ∧ m'.setupMode = mode) := by
  cases handleSetVariable_cases h with
  | refused => exact ⟨m, .refl m, .inl ⟨rfl, rfl⟩⟩
  | authenticated _ _ hl =>
      obtain ⟨mid, hmid, hm⟩ := hl.effect
      refine ⟨mid, ⟨hmid.writes, hmid.setupMode, hmid.secureBootEnabled⟩, ?_⟩
      rcases hm with rfl | ⟨hpk, mode, hm⟩
      · exact .inl ⟨Machine.saved_storage .., Machine.saved_setupMode ..⟩
      · refine .inr ⟨by simpa using hpk, mode, ?_, ?_⟩
        · rw [Machine.saved_storage, hm]
        · rw [Machine.saved_setupMode, hm, updatePlatformMode_setupMode]
  | plain =>
      refine ⟨{ m with storage := (storageSet m.storage req.key (some req.data) req.attrs).2 },
        ⟨.single (k := req.key) rfl (.set _ _), rfl, rfl⟩, .inl ⟨?_, ?_⟩⟩
      · exact Machine.saved_storage ..
      · exact Machine.saved_setupMode ..

theorem PkEffect.writes {k : Key} {isPk : Bool} {m m' : Machine} (h : PkEffect k isPk m m') :
    Writes (fun k' => k' = k ∨ k' ∈ modeKeys) m.storage m'.storage := by
  obtain ⟨mid, hmid, rfl | ⟨_, mode, rfl⟩⟩ := h
  · exact hmid.writes.mono (fun _ => .inl)
  · exact (hmid.writes.mono (fun _ => .inl)).trans
      ((updatePlatformMode_writes mid mode).mono (fun _ => .inr))

/-- A request that passes the checks writes with its key and with the mode keys; one that
is refused writes nothing. -/
theorem handleSetVariable_writes {ssl : Phase → OpenSsl P X} {m m' : Machine}
    {req : SetRequest} {status : EfiStatus}
    (h : handleSetVariable ssl m req = some (status, m')) :
    Writes (fun k => k = req.key ∧ refusal req = none ∨ k ∈ modeKeys) m.storage m'.storage := by
  cases handleSetVariable_cases h with
  | refused => exact .refl _
  | authenticated hr _ hl =>
      rw [Machine.saved_storage]
      exact hl.effect.writes.mono (fun k hk => hk.imp (fun hk => ⟨hk, hr⟩) id)
  | plain hr =>
      rw [Machine.saved_storage]
      exact .single (k := req.key) (.inl ⟨rfl, hr⟩) (.set _ _)

theorem setModeVariables_invariant {I : Storage → Prop} : ∀ (l : List (Key × UInt8)) {s : Storage},
    (∀ s k value, k ∈ l.map Prod.fst → I s → I (storageSet s k (some [value]) RT_BS_ATTRS).2) →
    I s → I (setModeVariables s l).2
  | [], _, _, hs => hs
  | (k, value) :: rest, s, hstep, hs => by
      have hset : I (storageSet s k (some [value]) RT_BS_ATTRS).2 :=
        hstep s k value List.mem_cons_self hs
      unfold setModeVariables
      split
      · rename_i s₁ hs₁
        rw [hs₁] at hset
        refine setModeVariables_invariant rest ?_ hset
        intro s' k' value' hk'
        exact hstep s' k' value' (List.mem_cons_of_mem _ hk')
      · rename_i hs₁
        rw [hs₁] at hset
        exact hset

/-- What processing a variable preserves: its writes, which hand over what it offers, the
stamps it sets, and for PK the mode variables. -/
theorem LibResult.invariant {ssl : Phase → OpenSsl P X} {m : Machine} {k : Key} {data : Buffer}
    {dataSize : Nat} {attrs : Attrs} {o : Outcome}
    (h : LibResult ssl m k data dataSize attrs o) {I : Storage → Prop}
    (hset : ∀ s d a, Offers (ssl .verify) k data dataSize attrs s d a → I s →
      I (storageSet s k d a).2)
    (hmark : ∀ s i time cert, s.findSlot k = some i → I s →
      I (s.setSlot i { s.vars i with timestamp := time, cert := cert }))
    (hmode : variableClass k = .pk → ∀ s K value, K ∈ modeKeys → I s →
      I (storageSet s K (some [value]) RT_BS_ATTRS).2)
    (hm : I m.storage) : I o.machine.storage := by
  obtain ⟨o', ho', hcases⟩ := h.fed
  have hmid : I o'.machine.storage := by
    refine ho'.writes.invariant ?_ hm
    intro s s' hw
    cases hw with
    | set hd => exact hset _ _ _ hd
    | mark time cert hi => exact hmark _ _ time cert hi
  rcases hcases with hm' | ⟨hpk, mode, hm'⟩
  · rw [hm']
    exact hmid
  · rw [hm']
    refine setModeVariables_invariant _ ?_ hmid
    rw [modeVariables_keys]
    exact hmode (beq_iff_eq.mp hpk)

/-- The same for a request: one that is refused writes nothing. -/
theorem handleSetVariable_invariant {ssl : Phase → OpenSsl P X} {m m' : Machine}
    {req : SetRequest} {status : EfiStatus}
    (h : handleSetVariable ssl m req = some (status, m')) {I : Storage → Prop}
    (hset : refusal req = none → ∀ s d a,
      Offers (ssl .verify) req.key req.buffer req.data.length req.attrs s d a → I s →
      I (storageSet s req.key d a).2)
    (hmark : refusal req = none → ∀ s i time cert, s.findSlot req.key = some i → I s →
      I (s.setSlot i { s.vars i with timestamp := time, cert := cert }))
    (hmode : variableClass req.key = .pk → ∀ s K value, K ∈ modeKeys → I s →
      I (storageSet s K (some [value]) RT_BS_ATTRS).2)
    (hm : I m.storage) : I m'.storage := by
  cases handleSetVariable_cases h with
  | refused => exact hm
  | plain hr htb hsb =>
      rw [Machine.saved_storage]
      exact hset hr _ _ _ (.plain htb (.inr hsb)) hm
  | authenticated hr _ hl =>
      rw [Machine.saved_storage]
      exact hl.invariant (hset hr) (hmark hr) hmode hm

/-! ## Start-up -/

theorem loadAuthFiles_writes {ssl : Phase → OpenSsl P X} : ∀ {auths : List AuthData}
    {m m' : Machine} {status : EfiStatus}, loadAuthFiles ssl m auths = some (status, m') →
    Writes (fun k => k ∈ auths.map AuthData.key ∨ k ∈ modeKeys) m.storage m'.storage
  | [], _, _, _, h => by
      cases h
      exact .refl _
  | auth :: rest, m, m', status, h => by
      have hrest : ∀ {m₁ m₂ : Machine} {st : EfiStatus},
          loadAuthFiles ssl m₁ rest = some (st, m₂) →
          Writes (fun k => k ∈ (auth :: rest).map AuthData.key ∨ k ∈ modeKeys)
            m₁.storage m₂.storage :=
        fun hr => (loadAuthFiles_writes hr).mono
          (fun k hk => hk.imp (List.mem_cons_of_mem _) id)
      unfold loadAuthFiles at h
      split at h
      · exact hrest h
      · obtain ⟨o, ho, h⟩ := Option.bind_eq_some_iff.mp h
        have hfirst : Writes (fun k => k ∈ (auth :: rest).map AuthData.key ∨ k ∈ modeKeys)
            m.storage o.machine.storage := by
          refine (authLibProcessVariable_cases ho).effect.writes.mono ?_
          intro k hk
          exact hk.imp (fun hk => by simp [hk]) id
        split at h
        · cases h
          exact hfirst
        · exact hfirst.trans (hrest h)

/-- The keys that `auth_lib_initialize` writes: its own and those of the files. -/
def startKeys (auths : List AuthData) : List Key :=
  signatureSupportKey :: auditModeKey :: (auths.map AuthData.key ++ modeKeys)

theorem authLibInitialize_writes {ssl : Phase → OpenSsl P X} {m m' : Machine}
    {auths : List AuthData} {status : EfiStatus}
    (h : authLibInitialize ssl m auths = some (status, m')) :
    Writes (· ∈ startKeys auths) m.storage m'.storage := by
  have hmode : ∀ m₁ mode,
      Writes (· ∈ startKeys auths) m₁.storage (updatePlatformMode m₁ mode).2.storage :=
    fun m₁ mode => (updatePlatformMode_writes m₁ mode).mono
      (fun k hk => by simp [startKeys, hk])
  have h₁ : Writes (· ∈ startKeys auths) m.storage
      (storageSet m.storage signatureSupportKey (some signatureSupport) RT_BS_ATTRS).2 :=
    .single (k := signatureSupportKey) (by simp [startKeys]) (.set _ _)
  unfold authLibInitialize at h
  dsimp only at h
  split at h
  · cases h
    exact h₁
  have h₂ := h₁.trans (hmode { m with storage :=
    (storageSet m.storage signatureSupportKey (some signatureSupport) RT_BS_ATTRS).2 } .setup)
  split at h
  · cases h
    exact h₂
  obtain ⟨⟨status₃, m₃⟩, hload, h⟩ := Option.bind_eq_some_iff.mp h
  have h₃ := h₂.trans ((loadAuthFiles_writes hload).mono
    (fun k hk => List.mem_cons_of_mem _ (List.mem_cons_of_mem _ (List.mem_append.mpr hk))))
  dsimp only at h
  split at h
  · cases h
    exact h₃
  have h₄ : Writes (· ∈ startKeys auths) m.storage (userModeIfPk m₃).2.storage := by
    unfold userModeIfPk
    split
    · exact h₃.trans (hmode m₃ .user)
    · exact h₃
  split at h
  · cases h
    exact h₄
  · cases h
    exact h₄.trans (.single (k := auditModeKey) (by simp [startKeys]) (.set _ _))

/-- What a successful start-up went through. -/
theorem authLibInitialize_success {ssl : Phase → OpenSsl P X} {m m' : Machine}
    {auths : List AuthData} (h : authLibInitialize ssl m auths = some (.success, m')) :
    ∃ m₁ m₂, updatePlatformMode { m with storage := (storageSet m.storage signatureSupportKey
        (some signatureSupport) RT_BS_ATTRS).2 } .setup = (.success, m₁) ∧
      loadAuthFiles ssl m₁ auths = some (.success, m₂) ∧ (userModeIfPk m₂).1 = .success ∧
      m' = { (userModeIfPk m₂).2 with
        storage := (storageSet (userModeIfPk m₂).2.storage auditModeKey
          (some [0]) RT_BS_ATTRS).2 } := by
  unfold authLibInitialize at h
  dsimp only at h
  split at h
  · rename_i hfail
    exact absurd (congrArg Prod.fst (Option.some.inj h)) hfail
  split at h
  · rename_i hfail
    exact absurd (congrArg Prod.fst (Option.some.inj h)) hfail
  rename_i hok₁
  obtain ⟨⟨status, m₂⟩, hload, h⟩ := Option.bind_eq_some_iff.mp h
  dsimp only at h
  split at h
  · rename_i hfail
    exact absurd (congrArg Prod.fst (Option.some.inj h)) hfail
  rename_i hok₂
  obtain rfl : status = .success := not_not.mp hok₂
  split at h
  · rename_i hfail
    exact absurd (congrArg Prod.fst (Option.some.inj h)) hfail
  rename_i hok₃
  exact ⟨_, m₂, Prod.ext (not_not.mp hok₁) rfl, hload, not_not.mp hok₃,
    (congrArg Prod.snd (Option.some.inj h)).symm⟩

end

end Uefistored
