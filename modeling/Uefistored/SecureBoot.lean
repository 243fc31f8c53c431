/-
# `Uefistored.SecureBoot` — the keys change only behind a signature

PK, KEK, db, dbx and dbt in user mode.  There are many routes to the store:
two dispatches with different name tests, the attempt with PK and the second
chance with KEK, appends, deletions, wrong attributes.  On each of them a
change of one of these variables is a change to the variable the request
names, behind a `verify_pk` (for the databases also a `verify_kek`) that
returned true on the request's message (`secureBootKeys_guarded`).

The request's name is one without NUL units, as the client sends it, so the
name tests and the store agree on which variable is meant.
-/
import Uefistored.Effect

namespace Uefistored

open Lib

/-- db, dbx and dbt. -/
def databaseKeys : List Key := [dbKey, dbxKey, dbtKey]

/-- PK, KEK and the databases. -/
def secureBootKeys : List Key := pkKey :: kekKey :: databaseKeys

theorem secureBootKeys_clean : ∀ K ∈ secureBootKeys, K.Clean := by
  intro K hK
  simp only [secureBootKeys, databaseKeys, List.mem_cons, List.not_mem_nil, or_false] at hK
  rcases hK with rfl | rfl | rfl | rfl | rfl <;>
    exact Key.clean_of_nulFree (by decide) (by decide) _

theorem modeKeys_not_secureBoot : ∀ k ∈ modeKeys, ∀ K ∈ secureBootKeys, ¬ k.Same K := by
  decide +kernel

theorem secureBootKeys_dispatch : ∀ K ∈ secureBootKeys, isSecureBootVariable K = true ∧
    (variableClass K = .pk ∧ K = pkKey ∨ variableClass K = .kek ∧ K = kekKey ∨
      variableClass K = .db ∧ K ∈ databaseKeys) := by
  decide +kernel

theorem secureBootKeys_class : ∀ K ∈ secureBootKeys,
    variableClass K = .pk ∧ K = pkKey ∨ variableClass K = .kek ∧ K = kekKey ∨
      variableClass K = .db ∧ K ∈ databaseKeys :=
  fun K hK => (secureBootKeys_dispatch K hK).2

theorem secureBootKeys_dispatched : ∀ K ∈ secureBootKeys, isSecureBootVariable K = true :=
  fun K hK => (secureBootKeys_dispatch K hK).1

/-- The variables whose appends are filtered. -/
def sigListKeys : List Key := [kekKey, dbKey, dbxKey, dbtKey]

theorem sigListKeys_secureBoot : ∀ k ∈ sigListKeys, k ∈ secureBootKeys := by
  decide +kernel

theorem isVar_of_isMatch {v : Variable} {l : List UInt8} {g : Guid}
    (hl : l.length ≤ MAX_VARIABLE_NAME_SIZE) (h : v.isMatch (Key.of l g) = true) :
    v.guid = g ∧ isVar v l = true := by
  obtain ⟨hsz, hbytes, hguid⟩ := Variable.isMatch_iff.mp h
  refine ⟨hguid, ?_⟩
  rw [Key.bytes_of hl] at hbytes
  rw [isVar, Bool.and_eq_true, beq_iff_eq, beq_iff_eq]
  exact ⟨hsz, hbytes⟩

theorem isSigListVariable_of_isMatch {k : Key} (hk : k ∈ sigListKeys) {v : Variable}
    (h : v.isMatch k = true) : isSigListVariable v = true := by
  unfold isSigListVariable
  simp only [sigListKeys, List.mem_cons, List.not_mem_nil, or_false] at hk
  rcases hk with rfl | rfl | rfl | rfl
  · obtain ⟨hguid, hvar⟩ := isVar_of_isMatch (by decide) h
    simp [hguid, hvar]
  · obtain ⟨hguid, hvar⟩ := isVar_of_isMatch (by decide) h
    simp [hguid, hvar]
  · obtain ⟨hguid, hvar⟩ := isVar_of_isMatch (by decide) h
    simp [hguid, hvar]
  · obtain ⟨hguid, hvar⟩ := isVar_of_isMatch (by decide) h
    simp [hguid, hvar]

/-- A variable that is filtered is found under one of these keys only. -/
theorem mem_sigListKeys_of_isMatch {l : List UInt8} {g : Guid}
    (hl : l.length ≤ MAX_VARIABLE_NAME_SIZE) {v : Variable} (hm : v.isMatch (Key.of l g) = true)
    (hv : isSigListVariable v = true) : Key.of l g ∈ sigListKeys := by
  obtain ⟨_, hb, hg⟩ := Variable.isMatch_iff.mp hm
  have hname : ∀ w, isVar v w = true → l = w := by
    intro w hw
    simp only [isVar, Bool.and_eq_true, beq_iff_eq] at hw
    rw [← Key.bytes_of hl g, ← hb, Variable.keyBytes, hw.2]
  have hguid : v.guid = g := hg
  simp only [isSigListVariable, Bool.or_eq_true, Bool.and_eq_true, beq_iff_eq, hguid] at hv
  rcases hv with ⟨rfl, (h | h) | h⟩ | ⟨rfl, h⟩
  · rw [hname _ h]
    exact List.mem_cons_of_mem _ List.mem_cons_self
  · rw [hname _ h]
    exact List.mem_cons_of_mem _ (List.mem_cons_of_mem _ List.mem_cons_self)
  · rw [hname _ h]
    exact List.mem_cons_of_mem _ (List.mem_cons_of_mem _
      (List.mem_cons_of_mem _ List.mem_cons_self))
  · rw [hname _ h]
    exact List.mem_cons_self

theorem sigListKeys_formatKind : ∀ k ∈ sigListKeys, formatKind k.name k.guid = some false := by
  decide +kernel

/-- The key of a request whose name has no NUL unit. -/
theorem SetRequest.key_clean {req : SetRequest} (h : NulFree req.name) : req.key.Clean :=
  Key.clean_of_nulFree h req.name_fits req.guid

/-- The class that `auth_lib_process_variable` finds by `strcmp16` is that of the name. -/
theorem SetRequest.key_mem_of_class {req : SetRequest} (hname : NulFree req.name)
    (hc : variableClass req.key ≠ .other) : req.key ∈ secureBootKeys := by
  have hkey : ∀ (w : List UInt8) (g : Guid), NulFree w → w.length ≤ MAX_VARIABLE_NAME_SIZE →
      req.guid = g → strcmp16 (nameArray req.name) (nameArray w) = true → req.key = Key.of w g := by
    rintro w g hw hwl rfl hcmp
    rw [SetRequest.key, (strcmp16_iff hname req.name_fits hw hwl).mp hcmp]
  unfold variableClass at hc
  split at hc
  · rename_i hcond
    simp only [Bool.and_eq_true, beq_iff_eq] at hcond
    rw [hkey _ _ (by decide) (by decide) hcond.1 hcond.2]
    simp [secureBootKeys, pkKey]
  split at hc
  · rename_i hcond
    simp only [Bool.and_eq_true, beq_iff_eq] at hcond
    rw [hkey _ _ (by decide) (by decide) hcond.1 hcond.2]
    simp [secureBootKeys, kekKey]
  split at hc
  · rename_i hcond
    simp only [Bool.and_eq_true, Bool.or_eq_true, beq_iff_eq] at hcond
    obtain ⟨hg, (h | h) | h⟩ := hcond
    · rw [hkey _ _ (by decide) (by decide) hg h]
      simp [secureBootKeys, databaseKeys, dbKey]
    · rw [hkey _ _ (by decide) (by decide) hg h]
      simp [secureBootKeys, databaseKeys, dbxKey]
    · rw [hkey _ _ (by decide) (by decide) hg h]
      simp [secureBootKeys, databaseKeys, dbtKey]
  · exact absurd rfl hc

/-- The payload behind the descriptor of a request. -/
def requestPayload (req : SetRequest) : Option (List UInt8) := do
  let sigSize ← sigDataSize req.buffer
  req.buffer.slice (OFFSET_OF_AUTHINFO2_CERT_DATA + sigSize)
    (sub64 (sub64 req.data.length OFFSET_OF_AUTHINFO2_CERT_DATA) sigSize)

/-- The message `verify_time_based_payload` builds from a request. -/
def requestMessage (req : SetRequest) : Option (List UInt8) := do
  let stamp ← req.buffer.slice 0 16
  let payload ← requestPayload req
  return signedMessage req.key req.attrs stamp payload

section
variable {P X : Type}

/-! ## Verified, or unchanged -/

theorem Described.requestPayload_eq {req : SetRequest} {org : Option EfiTime} {off size : Nat}
    {msg payload : List UInt8} {time : EfiTime}
    (h : Described req.key req.buffer req.data.length req.attrs org off size msg time)
    (hp : req.buffer.slice off size = some payload) : requestPayload req = some payload := by
  obtain ⟨sigSize, hsig, rfl⟩ := Option.map_eq_some_iff.mp h.off_eq
  obtain ⟨sigSize', hsig', rfl⟩ := Option.map_eq_some_iff.mp h.size_eq
  obtain rfl : sigSize = sigSize' := Option.some.inj (hsig.symm.trans hsig')
  exact Option.bind_eq_some_iff.mpr ⟨sigSize, hsig, hp⟩

theorem Described.requestMessage_eq {req : SetRequest} {org : Option EfiTime} {off size : Nat}
    {msg : List UInt8} {time : EfiTime}
    (h : Described req.key req.buffer req.data.length req.attrs org off size msg time) :
    requestMessage req = some msg := by
  obtain ⟨stamp, payload, hstamp, hpayload, rfl⟩ := h.msg_eq
  exact Option.bind_eq_some_iff.mpr ⟨stamp, hstamp, Option.bind_eq_some_iff.mpr
    ⟨payload, h.requestPayload_eq hpayload, rfl⟩⟩

/-- An update that touched the store was accepted, and its call is on record. -/
theorem UpdateResult.unchanged_or_accepted {ssl : Phase → OpenSsl P X} {m : Machine} {k : Key}
    {data : Buffer} {dataSize : Nat} {attrs : Attrs} {kind : AuthVarType} {o : Outcome}
    {del : Bool} (h : UpdateResult ssl m k data dataSize attrs kind o del) :
    (o.machine.storage = m.storage ∧ o.data = data ∧ o.status ≠ .success) ∨
      ∃ off size msg time,
        Accepted (ssl .verify) m.storage k data dataSize attrs kind off size msg time ∧
        ⟨kind, msg, true⟩ ∈ o.machine.calls := by
  have hcall : ∀ msg s, ⟨kind, msg, true⟩ ∈ (m.updated kind msg s).calls :=
    fun msg s => List.mem_append_right _ (List.mem_singleton_self _)
  cases h with
  | rejected hs _ => exact .inl ⟨rfl, rfl, hs⟩
  | failed hacc _ _ => exact .inr ⟨_, _, _, _, hacc, hcall _ _⟩
  | deleted hacc _ _ => exact .inr ⟨_, _, _, _, hacc, hcall _ _⟩
  | lost hacc _ _ _ => exact .inr ⟨_, _, _, _, hacc, hcall _ _⟩
  | undigested hacc _ _ _ _ => exact .inr ⟨_, _, _, _, hacc, hcall _ _⟩
  | recorded hacc _ _ _ _ => exact .inr ⟨_, _, _, _, hacc, hcall _ _⟩

/-- Verification only adds to the record. -/
theorem UpdateResult.calls_mem {ssl : Phase → OpenSsl P X} {m : Machine} {k : Key}
    {data : Buffer} {dataSize : Nat} {attrs : Attrs} {kind : AuthVarType} {o : Outcome}
    {del : Bool} (h : UpdateResult ssl m k data dataSize attrs kind o del) {c : VerifyCall}
    (hc : c ∈ m.calls) : c ∈ o.machine.calls := by
  cases h with
  | rejected => exact List.mem_append_left _ hc
  | failed => exact List.mem_append_left _ hc
  | deleted => exact List.mem_append_left _ hc
  | lost => exact List.mem_append_left _ hc
  | undigested => exact List.mem_append_left _ hc
  | recorded => exact List.mem_append_left _ hc

/-- `process_var_with_pk` in user mode. -/
theorem PkResult.unchanged_or_accepted {ssl : Phase → OpenSsl P X} {m : Machine} {k : Key}
    {data : Buffer} {dataSize : Nat} {attrs : Attrs} {isPk : Bool} {o : Outcome}
    (hmode : m.setupMode = .user) (h : PkResult ssl m k data dataSize attrs isPk o) :
    (o.machine.storage = m.storage ∧ o.data = data) ∨ ∃ off size msg time,
      Accepted (ssl .verify) m.storage k data dataSize attrs .pk off size msg time ∧
        ⟨.pk, msg, true⟩ ∈ o.machine.calls := by
  cases h with
  | wrongAttrs => exact .inl ⟨rfl, rfl⟩
  | setup hs => rw [hmode] at hs; cases hs
  | enrol hs => rw [hmode] at hs; cases hs
  | @user o' del _ _ _ hu =>
      cases isPk with
      | false => exact hu.unchanged_or_accepted.imp (fun h => ⟨h.1, h.2.1⟩) id
      | true =>
          simp only [if_true]
          rcases hu.unchanged_or_accepted with
            ⟨hst, hdata, hfail⟩ | ⟨off, size, msg, time, hacc, hc⟩
          · rcases followPk_cases o' del with ho | ⟨hok, _⟩
            · rw [ho]
              exact .inl ⟨hst, hdata⟩
            · exact absurd hok hfail
          · refine .inr ⟨off, size, msg, time, hacc, ?_⟩
            rcases followPk_cases o' del with ho | ⟨_, _, _, ho⟩
            · rwa [ho]
            · rwa [ho]

/-- `process_var_with_kek` in user mode. -/
theorem KekResult.unchanged_or_accepted {ssl : Phase → OpenSsl P X} {m : Machine} {k : Key}
    {data : Buffer} {dataSize : Nat} {attrs : Attrs} {o : Outcome}
    (hmode : m.setupMode = .user) (h : KekResult ssl m k data dataSize attrs o) :
    (o.machine.storage = m.storage ∨ ∃ off size msg time,
      Accepted (ssl .verify) m.storage k data dataSize attrs .kek off size msg time ∧
        ⟨.kek, msg, true⟩ ∈ o.machine.calls) ∧ ∀ c ∈ m.calls, c ∈ o.machine.calls := by
  cases h with
  | wrongAttrs => exact ⟨.inl rfl, fun _ hc => hc⟩
  | setup hs => rw [hmode] at hs; cases hs
  | user _ _ hu => exact ⟨hu.unchanged_or_accepted.imp And.left id, fun _ hc => hu.calls_mem hc⟩

/-! ## Requests for other variables -/

/-- A request with a NUL-free name leaves every secure boot variable alone but the one it
names: the mode variables that a request for PK sets are none of them. -/
theorem view_eq_of_other {ssl : Phase → OpenSsl P X} {m m' : Machine} {req : SetRequest}
    {status : EfiStatus} (hname : NulFree req.name)
    (h : handleSetVariable ssl m req = some (status, m')) {K : Key} (hK : K ∈ secureBootKeys)
    (hne : ¬ req.key.Same K) :
    storageFindVariable m'.storage K = storageFindVariable m.storage K := by
  have hKclean := secureBootKeys_clean K hK
  obtain ⟨mid, hmid, hm⟩ := handleSetVariable_effect h
  have hmidfind : storageFindVariable mid.storage K = storageFindVariable m.storage K := by
    refine hmid.writes.find_eq ?_
    rintro k rfl
    exact (SetRequest.key_clean hname).spares hKclean hne
  rcases hm with ⟨hst, _⟩ | ⟨_, mode, hst, _⟩
  · rw [hst, hmidfind]
  · rw [hst, ← hmidfind]
    exact updatePlatformMode_find_eq hKclean (fun k hk => modeKeys_not_secureBoot k hk K hK)
      mid mode

theorem key_eq_of_same {req : SetRequest} {K : Key} (hK : K ∈ secureBootKeys)
    (h : req.key.Same K) : req.key = K := by
  simp only [secureBootKeys, databaseKeys, List.mem_cons, List.not_mem_nil, or_false] at hK
  rcases hK with rfl | rfl | rfl | rfl | rfl <;>
    exact Key.Same.key_eq req.name_fits (by decide) h

/-! ## The result -/

/-- The message of the request passed `verify_pk`, or `verify_kek`, against the store it
found, and the call is on record. -/
def SetRequest.VerifiedBy (req : SetRequest) (ssl : OpenSsl P X) (s : Storage) (m' : Machine)
    (kind : AuthVarType) : Prop :=
  ∃ off msg, requestMessage req = some msg ∧
    verifyBy ssl s req.key req.buffer off msg kind = some true ∧ ⟨kind, msg, true⟩ ∈ m'.calls

/-- In user mode, a request that creates, deletes or changes attributes or data of PK, KEK,
db, dbx or dbt names that variable, and `verify_pk` returned true on the request's message
while it was handled; for db, dbx and dbt it may have been `verify_kek` instead. -/
theorem secureBootKeys_guarded {ssl : Phase → OpenSsl P X} {m m' : Machine} {req : SetRequest}
    {status : EfiStatus} (hmode : m.setupMode = .user) (hname : NulFree req.name)
    (h : handleSetVariable ssl m req = some (status, m')) {K : Key} (hK : K ∈ secureBootKeys)
    (hchange : view m'.storage K ≠ view m.storage K) :
    req.key = K ∧ (req.VerifiedBy (ssl .verify) m.storage m' .pk ∨
      K ∈ databaseKeys ∧ req.VerifiedBy (ssl .verify) m.storage m' .kek) := by
  have hsame : req.key.Same K := by
    by_contra hne
    exact hchange (by rw [view, view, view_eq_of_other hname h hK hne])
  have hkey := key_eq_of_same hK hsame
  refine ⟨hkey, ?_⟩
  have hview : ∀ s : Storage, s = m.storage → view s K = view m.storage K := fun s hs => by rw [hs]
  cases handleSetVariable_cases h with
  | refused => exact absurd (hview _ rfl) hchange
  | plain _ _ hsb => rw [hkey, secureBootKeys_dispatched K hK] at hsb; cases hsb
  | @authenticated o _ _ hl =>
      rw [Machine.saved_storage] at hchange
      have hopen : (m.opened req).setupMode = .user := hmode
      -- what a verified attempt gives
      have hver : ∀ {kind off size msg time}, Accepted (ssl .verify) m.storage req.key req.buffer
          req.data.length req.attrs kind off size msg time → ⟨kind, msg, true⟩ ∈ o.machine.calls →
          req.VerifiedBy (ssl .verify) m.storage (o.machine.saved o.status req.attrs) kind :=
        fun hacc hc => ⟨_, _, hacc.described.requestMessage_eq, hacc.verified,
          by rwa [Machine.saved_calls]⟩
      cases hl with
      | other hc =>
          rcases secureBootKeys_class K hK with ⟨h', _⟩ | ⟨h', _⟩ | ⟨h', _⟩ <;>
            rw [hkey, h'] at hc <;> cases hc
      | pk _ hp =>
          rcases hp.unchanged_or_accepted hopen with ⟨hst, _⟩ | ⟨_, _, _, _, hacc, hc⟩
          · exact absurd (hview _ hst) hchange
          · exact .inl (hver hacc hc)
      | kek _ hp =>
          rcases hp.unchanged_or_accepted hopen with ⟨hst, _⟩ | ⟨_, _, _, _, hacc, hc⟩
          · exact absurd (hview _ hst) hchange
          · exact .inl (hver hacc hc)
      | db _ hp _ =>
          rcases hp.unchanged_or_accepted hopen with ⟨hst, _⟩ | ⟨_, _, _, _, hacc, hc⟩
          · exact absurd (hview _ hst) hchange
          · exact .inl (hver hacc hc)
      | dbRetry hclass hp _ hk =>
          have hmode' := hp.effect_false.setupMode.trans hopen
          obtain ⟨hkek, hmem⟩ := hk.unchanged_or_accepted hmode'
          rcases hp.unchanged_or_accepted hopen with ⟨hst, hdata⟩ | ⟨_, _, _, _, hacc, hc⟩
          · rcases hkek with hst' | ⟨_, _, _, _, hacc, hc⟩
            · exact absurd (hview _ (hst'.trans hst)) hchange
            · rw [hst, hdata] at hacc
              refine .inr ⟨?_, hver hacc hc⟩
              rcases secureBootKeys_class K hK with ⟨h', _⟩ | ⟨h', _⟩ | ⟨_, h'⟩
              · rw [hkey, h'] at hclass; cases hclass
              · rw [hkey, h'] at hclass; cases hclass
              · exact h'
          · exact .inl (hver hacc (hmem _ hc))

end

/-- A store in user mode with PK and KEK. -/
def enrolled : Machine :=
  .ofStorage (.ofList [.ofKey pkKey oneCertList AT_ATTRS, .ofKey kekKey oneCertList AT_ATTRS]) .user

/-- The request to delete KEK: a signed descriptor with nothing behind it. -/
def deleteKek : SetRequest :=
  authRequest EFI_KEY_EXCHANGE_KEY_NAME gEfiGlobalVariableGuid 2021 AT_ATTRS [] (by decide)

/-- The request to set KEK to two certificates. -/
def extendKek : SetRequest :=
  authRequest EFI_KEY_EXCHANGE_KEY_NAME gEfiGlobalVariableGuid 2021 AT_ATTRS
    (oneCertList ++ oneCertList) (by decide)

theorem secureBootKeys_guarded_deleteKek : ∃ m',
    handleSetVariable (fun _ => .accepting) enrolled deleteKek = some (.success, m') ∧
      view m'.storage kekKey ≠ view enrolled.storage kekKey ∧ deleteKek.key = kekKey := by
  have hrun : (handleSetVariable (fun _ => .accepting) enrolled deleteKek).map
      (fun r => (r.1, view r.2.storage kekKey)) = some (.success, none) := by
    decide +kernel
  obtain ⟨⟨status, m'⟩, h, hr⟩ := Option.map_eq_some_iff.mp hrun
  obtain ⟨rfl, hview⟩ := Prod.mk.inj hr
  have hchange : view m'.storage kekKey ≠ view enrolled.storage kekKey := by
    rw [hview]
    decide +kernel
  exact ⟨m', h, hchange,
    (secureBootKeys_guarded rfl (by decide +kernel) h (by simp [secureBootKeys]) hchange).1⟩

end Uefistored
