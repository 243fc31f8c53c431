/-
# `Uefistored.Atomic` — a request that fails

A request that is answered with an error should leave no trace.  Nearly every
error is found before the first write; what comes after one is the digest of
the signer and, for PK, the mode variables.  When either fails the status is an
error and the write stays.

`LeavesTrace` lists the requests that come to such an exit, by the request, the
answers of OpenSSL and the store in front of them:

    digest         accepted, the write shows, and the signer has no digest
    first, second  the same in one of the two attempts at db, dbx and dbt
    enrol, drop    PK is written or deleted, and there is no room for the mode variables

and a request with a NUL-free name fails without a trace exactly when it is none
of them (`failsCleanly_iff`).
-/
import Uefistored.PlatformKey
import Uefistored.Room
import Uefistored.Trace

namespace Uefistored

open Lib

section
variable {P X : Type}

/-! ## The requests that leave a trace -/

/-- The verifier a request is put to first. -/
inductive PutTo (m : Machine) (req : SetRequest) : AuthVarType → Prop
  | payload : variableClass req.key = .pk → m.setupMode = .setup →
      req.attrs.nonVolatile = true → PutTo m req .payload
  | pk : variableClass req.key ≠ .other → m.setupMode = .user →
      req.attrs.nonVolatile = true → PutTo m req .pk
  | priv : variableClass req.key = .other →
      deletesByDescriptor m.storage req.key req.buffer req.data.length req.attrs = some false →
      PutTo m req .priv

/-- The request passes the checks in front and is put to a verifier. -/
structure Reaches (m : Machine) (req : SetRequest) (kind : AuthVarType) : Prop where
  admitted : refusal req = none
  timeBased : req.attrs.timeBased = true
  putTo : PutTo m req kind

/-- The room a store has behind a write under `k`. -/
def Storage.roomBehind (s : Storage) (k : Key) : Room :=
  if (s.findSlot k).isSome then s.room else s.room.taken

/-- The requests that are answered with an error behind a write. -/
inductive LeavesTrace (ssl : Phase → OpenSsl P X) (m : Machine) (req : SetRequest) : Prop
  /-- The write shows, and the signer has no digest. -/
  | digest {kind : AuthVarType} {b' : Buffer} : Reaches m req kind →
      variableClass req.key ≠ .db →
      Marking (ssl .verify) m.storage req.key req.buffer req.data.length req.attrs kind b' →
      Undigested (ssl .digest) req.buffer → LeavesTrace ssl m req
  /-- The same in the attempt with PK at a database; and what the attempt with KEK reads is
  there. -/
  | first {b' : Buffer} : Reaches m req .pk → variableClass req.key = .db →
      Marking (ssl .verify) m.storage req.key req.buffer req.data.length req.attrs .pk b' →
      Undigested (ssl .digest) req.buffer → req.Inside ssl m → LeavesTrace ssl m req
  /-- The attempt with PK leaves the store as it was, and it is the same in the attempt with KEK. -/
  | second {b₁ b₂ : Buffer} : Reaches m req .pk → variableClass req.key = .db →
      Handed (ssl .verify) m.storage req.key req.buffer req.data.length req.attrs b₁ →
      Marking (ssl .verify) m.storage req.key b₁ req.data.length req.attrs .kek b₂ →
      Undigested (ssl .digest) req.buffer → LeavesTrace ssl m req
  /-- PK is stored in setup mode, and the mode variables do not fit. -/
  | enrol {off size : Nat} {msg payload : List UInt8} {time : EfiTime} : Reaches m req .payload →
      Accepted (ssl .verify) m.storage req.key req.buffer req.data.length req.attrs .payload
        off size msg time →
      req.buffer.slice off size = some payload → payload ≠ [] →
      m.storage.Keeps req.key payload req.attrs → ¬ Undigested (ssl .digest) req.buffer →
      ¬ ModesFit m.storage (m.storage.roomBehind req.key) modeKeys → LeavesTrace ssl m req
  /-- PK is deleted in user mode, and the mode variables do not fit. -/
  | drop {off : Nat} {msg : List UInt8} {time : EfiTime} {i : Fin MAX_VAR_COUNT} :
      Reaches m req .pk → variableClass req.key = .pk →
      Accepted (ssl .verify) m.storage req.key req.buffer req.data.length req.attrs .pk off 0 msg
        time →
      req.attrs.append = false → m.storage.findSlot req.key = some i →
      tooLarge m.storage req.key 0 = false → ¬ ModesFit m.storage m.storage.room.given modeKeys →
      LeavesTrace ssl m req

/-- Only authenticated requests do. -/
theorem LeavesTrace.timeBased {ssl : Phase → OpenSsl P X} {m : Machine} {req : SetRequest}
    (h : LeavesTrace ssl m req) : req.attrs.timeBased = true := by
  cases h with
  | digest hreach => exact hreach.timeBased
  | first hreach => exact hreach.timeBased
  | second hreach => exact hreach.timeBased
  | enrol hreach => exact hreach.timeBased
  | drop hreach => exact hreach.timeBased

/-- A status other than success means that the store and the mode are as they were. -/
def FailsCleanly (ssl : Phase → OpenSsl P X) (m : Machine) (req : SetRequest) : Prop :=
  ∀ status m', handleSetVariable ssl m req = some (status, m') → status ≠ .success →
    m'.storage = m.storage ∧ m'.setupMode = m.setupMode

/-! ## The mode behind PK -/

section
variable {ssl : Phase → OpenSsl P X} {m : Machine} {l : List UInt8} {g : Guid} {b : Buffer}
  {n : Nat} {attrs : Attrs} {kind : AuthVarType} {o : Outcome} {del : Bool}

theorem pkKey_not_mode : ∀ k ∈ modeKeys, ¬ pkKey.Same k := by
  decide +kernel

/-- PK is not one of the variables whose appends are filtered. -/
theorem filteredAgainst_pk (hl : l.length ≤ MAX_VARIABLE_NAME_SIZE) (hpk : Key.of l g = pkKey)
    (s : Storage) (attrs : Attrs) : filteredAgainst s (Key.of l g) attrs = none := by
  cases hold : filteredAgainst s (Key.of l g) attrs with
  | none => rfl
  | some old =>
      have hmem := mem_sigListKeys_of_filtered hl hold
      rw [hpk] at hmem
      exact absurd hmem (by decide +kernel)

theorem offered_pk {s : Storage} {off size : Nat} {payload : List UInt8}
    (hl : l.length ≤ MAX_VARIABLE_NAME_SIZE) (hpk : Key.of l g = pkKey)
    (hp : b.slice off size = some payload) :
    offered s (Key.of l g) b off size attrs = some (payload, b) := by
  rw [offered_unfiltered (filteredAgainst_pk hl hpk s attrs), hp]
  rfl

/-- The mode variables are written behind PK exactly if they fit into the room that is left. -/
theorem Writes.mode_success_iff {s : Storage} (h : Writes (· = pkKey) s m.storage)
    (mode : PlatformMode) : (updatePlatformMode m mode).1 = .success ↔
      ModesFit s m.storage.room modeKeys := by
  rw [← modeVariables_keys m.secureBootEnabled mode]
  refine setModeVariables_success_iff _ (modeList_modeVariables _ _) ?_
  intro kv hkv
  have hmem : kv.1 ∈ modeKeys := by
    rw [← modeVariables_keys m.secureBootEnabled mode]
    exact List.mem_map_of_mem hkv
  rw [h.find_eq (fun _ hk =>
    hk ▸ pkKey_clean.spares (modeKeys_clean _ hmem) (pkKey_not_mode _ hmem))]

/-- PK was written, with the digest of its signer. -/
theorem UpdateResult.pk_recorded (h0 : l ≠ []) (hl : l.length ≤ MAX_VARIABLE_NAME_SIZE)
    (hpk : Key.of l g = pkKey) (htb : attrs.timeBased = true)
    (h : UpdateResult ssl m (Key.of l g) b n attrs kind o false) (hok : o.status = .success) :
    o.machine.storage.room = m.storage.roomBehind (Key.of l g) ∧ ¬ Undigested (ssl .digest) b ∧
      ∃ off size msg time payload,
        Accepted (ssl .verify) m.storage (Key.of l g) b n attrs kind off size msg time ∧
        b.slice off size = some payload ∧ payload ≠ [] ∧
        m.storage.Keeps (Key.of l g) payload attrs := by
  have hk : (Key.of l g).Clean := hpk ▸ pkKey_clean
  have hdigest := h.digest_eq hl (ssl .digest)
  cases h with
  | rejected hs => exact absurd hok hs
  | failed _ _ hs => exact absurd hok hs
  | lost => cases hok
  | undigested _ _ _ _ hd =>
      rw [sha256FromAuth_error hd] at hok
      cases hok
  | @recorded off size msg time s' b' i digest hacc hup hdel hi hd =>
      obtain ⟨j, hw⟩ := (authInternalUpdate_cases hup).wrote_of_not_isDel hk htb hdel
      have hfree : Variable.isFree { s'.vars i with cert := digest } = (s'.vars i).isFree := rfl
      refine ⟨?_, ?_, ?_⟩
      · show (s'.setSlot i { s'.vars i with cert := digest }).room = _
        rw [Storage.room_setSlot hfree, hw.room hk, Storage.roomBehind]
      · rintro ⟨status, hd'⟩
        cases hd.symm.trans (hdigest.trans hd')
      · rcases update_kept h0 hl htb hacc.inside hup hdel with
          ⟨_, _, _, hold, _⟩ | ⟨_, _, payload, hp, hne, hkept, _⟩
        · cases (filteredAgainst_pk hl hpk _ _).symm.trans hold
        · exact ⟨_, _, _, _, payload, hacc, hp, hne, hkept⟩

/-- PK was deleted. -/
theorem UpdateResult.pk_removed (hl : l.length ≤ MAX_VARIABLE_NAME_SIZE)
    (hpk : Key.of l g = pkKey) (htb : attrs.timeBased = true)
    (h : UpdateResult ssl m (Key.of l g) b n attrs kind o true) :
    o.machine.storage.room = m.storage.room.given ∧ attrs.append = false ∧
      tooLarge m.storage (Key.of l g) 0 = false ∧ ∃ off msg time i,
        Accepted (ssl .verify) m.storage (Key.of l g) b n attrs kind off 0 msg time ∧
        m.storage.findSlot (Key.of l g) = some i := by
  have hk : (Key.of l g).Clean := hpk ▸ pkKey_clean
  have hsettled := h.settled hk htb
  cases h with
  | deleted hacc hup hdel =>
      obtain ⟨_, rfl, happ⟩ := isDel_iff.mp hdel
      cases hsettled with
      | deleted _ _ hi _ hst =>
          refine ⟨?_, happ, ?_, _, _, _, _, hacc, hi⟩
          · rw [hst, Storage.room_remove (isFree_of_findSlot hk hi)]
          · obtain ⟨payload, hp⟩ := Buffer.slice_isSome hacc.inside
            obtain rfl := List.eq_nil_of_length_eq_zero (Buffer.length_slice hp)
            rw [update_unfiltered (filteredAgainst_pk hl hpk _ _) hp,
              storageSetWithTimestamp_isDelete rfl] at hup
            exact ((storageSet_nil_success_iff (Attrs.ne_zero_of_timeBased htb)).mp
              (Prod.mk.inj (Option.some.inj hup)).1).2.2

/-- An attempt at the deletion of PK that is accepted, and not too large for the store, is one. -/
theorem UpdateResult.of_pk_removal (hl : l.length ≤ MAX_VARIABLE_NAME_SIZE)
    (hpk : Key.of l g = pkKey) (htb : attrs.timeBased = true)
    (h : UpdateResult ssl m (Key.of l g) b n attrs kind o del) {off : Nat} {msg : List UInt8}
    {time : EfiTime} {i : Fin MAX_VAR_COUNT}
    (hacc : Accepted (ssl .verify) m.storage (Key.of l g) b n attrs kind off 0 msg time)
    (happ : attrs.append = false) (hi : m.storage.findSlot (Key.of l g) = some i)
    (hlarge : tooLarge m.storage (Key.of l g) 0 = false) : del = true ∧ o.status = .success := by
  have hdel : isDel m.storage (Key.of l g) 0 attrs = true :=
    isDel_iff.mpr ⟨Option.isSome_of_eq_some (storageFindVariable_eq hi), rfl, happ⟩
  have hnot : ∀ {off' size' msg' time'},
      Accepted (ssl .verify) m.storage (Key.of l g) b n attrs kind off' size' msg' time' →
      isDel m.storage (Key.of l g) size' attrs ≠ false := by
    intro off' size' msg' time' hacc' hdel'
    obtain ⟨rfl, rfl, rfl⟩ := hacc.unique hacc'
    cases hdel.symm.trans hdel'
  cases h with
  | rejected _ hv => cases hacc.eq.symm.trans hv
  | failed hacc' hup hs =>
      obtain ⟨rfl, rfl, rfl⟩ := hacc.unique hacc'
      obtain ⟨payload, hp⟩ := Buffer.slice_isSome hacc.inside
      obtain rfl := List.eq_nil_of_length_eq_zero (Buffer.length_slice hp)
      rw [update_unfiltered (filteredAgainst_pk hl hpk _ _) hp,
        storageSetWithTimestamp_isDelete rfl] at hup
      have hok := (storageSet_nil_success_iff (Attrs.ne_zero_of_timeBased htb)).mpr
        ⟨Option.isSome_of_eq_some hi, happ, hlarge⟩
      exact absurd ((Prod.mk.inj (Option.some.inj hup)).1.symm.trans hok) hs
  | deleted => exact ⟨rfl, rfl⟩
  | lost hacc' _ hdel' => exact absurd hdel' (hnot hacc')
  | undigested hacc' _ hdel' => exact absurd hdel' (hnot hacc')
  | recorded hacc' _ hdel' => exact absurd hdel' (hnot hacc')

end

/-! ## From the attempt to the answer -/

section
variable {ssl : Phase → OpenSsl P X} {m : Machine} {req : SetRequest}

/-- An admitted request does not ask for the deprecated authentication. -/
theorem not_authWrite_of_refusal (h : refusal req = none) :
    req.attrs.has EFI_VARIABLE_AUTHENTICATED_WRITE_ACCESS = false := by
  unfold refusal at h
  split at h
  · cases h
  split at h
  · cases h
  split at h
  · cases h
  split at h
  · cases h
  · rename_i hattrs
    rw [not_not] at hattrs
    by_contra hauth
    rw [Bool.not_eq_false] at hauth
    rw [evaluateAttrs, hauth] at hattrs
    split at hattrs
    · cases hattrs
    split at hattrs
    · cases hattrs
    split at hattrs
    · cases hattrs
    · cases hattrs

theorem handleSetVariable_authenticated {o : Outcome} (hr : refusal req = none)
    (htb : req.attrs.timeBased = true)
    (ho : authLibProcessVariable ssl (m.opened req) req.key req.buffer req.data.length req.attrs =
      some o) :
    handleSetVariable ssl m req = some (o.status, o.machine.saved o.status req.attrs) := by
  have hd : dispatch ssl (m.opened req) req = some (o.status, o.machine) := by
    unfold dispatch
    rw [if_pos (by simp [htb])]
    exact Option.bind_eq_some_iff.mpr ⟨_, ho, rfl⟩
  unfold handleSetVariable
  rw [hr]
  exact Option.bind_eq_some_iff.mpr ⟨_, hd, rfl⟩

/-- One attempt, and for PK the mode behind it. -/
theorem Reaches.handle_eq {kind : AuthVarType} {o : Outcome} {del : Bool}
    (h : Reaches m req kind) (hdb : variableClass req.key ≠ .db)
    (hu : verifyTimeBasedPayloadAndUpdate ssl (m.opened req) req.key req.buffer req.data.length
      req.attrs kind = some (o, del)) :
    ∃ o', o' = (if variableClass req.key = .pk then followPk o del else o) ∧
      handleSetVariable ssl m req = some (o'.status, o'.machine.saved o'.status req.attrs) := by
  refine ⟨_, rfl, handleSetVariable_authenticated h.admitted h.timeBased ?_⟩
  have htb := h.timeBased
  unfold authLibProcessVariable
  cases h.putTo with
  | payload hc hm hnv =>
      rw [hc, if_pos rfl]
      exact (processVarWithPk_enrolMode (m := m.opened req) hnv htb hm).trans
        (congrArg _ hu)
  | pk hc hm hnv =>
      have hpk (isPk : Bool) : processVarWithPk ssl (m.opened req) req.key req.buffer
          req.data.length req.attrs isPk = some (if isPk then followPk o del else o) := by
        rw [processVarWithPk_userMode (m := m.opened req) hnv htb hm, hu]
        rfl
      cases hclass : variableClass req.key with
      | pk => exact hpk true
      | kek => exact hpk false
      | db => exact absurd hclass hdb
      | other => exact absurd hclass hc
  | priv hc hdel =>
      rw [hc, if_neg (by simp)]
      refine Option.bind_eq_some_iff.mpr ⟨false, hdel, ?_⟩
      rw [if_neg (by simp), not_authWrite_of_refusal h.admitted, if_neg (by simp), if_pos htb]
      exact Option.bind_eq_some_iff.mpr ⟨_, hu, rfl⟩

/-- Two attempts at `db`, `dbx` or `dbt`. -/
theorem Reaches.handle_db_eq {o o' : Outcome} {del del' : Bool} (h : Reaches m req .pk)
    (hdb : variableClass req.key = .db)
    (hu : verifyTimeBasedPayloadAndUpdate ssl (m.opened req) req.key req.buffer req.data.length
      req.attrs .pk = some (o, del)) (hfail : o.status ≠ .success)
    (hu' : verifyTimeBasedPayloadAndUpdate ssl o.machine req.key o.data req.data.length
      req.attrs .kek = some (o', del')) :
    handleSetVariable ssl m req = some (o'.status, o'.machine.saved o'.status req.attrs) := by
  refine handleSetVariable_authenticated h.admitted h.timeBased ?_
  cases h.putTo with
  | pk _ hm hnv =>
      have heff := (verifyTimeBasedPayloadAndUpdate_cases hu).effect
      have hfirst : processVarWithPk ssl (m.opened req) req.key req.buffer req.data.length req.attrs
          false = some o := by
        rw [processVarWithPk_userMode (m := m.opened req) hnv h.timeBased hm, hu]
        rfl
      rw [authLibProcessVariable_db hdb, hfirst, Option.bind_some, if_pos hfail,
        processVarWithKek_userMode hnv h.timeBased (heff.setupMode.trans hm), hu']
      rfl

/-! ## Every exit -/

theorem updateInSetupMode_failed {k : Key} {data : Buffer} {dataSize : Nat} {attrs : Attrs}
    {o : Outcome} (hk : k.Clean) (htb : attrs.timeBased = true)
    (h : updateInSetupMode (ssl .verify) m k data dataSize attrs = some o)
    (hfail : o.status ≠ .success) :
    o.machine.storage = m.storage ∧ o.machine.setupMode = m.setupMode := by
  rcases updateInSetupMode_cases h with ⟨_, heq⟩ | ⟨off, time, status, s, data', _, _, hs, rfl⟩
  · rw [heq]
    exact ⟨rfl, rfl⟩
  · rcases hs.wrote hk htb with ⟨heq, _⟩ | ⟨hok, _⟩ | ⟨hok, _⟩
    · exact ⟨heq, rfl⟩
    · exact absurd hok hfail
    · exact absurd hok hfail

section
variable {o : Outcome} {del : Bool} {kind : AuthVarType}

/-- A failing attempt without a second one. -/
theorem UpdateResult.clean (hname : NulFree req.name) (hno : ¬ LeavesTrace ssl m req)
    (hreach : Reaches m req kind) (hdb : variableClass req.key ≠ .db)
    (h : UpdateResult ssl (m.opened req) req.key req.buffer req.data.length req.attrs kind o del)
    (hfail : o.status ≠ .success) :
    o.machine.storage = m.storage ∧ o.machine.setupMode = m.setupMode := by
  refine ⟨?_, h.effect.setupMode⟩
  by_contra hne
  obtain ⟨hmarking, hd⟩ := h.marking hname req.name_fits hreach.timeBased hfail hne
  exact hno (.digest hreach hdb hmarking hd)

theorem PkResult.pk_clean (hname : NulFree req.name) (hno : ¬ LeavesTrace ssl m req)
    (hr : refusal req = none) (hc : variableClass req.key = .pk)
    (h : PkResult ssl (m.opened req) req.key req.buffer req.data.length req.attrs true o)
    (hfail : o.status ≠ .success) :
    o.machine.storage = m.storage ∧ o.machine.setupMode = m.setupMode := by
  have hdb : variableClass req.key ≠ .db := by rw [hc]; simp
  have hpk : Key.of req.name req.guid = pkKey := pkKey_of_class hname hc
  cases h with
  | wrongAttrs => exact ⟨rfl, rfl⟩
  | @enrol o' del hm htb hu hnv =>
      have hreach : Reaches m req .payload := ⟨hr, htb, .payload hc hm hnv⟩
      have hm' := hu.effect.setupMode.trans hm
      rcases followPk_cases o' del with heq | ⟨hok, mode, ⟨_, rfl, rfl⟩ | ⟨hm'', _⟩, heq⟩
      · rw [heq] at hfail ⊢
        exact hu.clean hname hno hreach hdb hfail
      · rw [heq] at hfail
        obtain ⟨hroom, hd, _, _, _, _, _, hacc, hp, hne, hkept⟩ :=
          hu.pk_recorded hname.1 req.name_fits hpk htb hok
        refine absurd (.enrol hreach hacc hp hne hkept hd ?_) hno
        have hwrites := hu.effect.writes.mono (fun _ hk => hk.trans hpk)
        rw [← show o'.machine.storage.room = m.storage.roomBehind req.key from hroom]
        exact mt (hwrites.mode_success_iff .user).mpr hfail
      · rw [hm'] at hm''
        cases hm''
  | @user o' del _ hm htb hu hnv =>
      have hreach : Reaches m req .pk := ⟨hr, htb, .pk (by rw [hc]; simp) hm hnv⟩
      have hm' := hu.effect.setupMode.trans hm
      rw [if_pos rfl] at hfail ⊢
      rcases followPk_cases o' del with heq | ⟨_, mode, ⟨hm'', _⟩ | ⟨_, rfl, rfl⟩, heq⟩
      · rw [heq] at hfail ⊢
        exact hu.clean hname hno hreach hdb hfail
      · rw [hm'] at hm''
        cases hm''
      · rw [heq] at hfail
        obtain ⟨hroom, happ, hlarge, _, _, _, _, hacc, hi⟩ := hu.pk_removed req.name_fits hpk htb
        refine absurd (.drop hreach hc hacc happ hi hlarge ?_) hno
        have hwrites := hu.effect.writes.mono (fun _ hk => hk.trans hpk)
        rw [← show o'.machine.storage.room = m.storage.room.given from hroom]
        exact mt (hwrites.mode_success_iff .setup).mpr hfail

theorem PkResult.kek_clean (hname : NulFree req.name) (hno : ¬ LeavesTrace ssl m req)
    (hr : refusal req = none) (hc : variableClass req.key = .kek)
    (h : PkResult ssl (m.opened req) req.key req.buffer req.data.length req.attrs false o)
    (hfail : o.status ≠ .success) :
    o.machine.storage = m.storage ∧ o.machine.setupMode = m.setupMode := by
  cases h with
  | wrongAttrs => exact ⟨rfl, rfl⟩
  | setup _ htb hu _ =>
      exact updateInSetupMode_failed (m := m.opened req) (SetRequest.key_clean hname) htb hu hfail
  | user hm htb hu hnv =>
      exact hu.clean hname hno ⟨hr, htb, .pk (by rw [hc]; simp) hm hnv⟩ (by rw [hc]; simp) hfail

/-- Both attempts at `db`, `dbx` or `dbt` fail. -/
theorem KekResult.clean {o' : Outcome} (hname : NulFree req.name) (hno : ¬ LeavesTrace ssl m req)
    (hin : req.Inside ssl m) (hr : refusal req = none) (hc : variableClass req.key = .db)
    (h : PkResult ssl (m.opened req) req.key req.buffer req.data.length req.attrs false o)
    (hfail : o.status ≠ .success)
    (h' : KekResult ssl o.machine req.key o.data req.data.length req.attrs o')
    (hfail' : o'.status ≠ .success) :
    o'.machine.storage = m.storage ∧ o'.machine.setupMode = m.setupMode := by
  have hk := SetRequest.key_clean hname
  cases h with
  | wrongAttrs hattrs =>
      cases h' with
      | wrongAttrs => exact ⟨rfl, rfl⟩
      | setup _ htb _ hnv => simp [htb, hnv] at hattrs
      | user _ htb _ hnv => simp [htb, hnv] at hattrs
  | setup hm htb hu hnv =>
      obtain ⟨hs, hm'⟩ := updateInSetupMode_failed hk htb hu hfail
      cases h' with
      | wrongAttrs => exact ⟨hs, hm'⟩
      | setup _ _ hu' _ =>
          obtain ⟨hs', hm''⟩ := updateInSetupMode_failed hk htb hu' hfail'
          exact ⟨hs'.trans hs, hm''.trans hm'⟩
      | user hm'' => rw [hm', hm] at hm''; cases hm''
  | @user o del _ hm htb hu hnv =>
      rw [if_neg (by simp)] at hfail h'
      have hm' := hu.effect.setupMode
      have hreach : Reaches m req .pk := ⟨hr, htb, .pk (by rw [hc]; simp) hm hnv⟩
      cases h' with
      | wrongAttrs hattrs => simp [htb, hnv] at hattrs
      | setup hm'' => rw [hm', hm] at hm''; cases hm''
      | user _ _ hu' _ =>
          refine ⟨?_, hu'.effect.setupMode.trans hm'⟩
          by_contra hne
          by_cases hsame : o.machine.storage = m.storage
          · -- only the attempt with KEK changed the store
            have hne' : o'.machine.storage ≠ o.machine.storage := fun h => hne (h.trans hsame)
            obtain ⟨hmarking, hd⟩ := hu'.marking hname req.name_fits htb hfail' hne'
            rw [hsame] at hmarking
            have hhanded := hu.handed hname req.name_fits htb hfail hsame
            refine hno (.second hreach hc hhanded hmarking ?_)
            rwa [Undigested, hu.digest_eq req.name_fits] at hd
          · obtain ⟨hmarking, hd⟩ := hu.marking hname req.name_fits htb hfail hsame
            exact hno (.first hreach hc hmarking hd hin)

theorem VarResult.clean (hname : NulFree req.name) (hno : ¬ LeavesTrace ssl m req)
    (hr : refusal req = none) (hc : variableClass req.key = .other)
    (h : VarResult ssl (m.opened req) req.key req.buffer req.data.length req.attrs o)
    (hfail : o.status ≠ .success) :
    o.machine.storage = m.storage ∧ o.machine.setupMode = m.setupMode := by
  have hk := SetRequest.key_clean hname
  cases h with
  | descriptorOnly => exact ⟨storageSet_failed hk hfail, rfl⟩
  | unsupported => exact ⟨rfl, rfl⟩
  | verified htb hu hdel =>
      exact hu.clean hname hno ⟨hr, htb, .priv hc hdel⟩ (by rw [hc]; simp) hfail
  | plain => exact ⟨storageSet_failed hk hfail, rfl⟩

end

/-- A request that is none of these leaves no trace. -/
theorem handleSetVariable_clean (hname : NulFree req.name) (hno : ¬ LeavesTrace ssl m req) :
    FailsCleanly ssl m req := by
  have hk := SetRequest.key_clean hname
  intro status m' h hfail
  have hin := handleSetVariable_isSome_iff.mp (Option.isSome_of_eq_some h)
  cases handleSetVariable_cases h with
  | refused => exact ⟨rfl, rfl⟩
  | plain =>
      rw [Machine.saved_storage, Machine.saved_setupMode]
      exact ⟨storageSet_failed hk hfail, rfl⟩
  | authenticated hr _ hl =>
      rw [Machine.saved_storage, Machine.saved_setupMode]
      cases hl with
      | pk hc hp => exact hp.pk_clean hname hno hr hc hfail
      | kek hc hp => exact hp.kek_clean hname hno hr hc hfail
      | db _ _ hok => exact absurd hok hfail
      | dbRetry hc hp hfail₁ hkek => exact hkek.clean hname hno hin hr hc hp hfail₁ hfail
      | other hc hv => exact hv.clean hname hno hr hc hfail

/-! ## Every trace -/

/-- What the guest is told is the status of the outcome, and saving leaves store and mode. -/
theorem FailsCleanly.kept {o : Outcome} (h : FailsCleanly ssl m req)
    (hh : handleSetVariable ssl m req = some (o.status, o.machine.saved o.status req.attrs))
    (hs : o.status ≠ .success) :
    o.machine.storage = m.storage ∧ o.machine.setupMode = m.setupMode := by
  obtain ⟨hst, hm⟩ := h _ _ hh hs
  rw [Machine.saved_storage] at hst
  rw [Machine.saved_setupMode] at hm
  exact ⟨hst, hm⟩

/-- An attempt at a write that shows, by a signer without a digest. -/
theorem Marking.fails {k : Key} {l : List UInt8} {g : Guid} {b b' : Buffer} {n : Nat}
    {attrs : Attrs} {kind : AuthVarType} (hname : NulFree l)
    (hl : l.length ≤ MAX_VARIABLE_NAME_SIZE) (htb : attrs.timeBased = true) (hk : k = Key.of l g)
    (h : Marking (ssl .verify) m.storage k b n attrs kind b') (hd : Undigested (ssl .digest) b) :
    ∃ o del, verifyTimeBasedPayloadAndUpdate ssl m k b n attrs kind = some (o, del) ∧
      o.status ≠ .success ∧ o.machine.storage ≠ m.storage := by
  subst hk
  obtain ⟨off, size, msg, time, d, hacc, hoffer, hmarks⟩ := h
  obtain ⟨o, del, hrun, hresult⟩ := hacc.attempt hoffer
  obtain ⟨_, _, ⟨_, hs, hst⟩ | ⟨hno, _⟩⟩ :=
    hresult.of_kept hname hl htb hacc hoffer hmarks.data hmarks.kept
  · exact ⟨o, del, hrun, hs,
      hst ▸ hmarks.changes (Key.clean_of_nulFree hname hl g) htb hacc⟩
  · exact absurd hd hno

section
variable {kind : AuthVarType}

theorem Marking.not_failsCleanly {b' : Buffer} (hname : NulFree req.name)
    (hreach : Reaches m req kind) (hdb : variableClass req.key ≠ .db)
    (h : Marking (ssl .verify) m.storage req.key req.buffer req.data.length req.attrs kind b')
    (hd : Undigested (ssl .digest) req.buffer) : ¬ FailsCleanly ssl m req := by
  intro hclean
  obtain ⟨o, del, hrun, hs, hne⟩ :=
    Marking.fails (m := m.opened req) hname req.name_fits hreach.timeBased rfl h hd
  obtain ⟨o', ho, hh⟩ := hreach.handle_eq hdb hrun
  rw [followPk_failed _ hs, ite_self] at ho
  subst ho
  exact hne (hclean.kept hh hs).1

/-- The attempt with KEK behind it does not take the write back. -/
theorem Marking.first_not_failsCleanly {b' : Buffer} (hname : NulFree req.name)
    (hreach : Reaches m req .pk) (hdb : variableClass req.key = .db)
    (h : Marking (ssl .verify) m.storage req.key req.buffer req.data.length req.attrs .pk b')
    (hd : Undigested (ssl .digest) req.buffer) (hin : req.Inside ssl m) :
    ¬ FailsCleanly ssl m req := by
  have hl := req.name_fits
  have htb := hreach.timeBased
  intro hclean
  obtain ⟨off, size, msg, time, d, hacc, hoffer, hmarks⟩ := h
  obtain ⟨o, del, hrun, hresult⟩ := Accepted.attempt (m := m.opened req) hacc hoffer
  obtain ⟨rfl, rfl, ⟨_, hs, hst⟩ | ⟨hno, _⟩⟩ :=
    hresult.of_kept hname hl htb hacc hoffer hmarks.data hmarks.kept
  · cases hreach.putTo with
    | pk _ hm hnv =>
        have hwrite := hin hreach.admitted htb (.inl hnv)
        rw [hm, hdb] at hwrite
        obtain ⟨⟨o', del'⟩, hrun'⟩ := Option.isSome_iff_exists.mp
          ((retry_isSome_iff hname.1 hl hdb htb (show 32768 < 2 ^ 63 by decide) hresult hs).mpr
            hwrite.2)
        obtain ⟨hs', hne⟩ := (verifyTimeBasedPayloadAndUpdate_cases hrun').retry_changed
          hname hl htb hacc hoffer hmarks hd hst
        exact hne (hclean.kept (hreach.handle_db_eq hdb hrun hs hrun') hs').1
  · exact hno hd

theorem Marking.second_not_failsCleanly {b₁ b₂ : Buffer} (hname : NulFree req.name)
    (hreach : Reaches m req .pk) (hdb : variableClass req.key = .db)
    (hhanded : Handed (ssl .verify) m.storage req.key req.buffer req.data.length req.attrs b₁)
    (h : Marking (ssl .verify) m.storage req.key b₁ req.data.length req.attrs .kek b₂)
    (hd : Undigested (ssl .digest) req.buffer) : ¬ FailsCleanly ssl m req := by
  have hl := req.name_fits
  have htb := hreach.timeBased
  intro hclean
  obtain ⟨o, del, hrun, hs, hst, rfl⟩ :=
    Handed.attempt (m := m.opened req) hname hl htb hhanded h hd
  have hst : o.machine.storage = m.storage := hst
  have hd' : Undigested (ssl .digest) o.data := by
    rwa [Undigested, (verifyTimeBasedPayloadAndUpdate_cases hrun).digest_eq hl]
  rw [← hst] at h
  obtain ⟨o', del', hrun', hs', hne⟩ := h.fails hname hl htb rfl hd'
  exact hne ((hclean.kept (hreach.handle_db_eq hdb hrun hs hrun') hs').1.trans hst.symm)

/-- PK has been written or deleted and the mode variables fail: the mode is another one. -/
theorem Reaches.not_failsCleanly_of_mode {o : Outcome} {del : Bool} (hreach : Reaches m req kind)
    (mode : PlatformMode) (hc : variableClass req.key = .pk)
    (hrun : verifyTimeBasedPayloadAndUpdate ssl (m.opened req) req.key req.buffer req.data.length
      req.attrs kind = some (o, del))
    (hfollow : followPk o del = ⟨(updatePlatformMode o.machine mode).1,
      (updatePlatformMode o.machine mode).2, o.data⟩) (hmode : mode ≠ m.setupMode)
    (hfail : (updatePlatformMode o.machine mode).1 ≠ .success) : ¬ FailsCleanly ssl m req := by
  intro hclean
  obtain ⟨o', ho, hh⟩ := hreach.handle_eq (by rw [hc]; simp) hrun
  rw [if_pos hc, hfollow] at ho
  subst ho
  exact hmode (hclean.kept hh hfail).2

theorem Reaches.enrol_not_failsCleanly {off size : Nat} {msg payload : List UInt8} {time : EfiTime}
    (hname : NulFree req.name) (hreach : Reaches m req .payload)
    (hacc : Accepted (ssl .verify) m.storage req.key req.buffer req.data.length req.attrs .payload
      off size msg time) (hp : req.buffer.slice off size = some payload) (hne : payload ≠ [])
    (hkept : m.storage.Keeps req.key payload req.attrs)
    (hd : ¬ Undigested (ssl .digest) req.buffer)
    (hfull : ¬ ModesFit m.storage (m.storage.roomBehind req.key) modeKeys) :
    ¬ FailsCleanly ssl m req := by
  have hl := req.name_fits
  have htb := hreach.timeBased
  cases hreach.putTo with
  | payload hc hm hnv =>
      have hpk : Key.of req.name req.guid = pkKey := pkKey_of_class hname hc
      obtain ⟨o, del, hrun, hresult⟩ :=
        Accepted.attempt (m := m.opened req) hacc (offered_pk hl hpk hp)
      obtain ⟨rfl, _, ⟨hd', _⟩ | ⟨_, hok⟩⟩ :=
        hresult.of_kept hname hl htb hacc (offered_pk hl hpk hp) hne hkept
      · exact absurd hd' hd
      have hm' : o.machine.setupMode = .setup := hresult.effect.setupMode.trans hm
      refine hreach.not_failsCleanly_of_mode .user hc hrun ?_ (by rw [hm]; simp) ?_
      · simp [followPk, hok, hm']
      · have hroom := (hresult.pk_recorded hname.1 hl hpk htb hok).1
        have hwrites := hresult.effect.writes.mono (fun _ hk => hk.trans hpk)
        exact mt (hwrites.mode_success_iff .user).mp (hroom ▸ hfull)

theorem Reaches.drop_not_failsCleanly {off : Nat} {msg : List UInt8} {time : EfiTime}
    {i : Fin MAX_VAR_COUNT} (hname : NulFree req.name) (hreach : Reaches m req .pk)
    (hc : variableClass req.key = .pk)
    (hacc : Accepted (ssl .verify) m.storage req.key req.buffer req.data.length req.attrs .pk
      off 0 msg time) (happ : req.attrs.append = false) (hi : m.storage.findSlot req.key = some i)
    (hlarge : tooLarge m.storage req.key 0 = false)
    (hfull : ¬ ModesFit m.storage m.storage.room.given modeKeys) : ¬ FailsCleanly ssl m req := by
  have hl := req.name_fits
  have htb := hreach.timeBased
  have hpk : Key.of req.name req.guid = pkKey := pkKey_of_class hname hc
  cases hreach.putTo with
  | pk _ hm hnv =>
      obtain ⟨payload, hp⟩ := Buffer.slice_isSome hacc.inside
      obtain ⟨o, del, hrun, hresult⟩ :=
        Accepted.attempt (m := m.opened req) hacc (offered_pk hl hpk hp)
      obtain ⟨rfl, hok⟩ := hresult.of_pk_removal hl hpk htb hacc happ hi hlarge
      have hm' : o.machine.setupMode = .user := hresult.effect.setupMode.trans hm
      refine hreach.not_failsCleanly_of_mode .setup hc hrun ?_ (by rw [hm]; simp) ?_
      · simp [followPk, hok, hm']
      · have hroom := (hresult.pk_removed hl hpk htb).1
        have hwrites := hresult.effect.writes.mono (fun _ hk => hk.trans hpk)
        exact mt (hwrites.mode_success_iff .setup).mp (hroom ▸ hfull)

end

/-- And one that is leaves one. -/
theorem LeavesTrace.not_failsCleanly (hname : NulFree req.name) (h : LeavesTrace ssl m req) :
    ¬ FailsCleanly ssl m req := by
  cases h with
  | digest hreach hdb hmarking hd => exact hmarking.not_failsCleanly hname hreach hdb hd
  | first hreach hdb hmarking hd hin =>
      exact hmarking.first_not_failsCleanly hname hreach hdb hd hin
  | second hreach hdb hhanded hmarking hd =>
      exact hmarking.second_not_failsCleanly hname hreach hdb hhanded hd
  | enrol hreach hacc hp hne hkept hd hfull =>
      exact hreach.enrol_not_failsCleanly hname hacc hp hne hkept hd hfull
  | drop hreach hc hacc happ hi hlarge hfull =>
      exact hreach.drop_not_failsCleanly hname hc hacc happ hi hlarge hfull

/-- **A status other than success leaves store and mode as they were exactly when the request is
none of those**: for every store, mode, oracle and request with a NUL-free name. -/
theorem failsCleanly_iff (hname : NulFree req.name) :
    FailsCleanly ssl m req ↔ ¬ LeavesTrace ssl m req := by
  constructor
  · intro hclean htrace
    exact htrace.not_failsCleanly hname hclean
  · exact handleSetVariable_clean hname

end

end

/-- An oracle that accepts no signature, and digests every signer. -/
def rejectsFirst : Phase → OpenSsl Unit Unit
  | .verify => .rejecting
  | .digest => .accepting

/-- KEK with a signature that is not accepted: the guest is told of a security violation, and
nothing has changed. -/
theorem failsCleanly_rejected : NulFree extendKek.name ∧
    FailsCleanly rejectsFirst enrolled extendKek ∧
    ∃ m', handleSetVariable rejectsFirst enrolled extendKek =
      some (.securityViolation, m') := by
  have hname : NulFree extendKek.name := by decide +kernel
  have hclass : variableClass extendKek.key = .kek := by decide +kernel
  have hdigest : (sha256FromAuth OpenSsl.accepting extendKek.buffer).map Except.isOk =
      some true := by
    decide +kernel
  have hrun : (handleSetVariable rejectsFirst enrolled extendKek).map Prod.fst =
      some .securityViolation := by
    decide +kernel
  obtain ⟨⟨_, m'⟩, hstep, rfl⟩ := Option.map_eq_some_iff.mp hrun
  have hno : ¬ Undigested OpenSsl.accepting extendKek.buffer := by
    rintro ⟨status, hd⟩
    rw [hd] at hdigest
    cases hdigest
  refine ⟨hname, (failsCleanly_iff hname).mpr ?_, m', hstep⟩
  intro htrace
  cases htrace with
  | digest _ _ _ hd => exact hno hd
  | first _ _ _ hd => exact hno hd
  | second _ _ _ _ hd => exact hno hd
  | enrol hreach =>
      cases hreach.putTo with
      | payload hc => cases hclass.symm.trans hc
  | drop _ hc => cases hclass.symm.trans hc

/-- KEK signed by PK's owner, with a signer certificate that has no common name: the guest is
told of a security violation, and KEK has the new data. -/
theorem extendKek_fails_and_stays : ∃ m',
    NulFree extendKek.name ∧
    handleSetVariable (fun _ => OpenSsl.nameless) enrolled extendKek =
      some (.securityViolation, m') ∧
    (storageFindVariable enrolled.storage kekKey).map (·.data) = some oneCertList ∧
    (storageFindVariable m'.storage kekKey).map (·.data) =
      some (oneCertList ++ oneCertList) := by
  have hrun : (handleSetVariable (fun _ => OpenSsl.nameless) enrolled extendKek).map
      (fun r => (r.1, (storageFindVariable r.2.storage kekKey).map (·.data))) =
        some (.securityViolation, some (oneCertList ++ oneCertList)) := by
    decide +kernel
  obtain ⟨⟨_, m'⟩, hstep, hr⟩ := Option.map_eq_some_iff.mp hrun
  obtain ⟨rfl, hdata⟩ := Prod.mk.inj hr
  exact ⟨m', by decide +kernel, hstep, by decide +kernel, hdata⟩

end Uefistored
