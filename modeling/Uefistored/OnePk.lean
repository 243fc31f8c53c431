/-
# `Uefistored.OnePk` — the stored platform key is one certificate

`verify_pk` compares a signer with the first entry of PK and trusts that there
is no other.  `check_signature_list_format` counts the signatures of a payload
for PK and refuses more than one, but that is not yet the shape of what is
stored:

* an append puts the payload behind the stored list, and nothing counts the
  two together (`appendPk_twoLists`);
* no signature at all is not more than one, so lists without entries pass, and
  the type is not looked at.

Without an append to a stored PK, and for payloads that begin with an X.509
list and have no list without entries, the count of the check is the number of
lists at least (`formatWalk_count`), and what is stored is one list with one
entry (`pk_oneCert`).
-/
import Uefistored.PlatformKey
import Uefistored.SigStored

namespace Uefistored

open Lib SigList

/-! ## Payloads -/

/-- One `EFI_SIGNATURE_LIST` of type X.509 with exactly one entry. -/
def OneCert (l : List UInt8) : Prop :=
  ∃ ssz, HeaderAt (Buffer.ofList l) 0 gEfiCertX509Guid l.length ssz ∧ GUID_SIZE ≤ ssz ∧
    l.length = ESL_SIZE + ssz

/-- Every list that the walk of `check_signature_list_format` comes to is longer than its
header. -/
def listsLong (b : Buffer) : Nat → Nat → Nat → Bool
  | 0, _, _ => true
  | fuel + 1, pos, left =>
    if left = 0 then true
    else
      match signatureListSize b pos with
      | none => true
      | some lsz =>
        if left < lsz then true
        else decide (ESL_SIZE < lsz) && listsLong b fuel (pos + lsz) (left - lsz)

section
variable {P X : Type}

/-- The number of entries of a list that is longer than its header. -/
theorem Passed.entries {ssl : OpenSsl P X} {b : Buffer} {pos lsz ssz : Nat} {ty : Guid}
    (h : Passed ssl b pos ty lsz ssz) (hlong : ESL_SIZE < lsz) :
    0 < sub64 lsz ESL_SIZE / ssz ∧ sub64 lsz ESL_SIZE / ssz ≤ lsz ∧
      sub64 lsz ESL_SIZE / ssz * ssz + ESL_SIZE = lsz := by
  have hlt : lsz < 2 ^ 64 := (Buffer.num_lt h.listSize_eq).trans (by decide)
  have hrem := h.remainder
  rw [sub64_of_le hlong.le hlt] at hrem ⊢
  have hdvd : ssz ∣ lsz - ESL_SIZE := Nat.dvd_of_mod_eq_zero hrem
  refine ⟨Nat.div_pos (Nat.le_of_dvd (by omega) hdvd) (Nat.pos_of_ne_zero h.signatureSize_pos),
    (Nat.div_le_self _ _).trans (Nat.sub_le _ _), ?_⟩
  rw [Nat.div_mul_cancel hdvd]
  omega

theorem listsLong_step {b : Buffer} {fuel pos left lsz : Nat}
    (h : listsLong b (fuel + 1) pos left = true) (hlsz : signatureListSize b pos = some lsz)
    (h0 : lsz ≠ 0) (hle : lsz ≤ left) :
    ESL_SIZE < lsz ∧ listsLong b fuel (pos + lsz) (left - lsz) = true := by
  unfold listsLong at h
  rw [if_neg (by omega), hlsz] at h
  dsimp only at h
  rw [if_neg (Nat.not_lt.mpr hle), Bool.and_eq_true, decide_eq_true_eq] at h
  exact h

/-- The walk counts at least one signature for every list, and the counter does not wrap. -/
theorem formatWalk_count {ssl : OpenSsl P X} {b : Buffer} :
    ∀ (fuel pos left count : Nat) {n : Nat}, pos + left = b.bytes.length →
      count + left < 2 ^ 32 → listsLong b fuel pos left = true →
      formatWalk ssl b fuel pos left count = some (.ok (b.bytes.length, n)) →
      count ≤ n ∧ (left ≠ 0 → count < n)
  | 0, _, _, _, _, _, _, _, h => by cases h
  | fuel + 1, pos, left, count, n, hend, hlt, hlong, h => by
      rcases formatWalk_cases h with ⟨hstop, rfl⟩ | ⟨ty, lsz, ssz, hp, hle, hwalk⟩
      · exact ⟨le_refl _, fun h0 => absurd hstop (by omega)⟩
      · obtain ⟨h28, hlong'⟩ := listsLong_step hlong hp.listSize_eq hp.listSize_pos hle
        obtain ⟨hpos, hle', _⟩ := hp.entries h28
        generalize sub64 lsz ESL_SIZE / ssz = e at hwalk hpos hle'
        rw [Nat.mod_eq_of_lt (by omega)] at hwalk
        obtain ⟨hge, _⟩ := formatWalk_count fuel _ _ _ (by omega) (by omega) hlong' hwalk
        exact ⟨by omega, fun _ => by omega⟩

theorem formatKind_pkKey : formatKind pkKey.name pkKey.guid = some true := by decide +kernel

/-- A payload for PK that passed the check, begins with an X.509 list and has no list without
entries is one certificate. -/
theorem checkSignatureListFormat_oneCert {ssl : OpenSsl P X} {b : Buffer} {off n : Nat}
    {l : List UInt8} (hb : b.IsWhole n) (hn : n ≤ MAX_VARIABLE_DATA_SIZE)
    (h : checkSignatureListFormat ssl pkKey.name pkKey.guid b off (sub64 n off) = some .success)
    (hx509 : signatureType b off = some gEfiCertX509Guid)
    (hlong : listsLong b (sub64 n off + 1) off (sub64 n off) = true)
    (hl : b.slice off (sub64 n off) = some l) (hne : l ≠ []) : OneCert l := by
  have hlen : l.length = sub64 n off := Buffer.length_slice hl
  have hsize : sub64 n off ≠ 0 := by
    rw [← hlen]
    exact fun h0 => hne (List.eq_nil_of_length_eq_zero h0)
  rcases checkSignatureListFormat_walk formatKind_pkKey hb h with h0 | ⟨hend, count, hwalk, hone⟩
  · exact absurd h0 hsize
  obtain ⟨rfl, _⟩ := hb
  have hmax : b.bytes.length ≤ 32768 := hn
  generalize sub64 b.bytes.length off = size at *
  rcases formatWalk_cases hwalk with ⟨hstop, _⟩ | ⟨ty, lsz, ssz, hp, hle, hrest⟩
  · omega
  obtain ⟨h28, hlong'⟩ := listsLong_step hlong hp.listSize_eq hp.listSize_pos hle
  obtain ⟨hpos, hle', hentries⟩ := hp.entries h28
  generalize sub64 lsz ESL_SIZE / ssz = e at hrest hpos hle' hentries
  rw [Nat.zero_add, Nat.mod_eq_of_lt (by omega)] at hrest
  obtain ⟨hge, hmore⟩ := formatWalk_count _ _ _ _ (by omega) (by omega) hlong' hrest
  -- the first list has the one signature, so there is no second
  have hcount := hone rfl
  have hlsz : lsz = size := by
    by_contra hlsz
    have := hmore (by omega)
    omega
  obtain rfl : e = 1 := by omega
  obtain rfl := Option.some.inj (hp.type_eq.symm.trans hx509)
  subst hlsz
  rw [Buffer.slice_of_le hend.le] at hl
  have hhead := (HeaderAt.part hend.le h28.le).mpr hp.toHeaderAt
  rw [Option.some.inj hl] at hhead
  exact ⟨ssz, hlen.symm ▸ hhead, hp.toVetted.signatureSize_ge, by omega⟩

/-! ## Writes of PK -/

theorem Storage.Holds.setWithTimestamp {D : List UInt8 → Prop} {k K : Key} {s : Storage}
    (h : s.Holds D K) (hk : k.Clean) (hK : K.Clean) {data : Option (List UInt8)} {attrs : Attrs}
    (hnew : k.Same K → ∀ d, data = some d → d ≠ [] → D d)
    (happend : k.Same K → ∀ d i, data = some d → attrs.append = true → s.findSlot k = some i →
      D ((s.vars i).data ++ d)) (time : EfiTime) :
    (storageSetWithTimestamp s k data attrs time).2.Holds D K := by
  -- the one `storage_set` is the one of these arguments
  have hw : WritesOf (fun s₁ d a => s₁ = s ∧ d = data ∧ a = attrs) k s
      (storageSetWithTimestamp s k data attrs time).2 :=
    storageSetWithTimestamp_writesOf ⟨rfl, rfl, rfl⟩ k time
  refine hw.invariant ?_ h
  intro s₁ s₂ hstep hs
  cases hstep with
  | set harg =>
      obtain ⟨rfl, rfl, rfl⟩ := harg
      exact h.set hk hK hnew happend
  | mark time cert _ => exact hs.mark _ time cert

/-- The one write behind a verified request: the payload is stored as it is, and not behind
another. -/
theorem UpdateResult.holds {ssl : Phase → OpenSsl P X} {D : List UInt8 → Prop} {m : Machine}
    {k : Key} {data : Buffer} {dataSize : Nat} {attrs : Attrs} {kind : AuthVarType} {o : Outcome}
    {del : Bool} (h : UpdateResult ssl m k data dataSize attrs kind o del) (hk : k.Clean)
    (hm : m.storage.Holds D k) (happend : attrs.append = true → m.storage.findSlot k = none)
    (hnew : ∀ off size l, Checked (ssl .verify) k data dataSize data off size →
      (sigDataSize data).map (OFFSET_OF_AUTHINFO2_CERT_DATA + ·) = some off →
      data.slice off size = some l → l ≠ [] → D l) :
    o.machine.storage.Holds D k := by
  have hstored : ∀ {off size : Nat} {msg : List UInt8} {time : EfiTime} {st : EfiStatus}
      {s : Storage} {data' : Buffer},
      Accepted (ssl .verify) m.storage k data dataSize attrs kind off size msg time →
      authInternalUpdateVariableWithTimestamp m.storage k data off size attrs time =
        some (st, s, data') → s.Holds D k := by
    intro off size msg time st s data' hacc hs
    have hnot : ∀ {v}, attrs.append = true → storageFindVariable m.storage k = some v → False := by
      intro v happ hv
      obtain ⟨i, hi, _⟩ := Option.map_eq_some_iff.mp hv
      exact absurd ((happend happ).symm.trans hi) (by simp)
    cases authInternalUpdate_cases hs with
    | nothingNew happ hv => exact (hnot happ hv).elim
    | filtered happ hv => exact (hnot happ hv).elim
    | stored hl hset =>
        have hs' : (storageSetWithTimestamp m.storage k _ attrs time).2 = s :=
          congrArg Prod.snd hset
        rw [← hs']
        refine hm.setWithTimestamp hk hk ?_ ?_ time
        · rintro _ d hd hne
          cases hd
          exact hnew off size _ hacc.checked_payload hacc.described.off_eq hl hne
        · intro _ d i _ happ hi
          rw [happend happ] at hi
          cases hi
  cases h with
  | rejected => exact hm
  | failed hacc hs _ => exact hstored hacc hs
  | deleted hacc hs _ => exact hstored hacc hs
  | lost hacc hs _ _ => exact hstored hacc hs
  | undigested hacc hs _ _ _ => exact hstored hacc hs
  | recorded hacc hs _ _ _ => exact (hstored hacc hs).mark _ _ _

theorem followPk_holds {D : List UInt8 → Prop} {K : Key} (hK : K ∈ secureBootKeys) {o : Outcome}
    (h : o.machine.storage.Holds D K) (del : Bool) :
    (followPk o del).machine.storage.Holds D K := by
  rcases followPk_cases o del with heq | ⟨_, mode, _, heq⟩
  · rw [heq]
    exact h
  · rw [heq]
    refine setModeVariables_invariant (I := fun s => s.Holds D K) _ ?_ h
    intro s k value hk hs
    rw [modeVariables_keys] at hk
    exact hs.of_mode hk hK value

/-! ## Requests -/

/-- The payload is empty, or begins with an X.509 list and has no list without entries. -/
def SetRequest.certsOnly (req : SetRequest) : Bool :=
  match (sigDataSize req.buffer).map (OFFSET_OF_AUTHINFO2_CERT_DATA + ·) with
  | none => true
  | some off =>
    let size := sub64 req.data.length off
    size == 0 || signatureType req.buffer off == some gEfiCertX509Guid &&
      listsLong req.buffer (size + 1) off size

/-- One request with a NUL-free name.  If it is for PK, it does not append to a stored one, and
its payload is made of certificates. -/
structure PkStep (m : Machine) (r : Request P X) (m' : Machine) : Prop where
  step : Step m r m'
  name : NulFree r.set.name
  append : r.set.key = pkKey → r.set.attrs.append = true → m.storage.findSlot pkKey = none
  payload : r.set.key = pkKey → r.set.certsOnly = true

theorem SetRequest.oneCert_of_checked {ssl : OpenSsl P X} {req : SetRequest} {off size : Nat}
    {l : List UInt8} (h : req.certsOnly = true)
    (hc : Checked ssl pkKey req.buffer req.data.length req.buffer off size)
    (hoff : (sigDataSize req.buffer).map (OFFSET_OF_AUTHINFO2_CERT_DATA + ·) = some off)
    (hl : req.buffer.slice off size = some l) (hne : l ≠ []) : OneCert l := by
  have hsize := hc.size_eq
  subst hsize
  unfold SetRequest.certsOnly at h
  rw [hoff] at h
  simp only [Bool.or_eq_true, Bool.and_eq_true, beq_iff_eq] at h
  rcases h with h0 | ⟨hx509, hlong⟩
  · rw [h0] at hl
    exact absurd (List.eq_nil_of_length_eq_zero (Buffer.length_slice hl)) hne
  · exact checkSignatureListFormat_oneCert req.buffer_isWhole req.data_fits hc.format hx509 hlong
      hl hne

theorem PkStep.oneCert {m m' : Machine} {r : Request P X} (h : PkStep m r m')
    (hm : m.storage.Holds OneCert pkKey) : m'.storage.Holds OneCert pkKey := by
  obtain ⟨⟨status, hstep⟩, hname, happend, hpayload⟩ := h
  have hpk : pkKey ∈ secureBootKeys := by simp [secureBootKeys]
  by_cases hkey : r.set.key = pkKey
  · cases handleSetVariable_cases hstep with
    | refused => exact hm
    | plain _ _ hsb =>
        rw [hkey, secureBootKeys_dispatched pkKey hpk] at hsb
        cases hsb
    | @authenticated o _ _ hl =>
        have hclass : variableClass r.set.key = .pk := by rw [hkey]; decide +kernel
        rw [Machine.saved_storage]
        have hupdate : ∀ {kind : AuthVarType} {o : Outcome} {del : Bool},
            UpdateResult r.ssl (m.opened r.set) pkKey r.set.buffer r.set.data.length r.set.attrs
              kind o del → o.machine.storage.Holds OneCert pkKey := by
          intro kind o del hu
          refine hu.holds pkKey_clean hm (happend hkey) ?_
          intro off size l hc hoff hl hne
          exact SetRequest.oneCert_of_checked (hpayload hkey) hc hoff hl hne
        have hp := hl.of_pk hclass
        rw [hkey] at hp
        cases hp with
        | wrongAttrs => exact hm
        | enrol _ _ hu _ => exact followPk_holds hpk (hupdate hu) _
        | user _ _ hu _ => exact followPk_holds hpk (hupdate hu) _
  · have hne : ¬ r.set.key.Same pkKey := fun hsame => hkey (key_eq_of_same hpk hsame)
    refine handleSetVariable_invariant hstep (I := fun s => s.Holds OneCert pkKey) ?_ ?_ ?_ hm
    · intro _ s data attrs _ hs
      exact hs.set (SetRequest.key_clean hname) pkKey_clean (fun hsame => absurd hsame hne)
        (fun hsame => absurd hsame hne)
    · intro _ s i time cert _ hs
      exact hs.mark i time cert
    · intro _ s k value hk hs
      exact hs.of_mode hk hpk value

/-- From a state in which PK, if it is there, is one list with one X.509 entry, through any
requests with names without NUL that neither append to a stored PK nor bring lists of another
kind or without entries for it: PK is one list with one X.509 entry or not there. -/
theorem pk_oneCert {m m' : Machine} {rs : List (Request P X)}
    (hm : m.storage.Holds OneCert pkKey) (hrun : Run PkStep m rs m') :
    m'.storage.Holds OneCert pkKey :=
  hrun.invariant (I := fun m => m.storage.Holds OneCert pkKey)
    (fun _ _ _ hstep hm => hstep.oneCert hm) hm

end

theorem pk_oneCert_enrolPk : ∃ m' v, Run PkStep freshMachine [enrolPk .accepting] m' ∧
    storageFindVariable m'.storage pkKey = some v ∧ v.data = oneCertList ∧ OneCert v.data := by
  have hrun : (handleSetVariable (fun _ => OpenSsl.accepting) freshMachine
      (enrolPk .accepting).set).bind (fun r =>
        (storageFindVariable r.2.storage pkKey).map Variable.data) = some oneCertList := by
    decide +kernel
  obtain ⟨⟨status, m'⟩, hstep, hfind⟩ := Option.bind_eq_some_iff.mp hrun
  obtain ⟨v, hv, hdata⟩ := Option.map_eq_some_iff.mp hfind
  have hfresh : ∀ i, (freshMachine.storage.vars i).isMatch pkKey = false :=
    fun _ => Variable.not_isMatch_of_isFree pkKey_clean Variable.isFree_zero
  have hpk : PkStep freshMachine (enrolPk .accepting) m' :=
    ⟨⟨status, hstep⟩, by decide +kernel, fun _ _ => Slots.first_eq_none_iff.mpr hfresh,
      fun _ => by decide +kernel⟩
  have hstart : freshMachine.storage.Holds OneCert pkKey := by
    intro i hi
    rw [hfresh i] at hi
    cases hi
  have hrun := Run.cons hpk (.nil m')
  obtain ⟨i, hi, rfl⟩ := Option.map_eq_some_iff.mp hv
  exact ⟨m', _, hrun, hv, hdata, pk_oneCert hstart hrun i (Storage.findSlot_isMatch hi)⟩

/-- The request to append a certificate to PK. -/
def appendPk : Request Unit Unit where
  ssl := fun _ => .accepting
  set := { (enrolPk .accepting).set with attrs := AT_ATTRS ||| EFI_VARIABLE_APPEND_WRITE }

/-- Start-up without PK, an enrolment, and an append that the platform key signed: PK is two
lists. -/
theorem appendPk_twoLists : ∃ m m' v,
    authLibInitialize (fun _ => OpenSsl.accepting) freshMachine (authFiles [] [] [] []) =
      some (.success, m) ∧
    storageFindVariable m.storage pkKey = none ∧
    Run Step m [enrolPk .accepting, appendPk] m' ∧
    NulFree (enrolPk .accepting).set.name ∧ NulFree appendPk.set.name ∧
    storageFindVariable m'.storage pkKey = some v ∧ v.data = oneCertList ++ oneCertList ∧
    ¬ OneCert v.data := by
  have hrun : ((authLibInitialize (fun _ => OpenSsl.accepting) freshMachine
      (authFiles [] [] [] [])).bind (fun r =>
        (handleAll r.2 [enrolPk .accepting, appendPk]).bind (fun m =>
          (storageFindVariable m.storage pkKey).map (fun v =>
            (r.1, (storageFindVariable r.2.storage pkKey).isSome, v.data))))) =
      some (.success, false, oneCertList ++ oneCertList) := by
    decide +kernel
  obtain ⟨⟨status, m⟩, hinit, hrun⟩ := Option.bind_eq_some_iff.mp hrun
  obtain ⟨m', hm', hfind⟩ := Option.bind_eq_some_iff.mp hrun
  obtain ⟨v, hv, hr⟩ := Option.map_eq_some_iff.mp hfind
  simp only [Prod.mk.injEq, Option.isSome_eq_false_iff, Option.isNone_iff_eq_none] at hr
  obtain ⟨rfl, hnone, hdata⟩ := hr
  refine ⟨m, m', v, hinit, hnone, run_iff_handleAll.mpr hm', by decide +kernel, by decide +kernel,
    hv, hdata, ?_⟩
  -- the size field of the first list is not the size of the data
  rw [hdata]
  rintro ⟨ssz, hhead, _⟩
  have hsize : signatureListSize (Buffer.ofList (oneCertList ++ oneCertList)) 0 = some 44 := by
    decide +kernel
  exact absurd (hsize.symm.trans hhead.listSize_eq) (by decide +kernel)

end Uefistored
