/-
# `Uefistored.Update` — everything a verified update can do

One inversion lemma for each function on the path of an authenticated write.
Later proofs take a result apart with these and do not unfold the functions.

    checkDescriptor                            (`checkDescriptor_ok`)
    verifyTimeBasedPayload                     (`verifyTimeBasedPayload_cases`)
    authInternalUpdateVariableWithTimestamp    (`authInternalUpdate_cases`)
    verifyTimeBasedPayloadAndUpdate            (`verifyTimeBasedPayloadAndUpdate_cases`)

The last one is the type `UpdateResult`: the request was rejected before the
store was touched; or it was verified (`Accepted`) and then the store refused
it, deleted the variable, lost sight of it, failed to digest the signer, or
recorded the digest.  Only the first and the last are what a caller expects.
-/
import Uefistored.Auth

namespace Uefistored

open Lib

section
variable {P X : Type}

/-! ## The descriptor -/

/-- What an accepted descriptor says: where the payload is, and the message. -/
structure Described (k : Key) (data : Buffer) (dataSize : Nat) (attrs : Attrs)
    (orgTimeStamp : Option EfiTime) (off size : Nat) (msg : List UInt8) (time : EfiTime) :
    Prop where
  time_eq : authTimeStamp data = some time
  /-- Newer than the stored time stamp, except for an append. -/
  newer : attrs.append = false → ∀ t, orgTimeStamp = some t → time.compareTimestamp t = false
  off_eq : (sigDataSize data).map (OFFSET_OF_AUTHINFO2_CERT_DATA + ·) = some off
  size_eq : (sigDataSize data).map
    (sub64 (sub64 dataSize OFFSET_OF_AUTHINFO2_CERT_DATA) ·) = some size
  msg_eq : ∃ stamp payload, data.slice 0 16 = some stamp ∧ data.slice off size = some payload ∧
    msg = signedMessage k attrs stamp payload

theorem checkDescriptor_ok {k : Key} {data : Buffer} {dataSize : Nat} {attrs : Attrs}
    {org : Option EfiTime} {off size : Nat} {msg : List UInt8}
    (h : checkDescriptor k data dataSize attrs org = some (.ok (off, size, msg))) :
    ∃ time, Described k data dataSize attrs org off size msg time := by
  unfold checkDescriptor at h
  obtain ⟨stamp, hstamp, h⟩ := Option.bind_eq_some_iff.mp h
  dsimp only at h
  split at h
  · cases h
  split at h
  · cases h
  rename_i hnewer
  obtain ⟨ok, _, h⟩ := Option.bind_eq_some_iff.mp h
  split at h
  · cases h
  obtain ⟨sigSize, hsig, h⟩ := Option.bind_eq_some_iff.mp h
  obtain ⟨wrapped, _, h⟩ := Option.bind_eq_some_iff.mp h
  split at h
  · cases h
  split at h
  · cases h
  obtain ⟨payload, hpayload, h⟩ := Option.bind_eq_some_iff.mp h
  cases h
  refine ⟨EfiTime.ofBytes stamp, ?_⟩
  refine ⟨by simp [authTimeStamp, hstamp], ?_, by simp [hsig], by simp [hsig],
    stamp, payload, hstamp, hpayload, rfl⟩
  intro happ t ht
  simpa [ht, happ] using hnewer

theorem checkDescriptor_error {k : Key} {data : Buffer} {dataSize : Nat} {attrs : Attrs}
    {org : Option EfiTime} {status : EfiStatus}
    (h : checkDescriptor k data dataSize attrs org = some (.error status)) :
    status = .securityViolation ∨ status = .outOfResources := by
  unfold checkDescriptor at h
  obtain ⟨stamp, _, h⟩ := Option.bind_eq_some_iff.mp h
  dsimp only at h
  split at h
  · cases h; exact .inl rfl
  split at h
  · cases h; exact .inl rfl
  obtain ⟨ok, _, h⟩ := Option.bind_eq_some_iff.mp h
  split at h
  · cases h; exact .inl rfl
  obtain ⟨sigSize, _, h⟩ := Option.bind_eq_some_iff.mp h
  obtain ⟨wrapped, _, h⟩ := Option.bind_eq_some_iff.mp h
  split at h
  · cases h; exact .inl rfl
  split at h
  · cases h; exact .inr rfl
  obtain ⟨payload, _, h⟩ := Option.bind_eq_some_iff.mp h
  cases h

/-- A time stamp that is not newer is refused, whatever else the request says. -/
theorem checkDescriptor_stale {k : Key} {data : Buffer} {dataSize : Nat} {attrs : Attrs}
    {t time : EfiTime} (htime : authTimeStamp data = some time) (happ : attrs.append = false)
    (hstale : time.compareTimestamp t = true) :
    checkDescriptor k data dataSize attrs (some t) = some (.error .securityViolation) := by
  obtain ⟨stamp, hstamp, rfl⟩ := Option.map_eq_some_iff.mp htime
  unfold checkDescriptor
  simp only [hstamp, Option.bind_eq_bind, Option.bind_some]
  split
  · rfl
  · simp [hstale, happ]

/-! ## Verification -/

/-- The request passed every check in front of the write. -/
structure Accepted (ssl : OpenSsl P X) (s : Storage) (k : Key) (data : Buffer)
    (dataSize : Nat) (attrs : Attrs) (kind : AuthVarType) (off size : Nat) (msg : List UInt8)
    (time : EfiTime) : Prop where
  checked : checkDescriptor k data dataSize attrs
    ((storageFindVariable s k).map (·.timestamp)) = some (.ok (off, size, msg))
  described : Described k data dataSize attrs
    ((storageFindVariable s k).map (·.timestamp)) off size msg time
  verified : verifyBy ssl s k data off msg kind = some true
  format : checkSignatureListFormat ssl k.name k.guid data off size = some .success

theorem verifyTimeBasedPayload_cases {ssl : OpenSsl P X} {s : Storage} {k : Key}
    {data : Buffer} {dataSize : Nat} {attrs : Attrs} {kind : AuthVarType}
    {r : List VerifyCall × Except EfiStatus (Nat × Nat)}
    (h : verifyTimeBasedPayload ssl s k data dataSize attrs kind
      ((storageFindVariable s k).map (·.timestamp)) = some r) :
    (∃ calls status, r = (calls, .error status) ∧ status ≠ .success) ∨
      ∃ off size msg time, r = ([⟨kind, msg, true⟩], .ok (off, size)) ∧
        Accepted ssl s k data dataSize attrs kind off size msg time := by
  unfold verifyTimeBasedPayload at h
  obtain ⟨d, hd, h⟩ := Option.bind_eq_some_iff.mp h
  cases d with
  | error status =>
      cases h
      refine .inl ⟨[], status, rfl, ?_⟩
      rcases checkDescriptor_error hd with rfl | rfl <;> nofun
  | ok d =>
      obtain ⟨off, size, msg⟩ := d
      obtain ⟨ok, hok, h⟩ := Option.bind_eq_some_iff.mp h
      split at h
      · cases h
        exact .inl ⟨_, _, rfl, by simp⟩
      · rename_i hverified
        have htrue : ok = true := by simpa using hverified
        obtain ⟨status, hstatus, h⟩ := Option.bind_eq_some_iff.mp h
        split at h
        · rename_i hfail
          cases h
          exact .inl ⟨_, _, rfl, hfail⟩
        · rename_i hsuccess
          cases h
          obtain ⟨time, htime⟩ := checkDescriptor_ok hd
          exact .inr ⟨off, size, msg, time, rfl, hd, htime, by rw [hok, htrue],
            by rw [hstatus, not_not.mp hsuccess]⟩

/-- An accepted request is one that `verify_time_based_payload` accepts. -/
theorem Accepted.eq {ssl : OpenSsl P X} {s : Storage} {k : Key} {data : Buffer} {dataSize : Nat}
    {attrs : Attrs} {kind : AuthVarType} {off size : Nat} {msg : List UInt8} {time : EfiTime}
    (h : Accepted ssl s k data dataSize attrs kind off size msg time) :
    verifyTimeBasedPayload ssl s k data dataSize attrs kind
      ((storageFindVariable s k).map (·.timestamp)) =
        some ([⟨kind, msg, true⟩], .ok (off, size)) := by
  refine Option.bind_eq_some_iff.mpr ⟨_, h.checked, ?_⟩
  refine Option.bind_eq_some_iff.mpr ⟨true, h.verified, ?_⟩
  exact Option.bind_eq_some_iff.mpr ⟨.success, h.format, rfl⟩

/-! ## The update behind it -/

/-- What `auth_internal_update_variable_with_timestamp` can do: find that an append brings
nothing new, or hand a payload to `storage_set_with_timestamp`. -/
inductive StoreResult (s : Storage) (k : Key) (data : Buffer) (off size : Nat) (attrs : Attrs)
    (time : EfiTime) : EfiStatus → Storage → Buffer → Prop
  | nothingNew {v : Variable} {data' : Buffer} : attrs.append = true →
      storageFindVariable s k = some v → isSigListVariable v = true →
      Buffer.AgreeBelow off data data' →
      StoreResult s k data off size attrs time .success s data'
  | stored {payload : List UInt8} {status : EfiStatus} {s' : Storage} :
      data.slice off size = some payload →
      storageSetWithTimestamp s k (some payload) attrs time = (status, s') →
      StoreResult s k data off size attrs time status s' data
  | filtered {v : Variable} {data' : Buffer} {payload : List UInt8} {status : EfiStatus}
      {s' : Storage} : attrs.append = true →
      storageFindVariable s k = some v → isSigListVariable v = true → payload ≠ [] →
      storageSetWithTimestamp s k (some payload) attrs time = (status, s') →
      Buffer.AgreeBelow off data data' →
      StoreResult s k data off size attrs time status s' data'

/-- `FilterSignatureList` rewrites the payload and nothing in front of it. -/
theorem filterSignatureList_agreeBelow {old : List UInt8} {new new' : Buffer}
    {off size size' : Nat} (h : filterSignatureList old new off size = some (new', size')) :
    Buffer.AgreeBelow off new new' := by
  unfold filterSignatureList at h
  split at h
  · cases h
    exact .refl _ _
  · obtain ⟨tail, _, h⟩ := Option.bind_eq_some_iff.mp h
    obtain ⟨new₁, hw, h⟩ := Option.bind_eq_some_iff.mp h
    cases h
    exact Buffer.agreeBelow_write hw

theorem authInternalUpdate_cases {s s' : Storage} {k : Key} {data data' : Buffer}
    {off size : Nat} {attrs : Attrs} {time : EfiTime} {status : EfiStatus}
    (h : authInternalUpdateVariableWithTimestamp s k data off size attrs time =
      some (status, s', data')) :
    StoreResult s k data off size attrs time status s' data' := by
  unfold authInternalUpdateVariableWithTimestamp at h
  split at h
  · obtain ⟨payload, hp, h⟩ := Option.bind_eq_some_iff.mp h
    cases h
    exact .stored hp rfl
  · rename_i v hv
    obtain ⟨hfind, hcond⟩ := Option.filter_eq_some_iff.mp hv
    rw [Bool.and_eq_true] at hcond
    obtain ⟨⟨data₁, size₁⟩, hfilter, h⟩ := Option.bind_eq_some_iff.mp h
    have hagree := filterSignatureList_agreeBelow hfilter
    dsimp only at h
    split at h
    · cases h
      exact .nothingNew hcond.1 hfind hcond.2 hagree
    · rename_i hsize
      obtain ⟨payload, hp, h⟩ := Option.bind_eq_some_iff.mp h
      cases h
      have hne : payload ≠ [] := by
        rintro rfl
        exact hsize (by simpa using (Buffer.length_slice hp).symm)
      exact .filtered hcond.1 hfind hcond.2 hne rfl hagree

/-- Whatever happened to the payload, the descriptor in front of it is as it was. -/
theorem StoreResult.agreeBelow {s s' : Storage} {k : Key} {data data' : Buffer} {off size : Nat}
    {attrs : Attrs} {time : EfiTime} {status : EfiStatus}
    (h : StoreResult s k data off size attrs time status s' data') :
    Buffer.AgreeBelow off data data' := by
  cases h with
  | nothingNew _ _ _ hagree => exact hagree
  | stored => exact .refl _ _
  | filtered _ _ _ _ _ hagree => exact hagree

/-- Only an append to one of the filtered variables rewrites the caller's data. -/
theorem StoreResult.data_eq_or {s s' : Storage} {k : Key} {data data' : Buffer} {off size : Nat}
    {attrs : Attrs} {time : EfiTime} {status : EfiStatus}
    (h : StoreResult s k data off size attrs time status s' data') :
    data' = data ∨ ∃ v, storageFindVariable s k = some v ∧ isSigListVariable v = true := by
  cases h with
  | nothingNew _ hv hsig _ => exact .inr ⟨_, hv, hsig⟩
  | stored => exact .inl rfl
  | filtered _ hv hsig _ _ _ => exact .inr ⟨_, hv, hsig⟩

/-! ## `verify_time_based_payload_and_update` -/

/-- `is_del`: the variable is there, the payload is empty, and it is no append. -/
def isDel (s : Storage) (k : Key) (size : Nat) (attrs : Attrs) : Bool :=
  (storageFindVariable s k).isSome && size == 0 && !attrs.append

theorem isDel_iff {s : Storage} {k : Key} {size : Nat} {attrs : Attrs} :
    isDel s k size attrs = true ↔
      (storageFindVariable s k).isSome ∧ size = 0 ∧ attrs.append = false := by
  simp [isDel, and_assoc]

/-- The state after an accepted verification and the update behind it. -/
def Machine.updated (m : Machine) (kind : AuthVarType) (msg : List UInt8) (s : Storage) :
    Machine :=
  { m with calls := m.calls ++ [⟨kind, msg, true⟩], storage := s }

/-- Everything `verify_time_based_payload_and_update` can have done. -/
inductive UpdateResult (ssl : Phase → OpenSsl P X) (m : Machine) (k : Key) (data : Buffer)
    (dataSize : Nat) (attrs : Attrs) (kind : AuthVarType) : Outcome → Bool → Prop
  /-- Refused before the store was touched. -/
  | rejected {status : EfiStatus} {calls : List VerifyCall} : status ≠ .success →
      verifyTimeBasedPayload (ssl .verify) m.storage k data dataSize attrs kind
        ((storageFindVariable m.storage k).map (·.timestamp)) = some (calls, .error status) →
      UpdateResult ssl m k data dataSize attrs kind
        ⟨status, { m with calls := m.calls ++ calls }, data⟩ false
  /-- Verified, and refused by the store. -/
  | failed {off size : Nat} {msg : List UInt8} {time : EfiTime} {status : EfiStatus}
      {s : Storage} {data' : Buffer} :
      Accepted (ssl .verify) m.storage k data dataSize attrs kind off size msg time →
      authInternalUpdateVariableWithTimestamp m.storage k data off size attrs time =
        some (status, s, data') → status ≠ .success →
      UpdateResult ssl m k data dataSize attrs kind ⟨status, m.updated kind msg s, data'⟩ false
  /-- Verified, and the variable deleted. -/
  | deleted {off size : Nat} {msg : List UInt8} {time : EfiTime} {s : Storage}
      {data' : Buffer} :
      Accepted (ssl .verify) m.storage k data dataSize attrs kind off size msg time →
      authInternalUpdateVariableWithTimestamp m.storage k data off size attrs time =
        some (.success, s, data') →
      isDel m.storage k size attrs = true →
      UpdateResult ssl m k data dataSize attrs kind ⟨.success, m.updated kind msg s, data'⟩ true
  /-- Verified and written, and not found again under the request's name. -/
  | lost {off size : Nat} {msg : List UInt8} {time : EfiTime} {s : Storage} {data' : Buffer} :
      Accepted (ssl .verify) m.storage k data dataSize attrs kind off size msg time →
      authInternalUpdateVariableWithTimestamp m.storage k data off size attrs time =
        some (.success, s, data') →
      isDel m.storage k size attrs = false → s.findSlot k = none →
      UpdateResult ssl m k data dataSize attrs kind ⟨.notFound, m.updated kind msg s, data'⟩ false
  /-- Verified and written, and the signer's digest cannot be computed. -/
  | undigested {off size : Nat} {msg : List UInt8} {time : EfiTime} {s : Storage}
      {data' : Buffer} {i : Fin MAX_VAR_COUNT} {status : EfiStatus} :
      Accepted (ssl .verify) m.storage k data dataSize attrs kind off size msg time →
      authInternalUpdateVariableWithTimestamp m.storage k data off size attrs time =
        some (.success, s, data') →
      isDel m.storage k size attrs = false → s.findSlot k = some i →
      sha256FromAuth (ssl .digest) data' = some (.error status) →
      UpdateResult ssl m k data dataSize attrs kind ⟨status, m.updated kind msg s, data'⟩ false
  /-- Verified, written, and the signer's digest recorded. -/
  | recorded {off size : Nat} {msg : List UInt8} {time : EfiTime} {s : Storage}
      {data' : Buffer} {i : Fin MAX_VAR_COUNT} {digest : Digest} :
      Accepted (ssl .verify) m.storage k data dataSize attrs kind off size msg time →
      authInternalUpdateVariableWithTimestamp m.storage k data off size attrs time =
        some (.success, s, data') →
      isDel m.storage k size attrs = false → s.findSlot k = some i →
      sha256FromAuth (ssl .digest) data' = some (.ok digest) →
      UpdateResult ssl m k data dataSize attrs kind
        ⟨.success, m.updated kind msg (s.setSlot i { s.vars i with cert := digest }), data'⟩
        false

theorem verifyTimeBasedPayloadAndUpdate_cases {ssl : Phase → OpenSsl P X} {m : Machine}
    {k : Key} {data : Buffer} {dataSize : Nat} {attrs : Attrs} {kind : AuthVarType}
    {o : Outcome} {del : Bool}
    (h : verifyTimeBasedPayloadAndUpdate ssl m k data dataSize attrs kind = some (o, del)) :
    UpdateResult ssl m k data dataSize attrs kind o del := by
  unfold verifyTimeBasedPayloadAndUpdate at h
  obtain ⟨r, hr, h⟩ := Option.bind_eq_some_iff.mp h
  rcases verifyTimeBasedPayload_cases hr with
    ⟨calls, status, rfl, hstatus⟩ | ⟨off, size, msg, time, rfl, hacc⟩
  · cases h
    exact .rejected hstatus hr
  · obtain ⟨time', htime', h⟩ := Option.bind_eq_some_iff.mp h
    obtain rfl : time' = time :=
      Option.some.inj (htime'.symm.trans hacc.described.time_eq)
    obtain ⟨⟨status, s, data'⟩, hup, h⟩ := Option.bind_eq_some_iff.mp h
    dsimp only at h
    split at h
    · rename_i hcond
      simp only [Bool.and_eq_true, beq_iff_eq, Bool.not_eq_true'] at hcond
      obtain ⟨rfl, hdel⟩ := hcond
      split at h
      · rename_i hnone
        cases h
        exact .lost hacc hup hdel hnone
      · rename_i i hi
        obtain ⟨d, hd, h⟩ := Option.bind_eq_some_iff.mp h
        cases d with
        | error status =>
            cases h
            exact .undigested hacc hup hdel hi hd
        | ok digest =>
            cases h
            exact .recorded hacc hup hdel hi hd
    · rename_i hcond
      by_cases hs : status = .success
      · subst hs
        have hdel : isDel m.storage k size attrs = true := by
          simpa [isDel, Bool.and_assoc, Option.isSome_iff_ne_none] using hcond
        have hflag : ((storageFindVariable m.storage k).isSome && size == 0 && !attrs.append &&
            EfiStatus.success == EfiStatus.success) = true := by
          simpa [isDel] using hdel
        rw [hflag] at h
        cases h
        exact .deleted hacc hup hdel
      · have hflag : ((storageFindVariable m.storage k).isSome && size == 0 && !attrs.append &&
            status == EfiStatus.success) = false := by
          simp [hs]
        rw [hflag] at h
        cases h
        exact .failed hacc hup hs

/-- A descriptor that fails its checks ends the update. -/
theorem verifyTimeBasedPayloadAndUpdate_error {ssl : Phase → OpenSsl P X} {m : Machine} {k : Key}
    {data : Buffer} {dataSize : Nat} {attrs : Attrs} {kind : AuthVarType} {status : EfiStatus}
    (h : checkDescriptor k data dataSize attrs
      ((storageFindVariable m.storage k).map (·.timestamp)) = some (.error status)) :
    verifyTimeBasedPayloadAndUpdate ssl m k data dataSize attrs kind =
      some (⟨status, m, data⟩, false) := by
  have hcalls : { m with calls := m.calls ++ [] } = m := by rw [List.append_nil]
  have hv : verifyTimeBasedPayload (ssl .verify) m.storage k data dataSize attrs kind
      ((storageFindVariable m.storage k).map (·.timestamp)) = some ([], .error status) :=
    Option.bind_eq_some_iff.mpr ⟨_, h, rfl⟩
  refine Option.bind_eq_some_iff.mpr ⟨_, hv, ?_⟩
  dsimp only
  rw [hcalls]
  rfl

/-- A failing `sha256_from_auth` is a security violation. -/
theorem sha256FromAuth_error {ssl : OpenSsl P X} {data : Buffer} {status : EfiStatus}
    (h : sha256FromAuth ssl data = some (.error status)) : status = .securityViolation := by
  unfold sha256FromAuth at h
  obtain ⟨p, _, h⟩ := Option.bind_eq_some_iff.mp h
  cases p with
  | none => cases h; rfl
  | some pkcs7 =>
      dsimp only at h
      split at h
      · cases h; rfl
      · cases h

end

end Uefistored
