/-
# `Uefistored.Attempt` — when an attempt at an authenticated write comes back

An authenticated write reads lengths out of the request and out of stored
variables and follows them.  Whether it returns is a question about those bytes:

    the verifiers                                (`verifyBy_isSome_iff`)
    `verify_time_based_payload`                  (`verifyTimeBasedPayload_isSome_iff`)
    the update behind it                         (`attempt_isSome_iff`)
    the branch for setup mode                    (`updateInSetupMode_isSome_iff`)

Each condition is one on the request, on what OpenSSL makes of its bytes and on
the store in front of the request.  `offered` is what an update hands to the
store, and the update is a function of it (`authInternalUpdate_eq`).
-/
import Uefistored.Append
import Uefistored.Search
import Uefistored.Status

namespace Uefistored

open Lib SigList

section
variable {P X : Type}

/-! ## Verification -/

/-- What a `verify_*` function reads is there: the certificate in the payload, the one in the
stored PK, or those in the stored KEK. -/
def VerifierInside (ssl : OpenSsl P X) (s : Storage) (b : Buffer) (off : Nat) (msg : List UInt8) :
    AuthVarType → Prop
  | .payload => ∃ hsz ssz, headerSize b off = some hsz ∧ signatureSize b off = some ssz ∧
      readsOutside ssl b (off + ESL_SIZE + hsz + GUID_SIZE) (sub64 ssz GUID_SIZE) = false
  | .priv => True
  | .pk => ∀ pkcs7, pkcs7FromAuth ssl b = some (some pkcs7) →
      ∀ top, pkcs7GetTopCert ssl pkcs7 = some top →
      ∀ v, storageFindVariable s pkKey = some v → v.data ≠ [] →
        CertInside (ssl.i2dX509 top) (Buffer.ofList v.data)
  | .kek => ∀ pkcs7, pkcs7FromAuth ssl b = some (some pkcs7) →
      ∀ v, storageFindVariable s kekKey = some v →
        SearchInside (kekQuery ssl (Buffer.ofList v.data) pkcs7 msg) (Buffer.ofList v.data)
          v.data.length

section
variable {ssl : OpenSsl P X} {s : Storage} {k : Key} {b : Buffer} {off sig : Nat}
  {msg : List UInt8}

theorem verifyPayload_isSome_iff (hsig : SignatureInside b sig) :
    (verifyPayload ssl b off msg).isSome ↔ VerifierInside ssl s b off msg .payload := by
  unfold verifyPayload VerifierInside
  constructor
  · intro h
    obtain ⟨ok, h⟩ := Option.isSome_iff_exists.mp h
    obtain ⟨hsz, hhsz, h⟩ := Option.bind_eq_some_iff.mp h
    obtain ⟨ssz, hssz, h⟩ := Option.bind_eq_some_iff.mp h
    obtain ⟨cert, hcert, _⟩ := Option.bind_eq_some_iff.mp h
    refine ⟨hsz, ssz, hhsz, hssz, Bool.of_not_eq_true ?_⟩
    rw [← d2iX509At_eq_none_iff, hcert]
    exact Option.some_ne_none cert
  · rintro ⟨hsz, ssz, hhsz, hssz, hin⟩
    obtain ⟨r, hr⟩ := hsig.parsed ssl
    obtain ⟨cert, hcert⟩ := Option.ne_none_iff_exists'.mp
      (mt d2iX509At_eq_none_iff.mp (Bool.not_eq_true _ ▸ hin))
    rw [hhsz, hssz, hr, Option.bind_eq_bind, Option.bind_some, Option.bind_eq_bind,
      Option.bind_some, hcert, Option.bind_eq_bind, Option.bind_some]
    cases cert with
    | none => rfl
    | some trusted =>
        cases r with
        | none => rfl
        | some pkcs7 => rfl

theorem verifyPriv_isSome (hsig : SignatureInside b sig) : (verifyPriv ssl s k b msg).isSome := by
  obtain ⟨r, hr⟩ := hsig.parsed ssl
  unfold verifyPriv
  rw [hr, Option.bind_eq_bind, Option.bind_some]
  cases r with
  | none => rfl
  | some pkcs7 =>
      dsimp only
      split
      · rfl
      · split
        · rfl
        · rfl

theorem verifyPk_isSome_iff (hsig : SignatureInside b sig) :
    (verifyPk ssl s b msg).isSome ↔ VerifierInside ssl s b off msg .pk := by
  obtain ⟨r, hr⟩ := hsig.parsed ssl
  unfold verifyPk VerifierInside
  rw [hr, Option.bind_eq_bind, Option.bind_some]
  cases r with
  | none => exact iff_of_true rfl nofun
  | some pkcs7 =>
      simp only [Option.some.injEq, forall_eq']
      cases pkcs7GetTopCert ssl pkcs7 with
      | none => exact iff_of_true rfl nofun
      | some top =>
          simp only [Option.some.injEq, forall_eq']
          cases storageFindVariable s pkKey with
          | none => exact iff_of_true rfl nofun
          | some v =>
              simp only [Option.some.injEq, forall_eq']
              split
              · rename_i hnil
                exact iff_of_true rfl (fun h => absurd hnil h)
              · rename_i hne
                rw [forall_prop_of_true hne, ← certEqualsEsl_isSome_iff]
                cases certEqualsEsl (ssl.i2dX509 top) (Buffer.ofList v.data) with
                | none => exact Iff.rfl
                | some same => exact Iff.rfl

theorem verifyKek_isSome_iff (hsig : SignatureInside b sig) :
    (verifyKek ssl s b msg).isSome ↔ VerifierInside ssl s b off msg .kek := by
  obtain ⟨r, hr⟩ := hsig.parsed ssl
  unfold verifyKek VerifierInside
  rw [hr]
  cases r with
  | none =>
      refine iff_of_true ?_ nofun
      cases storageFindVariable s kekKey with
      | none => rfl
      | some v => rfl
  | some pkcs7 =>
      simp only [Option.some.injEq, forall_eq']
      cases storageFindVariable s kekKey with
      | none => exact iff_of_true rfl nofun
      | some v =>
          simp only [Option.some.injEq, forall_eq']
          exact kekLists_isSome_iff

/-- A verifier returns exactly if what it reads is there. -/
theorem verifyBy_isSome_iff (hsig : SignatureInside b sig) (kind : AuthVarType) :
    (verifyBy ssl s k b off msg kind).isSome ↔ VerifierInside ssl s b off msg kind := by
  cases kind with
  | pk => exact verifyPk_isSome_iff hsig
  | kek => exact verifyKek_isSome_iff hsig
  | priv => exact iff_of_true (verifyPriv_isSome hsig) trivial
  | payload => exact verifyPayload_isSome_iff hsig

end

/-- What `verify_time_based_payload` reads is there: the descriptor; if that passes, what the
verifier looks at; and if that accepts, the lists of the payload. -/
def VerificationInside (ssl : OpenSsl P X) (s : Storage) (k : Key) (b : Buffer) (n : Nat)
    (attrs : Attrs) (kind : AuthVarType) (org : Option EfiTime) : Prop :=
  DescriptorInside k b n attrs org ∧ ∀ sig stamp payload,
    DescriptorPasses k b n attrs org sig stamp payload →
      VerifierInside ssl s b (OFFSET_OF_AUTHINFO2_CERT_DATA + sig)
        (signedMessage k attrs stamp payload) kind ∧
      (verifyBy ssl s k b (OFFSET_OF_AUTHINFO2_CERT_DATA + sig)
          (signedMessage k attrs stamp payload) kind = some true →
        formatKind k.name k.guid ≠ none →
        FormatInside ssl b (OFFSET_OF_AUTHINFO2_CERT_DATA + sig) (payloadLength n sig))

section
variable {ssl : OpenSsl P X} {s : Storage} {k : Key} {b : Buffer} {n : Nat} {attrs : Attrs}
  {kind : AuthVarType} {org : Option EfiTime}

/-- The sizes and the parts of a descriptor that passes. -/
theorem DescriptorPasses.unique {sig sig' : Nat} {stamp stamp' payload payload' : List UInt8}
    (h : DescriptorPasses k b n attrs org sig stamp payload)
    (h' : DescriptorPasses k b n attrs org sig' stamp' payload') :
    sig' = sig ∧ stamp' = stamp ∧ payload' = payload := by
  obtain rfl := Option.some.inj (h.size_eq.symm.trans h'.size_eq)
  exact ⟨rfl, Option.some.inj (h'.stamp_eq.symm.trans h.stamp_eq),
    Option.some.inj (h'.payload_eq.symm.trans h.payload_eq)⟩

theorem DescriptorPasses.forall_iff {sig : Nat} {stamp payload : List UInt8}
    (h : DescriptorPasses k b n attrs org sig stamp payload)
    {Q : Nat → List UInt8 → List UInt8 → Prop} : (∀ sig' stamp' payload',
      DescriptorPasses k b n attrs org sig' stamp' payload' → Q sig' stamp' payload') ↔
        Q sig stamp payload := by
  constructor
  · intro hall
    exact hall sig stamp payload h
  · intro hQ sig' stamp' payload' h'
    obtain ⟨rfl, rfl, rfl⟩ := h.unique h'
    exact hQ

theorem verifyTimeBasedPayload_isSome_iff :
    (verifyTimeBasedPayload ssl s k b n attrs kind org).isSome ↔
      VerificationInside ssl s k b n attrs kind org := by
  unfold VerificationInside
  rw [← checkDescriptor_isSome_iff]
  unfold verifyTimeBasedPayload
  cases hd : checkDescriptor k b n attrs org with
  | none => exact iff_of_false nofun (fun h => nomatch h.1)
  | some r =>
      rw [Option.bind_eq_bind, Option.bind_some, and_iff_right (show (some r).isSome from rfl)]
      cases r with
      | error status =>
          refine iff_of_true rfl ?_
          intro sig stamp payload hp
          cases hd.symm.trans (checkDescriptor_ok_iff.mpr ⟨sig, stamp, payload, hp, rfl, rfl, rfl⟩)
      | ok r =>
          obtain ⟨off, size, msg⟩ := r
          obtain ⟨sig, stamp, payload, hp, rfl, rfl, rfl⟩ := checkDescriptor_ok_iff.mp hd
          rw [hp.forall_iff, ← verifyBy_isSome_iff hp.toSignatureInside,
            ← checkSignatureListFormat_isSome_iff]
          dsimp only
          cases verifyBy ssl s k b (OFFSET_OF_AUTHINFO2_CERT_DATA + sig)
            (signedMessage k attrs stamp payload) kind with
          | none => exact iff_of_false nofun (fun h => nomatch h.1)
          | some ok =>
              rw [Option.bind_eq_bind, Option.bind_some,
                and_iff_right (show (some ok).isSome from rfl)]
              cases ok with
              | false => exact iff_of_true rfl nofun
              | true =>
                  rw [if_neg (show ¬ (!true) = true by decide), forall_prop_of_true rfl]
                  cases checkSignatureListFormat ssl k.name k.guid b
                    (OFFSET_OF_AUTHINFO2_CERT_DATA + sig) (payloadLength n sig) with
                  | none => exact Iff.rfl
                  | some status =>
                      refine iff_of_true ?_ rfl
                      rw [Option.bind_eq_bind, Option.bind_some]
                      split
                      · rfl
                      · rfl

end

/-! ## The update -/

/-- The lists that `auth_internal_update_variable_with_timestamp` filters the payload against:
for an append to KEK or to one of the databases, those that are stored. -/
def filteredAgainst (s : Storage) (k : Key) (attrs : Attrs) : Option (List UInt8) :=
  ((storageFindVariable s k).filter (fun v => attrs.append && isSigListVariable v)).map (·.data)

/-- What the update offers to the store, and what it leaves of the caller's data. -/
def offered (s : Storage) (k : Key) (b : Buffer) (off size : Nat) (attrs : Attrs) :
    Option (List UInt8 × Buffer) :=
  match filteredAgainst s k attrs with
  | none => (b.slice off size).map (·, b)
  | some old => (filterSignatureList old b off size).bind fun r =>
      (r.1.slice off r.2).map (·, r.1)

section
variable {s : Storage} {k : Key} {b : Buffer} {off size : Nat} {attrs : Attrs} {time : EfiTime}
  {old : List UInt8}

theorem filteredAgainst_eq_some_iff : filteredAgainst s k attrs = some old ↔
    attrs.append = true ∧ ∃ v, storageFindVariable s k = some v ∧ isSigListVariable v = true ∧
      v.data = old := by
  unfold filteredAgainst
  rw [Option.map_eq_some_iff]
  simp only [Option.filter_eq_some_iff, Bool.and_eq_true]
  constructor
  · rintro ⟨v, ⟨hv, happ, hsig⟩, rfl⟩
    exact ⟨happ, v, hv, hsig, rfl⟩
  · rintro ⟨happ, v, hv, hsig, rfl⟩
    exact ⟨v, ⟨hv, happ, hsig⟩, rfl⟩

/-- Only the four of them are filtered. -/
theorem mem_sigListKeys_of_filtered {l : List UInt8} {g : Guid}
    (hl : l.length ≤ MAX_VARIABLE_NAME_SIZE)
    (h : filteredAgainst s (Key.of l g) attrs = some old) : Key.of l g ∈ sigListKeys := by
  obtain ⟨_, v, hv, hsig, _⟩ := filteredAgainst_eq_some_iff.mp h
  obtain ⟨i, hi, rfl⟩ := Option.map_eq_some_iff.mp hv
  exact mem_sigListKeys_of_isMatch hl (Storage.findSlot_isMatch hi) hsig

theorem size_filterSignatureList {new new' : Buffer} {size' : Nat}
    (h : filterSignatureList old new off size = some (new', size')) :
    new'.size = new.size ∧ size' ≤ size := by
  unfold filterSignatureList at h
  split at h
  · cases h
    exact ⟨rfl, Nat.zero_le _⟩
  · obtain ⟨tail, htail, h⟩ := Option.bind_eq_some_iff.mp h
    obtain ⟨new₁, hw, h⟩ := Option.bind_eq_some_iff.mp h
    cases h
    exact ⟨Buffer.size_write hw, length_filterLists _ _ _ _ htail (Nat.zero_le _)⟩

/-- The update in terms of what it offers. -/
theorem authInternalUpdate_eq (hin : off + size ≤ b.size) :
    authInternalUpdateVariableWithTimestamp s k b off size attrs time =
      (offered s k b off size attrs).map fun r =>
        if (filteredAgainst s k attrs).isSome ∧ r.1 = [] then (.success, s, r.2)
        else
          let w := storageSetWithTimestamp s k (some r.1) attrs time
          (w.1, w.2, r.2) := by
  unfold authInternalUpdateVariableWithTimestamp offered filteredAgainst
  cases (storageFindVariable s k).filter (fun v => attrs.append && isSigListVariable v) with
  | none =>
      simp only [storePayload, Option.map_none, Option.isSome_none]
      cases b.slice off size with
      | none => rfl
      | some payload => rfl
  | some v =>
      simp only [Option.map_some, Option.isSome_some, true_and]
      cases hfilter : filterSignatureList v.data b off size with
      | none => rfl
      | some r =>
          obtain ⟨b', size'⟩ := r
          obtain ⟨hsize, hle⟩ := size_filterSignatureList hfilter
          obtain ⟨d, hd⟩ := Buffer.slice_isSome (show off + size' ≤ b'.size by omega)
          have hlen := Buffer.length_slice hd
          simp only [storePayload, Option.bind_eq_bind, Option.bind_some, Option.map_some, hd]
          by_cases h0 : size' = 0
          · have hnil : d = [] := List.eq_nil_of_length_eq_zero (hlen.trans h0)
            rw [if_pos h0, if_pos hnil]
            rfl
          · have hnil : d ≠ [] := by
              rintro rfl
              exact h0 hlen.symm
            rw [if_neg h0, if_neg hnil]
            rfl

theorem offered_of_update {s' : Storage} {b' : Buffer} {status : EfiStatus}
    (hin : off + size ≤ b.size)
    (h : authInternalUpdateVariableWithTimestamp s k b off size attrs time =
      some (status, s', b')) : ∃ d, offered s k b off size attrs = some (d, b') := by
  rw [authInternalUpdate_eq hin] at h
  obtain ⟨⟨d, b₁⟩, hoffer, h⟩ := Option.map_eq_some_iff.mp h
  dsimp only at h
  split at h
  · cases h
    exact ⟨d, hoffer⟩
  · cases h
    exact ⟨d, hoffer⟩

/-- Where nothing is filtered the payload is offered as it came. -/
theorem offered_unfiltered (h : filteredAgainst s k attrs = none) :
    offered s k b off size attrs = (b.slice off size).map (·, b) := by
  rw [offered, h]

/-- What is left of the data: everything in front of the payload, and the size of the object. -/
theorem offered_agrees {d : List UInt8} {b' : Buffer}
    (h : offered s k b off size attrs = some (d, b')) :
    Buffer.AgreeBelow off b b' ∧ b'.size = b.size := by
  unfold offered at h
  split at h
  · obtain ⟨payload, _, h⟩ := Option.map_eq_some_iff.mp h
    cases h
    exact ⟨.refl _ _, rfl⟩
  · obtain ⟨⟨b₁, size₁⟩, hfilter, h⟩ := Option.bind_eq_some_iff.mp h
    obtain ⟨d', _, h⟩ := Option.map_eq_some_iff.mp h
    cases h
    exact ⟨filterSignatureList_agreeBelow hfilter, (size_filterSignatureList hfilter).1⟩

theorem offered_isSome_iff {ssl : OpenSsl P X} (hb : b.size < 2 ^ 63) (hin : off + size ≤ b.size)
    (hcover : ∀ old, filteredAgainst s k attrs = some old → ListsCover ssl b off size) :
    (offered s k b off size attrs).isSome ↔ ∀ old, filteredAgainst s k attrs = some old →
      FilterInside ssl (Buffer.ofList old) old.length b off size := by
  unfold offered
  cases hold : filteredAgainst s k attrs with
  | none =>
      obtain ⟨payload, hp⟩ := Buffer.slice_isSome hin
      rw [hp]
      exact iff_of_true rfl nofun
  | some old =>
      simp only [Option.some.injEq, forall_eq']
      rw [← filterSignatureList_isSome_iff hb (hcover old hold) hin]
      cases hfilter : filterSignatureList old b off size with
      | none => exact iff_of_false nofun nofun
      | some r =>
          obtain ⟨b', size'⟩ := r
          obtain ⟨hsize, hle⟩ := size_filterSignatureList hfilter
          obtain ⟨d, hd⟩ := Buffer.slice_isSome (show off + size' ≤ b'.size by omega)
          rw [Option.bind_some, hd]
          exact iff_of_true rfl rfl

end

/-- The signature is read again behind the update, and is still there. -/
theorem SignatureInside.of_agree {b b' : Buffer} {sig : Nat} (h : SignatureInside b sig)
    (hagree : Buffer.AgreeBelow (OFFSET_OF_AUTHINFO2_CERT_DATA + sig) b b')
    (hsize : b'.size = b.size) : SignatureInside b' sig := by
  refine ⟨?_, ?_, ?_⟩
  · rw [← h.size_eq]
    unfold sigDataSize dwLength Buffer.num
    rw [hagree 16 4 (by show 16 + 4 ≤ 40 + sig; omega)]
  · rw [hsize]
    exact h.inside
  · rintro ⟨h16, hend, l, hl, hhead⟩
    refine h.complete ⟨h16, hsize ▸ hend, l, ?_, hhead⟩
    rw [← hl]
    exact (hagree _ _ (by rw [h16])).symm

theorem SignatureInside.digested {b : Buffer} {sig : Nat} (h : SignatureInside b sig)
    (ssl : OpenSsl P X) : (sha256FromAuth ssl b).isSome := by
  obtain ⟨r, hr⟩ := h.parsed ssl
  unfold sha256FromAuth
  rw [hr, Option.bind_eq_bind, Option.bind_some]
  cases r with
  | none => rfl
  | some pkcs7 =>
      dsimp only
      cases signerDigest ssl pkcs7 with
      | none => rfl
      | some r => rfl

/-- What `verify_time_based_payload_and_update` reads is there: what the verification reads, and,
for an accepted payload that is filtered, the stored lists `old`. -/
def AttemptInside (ssl : OpenSsl P X) (s : Storage) (k : Key) (b : Buffer) (n : Nat)
    (attrs : Attrs) (kind : AuthVarType) (org : Option EfiTime)
    (old : Option (List UInt8)) : Prop :=
  VerificationInside ssl s k b n attrs kind org ∧ ∀ sig stamp payload l,
    DescriptorPasses k b n attrs org sig stamp payload →
    verifyBy ssl s k b (OFFSET_OF_AUTHINFO2_CERT_DATA + sig) (signedMessage k attrs stamp payload)
      kind = some true →
    ListsCover ssl b (OFFSET_OF_AUTHINFO2_CERT_DATA + sig) (payloadLength n sig) → old = some l →
    FilterInside ssl (Buffer.ofList l) l.length b (OFFSET_OF_AUTHINFO2_CERT_DATA + sig)
      (payloadLength n sig)

section
variable {ssl : Phase → OpenSsl P X} {m : Machine} {k : Key} {b : Buffer} {n : Nat} {attrs : Attrs}
  {kind : AuthVarType} {off size : Nat} {msg : List UInt8} {time : EfiTime}

theorem Accepted.passes {ssl : OpenSsl P X} {s : Storage}
    (h : Accepted ssl s k b n attrs kind off size msg time) : ∃ sig stamp payload,
      DescriptorPasses k b n attrs ((storageFindVariable s k).map (·.timestamp)) sig stamp payload ∧
        off = OFFSET_OF_AUTHINFO2_CERT_DATA + sig ∧ size = payloadLength n sig ∧
        msg = signedMessage k attrs stamp payload :=
  checkDescriptor_ok_iff.mp h.checked

theorem Accepted.inside {ssl : OpenSsl P X} {s : Storage}
    (h : Accepted ssl s k b n attrs kind off size msg time) : off + size ≤ b.size := by
  obtain ⟨sig, stamp, payload, hp, rfl, rfl, _⟩ := h.passes
  exact Buffer.slice_le hp.payload_eq

/-- Behind an accepted verification only the update can fail to return. -/
theorem Accepted.isSome_iff
    (h : Accepted (ssl .verify) m.storage k b n attrs kind off size msg time) :
    (verifyTimeBasedPayloadAndUpdate ssl m k b n attrs kind).isSome ↔
      (offered m.storage k b off size attrs).isSome := by
  obtain ⟨sig, stamp, payload, hp, hoff, _, _⟩ := h.passes
  unfold verifyTimeBasedPayloadAndUpdate
  dsimp only
  rw [h.eq, Option.bind_eq_bind, Option.bind_some]
  dsimp only
  rw [h.described.time_eq, Option.bind_eq_bind, Option.bind_some, authInternalUpdate_eq h.inside]
  cases hoffer : offered m.storage k b off size attrs with
  | none => exact Iff.rfl
  | some r =>
      refine iff_of_true ?_ rfl
      obtain ⟨d, b'⟩ := r
      obtain ⟨hagree, hsize⟩ := offered_agrees hoffer
      obtain ⟨digest, hdigest⟩ := Option.isSome_iff_exists.mp
        ((hp.toSignatureInside.of_agree (hoff ▸ hagree) hsize).digested (ssl .digest))
      obtain ⟨status, s', hstored⟩ : ∃ status s', (if (filteredAgainst m.storage k attrs).isSome ∧
          d = [] then (EfiStatus.success, m.storage, b')
          else
            ((storageSetWithTimestamp m.storage k (some d) attrs time).1,
              (storageSetWithTimestamp m.storage k (some d) attrs time).2, b')) =
            (status, s', b') := by
        split
        · exact ⟨_, _, rfl⟩
        · exact ⟨_, _, rfl⟩
      rw [Option.map_some, hstored, Option.bind_eq_bind, Option.bind_some]
      dsimp only
      split
      · split
        · rfl
        · rw [hdigest, Option.bind_eq_bind, Option.bind_some]
          cases digest with
          | error status => rfl
          | ok digest => rfl
      · rfl

/-- What passes the checks of a request. -/
theorem accepted_of_passes {ssl : OpenSsl P X} {s : Storage} {sig : Nat}
    {stamp payload : List UInt8} (hkind : formatKind k.name k.guid = some false)
    (hp : DescriptorPasses k b n attrs ((storageFindVariable s k).map (·.timestamp)) sig stamp
      payload)
    (hverified : verifyBy ssl s k b (OFFSET_OF_AUTHINFO2_CERT_DATA + sig)
      (signedMessage k attrs stamp payload) kind = some true)
    (hcover : ListsCover ssl b (OFFSET_OF_AUTHINFO2_CERT_DATA + sig) (payloadLength n sig)) :
    ∃ time, Accepted ssl s k b n attrs kind (OFFSET_OF_AUTHINFO2_CERT_DATA + sig)
      (payloadLength n sig) (signedMessage k attrs stamp payload) time := by
  have hchecked := checkDescriptor_ok_iff.mpr ⟨sig, stamp, payload, hp, rfl, rfl, rfl⟩
  obtain ⟨time, htime⟩ := checkDescriptor_ok hchecked
  exact ⟨time, hchecked, htime, hverified,
    (checkSignatureListFormat_success_iff hkind).mpr hcover⟩

/-- **An attempt comes back exactly if what it reads is there.** -/
theorem attempt_isSome_iff (hb : b.size < 2 ^ 63)
    (hk : ∀ old, filteredAgainst m.storage k attrs = some old →
      formatKind k.name k.guid = some false) :
    (verifyTimeBasedPayloadAndUpdate ssl m k b n attrs kind).isSome ↔
      AttemptInside (ssl .verify) m.storage k b n attrs kind
        ((storageFindVariable m.storage k).map (·.timestamp))
        (filteredAgainst m.storage k attrs) := by
  unfold AttemptInside
  rw [← verifyTimeBasedPayload_isSome_iff]
  cases hv : verifyTimeBasedPayload (ssl .verify) m.storage k b n attrs kind
    ((storageFindVariable m.storage k).map (·.timestamp)) with
  | none =>
      refine iff_of_false ?_ (fun h => nomatch h.1)
      unfold verifyTimeBasedPayloadAndUpdate
      dsimp only
      rw [hv]
      nofun
  | some r =>
      rw [and_iff_right (show (some r).isSome from rfl)]
      -- an accepted payload is the only one that is filtered
      rcases verifyTimeBasedPayload_cases hv with
        ⟨calls, status, rfl, hstatus⟩ | ⟨off, size, msg, time, rfl, h⟩
      · refine iff_of_true ?_ ?_
        · unfold verifyTimeBasedPayloadAndUpdate
          dsimp only
          rw [hv]
          rfl
        · intro sig stamp payload old hp hverified hcover hold
          obtain ⟨time, h⟩ := accepted_of_passes (hk old hold) hp hverified hcover
          cases h.eq.symm.trans hv
      · have hcover : ∀ old, filteredAgainst m.storage k attrs = some old →
            ListsCover (ssl .verify) b off size :=
          fun old hold => (checkSignatureListFormat_success_iff (hk old hold)).mp h.format
        rw [h.isSome_iff, offered_isSome_iff hb h.inside hcover]
        constructor
        · intro hall sig stamp payload old hp hverified hcover' hold
          obtain ⟨time', h'⟩ := accepted_of_passes (hk old hold) hp hverified hcover'
          obtain ⟨rfl, rfl, _⟩ : off = _ ∧ size = _ ∧ msg = _ := by
            simpa using h.checked.symm.trans h'.checked
          exact hall old hold
        · intro hall old hold
          obtain ⟨sig, stamp, payload, hp, rfl, rfl, rfl⟩ := h.passes
          exact hall sig stamp payload old hp h.verified (hcover old hold) hold

end

/-! ## A failed update -/

section
variable {s s' : Storage} {l : List UInt8} {g : Guid} {b b' : Buffer} {off size : Nat}
  {attrs : Attrs} {time : EfiTime} {status : EfiStatus}

/-- A payload that is filtered is always taken: the variable is there. -/
theorem filtered_success (hl : l.length ≤ MAX_VARIABLE_NAME_SIZE) {old d : List UInt8}
    (hold : filteredAgainst s (Key.of l g) attrs = some old) (hd : d ≠ []) (time : EfiTime) :
    ∃ i, s.findSlot (Key.of l g) = some i ∧ (s.vars i).data = old ∧
      storageSetWithTimestamp s (Key.of l g) (some d) attrs time = (.success, s.setSlot i
        { s.vars i with data := appendedData s i (Key.of l g) d attrs, timestamp := time }) := by
  have hclean := secureBootKeys_clean _
    (sigListKeys_secureBoot _ (mem_sigListKeys_of_filtered hl hold))
  obtain ⟨happ, v, hv, _, rfl⟩ := filteredAgainst_eq_some_iff.mp hold
  obtain ⟨i, hi, rfl⟩ := Option.map_eq_some_iff.mp hv
  exact ⟨i, hi, rfl, storageSetWithTimestamp_append hclean hi happ hd⟩

/-- Where the update fails, the payload was not filtered and the variable is not kept; and it
is not one that would be filtered the next time. -/
theorem update_failed (h0 : l ≠ []) (hl : l.length ≤ MAX_VARIABLE_NAME_SIZE)
    (htb : attrs.timeBased = true) (hin : off + size ≤ b.size)
    (h : authInternalUpdateVariableWithTimestamp s (Key.of l g) b off size attrs time =
      some (status, s', b')) (hfail : status ≠ .success) :
    filteredAgainst s (Key.of l g) attrs = none ∧ filteredAgainst s' (Key.of l g) attrs = none ∧
      b' = b ∧ ∃ payload, b.slice off size = some payload ∧ ¬ s.Keeps (Key.of l g) payload attrs ∧
        s' = (storageSetWithTimestamp s (Key.of l g) (some payload) attrs time).2 := by
  have hresult := authInternalUpdate_cases h
  have hsz := Key.of_namesz_ne_zero h0 g
  rw [authInternalUpdate_eq hin] at h
  obtain ⟨⟨d, b₁⟩, hoffer, h⟩ := Option.map_eq_some_iff.mp h
  have hnone : filteredAgainst s (Key.of l g) attrs = none := by
    cases hold : filteredAgainst s (Key.of l g) attrs with
    | none => rfl
    | some old =>
        rw [hold] at h
        by_cases hd : d = []
        · rw [if_pos ⟨rfl, hd⟩] at h
          cases h
          exact absurd rfl hfail
        · obtain ⟨i, _, _, hset⟩ := filtered_success hl hold hd time
          rw [if_neg (fun hc => hd hc.2)] at h
          dsimp only at h
          rw [hset] at h
          cases h
          exact absurd rfl hfail
  refine ⟨hnone, ?_, ?_⟩
  · cases hold : filteredAgainst s' (Key.of l g) attrs with
    | none => rfl
    | some old =>
        have hmem := mem_sigListKeys_of_filtered hl hold
        have hclean := secureBootKeys_clean _ (sigListKeys_secureBoot _ hmem)
        rcases hresult.wrote hclean htb with ⟨rfl, _⟩ | ⟨rfl, _⟩ | ⟨rfl, _⟩
        · rw [hnone] at hold
          cases hold
        · exact absurd rfl hfail
        · exact absurd rfl hfail
  · unfold offered at hoffer
    rw [hnone] at hoffer h
    obtain ⟨payload, hp, hoffer⟩ := Option.map_eq_some_iff.mp hoffer
    obtain ⟨rfl, rfl⟩ := Prod.mk.inj hoffer
    rw [if_neg (fun hc => nomatch hc.1)] at h
    cases h
    refine ⟨rfl, payload, hp, ?_, rfl⟩
    rwa [← storageSetWithTimestamp_success_iff hsz (Attrs.ne_zero_of_timeBased htb) time]

end

/-! ## Setup mode -/

/-- What the branch for setup mode reads is there: the length of the descriptor, the lists behind
it, and the stored lists an append is filtered against. -/
def SetupInside (ssl : OpenSsl P X) (s : Storage) (k : Key) (b : Buffer) (n : Nat) (attrs : Attrs) :
    Prop :=
  ∃ dw, dwLength b = some dw ∧ FormatInside ssl b (16 + dw) (sub64 n (16 + dw)) ∧
    (ListsCover ssl b (16 + dw) (sub64 n (16 + dw)) → ∀ old, filteredAgainst s k attrs = some old →
      FilterInside ssl (Buffer.ofList old) old.length b (16 + dw) (sub64 n (16 + dw)))

section
variable {ssl : OpenSsl P X} {m : Machine} {k : Key} {b : Buffer} {n : Nat} {attrs : Attrs}

/-- Lists that cover the payload lie inside the object. -/
theorem covered_inside {dw : Nat} (hdw : dwLength b = some dw) (hn : n ≤ b.size)
    (hb : b.size < 2 ^ 63) (h : ListsCover ssl b (16 + dw) (sub64 n (16 + dw))) :
    16 + dw + sub64 n (16 + dw) ≤ b.size := by
  have hlt : dw < 2 ^ 32 := Buffer.num_lt hdw
  rcases h.inside hn hb (by omega) with hzero | hend
  · by_cases hle : 16 + dw ≤ n
    · rw [sub64_of_le hle (by omega)] at hzero ⊢
      omega
    · rw [sub64_of_lt (Nat.not_le.mp hle) (by omega)] at hzero
      omega
  · omega

theorem updateInSetupMode_isSome_iff (hkind : formatKind k.name k.guid = some false)
    (hn : n ≤ b.size) (hb : b.size < 2 ^ 63) :
    (updateInSetupMode ssl m k b n attrs).isSome ↔ SetupInside ssl m.storage k b n attrs := by
  have hsuccess : ∀ off size,
      checkSignatureListFormat ssl k.name k.guid b off size = some .success ↔
      ListsCover ssl b off size := fun _ _ => checkSignatureListFormat_success_iff hkind
  have hformat : ∀ off size, (checkSignatureListFormat ssl k.name k.guid b off size).isSome ↔
      FormatInside ssl b off size := by
    intro off size
    rw [checkSignatureListFormat_isSome_iff, hkind, forall_prop_of_true (Option.some_ne_none false)]
  unfold updateInSetupMode authInfo2Size
  constructor
  · intro h
    obtain ⟨o, h⟩ := Option.isSome_iff_exists.mp h
    obtain ⟨off, hoff, h⟩ := Option.bind_eq_some_iff.mp h
    obtain ⟨dw, hdw, rfl⟩ := Option.map_eq_some_iff.mp hoff
    obtain ⟨status, hcheck, h⟩ := Option.bind_eq_some_iff.mp h
    refine ⟨dw, hdw, (hformat _ _).mp (Option.isSome_of_eq_some hcheck), ?_⟩
    intro hcover
    have hin := covered_inside hdw hn hb hcover
    rw [Option.some.inj (hcheck.symm.trans ((hsuccess _ _).mpr hcover)),
      if_neg (not_not.mpr rfl)] at h
    obtain ⟨time, _, h⟩ := Option.bind_eq_some_iff.mp h
    obtain ⟨r, hup, _⟩ := Option.bind_eq_some_iff.mp h
    rw [authInternalUpdate_eq hin] at hup
    obtain ⟨r', hoffer, _⟩ := Option.map_eq_some_iff.mp hup
    exact (offered_isSome_iff hb hin (fun _ _ => hcover)).mp (Option.isSome_of_eq_some hoffer)
  · rintro ⟨dw, hdw, hin, hfilter⟩
    have h20 : 20 ≤ b.size := Buffer.num_le hdw
    obtain ⟨stamp, hstamp⟩ := Buffer.slice_isSome (show 0 + 16 ≤ b.size by omega)
    obtain ⟨status, hcheck⟩ := Option.isSome_iff_exists.mp ((hformat _ _).mpr hin)
    rw [hdw, Option.map_some, Option.bind_eq_bind, Option.bind_some]
    dsimp only
    rw [hcheck, Option.bind_eq_bind, Option.bind_some]
    split
    · rfl
    rename_i hs
    rw [not_not.mp hs] at hcheck
    have hcover := (hsuccess _ _).mp hcheck
    have hin := covered_inside hdw hn hb hcover
    obtain ⟨r, hoffer⟩ := Option.isSome_iff_exists.mp
      ((offered_isSome_iff hb hin (fun _ _ => hcover)).mpr (hfilter hcover))
    rw [authTimeStamp, hstamp, Option.map_some, Option.bind_eq_bind, Option.bind_some,
      authInternalUpdate_eq hin, hoffer, Option.map_some, Option.bind_eq_bind, Option.bind_some]
    rfl

/-- Where it has failed it returns again: nothing has changed that it reads. -/
theorem updateInSetupMode_again {l : List UInt8} {g : Guid} {o : Outcome} (h0 : l ≠ [])
    (hl : l.length ≤ MAX_VARIABLE_NAME_SIZE) (htb : attrs.timeBased = true)
    (hkind : formatKind (Key.of l g).name g = some false) (hn : n ≤ b.size) (hb : b.size < 2 ^ 63)
    (h : updateInSetupMode ssl m (Key.of l g) b n attrs = some o) (hfail : o.status ≠ .success) :
    (updateInSetupMode ssl o.machine (Key.of l g) o.data n attrs).isSome := by
  have hinside := (updateInSetupMode_isSome_iff hkind hn hb).mp (Option.isSome_of_eq_some h)
  unfold updateInSetupMode authInfo2Size at h
  obtain ⟨off, hoff, h⟩ := Option.bind_eq_some_iff.mp h
  obtain ⟨dw, hdw, rfl⟩ := Option.map_eq_some_iff.mp hoff
  obtain ⟨status, hcheck, h⟩ := Option.bind_eq_some_iff.mp h
  split at h
  · cases h
    exact (updateInSetupMode_isSome_iff hkind hn hb).mpr hinside
  rename_i hs
  rw [not_not.mp hs] at hcheck
  have hcover := (checkSignatureListFormat_success_iff hkind).mp hcheck
  obtain ⟨time, _, h⟩ := Option.bind_eq_some_iff.mp h
  obtain ⟨⟨status', s', b'⟩, hup, h⟩ := Option.bind_eq_some_iff.mp h
  cases h
  obtain ⟨_, hnext, rfl, _⟩ := update_failed h0 hl htb (covered_inside hdw hn hb hcover) hup hfail
  refine (updateInSetupMode_isSome_iff hkind hn hb).mpr ?_
  obtain ⟨dw', hdw', hformat, _⟩ := hinside
  refine ⟨dw', hdw', hformat, fun _ old hold => ?_⟩
  cases hnext.symm.trans hold

end

end

end Uefistored
