/-
# `Uefistored.Inside` — the reads of an authenticated write

`none` is an access outside an object, a division by zero or a loop without an
end.  For the functions of `auth.c` that read what a guest wrote, this module
says for which bytes they have a result:

    the signature in its descriptor     (`wrapWithContentInfo_isSome_iff`)
    the checks of the descriptor        (`checkDescriptor_isSome_iff`)
    the lists of a payload              (`checkSignatureListFormat_isSome_iff`)

No length is compared with the object before it is used, so each condition is
one on the lengths themselves.
-/
import Uefistored.SigWalk
import Uefistored.Update

namespace Uefistored

open Lib SigList

/-! ## The fields of a list -/

section
variable {b : Buffer} {pos : Nat}

theorem signatureListSize_eq_none_iff : signatureListSize b pos = none ↔ b.size < pos + 20 :=
  Buffer.num_eq_none_iff

theorem headerSize_eq_none_iff : headerSize b pos = none ↔ b.size < pos + 24 :=
  Buffer.num_eq_none_iff

theorem signatureSize_eq_none_iff : signatureSize b pos = none ↔ b.size < pos + ESL_SIZE :=
  Buffer.num_eq_none_iff

theorem signatureListSize_le {lsz : Nat} (h : signatureListSize b pos = some lsz) :
    pos + 20 ≤ b.size := show pos + 16 + 4 ≤ b.size from Buffer.num_le h

theorem headerSize_le {hsz : Nat} (h : headerSize b pos = some hsz) : pos + 24 ≤ b.size :=
  show pos + 20 + 4 ≤ b.size from Buffer.num_le h

theorem signatureSize_le {ssz : Nat} (h : signatureSize b pos = some ssz) :
    pos + ESL_SIZE ≤ b.size := show pos + 24 + 4 ≤ b.size from Buffer.num_le h

theorem headerSize_isSome (h : pos + 24 ≤ b.size) : ∃ hsz, headerSize b pos = some hsz :=
  Buffer.num_isSome h

/-- In front of a size that can be read stands a type. -/
theorem signatureType_isSome (h : pos + 16 ≤ b.size) : ∃ ty, signatureType b pos = some ty := by
  obtain ⟨l, hl⟩ := Buffer.slice_isSome h
  exact ⟨_, congrArg (Option.map (Block.ofList 16)) hl⟩

end

/-! ## The signature -/

/-- `is_content_info` looks at one byte more than it has asked for: it is missing if the
signature is sixteen bytes that begin as a ContentInfo and nothing follows them. -/
def MissingByte (b : Buffer) (off n : Nat) : Prop :=
  n = 16 ∧ b.size = off + 16 ∧ ∃ l, b.slice off 16 = some l ∧ contentInfoHead l = true

theorem isContentInfo_isSome_iff {b : Buffer} {off n : Nat} (h : off + n ≤ b.size) :
    (isContentInfo b off n).isSome ↔ ¬ MissingByte b off n := by
  unfold isContentInfo MissingByte
  split
  · refine iff_of_true rfl ?_
    rintro ⟨rfl, _⟩
    omega
  · rename_i h16
    obtain ⟨l, hl⟩ := Buffer.slice_isSome (show off + 16 ≤ b.size by omega)
    rw [hl, Option.bind_eq_bind, Option.bind_some]
    cases hhead : contentInfoHead l with
    | false =>
        refine iff_of_true rfl ?_
        rintro ⟨_, _, l', hl', hhead'⟩
        obtain rfl := Option.some.inj hl'
        rw [hhead] at hhead'
        cases hhead'
    | true =>
        rw [if_neg (show ¬ (!true) = true by decide), Option.isSome_bind]
        cases hnext : b.slice (off + 16) 1 with
        | none =>
            have hpast := Buffer.slice_eq_none_iff.mp hnext
            refine iff_of_false (by simp) ?_
            exact not_not.mpr ⟨by omega, by omega, l, rfl, hhead⟩
        | some next =>
            have hin := Buffer.slice_le hnext
            refine iff_of_true rfl ?_
            rintro ⟨_, hsize, _⟩
            omega

theorem wrapWithContentInfo_isSome_iff {b : Buffer} {off n : Nat} :
    (wrapWithContentInfo b off n).isSome ↔ off + n ≤ b.size ∧ ¬ MissingByte b off n := by
  unfold wrapWithContentInfo
  constructor
  · intro h
    obtain ⟨wrapped, h⟩ := Option.isSome_iff_exists.mp h
    obtain ⟨info, hinfo, h⟩ := Option.bind_eq_some_iff.mp h
    obtain ⟨sig, hsig, _⟩ := Option.bind_eq_some_iff.mp h
    have hin := Buffer.slice_le hsig
    exact ⟨hin, (isContentInfo_isSome_iff hin).mp (Option.isSome_of_eq_some hinfo)⟩
  · rintro ⟨hin, hmiss⟩
    obtain ⟨info, hinfo⟩ := Option.isSome_iff_exists.mp ((isContentInfo_isSome_iff hin).mpr hmiss)
    obtain ⟨sig, hsig⟩ := Buffer.slice_isSome hin
    rw [hinfo, hsig]
    rfl

/-- The signature, of `sig` bytes, lies inside the object. -/
structure SignatureInside (b : Buffer) (sig : Nat) : Prop where
  size_eq : sigDataSize b = some sig
  inside : OFFSET_OF_AUTHINFO2_CERT_DATA + sig ≤ b.size
  complete : ¬ MissingByte b OFFSET_OF_AUTHINFO2_CERT_DATA sig

namespace SignatureInside

variable {b : Buffer} {sig : Nat}

theorem wrapped (h : SignatureInside b sig) :
    ∃ wrapped, wrapWithContentInfo b OFFSET_OF_AUTHINFO2_CERT_DATA sig = some wrapped :=
  Option.isSome_iff_exists.mp (wrapWithContentInfo_isSome_iff.mpr ⟨h.inside, h.complete⟩)

theorem stamped (h : SignatureInside b sig) : ∃ stamp, b.slice 0 16 = some stamp := by
  have hin : 40 + sig ≤ b.size := h.inside
  exact Buffer.slice_isSome (by omega)

theorem parsed {P X : Type} (h : SignatureInside b sig) (ssl : OpenSsl P X) :
    ∃ r, pkcs7FromAuth ssl b = some r := by
  obtain ⟨wrapped, hwrapped⟩ := h.wrapped
  unfold pkcs7FromAuth
  rw [h.size_eq, Option.bind_eq_bind, Option.bind_some]
  split
  · exact ⟨_, rfl⟩
  · rw [hwrapped]
    exact ⟨_, rfl⟩

end SignatureInside

/-! ## The checks of the descriptor -/

/-- Refused by one of the checks in front of the sizes: the time stamp, or the kind of
certificate. -/
def FrontRefused (b : Buffer) (attrs : Attrs) (org : Option EfiTime) : Prop :=
  ∃ stamp, b.slice 0 16 = some stamp ∧
    ((EfiTime.ofBytes stamp).wellFormed = false ∨
      (org.any ((EfiTime.ofBytes stamp).compareTimestamp ·) && !attrs.append) = true ∨
      authInfoOk b = some false)

/-- The size of the payload behind a signature of `sig` bytes, a `uint64_t`. -/
def payloadLength (n sig : Nat) : Nat := sub64 (sub64 n OFFSET_OF_AUTHINFO2_CERT_DATA) sig

/-- The signature does not name SHA-256, where it is asked to. -/
def OtherDigest (b : Buffer) (attrs : Attrs) (sig : Nat) : Prop :=
  attrs.timeBased = true ∧ ∃ wrapped,
    wrapWithContentInfo b OFFSET_OF_AUTHINFO2_CERT_DATA sig = some wrapped ∧
      sha256Used wrapped = false

/-- The message that is signed has a size for which `malloc` fails. -/
def MessageTooLong (k : Key) (size : Nat) : Prop :=
  2 ^ 63 ≤ (size + 16 + 4 + 16 + strsize16 k.name.bytes) % 2 ^ 64

/-- The checks pass: a certificate of the right kind, a signature of `sig` bytes, and behind it
the payload. -/
structure DescriptorPasses (k : Key) (b : Buffer) (n : Nat) (attrs : Attrs) (org : Option EfiTime)
    (sig : Nat) (stamp payload : List UInt8) : Prop extends SignatureInside b sig where
  front : ¬ FrontRefused b attrs org
  certificate : authInfoOk b = some true
  digest : ¬ OtherDigest b attrs sig
  message : ¬ MessageTooLong k (payloadLength n sig)
  stamp_eq : b.slice 0 16 = some stamp
  payload_eq : b.slice (OFFSET_OF_AUTHINFO2_CERT_DATA + sig) (payloadLength n sig) = some payload

/-- The checks read inside the object: the front refuses; or the signature is inside, and the
payload as well or it is not copied. -/
def DescriptorInside (k : Key) (b : Buffer) (n : Nat) (attrs : Attrs) (org : Option EfiTime) :
    Prop :=
  FrontRefused b attrs org ∨ authInfoOk b = some true ∧ ∃ sig, SignatureInside b sig ∧
    (OtherDigest b attrs sig ∨ MessageTooLong k (payloadLength n sig) ∨
      OFFSET_OF_AUTHINFO2_CERT_DATA + sig + payloadLength n sig ≤ b.size)

section
variable {k : Key} {b : Buffer} {n : Nat} {attrs : Attrs} {org : Option EfiTime}

theorem FrontRefused.checkDescriptor_eq (h : FrontRefused b attrs org) (k : Key) (n : Nat) :
    checkDescriptor k b n attrs org = some (.error .securityViolation) := by
  obtain ⟨stamp, hstamp, hcase⟩ := h
  unfold checkDescriptor
  rw [hstamp]
  simp only [Option.bind_eq_bind, Option.bind_some]
  by_cases hform : (EfiTime.ofBytes stamp).wellFormed = true
  · rw [if_neg (by rw [hform]; decide)]
    by_cases hstale : (org.any ((EfiTime.ofBytes stamp).compareTimestamp ·) && !attrs.append) = true
    · rw [if_pos hstale]
      rfl
    · rw [if_neg hstale]
      rcases hcase with hbad | hbad | hbad
      · rw [hform] at hbad
        cases hbad
      · exact absurd hbad hstale
      · rw [hbad]
        rfl
  · rw [if_pos (by simpa using hform)]
    rfl

/-- Behind the front the checks are those of the signature and of the message. -/
theorem checkDescriptor_behind {stamp : List UInt8} (hfront : ¬ FrontRefused b attrs org)
    (hstamp : b.slice 0 16 = some stamp) (hcert : authInfoOk b = some true) :
    checkDescriptor k b n attrs org = (do
      let sig ← sigDataSize b
      let wrapped ← wrapWithContentInfo b OFFSET_OF_AUTHINFO2_CERT_DATA sig
      if attrs.timeBased && !sha256Used wrapped then return .error .securityViolation
      if (payloadLength n sig + 16 + 4 + 16 + strsize16 k.name.bytes) % 2 ^ 64 ≥ 2 ^ 63 then
        return .error .outOfResources
      let payload ← b.slice (OFFSET_OF_AUTHINFO2_CERT_DATA + sig) (payloadLength n sig)
      return .ok (OFFSET_OF_AUTHINFO2_CERT_DATA + sig, payloadLength n sig,
        signedMessage k attrs stamp payload)) := by
  have hform : (EfiTime.ofBytes stamp).wellFormed = true := by
    by_contra hbad
    exact hfront ⟨stamp, hstamp, .inl (Bool.of_not_eq_true hbad)⟩
  unfold checkDescriptor
  rw [hstamp, hcert]
  simp only [Option.bind_eq_bind, Option.bind_some, hform, Bool.not_true, Bool.false_eq_true,
    if_false]
  rw [if_neg (fun hstale => hfront ⟨stamp, hstamp, .inr (.inl hstale)⟩)]
  rfl

/-- The front refuses, has no result, or lets pass to the signature. -/
theorem checkDescriptor_front {r : Except EfiStatus (Nat × Nat × List UInt8)}
    (h : checkDescriptor k b n attrs org = some r) : FrontRefused b attrs org ∨
      ¬ FrontRefused b attrs org ∧ authInfoOk b = some true ∧
        ∃ stamp, b.slice 0 16 = some stamp := by
  by_cases hfront : FrontRefused b attrs org
  · exact .inl hfront
  refine .inr ⟨hfront, ?_⟩
  unfold checkDescriptor at h
  obtain ⟨stamp, hstamp, h⟩ := Option.bind_eq_some_iff.mp h
  dsimp only at h
  split at h
  · rename_i hform
    exact absurd ⟨stamp, hstamp, .inl (by simpa using hform)⟩ hfront
  split at h
  · rename_i hstale
    exact absurd ⟨stamp, hstamp, .inr (.inl hstale)⟩ hfront
  obtain ⟨ok, hok, _⟩ := Option.bind_eq_some_iff.mp h
  cases ok with
  | false => exact absurd ⟨stamp, hstamp, .inr (.inr hok)⟩ hfront
  | true => exact ⟨hok, stamp, hstamp⟩

theorem checkDescriptor_ok_iff {off size : Nat} {msg : List UInt8} :
    checkDescriptor k b n attrs org = some (.ok (off, size, msg)) ↔ ∃ sig stamp payload,
      DescriptorPasses k b n attrs org sig stamp payload ∧
        off = OFFSET_OF_AUTHINFO2_CERT_DATA + sig ∧ size = payloadLength n sig ∧
        msg = signedMessage k attrs stamp payload := by
  constructor
  · intro h
    rcases checkDescriptor_front h with hfront | ⟨hfront, hcert, stamp, hstamp⟩
    · rw [hfront.checkDescriptor_eq] at h
      cases h
    rw [checkDescriptor_behind hfront hstamp hcert] at h
    obtain ⟨sig, hsig, h⟩ := Option.bind_eq_some_iff.mp h
    obtain ⟨wrapped, hwrap, h⟩ := Option.bind_eq_some_iff.mp h
    obtain ⟨hin, hmiss⟩ := wrapWithContentInfo_isSome_iff.mp (Option.isSome_of_eq_some hwrap)
    split at h
    · cases h
    rename_i hsha
    split at h
    · cases h
    rename_i hlong
    obtain ⟨payload, hpayload, h⟩ := Option.bind_eq_some_iff.mp h
    cases h
    refine ⟨sig, stamp, payload, ⟨⟨hsig, hin, hmiss⟩, hfront, hcert, ?_, hlong, hstamp, hpayload⟩,
      rfl, rfl, rfl⟩
    rintro ⟨htb, wrapped', hwrap', hother⟩
    obtain rfl := Option.some.inj (hwrap.symm.trans hwrap')
    exact hsha (by rw [htb, hother]; rfl)
  · rintro ⟨sig, stamp, payload, h, rfl, rfl, rfl⟩
    obtain ⟨wrapped, hwrap⟩ := h.wrapped
    rw [checkDescriptor_behind h.front h.stamp_eq h.certificate, h.size_eq]
    simp only [Option.bind_eq_bind, Option.bind_some, hwrap, h.payload_eq]
    have hsha : ¬ (attrs.timeBased && !sha256Used wrapped) = true := by
      intro hsha
      rw [Bool.and_eq_true, Bool.not_eq_true'] at hsha
      exact h.digest ⟨hsha.1, wrapped, hwrap, hsha.2⟩
    exact (if_neg hsha).trans (if_neg h.message)

theorem checkDescriptor_isSome_iff :
    (checkDescriptor k b n attrs org).isSome ↔ DescriptorInside k b n attrs org := by
  constructor
  · intro h
    obtain ⟨r, h⟩ := Option.isSome_iff_exists.mp h
    rcases checkDescriptor_front h with hfront | ⟨hfront, hcert, stamp, hstamp⟩
    · exact .inl hfront
    rw [checkDescriptor_behind hfront hstamp hcert] at h
    obtain ⟨sig, hsig, h⟩ := Option.bind_eq_some_iff.mp h
    obtain ⟨wrapped, hwrap, h⟩ := Option.bind_eq_some_iff.mp h
    obtain ⟨hin, hmiss⟩ := wrapWithContentInfo_isSome_iff.mp (Option.isSome_of_eq_some hwrap)
    refine .inr ⟨hcert, sig, ⟨hsig, hin, hmiss⟩, ?_⟩
    split at h
    · rename_i hother
      rw [Bool.and_eq_true, Bool.not_eq_true'] at hother
      exact .inl ⟨hother.1, wrapped, hwrap, hother.2⟩
    split at h
    · rename_i hlong
      exact .inr (.inl hlong)
    · obtain ⟨payload, hpayload, _⟩ := Option.bind_eq_some_iff.mp h
      exact .inr (.inr (Buffer.slice_le hpayload))
  · rintro (hfront | ⟨hcert, sig, hsig, hcase⟩)
    · rw [hfront.checkDescriptor_eq]
      rfl
    by_cases hfront : FrontRefused b attrs org
    · rw [hfront.checkDescriptor_eq]
      rfl
    obtain ⟨stamp, hstamp⟩ := hsig.stamped
    obtain ⟨wrapped, hwrap⟩ := hsig.wrapped
    rw [checkDescriptor_behind hfront hstamp hcert, hsig.size_eq]
    simp only [Option.bind_eq_bind, Option.bind_some, hwrap]
    split
    · rfl
    rename_i hsha
    split
    · rfl
    rename_i hlong
    rcases hcase with ⟨htb, wrapped', hwrap', hother⟩ | hlong' | hpayload
    · obtain rfl := Option.some.inj (hwrap.symm.trans hwrap')
      exact absurd (by rw [htb, hother]; rfl) hsha
    · exact absurd hlong' hlong
    · obtain ⟨payload, hp⟩ := Buffer.slice_isSome hpayload
      rw [hp]
      rfl

end

/-! ## The lists of a payload -/

section
variable {P X : Type}

/-- A list of which `check_signature_list_format` reads what is not there: its size; the rest of
its header, which is not read if the type is unknown or an X.509 list has a header size; or the
certificate in its first entry. -/
inductive OutsideAt (ssl : OpenSsl P X) (b : Buffer) (pos left : Nat) : Prop
  | listSize : b.size < pos + 20 → OutsideAt ssl b pos left
  | header {ty : Guid} {lsz : Nat} : signatureListSize b pos = some lsz → lsz ≤ left →
      signatureType b pos = some ty → (∃ item ∈ supportedSigs, item.sigType = ty) →
      b.size < pos + ESL_SIZE →
      ¬ (ty = gEfiCertX509Guid ∧ ∃ hsz, headerSize b pos = some hsz ∧ hsz ≠ 0) →
      OutsideAt ssl b pos left
  | cert {lsz ssz : Nat} : HeaderAt b pos gEfiCertX509Guid lsz ssz → lsz ≤ left →
      sub64 ssz GUID_SIZE ≤ INT_MAX →
      readsOutside ssl b (pos + ESL_SIZE + GUID_SIZE) (sub64 ssz GUID_SIZE) = true →
      OutsideAt ssl b pos left

/-- The walk over the lists at `off` reads inside the object, and ends. -/
def FormatInside (ssl : OpenSsl P X) (b : Buffer) (off size : Nat) : Prop :=
  ∀ lszs s, Run (WalkStep ssl b) ⟨off, size⟩ lszs s → s.left ≠ 0 →
    ¬ OutsideAt ssl b s.pos s.left ∧ ¬ StuckAt ssl b s.pos

section
variable {ssl : OpenSsl P X} {b : Buffer} {pos left : Nat} {ty : Guid}

theorem supportedSig_eq_none_iff : supportedSig b pos ty = none ↔
    (∃ item ∈ supportedSigs, item.sigType = ty) ∧
      (ty = gEfiCertX509Guid ∧ b.size < pos + 24 ∨
        ty ≠ gEfiCertX509Guid ∧ b.size < pos + ESL_SIZE) := by
  unfold supportedSig
  split
  · rename_i hnone
    refine iff_of_false nofun ?_
    rintro ⟨⟨item, hitem, rfl⟩, _⟩
    exact List.find?_eq_none.mp hnone item hitem (beq_self_eq_true _)
  rename_i item hfind
  have hitem := List.mem_of_find?_eq_some hfind
  have hbeq := List.find?_some hfind
  obtain rfl : item.sigType = ty := eq_of_beq hbeq
  have h0 := supportedSigs_headerSize item hitem
  have hne : ¬ item.sigHeaderSize = ANY_SIZE := by rw [h0]; decide
  have hread : ∀ x, ((headerSize b pos).bind fun hsz => some (hsz == x)) = none ↔
      b.size < pos + 24 := by
    intro x
    rw [← headerSize_eq_none_iff]
    cases headerSize b pos with
    | none => exact iff_of_true rfl rfl
    | some hsz => exact iff_of_false nofun nofun
  have hsupported : ∃ item' ∈ supportedSigs, item'.sigType = item.sigType := ⟨item, hitem, rfl⟩
  unfold sigItemOk
  by_cases hany : item.sigDataSize = ANY_SIZE
  · have hx := x509_of_any item hitem hany
    rw [if_pos hany]
    simp only [Option.bind_eq_bind, Option.bind_some, Option.pure_def, hany, ne_eq,
      not_true_eq_false, decide_false, Bool.false_and, Bool.false_eq_true, if_false, if_neg hne,
      hread]
    rw [and_iff_right hsupported, hx]
    simp
  · have hx : item.sigType ≠ gEfiCertX509Guid := fun hx => hany (any_of_x509 item hitem hx)
    rw [if_neg hany, and_iff_right hsupported]
    cases hssz : signatureSize b pos with
    | none =>
        exact iff_of_true rfl (.inr ⟨hx, signatureSize_eq_none_iff.mp hssz⟩)
    | some ssz =>
        have h28 : pos + 28 ≤ b.size := signatureSize_le hssz
        refine iff_of_false ?_ ?_
        · simp only [Option.bind_eq_bind, Option.bind_some, Option.pure_def]
          split
          · nofun
          rw [hread]
          omega
        · rintro (⟨h, _⟩ | ⟨_, hlt⟩)
          · exact hx h
          · have hlt : b.size < pos + 28 := hlt
            omega

theorem certChecked_eq_none_iff {hsz ssz : Nat} : certChecked ssl b pos ty hsz ssz = none ↔
    ty = gEfiCertX509Guid ∧ sub64 ssz GUID_SIZE ≤ INT_MAX ∧
      readsOutside ssl b (pos + ESL_SIZE + hsz + GUID_SIZE) (sub64 ssz GUID_SIZE) = true := by
  unfold certChecked rsaGetPubKeyFromX509
  by_cases hty : ty = gEfiCertX509Guid
  · rw [if_pos (beq_iff_eq.mpr hty), and_iff_right hty]
    by_cases hmax : INT_MAX < sub64 ssz GUID_SIZE
    · rw [if_pos hmax]
      exact iff_of_false nofun (fun h => absurd h.1 (Nat.not_le.mpr hmax))
    · rw [if_neg hmax, and_iff_right (Nat.not_lt.mp hmax), Option.map_eq_none_iff,
        d2iX509At_eq_none_iff]
  · rw [if_neg (by simpa using hty)]
    exact iff_of_false nofun (fun h => hty h.1)

theorem formatBody_outside_iff {lsz hsz ssz : Nat} :
    formatBody ssl b pos lsz ty hsz ssz = .outside ↔ certChecked ssl b pos ty hsz ssz = none := by
  unfold formatBody
  cases certChecked ssl b pos ty hsz ssz with
  | none => exact iff_of_true rfl rfl
  | some ok =>
      refine iff_of_false ?_ nofun
      cases ok with
      | false => nofun
      | true =>
          dsimp only
          split
          · nofun
          split
          · nofun
          · nofun

/-- What a fault says of a list whose size and type are there. -/
theorem OutsideAt.at_list {lsz : Nat} (h : OutsideAt ssl b pos left)
    (hlsz : signatureListSize b pos = some lsz) (hty : signatureType b pos = some ty) :
    lsz ≤ left ∧
      ((∃ item ∈ supportedSigs, item.sigType = ty) ∧ b.size < pos + ESL_SIZE ∧
          ¬ (ty = gEfiCertX509Guid ∧ ∃ hsz, headerSize b pos = some hsz ∧ hsz ≠ 0) ∨
        ty = gEfiCertX509Guid ∧ ∃ ssz, HeaderAt b pos gEfiCertX509Guid lsz ssz ∧
          sub64 ssz GUID_SIZE ≤ INT_MAX ∧
          readsOutside ssl b (pos + ESL_SIZE + GUID_SIZE) (sub64 ssz GUID_SIZE) = true) := by
  have h20 := signatureListSize_le hlsz
  cases h with
  | listSize hlt => omega
  | header hlsz' hle hty' hsup hlt hno =>
      cases hlsz.symm.trans hlsz'
      cases hty.symm.trans hty'
      exact ⟨hle, .inl ⟨hsup, hlt, hno⟩⟩
  | cert hh hle hmax hout =>
      cases hlsz.symm.trans hh.listSize_eq
      cases hty.symm.trans hh.type_eq
      exact ⟨hle, .inr ⟨rfl, _, hh, hmax, hout⟩⟩

/-- A header that is not there, and whose type is read for, is one of certificates, and its size
is zero. -/
theorem supportedSig_short {ok : Bool} (h : supportedSig b pos ty = some ok)
    (hitem : ∃ item ∈ supportedSigs, item.sigType = ty) (hlt : b.size < pos + ESL_SIZE)
    (hno : ¬ (ty = gEfiCertX509Guid ∧ ∃ hsz, headerSize b pos = some hsz ∧ hsz ≠ 0)) :
    ok = true ∧ signatureSize b pos = none := by
  have hread : ¬ (ty = gEfiCertX509Guid ∧ b.size < pos + 24 ∨
      ty ≠ gEfiCertX509Guid ∧ b.size < pos + ESL_SIZE) := by
    intro hcase
    cases h.symm.trans (supportedSig_eq_none_iff.mpr ⟨hitem, hcase⟩)
  have hx : ty = gEfiCertX509Guid := by
    by_contra hx
    exact hread (.inr ⟨hx, hlt⟩)
  have h24 : pos + 24 ≤ b.size := by
    by_contra h24
    exact hread (.inl ⟨hx, Nat.not_le.mp h24⟩)
  obtain ⟨hsz, hhsz⟩ := headerSize_isSome h24
  have hzero : hsz = 0 := by
    by_contra hne
    exact hno ⟨hx, hsz, hhsz, hne⟩
  rw [hx, supportedSig_x509 (hzero ▸ hhsz)] at h
  exact ⟨(Option.some.inj h).symm, signatureSize_eq_none_iff.mpr hlt⟩

theorem formatStep_outside_iff :
    formatStep ssl b pos left = .outside ↔ left ≠ 0 ∧ OutsideAt ssl b pos left := by
  unfold formatStep
  split
  · rename_i h0
    exact iff_of_false nofun (fun h => h.1 h0)
  rename_i h0
  rw [and_iff_right h0]
  cases hlsz : signatureListSize b pos with
  | none => exact iff_of_true rfl (.listSize (signatureListSize_eq_none_iff.mp hlsz))
  | some lsz =>
      have h20 := signatureListSize_le hlsz
      dsimp only
      obtain ⟨ty, hty⟩ := signatureType_isSome (show pos + 16 ≤ b.size by omega)
      by_cases hle : left < lsz
      · rw [if_pos hle]
        exact iff_of_false nofun (fun h => absurd (h.at_list hlsz hty).1 (Nat.not_le.mpr hle))
      rw [if_neg hle, hty]
      dsimp only
      have hle := Nat.not_lt.mp hle
      cases hsup : supportedSig b pos ty with
      | none =>
          obtain ⟨hitem, hcase⟩ := supportedSig_eq_none_iff.mp hsup
          refine iff_of_true rfl (.header hlsz hle hty hitem ?_ ?_)
          · show b.size < pos + 28
            rcases hcase with ⟨_, hlt⟩ | ⟨_, hlt⟩
            · omega
            · exact hlt
          · rintro ⟨hx, hsz, hhsz, _⟩
            have h24 := headerSize_le hhsz
            rcases hcase with ⟨_, hlt⟩ | ⟨hne, _⟩
            · omega
            · exact hne hx
      | some ok =>
          cases ok with
          | false =>
              refine iff_of_false nofun ?_
              intro h
              rcases (h.at_list hlsz hty).2 with ⟨hitem, hlt, hno⟩ | ⟨rfl, ssz, hh, _⟩
              · cases (supportedSig_short hsup hitem hlt hno).1
              · rw [supportedSig_x509 hh.headerSize_eq] at hsup
                cases hsup
          | true =>
              obtain ⟨hhsz, item, hitem, htype, _⟩ := supportedSig_spec hsup
              rw [hhsz]
              cases hssz : signatureSize b pos with
              | none =>
                  refine iff_of_true rfl (.header hlsz hle hty ⟨item, hitem, htype⟩ ?_ ?_)
                  · exact signatureSize_eq_none_iff.mp hssz
                  · rintro ⟨_, hsz, hhsz', hne⟩
                    exact hne (Option.some.inj (hhsz.symm.trans hhsz')).symm
              | some ssz =>
                  dsimp only
                  rw [formatBody_outside_iff, certChecked_eq_none_iff, Nat.add_zero]
                  constructor
                  · rintro ⟨rfl, hmax, hout⟩
                    exact .cert ⟨hty, hlsz, hhsz, hssz⟩ hle hmax hout
                  · intro h
                    rcases (h.at_list hlsz hty).2 with
                      ⟨hitem, hlt, hno⟩ | ⟨rfl, ssz', hh, hmax, hout⟩
                    · cases hssz.symm.trans (supportedSig_short hsup hitem hlt hno).2
                    · cases hssz.symm.trans hh.signatureSize_eq
                      exact ⟨rfl, hmax, hout⟩

/-- From a state that comes to an answer every step leads to one. -/
theorem formatWalk_isSome_of_run {s s' : WalkState} {lszs : List Nat}
    (h : Run (WalkStep ssl b) s lszs s') : ∀ (fuel count : Nat),
      (formatWalk ssl b fuel s.pos s.left count).isSome →
      ∃ fuel' count', (formatWalk ssl b (fuel' + 1) s'.pos s'.left count').isSome := by
  induction h with
  | nil s =>
      intro fuel count hsome
      cases fuel with
      | zero => cases hsome
      | succ fuel => exact ⟨fuel, count, hsome⟩
  | @cons s s₁ s' lsz lszs hstep _ ih =>
      intro fuel count hsome
      obtain ⟨⟨entries, hstep⟩, rfl⟩ := hstep
      cases fuel with
      | zero => cases hsome
      | succ fuel =>
          rw [formatWalk_eq, hstep] at hsome
          dsimp only at hsome
          split at hsome
          · cases hsome
          · exact ih fuel _ hsome

theorem formatWalk_isSome_iff {fuel off size c : Nat} (hfuel : size < fuel) :
    (formatWalk ssl b fuel off size c).isSome ↔ FormatInside ssl b off size := by
  constructor
  · intro hsome lszs s hrun hleft
    obtain ⟨fuel', count', hend⟩ := formatWalk_isSome_of_run hrun fuel c hsome
    rw [formatWalk_eq] at hend
    refine ⟨?_, ?_⟩
    · intro hout
      rw [formatStep_outside_iff.mpr ⟨hleft, hout⟩] at hend
      cases hend
    · intro hstuck
      obtain ⟨entries, hstep⟩ := formatStep_zero_iff.mpr ⟨hleft, hstuck⟩
      rw [hstep] at hend
      cases hend
  · intro hin
    refine formatWalk_isSome ?_ ?_ fuel c (.nil ⟨off, size⟩) hfuel
    · intro lszs s hrun hout
      obtain ⟨hleft, hout⟩ := formatStep_outside_iff.mp hout
      exact (hin lszs s hrun hleft).1 hout
    · intro lszs s hrun hleft
      exact (hin lszs s hrun hleft).2

/-- **The check of a payload returns exactly if its walk reads inside and ends.**  Names that
are not checked are not looked at. -/
theorem checkSignatureListFormat_isSome_iff {name : NameArray} {guid : Guid} {off size : Nat} :
    (checkSignatureListFormat ssl name guid b off size).isSome ↔
      (formatKind name guid ≠ none → FormatInside ssl b off size) := by
  unfold checkSignatureListFormat
  split
  · rename_i h0
    refine iff_of_true rfl ?_
    intro _
    rw [← formatWalk_isSome_iff (c := 0) (Nat.lt_succ_self size), h0]
    rfl
  cases hkind : formatKind name guid with
  | none => exact iff_of_true rfl (fun h => absurd rfl h)
  | some isPk =>
      rw [← formatWalk_isSome_iff (c := 0) (Nat.lt_succ_self size), forall_prop_of_true nofun]
      dsimp only
      cases hwalk : formatWalk ssl b (size + 1) off size 0 with
      | none => exact iff_of_false nofun nofun
      | some r =>
          refine iff_of_true ?_ rfl
          cases r with
          | error status => rfl
          | ok r =>
              show (if _ then some _ else if _ then some _ else some _ : Option EfiStatus).isSome
              split
              · rfl
              split
              · rfl
              · rfl

/-- The lists the walk steps over are together the payload. -/
def ListsCover (ssl : OpenSsl P X) (b : Buffer) (off size : Nat) : Prop :=
  ∃ lszs, Run (WalkStep ssl b) ⟨off, size⟩ lszs ⟨off + size, 0⟩

/-- A walk that gets to the end of the payload has stepped over all of it. -/
theorem formatWalk_run : ∀ (fuel pos left count : Nat) {n : Nat},
    formatWalk ssl b fuel pos left count = some (.ok (pos + left, n)) → ListsCover ssl b pos left
  | 0, _, _, _, _, h => by cases h
  | fuel + 1, pos, left, count, n, h => by
      rw [formatWalk_eq] at h
      cases hstep : formatStep ssl b pos left with
      | refused => rw [hstep] at h; cases h
      | outside => rw [hstep] at h; cases h
      | dividesByZero => rw [hstep] at h; cases h
      | done =>
          rw [hstep] at h
          obtain ⟨hstop, _⟩ := Prod.mk.inj (Except.ok.inj (Option.some.inj h))
          obtain rfl : left = 0 := by omega
          exact ⟨[], .nil _⟩
      | next lsz entries =>
          rw [hstep] at h
          dsimp only at h
          split at h
          · cases h
          have hle : lsz ≤ left := (formatStep_next hstep).2.1
          have hend : pos + left = pos + lsz + (left - lsz) := by omega
          rw [hend] at h
          obtain ⟨lszs, hrun⟩ := formatWalk_run fuel _ _ _ h
          rw [ListsCover, hend]
          exact ⟨lsz :: lszs, .cons ⟨⟨entries, hstep⟩, rfl⟩ hrun⟩

/-- And the other way round. -/
theorem formatWalk_of_run {s e : WalkState} {lszs : List Nat} (h : Run (WalkStep ssl b) s lszs e)
    (hend : e.left = 0) : ∀ (fuel count : Nat), s.left < fuel →
      ∃ n, formatWalk ssl b fuel s.pos s.left count = some (.ok (e.pos, n)) := by
  induction h with
  | nil s =>
      intro fuel count hfuel
      cases fuel with
      | zero => exact absurd hfuel (Nat.not_lt_zero _)
      | succ fuel =>
          rw [formatWalk, if_pos hend]
          exact ⟨count, rfl⟩
  | @cons s s₁ s' lsz lszs hstep hrun ih =>
      intro fuel count hfuel
      obtain ⟨⟨entries, hnext⟩, rfl⟩ := hstep
      cases fuel with
      | zero => exact absurd hfuel (Nat.not_lt_zero _)
      | succ fuel =>
          have hle : lsz ≤ s.left := (formatStep_next hnext).2.1
          have hlsz : lsz ≠ 0 := by
            -- at a list of size zero the rest of the run would begin where it began
            rintro rfl
            obtain ⟨n, hn⟩ := ih hend (s.left + 1) 0 (Nat.lt_succ_self _)
            have hstay : formatWalk ssl b (s.left + 1) s.pos s.left 0 = some (.ok (s'.pos, n)) := hn
            rw [formatWalk_eq, hnext] at hstay
            cases hstay
          have hless : s.left - lsz < fuel := by omega
          rw [formatWalk_eq, hnext]
          dsimp only
          rw [if_neg hlsz]
          exact ih hend fuel _ hless

theorem checkSignatureListFormat_success_iff {name : NameArray} {guid : Guid} {off size : Nat}
    (hkind : formatKind name guid = some false) :
    checkSignatureListFormat ssl name guid b off size = some .success ↔
      ListsCover ssl b off size := by
  unfold checkSignatureListFormat
  split
  · rename_i h0
    subst h0
    exact iff_of_true rfl ⟨[], .nil _⟩
  rename_i h0
  rw [hkind]
  dsimp only
  constructor
  · intro h
    obtain ⟨r, hwalk, h⟩ := Option.bind_eq_some_iff.mp h
    cases r with
    | error status =>
        obtain rfl := formatWalk_error _ _ _ _ hwalk
        cases h
    | ok r =>
        obtain ⟨stop, count⟩ := r
        dsimp only at h
        split at h
        · cases h
        rename_i hstop
        obtain rfl : stop = off + size := by omega
        exact formatWalk_run _ _ _ _ hwalk
  · rintro ⟨lszs, hrun⟩
    obtain ⟨n, hn⟩ := formatWalk_of_run hrun rfl (size + 1) 0 (Nat.lt_succ_self size)
    refine Option.bind_eq_some_iff.mpr ⟨_, hn, ?_⟩
    dsimp only
    rw [if_neg (not_not.mpr (Nat.add_sub_cancel_left off size))]
    rfl

/-- The last list has its header inside the object, and less than `2 ^ 32` bytes. -/
theorem run_end_lt {s e : WalkState} {lszs : List Nat} (h : Run (WalkStep ssl b) s lszs e)
    (hleft : s.left ≠ 0) (hend : e.left = 0) : e.pos < b.size + 2 ^ 32 := by
  induction h with
  | nil => exact absurd hend hleft
  | @cons s s₁ s' lsz lszs hstep hrun ih =>
      obtain ⟨⟨entries, hnext⟩, rfl⟩ := hstep
      obtain ⟨_, hle, ty, ssz, hv, _⟩ := formatStep_next hnext
      by_cases hrest : s.left - lsz = 0
      · cases hrun with
        | nil =>
            have hin := signatureListSize_le hv.listSize_eq
            have hlt : lsz < 2 ^ 32 := Buffer.num_lt hv.listSize_eq
            show s.pos + lsz < b.size + 2 ^ 32
            omega
        | cons hstep' _ =>
            obtain ⟨⟨_, hnext'⟩, _⟩ := hstep'
            exact absurd hrest (formatStep_next hnext').1
      · exact ih hrest hend

/-- A payload that is covered ends where the data end: its size has not wrapped. -/
theorem ListsCover.inside {off n : Nat} (h : ListsCover ssl b off (sub64 n off)) (hn : n ≤ b.size)
    (hb : b.size < 2 ^ 63) (hoff : off < 2 ^ 33) : sub64 n off = 0 ∨ off + sub64 n off = n := by
  by_cases h0 : sub64 n off = 0
  · exact .inl h0
  refine .inr ?_
  obtain ⟨lszs, hrun⟩ := h
  have hlt : off + sub64 n off < b.size + 2 ^ 32 := run_end_lt hrun h0 rfl
  by_cases hle : off ≤ n
  · rw [sub64_of_le hle (by omega)]
    omega
  · have hwrap := sub64_of_lt (Nat.not_le.mp hle) (show off < 2 ^ 64 by omega)
    omega

end

end

end Uefistored
