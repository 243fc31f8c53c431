/-
# `Uefistored.SigFormat` — what `check_signature_list_format` accepts

The check computes `SignatureListSize - sizeof(EFI_SIGNATURE_LIST)` without
looking whether the difference is negative.  A list that claims fewer than 28
bytes can therefore pass the test on the remainder, and the walk goes on inside
its header.  It does not get far:

* up to a size of 23 the next type begins in the middle of this header and runs
  over its size field and the zero header size; no supported type reads so
  (`headers_apart`);
* for 24 to 27 only an X.509 list passes the remainder test (`late_x509`), and
  then a size field of the next header lies on the first bytes of the
  certificate, which are not small (`Passed.der`).

So an accepted payload is a sequence of well-formed lists
(`checkSignatureListFormat_sigLists`).  The second point needs that certificate
parsing accepts only a DER SEQUENCE whose length is in the long form, as every
certificate with an RSA key is: `OpenSsl.DerOnly`.
-/
import Uefistored.SigShape

namespace Uefistored

open Lib SigList

section
variable {P X : Type}

/-- Certificate parsing accepts only a DER SEQUENCE with a long-form length. -/
def OpenSsl.DerOnly (ssl : OpenSsl P X) : Prop :=
  ∀ bytes n x, ssl.d2iX509 bytes n = some x →
    ∃ c rest, bytes = 0x30 :: c :: rest ∧ 0x80 ≤ c.toNat

/-! ## One list -/

/-- What the walk has checked of a list when it comes to divide by its `SignatureSize`. -/
structure Vetted (ssl : OpenSsl P X) (b : Buffer) (pos : Nat) (ty : Guid) (lsz ssz : Nat) : Prop
    extends HeaderAt b pos ty lsz ssz where
  item : ∃ item ∈ supportedSigs, item.sigType = ty ∧
    (item.sigDataSize ≠ ANY_SIZE → sub64 ssz GUID_SIZE = item.sigDataSize)
  cert : ty = gEfiCertX509Guid →
    rsaGetPubKeyFromX509 ssl b (pos + ESL_SIZE + GUID_SIZE) (sub64 ssz GUID_SIZE) = some true

/-- What the walk has checked of a list it steps over. -/
structure Passed (ssl : OpenSsl P X) (b : Buffer) (pos : Nat) (ty : Guid) (lsz ssz : Nat) : Prop
    extends Vetted ssl b pos ty lsz ssz where
  listSize_pos : lsz ≠ 0
  signatureSize_pos : ssz ≠ 0
  remainder : sub64 lsz ESL_SIZE % ssz = 0

theorem supportedSigs_headerSize : ∀ item ∈ supportedSigs, item.sigHeaderSize = 0 := by
  simp [supportedSigs]

theorem supportedSig_spec {b : Buffer} {pos : Nat} {ty : Guid}
    (h : supportedSig b pos ty = some true) :
    headerSize b pos = some 0 ∧ ∃ item ∈ supportedSigs, item.sigType = ty ∧
      (item.sigDataSize ≠ ANY_SIZE →
        ∃ ssz, signatureSize b pos = some ssz ∧ sub64 ssz GUID_SIZE = item.sigDataSize) := by
  unfold supportedSig at h
  split at h
  · cases h
  · rename_i item hfind
    have hmem : item ∈ supportedSigs := List.mem_of_find?_eq_some hfind
    have hbeq := List.find?_some hfind
    have htype : item.sigType = ty := eq_of_beq hbeq
    have h0 : item.sigHeaderSize = 0 := supportedSigs_headerSize item hmem
    have hfixed : ∀ ssz, (if (decide (item.sigDataSize ≠ ANY_SIZE) &&
          decide (sub64 ssz GUID_SIZE ≠ item.sigDataSize)) = true then some false
        else if item.sigHeaderSize = ANY_SIZE then some true
        else (headerSize b pos).bind (fun hsz => some (hsz == item.sigHeaderSize))) = some true →
        headerSize b pos = some 0 ∧
          (item.sigDataSize ≠ ANY_SIZE → sub64 ssz GUID_SIZE = item.sigDataSize) := by
      intro ssz h
      split at h
      · cases h
      · rename_i hdata
        rw [if_neg (by rw [h0]; decide)] at h
        obtain ⟨hsz, hhsz, h⟩ := Option.bind_eq_some_iff.mp h
        have hz : hsz = 0 := (eq_of_beq (Option.some.inj h)).trans h0
        refine ⟨hz ▸ hhsz, ?_⟩
        intro hany
        by_contra hne
        exact hdata (by simp [hany, hne])
    unfold sigItemOk at h
    dsimp only at h
    by_cases hany : item.sigDataSize = ANY_SIZE
    · rw [if_pos hany] at h
      exact ⟨(hfixed 0 h).1, item, hmem, htype, fun hne => absurd hany hne⟩
    · rw [if_neg hany] at h
      obtain ⟨ssz, hssz, h⟩ := Option.bind_eq_some_iff.mp h
      obtain ⟨hhsz, hdata⟩ := hfixed ssz h
      exact ⟨hhsz, item, hmem, htype, fun hne => ⟨ssz, hssz, hdata hne⟩⟩

/-- A certificate that is accepted: not too long, and one to the parser. -/
theorem rsaGetPubKeyFromX509_spec {ssl : OpenSsl P X} {b : Buffer} {off size : Nat}
    (h : rsaGetPubKeyFromX509 ssl b off size = some true) :
    size ≤ INT_MAX ∧ ∃ x, ssl.d2iX509 (b.upTo off size) (toLong size) = some x := by
  unfold rsaGetPubKeyFromX509 at h
  split at h
  · cases h
  rename_i hmax
  obtain ⟨r, hr, hkey⟩ := Option.map_eq_some_iff.mp h
  obtain ⟨x, rfl, _⟩ := (Option.any_eq_true _ _).mp hkey
  exact ⟨Nat.not_lt.mp hmax, x, d2iX509At_eq_some hr⟩

/-- A step of the walk: it stops where it is, refuses, or steps over a list that passed. -/
theorem formatWalk_step {ssl : OpenSsl P X} {b : Buffer} {fuel pos left count : Nat}
    {r : Except EfiStatus (Nat × Nat)}
    (h : formatWalk ssl b (fuel + 1) pos left count = some r) :
    r = .ok (pos, count) ∨ r = .error .invalidParameter ∨
      ∃ ty lsz ssz, Passed ssl b pos ty lsz ssz ∧ lsz ≤ left ∧
        formatWalk ssl b fuel (pos + lsz) (left - lsz)
          ((count + sub64 lsz ESL_SIZE / ssz) % 2 ^ 32) = some r := by
  unfold formatWalk at h
  split at h
  · exact .inl (Option.some.inj h).symm
  obtain ⟨lsz, hlsz, h⟩ := Option.bind_eq_some_iff.mp h
  split at h
  · exact .inl (Option.some.inj h).symm
  rename_i hle
  obtain ⟨ty, hty, h⟩ := Option.bind_eq_some_iff.mp h
  obtain ⟨supported, hsup, h⟩ := Option.bind_eq_some_iff.mp h
  cases supported with
  | false => exact .inr (.inl (Option.some.inj h).symm)
  | true =>
      obtain ⟨hhsz, item, hmem, htype, hdata⟩ := supportedSig_spec hsup
      rw [if_neg (show ¬ (!true) = true by decide)] at h
      obtain ⟨hsz, hhsz', h⟩ := Option.bind_eq_some_iff.mp h
      obtain rfl := Option.some.inj (hhsz.symm.trans hhsz')
      obtain ⟨ssz, hssz, h⟩ := Option.bind_eq_some_iff.mp h
      obtain ⟨certOk, hcert, h⟩ := Option.bind_eq_some_iff.mp h
      split at h
      · exact .inr (.inl (Option.some.inj h).symm)
      rename_i hok
      obtain rfl : certOk = true := by simpa using hok
      obtain ⟨entries, hentries, h⟩ := Option.bind_eq_some_iff.mp h
      unfold entryCount at hentries
      split at hentries
      · cases hentries
      rename_i hpos
      have hbody : bodySize lsz 0 = sub64 lsz ESL_SIZE := sub64_sub64 lsz ESL_SIZE 0
      rw [hbody] at h hentries
      cases hentries
      split at h
      · exact .inr (.inl (Option.some.inj h).symm)
      rename_i hrem
      split at h
      · cases h
      rename_i hlsz0
      refine .inr (.inr ⟨ty, lsz, ssz,
        ⟨⟨⟨hty, hlsz, hhsz, hssz⟩, ?_, ?_⟩, hlsz0, hpos, not_not.mp hrem⟩, Nat.not_lt.mp hle, h⟩)
      · refine ⟨item, hmem, htype, ?_⟩
        intro hne
        obtain ⟨ssz', hssz', heq⟩ := hdata hne
        obtain rfl := Option.some.inj (hssz.symm.trans hssz')
        exact heq
      · rintro rfl
        unfold certChecked at hcert
        rwa [if_pos (beq_self_eq_true _)] at hcert

/-- The same for a walk that comes to its end. -/
theorem formatWalk_cases {ssl : OpenSsl P X} {b : Buffer} {fuel pos left count stop n : Nat}
    (h : formatWalk ssl b (fuel + 1) pos left count = some (.ok (stop, n))) :
    stop = pos ∧ n = count ∨ ∃ ty lsz ssz, Passed ssl b pos ty lsz ssz ∧ lsz ≤ left ∧
      formatWalk ssl b fuel (pos + lsz) (left - lsz)
        ((count + sub64 lsz ESL_SIZE / ssz) % 2 ^ 32) = some (.ok (stop, n)) := by
  rcases formatWalk_step h with hstop | hno | hpassed
  · exact .inl (Prod.mk.inj (Except.ok.inj hstop))
  · cases hno
  · exact .inr hpassed

/-- A return from inside the walk is a refusal. -/
theorem formatWalk_error {ssl : OpenSsl P X} {b : Buffer} :
    ∀ (fuel pos left count : Nat) {status : EfiStatus},
      formatWalk ssl b fuel pos left count = some (.error status) → status = .invalidParameter
  | 0, _, _, _, _, h => by cases h
  | fuel + 1, pos, left, count, status, h => by
      rcases formatWalk_step h with hstop | hno | ⟨_, _, _, _, _, h⟩
      · cases hstop
      · exact Except.error.inj hno
      · exact formatWalk_error fuel _ _ _ h

/-! ## Lists that claim too little -/

/-- The first 24 bytes of a list that passed: its type, its size, and a zero. -/
def headerFront (ty : Guid) (lsz : Nat) : List UInt8 := ty.bytes ++ leBytes 4 lsz ++ leBytes 4 0

/-- A small size leaves seven zeros behind its first byte. -/
theorem headerFront_eq (ty : Guid) {lsz : Nat} (h : lsz < 24) :
    headerFront ty lsz = ty.bytes ++ UInt8.ofNat lsz :: List.replicate 7 0 := by
  have hsize : leBytes 4 lsz = UInt8.ofNat lsz :: leBytes 3 0 := by
    have h256 : lsz < 256 := h.trans (by decide)
    rw [leBytes, Nat.div_eq_of_lt h256, Nat.mod_eq_of_lt h256]
  rw [headerFront, hsize, List.append_assoc]
  rfl

theorem supportedSigs_no_zero : ∀ item ∈ supportedSigs, ∀ i < 16,
    item.sigType.bytes.getD i 0 ≠ 0 := by
  decide

theorem supportedSigs_ends_apart : ∀ item ∈ supportedSigs, ∀ item' ∈ supportedSigs,
    item'.sigType.bytes.getD 15 0 = 1 →
    item.sigType.bytes.getD 15 0 ≠ item'.sigType.bytes.getD 14 0 := by
  decide

/-- A supported type that begins inside the header of another list, in front of its
`SignatureSize`, does not read as the bytes of that header. -/
theorem headers_apart {item item' : SignatureItem} {lsz : Nat} (hitem : item ∈ supportedSigs)
    (hitem' : item' ∈ supportedSigs) (hlt : lsz < 24) (h0 : lsz ≠ 0) : ∃ i < 16, lsz + i < 24 ∧
      (headerFront item.sigType lsz).getD (lsz + i) 0 ≠ item'.sigType.bytes.getD i 0 := by
  have hty : item.sigType.bytes.length = 16 := item.sigType.length_eq
  rw [headerFront_eq _ hlt]
  rcases Nat.lt_or_ge lsz 2 with h2 | h2
  · -- one byte on: the size is the last byte of the type, or the types end differently
    obtain rfl : lsz = 1 := by omega
    by_cases hlast : item'.sigType.bytes.getD 15 0 = 1
    · refine ⟨14, by decide, by decide, ?_⟩
      rw [List.getD_append _ _ _ _ (by rw [hty]; decide)]
      exact supportedSigs_ends_apart item hitem item' hitem' hlast
    · refine ⟨15, by decide, by decide, ?_⟩
      rw [List.getD_append_right _ _ _ _ hty.le, hty]
      exact fun h => hlast h.symm
  · -- further on, one of the zeros is a byte of the type
    refine ⟨17 - lsz, by omega, by omega, ?_⟩
    obtain ⟨j, hj⟩ := Nat.exists_eq_add_of_le (show 17 ≤ lsz + (17 - lsz) by omega)
    rw [hj, List.getD_append_right _ _ _ _ (by omega), hty, show 17 + j - 16 = j + 1 by omega,
      List.getD_cons_succ, List.getD_replicate _ (by omega)]
    exact (supportedSigs_no_zero item' hitem' _ (by omega)).symm

/-- Between 24 and 27 the remainder test lets only X.509 lists pass: the other types fix
`SignatureSize`, and it does not divide the wrapped difference. -/
theorem late_x509 : ∀ item ∈ supportedSigs, item.sigDataSize ≠ ANY_SIZE →
    ∀ r ∈ [1, 2, 3, 4], (2 ^ 64 - r) % (item.sigDataSize + GUID_SIZE) ≠ 0 := by
  decide +kernel

theorem x509_of_any : ∀ item ∈ supportedSigs, item.sigDataSize = ANY_SIZE →
    item.sigType = gEfiCertX509Guid := by
  decide +kernel

theorem supportedSigs_dataSize_lt : ∀ item ∈ supportedSigs, item.sigDataSize < 2 ^ 32 := by
  decide +kernel

theorem signatureType_getD {b : Buffer} {pos : Nat} {ty : Guid}
    (h : signatureType b pos = some ty) {i : Nat} (hi : i < 16) :
    b.bytes.getD (pos + i) 0 = ty.bytes.getD i 0 := by
  obtain ⟨l, hl, rfl⟩ := Option.map_eq_some_iff.mp h
  have hlen : l.length = 16 := Buffer.length_slice hl
  rw [Block.ofList_bytes hlen.le, hlen, Nat.sub_self, List.replicate_zero, List.append_nil,
    Buffer.slice_getD hl hi]

theorem HeaderAt.front_getD {b : Buffer} {pos lsz ssz : Nat} {ty : Guid}
    (h : HeaderAt b pos ty lsz ssz) {i : Nat} (hi : i < 24) :
    b.bytes.getD (pos + i) 0 = (headerFront ty lsz).getD i 0 := by
  have hty : ty.bytes.length = 16 := ty.length_eq
  have h20 : (ty.bytes ++ leBytes 4 lsz).length = 20 := by
    rw [List.length_append, hty, length_leBytes]
  unfold headerFront
  rcases Nat.lt_or_ge i 20 with h20' | h20'
  · rw [List.getD_append _ _ _ _ (h20.symm ▸ h20')]
    rcases Nat.lt_or_ge i 16 with h16 | h16
    · rw [List.getD_append _ _ _ _ (hty.symm ▸ h16)]
      exact signatureType_getD h.type_eq h16
    · obtain ⟨j, rfl⟩ := Nat.exists_eq_add_of_le h16
      rw [List.getD_append_right _ _ _ _ (hty.symm ▸ h16), hty, Nat.add_sub_cancel_left,
        ← Nat.add_assoc]
      exact Buffer.num_getD h.listSize_eq (by omega)
  · obtain ⟨j, rfl⟩ := Nat.exists_eq_add_of_le h20'
    rw [List.getD_append_right _ _ _ _ (h20.symm ▸ h20'), h20, Nat.add_sub_cancel_left,
      ← Nat.add_assoc]
    exact Buffer.num_getD h.headerSize_eq (by omega)

namespace Vetted

variable {ssl : OpenSsl P X} {b : Buffer} {pos lsz ssz : Nat} {ty : Guid}

theorem signatureSize_lt (h : Vetted ssl b pos ty lsz ssz) : ssz < 2 ^ 32 :=
  Buffer.num_lt h.signatureSize_eq

/-- A size that is not too small for the owner: the difference does not wrap. -/
theorem signatureSize_ge (h : Vetted ssl b pos ty lsz ssz) : GUID_SIZE ≤ ssz := by
  by_contra hlt
  have hwrap : sub64 ssz GUID_SIZE = 2 ^ 64 - (GUID_SIZE - ssz) :=
    sub64_of_lt (Nat.not_le.mp hlt) (by decide)
  obtain ⟨item, hitem, rfl, hdata⟩ := h.item
  have hbig : 2 ^ 64 - (GUID_SIZE - ssz) ≥ 2 ^ 64 - GUID_SIZE := by omega
  by_cases hany : item.sigDataSize = ANY_SIZE
  · have hcert := h.cert (x509_of_any item hitem hany)
    have hmax := (rsaGetPubKeyFromX509_spec hcert).1
    rw [hwrap] at hmax
    exact absurd (hbig.trans hmax) (by decide)
  · have hsize := supportedSigs_dataSize_lt item hitem
    rw [← hdata hany, hwrap] at hsize
    exact absurd (hbig.trans_lt hsize) (by decide)

/-- The size of an entry is the one its type fixes, or the list is one of certificates. -/
theorem x509_or_size (h : Vetted ssl b pos ty lsz ssz) : ty = gEfiCertX509Guid ∨
    ∃ item ∈ supportedSigs, item.sigDataSize ≠ ANY_SIZE ∧ item.sigType = ty ∧
      ssz = item.sigDataSize + GUID_SIZE := by
  obtain ⟨item, hitem, hty, hdata⟩ := h.item
  by_cases hany : item.sigDataSize = ANY_SIZE
  · exact .inl (hty ▸ x509_of_any item hitem hany)
  · have hge := h.signatureSize_ge
    refine .inr ⟨item, hitem, hany, hty, ?_⟩
    rw [← hdata hany, sub64_of_le hge (h.signatureSize_lt.trans (by decide)),
      Nat.sub_add_cancel hge]

end Vetted

namespace Passed

variable {ssl : OpenSsl P X} {b : Buffer} {pos lsz ssz : Nat} {ty : Guid}

/-- A list that is stepped over reaches behind the two sizes of its header if the walk
accepts what it finds next. -/
theorem listSize_ge_of_next {ty' : Guid} {lsz' ssz' : Nat} (h : Passed ssl b pos ty lsz ssz)
    (h' : Passed ssl b (pos + lsz) ty' lsz' ssz') : 24 ≤ lsz := by
  by_contra hlt
  obtain ⟨item, hitem, rfl, _⟩ := h.item
  obtain ⟨item', hitem', rfl, _⟩ := h'.item
  obtain ⟨i, hi, hsum, hne⟩ :=
    headers_apart hitem hitem' (Nat.not_le.mp hlt) h.listSize_pos
  refine hne ?_
  rw [← h.front_getD hsum, ← Nat.add_assoc]
  exact signatureType_getD h'.type_eq hi

/-- The certificate of an X.509 list is a DER SEQUENCE. -/
theorem der (hder : ssl.DerOnly) (h : Passed ssl b pos gEfiCertX509Guid lsz ssz) :
    b.bytes.getD (pos + 44) 0 = 0x30 ∧ 0x80 ≤ (b.bytes.getD (pos + 45) 0).toNat := by
  obtain ⟨_, x, hx⟩ := rsaGetPubKeyFromX509_spec (h.cert rfl)
  obtain ⟨c, rest, hbytes, hc⟩ := hder _ _ _ hx
  have hread : ∀ i < 2, (0x30 :: c :: rest).getD i 0 = b.bytes.getD (pos + 44 + i) 0 := by
    intro i hi
    rw [← hbytes]
    refine Buffer.upTo_getD ?_
    rw [hbytes, List.length_cons, List.length_cons]
    omega
  refine ⟨(hread 0 (by decide)).symm, ?_⟩
  rw [← hread 1 (by decide)]
  exact hc

theorem x509_of_late (h : Passed ssl b pos ty lsz ssz) (h24 : 24 ≤ lsz) (h28 : lsz < 28) :
    ty = gEfiCertX509Guid := by
  rcases h.toVetted.x509_or_size with hx509 | ⟨item, hitem, hany, _, hssz⟩
  · exact hx509
  · have hrem : sub64 lsz 28 % ssz = 0 := h.remainder
    rw [sub64_of_lt h28 (by decide), hssz] at hrem
    refine absurd hrem (late_x509 item hitem hany (28 - lsz) ?_)
    have hcases : 28 - lsz = 1 ∨ 28 - lsz = 2 ∨ 28 - lsz = 3 ∨ 28 - lsz = 4 := by omega
    simpa using hcases

/-- **No list that claims fewer bytes than its header has gets through.**  The walk ends
with the bytes of the object, which are few enough for a size to be large. -/
theorem header_fits (hder : ssl.DerOnly) (hlen : b.bytes.length ≤ MAX_VARIABLE_DATA_SIZE)
    (h : Passed ssl b pos ty lsz ssz) {fuel left count n : Nat}
    (hend : pos + left = b.bytes.length) (hle : lsz ≤ left)
    (hwalk : formatWalk ssl b fuel (pos + lsz) (left - lsz) count =
      some (.ok (b.bytes.length, n))) : ESL_SIZE ≤ lsz := by
  have hmax : b.bytes.length ≤ 32768 := hlen
  by_contra hlt
  have h28 : lsz < 28 := Nat.not_le.mp hlt
  cases fuel with
  | zero => cases hwalk
  | succ fuel =>
      rcases formatWalk_cases hwalk with ⟨hstop, _⟩ | ⟨ty', lsz', ssz', h', hle', _⟩
      · -- nothing follows: one of the fields that were checked lies behind the bytes
        have h24 : 24 < lsz := by
          by_contra hno
          exact h.signatureSize_pos (Buffer.num_past h.signatureSize_eq (by omega))
        obtain rfl := h.x509_of_late h24.le h28
        have hfirst := (h.der hder).1
        rw [List.getD_eq_default _ _ (by omega)] at hfirst
        exact absurd hfirst (by decide)
      · have h24 := h.listSize_ge_of_next h'
        obtain rfl := h.x509_of_late h24 h28
        obtain ⟨hfirst, hsecond⟩ := h.der hder
        have hcases : lsz = 24 ∨ lsz = 25 ∨ lsz = 26 ∨ lsz = 27 := by omega
        rcases hcases with rfl | rfl | rfl | rfl
        · -- its header size is the first byte of the certificate
          have hbyte := Buffer.num_ge h'.headerSize_eq (i := 0) (by decide)
          rw [show pos + 24 + 20 + 0 = pos + 44 from rfl, hfirst] at hbyte
          exact absurd hbyte (by decide)
        · have hbyte := Buffer.num_ge h'.listSize_eq (i := 3) (by decide)
          rw [show pos + 25 + 16 + 3 = pos + 44 from rfl, hfirst] at hbyte
          have hbig : 0x30 * 256 ^ 3 ≤ lsz' := hbyte
          omega
        · have hbyte := Buffer.num_ge h'.listSize_eq (i := 2) (by decide)
          rw [show pos + 26 + 16 + 2 = pos + 44 from rfl, hfirst] at hbyte
          have hbig : 0x30 * 256 ^ 2 ≤ lsz' := hbyte
          omega
        · have hbyte := Buffer.num_ge h'.listSize_eq (i := 2) (by decide)
          rw [show pos + 27 + 16 + 2 = pos + 45 from rfl] at hbyte
          have hbig : 0x80 * 256 ^ 2 ≤ lsz' := (Nat.mul_le_mul_right _ hsecond).trans hbyte
          omega

theorem listAt (h : Passed ssl b pos ty lsz ssz) (hfits : ESL_SIZE ≤ lsz)
    (hin : pos + lsz ≤ b.bytes.length) : ListAt b pos ty lsz ssz := by
  obtain ⟨item, hitem, hty, _⟩ := h.item
  refine ⟨h.toHeaderAt, ⟨item, hitem, hty⟩, hin, hfits, h.toVetted.signatureSize_ge, ?_⟩
  have hlt : lsz < 2 ^ 64 := (Buffer.num_lt h.listSize_eq).trans (by decide)
  have hrem := h.remainder
  rw [sub64_of_le hfits hlt] at hrem
  exact Nat.dvd_of_mod_eq_zero hrem

end Passed

/-! ## The walk -/

theorem formatWalk_sigLists {ssl : OpenSsl P X} {b : Buffer} (hder : ssl.DerOnly)
    (hlen : b.bytes.length ≤ MAX_VARIABLE_DATA_SIZE) :
    ∀ (fuel pos left count : Nat) {n : Nat}, pos + left = b.bytes.length →
      formatWalk ssl b fuel pos left count = some (.ok (b.bytes.length, n)) →
      SigLists (b.bytes.drop pos)
  | 0, _, _, _, _, _, h => by cases h
  | fuel + 1, pos, left, count, n, hend, h => by
      rcases formatWalk_cases h with ⟨hstop, _⟩ | ⟨ty, lsz, ssz, hp, hle, hwalk⟩
      · rw [List.drop_of_length_le hstop.le]
        exact .nil
      · have hl := hp.listAt (hp.header_fits hder hlen hend hle hwalk) (by omega)
        have hrest := formatWalk_sigLists hder hlen fuel _ _ _ (by omega) hwalk
        rw [← List.take_append_drop lsz (b.bytes.drop pos), List.drop_drop]
        exact (SigLists.single hl.isSigList).append hrest

/-- Behind the bytes there is nothing to step over. -/
theorem formatWalk_past {ssl : OpenSsl P X} {b : Buffer} {fuel pos left count stop n : Nat}
    (hpast : b.bytes.length ≤ pos)
    (h : formatWalk ssl b fuel pos left count = some (.ok (stop, n))) : stop = pos := by
  cases fuel with
  | zero => cases h
  | succ fuel =>
      rcases formatWalk_cases h with ⟨hstop, _⟩ | ⟨ty, lsz, ssz, hp, _⟩
      · exact hstop
      · exact absurd (Buffer.num_past hp.signatureSize_eq (hpast.trans (Nat.le_add_right _ _)))
          hp.signatureSize_pos

/-- What an accepted payload went through: there is none, or the walk stopped where it ends,
which is inside the object. -/
theorem checkSignatureListFormat_walk {ssl : OpenSsl P X} {name : NameArray} {guid : Guid}
    {b : Buffer} {off n : Nat} {isPk : Bool} (hkind : formatKind name guid = some isPk)
    (hb : b.IsWhole n)
    (h : checkSignatureListFormat ssl name guid b off (sub64 n off) = some .success) :
    sub64 n off = 0 ∨ off + sub64 n off = n ∧ ∃ count,
      formatWalk ssl b (sub64 n off + 1) off (sub64 n off) 0 = some (.ok (n, count)) ∧
      (isPk = true → count ≤ 1) := by
  obtain ⟨rfl, hlt⟩ := hb
  unfold checkSignatureListFormat at h
  split at h
  · rename_i h0
    exact .inl h0
  rename_i h0
  rw [hkind] at h
  obtain ⟨r, hwalk, h⟩ := Option.bind_eq_some_iff.mp h
  cases r with
  | error status =>
      obtain rfl := formatWalk_error _ _ _ _ hwalk
      cases h
  | ok r =>
      obtain ⟨stop, count⟩ := r
      dsimp only at h
      split at h
      · cases h
      rename_i hstop
      have hoff : off ≤ b.bytes.length := by
        by_contra hpast
        rw [formatWalk_past (Nat.not_le.mp hpast).le hwalk, Nat.sub_self] at hstop
        exact h0 (not_not.mp hstop).symm
      have hsize : sub64 b.bytes.length off = b.bytes.length - off := sub64_of_le hoff hlt
      obtain rfl : stop = b.bytes.length := by omega
      refine .inr ⟨by omega, count, hwalk, ?_⟩
      rintro rfl
      split at h
      · cases h
      rename_i hcount
      simpa using hcount

/-- **An accepted payload is well formed.** -/
theorem checkSignatureListFormat_sigLists {ssl : OpenSsl P X} {name : NameArray} {guid : Guid}
    {b : Buffer} {off n : Nat} {isPk : Bool} (hder : ssl.DerOnly)
    (hkind : formatKind name guid = some isPk) (hb : b.IsWhole n)
    (hn : n ≤ MAX_VARIABLE_DATA_SIZE)
    (h : checkSignatureListFormat ssl name guid b off (sub64 n off) = some .success) :
    sub64 n off = 0 ∨ off + sub64 n off = n ∧ SigLists (b.bytes.drop off) := by
  rcases checkSignatureListFormat_walk hkind hb h with h0 | ⟨hend, count, hwalk, _⟩
  · exact .inl h0
  · obtain ⟨rfl, _⟩ := hb
    exact .inr ⟨hend, formatWalk_sigLists hder hn _ _ _ _ hend hwalk⟩

end

end Uefistored
