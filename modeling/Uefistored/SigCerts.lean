/-
# `Uefistored.SigCerts` — what an accepted payload of KEK, db, dbx or dbt holds

`check_signature_list_format` is there to refuse a payload with any signature
that is not well formed.  `FormatSound` says what that comes to: the payload is
a sequence of lists of supported types, each entry inside its list and of the
size its type asks for, and each entry of an X.509 list is a certificate.

The loop has two holes, and no other (`formatSound_iff`):

* of an X.509 list it looks at the first entry only;
* a `SignatureListSize` below that of the header is not refused as such, and
  the list goes on inside its own header.

Both are conditions on the lists the loop steps over (`WellMade`).
-/
import Uefistored.SigStored
import Uefistored.SigWalk

namespace Uefistored

open Lib SigList

section
variable {P X : Type}

/-! ## Sound payloads -/

/-- One list of a payload: a list whose entries have the size their type asks for, each of
them a certificate if the list is one of certificates. -/
structure SoundList (ssl : OpenSsl P X) (l : List UInt8) : Prop extends IsSigList l where
  sized : ∃ item ∈ supportedSigs, signatureType (Buffer.ofList l) 0 = some item.sigType ∧
    (item.sigDataSize ≠ ANY_SIZE →
      signatureSize (Buffer.ofList l) 0 = some (item.sigDataSize + GUID_SIZE))
  certs : signatureType (Buffer.ofList l) 0 = some gEfiCertX509Guid →
    ∀ ssz, signatureSize (Buffer.ofList l) 0 = some ssz → ∀ i < (l.length - ESL_SIZE) / ssz,
      rsaGetPubKeyFromX509 ssl (Buffer.ofList l) (ESL_SIZE + i * ssz + GUID_SIZE)
        (ssz - GUID_SIZE) = some true

/-- A payload that splits into such lists. -/
def FormatSound (ssl : OpenSsl P X) (data : List UInt8) : Prop :=
  ∃ ls : List (List UInt8), (∀ l ∈ ls, SoundList ssl l) ∧ ls.flatten = data

/-- What the loop takes on trust of a list of `lsz` bytes at `pos`. -/
structure WellMade (ssl : OpenSsl P X) (b : Buffer) (pos lsz : Nat) : Prop where
  header_fits : ESL_SIZE ≤ lsz
  later : signatureType b pos = some gEfiCertX509Guid → ∀ ssz, signatureSize b pos = some ssz →
    ∀ i, 0 < i → i < (lsz - ESL_SIZE) / ssz →
      rsaGetPubKeyFromX509 ssl b (pos + (ESL_SIZE + i * ssz + GUID_SIZE)) (ssz - GUID_SIZE) =
        some true

/-! ## One list -/

section
variable {ssl : OpenSsl P X} {b : Buffer} {pos lsz ssz : Nat} {ty : Guid}

/-- A certificate inside a list is read there as in the list alone. -/
theorem rsaGetPubKeyFromX509_part {off n : Nat} (hin : pos + lsz ≤ b.bytes.length)
    (h : off + n ≤ lsz) :
    rsaGetPubKeyFromX509 ssl (Buffer.ofList ((b.bytes.drop pos).take lsz)) off n =
      rsaGetPubKeyFromX509 ssl b (pos + off) n := by
  unfold rsaGetPubKeyFromX509 d2iX509At readsOutside
  rw [Buffer.upTo_part hin h]

/-- Each of the entries of a list lies inside it. -/
theorem ListAt.entry_fits (h : ListAt b pos ty lsz ssz) {i : Nat}
    (hi : i < (lsz - ESL_SIZE) / ssz) :
    ESL_SIZE + i * ssz + GUID_SIZE + (ssz - GUID_SIZE) ≤ lsz := by
  have hfit := h.header_fits
  have hguid := h.guid_fits
  have hmul : (i + 1) * ssz ≤ lsz - ESL_SIZE :=
    (Nat.mul_le_mul_right ssz hi).trans (Nat.div_mul_le_self ..)
  rw [Nat.succ_mul] at hmul
  omega

/-- For a list that passed the checks the rest is what the loop takes on trust. -/
theorem Vetted.soundList_iff (h : Vetted ssl b pos ty lsz ssz)
    (hrem : sub64 lsz ESL_SIZE % ssz = 0) (hin : pos + lsz ≤ b.bytes.length) :
    SoundList ssl ((b.bytes.drop pos).take lsz) ↔ WellMade ssl b pos lsz := by
  have hlen : ((b.bytes.drop pos).take lsz).length = lsz := by
    rw [List.length_take, List.length_drop]
    omega
  constructor
  · intro hs
    have h28 : ESL_SIZE ≤ lsz := hs.header_fits.trans hlen.le
    obtain ⟨hty', _, _, hssz'⟩ := (HeaderAt.part hin h28).mpr h.toHeaderAt
    refine ⟨h28, ?_⟩
    intro hx509 ssz' hssz i _ hi
    obtain rfl := Option.some.inj (h.signatureSize_eq.symm.trans hssz)
    have hself : (Buffer.ofList ((b.bytes.drop pos).take lsz)).bytes.drop 0 =
        (b.bytes.drop pos).take lsz ++ [] := (List.append_nil _).symm
    obtain ⟨ty', ssz', hl⟩ := hs.toIsSigList.at hself
    obtain rfl := Option.some.inj (hssz'.symm.trans hl.signatureSize_eq)
    have hfits := hl.entry_fits (i := i) (hlen.symm ▸ hi)
    rw [hlen] at hfits
    rw [← rsaGetPubKeyFromX509_part hin hfits]
    refine hs.certs ?_ ssz hssz' i (hlen.symm ▸ hi)
    rw [hty', ← h.type_eq]
    exact hx509
  · intro hw
    have hdvd : ssz ∣ lsz - ESL_SIZE := by
      rw [sub64_of_le hw.header_fits ((Buffer.num_lt h.listSize_eq).trans (by decide))] at hrem
      exact Nat.dvd_of_mod_eq_zero hrem
    obtain ⟨item, hitem, hty, hdata⟩ := h.item
    have hge := h.signatureSize_ge
    have hsub : sub64 ssz GUID_SIZE = ssz - GUID_SIZE :=
      sub64_of_le hge (h.signatureSize_lt.trans (by decide))
    have hl : ListAt b pos ty lsz ssz :=
      ⟨h.toHeaderAt, ⟨item, hitem, hty⟩, hin, hw.header_fits, hge, hdvd⟩
    obtain ⟨hty', _, _, hssz'⟩ := (HeaderAt.part hin hw.header_fits).mpr h.toHeaderAt
    refine ⟨hl.isSigList, ⟨item, hitem, hty ▸ hty', ?_⟩, ?_⟩
    · intro hany
      rw [hssz', ← hdata hany, hsub, Nat.sub_add_cancel hge]
    · intro hx509 ssz' hssz i hi
      obtain rfl := Option.some.inj (hssz'.symm.trans hssz)
      obtain rfl := Option.some.inj (hty'.symm.trans hx509)
      rw [hlen] at hi
      rw [rsaGetPubKeyFromX509_part hin (hl.entry_fits hi)]
      rcases Nat.eq_zero_or_pos i with rfl | hpos
      · -- the first entry is the one the loop has looked at
        have hcert := h.cert rfl
        rw [hsub] at hcert
        rw [Nat.zero_mul, Nat.add_zero, ← Nat.add_assoc]
        exact hcert
      · exact hw.later h.type_eq ssz h.signatureSize_eq i hpos hi

/-- Lists in front of a payload are no choice: the first one has the size its header says. -/
theorem FormatSound.cons_iff {left : Nat} (hlsz : signatureListSize b pos = some lsz)
    (h0 : left ≠ 0) (hle : lsz ≤ left) (hin : pos + left ≤ b.bytes.length) :
    FormatSound ssl ((b.bytes.drop pos).take left) ↔
      SoundList ssl ((b.bytes.drop pos).take lsz) ∧
        FormatSound ssl ((b.bytes.drop (pos + lsz)).take (left - lsz)) := by
  have hsplit : (b.bytes.drop pos).take left =
      (b.bytes.drop pos).take lsz ++ (b.bytes.drop (pos + lsz)).take (left - lsz) := by
    rw [← List.drop_drop, ← List.take_add, Nat.add_sub_cancel' hle]
  constructor
  · rintro ⟨ls, hls, hflat⟩
    cases ls with
    | nil =>
        have hlen := congrArg List.length hflat
        rw [List.flatten_nil, List.length_nil, List.length_take, List.length_drop] at hlen
        omega
    | cons l ls =>
        rw [List.flatten_cons] at hflat
        have hl := hls l List.mem_cons_self
        -- the list reads in the payload as it reads alone
        have hwhole : b.bytes.drop pos = l ++ (ls.flatten ++ (b.bytes.drop pos).drop left) := by
          rw [← List.append_assoc, hflat, List.take_append_drop]
        obtain ⟨_, _, hat⟩ := hl.toIsSigList.at hwhole
        obtain rfl := Option.some.inj (hlsz.symm.trans hat.listSize_eq)
        have htake : (b.bytes.drop pos).take l.length = l := by rw [hwhole, List.take_left]
        rw [htake] at hsplit ⊢
        rw [hsplit] at hflat
        exact ⟨hl, ls, fun l' h' => hls l' (List.mem_cons_of_mem _ h'),
          List.append_cancel_left hflat⟩
  · rintro ⟨hl, ls, hls, hflat⟩
    refine ⟨_ :: ls, List.forall_mem_cons.mpr ⟨hl, hls⟩, ?_⟩
    rw [List.flatten_cons, hflat, hsplit]

end

/-! ## The loop -/

/-- Every list the loop steps over is well made. -/
def ListsWellMade (ssl : OpenSsl P X) (b : Buffer) (off size : Nat) : Prop :=
  ∀ lszs s lsz s', Run (WalkStep ssl b) ⟨off, size⟩ lszs s → WalkStep ssl b s lsz s' →
    WellMade ssl b s.pos lsz

section
variable {ssl : OpenSsl P X} {b : Buffer} {pos left lsz entries : Nat}

theorem ListsWellMade.nil (h : ∀ lsz s', ¬ WalkStep ssl b ⟨pos, left⟩ lsz s') :
    ListsWellMade ssl b pos left := by
  intro lszs s lsz s' hrun hstep
  cases hrun with
  | nil => exact absurd hstep (h _ _)
  | cons hfirst _ => exact absurd hfirst (h _ _)

theorem ListsWellMade.cons_iff (h : formatStep ssl b pos left = .next lsz entries) :
    ListsWellMade ssl b pos left ↔
      WellMade ssl b pos lsz ∧ ListsWellMade ssl b (pos + lsz) (left - lsz) := by
  have hfirst : WalkStep ssl b ⟨pos, left⟩ lsz ⟨pos + lsz, left - lsz⟩ := ⟨⟨entries, h⟩, rfl⟩
  have honly : ∀ {lsz' s'}, WalkStep ssl b ⟨pos, left⟩ lsz' s' →
      lsz' = lsz ∧ s' = ⟨pos + lsz, left - lsz⟩ := by
    rintro lsz' _ ⟨⟨entries', h'⟩, rfl⟩
    obtain ⟨rfl, _⟩ := FormatStep.next.inj (h'.symm.trans h)
    exact ⟨rfl, rfl⟩
  constructor
  · intro hall
    refine ⟨hall [] _ lsz _ (.nil _) hfirst, ?_⟩
    intro lszs s lsz' s' hrun hstep
    exact hall (lsz :: lszs) s lsz' s' (.cons hfirst hrun) hstep
  · rintro ⟨hmade, hrest⟩ lszs s lsz' s' hrun hstep
    cases hrun with
    | nil =>
        obtain ⟨rfl, _⟩ := honly hstep
        exact hmade
    | cons hx hrun =>
        obtain ⟨_, rfl⟩ := honly hx
        exact hrest _ s lsz' s' hrun hstep

theorem formatWalk_formatSound_iff :
    ∀ (fuel pos left count : Nat) {n : Nat}, pos + left ≤ b.bytes.length →
      formatWalk ssl b fuel pos left count = some (.ok (pos + left, n)) →
      (FormatSound ssl ((b.bytes.drop pos).take left) ↔ ListsWellMade ssl b pos left)
  | 0, _, _, _, _, _, h => by cases h
  | fuel + 1, pos, left, count, n, hin, h => by
      rw [formatWalk_eq] at h
      cases hstep : formatStep ssl b pos left with
      | done =>
          rw [hstep] at h
          obtain ⟨hstop, _⟩ := Prod.mk.inj (Except.ok.inj (Option.some.inj h))
          obtain rfl : left = 0 := by omega
          constructor
          · intro _
            refine ListsWellMade.nil ?_
            rintro lsz _ ⟨⟨entries, hnext⟩, _⟩
            exact absurd (hstep.symm.trans hnext) (by simp)
          · intro _
            exact ⟨[], by simp, rfl⟩
      | refused =>
          rw [hstep] at h
          cases h
      | outside =>
          rw [hstep] at h
          cases h
      | dividesByZero =>
          rw [hstep] at h
          cases h
      | next lsz entries =>
          obtain ⟨hleft, hle, ty, ssz, hv, hrem⟩ := formatStep_next hstep
          rw [hstep] at h
          dsimp only at h
          split at h
          · cases h
          have hend : pos + left = pos + lsz + (left - lsz) := by omega
          rw [hend] at h
          have ih := formatWalk_formatSound_iff fuel _ _ _ (by omega) h
          rw [FormatSound.cons_iff hv.listSize_eq hleft hle hin, ListsWellMade.cons_iff hstep,
            hv.soundList_iff hrem (by omega), ih]

end

/-- **An accepted payload is sound exactly if every list of it is well made**: not shorter
than its header, and with a certificate in each entry behind the first if it is one of
certificates. -/
theorem formatSound_iff {ssl : OpenSsl P X} {name : NameArray} {guid : Guid} {b : Buffer}
    {off size : Nat} (hkind : formatKind name guid = some false)
    (hin : off + size ≤ b.bytes.length)
    (h : checkSignatureListFormat ssl name guid b off size = some .success) :
    FormatSound ssl ((b.bytes.drop off).take size) ↔ ListsWellMade ssl b off size := by
  unfold checkSignatureListFormat at h
  split at h
  · rename_i h0
    subst h0
    exact formatWalk_formatSound_iff (n := 0) 1 off 0 0 hin (by rw [formatWalk]; rfl)
  rw [hkind] at h
  obtain ⟨r, hwalk, h⟩ := Option.bind_eq_some_iff.mp h
  cases r with
  | error status =>
      obtain rfl := formatWalk_error _ _ _ _ hwalk
      cases h
  | ok r =>
      obtain ⟨stop, count⟩ := r
      dsimp only at h
      split at h
      · cases h
      rename_i h0 _ hstop
      obtain rfl : stop = off + size := by omega
      exact formatWalk_formatSound_iff _ _ _ _ hin hwalk

end

/-- The payload that enrols a KEK is sound. -/
theorem formatSound_derCertList :
    checkSignatureListFormat .derParsing kekKey.name kekKey.guid (Buffer.ofList derCertList) 0 46 =
      some .success ∧ FormatSound .derParsing derCertList := by
  have hcheck : checkSignatureListFormat .derParsing kekKey.name kekKey.guid
      (Buffer.ofList derCertList) 0 46 = some .success := by
    decide +kernel
  have hstep : formatStep .derParsing (Buffer.ofList derCertList) 0 46 = .next 46 1 := by
    decide +kernel
  refine ⟨hcheck, (formatSound_iff (by decide +kernel) (by decide) hcheck).mpr ?_⟩
  refine (ListsWellMade.cons_iff hstep).mpr ⟨⟨by decide, ?_⟩, .nil ?_⟩
  · intro _ ssz hssz i hpos hi
    obtain rfl : ssz = 18 := by
      refine Option.some.inj (hssz.symm.trans ?_)
      decide +kernel
    exact absurd hi (Nat.not_lt.mpr hpos)
  · rintro lsz _ ⟨⟨entries, hnext⟩, _⟩
    exact (formatStep_next hnext).1 rfl

/-- A list of two X.509 entries.  The second one is no certificate. -/
def halfCertList : List UInt8 :=
  gEfiCertX509Guid.bytes ++ leBytes 4 (ESL_SIZE + 2 * (GUID_SIZE + 2)) ++ leBytes 4 0 ++
    leBytes 4 (GUID_SIZE + 2) ++ List.replicate GUID_SIZE 0 ++ [0x30, 0x82] ++
    List.replicate GUID_SIZE 0 ++ [0, 0]

/-- It is accepted for KEK. -/
theorem formatSound_halfCertList :
    checkSignatureListFormat .derParsing kekKey.name kekKey.guid (Buffer.ofList halfCertList) 0 64 =
      some .success ∧
    rsaGetPubKeyFromX509 .derParsing (Buffer.ofList halfCertList) (28 + 18 + 16) 2 = some false ∧
    ¬ FormatSound .derParsing halfCertList := by
  refine ⟨by decide +kernel, by decide +kernel, ?_⟩
  intro hsound
  have hlsz : signatureListSize (Buffer.ofList halfCertList) 0 = some 64 := by decide +kernel
  have hin : 0 + 64 ≤ (Buffer.ofList halfCertList).bytes.length := by decide
  obtain ⟨hl, _⟩ := (FormatSound.cons_iff hlsz (by decide) le_rfl hin).mp hsound
  have hcert := hl.certs (by decide +kernel) 18 (by decide +kernel) 1 (by decide)
  revert hcert
  decide +kernel

end Uefistored
