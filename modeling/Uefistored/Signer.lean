/-
# `Uefistored.Signer` — the signature behind the write

The digest of the signer is computed from the caller's data once the store has
been written, and by then `FilterSignatureList` may have rewritten them in place.
What it rewrites lies behind the signature, but `is_content_info` looks at one
byte more than it has asked for, and for a signature of sixteen bytes that is the
first one of the payload.  A payload that is filtered is a list of signatures,
before and after; its first byte is the first one of a supported type, and none
of these is the `0x82` that is asked for (`filterSignatureList_head`).

So the digest is that of the data as they came (`offered_digest`).
-/
import Uefistored.Attempt

namespace Uefistored

open Lib SigList

section
variable {P X : Type} {ssl : OpenSsl P X}

/-! ## The first byte of the payload -/

theorem supportedSigs_head : ∀ item ∈ supportedSigs, item.sigType.bytes.getD 0 0 ≠ 0x82 := by
  decide

/-- A list that the walk steps over begins with a supported type. -/
theorem walkStep_head {b : Buffer} {s s' : WalkState} {lsz : Nat} (h : WalkStep ssl b s lsz s') :
    b.bytes.getD s.pos 0 ≠ 0x82 := by
  obtain ⟨⟨entries, hstep⟩, _⟩ := h
  obtain ⟨_, _, ty, ssz, hv, _⟩ := formatStep_next hstep
  obtain ⟨item, hitem, rfl, _⟩ := hv.item
  have hbyte := signatureType_getD hv.type_eq (show 0 < 16 by decide)
  rw [Nat.add_zero] at hbyte
  rw [hbyte]
  exact supportedSigs_head item hitem

theorem relist_head {header body tail : List UInt8} (h20 : 20 ≤ header.length)
    (htail : tail.getD 0 0 ≠ 0x82) (hheader : header.getD 0 0 ≠ 0x82) :
    (tail ++ relist header body).getD 0 0 ≠ 0x82 := by
  cases tail with
  | cons x rest => exact htail
  | nil =>
      cases header with
      | nil => exact absurd h20 (by decide)
      | cons x rest => exact hheader

/-- What the loop keeps begins as one of the lists it has come by. -/
theorem filterLists_head {old new : Buffer} {oldSize cap : Nat} {s e : WalkState} {lszs : List Nat}
    (h : Run (WalkStep ssl new) s lszs e) : e.left = 0 → ∀ (fuel : Nat) {tail t : List UInt8},
      filterLists old new oldSize cap fuel s.pos s.left tail = some t → tail.length ≤ cap →
      tail.getD 0 0 ≠ 0x82 → t.getD 0 0 ≠ 0x82 := by
  induction h with
  | nil s =>
      intro hend fuel tail t ht _ htail
      cases fuel with
      | zero => cases ht
      | succ fuel =>
          rw [filterLists, if_pos hend] at ht
          cases ht
          exact htail
  | @cons s s₁ s' lsz lszs hstep hrun ih =>
      intro hend fuel tail t ht hcap htail
      have hhead := walkStep_head hstep
      obtain ⟨⟨entries, hnext⟩, rfl⟩ := hstep
      obtain ⟨_, _, _, _, hv, _⟩ := formatStep_next hnext
      cases fuel with
      | zero => cases ht
      | succ fuel =>
          rcases filterLists_cases ht hcap with
            ⟨rfl, _⟩ | ⟨lsz', hsz, ssz, tail', hlsz, _, _, _, hcap', hkept, hrest⟩
          · exact htail
          · obtain rfl := Option.some.inj (hv.listSize_eq.symm.trans hlsz)
            refine ih hend fuel hrest hcap' ?_
            rcases hkept with rfl | ⟨header, kept, hheader, _, _, rfl⟩
            · exact htail
            · have hlen := Buffer.length_slice hheader
              have h28 : 28 ≤ header.length := by
                rw [hlen]
                exact Nat.le_add_right 28 hsz
              refine relist_head (by omega) htail ?_
              rw [Buffer.slice_getD hheader (by omega), Nat.add_zero]
              exact hhead

/-- A payload made of lists does not begin with `0x82`, nor does what is left of it. -/
theorem filterSignatureList_head {old : List UInt8} {b b' : Buffer} {off size size' : Nat}
    (hcover : ListsCover ssl b off size) (hsize : size ≠ 0)
    (h : filterSignatureList old b off size = some (b', size')) :
    b.bytes.getD off 0 ≠ 0x82 ∧ b'.bytes.getD off 0 ≠ 0x82 := by
  obtain ⟨lszs, hrun⟩ := hcover
  have hfirst : b.bytes.getD off 0 ≠ 0x82 ∧ b.bytes.getD off 0 ≠ 0 := by
    generalize hend : (⟨off + size, 0⟩ : WalkState) = e at hrun
    cases hrun with
    | nil => exact absurd (congrArg WalkState.left hend).symm hsize
    | cons hstep _ =>
        refine ⟨walkStep_head hstep, ?_⟩
        obtain ⟨⟨entries, hnext⟩, _⟩ := hstep
        obtain ⟨_, _, ty, ssz, hv, _⟩ := formatStep_next hnext
        obtain ⟨item, hitem, rfl, _⟩ := hv.item
        have hbyte := signatureType_getD hv.type_eq (show 0 < 16 by decide)
        rw [Nat.add_zero] at hbyte
        rw [hbyte]
        exact supportedSigs_no_zero item hitem 0 (by decide)
  refine ⟨hfirst.1, ?_⟩
  unfold filterSignatureList at h
  rw [if_neg hsize] at h
  obtain ⟨tail, htail, h⟩ := Option.bind_eq_some_iff.mp h
  obtain ⟨new, hw, h⟩ := Option.bind_eq_some_iff.mp h
  cases h
  have hhead := filterLists_head hrun rfl _ htail (Nat.zero_le _) (by decide)
  cases tail with
  | nil =>
      have hin : off ≤ b.bytes.length := by
        by_contra hpast
        exact hfirst.2 (List.getD_eq_default _ _ (Nat.not_le.mp hpast).le)
      rw [Buffer.write_nil hw hin]
      exact hfirst.1
  | cons x rest =>
      have hbyte := Buffer.slice_getD (Buffer.slice_write hw) (Nat.succ_pos rest.length)
      rw [Nat.add_zero] at hbyte
      rw [← hbyte]
      exact hhead

/-! ## The digest -/

section
variable {b b' : Buffer} {sig : Nat}

/-- The byte behind a signature of sixteen bytes is not the one that is asked for. -/
def PlainBehind (b : Buffer) (sig : Nat) : Prop :=
  sig = 16 → b.bytes.getD (OFFSET_OF_AUTHINFO2_CERT_DATA + 16) 0 ≠ 0x82

theorem isContentInfo_congr
    (hagree : Buffer.AgreeBelow (OFFSET_OF_AUTHINFO2_CERT_DATA + sig) b b')
    (hsize : b'.size = b.size) (hplain : PlainBehind b sig) (hplain' : PlainBehind b' sig) :
    isContentInfo b' OFFSET_OF_AUTHINFO2_CERT_DATA sig =
      isContentInfo b OFFSET_OF_AUTHINFO2_CERT_DATA sig := by
  unfold isContentInfo
  by_cases h16 : sig < 16
  · rw [if_pos h16, if_pos h16]
  rw [if_neg h16, if_neg h16, hagree OFFSET_OF_AUTHINFO2_CERT_DATA 16 (by omega)]
  cases b.slice OFFSET_OF_AUTHINFO2_CERT_DATA 16 with
  | none => rfl
  | some l =>
      rw [Option.bind_eq_bind, Option.bind_some, Option.bind_some]
      split
      · rfl
      by_cases heq : sig = 16
      · have hnext : ∀ {c : Buffer} {next : List UInt8}, PlainBehind c sig →
            c.slice (OFFSET_OF_AUTHINFO2_CERT_DATA + 16) 1 = some next →
              (next == [0x82]) = false := by
          intro c next hc hslice
          have hbyte := Buffer.slice_getD hslice (show 0 < 1 by decide)
          rw [Nat.add_zero] at hbyte
          refine beq_false_of_ne ?_
          rintro rfl
          exact hc heq hbyte.symm
        cases hs : b.slice (OFFSET_OF_AUTHINFO2_CERT_DATA + 16) 1 with
        | none =>
            have hpast := Buffer.slice_eq_none_iff.mp hs
            rw [← hsize] at hpast
            rw [Buffer.slice_eq_none_iff.mpr hpast]
        | some next =>
            have hin := Buffer.slice_le hs
            rw [← hsize] at hin
            obtain ⟨next', hs'⟩ := Buffer.slice_isSome hin
            rw [hs']
            exact congrArg some ((hnext hplain' hs').trans (hnext hplain hs).symm)
      · rw [hagree (OFFSET_OF_AUTHINFO2_CERT_DATA + 16) 1 (by omega)]

/-- The digest is computed from the signature, and from that byte behind it. -/
theorem sha256FromAuth_congr (h : sigDataSize b = some sig)
    (hagree : Buffer.AgreeBelow (OFFSET_OF_AUTHINFO2_CERT_DATA + sig) b b')
    (hsize : b'.size = b.size) (hplain : PlainBehind b sig) (hplain' : PlainBehind b' sig) :
    sha256FromAuth ssl b' = sha256FromAuth ssl b := by
  have hsig : sigDataSize b' = sigDataSize b := by
    unfold sigDataSize dwLength Buffer.num
    rw [hagree 16 4 (by show 16 + 4 ≤ 40 + sig; omega)]
  have hwrap : wrapWithContentInfo b' OFFSET_OF_AUTHINFO2_CERT_DATA sig =
      wrapWithContentInfo b OFFSET_OF_AUTHINFO2_CERT_DATA sig := by
    unfold wrapWithContentInfo
    rw [isContentInfo_congr hagree hsize hplain hplain', hagree _ _ le_rfl]
  have hpkcs7 : pkcs7FromAuth ssl b' = pkcs7FromAuth ssl b := by
    unfold pkcs7FromAuth
    rw [hsig, h, Option.bind_eq_bind, Option.bind_some, Option.bind_eq_bind, Option.bind_some,
      hwrap]
  unfold sha256FromAuth
  rw [hpkcs7]

end

/-- **The digest behind the update is the digest of the data as they came.** -/
theorem offered_digest {s : Storage} {l : List UInt8} {g : Guid} {b b' : Buffer} {n : Nat}
    {attrs : Attrs} {kind : AuthVarType} {off size : Nat} {msg d : List UInt8} {time : EfiTime}
    (hl : l.length ≤ MAX_VARIABLE_NAME_SIZE)
    (hacc : Accepted ssl s (Key.of l g) b n attrs kind off size msg time)
    (h : offered s (Key.of l g) b off size attrs = some (d, b')) (ssl' : OpenSsl P X) :
    sha256FromAuth ssl' b' = sha256FromAuth ssl' b := by
  obtain ⟨hagree, hsize⟩ := offered_agrees h
  obtain ⟨sig, stamp, payload, hp, rfl, _⟩ := hacc.passes
  unfold offered at h
  split at h
  · obtain ⟨payload', _, h⟩ := Option.map_eq_some_iff.mp h
    cases h
    rfl
  · rename_i old hold
    have hkind := sigListKeys_formatKind _ (mem_sigListKeys_of_filtered hl hold)
    have hcover := (checkSignatureListFormat_success_iff hkind).mp hacc.format
    obtain ⟨⟨b₁, size'⟩, hfilter, h⟩ := Option.bind_eq_some_iff.mp h
    obtain ⟨d', _, h⟩ := Option.map_eq_some_iff.mp h
    cases h
    by_cases h0 : size = 0
    · rw [filterSignatureList, if_pos h0] at hfilter
      cases hfilter
      rfl
    · obtain ⟨hbyte, hbyte'⟩ := filterSignatureList_head hcover h0 hfilter
      refine sha256FromAuth_congr hp.size_eq hagree hsize ?_ ?_
      · rintro rfl
        exact hbyte
      · rintro rfl
        exact hbyte'

end

end Uefistored
