/-
# `Uefistored.ContentInfo` — both forms of a signature

A client may send the SignedData of PKCS #7 alone, or in a ContentInfo; `d2i_PKCS7` takes
the second form only.  `wrap_with_content_info` of `src/uefi/pkcs7_verify.c` makes the
second out of the first, by a header of 19 bytes with the lengths in two bytes each.

`either_form_parsed`: what it makes is a ContentInfo with the SignedData in it, as a reader
of the encoding sees it (`contentInfo`, over `Lib.Ber`); and `pkcs7_from_auth` hands
OpenSSL the same bytes for a descriptor of either form.
-/
import Uefistored.Lib.Ber
import Uefistored.Lib.Layout
import Uefistored.Server

namespace Uefistored

open Lib

/-- The type of the contents, and the contents behind the tag `[0]`. -/
def contentFields : Reader Unit (List UInt8 × List UInt8) := do
  let type ← Ber.value 0x06
  let content ← Ber.value 0xA0
  return (type, content)

/-- A ContentInfo. -/
def contentInfo (l : List UInt8) : Option (List UInt8 × List UInt8) :=
  (Ber.whole (Ber.value 0x30) l).bind (Ber.whole contentFields)

theorem length_contentFields (sig : List UInt8) :
    (Ber.short 0x06 mOidValue ++ Ber.long 0xA0 sig).length = sig.length + 15 := by
  rw [List.length_append, Ber.length_short, Ber.length_long]
  simp only [mOidValue, List.length_cons, List.length_nil]
  omega

/-- The header makes a ContentInfo of what follows. -/
theorem contentInfoHeader_append (sig : List UInt8) : contentInfoHeader sig.length ++ sig =
    Ber.long 0x30 (Ber.short 0x06 mOidValue ++ Ber.long 0xA0 sig) := by
  rw [Ber.long, length_contentFields]
  rfl

theorem contentFields_reads {sig : List UInt8} (h : sig.length < 65536) :
    Reads contentFields (Ber.short 0x06 mOidValue ++ Ber.long 0xA0 sig) (mOidValue, sig) := by
  refine (Ber.value_reads_short (by decide)).bind ?_
  exact (Ber.value_reads_long h).map

theorem contentInfo_wrapped {sig : List UInt8} (h : sig.length + 15 < 65536) :
    contentInfo (contentInfoHeader sig.length ++ sig) = some (mOidValue, sig) := by
  have houter : Ber.whole (Ber.value 0x30) (contentInfoHeader sig.length ++ sig) =
      some (Ber.short 0x06 mOidValue ++ Ber.long 0xA0 sig) := by
    rw [contentInfoHeader_append]
    exact Ber.whole_of_reads (Ber.value_reads_long (by rwa [length_contentFields]))
  rw [contentInfo, houter, Option.bind_some]
  exact Ber.whole_of_reads (contentFields_reads (by omega))

/-! ## The descriptor -/

section
variable {data : Buffer} {off : Nat}

/-- What the header begins with is taken for a ContentInfo. -/
theorem isContentInfo_wrapped {n : Nat} {sig : List UInt8}
    (h : data.Holds off (contentInfoHeader n ++ sig)) :
    isContentInfo data off (sig.length + 19) = some true := by
  have hsplit : contentInfoHeader n = ([0x30, 0x82, UInt8.ofNat ((n + 19 - 4) / 256),
      UInt8.ofNat (n + 19 - 4), 0x06, 0x09] ++ mOidValue ++ [0xA0]) ++
        ([0x82] ++ [UInt8.ofNat (n / 256), UInt8.ofNat n]) := rfl
  rw [hsplit] at h
  obtain ⟨h, -⟩ := Buffer.holds_append.mp h
  obtain ⟨hfront, hrest⟩ := Buffer.holds_append.mp h
  obtain ⟨hnext, -⟩ := Buffer.holds_append.mp hrest
  unfold isContentInfo
  rw [if_neg (by omega)]
  refine Option.bind_eq_some_iff.mpr ⟨_, hfront.slice_eq rfl, ?_⟩
  refine Option.bind_eq_some_iff.mpr ⟨_, hnext.slice_eq rfl, rfl⟩

theorem wrapWithContentInfo_eq {sig : List UInt8} {wrapped : Bool}
    (hsig : data.Holds off sig) (h : isContentInfo data off sig.length = some wrapped) :
    wrapWithContentInfo data off sig.length =
      some (if wrapped then sig else contentInfoHeader sig.length ++ sig) := by
  unfold wrapWithContentInfo
  refine Option.bind_eq_some_iff.mpr ⟨wrapped, h, ?_⟩
  exact Option.bind_eq_some_iff.mpr ⟨sig, hsig.slice_eq rfl, rfl⟩

/-- The signature of a descriptor, and its size. -/
theorem authDescriptor_sig {time : EfiTime} {sig : List UInt8} (hlen : sig.length + 24 < 2 ^ 32)
    (h : data.Holds 0 (authDescriptor time sig)) :
    sigDataSize data = some sig.length ∧ data.Holds OFFSET_OF_AUTHINFO2_CERT_DATA sig := by
  unfold authDescriptor at h
  obtain ⟨h, hsig⟩ := Buffer.holds_append.mp h
  obtain ⟨h, -⟩ := Buffer.holds_append.mp h
  obtain ⟨h, -⟩ := Buffer.holds_append.mp h
  obtain ⟨h, -⟩ := Buffer.holds_append.mp h
  obtain ⟨-, hdw⟩ := Buffer.holds_append.mp h
  simp only [List.length_append, EfiTime.length_toBytes, length_leBytes, Block.length_eq]
    at hsig hdw
  refine ⟨?_, hsig⟩
  have hdw : dwLength data = some (OFFSET_OF_CERT_DATA + sig.length) :=
    hdw.num_eq (by simp only [OFFSET_OF_CERT_DATA]; omega)
  rw [sigDataSize, hdw, Option.map_some, sub32_of_le (Nat.le_add_right ..)
    (by simp only [OFFSET_OF_CERT_DATA]; omega), Nat.add_sub_cancel_left]

/-- `pkcs7_from_auth` on a descriptor with a signature. -/
theorem pkcs7FromAuth_eq {P X : Type} (ssl : OpenSsl P X) {time : EfiTime} {sig out : List UInt8}
    (hne : sig ≠ []) (hlen : sig.length + 24 < 2 ^ 32)
    (h : data.Holds 0 (authDescriptor time sig))
    (hwrap : wrapWithContentInfo data OFFSET_OF_AUTHINFO2_CERT_DATA sig.length = some out) :
    pkcs7FromAuth ssl data = some ((ssl.d2iPkcs7 out).filter ssl.typeIsSigned) := by
  have hpos : sig.length ≠ 0 := fun h0 => hne (List.eq_nil_of_length_eq_zero h0)
  unfold pkcs7FromAuth
  refine Option.bind_eq_some_iff.mpr ⟨_, (authDescriptor_sig hlen h).1, ?_⟩
  rw [if_neg hpos]
  exact Option.bind_eq_some_iff.mpr ⟨out, hwrap, rfl⟩

end

theorem SetRequest.buffer_holds {req : SetRequest} {l r : List UInt8} (h : req.data = l ++ r) :
    req.buffer.Holds 0 l := by
  have hin : 0 + l.length ≤ req.buffer.bytes.length := by
    show 0 + l.length ≤ req.data.length
    rw [h, List.length_append]
    omega
  show req.buffer.slice 0 l.length = some l
  rw [Buffer.slice_of_le hin]
  show some ((req.data.drop 0).take l.length) = some l
  rw [h, List.drop_zero, List.take_left]

/-- A request with SignedData alone, and one with the same in a ContentInfo: for both OpenSSL is
given the same bytes, and they are a ContentInfo with the SignedData in it. -/
theorem either_form_parsed {P X : Type} (ssl : OpenSsl P X) {req req' : SetRequest}
    {time time' : EfiTime} {sig payload payload' : List UInt8} (hne : sig ≠ [])
    (hreq : req.data = authDescriptor time sig ++ payload)
    (hbare : isContentInfo req.buffer OFFSET_OF_AUTHINFO2_CERT_DATA sig.length = some false)
    (hreq' : req'.data = authDescriptor time' (contentInfoHeader sig.length ++ sig) ++ payload') :
    ∃ out, contentInfo out = some (mOidValue, sig) ∧
      pkcs7FromAuth ssl req.buffer = some ((ssl.d2iPkcs7 out).filter ssl.typeIsSigned) ∧
      pkcs7FromAuth ssl req'.buffer = pkcs7FromAuth ssl req.buffer := by
  have hfits : sig.length ≤ 32768 := by
    have hdata := req.data_fits
    rw [hreq, List.length_append, length_authDescriptor, MAX_VARIABLE_DATA_SIZE] at hdata
    omega
  have hholds := SetRequest.buffer_holds hreq
  have hholds' := SetRequest.buffer_holds hreq'
  have hlen : (contentInfoHeader sig.length ++ sig).length = sig.length + 19 := by
    rw [List.length_append]
    simp only [contentInfoHeader, mOidValue, List.length_append, List.length_cons, List.length_nil]
    omega
  have hwrap := wrapWithContentInfo_eq (authDescriptor_sig (by omega) hholds).2 hbare
  have hsig' := (authDescriptor_sig (by rw [hlen]; omega) hholds').2
  have hwrap' := wrapWithContentInfo_eq hsig' (by rw [hlen]; exact isContentInfo_wrapped hsig')
  refine ⟨contentInfoHeader sig.length ++ sig, contentInfo_wrapped (by omega), ?_, ?_⟩
  · exact pkcs7FromAuth_eq ssl hne (by omega) hholds hwrap
  · rw [pkcs7FromAuth_eq ssl (by simp [hne]) (by rw [hlen]; omega) hholds' hwrap',
      pkcs7FromAuth_eq ssl hne (by omega) hholds hwrap]
    rfl

theorem length_wrappedPk : EFI_PLATFORM_KEY_NAME.length ≤ MAX_VARIABLE_NAME_SIZE ∧
    (authDescriptor EfiTime.zero (contentInfoHeader 1 ++ [0])).length ≤ MAX_VARIABLE_DATA_SIZE := by
  decide

/-- A request for PK with the ContentInfo of one byte. -/
def wrappedPk : SetRequest where
  command := COMMAND_SET_VARIABLE
  name := EFI_PLATFORM_KEY_NAME
  guid := gEfiGlobalVariableGuid
  data := authDescriptor EfiTime.zero (contentInfoHeader 1 ++ [0])
  attrs := AT_ATTRS
  atRuntime := false
  name_fits := length_wrappedPk.1
  data_fits := length_wrappedPk.2

/-- The request for PK with a signature of one byte, in either form. -/
theorem either_form_parsed_wrappedPk : ∃ out, contentInfo out = some (mOidValue, [0]) ∧
    pkcs7FromAuth OpenSsl.accepting wrappedPk.buffer =
      some ((OpenSsl.accepting.d2iPkcs7 out).filter OpenSsl.accepting.typeIsSigned) := by
  have hbare : isContentInfo (authRequest EFI_PLATFORM_KEY_NAME gEfiGlobalVariableGuid 2021 AT_ATTRS
      [] ⟨by decide, by decide⟩).buffer OFFSET_OF_AUTHINFO2_CERT_DATA [(0 : UInt8)].length =
        some false := rfl
  have hwrapped : wrappedPk.data =
      authDescriptor EfiTime.zero (contentInfoHeader [(0 : UInt8)].length ++ [0]) ++ [] :=
    (List.append_nil _).symm
  obtain ⟨out, hout, hparsed, hsame⟩ := either_form_parsed .accepting (by decide) rfl hbare hwrapped
  exact ⟨out, hout, hsame.trans hparsed⟩

end Uefistored
