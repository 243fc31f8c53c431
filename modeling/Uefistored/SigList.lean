/-
# `Uefistored.SigList` — walks over EFI_SIGNATURE_LISTs

The functions of `src/uefi/auth.c` that step through concatenated
`EFI_SIGNATURE_LIST`s: `check_signature_list_format`, `FilterSignatureList`,
the loop of `verify_kek`, and `cert_equals_esl`.

A list is read in place, field by field, as the loops do: type at offset 0,
`SignatureListSize` at 16, `SignatureHeaderSize` at 20, `SignatureSize` at 24,
the first entry behind the header at 28.  Differences of sizes are taken in
`uint64_t`, as the mix of `uint32_t` and `sizeof` makes them.

Every walk is an `Option`.  `none` stands for what C gives no meaning to or
never returns from: a read outside the object, a division by a zero
`SignatureSize`, a write past the temporary buffer, and a list of size zero,
on which the loops stay for ever.  A list of positive size consumes a byte of
the data, so a fuel of one more than the data is always enough.
-/
import Uefistored.OpenSsl
import Uefistored.Variable

namespace Uefistored

open Lib

/-- `sizeof(EFI_SIGNATURE_LIST)`. -/
def ESL_SIZE : Nat := 28

/-- `sizeof(EFI_GUID)`, the owner in front of each entry's data. -/
def GUID_SIZE : Nat := 16

namespace SigList

/-- `list->SignatureType`. -/
def signatureType (b : Buffer) (pos : Nat) : Option Guid := (b.slice pos 16).map (Block.ofList 16)

/-- `list->SignatureListSize`. -/
def signatureListSize (b : Buffer) (pos : Nat) : Option Nat := b.num (pos + 16) 4

/-- `list->SignatureHeaderSize`. -/
def headerSize (b : Buffer) (pos : Nat) : Option Nat := b.num (pos + 20) 4

/-- `list->SignatureSize`. -/
def signatureSize (b : Buffer) (pos : Nat) : Option Nat := b.num (pos + 24) 4

/-- `SignatureListSize - sizeof(EFI_SIGNATURE_LIST) - SignatureHeaderSize`. -/
def bodySize (listSize headerSize : Nat) : Nat := sub64 (sub64 listSize ESL_SIZE) headerSize

/-- The number of entries, a quotient; `none` divides by zero. -/
def entryCount (listSize headerSize signatureSize : Nat) : Option Nat :=
  if signatureSize = 0 then none else some (bodySize listSize headerSize / signatureSize)

end SigList

open SigList

section
variable {P X : Type}

/-! ## `check_signature_list_format` -/

/-- `EFI_SIGNATURE_ITEM`. -/
structure SignatureItem where
  sigType : Guid
  sigHeaderSize : Nat
  sigDataSize : Nat

/-- `(uint32_t)~0`: no requirement. -/
def ANY_SIZE : Nat := 2 ^ 32 - 1

def supportedSigs : List SignatureItem :=
  [⟨EFI_CERT_SHA256_GUID, 0, 32⟩,
   ⟨EFI_CERT_RSA2048_GUID, 0, 256⟩,
   ⟨EFI_CERT_RSA2048_SHA256_GUID, 0, 256⟩,
   ⟨EFI_CERT_SHA1_GUID, 0, 20⟩,
   ⟨EFI_CERT_RSA2048_SHA1_GUID, 0, 256⟩,
   ⟨gEfiCertX509Guid, 0, ANY_SIZE⟩,
   ⟨EFI_CERT_SHA224_GUID, 0, 28⟩,
   ⟨EFI_CERT_SHA384_GUID, 0, 48⟩,
   ⟨EFI_CERT_SHA512_GUID, 0, 64⟩,
   ⟨EFI_CERT_X509_SHA256_GUID, 0, 48⟩,
   ⟨EFI_CERT_X509_SHA384_GUID, 0, 64⟩,
   ⟨EFI_CERT_X509_SHA512_GUID, 0, 80⟩]

/-- The two size checks of the loop over `supported_sigs`, at the item of the list's type. -/
def sigItemOk (b : Buffer) (pos : Nat) (item : SignatureItem) : Option Bool := do
  let ssz ← if item.sigDataSize = ANY_SIZE then some 0 else signatureSize b pos
  if item.sigDataSize ≠ ANY_SIZE && sub64 ssz GUID_SIZE ≠ item.sigDataSize then return false
  if item.sigHeaderSize = ANY_SIZE then return true
  let hsz ← headerSize b pos
  return hsz == item.sigHeaderSize

/-- The loop over `supported_sigs`: the first item of the type decides, and an undefined
type fails. -/
def supportedSig (b : Buffer) (pos : Nat) (ty : Guid) : Option Bool :=
  match supportedSigs.find? (fun item => item.sigType == ty) with
  | none => some false
  | some item => sigItemOk b pos item

/-- `rsa_get_pub_key_from_x509`, on the bytes at `off` and the length it is told. -/
def rsaGetPubKeyFromX509 (ssl : OpenSsl P X) (b : Buffer) (off certSize : Nat) : Option Bool :=
  if INT_MAX < certSize then some false
  else (d2iX509At ssl b off certSize).map (·.any ssl.hasRsaKey)

/-- The look of `check_signature_list_format` at the first entry of a list of certificates. -/
def certChecked (ssl : OpenSsl P X) (b : Buffer) (pos : Nat) (ty : Guid) (hsz ssz : Nat) :
    Option Bool :=
  if ty == gEfiCertX509Guid then
    rsaGetPubKeyFromX509 ssl b (pos + ESL_SIZE + hsz + GUID_SIZE) (sub64 ssz GUID_SIZE)
  else some true

/-- The loop of `check_signature_list_format`: `.error` for a return from inside it, the
end position and the number of signatures (a `uint32_t`) otherwise. -/
def formatWalk (ssl : OpenSsl P X) (b : Buffer) :
    Nat → Nat → Nat → Nat → Option (Except EfiStatus (Nat × Nat))
  | 0, _, _, _ => none
  | fuel + 1, pos, left, count =>
    if left = 0 then some (.ok (pos, count))
    else do
      let lsz ← signatureListSize b pos
      if left < lsz then return .ok (pos, count)
      let ty ← signatureType b pos
      let supported ← supportedSig b pos ty
      if !supported then return .error .invalidParameter
      let hsz ← headerSize b pos
      let ssz ← signatureSize b pos
      let certOk ← certChecked ssl b pos ty hsz ssz
      if !certOk then return .error .invalidParameter
      let entries ← entryCount lsz hsz ssz
      if bodySize lsz hsz % ssz ≠ 0 then return .error .invalidParameter
      if lsz = 0 then none
      else formatWalk ssl b fuel (pos + lsz) (left - lsz) ((count + entries) % 2 ^ 32)

/-- Which of the two branches of `check_signature_list_format` a name takes; `none` for
the names it lets pass unchecked. -/
def formatKind (name : NameArray) (guid : Guid) : Option Bool :=
  if guid == gEfiGlobalVariableGuid && strcmp16 name (nameArray EFI_PLATFORM_KEY_NAME) then
    some true
  else if (guid == gEfiGlobalVariableGuid && strcmp16 name (nameArray EFI_KEY_EXCHANGE_KEY_NAME)) ||
      (guid == gEfiImageSecurityDatabaseGuid &&
        (strcmp16 name (nameArray EFI_IMAGE_SECURITY_DATABASE) ||
          strcmp16 name (nameArray EFI_IMAGE_SECURITY_DATABASE1) ||
          strcmp16 name (nameArray EFI_IMAGE_SECURITY_DATABASE2))) then
    some false
  else none

/-- `check_signature_list_format(name, guid, data + off, size)`. -/
def checkSignatureListFormat (ssl : OpenSsl P X) (name : NameArray) (guid : Guid)
    (data : Buffer) (off size : Nat) : Option EfiStatus :=
  if size = 0 then some .success
  else
    match formatKind name guid with
    | none => some .success
    | some isPk => do
      match ← formatWalk ssl data (size + 1) off size 0 with
      | .error status => return status
      | .ok (stop, count) =>
        if stop - off ≠ size then return .invalidParameter
        else if isPk && count > 1 then return .invalidParameter
        else return .success

/-! ## `FilterSignatureList` -/

/-- The loop over `j`: is `entry` among the `count` entries of size `ssz` from `pos` on? -/
def entryAmong (old : Buffer) (entry : List UInt8) (ssz : Nat) : Nat → Nat → Option Bool
  | 0, _ => some false
  | count + 1, pos => do
    let cert ← old.slice pos ssz
    if cert == entry then return true
    entryAmong old entry ssz count (pos + ssz)

/-- The inner `while` over the old lists: is the entry already there? -/
def entryKnown (old : Buffer) (ty : Guid) (entry : List UInt8) :
    Nat → Nat → Nat → Option Bool
  | 0, _, _ => none
  | fuel + 1, pos, left =>
    if left = 0 then some false
    else do
      let lsz ← signatureListSize old pos
      if left < lsz then return false
      let oty ← signatureType old pos
      let ssz ← if oty == ty then signatureSize old pos else some 0
      let known ←
        if oty == ty && ssz == entry.length then do
          let hsz ← headerSize old pos
          let count ← entryCount lsz hsz ssz
          entryAmong old entry ssz count (pos + ESL_SIZE + hsz)
        else some false
      if known then return true
      if lsz = 0 then none
      else entryKnown old ty entry fuel (pos + lsz) (left - lsz)

/-- Writing behind `tail` in a temporary buffer of `cap` bytes. -/
def pushTail (cap : Nat) (tail src : List UInt8) : Option (List UInt8) :=
  if tail.length + src.length ≤ cap then some (tail ++ src) else none

/-- The loop over `i`: the entries of one new list, the new ones copied behind `tail`.
Returns the new tail and `CopiedCount`. -/
def filterEntries (old new : Buffer) (oldSize cap : Nat) (ty : Guid) (listPos hsz ssz : Nat) :
    Nat → Nat → List UInt8 → Nat → Option (List UInt8 × Nat)
  | 0, _, tail, copied => some (tail, copied)
  | count + 1, pos, tail, copied => do
    let entry ← new.slice pos ssz
    let known ← entryKnown old ty entry (oldSize + 1) 0 oldSize
    if known then
      filterEntries old new oldSize cap ty listPos hsz ssz count (pos + ssz) tail copied
    else
      -- the list header goes in front of the first entry that is kept
      let header ← if copied = 0 then new.slice listPos (ESL_SIZE + hsz) else some []
      let tail ← pushTail cap tail header
      let tail ← pushTail cap tail entry
      filterEntries old new oldSize cap ty listPos hsz ssz count (pos + ssz) tail (copied + 1)

/-- `certList->SignatureListSize = (uint32_t)SignatureListSize` in the list of `size`
bytes at the end of `tail`. -/
def patchListSize (tail : List UInt8) (size : Nat) : List UInt8 :=
  tail.take (tail.length - size + 16) ++ leBytes 4 size ++
    tail.drop (tail.length - size + 16 + 4)

/-- The outer `while` over the new lists. -/
def filterLists (old new : Buffer) (oldSize cap : Nat) :
    Nat → Nat → Nat → List UInt8 → Option (List UInt8)
  | 0, _, _, _ => none
  | fuel + 1, pos, left, tail =>
    if left = 0 then some tail
    else do
      let lsz ← signatureListSize new pos
      if left < lsz then return tail
      let ty ← signatureType new pos
      let hsz ← headerSize new pos
      let ssz ← signatureSize new pos
      let count ← entryCount lsz hsz ssz
      let (tail, copied) ← filterEntries old new oldSize cap ty pos hsz ssz count
        (pos + ESL_SIZE + hsz) tail 0
      let tail := if copied = 0 then tail else patchListSize tail (ESL_SIZE + hsz + copied * ssz)
      if lsz = 0 then none
      else filterLists old new oldSize cap fuel (pos + lsz) (left - lsz) tail

/-- `FilterSignatureList(old, |old|, new + off, &size)`: the new data, filtered in place,
and its new size. -/
def filterSignatureList (old : List UInt8) (new : Buffer) (off size : Nat) :
    Option (Buffer × Nat) :=
  if size = 0 then some (new, 0)
  else do
    let tail ← filterLists (Buffer.ofList old) new old.length size (size + 1) off size []
    let new ← new.write off tail
    return (new, tail.length)

/-! ## Certificates in stored lists -/

/-- `cert_equals_esl`. -/
def certEqualsEsl (certDer : List UInt8) (oldEsl : Buffer) : Option Bool := do
  let hsz ← headerSize oldEsl 0
  let ssz ← signatureSize oldEsl 0
  if certDer.length ≠ sub64 ssz GUID_SIZE then return false
  let old ← oldEsl.slice (ESL_SIZE + hsz + GUID_SIZE) certDer.length
  return old == certDer

/-- The `for` loop of `verify_kek` over one list.  An entry that does not parse is
tried again at the same place: `continue` skips the step to the next entry. -/
def kekEntries (ssl : OpenSsl P X) (kek : Buffer) (pkcs7 : P) (msg : List UInt8) (ssz : Nat) :
    Nat → Nat → Option Bool
  | 0, _ => some false
  | count + 1, pos => do
    match ← d2iX509At ssl kek (pos + GUID_SIZE) (sub64 ssz GUID_SIZE) with
    | none => kekEntries ssl kek pkcs7 msg ssz count pos
    | some trusted =>
      if pkcs7Verify ssl pkcs7 trusted msg then return true
      kekEntries ssl kek pkcs7 msg ssz count (pos + ssz)

/-- The `while` loop of `verify_kek` over the lists of KEK. -/
def kekLists (ssl : OpenSsl P X) (kek : Buffer) (pkcs7 : P) (msg : List UInt8) :
    Nat → Nat → Nat → Option Bool
  | 0, _, _ => none
  | fuel + 1, pos, left =>
    if left = 0 then some false
    else do
      let lsz ← signatureListSize kek pos
      if left < lsz then return false
      let ty ← signatureType kek pos
      let found ←
        if ty == gEfiCertX509Guid then do
          let hsz ← headerSize kek pos
          let ssz ← signatureSize kek pos
          let count ← entryCount lsz hsz ssz
          kekEntries ssl kek pkcs7 msg ssz count (pos + ESL_SIZE + hsz)
        else some false
      if found then return true
      if lsz = 0 then none
      else kekLists ssl kek pkcs7 msg fuel (pos + lsz) (left - lsz)

end

end Uefistored
