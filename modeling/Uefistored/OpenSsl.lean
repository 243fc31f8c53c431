/-
# `Uefistored.OpenSsl` — the cryptographic library as an oracle, and `pkcs7_verify.c`

What OpenSSL parses, compares and verifies is outside the program, so it is a
record of arbitrary functions over two arbitrary types, the parsed PKCS#7
objects `P` and the certificates `X`.  Nothing is assumed about them; a result
that needs an assumption names it.

A request asks OpenSSL twice about the same signature: before the write
(`verify_*`) and after it (`sha256_from_auth`).  `Phase` keeps the two apart,
so that the second may fail where the first succeeded.

The functions below are those of `src/uefi/pkcs7_verify.c` and the digest of
`src/uefi/auth.c`.  An access outside the descriptor's object is `none`.

A certificate is handed to `d2i_X509` as a pointer and a length, and neither is
compared with the object it points into.  How far the parser reads is its own
affair (`readsPast`); that it reads what is not there is the program's.
-/
import Uefistored.Types

namespace Uefistored

open Lib

/-- The OpenSSL entry points the program calls. -/
structure OpenSsl (P X : Type) where
  /-- `d2i_PKCS7` -/
  d2iPkcs7 : List UInt8 → Option P
  /-- `PKCS7_type_is_signed` -/
  typeIsSigned : P → Bool
  /-- `PKCS7_get0_signers` -/
  get0Signers : P → Option (List X)
  /-- `i2d_X509` -/
  i2dX509 : X → List UInt8
  /-- `d2i_X509` on the bytes that are there and the length that is claimed -/
  d2iX509 : List UInt8 → Int → Option X
  /-- with fewer bytes there than claimed, `d2i_X509` reads behind them -/
  readsPast : List UInt8 → Int → Bool
  /-- the certificate has an RSA public key that can be copied -/
  hasRsaKey : X → Bool
  /-- the subject's common name, as the C string that is hashed -/
  commonName : X → Option (List UInt8)
  /-- `X509_get_tbs_cert` -/
  tbsCert : X → Option (List UInt8)
  /-- `SHA256_Init`, `SHA256_Update`, `SHA256_Final` -/
  sha256 : List UInt8 → Option Digest
  /-- `PKCS7_verify` with one trusted certificate -/
  verify : P → X → List UInt8 → Bool

/-- An oracle to which every signature is good and every signer has the same digest. -/
def OpenSsl.accepting : OpenSsl Unit Unit where
  d2iPkcs7 := fun _ => some ()
  typeIsSigned := fun _ => true
  get0Signers := fun _ => some [()]
  i2dX509 := fun _ => []
  d2iX509 := fun _ _ => some ()
  readsPast := fun _ _ => false
  hasRsaKey := fun _ => true
  commonName := fun _ => some []
  tbsCert := fun _ => some []
  sha256 := fun _ => some (Block.zero SHA256_DIGEST_SIZE)
  verify := fun _ _ _ => true

/-- No signature is good. -/
def OpenSsl.rejecting : OpenSsl Unit Unit :=
  { OpenSsl.accepting with verify := fun _ _ _ => false }

/-- When a request asks OpenSSL: while it is verified, or after the write. -/
inductive Phase
  | verify
  | digest
  deriving DecidableEq

/-- The conversion of a `uint64_t` to `long`. -/
def toLong (n : Nat) : Int := if n < 2 ^ 63 then n else (n : Int) - 2 ^ 64

/-! ## The authentication descriptor -/

/-- `OFFSET_OF(WIN_CERTIFICATE_UEFI_GUID, CertData)`. -/
def OFFSET_OF_CERT_DATA : Nat := 24

/-- `OFFSET_OF_AUTHINFO2_CERT_DATA`. -/
def OFFSET_OF_AUTHINFO2_CERT_DATA : Nat := 40

/-- `auth->AuthInfo.Hdr.dwLength`. -/
def dwLength (auth : Buffer) : Option Nat := auth.num 16 4

/-- `AUTHINFO2_SIZE(auth)`. -/
def authInfo2Size (auth : Buffer) : Option Nat := (dwLength auth).map (16 + ·)

/-- `sig_data_size`, a `uint32_t`. -/
def sigDataSize (auth : Buffer) : Option Nat :=
  (dwLength auth).map (sub32 · OFFSET_OF_CERT_DATA)

/-- `auth->TimeStamp`. -/
def authTimeStamp (auth : Buffer) : Option EfiTime := (auth.slice 0 16).map EfiTime.ofBytes

/-! ## `pkcs7_verify.c` -/

def mOidValue : List UInt8 := [0x2A, 0x86, 0x48, 0x86, 0xF7, 0x0D, 0x01, 0x07, 0x02]

/-- What `is_content_info` compares of the first sixteen bytes. -/
def contentInfoHead (l : List UInt8) : Bool :=
  l.getD 4 0 == 0x06 && l.getD 5 0 == 0x09 && (l.drop 6).take 9 == mOidValue && l.getD 15 0 == 0xA0

/-- `is_content_info(data + off, size)`. -/
def isContentInfo (data : Buffer) (off size : Nat) : Option Bool :=
  if size < 16 then some false
  else do
    let l ← data.slice off 16
    if !contentInfoHead l then return false
    -- read also when `size = 16`, one byte past the signature
    let next ← data.slice (off + 16) 1
    return next == [0x82]

/-- The 19 bytes in front of bare SignedData; lengths are big endian on 16 bits. -/
def contentInfoHeader (size : Nat) : List UInt8 :=
  [0x30, 0x82, UInt8.ofNat ((size + 19 - 4) / 256), UInt8.ofNat (size + 19 - 4), 0x06, 0x09] ++
    mOidValue ++ [0xA0, 0x82, UInt8.ofNat (size / 256), UInt8.ofNat size]

/-- `wrap_with_content_info(data + off, size)`. -/
def wrapWithContentInfo (data : Buffer) (off size : Nat) : Option (List UInt8) := do
  let wrapped ← isContentInfo data off size
  let sig ← data.slice off size
  return if wrapped then sig else contentInfoHeader size ++ sig

section
variable {P X : Type}

/-- `d2i_X509` at offset `off`, told a length of `size`, reads behind the object: of a positive
length it reads the first byte, and where the object ends in front of the length it may go on. -/
def readsOutside (ssl : OpenSsl P X) (b : Buffer) (off size : Nat) : Bool :=
  (b.upTo off size).length < size && decide (0 < toLong size) &&
    ((b.upTo off size).isEmpty || ssl.readsPast (b.upTo off size) (toLong size))

/-- `d2i_X509` at offset `off`, told a length of `size`. -/
def d2iX509At (ssl : OpenSsl P X) (b : Buffer) (off size : Nat) : Option (Option X) :=
  if readsOutside ssl b off size then none else some (ssl.d2iX509 (b.upTo off size) (toLong size))

/-- What the parser returns depends on the bytes that are there. -/
theorem d2iX509At_eq_some {ssl : OpenSsl P X} {b : Buffer} {off size : Nat} {r : Option X}
    (h : d2iX509At ssl b off size = some r) :
    ssl.d2iX509 (b.upTo off size) (toLong size) = r := by
  unfold d2iX509At at h
  split at h
  · cases h
  · exact Option.some.inj h

theorem d2iX509At_eq_none_iff {ssl : OpenSsl P X} {b : Buffer} {off size : Nat} :
    d2iX509At ssl b off size = none ↔ readsOutside ssl b off size = true := by
  unfold d2iX509At
  split
  · rename_i hout
    exact iff_of_true rfl hout
  · rename_i hin
    exact iff_of_false nofun hin

theorem readsOutside_of_le {ssl : OpenSsl P X} {b : Buffer} {off size : Nat}
    (h : size ≤ (b.upTo off size).length) : readsOutside ssl b off size = false := by
  unfold readsOutside
  rw [decide_eq_false (Nat.not_lt.mpr h), Bool.false_and, Bool.false_and]

/-- Inside the object it returns. -/
theorem d2iX509At_of_le {ssl : OpenSsl P X} {b : Buffer} {off size : Nat}
    (h : size ≤ (b.upTo off size).length) :
    d2iX509At ssl b off size = some (ssl.d2iX509 (b.upTo off size) (toLong size)) := by
  unfold d2iX509At
  rw [readsOutside_of_le h, if_neg Bool.false_ne_true]

/-- `pkcs7_from_auth`; `some none` is its `NULL`. -/
def pkcs7FromAuth (ssl : OpenSsl P X) (auth : Buffer) : Option (Option P) := do
  let size ← sigDataSize auth
  if size = 0 then return none
  let wrapped ← wrapWithContentInfo auth OFFSET_OF_AUTHINFO2_CERT_DATA size
  return (ssl.d2iPkcs7 wrapped).filter ssl.typeIsSigned

/-- `pkcs7_get_signers`. -/
def pkcs7GetSigners (ssl : OpenSsl P X) (pkcs7 : P) : Option (List X) :=
  if ssl.typeIsSigned pkcs7 then ssl.get0Signers pkcs7 else none

/-- `pkcs7_get_top_cert`: the last of the signers. -/
def pkcs7GetTopCert (ssl : OpenSsl P X) (pkcs7 : P) : Option X :=
  (ssl.get0Signers pkcs7).bind List.getLast?

/-- `pkcs7_verify`. -/
def pkcs7Verify (ssl : OpenSsl P X) (pkcs7 : P) (trusted : X) (msg : List UInt8) : Bool :=
  msg.length ≤ INT_MAX && ssl.typeIsSigned pkcs7 && ssl.verify pkcs7 trusted msg

/-- `sha256_priv_sig`: the digest of the signer's common name and the top-level
certificate's tbsCertificate. -/
def sha256PrivSig (ssl : OpenSsl P X) (certs : List X) (top : X) : Option Digest := do
  let signer ← certs.head?
  let name ← ssl.commonName signer
  let tbs ← ssl.tbsCert top
  ssl.sha256 (name ++ tbs)

/-- The signers of a descriptor, the last of them, and their digest: the part that
`verify_priv` and `sha256_from_auth` share. -/
def signerDigest (ssl : OpenSsl P X) (pkcs7 : P) : Option (X × Digest) := do
  let certs ← pkcs7GetSigners ssl pkcs7
  let top ← certs.getLast?
  let digest ← sha256PrivSig ssl certs top
  return (top, digest)

/-- `sha256_from_auth`; every failure is `EFI_SECURITY_VIOLATION`. -/
def sha256FromAuth (ssl : OpenSsl P X) (auth : Buffer) : Option (Except EfiStatus Digest) := do
  match ← pkcs7FromAuth ssl auth with
  | none => return .error .securityViolation
  | some pkcs7 =>
    match signerDigest ssl pkcs7 with
    | none => return .error .securityViolation
    | some (_, digest) => return .ok digest

end

end Uefistored
