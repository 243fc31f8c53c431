/-
# `Uefistored.Auth` — authenticated variables

`src/uefi/auth.c`: the four `verify_*` functions, the check of a descriptor and
the update behind it, and the platform mode.

The state is a `Machine`: the store and the statics `setup_mode`,
`secure_boot_enabled` and `efi_at_runtime`.  Two fields are not in the source.
`persistent` is what `backend_set` last saved, and `calls` is the record of the
`verify_*` calls of the current request, with the message each was handed and
what it returned.  No function reads either of them.

`auth_enforce` is true: nothing in the program changes it.  The caller's data
is a `Buffer` that is handed back, since `FilterSignatureList` rewrites it in
place and the second attempt of `auth_lib_process_variable` reads it again.

Functions are `Option`s, with `none` for an access outside an object and for a
loop that does not end, as in `Uefistored.SigList`.  `malloc` fails exactly for
sizes of `2 ^ 63` and more.
-/
import Uefistored.SigList
import Uefistored.Storage

namespace Uefistored

open Lib

/-- `AUTH_VAR_TYPE`. -/
inductive AuthVarType
  | pk
  | kek
  | priv
  | payload
  deriving DecidableEq, Repr

/-- `USER_MODE` and `SETUP_MODE`. -/
inductive PlatformMode
  | user
  | setup
  deriving DecidableEq, Repr

/-- One call of a `verify_*` function: the message it was handed and what it returned. -/
structure VerifyCall where
  kind : AuthVarType
  message : List UInt8
  result : Bool
  deriving DecidableEq

/-- A variable as it is saved: name, GUID, attributes and data. -/
structure Saved where
  name : List UInt8
  guid : Guid
  attrs : Attrs
  data : List UInt8
  deriving DecidableEq

/-- The statics of the program. -/
structure Machine where
  storage : Storage
  setupMode : PlatformMode
  secureBootEnabled : Bool
  efiAtRuntime : Bool
  persistent : List Saved
  calls : List VerifyCall

/-- What a function leaves: its status, the state, and the caller's data. -/
structure Outcome where
  status : EfiStatus
  machine : Machine
  data : Buffer

def pkKey : Key := Key.of EFI_PLATFORM_KEY_NAME gEfiGlobalVariableGuid
def kekKey : Key := Key.of EFI_KEY_EXCHANGE_KEY_NAME gEfiGlobalVariableGuid
def dbKey : Key := Key.of EFI_IMAGE_SECURITY_DATABASE gEfiImageSecurityDatabaseGuid
def dbxKey : Key := Key.of EFI_IMAGE_SECURITY_DATABASE1 gEfiImageSecurityDatabaseGuid
def dbtKey : Key := Key.of EFI_IMAGE_SECURITY_DATABASE2 gEfiImageSecurityDatabaseGuid

section
variable {P X : Type}

/-! ## The platform mode -/

def secureBootKey : Key := Key.of EFI_SECURE_BOOT_MODE_NAME gEfiGlobalVariableGuid
def setupModeKey : Key := Key.of EFI_SETUP_MODE_NAME gEfiGlobalVariableGuid
def deployedModeKey : Key := Key.of EFI_DEPLOYED_MODE_NAME gEfiGlobalVariableGuid

/-- The three variables `update_platform_mode` writes, and their values. -/
def modeVariables (secureBootEnabled : Bool) : PlatformMode → List (Key × UInt8)
  | .user => [(secureBootKey, if secureBootEnabled then 1 else 0), (setupModeKey, 0),
      (deployedModeKey, 0)]
  | .setup => [(secureBootKey, 0), (setupModeKey, 1), (deployedModeKey, 1)]

/-- The writes of `update_platform_mode`, one after the other until one fails. -/
def setModeVariables (s : Storage) : List (Key × UInt8) → EfiStatus × Storage
  | [] => (.success, s)
  | (k, value) :: rest =>
    match storageSet s k (some [value]) RT_BS_ATTRS with
    | (.success, s) => setModeVariables s rest
    | (status, s) => (status, s)

/-- `update_platform_mode`. -/
def updatePlatformMode (m : Machine) (mode : PlatformMode) : EfiStatus × Machine :=
  let r := setModeVariables m.storage (modeVariables m.secureBootEnabled mode)
  (r.1, { m with setupMode := mode, storage := r.2 })

/-! ## The `verify_*` functions -/

/-- `verify_payload`: the certificate is the one in the payload at `off`. -/
def verifyPayload (ssl : OpenSsl P X) (auth : Buffer) (off : Nat) (msg : List UInt8) :
    Option Bool := do
  let hsz ← SigList.headerSize auth off
  let ssz ← SigList.signatureSize auth off
  match ← d2iX509At ssl auth (off + ESL_SIZE + hsz + GUID_SIZE) (sub64 ssz GUID_SIZE) with
  | none => return false
  | some trusted =>
    match ← pkcs7FromAuth ssl auth with
    | none => return false
    | some pkcs7 => return pkcs7Verify ssl pkcs7 trusted msg

/-- `verify_priv`: an existing variable's `cert` must be the digest of the signers. -/
def verifyPriv (ssl : OpenSsl P X) (s : Storage) (k : Key) (auth : Buffer) (msg : List UInt8) :
    Option Bool := do
  match ← pkcs7FromAuth ssl auth with
  | none => return false
  | some pkcs7 =>
    match signerDigest ssl pkcs7 with
    | none => return false
    | some (top, digest) =>
      if (storageFindVariable s k).any (fun v => v.cert ≠ digest) then return false
      return pkcs7Verify ssl pkcs7 top msg

/-- `verify_pk`: the top certificate must be the one stored as PK. -/
def verifyPk (ssl : OpenSsl P X) (s : Storage) (auth : Buffer) (msg : List UInt8) :
    Option Bool := do
  match ← pkcs7FromAuth ssl auth with
  | none => return false
  | some pkcs7 =>
    match pkcs7GetTopCert ssl pkcs7 with
    | none => return false
    | some top =>
      match storageFindVariable s pkKey with
      | none => return false
      | some v =>
        if v.data = [] then return false
        let same ← certEqualsEsl (ssl.i2dX509 top) (Buffer.ofList v.data)
        return same && pkcs7Verify ssl pkcs7 top msg

/-- `verify_kek`: any certificate in KEK. -/
def verifyKek (ssl : OpenSsl P X) (s : Storage) (auth : Buffer) (msg : List UInt8) :
    Option Bool :=
  match storageFindVariable s kekKey with
  | none => some false
  | some v => do
    match ← pkcs7FromAuth ssl auth with
    | none => return false
    | some pkcs7 => kekLists ssl (Buffer.ofList v.data) pkcs7 msg (v.datasz + 1) 0 v.datasz

/-- The dispatch of `verify_time_based_payload`. -/
def verifyBy (ssl : OpenSsl P X) (s : Storage) (k : Key) (auth : Buffer) (off : Nat)
    (msg : List UInt8) : AuthVarType → Option Bool
  | .pk => verifyPk ssl s auth msg
  | .payload => verifyPayload ssl auth off msg
  | .kek => verifyKek ssl s auth msg
  | .priv => verifyPriv ssl s k auth msg

/-! ## `verify_time_based_payload` -/

def sha256Oid : List UInt8 := [0x60, 0x86, 0x48, 0x01, 0x65, 0x03, 0x04, 0x02, 0x01]
def TWO_BYTE_ENCODE : UInt8 := 0x82
def WIN_CERT_TYPE_EFI_GUID : Nat := 0x0EF1

/-- The serialisation that is signed: the name up to its first NUL, GUID, attributes,
TimeStamp and the new value. -/
def signedMessage (k : Key) (attrs : Attrs) (stamp payload : List UInt8) : List UInt8 :=
  k.name.bytes.take (strlen16 k.name.bytes * 2) ++ k.guid.bytes ++ leBytes 4 attrs.toNat ++
    stamp ++ payload

/-- The components of a TimeStamp that must be zero. -/
def EfiTime.wellFormed (t : EfiTime) : Bool :=
  t.pad1 == 0 && t.nanosecond == 0 && t.timeZone == 0 && t.daylight == 0 && t.pad2 == 0

/-- Only SHA-256 is accepted, where the signature is long enough to tell. -/
def sha256Used (wrapped : List UInt8) : Bool :=
  wrapped.length < 32 + 9 ||
    (wrapped.getD 1 0 &&& TWO_BYTE_ENCODE == TWO_BYTE_ENCODE &&
      (wrapped.drop 32).take 9 == sha256Oid)

/-- `AuthInfo` is a PKCS#7 certificate of the UEFI kind. -/
def authInfoOk (data : Buffer) : Option Bool := do
  let certType ← data.num 22 2
  if certType ≠ WIN_CERT_TYPE_EFI_GUID then return false
  let guid ← data.slice 24 16
  return guid == gEfiCertPkcs7Guid.bytes

/-- The checks of `verify_time_based_payload` in front of the signature: offset and size
of the payload and the message to verify, or the status they fail with. -/
def checkDescriptor (k : Key) (data : Buffer) (dataSize : Nat) (attrs : Attrs)
    (orgTimeStamp : Option EfiTime) : Option (Except EfiStatus (Nat × Nat × List UInt8)) := do
  let stamp ← data.slice 0 16
  let time := EfiTime.ofBytes stamp
  if !time.wellFormed then return .error .securityViolation
  if orgTimeStamp.any (time.compareTimestamp ·) && !attrs.append then
    return .error .securityViolation
  let ok ← authInfoOk data
  if !ok then return .error .securityViolation
  let sigSize ← sigDataSize data
  let wrapped ← wrapWithContentInfo data OFFSET_OF_AUTHINFO2_CERT_DATA sigSize
  if attrs.timeBased && !sha256Used wrapped then return .error .securityViolation
  let off := OFFSET_OF_AUTHINFO2_CERT_DATA + sigSize
  let size := sub64 (sub64 dataSize OFFSET_OF_AUTHINFO2_CERT_DATA) sigSize
  if (size + 16 + 4 + 16 + strsize16 k.name.bytes) % 2 ^ 64 ≥ 2 ^ 63 then
    return .error .outOfResources
  let payload ← data.slice off size
  return .ok (off, size, signedMessage k attrs stamp payload)

/-- `verify_time_based_payload`: the calls it made, and offset and size of the payload. -/
def verifyTimeBasedPayload (ssl : OpenSsl P X) (s : Storage) (k : Key) (data : Buffer)
    (dataSize : Nat) (attrs : Attrs) (kind : AuthVarType) (orgTimeStamp : Option EfiTime) :
    Option (List VerifyCall × Except EfiStatus (Nat × Nat)) := do
  match ← checkDescriptor k data dataSize attrs orgTimeStamp with
  | .error status => return ([], .error status)
  | .ok (off, size, msg) =>
    let ok ← verifyBy ssl s k data off msg kind
    if !ok then return ([⟨kind, msg, false⟩], .error .securityViolation)
    let status ← checkSignatureListFormat ssl k.name k.guid data off size
    if status ≠ .success then return ([⟨kind, msg, true⟩], .error status)
    return ([⟨kind, msg, true⟩], .ok (off, size))

/-! ## The update -/

/-- The macro `is_var`. -/
def isVar (v : Variable) (str : List UInt8) : Bool :=
  v.namesz == str.length && v.name.bytes.take v.namesz == str

/-- The variables whose appends are filtered. -/
def isSigListVariable (v : Variable) : Bool :=
  (v.guid == gEfiImageSecurityDatabaseGuid &&
      (isVar v EFI_IMAGE_SECURITY_DATABASE || isVar v EFI_IMAGE_SECURITY_DATABASE1 ||
        isVar v EFI_IMAGE_SECURITY_DATABASE2)) ||
    (v.guid == gEfiGlobalVariableGuid && isVar v EFI_KEY_EXCHANGE_KEY_NAME)

/-- The call of `storage_set_with_timestamp` on the payload at `off`. -/
def storePayload (s : Storage) (k : Key) (data : Buffer) (off size : Nat) (attrs : Attrs)
    (time : EfiTime) : Option (EfiStatus × Storage × Buffer) := do
  let payload ← data.slice off size
  let r := storageSetWithTimestamp s k (some payload) attrs time
  return (r.1, r.2, data)

/-- `auth_internal_update_variable_with_timestamp`. -/
def authInternalUpdateVariableWithTimestamp (s : Storage) (k : Key) (data : Buffer)
    (off size : Nat) (attrs : Attrs) (time : EfiTime) :
    Option (EfiStatus × Storage × Buffer) :=
  match (storageFindVariable s k).filter (fun v => attrs.append && isSigListVariable v) with
  | none => storePayload s k data off size attrs time
  | some v => do
    let (data, size) ← filterSignatureList v.data data off size
    if size = 0 then return (.success, s, data)
    storePayload s k data off size attrs time

/-- `verify_time_based_payload_and_update`; the `Bool` is `*var_del`, false where the
source leaves it as the caller set it. -/
def verifyTimeBasedPayloadAndUpdate (ssl : Phase → OpenSsl P X) (m : Machine) (k : Key)
    (data : Buffer) (dataSize : Nat) (attrs : Attrs) (kind : AuthVarType) :
    Option (Outcome × Bool) := do
  let found := storageFindVariable m.storage k
  let (calls, verdict) ← verifyTimeBasedPayload (ssl .verify) m.storage k data dataSize attrs
    kind (found.map (·.timestamp))
  let m := { m with calls := m.calls ++ calls }
  match verdict with
  | .error status => return (⟨status, m, data⟩, false)
  | .ok (off, size) =>
    let isDel := found.isSome && size == 0 && !attrs.append
    let time ← authTimeStamp data
    let (status, s, data) ←
      authInternalUpdateVariableWithTimestamp m.storage k data off size attrs time
    let m := { m with storage := s }
    if status == .success && !isDel then
      match s.findSlot k with
      | none => return (⟨.notFound, m, data⟩, false)
      | some i =>
        match ← sha256FromAuth (ssl .digest) data with
        | .error status => return (⟨status, m, data⟩, false)
        | .ok digest =>
          let s := s.setSlot i { s.vars i with cert := digest }
          return (⟨.success, { m with storage := s }, data⟩, false)
    else return (⟨status, m, data⟩, isDel && status == .success)

/-! ## The three ways to process a variable -/

/-- The branch for setup mode that `process_var_with_pk` and `process_var_with_kek` share:
no authentication, only the format of the payload. -/
def updateInSetupMode (ssl : OpenSsl P X) (m : Machine) (k : Key) (data : Buffer)
    (dataSize : Nat) (attrs : Attrs) : Option Outcome := do
  let off ← authInfo2Size data
  let size := sub64 dataSize off
  let status ← checkSignatureListFormat ssl k.name k.guid data off size
  if status ≠ .success then return ⟨status, m, data⟩
  let time ← authTimeStamp data
  let (status, s, data) ←
    authInternalUpdateVariableWithTimestamp m.storage k data off size attrs time
  return ⟨status, { m with storage := s }, data⟩

/-- The end of `process_var_with_pk` for PK itself: the mode follows the key. -/
def followPk (o : Outcome) (del : Bool) : Outcome :=
  if o.status ≠ .success then o
  else
    match o.machine.setupMode, del with
    | .setup, false =>
      let r := updatePlatformMode o.machine .user
      ⟨r.1, r.2, o.data⟩
    | .user, true =>
      let r := updatePlatformMode o.machine .setup
      ⟨r.1, r.2, o.data⟩
    | _, _ => o

/-- `process_var_with_pk`. -/
def processVarWithPk (ssl : Phase → OpenSsl P X) (m : Machine) (k : Key) (data : Buffer)
    (dataSize : Nat) (attrs : Attrs) (isPk : Bool) : Option Outcome :=
  if !attrs.nonVolatile || !attrs.timeBased then some ⟨.invalidParameter, m, data⟩
  else
    match m.setupMode, isPk with
    | .setup, true => do
      let (o, del) ← verifyTimeBasedPayloadAndUpdate ssl m k data dataSize attrs .payload
      return followPk o del
    | .setup, false => updateInSetupMode (ssl .verify) m k data dataSize attrs
    | .user, isPk => do
      let (o, del) ← verifyTimeBasedPayloadAndUpdate ssl m k data dataSize attrs .pk
      return if isPk then followPk o del else o

/-- `process_var_with_kek`. -/
def processVarWithKek (ssl : Phase → OpenSsl P X) (m : Machine) (k : Key) (data : Buffer)
    (dataSize : Nat) (attrs : Attrs) : Option Outcome :=
  if !attrs.nonVolatile || !attrs.timeBased then some ⟨.invalidParameter, m, data⟩
  else
    match m.setupMode with
    | .user => do
      let (o, _) ← verifyTimeBasedPayloadAndUpdate ssl m k data dataSize attrs .kek
      return o
    | .setup => updateInSetupMode (ssl .verify) m k data dataSize attrs

/-- `AUTHINFO_SIZE`. -/
def AUTHINFO_SIZE : Nat := 8 + OFFSET_OF_CERT_DATA + 528

/-- `is_delete_auth_variable`. -/
def isDeleteAuthVariable (orgAttrs : Attrs) (data : Buffer) (dataSize : Nat) (attrs : Attrs) :
    Option Bool :=
  if attrs == orgAttrs && (attrs.has EFI_VARIABLE_AUTHENTICATED_WRITE_ACCESS ||
      attrs.timeBased) then
    if attrs.timeBased then do
      let off ← authInfo2Size data
      return sub64 dataSize off == 0
    else some (sub64 dataSize AUTHINFO_SIZE == 0)
  else some false

/-- The first condition of `process_variable`: the variable is there, and the request is
the one to delete it. -/
def deletesByDescriptor (s : Storage) (k : Key) (data : Buffer) (dataSize : Nat)
    (attrs : Attrs) : Option Bool :=
  match storageFindVariable s k with
  | some v => isDeleteAuthVariable v.attrs data dataSize attrs
  | none => some false

/-- `process_variable`.  The test for an already write-protected variable looks at
`org_variable_info`, which nothing fills in, so it never holds. -/
def processVariable (ssl : Phase → OpenSsl P X) (m : Machine) (k : Key) (data : Buffer)
    (dataSize : Nat) (attrs : Attrs) : Option Outcome := do
  let del ← deletesByDescriptor m.storage k data dataSize attrs
  if del then
    let r := storageSet m.storage k none 0
    return ⟨r.1, { m with storage := r.2 }, data⟩
  if attrs.has EFI_VARIABLE_AUTHENTICATED_WRITE_ACCESS then return ⟨.unsupported, m, data⟩
  if attrs.timeBased then
    let (o, _) ← verifyTimeBasedPayloadAndUpdate ssl m k data dataSize attrs .priv
    return o
  let payload ← data.slice 0 dataSize
  let r := storageSet m.storage k (some payload) attrs
  return ⟨r.1, { m with storage := r.2 }, data⟩

end

end Uefistored
