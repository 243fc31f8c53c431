/-
# `Uefistored.AuthLib` — dispatch and start-up

`src/uefi/authlib.c` and `src/uefi/utils.c`: which of the three ways a variable
is processed, and `auth_lib_initialize`, which sets the mode variables and
enrols the keys found on disk.

The two name tests are not the same.  `is_secure_boot_variable` compares the
size it is told and that many bytes; `auth_lib_process_variable` compares with
`strcmp16`, up to the first NUL unit.
-/
import Uefistored.Auth

namespace Uefistored

open Lib

/-! ## `utils.c` -/

/-- `namesz == sizeof_wchar(str) && memcmp(name, str, namesz) == 0`. -/
def sameBytes (k : Key) (str : List UInt8) : Bool :=
  k.namesz == str.length && k.name.bytes.take k.namesz == str

/-- `is_secure_boot_variable`. -/
def isSecureBootVariable (k : Key) : Bool :=
  if k.guid == gEfiGlobalVariableGuid then
    sameBytes k EFI_PLATFORM_KEY_NAME || sameBytes k EFI_KEY_EXCHANGE_KEY_NAME
  else if k.guid == gEfiImageSecurityDatabaseGuid then
    sameBytes k EFI_IMAGE_SECURITY_DATABASE || sameBytes k EFI_IMAGE_SECURITY_DATABASE1 ||
      sameBytes k EFI_IMAGE_SECURITY_DATABASE2
  else false

/-! ## `auth_lib_process_variable` -/

/-- The three groups of variables. -/
inductive VariableClass
  | pk
  | kek
  | db
  | other
  deriving DecidableEq, Repr

/-- The conditions of `auth_lib_process_variable`, in its order. -/
def variableClass (k : Key) : VariableClass :=
  if k.guid == gEfiGlobalVariableGuid && strcmp16 k.name (nameArray EFI_PLATFORM_KEY_NAME) then
    .pk
  else if k.guid == gEfiGlobalVariableGuid &&
      strcmp16 k.name (nameArray EFI_KEY_EXCHANGE_KEY_NAME) then
    .kek
  else if k.guid == gEfiImageSecurityDatabaseGuid &&
      (strcmp16 k.name (nameArray EFI_IMAGE_SECURITY_DATABASE) ||
        strcmp16 k.name (nameArray EFI_IMAGE_SECURITY_DATABASE1) ||
        strcmp16 k.name (nameArray EFI_IMAGE_SECURITY_DATABASE2)) then
    .db
  else .other

section
variable {P X : Type}

/-- `auth_lib_process_variable`. -/
def authLibProcessVariable (ssl : Phase → OpenSsl P X) (m : Machine) (k : Key) (data : Buffer)
    (dataSize : Nat) (attrs : Attrs) : Option Outcome :=
  match variableClass k with
  | .pk => processVarWithPk ssl m k data dataSize attrs true
  | .kek => processVarWithPk ssl m k data dataSize attrs false
  | .db => do
    let o ← processVarWithPk ssl m k data dataSize attrs false
    if o.status ≠ .success then processVarWithKek ssl o.machine k o.data dataSize attrs
    else return o
  | .other => processVariable ssl m k data dataSize attrs

/-! ## Start-up -/

/-- `struct auth_data`: a key file, with the data it was loaded with.  A file that is not
there, and an empty one, leave no data. -/
structure AuthData where
  key : Key
  attrs : Attrs
  data : List UInt8

/-- `auth_files` of `uefistored.c`, with the contents of the four files. -/
def authFiles (db dbx kek pk : List UInt8) : List AuthData :=
  [⟨dbKey, AT_ATTRS, db⟩, ⟨dbxKey, AT_ATTRS, dbx⟩, ⟨kekKey, AT_ATTRS, kek⟩,
   ⟨pkKey, AT_ATTRS, pk⟩]

/-- What `load_auth` meets on disk. -/
inductive AuthFile
  /-- `stat` fails. -/
  | missing
  /-- `open` fails. -/
  | unopened
  /-- `read` fails.  `data` keeps pointing to the freed memory and `datasz` keeps the size of
  the file; `left` is what is found there later. -/
  | unread (left : List UInt8)
  | contents (bytes : List UInt8)
  deriving DecidableEq

/-- `load_auth`: whether it returns 0, and the entry.  `none` is the failed assertion on the
size.  `malloc` does not fail, on size 0 either. -/
def loadAuth (auth : AuthData) : AuthFile → Option (Bool × AuthData)
  | .missing => some (false, auth)
  | .unopened => some (false, auth)
  | .unread left =>
    if left.length < MAX_VARIABLE_DATA_SIZE then some (false, { auth with data := left }) else none
  | .contents bytes =>
    if bytes.length < MAX_VARIABLE_DATA_SIZE then some (true, { auth with data := bytes }) else none

/-- The loop of `auth_lib_load`; the `Bool` is `skip_pk`. -/
def authLibLoad : Bool → List (AuthData × AuthFile) → Option (List AuthData)
  | _, [] => some []
  | skipPk, (auth, file) :: rest =>
    if skipPk && strcmp16 auth.key.name (nameArray EFI_PLATFORM_KEY_NAME) then do
      let rest ← authLibLoad skipPk rest
      return auth :: rest
    else do
      let (ok, auth) ← loadAuth auth file
      let failed := !ok && strcmp16 auth.key.name (nameArray EFI_KEY_EXCHANGE_KEY_NAME)
      let rest ← authLibLoad (skipPk || failed) rest
      return auth :: rest

/-- `auth_lib_load(auth_files, …)`: the entries hold no data before. -/
def loadKeyFiles (db dbx kek pk : AuthFile) : Option (List AuthData) :=
  authLibLoad false ((authFiles [] [] [] []).zip [db, dbx, kek, pk])

/-- `load_auth_files`. -/
def loadAuthFiles (ssl : Phase → OpenSsl P X) (m : Machine) :
    List AuthData → Option (EfiStatus × Machine)
  | [] => some (.success, m)
  | auth :: rest =>
    if storageExists m.storage auth.key || auth.data.length == 0 then loadAuthFiles ssl m rest
    else do
      let o ← authLibProcessVariable ssl m auth.key (Buffer.ofList auth.data) auth.data.length
        auth.attrs
      if o.status ≠ .success then return (o.status, o.machine)
      loadAuthFiles ssl o.machine rest

def auditModeKey : Key := Key.of EFI_AUDIT_MODE_NAME gEfiGlobalVariableGuid
def signatureSupportKey : Key := Key.of EFI_SIGNATURE_SUPPORT_NAME gEfiGlobalVariableGuid

/-- `signature_support`. -/
def signatureSupport : List UInt8 :=
  EFI_CERT_SHA1_GUID.bytes ++ EFI_CERT_SHA256_GUID.bytes ++ EFI_CERT_RSA2048_GUID.bytes ++
    gEfiCertX509Guid.bytes

/-- The mode at the end of start-up: user mode if there is a PK by now. -/
def userModeIfPk (m : Machine) : EfiStatus × Machine :=
  if storageExists m.storage pkKey then updatePlatformMode m .user else (.success, m)

/-- `auth_lib_initialize`. -/
def authLibInitialize (ssl : Phase → OpenSsl P X) (m : Machine) (auths : List AuthData) :
    Option (EfiStatus × Machine) := do
  let (status, s) := storageSet m.storage signatureSupportKey (some signatureSupport) RT_BS_ATTRS
  let m := { m with storage := s }
  if status ≠ .success then return (status, m)
  let (status, m) := updatePlatformMode m .setup
  if status ≠ .success then return (status, m)
  let (status, m) ← loadAuthFiles ssl m auths
  if status ≠ .success then return (status, m)
  let (status, m) := userModeIfPk m
  if status ≠ .success then return (status, m)
  let (status, s) := storageSet m.storage auditModeKey (some [0]) RT_BS_ATTRS
  return (status, { m with storage := s })

end

end Uefistored
