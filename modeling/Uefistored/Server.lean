/-
# `Uefistored.Server` — the SetVariable handler

`handle_set_variable` of `src/xen_variable_server.c`, from the decoded request
on, and the runs of requests it handles.

A `SetRequest` is `struct request` as `unserialize_set_request` fills it: the
name and the data are at most as long as the arrays they are read into, which
are zero behind them.  `Request` adds what OpenSSL answers while the request is
handled, so that the answers may differ from one request to the next.
-/
import Uefistored.AuthLib
import Uefistored.Lib.Run

namespace Uefistored

open Lib

def COMMAND_SET_VARIABLE : Nat := 1

/-- `struct request` after `unserialize_set_request`. -/
structure SetRequest where
  command : Nat
  name : List UInt8
  guid : Guid
  data : List UInt8
  attrs : Attrs
  atRuntime : Bool
  name_fits : name.length ≤ MAX_VARIABLE_NAME_SIZE
  data_fits : data.length ≤ MAX_VARIABLE_DATA_SIZE

namespace SetRequest

/-- `(request->name, request->namesz, request->guid)`. -/
def key (req : SetRequest) : Key := Key.of req.name req.guid

/-- `request->buffer`. -/
def buffer (req : SetRequest) : Buffer := ⟨req.data, MAX_VARIABLE_DATA_SIZE, req.data_fits⟩

end SetRequest

/-! ## The checks in front -/

/-- `strcmp16_len`. -/
def strcmp16Len (k : Key) (str : List UInt8) : Bool :=
  k.namesz == str.length && strcmp16 k.name (nameArray str)

/-- The names `is_ro` protects. -/
def roNames : List (List UInt8) :=
  [EFI_SECURE_BOOT_MODE_NAME, EFI_SETUP_MODE_NAME, EFI_AUDIT_MODE_NAME, EFI_DEPLOYED_MODE_NAME,
   EFI_SIGNATURE_SUPPORT_NAME]

/-- `is_ro`. -/
def isRo (k : Key) : Bool := k.guid == gEfiGlobalVariableGuid && roNames.any (strcmp16Len k)

/-- `evaluate_attrs`. -/
def evaluateAttrs (attrs : Attrs) : EfiStatus :=
  if attrs.has EFI_VARIABLE_HARDWARE_ERROR_RECORD then .unsupported
  else if attrs &&& RT_BS_ATTRS == EFI_VARIABLE_RUNTIME_ACCESS then .invalidParameter
  else if attrs.timeBased && attrs.has EFI_VARIABLE_AUTHENTICATED_WRITE_ACCESS then
    .securityViolation
  else if attrs.has EFI_VARIABLE_AUTHENTICATED_WRITE_ACCESS then .unsupported
  else .success

/-- The status with which the checks of `handle_set_variable` refuse a request. -/
def refusal (req : SetRequest) : Option EfiStatus :=
  if req.command ≠ COMMAND_SET_VARIABLE then some .deviceError
  else if req.name.headD 0 == 0 || (req.attrs.has EFI_VARIABLE_RUNTIME_ACCESS &&
      !req.attrs.has EFI_VARIABLE_BOOTSERVICE_ACCESS) then some .invalidParameter
  else if isRo req.key then some .writeProtected
  else if evaluateAttrs req.attrs ≠ .success then some (evaluateAttrs req.attrs)
  else none

/-! ## `handle_set_variable` -/

/-- A variable, as it is saved. -/
def Variable.record (v : Variable) : Saved := ⟨v.keyBytes, v.guid, v.attrs, v.data⟩

/-- What `backend_set` saves of a slot. -/
def Variable.saved (v : Variable) : Option Saved :=
  if v.isValid && v.attrs.nonVolatile then some v.record else none

/-- The non-volatile variables, in slot order. -/
def nonVolatileVariables (s : Storage) : List Saved :=
  (List.finRange MAX_VAR_COUNT).filterMap (fun i => (s.vars i).saved)

/-- `backend_set`, where it comes to its end: the non-volatile variables take the place of the
copy. -/
def backendSet (m : Machine) : Machine :=
  { m with persistent := nonVolatileVariables m.storage }

section
variable {P X : Type}

/-- The write itself: authenticated for time-based attributes and for the secure boot
variables, plain otherwise. -/
def dispatch (ssl : Phase → OpenSsl P X) (m : Machine) (req : SetRequest) :
    Option (EfiStatus × Machine) :=
  if req.attrs.timeBased || isSecureBootVariable req.key then do
    let o ← authLibProcessVariable ssl m req.key req.buffer req.data.length req.attrs
    return (o.status, o.machine)
  else
    let r := storageSet m.storage req.key (some req.data) req.attrs
    some (r.1, { m with storage := r.2 })

/-- The state once the request is decoded: `efi_at_runtime` is the request's, and the record
of `verify_*` calls is empty. -/
def Machine.opened (m : Machine) (req : SetRequest) : Machine :=
  { m with efiAtRuntime := req.atRuntime, calls := [] }

/-- The call of `backend_set` behind a successful non-volatile write. -/
def Machine.saved (m : Machine) (status : EfiStatus) (attrs : Attrs) : Machine :=
  if status == .success && attrs.nonVolatile then backendSet m else m

/-- `handle_set_variable`: the status it answers and the state it leaves. -/
def handleSetVariable (ssl : Phase → OpenSsl P X) (m : Machine) (req : SetRequest) :
    Option (EfiStatus × Machine) :=
  match refusal req with
  | some status => some (status, m.opened req)
  | none => do
    let (status, m) ← dispatch ssl (m.opened req) req
    return (status, m.saved status req.attrs)

/-- A request that does not pass the checks. -/
theorem handleSetVariable_refused (ssl : Phase → OpenSsl P X) (m : Machine) {req : SetRequest}
    {status : EfiStatus} (hr : refusal req = some status) :
    handleSetVariable ssl m req = some (status, m.opened req) := by
  unfold handleSetVariable
  rw [hr]

/-- A request that passes the checks and goes to the store directly. -/
theorem handleSetVariable_plain (ssl : Phase → OpenSsl P X) (m : Machine) {req : SetRequest}
    (hr : refusal req = none) (ha : req.attrs.timeBased = false)
    (hb : isSecureBootVariable req.key = false) :
    handleSetVariable ssl m req = some ((storageSet m.storage req.key (some req.data) req.attrs).1,
      Machine.saved { m.opened req with
          storage := (storageSet m.storage req.key (some req.data) req.attrs).2 }
        (storageSet m.storage req.key (some req.data) req.attrs).1 req.attrs) := by
  have hd : dispatch ssl (m.opened req) req =
      some ((storageSet m.storage req.key (some req.data) req.attrs).1, { m.opened req with
        storage := (storageSet m.storage req.key (some req.data) req.attrs).2 }) := by
    unfold dispatch
    rw [ha, hb]
    rfl
  unfold handleSetVariable
  rw [hr]
  dsimp only
  rw [hd]
  rfl

/-! ## `handle_query_variable_info` -/

def UEFISTORED_VERSION : Nat := 1
def COMMAND_QUERY_VARIABLE_INFO : Nat := 3

/-- `handle_query_variable_info`: the size of the store, what remains of it, and the size of
the largest variable. -/
def handleQueryVariableInfo (s : Storage) (version command : Nat) (attrs : Attrs) :
    Except EfiStatus (Nat × Nat × Nat) :=
  if version ≠ UEFISTORED_VERSION then .error .deviceError
  else if command ≠ COMMAND_QUERY_VARIABLE_INFO then .error .deviceError
  else if attrs == 0 || (attrs.has EFI_VARIABLE_RUNTIME_ACCESS &&
      !attrs.has EFI_VARIABLE_BOOTSERVICE_ACCESS) then .error .invalidParameter
  else .ok (MAX_STORAGE_SIZE, sub64 MAX_STORAGE_SIZE s.used, MAX_VARIABLE_SIZE)

/-! ## Runs -/

/-- A request together with what OpenSSL answers while it is handled. -/
structure Request (P X : Type) where
  ssl : Phase → OpenSsl P X
  set : SetRequest

/-- One request: it is answered, and leaves the state `m'`. -/
def Step (m : Machine) (r : Request P X) (m' : Machine) : Prop :=
  ∃ status, handleSetVariable r.ssl m r.set = some (status, m')

/-- The requests handled one after the other. -/
def handleAll (m : Machine) : List (Request P X) → Option Machine
  | [] => some m
  | r :: rs => do
    let (_, m) ← handleSetVariable r.ssl m r.set
    handleAll m rs

theorem run_iff_handleAll {m m' : Machine} {rs : List (Request P X)} :
    Run Step m rs m' ↔ handleAll m rs = some m' := by
  constructor
  · intro h
    induction h with
    | nil => rfl
    | cons hx _ ih =>
        obtain ⟨status, hx⟩ := hx
        exact Option.bind_eq_some_iff.mpr ⟨_, hx, ih⟩
  · intro h
    induction rs generalizing m with
    | nil =>
        cases h
        exact .nil _
    | cons r rs ih =>
        obtain ⟨⟨status, m₁⟩, hx, h⟩ := Option.bind_eq_some_iff.mp h
        exact .cons ⟨status, hx⟩ (ih h)

end

/-! ## Requests and stores by their contents -/

/-- An `EFI_VARIABLE_AUTHENTICATION_2` with a time stamp and a signature. -/
def authDescriptor (time : EfiTime) (sig : List UInt8) : List UInt8 :=
  time.toBytes ++ leBytes 4 (OFFSET_OF_CERT_DATA + sig.length) ++ leBytes 2 0x0200 ++
    leBytes 2 WIN_CERT_TYPE_EFI_GUID ++ gEfiCertPkcs7Guid.bytes ++ sig

theorem length_authDescriptor (time : EfiTime) (sig : List UInt8) :
    (authDescriptor time sig).length = 40 + sig.length := by
  simp only [authDescriptor, List.length_append, EfiTime.length_toBytes, length_leBytes,
    Block.length_eq]

/-- The request for an authenticated variable: a descriptor of the year with a signature of
one byte, and the payload. -/
def authRequest (name : List UInt8) (guid : Guid) (year : UInt16) (attrs : Attrs)
    (payload : List UInt8)
    (h : name.length ≤ MAX_VARIABLE_NAME_SIZE ∧ payload.length + 41 ≤ MAX_VARIABLE_DATA_SIZE) :
    SetRequest where
  command := COMMAND_SET_VARIABLE
  name := name
  guid := guid
  data := authDescriptor { EfiTime.zero with year := year } [0] ++ payload
  attrs := attrs
  atRuntime := false
  name_fits := h.1
  data_fits := by
    rw [List.length_append, length_authDescriptor, List.length_singleton]
    omega

/-- A variable under a key, without time stamp and cert. -/
def Variable.ofKey (k : Key) (data : List UInt8) (attrs : Attrs) : Variable :=
  { Variable.zero with
    name := k.name, namesz := k.namesz, data := data, guid := k.guid, attrs := attrs }

/-- The store that holds a list of variables in its first slots. -/
def Storage.ofList (vs : List Variable) : Storage :=
  ⟨fun i => vs.getD i.val Variable.zero, vs.length, vs.length * MAX_VARIABLE_SIZE, 0⟩

/-- A state with a given store and mode, and nothing saved yet. -/
def Machine.ofStorage (s : Storage) (mode : PlatformMode) : Machine :=
  ⟨s, mode, true, false, [], []⟩

/-- The state at program start. -/
def freshMachine : Machine := .ofStorage (.empty 0) .setup

/-- An empty store in user mode. -/
def emptyUserMode : Machine := .ofStorage (.empty 0) .user

/-- The key of the variable `"A"`. -/
def keyA : Key := Key.of (wide ['A']) gEfiGlobalVariableGuid

/-- The request to set a volatile variable, or to delete it with no data. -/
def volatileRequest (name data : List UInt8)
    (h : name.length ≤ MAX_VARIABLE_NAME_SIZE ∧ data.length ≤ MAX_VARIABLE_DATA_SIZE) :
    Request Unit Unit where
  ssl := fun _ => .accepting
  set :=
    { command := COMMAND_SET_VARIABLE
      name := name
      guid := gEfiGlobalVariableGuid
      data := data
      attrs := RT_BS_ATTRS
      atRuntime := false
      name_fits := h.1
      data_fits := h.2 }

/-- A signature list with one X.509 entry, an empty certificate. -/
def oneCertList : List UInt8 :=
  gEfiCertX509Guid.bytes ++ leBytes 4 (ESL_SIZE + GUID_SIZE) ++ leBytes 4 0 ++
    leBytes 4 GUID_SIZE ++ List.replicate GUID_SIZE 0

/-! ## What opening and saving leave alone -/

section
variable (m : Machine) (req : SetRequest) (status : EfiStatus) (attrs : Attrs)

@[simp] theorem Machine.opened_storage : (m.opened req).storage = m.storage := rfl

@[simp] theorem Machine.opened_setupMode : (m.opened req).setupMode = m.setupMode := rfl

@[simp] theorem Machine.opened_secureBootEnabled :
    (m.opened req).secureBootEnabled = m.secureBootEnabled := rfl

@[simp] theorem Machine.saved_storage : (m.saved status attrs).storage = m.storage := by
  unfold Machine.saved
  split <;> rfl

@[simp] theorem Machine.saved_setupMode : (m.saved status attrs).setupMode = m.setupMode := by
  unfold Machine.saved
  split <;> rfl

@[simp] theorem Machine.saved_secureBootEnabled :
    (m.saved status attrs).secureBootEnabled = m.secureBootEnabled := by
  unfold Machine.saved
  split <;> rfl

@[simp] theorem Machine.saved_calls : (m.saved status attrs).calls = m.calls := by
  unfold Machine.saved
  split <;> rfl

end

end Uefistored
