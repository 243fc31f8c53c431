/-
# `Uefistored.Page` — requests and answers in the shared page

`xen_variable_server_handle_request` of `src/xen_variable_server.c`, from the
bytes of the page that is shared with the guest to the bytes it leaves there.

A handler copies the request out of the page into a `struct request` and writes
its answer over it, from offset 0 on.  So decoding is a `Reader` on the bytes of
the page, which is undefined behind its end and where an `assert` fails, and an
answer is a `PageReply`, whose bytes `Page.put` writes.  Where no case of the switch
applies nothing is written.

The bytes `xenSetVariable`, `xenGetVariable` and `xenGetNextVariableName` are the
requests as the client of the tests writes them (`tests/mock/XenVariable.c`); the
decoders read them back (`read_xenSetVariable` and its siblings).
-/
import Uefistored.Serializer
import Uefistored.Server

namespace Uefistored

open Lib

/-- The memory that is shared with the guest. -/
abbrev Page := Block MAX_SHARED_OVMF_MEM

def COMMAND_GET_VARIABLE : Nat := 0
def COMMAND_GET_NEXT_VARIABLE : Nat := 2
def COMMAND_NOTIFY_SB_FAILURE : Nat := 4

namespace Page

/-- The version in front of every request. -/
def version (page : Page) : Nat := leNat (page.bytes.take 4)

/-- The command behind it. -/
def command (page : Page) : Nat := leNat ((page.bytes.drop 4).take 4)

/-- Bytes written from the start of the page on; undefined where they run over its end. -/
def put (page : Page) (bs : List UInt8) : Option Page :=
  if bs.length ≤ MAX_SHARED_OVMF_MEM then some (page.overwrite bs bs.length) else none

end Page

/-! ## Reading a request -/

/-- `unserialize_data` into an array of `buflen` bytes.  `status` is what the caller returns
for -1. -/
def unserializeData (status : EfiStatus) (buflen : Nat) :
    Reader EfiStatus {l : List UInt8 // l.length ≤ buflen} := do
  let ret ← Reader.num 8
  if ret > buflen then throw status else
  let l ← Reader.bytes ret
  return ⟨l.take buflen, List.length_take_le buflen l⟩

/-- `unserialize_guid`. -/
def unserializeGuid : Reader EfiStatus Guid := do
  let l ← Reader.bytes 16
  return Block.ofList 16 l

/-- `unserialize_boolean`. -/
def unserializeBoolean : Reader EfiStatus Bool := do
  let b ← Reader.num 1
  return b != 0

/-- `struct request` after `unserialize_get_request` or `unserialize_get_next_request`.
`bufferSize` is compared with unsigned sizes only. -/
structure ReadRequest where
  command : Nat
  name : List UInt8
  guid : Guid
  bufferSize : Nat
  atRuntime : Bool
  name_fits : name.length ≤ MAX_VARIABLE_NAME_SIZE

/-- `(request->name, request->namesz, request->guid)`. -/
def ReadRequest.key (req : ReadRequest) : Key := Key.of req.name req.guid

/-- What `unserialize_get_request` reads behind the command. -/
def getFields (command : Nat) : Reader EfiStatus ReadRequest := do
  let name ← unserializeData .outOfResources MAX_VARIABLE_NAME_SIZE
  let guid ← unserializeGuid
  let bufferSize ← Reader.num 8
  let atRuntime ← unserializeBoolean
  return ⟨command, name.1, guid, bufferSize, atRuntime, name.2⟩

/-- `unserialize_get_request`. -/
def unserializeGetRequest : Reader EfiStatus ReadRequest := do
  let version ← Reader.num 4
  if version ≠ UEFISTORED_VERSION then throw .unsupported else
  let command ← Reader.num 4
  getFields command

/-- What `unserialize_set_request` reads behind the command. -/
def setFields (command : Nat) : Reader EfiStatus SetRequest := do
  let name ← unserializeData .outOfResources MAX_VARIABLE_NAME_SIZE
  let guid ← unserializeGuid
  let data ← unserializeData .outOfResources MAX_VARIABLE_DATA_SIZE
  let attrs ← Reader.num 4
  let atRuntime ← unserializeBoolean
  return ⟨command, name.1, guid, data.1, BitVec.ofNat 32 attrs, atRuntime, name.2, data.2⟩

/-- `unserialize_set_request`. -/
def unserializeSetRequest : Reader EfiStatus SetRequest := do
  let version ← Reader.num 4
  Reader.require (version = UEFISTORED_VERSION)
  let command ← Reader.num 4
  setFields command

/-- What `unserialize_get_next_request` reads behind the command. -/
def getNextFields (command : Nat) : Reader EfiStatus ReadRequest := do
  let bufferSize ← Reader.num 8
  let name ← unserializeData .deviceError MAX_VARIABLE_NAME_SIZE
  let guid ← unserializeGuid
  let atRuntime ← unserializeBoolean
  return ⟨command, name.1, guid, bufferSize, atRuntime, name.2⟩

/-- `unserialize_get_next_request`, with the status its caller answers for -1. -/
def unserializeGetNextRequest : Reader EfiStatus ReadRequest := do
  let version ← Reader.num 4
  Reader.require (version = 1)
  let command ← Reader.num 4
  getNextFields command

/-! ## Answers -/

/-- What a handler writes: a status alone; the size that the guest's buffer lacks; a variable;
a name, as `serialize_name` writes it, with its GUID; the three sizes of the store. -/
inductive PageReply
  | result (status : EfiStatus)
  | tooSmall (needed : Nat)
  | found (attrs : Attrs) (data : List UInt8)
  | next (name : List UInt8) (guid : Guid)
  | info (maxStorage remaining maxSize : Nat)
  deriving DecidableEq

/-- `serialize_result`. -/
def serializeResult (status : EfiStatus) : List UInt8 := leBytes 8 status.code

/-- The bytes of an answer. -/
def PageReply.encode : PageReply → List UInt8
  | .result status => serializeResult status
  | .tooSmall needed => serializeResult .bufferTooSmall ++ leBytes 8 needed
  | .found attrs data =>
      serializeResult .success ++ (leBytes 4 attrs.toNat ++ (leBytes 8 data.length ++ data))
  | .next name guid => serializeResult .success ++ (name ++ guid.bytes)
  | .info maxStorage remaining maxSize =>
      serializeResult .success ++
        (leBytes 8 maxStorage ++ (leBytes 8 remaining ++ leBytes 8 maxSize))

/-! ## The handlers -/

/-- `handle_get_variable` behind the decoding: `serialize_get_error`, and the variable where
that finds no error. -/
def getVariable (s : Storage) (req : ReadRequest) : PageReply :=
  if req.command ≠ COMMAND_GET_VARIABLE then .result .deviceError
  else if req.name = [] then .result .invalidParameter
  else
    match storageFindVariable s req.key with
    | none => .result .notFound
    | some var =>
      if req.atRuntime && !var.attrs.has EFI_VARIABLE_RUNTIME_ACCESS then .result .notFound
      else if req.bufferSize < var.datasz then .tooSmall var.datasz
      else .found var.attrs var.data

/-- `handle_get_variable`. -/
def handleGetVariable (m : Machine) (page : Page) : Option (PageReply × Machine) := do
  match ← unserializeGetRequest.read page.bytes with
  | .error status => return (.result status, m)
  | .ok (req, _) => return (getVariable m.storage req, { m with efiAtRuntime := req.atRuntime })

/-- What `handle_get_next_variable` answers once it found the variable `next`. -/
def nextReply (bufferSize : Nat) (next : Variable) : Option PageReply :=
  if bufferSize < add64 next.namesz 2 then some (.tooSmall (add64 next.namesz 2))
  else do
    let name ← serializeName next
    return .next name next.guid

/-- `handle_get_next_variable` behind the decoding. -/
def getNextVariable (s : Storage) (req : ReadRequest) : Option PageReply :=
  if req.command ≠ COMMAND_GET_NEXT_VARIABLE then none
  else
    match storageNextVariable s req.atRuntime req.key with
    | none => some (.result .notFound)
    | some i => nextReply req.bufferSize (s.vars i)

/-- `handle_get_next_variable`. -/
def handleGetNextVariable (m : Machine) (page : Page) : Option (PageReply × Machine) := do
  match ← unserializeGetNextRequest.read page.bytes with
  | .error status => return (.result status, m)
  | .ok (req, _) =>
    let reply ← getNextVariable m.storage req
    return (reply, { m with efiAtRuntime := req.atRuntime })

/-- `handle_query_variable_info`, which reads the attributes behind the command. -/
def queryVariableInfo (m : Machine) (page : Page) : Option (PageReply × Machine) :=
  match handleQueryVariableInfo m.storage page.version page.command
      (BitVec.ofNat 32 (leNat ((page.bytes.drop 8).take 4))) with
  | .error status => some (.result status, m)
  | .ok (maxStorage, remaining, maxSize) => some (.info maxStorage remaining maxSize, m)

/-- The answer to `COMMAND_NOTIFY_SB_FAILURE`, where `ret` is what `backend_notify` returns. -/
def notifySbFailure (ret : Int) (m : Machine) : Option (PageReply × Machine) :=
  some (.result (if ret < 0 then .deviceError else .success), m)

section
variable {P X : Type}

/-- `handle_set_variable` with the decoding in front. -/
def handleSetRequest (ssl : Phase → OpenSsl P X) (m : Machine) (page : Page) :
    Option (PageReply × Machine) := do
  match ← unserializeSetRequest.read page.bytes with
  | .error status => return (.result status, m)
  | .ok (req, _) =>
    let (status, m) ← handleSetVariable ssl m req
    return (.result status, m)

/-- What is outside of the program while it handles a request: OpenSSL, and the value that
`backend_notify` returns. -/
structure Outside (P X : Type) where
  ssl : Phase → OpenSsl P X
  notified : Int

/-- The switch of `xen_variable_server_handle_request`: the handler of a command. -/
def handler (out : Outside P X) (command : Nat) :
    Option (Machine → Page → Option (PageReply × Machine)) :=
  if command = COMMAND_GET_VARIABLE then some handleGetVariable
  else if command = COMMAND_SET_VARIABLE then some (handleSetRequest out.ssl)
  else if command = COMMAND_GET_NEXT_VARIABLE then some handleGetNextVariable
  else if command = COMMAND_QUERY_VARIABLE_INFO then some queryVariableInfo
  else if command = COMMAND_NOTIFY_SB_FAILURE then some (fun m _ => notifySbFailure out.notified m)
  else none

/-- The answer to the request in the page, and the state it leaves.  There is none where
the command is unknown. -/
def answer (out : Outside P X) (m : Machine) (page : Page) : Option (Option PageReply × Machine) :=
  if page.version ≠ 1 then some (some (.result .deviceError), m)
  else
    match handler out page.command with
    | none => some (none, m)
    | some handle => do
      let (reply, m) ← handle m page
      return (some reply, m)

/-- `xen_variable_server_handle_request`. -/
def xenVariableServerHandleRequest (out : Outside P X) (m : Machine) (page : Page) :
    Option (Page × Machine) := do
  match ← answer out m page with
  | (none, m) => return (page, m)
  | (some reply, m) =>
    let page ← page.put reply.encode
    return (page, m)

end

/-- OpenSSL accepts everything, and `backend_notify` succeeds. -/
def quietOutside : Outside Unit Unit := ⟨fun _ => .accepting, 0⟩

/-! ## Requests as the client writes them -/

/-- `XenSetVariable`. -/
def xenSetVariable (name : List UInt8) (guid : Guid) (attrs : Attrs) (data : List UInt8)
    (atRuntime : Bool) : List UInt8 :=
  leBytes 4 1 ++ (leBytes 4 COMMAND_SET_VARIABLE ++ ((leBytes 8 name.length ++ name) ++
    (guid.bytes ++ ((leBytes 8 data.length ++ data) ++
      (leBytes 4 attrs.toNat ++ leBytes 1 atRuntime.toNat)))))

/-- `XenGetVariable`. -/
def xenGetVariable (name : List UInt8) (guid : Guid) (dataSize : Nat) (atRuntime : Bool) :
    List UInt8 :=
  leBytes 4 1 ++ (leBytes 4 COMMAND_GET_VARIABLE ++ ((leBytes 8 name.length ++ name) ++
    (guid.bytes ++ (leBytes 8 dataSize ++ leBytes 1 atRuntime.toNat))))

/-- `XenGetNextVariableName`. -/
def xenGetNextVariableName (nameSize : Nat) (name : List UInt8) (guid : Guid) (atRuntime : Bool) :
    List UInt8 :=
  leBytes 4 1 ++ (leBytes 4 COMMAND_GET_NEXT_VARIABLE ++ (leBytes 8 nameSize ++
    ((leBytes 8 name.length ++ name) ++ (guid.bytes ++ leBytes 1 atRuntime.toNat))))

/-! ## What the decoders read -/

section
variable {page : Page}

/-- The command stands behind the version. -/
theorem Page.read_command {α : Type} (f : Nat → Reader EfiStatus α) :
    (Reader.num 4 >>= f).read (page.bytes.drop 4) = (f page.command).read (page.bytes.drop 8) := by
  have hlen : page.bytes.length = 65536 := page.length_eq
  rw [Reads.read_num_bind (by rw [List.length_drop]; omega), List.drop_drop]
  rfl

theorem Page.read_version {α : Type} (f : Nat → Reader EfiStatus α) :
    (Reader.num 4 >>= f).read page.bytes = (f page.version).read (page.bytes.drop 4) := by
  have hlen : page.bytes.length = 65536 := page.length_eq
  exact Reads.read_num_bind (by omega) f

theorem unserializeGetRequest_front (h : page.version = 1) :
    unserializeGetRequest.read page.bytes = (getFields page.command).read (page.bytes.drop 8) := by
  have hversion : ¬ page.version ≠ UEFISTORED_VERSION := not_not.mpr h
  unfold unserializeGetRequest
  rw [Page.read_version, if_neg hversion, Page.read_command]

theorem unserializeSetRequest_front (h : page.version = 1) :
    unserializeSetRequest.read page.bytes = (setFields page.command).read (page.bytes.drop 8) := by
  unfold unserializeSetRequest
  rw [Page.read_version]
  exact ((Reads.require h).read_bind (page.bytes.drop 4)).trans (Page.read_command setFields)

theorem unserializeGetNextRequest_front (h : page.version = 1) :
    unserializeGetNextRequest.read page.bytes =
      (getNextFields page.command).read (page.bytes.drop 8) := by
  unfold unserializeGetNextRequest
  rw [Page.read_version]
  exact ((Reads.require h).read_bind (page.bytes.drop 4)).trans (Page.read_command getNextFields)

end

theorem unserializeData_reads (status : EfiStatus) {l : List UInt8} {buflen : Nat}
    (hl : l.length ≤ buflen) (hmax : buflen < 2 ^ 64) :
    Reads (unserializeData status buflen) (leBytes 8 l.length ++ l) ⟨l, hl⟩ := by
  refine (Reads.num (by omega)).bind ?_
  rw [if_neg (Nat.not_lt.mpr hl)]
  have hread := (Reads.bytes (ε := EfiStatus) (rfl : l.length = l.length)).map
    (f := fun l => (⟨l.take buflen, List.length_take_le buflen l⟩ : {l // l.length ≤ buflen}))
  have hval : (⟨l.take buflen, List.length_take_le buflen l⟩ : {l // l.length ≤ buflen}) =
      ⟨l, hl⟩ := Subtype.ext (List.take_of_length_le hl)
  rwa [hval] at hread

theorem unserializeGuid_reads (guid : Guid) : Reads unserializeGuid guid.bytes guid := by
  have hread := (Reads.bytes (ε := EfiStatus) guid.length_eq).map (f := Block.ofList 16)
  rwa [Block.ofList_bytes_self] at hread

theorem unserializeBoolean_reads (b : Bool) : Reads unserializeBoolean (leBytes 1 b.toNat) b := by
  have hread := (Reads.num (ε := EfiStatus) (n := 1) (v := b.toNat)
    (by cases b <;> decide)).map (f := fun v => v != 0)
  cases b <;> exact hread

theorem getFields_reads (command : Nat) {name : List UInt8} (guid : Guid) {dataSize : Nat}
    (atRuntime : Bool) (hname : name.length ≤ MAX_VARIABLE_NAME_SIZE) (hsize : dataSize < 2 ^ 64) :
    Reads (getFields command) ((leBytes 8 name.length ++ name) ++ (guid.bytes ++
        (leBytes 8 dataSize ++ leBytes 1 atRuntime.toNat)))
      ⟨command, name, guid, dataSize, atRuntime, hname⟩ := by
  refine (unserializeData_reads _ hname (by decide)).bind ?_
  refine (unserializeGuid_reads guid).bind ?_
  refine (Reads.num hsize).bind ?_
  exact (unserializeBoolean_reads atRuntime).map

theorem getNextFields_reads (command : Nat) {name : List UInt8} (guid : Guid) {nameSize : Nat}
    (atRuntime : Bool) (hname : name.length ≤ MAX_VARIABLE_NAME_SIZE) (hsize : nameSize < 2 ^ 64) :
    Reads (getNextFields command) (leBytes 8 nameSize ++ ((leBytes 8 name.length ++ name) ++
        (guid.bytes ++ leBytes 1 atRuntime.toNat)))
      ⟨command, name, guid, nameSize, atRuntime, hname⟩ := by
  refine (Reads.num hsize).bind ?_
  refine (unserializeData_reads _ hname (by decide)).bind ?_
  refine (unserializeGuid_reads guid).bind ?_
  exact (unserializeBoolean_reads atRuntime).map

theorem setFields_reads (command : Nat) {name : List UInt8} (guid : Guid) (attrs : Attrs)
    {data : List UInt8} (atRuntime : Bool) (hname : name.length ≤ MAX_VARIABLE_NAME_SIZE)
    (hdata : data.length ≤ MAX_VARIABLE_DATA_SIZE) :
    Reads (setFields command) ((leBytes 8 name.length ++ name) ++ (guid.bytes ++
        ((leBytes 8 data.length ++ data) ++ (leBytes 4 attrs.toNat ++ leBytes 1 atRuntime.toNat))))
      ⟨command, name, guid, data, attrs, atRuntime, hname, hdata⟩ := by
  refine (unserializeData_reads _ hname (by decide)).bind ?_
  refine (unserializeGuid_reads guid).bind ?_
  refine (unserializeData_reads _ hdata (by decide)).bind ?_
  refine (Reads.num attrs.isLt).bind ?_
  rw [BitVec.ofNat_toNat, BitVec.setWidth_eq]
  exact (unserializeBoolean_reads atRuntime).map

/-- The page of a client: its version, its command, and the fields behind them. -/
theorem Page.client {page : Page} {command : Nat} {bs : List UInt8}
    (hc : command < 256 ^ 4) (h : leBytes 4 1 ++ (leBytes 4 command ++ bs) <+: page.bytes) :
    page.version = 1 ∧ page.command = command ∧ bs <+: page.bytes.drop 8 := by
  obtain ⟨rest, h⟩ := h
  have hversion : page.version = leNat (leBytes 4 1) := by
    rw [Page.version, ← h, List.append_assoc, List.take_left' (length_leBytes 4 1)]
  have hcommand : page.command = leNat (leBytes 4 command) := by
    rw [Page.command, ← h, List.append_assoc, List.drop_left' (length_leBytes 4 1),
      List.append_assoc, List.take_left' (length_leBytes 4 command)]
  refine ⟨hversion, hcommand.trans (leNat_leBytes_of_lt hc), rest, ?_⟩
  have hlen : (leBytes 4 1 ++ leBytes 4 command).length = 8 := by
    rw [List.length_append, length_leBytes, length_leBytes]
  rw [← h, ← List.append_assoc, List.append_assoc, List.drop_left' hlen]

/-! ## What stands in the page afterwards -/

theorem Page.put_eq (page : Page) {bs : List UInt8} (h : bs.length ≤ MAX_SHARED_OVMF_MEM) :
    ∃ page', page.put bs = some page' ∧ page'.bytes = bs ++ page.bytes.drop bs.length := by
  refine ⟨_, if_pos h, ?_⟩
  show (bs.take bs.length).take MAX_SHARED_OVMF_MEM ++ _ = _
  rw [List.take_length, List.take_of_length_le h]

/-- The status at the start of an answer. -/
def PageReply.status : PageReply → EfiStatus
  | .result status => status
  | .tooSmall _ => .bufferTooSmall
  | .found .. | .next .. | .info .. => .success

theorem PageReply.status_front (reply : PageReply) :
    serializeResult reply.status <+: reply.encode := by
  cases reply with
  | result status => exact List.prefix_rfl
  | tooSmall needed => exact List.prefix_append ..
  | found attrs data => exact List.prefix_append ..
  | next name guid => exact List.prefix_append ..
  | info maxStorage remaining maxSize => exact List.prefix_append ..

theorem EfiStatus.code_lt (status : EfiStatus) : status.code < 256 ^ 8 := by
  cases status <;> decide

theorem EfiStatus.code_inj {status status' : EfiStatus} (h : status.code = status'.code) :
    status = status' := by
  revert h
  cases status <;> cases status' <;> decide

/-- A page starts with one status only. -/
theorem serializeResult_inj {status status' : EfiStatus} {l : List UInt8}
    (h : serializeResult status <+: l) (h' : serializeResult status' <+: l) :
    status = status' := by
  have hlen : (serializeResult status).length = (serializeResult status').length :=
    (length_leBytes 8 _).trans (length_leBytes 8 _).symm
  have heq := (List.prefix_of_prefix_length_le h h' hlen.le).eq_of_length hlen
  have hcode : leNat (serializeResult status) = leNat (serializeResult status') :=
    congrArg leNat heq
  refine EfiStatus.code_inj ?_
  rwa [serializeResult, serializeResult, leNat_leBytes_of_lt status.code_lt,
    leNat_leBytes_of_lt status'.code_lt] at hcode

/-! ## The answers to the client -/

section
variable {P X : Type} (out : Outside P X) (m : Machine) {page : Page}

/-- A known command: the answer is the one of its handler. -/
theorem answer_of_handler {handle : Machine → Page → Option (PageReply × Machine)}
    (hv : page.version = 1) (hh : handler out page.command = some handle) :
    answer out m page = (handle m page).map (fun r => (some r.1, r.2)) := by
  unfold answer
  rw [if_neg (not_not.mpr hv), hh]
  dsimp only
  cases handle m page <;> rfl

/-- An answer that fits is left in the page. -/
theorem handleRequest_of_answer {reply : PageReply} {m' : Machine}
    (h : answer out m page = some (some reply, m'))
    (hfits : reply.encode.length ≤ MAX_SHARED_OVMF_MEM) :
    ∃ page', xenVariableServerHandleRequest out m page = some (page', m') ∧
      page'.bytes = reply.encode ++ page.bytes.drop reply.encode.length := by
  obtain ⟨page', hput, hbytes⟩ := Page.put_eq page hfits
  refine ⟨page', ?_, hbytes⟩
  unfold xenVariableServerHandleRequest
  refine Option.bind_eq_some_iff.mpr ⟨_, h, ?_⟩
  exact Option.bind_eq_some_iff.mpr ⟨page', hput, rfl⟩

/-- The client's request, read back. -/
theorem read_xenGetVariable {name : List UInt8} {guid : Guid} {dataSize : Nat} {atRuntime : Bool}
    (hname : name.length ≤ MAX_VARIABLE_NAME_SIZE) (hsize : dataSize < 2 ^ 64)
    (h : xenGetVariable name guid dataSize atRuntime <+: page.bytes) :
    page.version = 1 ∧ page.command = COMMAND_GET_VARIABLE ∧ ∃ rest,
      unserializeGetRequest.read page.bytes = some (.ok
        (⟨COMMAND_GET_VARIABLE, name, guid, dataSize, atRuntime, hname⟩, rest)) := by
  obtain ⟨hv, hc, hbody⟩ := Page.client (by decide) h
  obtain ⟨rest, hread⟩ :=
    (getFields_reads page.command guid atRuntime hname hsize).read_of_front hbody
  refine ⟨hv, hc, rest, ?_⟩
  rw [unserializeGetRequest_front hv, hread, hc]

theorem read_xenGetNextVariableName {name : List UInt8} {guid : Guid} {nameSize : Nat}
    {atRuntime : Bool} (hname : name.length ≤ MAX_VARIABLE_NAME_SIZE) (hsize : nameSize < 2 ^ 64)
    (h : xenGetNextVariableName nameSize name guid atRuntime <+: page.bytes) :
    page.version = 1 ∧ page.command = COMMAND_GET_NEXT_VARIABLE ∧ ∃ rest,
      unserializeGetNextRequest.read page.bytes = some (.ok
        (⟨COMMAND_GET_NEXT_VARIABLE, name, guid, nameSize, atRuntime, hname⟩, rest)) := by
  obtain ⟨hv, hc, hbody⟩ := Page.client (by decide) h
  obtain ⟨rest, hread⟩ :=
    (getNextFields_reads page.command guid atRuntime hname hsize).read_of_front hbody
  refine ⟨hv, hc, rest, ?_⟩
  rw [unserializeGetNextRequest_front hv, hread, hc]

/-- There is room for the request in the page. -/
theorem length_xenSetVariable_le {name : List UInt8} (guid : Guid) (attrs : Attrs)
    {data : List UInt8} (atRuntime : Bool) (hname : name.length ≤ MAX_VARIABLE_NAME_SIZE)
    (hdata : data.length ≤ MAX_VARIABLE_DATA_SIZE) :
    (xenSetVariable name guid attrs data atRuntime).length ≤ MAX_SHARED_OVMF_MEM := by
  have hn : name.length ≤ 256 := hname
  have hd : data.length ≤ 32768 := hdata
  have hmem : MAX_SHARED_OVMF_MEM = 65536 := rfl
  simp only [xenSetVariable, List.length_append, length_leBytes, Block.length_eq, hmem]
  omega

theorem read_xenSetVariable {name : List UInt8} {guid : Guid} {attrs : Attrs}
    {data : List UInt8} {atRuntime : Bool} (hname : name.length ≤ MAX_VARIABLE_NAME_SIZE)
    (hdata : data.length ≤ MAX_VARIABLE_DATA_SIZE)
    (h : xenSetVariable name guid attrs data atRuntime <+: page.bytes) :
    page.version = 1 ∧ page.command = COMMAND_SET_VARIABLE ∧ ∃ rest,
      unserializeSetRequest.read page.bytes = some (.ok
        (⟨COMMAND_SET_VARIABLE, name, guid, data, attrs, atRuntime, hname, hdata⟩, rest)) := by
  obtain ⟨hv, hc, hbody⟩ := Page.client (by decide) h
  obtain ⟨rest, hread⟩ :=
    (setFields_reads page.command guid attrs atRuntime hname hdata).read_of_front hbody
  refine ⟨hv, hc, rest, ?_⟩
  rw [unserializeSetRequest_front hv, hread, hc]

theorem answer_get {req : ReadRequest} {rest : List UInt8} (hv : page.version = 1)
    (hc : page.command = COMMAND_GET_VARIABLE)
    (h : unserializeGetRequest.read page.bytes = some (.ok (req, rest))) :
    answer out m page =
      some (some (getVariable m.storage req), { m with efiAtRuntime := req.atRuntime }) := by
  rw [answer_of_handler out m hv (by rw [hc]; rfl), handleGetVariable, h]
  rfl

theorem answer_getNext {req : ReadRequest} {rest : List UInt8} (hv : page.version = 1)
    (hc : page.command = COMMAND_GET_NEXT_VARIABLE)
    (h : unserializeGetNextRequest.read page.bytes = some (.ok (req, rest))) :
    answer out m page = (getNextVariable m.storage req).map
      (fun reply => (some reply, { m with efiAtRuntime := req.atRuntime })) := by
  rw [answer_of_handler out m hv (by rw [hc]; rfl), handleGetNextVariable, h]
  dsimp only [Option.bind_eq_bind, Option.bind_some]
  cases getNextVariable m.storage req <;> rfl

theorem answer_set {req : SetRequest} {rest : List UInt8} (hv : page.version = 1)
    (hc : page.command = COMMAND_SET_VARIABLE)
    (h : unserializeSetRequest.read page.bytes = some (.ok (req, rest))) :
    answer out m page =
      (handleSetVariable out.ssl m req).map (fun r => (some (.result r.1), r.2)) := by
  rw [answer_of_handler out m hv (by rw [hc]; rfl), handleSetRequest, h]
  dsimp only [Option.bind_eq_bind, Option.bind_some]
  cases handleSetVariable out.ssl m req <;> rfl

end

end Uefistored
