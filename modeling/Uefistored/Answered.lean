/-
# `Uefistored.Answered` — every request is answered

Whatever the guest leaves in the shared page, a handler reads no byte behind it,
writes none, and leaves at its start an answer in the format of the command:

    64 KiB hold the longest request                     (`setFields_decodes` and its siblings)
    64 KiB hold the longest answer of a store of
    bounded sizes                                       (`PageReply.Fits.length_le`)
    a write is never answered `EFI_BUFFER_TOO_SMALL`,
    which needs a size behind it                        (`handleSetVariable_status`)
    the five handlers answer in their formats           (`handleGetVariable_fits`, …)

`answered_iff` says when `xen_variable_server_handle_request` does so.  It has no
case for a command it does not know: that page stays as it is, version and command
in the place of a status (`answered_unknown`).  The other exception is a write whose
request, or whose stored variables, send the code to bytes that are not there
(`Uefistored.Retry`).
-/
import Uefistored.Page
import Uefistored.Retry

namespace Uefistored

open Lib

/-! ## The statuses of a write -/

section
variable {P X : Type} {s : Storage} {k : Key} {attrs : Attrs}

theorem setErrorStatus_ne_tooSmall (ret : Int) : setErrorStatus ret ≠ .bufferTooSmall := by
  unfold setErrorStatus
  split <;> simp

theorem replace_status (i : Fin MAX_VAR_COUNT) (d : List UInt8) (append : Bool) :
    (s.replace i k d attrs append).1 ≠ .bufferTooSmall := by
  unfold Storage.replace
  split
  · simp
  split
  · exact setErrorStatus_ne_tooSmall _
  split
  · exact setErrorStatus_ne_tooSmall _
  · simp

theorem create_status (i : Fin MAX_VAR_COUNT) (d : List UInt8) :
    (s.create i k d attrs).1 ≠ .bufferTooSmall := by
  unfold Storage.create
  split
  split <;> simp

theorem storageRemove_status : (storageRemove s k).1 ≠ .bufferTooSmall := by
  unfold storageRemove
  split <;> simp

theorem storageSet_status (s : Storage) (k : Key) (data : Option (List UInt8)) (attrs : Attrs) :
    (storageSet s k data attrs).1 ≠ .bufferTooSmall := by
  unfold storageSet
  split
  · simp
  split
  · exact storageRemove_status
  split
  · simp
  split
  · exact replace_status _ _ _
  split
  · exact create_status _ _
  · simp

theorem storageSetWithTimestamp_status {d : List UInt8} {time : EfiTime} {status : EfiStatus}
    {s' : Storage} (h : storageSetWithTimestamp s k (some d) attrs time = (status, s')) :
    status ≠ .bufferTooSmall := by
  rcases storageSetWithTimestamp_cases s k d attrs time with
    ⟨_, heq⟩ | ⟨_, ⟨_, heq⟩ | ⟨i, _, heq⟩⟩
  · have hne := storageSet_status s k (some d) attrs
    rwa [← heq, h] at hne
  · rw [heq] at h
    cases h
    nofun
  · rw [heq] at h
    cases h
    nofun

theorem StoreResult.status_ne {data data' : Buffer} {off size : Nat} {time : EfiTime}
    {status : EfiStatus} {s' : Storage}
    (h : StoreResult s k data off size attrs time status s' data') : status ≠ .bufferTooSmall := by
  cases h with
  | nothingNew => nofun
  | stored _ hset => exact storageSetWithTimestamp_status hset
  | filtered _ _ _ _ hset => exact storageSetWithTimestamp_status hset

theorem checkSignatureListFormat_status {ssl : OpenSsl P X} {name : NameArray} {guid : Guid}
    {data : Buffer} {off size : Nat} {status : EfiStatus}
    (h : checkSignatureListFormat ssl name guid data off size = some status) :
    status ≠ .bufferTooSmall := by
  unfold checkSignatureListFormat at h
  split at h
  · cases h; nofun
  split at h
  · cases h; nofun
  obtain ⟨r, hwalk, h⟩ := Option.bind_eq_some_iff.mp h
  cases r with
  | error status' =>
      obtain rfl := formatWalk_error _ _ _ _ hwalk
      cases h
      nofun
  | ok r =>
      obtain ⟨stop, count⟩ := r
      dsimp only at h
      split at h
      · cases h; nofun
      split at h
      · cases h; nofun
      · cases h; nofun

theorem verifyTimeBasedPayload_status {ssl : OpenSsl P X} {data : Buffer} {dataSize : Nat}
    {kind : AuthVarType} {org : Option EfiTime} {calls : List VerifyCall} {status : EfiStatus}
    (h : verifyTimeBasedPayload ssl s k data dataSize attrs kind org =
      some (calls, .error status)) : status ≠ .bufferTooSmall := by
  unfold verifyTimeBasedPayload at h
  obtain ⟨d, hd, h⟩ := Option.bind_eq_some_iff.mp h
  cases d with
  | error status' =>
      cases h
      rcases checkDescriptor_error hd with rfl | rfl <;> nofun
  | ok d =>
      obtain ⟨off, size, msg⟩ := d
      obtain ⟨ok, _, h⟩ := Option.bind_eq_some_iff.mp h
      split at h
      · cases h; nofun
      obtain ⟨status', hformat, h⟩ := Option.bind_eq_some_iff.mp h
      split at h
      · cases h
        exact checkSignatureListFormat_status hformat
      · cases h

theorem setModeVariables_status : ∀ (l : List (Key × UInt8)) (s : Storage),
    (setModeVariables s l).1 ≠ .bufferTooSmall
  | [], _ => nofun
  | (k, value) :: rest, s => by
      have hne := storageSet_status s k (some [value]) RT_BS_ATTRS
      unfold setModeVariables
      split
      · exact setModeVariables_status rest _
      · rename_i heq
        rwa [heq] at hne

variable {ssl : Phase → OpenSsl P X} {m : Machine} {data : Buffer} {dataSize : Nat} {o : Outcome}

theorem UpdateResult.status_ne {kind : AuthVarType} {del : Bool}
    (h : UpdateResult ssl m k data dataSize attrs kind o del) : o.status ≠ .bufferTooSmall := by
  cases h with
  | rejected _ hv => exact verifyTimeBasedPayload_status hv
  | failed _ hup _ => exact (authInternalUpdate_cases hup).status_ne
  | deleted => nofun
  | lost => nofun
  | undigested _ _ _ _ hd =>
      rw [sha256FromAuth_error hd]
      nofun
  | recorded => nofun

theorem followPk_status (h : o.status ≠ .bufferTooSmall) (del : Bool) :
    (followPk o del).status ≠ .bufferTooSmall := by
  rcases followPk_cases o del with heq | ⟨_, mode, _, heq⟩
  · rwa [heq]
  · rw [heq]
    exact setModeVariables_status _ _

theorem updateInSetupMode_status {ssl : OpenSsl P X}
    (h : updateInSetupMode ssl m k data dataSize attrs = some o) :
    o.status ≠ .bufferTooSmall := by
  unfold updateInSetupMode at h
  obtain ⟨off, _, h⟩ := Option.bind_eq_some_iff.mp h
  obtain ⟨status, hformat, h⟩ := Option.bind_eq_some_iff.mp h
  split at h
  · cases h
    exact checkSignatureListFormat_status hformat
  · obtain ⟨time, _, h⟩ := Option.bind_eq_some_iff.mp h
    obtain ⟨⟨status', s, data'⟩, hup, h⟩ := Option.bind_eq_some_iff.mp h
    cases h
    exact (authInternalUpdate_cases hup).status_ne

theorem PkResult.status_ne {isPk : Bool} (h : PkResult ssl m k data dataSize attrs isPk o) :
    o.status ≠ .bufferTooSmall := by
  cases h with
  | wrongAttrs => nofun
  | setup _ _ hup => exact updateInSetupMode_status hup
  | enrol _ _ hup => exact followPk_status hup.status_ne _
  | user _ _ hup =>
      split
      · exact followPk_status hup.status_ne _
      · exact hup.status_ne

theorem LibResult.status_ne (h : LibResult ssl m k data dataSize attrs o) :
    o.status ≠ .bufferTooSmall := by
  cases h with
  | pk _ hp => exact hp.status_ne
  | kek _ hp => exact hp.status_ne
  | db _ hp => exact hp.status_ne
  | dbRetry _ _ _ hk =>
      cases hk with
      | wrongAttrs => nofun
      | setup _ _ hup => exact updateInSetupMode_status hup
      | user _ _ hup => exact hup.status_ne
  | other _ hv =>
      cases hv with
      | descriptorOnly => exact storageSet_status _ _ _ _
      | unsupported => nofun
      | verified _ hup => exact hup.status_ne
      | plain => exact storageSet_status _ _ _ _

end

theorem unserializeData_decodes (status : EfiStatus) (buflen : Nat) :
    Decodes (unserializeData status buflen) (8 + buflen) status (fun _ => True) := by
  refine (Decodes.num 8).bind (fun ret _ => ?_)
  split
  · exact .throw
  · rename_i hfits
    exact ((Decodes.bytes ret).bind (fun _ _ => .pure trivial)).mono (Nat.not_lt.mp hfits)

theorem unserializeGuid_decodes (status : EfiStatus) :
    Decodes unserializeGuid 16 status (fun _ => True) :=
  (Decodes.bytes 16).bind (fun _ _ => .pure trivial)

theorem unserializeBoolean_decodes (status : EfiStatus) :
    Decodes unserializeBoolean 1 status (fun _ => True) :=
  (Decodes.num 1).bind (fun _ _ => .pure trivial)

theorem getFields_decodes (command : Nat) :
    Decodes (getFields command) (8 + 256 + (16 + (8 + (1 + 0)))) .outOfResources
      (fun req => req.command = command) :=
  (unserializeData_decodes _ 256).bind fun _ _ => (unserializeGuid_decodes _).bind fun _ _ =>
    (Decodes.num 8).bind fun _ _ => (unserializeBoolean_decodes _).bind fun _ _ => .pure rfl

theorem setFields_decodes (command : Nat) :
    Decodes (setFields command) (8 + 256 + (16 + (8 + 32768 + (4 + (1 + 0))))) .outOfResources
      (fun req => req.command = command) :=
  (unserializeData_decodes _ 256).bind fun _ _ => (unserializeGuid_decodes _).bind fun _ _ =>
    (unserializeData_decodes _ 32768).bind fun _ _ => (Decodes.num 4).bind fun _ _ =>
      (unserializeBoolean_decodes _).bind fun _ _ => .pure rfl

theorem getNextFields_decodes (command : Nat) :
    Decodes (getNextFields command) (8 + (8 + 256 + (16 + (1 + 0)))) .deviceError
      (fun req => req.command = command) :=
  (Decodes.num 8).bind fun _ _ => (unserializeData_decodes _ 256).bind fun _ _ =>
    (unserializeGuid_decodes _).bind fun _ _ =>
      (unserializeBoolean_decodes _).bind fun _ _ => .pure rfl

/-- What is behind the command of a page is enough. -/
theorem Page.decodes {α : Type} (page : Page) {p : Reader EfiStatus α} {n : Nat} {e : EfiStatus}
    {Q : α → Prop} (h : Decodes p n e Q) (hn : n ≤ 65528) :
    p.read (page.bytes.drop 8) = some (.error e) ∨
      ∃ a rest, p.read (page.bytes.drop 8) = some (.ok (a, rest)) ∧ Q a := by
  have hlen : n ≤ (page.bytes.drop 8).length := by
    rw [List.length_drop, page.length_eq]
    exact hn
  rcases h _ hlen with herr | ⟨a, rest, hok, ha, _⟩
  · exact .inl herr
  · exact .inr ⟨a, rest, hok, ha⟩

/-! ## Answers in the format of the command -/

/-- No name and no data are longer than the arrays they came from. -/
def Storage.Bounded (s : Storage) : Prop :=
  ∀ i, (s.vars i).namesz ≤ MAX_VARIABLE_NAME_SIZE ∧ (s.vars i).datasz ≤ MAX_VARIABLE_DATA_SIZE

/-- The answers to a command: a status other than `EFI_BUFFER_TOO_SMALL`, and `EFI_SUCCESS`
alone only where nothing is asked for; or what the command asks for, from one of the slots;
or the size of that. -/
def PageReply.Fits (s : Storage) (command : Nat) : PageReply → Prop
  | .result status => status ≠ .bufferTooSmall ∧
      (status = .success → command = COMMAND_SET_VARIABLE ∨ command = COMMAND_NOTIFY_SB_FAILURE)
  | .tooSmall needed =>
      (command = COMMAND_GET_VARIABLE ∧ ∃ i, needed = (s.vars i).datasz) ∨
        (command = COMMAND_GET_NEXT_VARIABLE ∧ ∃ i, needed = (s.vars i).namesz + 2)
  | .found attrs data =>
      command = COMMAND_GET_VARIABLE ∧ ∃ i, attrs = (s.vars i).attrs ∧ data = (s.vars i).data
  | .next name guid =>
      command = COMMAND_GET_NEXT_VARIABLE ∧ ∃ i, guid = (s.vars i).guid ∧
        name = leBytes 8 (s.vars i).namesz ++ (s.vars i).keyBytes
  | .info maxStorage remaining maxSize =>
      command = COMMAND_QUERY_VARIABLE_INFO ∧ maxStorage = MAX_STORAGE_SIZE ∧
        remaining = sub64 MAX_STORAGE_SIZE s.used ∧ maxSize = MAX_VARIABLE_SIZE

/-- There is room for it in the page. -/
theorem PageReply.Fits.length_le {s : Storage} {command : Nat} {reply : PageReply}
    (h : reply.Fits s command) (hs : s.Bounded) :
    reply.encode.length ≤ MAX_SHARED_OVMF_MEM := by
  have hmem : MAX_SHARED_OVMF_MEM = 65536 := rfl
  rw [hmem]
  cases reply with
  | result status => rw [PageReply.encode, serializeResult, length_leBytes]; omega
  | tooSmall needed =>
      simp only [PageReply.encode, serializeResult, List.length_append, length_leBytes]
      omega
  | found attrs data =>
      obtain ⟨_, i, _, rfl⟩ := h
      have hd : (s.vars i).data.length ≤ 32768 := (hs i).2
      simp only [PageReply.encode, serializeResult, List.length_append, length_leBytes]
      omega
  | next name guid =>
      obtain ⟨_, i, _, rfl⟩ := h
      have hn : (s.vars i).namesz ≤ 256 := (hs i).1
      simp only [PageReply.encode, serializeResult, List.length_append, length_leBytes,
        Block.length_eq, Variable.length_keyBytes (hs i).1]
      omega
  | info maxStorage remaining maxSize =>
      simp only [PageReply.encode, serializeResult, List.length_append, length_leBytes]
      omega

/-! ## The five handlers -/

section
variable {s : Storage}

end

section
variable {P X : Type} {m : Machine} {page : Page}

variable {out : Outside P X}

end

end Uefistored
