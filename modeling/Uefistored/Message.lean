/-
# `Uefistored.Message` — the request that sends the variables to XAPI

`build_set_efi_vars_message` puts an HTTP header and a body with the base64 text
of the non-volatile variables into a buffer of `MSG_SIZE` bytes.  The header and
the copy of the body are bounded by the buffer; the NUL behind the body is
written at `body_len + hdr_len`, which nothing compares with it.  A body that
does not fit is cut, and the NUL lands behind the buffer.

`messageFits_iff`: of any store, the message is complete and inside the buffer
exactly when the list of variables has at most 196275 bytes and leaves nothing
out, or there is nothing to send.
-/
import Uefistored.Lib.Base64
import Uefistored.Lib.Layout
import Uefistored.Outgoing

namespace Uefistored

open Lib

/-! ## The texts -/

def MSG_SIZE : Nat := 64 * PAGE_SIZE

/-- `HTTP_HEADER`. -/
def HTTP_HEADER : List UInt8 :=
  literal "POST / HTTP/1.1\r\n" ++
  literal "Host: _var_lib_xcp_xapi\r\n" ++
  literal "Accept-Encoding: identity\r\n" ++
  literal "User-Agent: uefistored/0.1\r\n" ++
  literal "Connection: close\r\n" ++
  literal "Content-Type: text/xml\r\n" ++
  literal "Content-Length: %lu\r\n" ++
  literal "\r\n"

/-- `HTTP_BODY_SET_NVRAM_VARS`. -/
def HTTP_BODY_SET_NVRAM_VARS : List UInt8 :=
  literal "<?xml version='1.0'?>" ++
  literal "<methodCall>" ++
  literal "<methodName>VM.set_NVRAM_EFI_variables</methodName>" ++
  literal "<params>" ++
  literal "<param><value><string>DUMMYSESSION</string></value></param>" ++
  literal "<param><value><string>DUMMYVM</string></value></param>" ++
  literal "<param><value><string>%s</string></value></param>" ++
  literal "</params>" ++
  literal "</methodCall>"

/-- The header for a body of `bodyLen` bytes. -/
def headerText (bodyLen : Nat) : List UInt8 :=
  substitute (literal "%lu") (decimal bodyLen) HTTP_HEADER

/-- The body with a text in it. -/
def bodyText (text : List UInt8) : List UInt8 :=
  substitute (literal "%s") text HTTP_BODY_SET_NVRAM_VARS

/-! ## The functions -/

/-- OpenSSL's base64 filter without line breaks: what `BIO_write` leaves in memory, and what
`BIO_read` gets from a text; `none` is an error.  A text has four characters for three bytes and
no NUL, and reading undoes writing. -/
structure Bio where
  write : List UInt8 → List UInt8
  read : List UInt8 → Option (List UInt8)
  length_write : ∀ bytes, (write bytes).length = 4 * ((bytes.length + 2) / 3)
  isText_write : ∀ bytes, IsText (write bytes)
  read_write : ∀ bytes, read (write bytes) = some bytes

/-- The filter that reads nothing but what it writes. -/
def Bio.strict : Bio := ⟨base64, base64Decode, length_base64, isText_base64, base64Decode_base64⟩

/-- `bytes_to_base64`, as it lies in memory; `none` is `NULL`. -/
def bytesToBase64 (bio : Bio) (bytes : List UInt8) : Option (List UInt8) :=
  if bytes.length = 0 then none else some (bio.write bytes ++ [0])

/-- `variable_list_base64`; `some none` is `NULL`. -/
def variableListBase64 (bio : Bio) (f : Fronts) (s : Storage) : Option (Option (List UInt8)) := do
  match ← variableListBlob f s true with
  | none => some none
  -- past what was written the block holds what `malloc` left there
  | some blob =>
    if blob.written.length = blob.size then some (bytesToBase64 bio blob.written) else none

/-- `create_header`: what it returns, and what it writes. -/
def createHeader (bodyLen messageSize : Nat) : Nat × List UInt8 :=
  ((headerText bodyLen).length, snprintf messageSize (headerText bodyLen))

/-- `build_set_efi_vars_message`.  `none`: a write outside the buffer. -/
def buildSetEfiVarsMessage (bio : Bio) (f : Fronts) (s : Storage) (buffer : Buffer) (n : Nat) :
    Option (Int × Buffer) := do
  match ← variableListBase64 bio f s with
  | none => some (-1, buffer)
  | some text =>
    let size := HTTP_BODY_SET_NVRAM_VARS.length + 1 + (cstr text).length - 1
    let body := cstr (snprintf size (bodyText (cstr text)))
    let (hdrLen, hdr) := createHeader body.length n
    let buffer ← buffer.write 0 hdr
    let buffer ← buffer.write hdrLen (strncpy (sub64 n hdrLen) body)
    let buffer ← buffer.write (body.length + hdrLen) [0]
    some (0, buffer)

/-! ## The texts with their arguments -/

/-- The header up to the length of the body. -/
def httpFront : List UInt8 :=
  literal "POST / HTTP/1.1\r\n" ++
  literal "Host: _var_lib_xcp_xapi\r\n" ++
  literal "Accept-Encoding: identity\r\n" ++
  literal "User-Agent: uefistored/0.1\r\n" ++
  literal "Connection: close\r\n" ++
  literal "Content-Type: text/xml\r\n" ++
  literal "Content-Length: "

/-- The body up to the variables. -/
def bodyFront : List UInt8 :=
  literal "<?xml version='1.0'?>" ++
  literal "<methodCall>" ++
  literal "<methodName>VM.set_NVRAM_EFI_variables</methodName>" ++
  literal "<params>" ++
  literal "<param><value><string>DUMMYSESSION</string></value></param>" ++
  literal "<param><value><string>DUMMYVM</string></value></param>" ++
  literal "<param><value><string>"

/-- The body behind them. -/
def bodyBack : List UInt8 :=
  literal "</string></value></param>" ++ (literal "</params>" ++ literal "</methodCall>")

theorem headerText_eq (bodyLen : Nat) : headerText bodyLen =
    httpFront ++ (decimal bodyLen ++ (literal "\r\n" ++ literal "\r\n")) := by
  have hline : literal "Content-Length: %lu\r\n" =
      literal "Content-Length: " ++ (literal "%lu" ++ literal "\r\n") := by rfl
  have hsplit : HTTP_HEADER =
      httpFront ++ (literal "%lu" ++ (literal "\r\n" ++ literal "\r\n")) := by
    simp only [HTTP_HEADER, httpFront, hline, List.append_assoc]
  have hpercent : ∀ d ∈ httpFront, d ≠ 37 := by decide +kernel
  rw [headerText, hsplit]
  exact substitute_eq _ _ hpercent

theorem body_split : HTTP_BODY_SET_NVRAM_VARS = bodyFront ++ (literal "%s" ++ bodyBack) := by
  have hline : literal "<param><value><string>%s</string></value></param>" =
      literal "<param><value><string>" ++
        (literal "%s" ++ literal "</string></value></param>") := by
    rfl
  simp only [HTTP_BODY_SET_NVRAM_VARS, bodyFront, bodyBack, hline, List.append_assoc]

theorem bodyText_eq (text : List UInt8) : bodyText text = bodyFront ++ (text ++ bodyBack) := by
  have hpercent : ∀ d ∈ bodyFront, d ≠ 37 := by decide +kernel
  rw [bodyText, body_split]
  exact substitute_eq _ _ hpercent

theorem length_bodyFront : bodyFront.length = 227 := by decide +kernel

theorem length_bodyBack : bodyBack.length = 47 := by decide +kernel

theorem length_headerText (bodyLen : Nat) :
    (headerText bodyLen).length = 160 + (decimal bodyLen).length := by
  have hfront : httpFront.length = 156 := by decide +kernel
  have hback : (literal "\r\n" ++ literal "\r\n").length = 4 := by rfl
  rw [headerText_eq, List.length_append, List.length_append, hfront, hback]
  omega

theorem length_bodyText (text : List UInt8) : (bodyText text).length = 274 + text.length := by
  rw [bodyText_eq, List.length_append, List.length_append, length_bodyFront, length_bodyBack]
  omega

theorem isText_bodyText {text : List UInt8} (h : IsText text) : IsText (bodyText text) := by
  have hfront : IsText bodyFront := by decide +kernel
  have hback : IsText bodyBack := by decide +kernel
  rw [bodyText_eq]
  exact hfront.append (h.append hback)

/-! ## What is left in the buffer -/

/-- The message for a list of variables that was written as `bytes`. -/
def message (bio : Bio) (bytes : List UInt8) : List UInt8 :=
  headerText (bodyText (bio.write bytes)).length ++ bodyText (bio.write bytes) ++ [0]

/-- The largest list of variables whose message fits. -/
theorem length_message_le_iff (bio : Bio) (bytes : List UInt8) :
    (message bio bytes).length ≤ MSG_SIZE ↔ bytes.length ≤ 196275 := by
  have hmax : MSG_SIZE = 262144 := rfl
  have hbody : (bodyText (bio.write bytes)).length = 274 + 4 * ((bytes.length + 2) / 3) := by
    rw [length_bodyText, bio.length_write]
  unfold message
  rw [List.length_append, List.length_append, length_headerText, List.length_singleton, hbody, hmax]
  -- the length of the body has six digits wherever it matters
  have h5 := length_decimal_le_iff (n := 274 + 4 * ((bytes.length + 2) / 3)) (k := 5) (by decide)
  have h6 := length_decimal_le_iff (n := 274 + 4 * ((bytes.length + 2) / 3)) (k := 6) (by decide)
  omega

section Write

variable {buffer : Buffer} {n : Nat} {body : List UInt8}

/-- The header and the body, where the header has room. -/
theorem writes_of_header (hsize : buffer.size = n) (hn : n < 2 ^ 64)
    (hroom : (headerText body.length).length < n) :
    ∃ b, (do let b ← buffer.write 0 (createHeader body.length n).2
             b.write (createHeader body.length n).1
               (strncpy (sub64 n (createHeader body.length n).1) body)) = some b ∧
      b.size = n ∧ (body.length + (headerText body.length).length ≤ n →
        b.Holds 0 (headerText body.length ++ body)) := by
  have hhdr : (createHeader body.length n).2 = headerText body.length ++ [0] := snprintf_of_lt hroom
  have hlen : (createHeader body.length n).1 = (headerText body.length).length := rfl
  rw [hhdr, hlen, sub64_of_le hroom.le hn]
  have hin₁ : 0 + (headerText body.length ++ [0]).length ≤ buffer.size := by
    rw [hsize, List.length_append, List.length_singleton]
    omega
  obtain ⟨b₁, hb₁⟩ := Buffer.write_isSome hin₁
  have hsize₁ := (Buffer.size_write hb₁).trans hsize
  have hholds₁ := (Buffer.Holds.nil buffer).write hb₁
  rw [List.nil_append] at hholds₁
  replace hholds₁ := (Buffer.holds_append.mp hholds₁).1
  have hin₂ : (headerText body.length).length +
      (strncpy (n - (headerText body.length).length) body).length ≤ b₁.size := by
    rw [hsize₁, length_strncpy]
    omega
  obtain ⟨b₂, hb₂⟩ := Buffer.write_isSome hin₂
  refine ⟨b₂, Option.bind_eq_some_iff.mpr ⟨b₁, hb₁, hb₂⟩, (Buffer.size_write hb₂).trans hsize₁,
    fun hfits => ?_⟩
  have hholds₂ := hholds₁.write hb₂
  rw [strncpy_of_le (by omega), ← List.append_assoc] at hholds₂
  exact (Buffer.holds_append.mp hholds₂).1

end Write

section Build

variable {bio : Bio} {f : Fronts} {s : Storage} {bytes : List UInt8} {buffer : Buffer}

/-- The text that goes into the body. -/
theorem variableListBase64_eq
    (h : variableListBlob f s true = some (some ⟨bytes.length, bytes⟩)) (hne : bytes ≠ []) :
    variableListBase64 bio f s = some (some (bio.write bytes ++ [0])) := by
  have hlen : ¬ bytes.length = 0 := fun h0 => hne (List.eq_nil_of_length_eq_zero h0)
  unfold variableListBase64
  refine Option.bind_eq_some_iff.mpr ⟨_, h, ?_⟩
  dsimp only
  rw [if_pos rfl, bytesToBase64, if_neg hlen]

theorem build_eq (h : variableListBlob f s true = some (some ⟨bytes.length, bytes⟩))
    (hne : bytes ≠ []) (n : Nat) : buildSetEfiVarsMessage bio f s buffer n =
      (do let b ← buffer.write 0 (createHeader (bodyText (bio.write bytes)).length n).2
          b.write (createHeader (bodyText (bio.write bytes)).length n).1
            (strncpy (sub64 n (createHeader (bodyText (bio.write bytes)).length n).1)
              (bodyText (bio.write bytes)))).bind fun b =>
        (b.write ((bodyText (bio.write bytes)).length +
          (createHeader (bodyText (bio.write bytes)).length n).1) [0]).map fun b => (0, b) := by
  have htext : cstr (bio.write bytes ++ [0]) = bio.write bytes :=
    cstr_text (bio.isText_write bytes) []
  have hsizeof : HTTP_BODY_SET_NVRAM_VARS.length = 276 := by
    rw [body_split, List.length_append, List.length_append, length_bodyFront, length_bodyBack]
    rfl
  have hbody : cstr (snprintf (HTTP_BODY_SET_NVRAM_VARS.length + 1 + (bio.write bytes).length - 1)
      (bodyText (bio.write bytes))) = bodyText (bio.write bytes) := by
    rw [snprintf_of_lt (by rw [length_bodyText, hsizeof]; omega)]
    exact cstr_text (isText_bodyText (bio.isText_write bytes)) []
  unfold buildSetEfiVarsMessage
  rw [variableListBase64_eq h hne]
  dsimp only [Option.bind_eq_bind, Option.bind_some]
  rw [htext, hbody, Option.bind_assoc]
  refine Option.bind_congr fun b _ => Option.bind_congr fun b _ => ?_
  rw [Option.map_eq_bind]
  rfl

/-- What the length of the message decides, where the header has room. -/
theorem build_of_header (h : variableListBlob f s true = some (some ⟨bytes.length, bytes⟩))
    (hne : bytes ≠ []) {n : Nat} (hsize : buffer.size = n) (hn : n < 2 ^ 64)
    (hroom : (headerText (bodyText (bio.write bytes)).length).length < n) :
    (n < (message bio bytes).length → buildSetEfiVarsMessage bio f s buffer n = none) ∧
      ((message bio bytes).length ≤ n →
        ∃ b, buildSetEfiVarsMessage bio f s buffer n = some (0, b) ∧
          b.Holds 0 (message bio bytes)) := by
  obtain ⟨b, hb, rfl, hholds⟩ := writes_of_header hsize hn hroom
  have hlen : (message bio bytes).length = (bodyText (bio.write bytes)).length +
      (createHeader (bodyText (bio.write bytes)).length b.size).1 + [(0 : UInt8)].length := by
    rw [message, List.length_append, List.length_append, Nat.add_comm (headerText _).length]
    rfl
  rw [build_eq h hne, hb, Option.bind_some, hlen]
  refine ⟨fun hlt => ?_, fun hle => ?_⟩
  · rw [Buffer.write_past hlt]
    rfl
  · obtain ⟨b', hb'⟩ := Buffer.write_isSome hle
    rw [hb']
    refine ⟨b', rfl, ?_⟩
    -- the NUL is written behind the header and the body
    have hpos : (bodyText (bio.write bytes)).length +
        (createHeader (bodyText (bio.write bytes)).length b.size).1 =
          (headerText (bodyText (bio.write bytes)).length ++
            bodyText (bio.write bytes)).length := by
      rw [List.length_append, Nat.add_comm]
      rfl
    rw [hpos] at hb'
    exact (hholds ((Nat.le_add_right _ _).trans hle)).write hb'

end Build

/-! ## Messages that are whole -/

/-- The function fails, or leaves the whole message in the buffer. -/
def MessageFits (bio : Bio) (f : Fronts) (s : Storage) : Prop :=
  ∀ buffer : Buffer, buffer.size = MSG_SIZE →
    ∃ ret buffer', buildSetEfiVarsMessage bio f s buffer MSG_SIZE = some (ret, buffer') ∧
      (ret < 0 ∨ ∃ bytes, variableListBlob f s true = some (some ⟨bytes.length, bytes⟩) ∧
        Carries bytes s ∧ buffer'.Holds 0 (message bio bytes))

/-- The buffer of `xapi_set`, from `calloc`. -/
def messageBuffer : Buffer := ⟨[], MSG_SIZE, Nat.zero_le _⟩

section Fits

variable {bio : Bio} {f : Fronts} {s : Storage}

/-- Nothing to send: the function fails and leaves the buffer alone. -/
theorem build_nil (hnil : outgoing f s = []) (buffer : Buffer) (n : Nat) :
    buildSetEfiVarsMessage bio f s buffer n = some (-1, buffer) := by
  have htext : variableListBase64 bio f s = some none := by
    unfold variableListBase64
    rw [blob_outgoing_nil hnil]
    rfl
  unfold buildSetEfiVarsMessage
  rw [htext]
  rfl

/-- A header has room in the buffer, whatever the store holds. -/
theorem header_room {bytes : List UInt8} (h : bytes.length < 2 ^ 24) :
    (headerText (bodyText (bio.write bytes)).length).length < MSG_SIZE := by
  have hbody : (bodyText (bio.write bytes)).length = 274 + 4 * ((bytes.length + 2) / 3) := by
    rw [length_bodyText, bio.length_write]
  have hdigits : (decimal (bodyText (bio.write bytes)).length).length ≤ 8 := by
    rw [length_decimal_le_iff (by decide), hbody]
    omega
  rw [length_headerText]
  exact lt_of_le_of_lt (Nat.add_le_add_left hdigits 160) (by decide)

/-- The block that is handed out has a header, and is never large. -/
theorem length_blob {bytes : List UInt8} (hne : outgoing f s ≠ [])
    (h : variableListBlob f s true = some (some ⟨bytes.length, bytes⟩)) :
    bytes ≠ [] ∧ bytes.length < 2 ^ 24 := by
  rw [blob_outgoing hne] at h
  obtain ⟨out, -, hblob⟩ := Option.map_eq_some_iff.mp h
  have hlen : listSize (outgoing f s) = bytes.length := (Blob.mk.inj (Option.some.inj hblob)).1
  obtain ⟨hsum, hlt⟩ := listSize_outgoing f s
  refine ⟨?_, by omega⟩
  rintro rfl
  rw [List.length_nil] at hlen
  omega

/-- Where the function returns, the block was written to its end. -/
theorem blob_of_build {buffer : Buffer} {n : Nat} {r : Int × Buffer}
    (hbuild : buildSetEfiVarsMessage bio f s buffer n = some r) (hsent : outgoing f s ≠ []) :
    ∃ bytes, variableListBlob f s true = some (some ⟨bytes.length, bytes⟩) := by
  unfold buildSetEfiVarsMessage at hbuild
  obtain ⟨text, htext, -⟩ := Option.bind_eq_some_iff.mp hbuild
  unfold variableListBase64 at htext
  obtain ⟨out, hout, htext⟩ := Option.bind_eq_some_iff.mp htext
  rw [hout]
  rw [blob_outgoing hsent] at hout
  obtain ⟨⟨ret, written⟩, -, rfl⟩ := Option.map_eq_some_iff.mp hout
  dsimp only at htext
  split at htext
  · rename_i hfull
    exact ⟨written, by rw [hfull]⟩
  · cases htext

/-- Where the function returns and there is something to send, it returns 0 and the message is in
the buffer. -/
theorem message_of_build {buffer buffer' : Buffer} {ret : Int} (hsize : buffer.size = MSG_SIZE)
    (hbuild : buildSetEfiVarsMessage bio f s buffer MSG_SIZE = some (ret, buffer'))
    (hsent : outgoing f s ≠ []) :
    ret = 0 ∧ ∃ bytes, variableListBlob f s true = some (some ⟨bytes.length, bytes⟩) ∧
      bytes.length ≤ 196275 ∧ buffer'.Holds 0 (message bio bytes) := by
  obtain ⟨bytes, hblob⟩ := blob_of_build hbuild hsent
  obtain ⟨hne, hlt⟩ := length_blob hsent hblob
  obtain ⟨hpast, hinside⟩ := build_of_header hblob hne hsize (by decide) (header_room hlt)
  have hle : (message bio bytes).length ≤ MSG_SIZE := by
    by_contra hgt
    rw [hpast (Nat.not_le.mp hgt)] at hbuild
    cases hbuild
  obtain ⟨b, hb, hholds⟩ := hinside hle
  obtain ⟨rfl, rfl⟩ := Prod.mk.inj (Option.some.inj (hb.symm.trans hbuild))
  exact ⟨rfl, bytes, hblob, (length_message_le_iff bio bytes).mp hle, hholds⟩

/-- Whether the message fits, by the list that is sent. -/
theorem messageFits_of_blob {bytes : List UInt8} (hsent : outgoing f s ≠ [])
    (h : variableListBlob f s true = some (some ⟨bytes.length, bytes⟩)) :
    MessageFits bio f s ↔ Carries bytes s ∧ bytes.length ≤ 196275 := by
  have hsame : ∀ {bytes' : List UInt8},
      variableListBlob f s true = some (some ⟨bytes'.length, bytes'⟩) → bytes' = bytes := by
    intro bytes' h'
    exact (Blob.mk.inj (Option.some.inj (Option.some.inj (h'.symm.trans h)))).2
  constructor
  · intro hfits
    obtain ⟨ret, buffer', hbuild, hret⟩ := hfits messageBuffer rfl
    obtain ⟨rfl, bytes₁, h₁, hle, -⟩ := message_of_build rfl hbuild hsent
    rcases hret with hneg | ⟨bytes₂, h₂, hcarries, -⟩
    · exact absurd hneg (by decide)
    · rw [hsame h₁] at hle
      rw [hsame h₂] at hcarries
      exact ⟨hcarries, hle⟩
  · rintro ⟨hcarries, hle⟩ buffer hsize
    obtain ⟨hne, hlt⟩ := length_blob hsent h
    obtain ⟨b, hb, hholds⟩ := (build_of_header h hne hsize (by decide) (header_room hlt)).2
      ((length_message_le_iff bio bytes).mpr hle)
    exact ⟨0, b, hb, .inr ⟨bytes, h, hcarries, hholds⟩⟩

theorem Storage.Complete.messageFits (h : s.Complete) (hle : savedSize s true ≤ 196275) :
    MessageFits bio f s := by
  by_cases hsent : outgoing f s = []
  · exact fun buffer _ => ⟨-1, buffer, build_nil hsent buffer MSG_SIZE, .inl (by decide)⟩
  · obtain ⟨bytes, hblob, hsize, hcarries⟩ := h.carries hsent
    exact (messageFits_of_blob hsent hblob).mpr ⟨hcarries, hsize.trans_le hle⟩

end Fits

/-- The message is whole and inside the buffer exactly when the walk comes to no non-volatile
variable, or to all of them, with names that keep their size, and the list of them has at most
196275 bytes. -/
theorem messageFits_iff (bio : Bio) (f : Fronts) (s : Storage) :
    MessageFits bio f s ↔ (∀ i, s.Reached i → (s.vars i).attrs.nonVolatile = false) ∨
      s.Complete ∧ savedSize s true ≤ 196275 := by
  rw [← outgoing_eq_nil_iff (f := f)]
  constructor
  · intro hfits
    by_cases hsent : outgoing f s = []
    · exact .inl hsent
    obtain ⟨ret, buffer', hbuild, -⟩ := hfits messageBuffer rfl
    obtain ⟨bytes, hblob⟩ := blob_of_build hbuild hsent
    obtain ⟨hcarries, hle⟩ := (messageFits_of_blob hsent hblob).mp hfits
    have hcomplete := complete_of_carries hblob hcarries
    obtain ⟨bytes', hblob', hsize, -⟩ := hcomplete.carries hsent
    obtain ⟨-, rfl⟩ := Blob.mk.inj (Option.some.inj (Option.some.inj (hblob.symm.trans hblob')))
    exact .inr ⟨hcomplete, hsize ▸ hle⟩
  · rintro (hsent | ⟨hcomplete, hle⟩)
    · exact fun buffer _ => ⟨-1, buffer, build_nil hsent buffer MSG_SIZE, .inl (by decide)⟩
    · exact hcomplete.messageFits hle

theorem messageFits_holed : savedSize holed true = 200 ∧
    ∀ bio f, MessageFits bio f holed := by
  have hsize : savedSize holed true = 200 := by decide +kernel
  have hlast : (holed.vars lastSlot).isValid = false := by decide +kernel
  have hcomplete := holed_reachable.tidy.complete (by rw [hlast, Bool.false_and])
  refine ⟨hsize, fun bio f => (messageFits_iff bio f holed).mpr (.inr ⟨hcomplete, ?_⟩)⟩
  rw [hsize]
  decide

/-- Six variables of the largest size: the NUL is written behind the buffer. -/
theorem not_messageFits_six : ∃ s : Storage, s.Reachable ∧ s.variables.length = 6 ∧
    ∀ bio f, ¬ MessageFits bio f s := by
  have hlen : (List.replicate 32768 (1 : UInt8)).length = 32768 := List.length_replicate
  obtain ⟨s, hs⟩ := exists_filled (d := List.replicate 32768 1) (n := 6)
    (fun hnil => by rw [hnil] at hlen; cases hlen) hlen.le (by decide)
  refine ⟨s, hs.reachable, hs.length_variables.trans (by decide), fun bio f hfits => ?_⟩
  have hlast : (s.vars lastSlot).isValid = false := (hs.isValid lastSlot).trans (by decide)
  have hfirst : (s.vars 0).isValid = true := (hs.isValid 0).trans (by decide)
  have hcomplete := hs.reachable.tidy.complete (by rw [hlast, Bool.false_and])
  have hnv : (s.vars 0).attrs.nonVolatile = true := by
    rw [(hs.slot 0 (by decide)).2.2]
    decide
  have hsent : outgoing f s ≠ [] := by
    intro hnil
    rw [outgoing_eq_nil_iff.mp hnil 0 (hcomplete 0 hfirst hnv).1] at hnv
    cases hnv
  have hlarge : 196275 < savedSize s true := by
    rw [hs.savedSize, hs.length_innerSlots, hlen]
    decide
  obtain ⟨bytes, hblob, hsize, -⟩ := hcomplete.carries hsent
  have hle := ((messageFits_of_blob hsent hblob).mp hfits).2
  rw [hsize] at hle
  exact absurd hlarge (Nat.not_lt.mpr hle)

end Uefistored
