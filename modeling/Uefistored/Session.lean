/-
# `Uefistored.Session` — talking to XAPI

The client in `src/xapi.c`: one HTTP request per connection, with an XML-RPC call
in it, and the response read into a buffer of fixed size.  What XAPI sends back,
and what libxml finds in it, is not constrained (`Peer`).

**Status.**  `http_status` reads a `long` behind the first blank and returns it as an
`int`, and only the upper end is checked: `httpStatus_ok_iff`.

**Dialogue.**  To fetch the variables the client logs in, up to six times, and goes on
under the id it was granted last; it logs out if it gets to the end
(`fetch_dialogue`).

**Sessions.**  It logs out nowhere else, and does not look at whether that worked.  A
fetch that ends early keeps its session, so does every notification, and so does a logout
that is not answered with success (`sessions_kept`).

`none` is a write or a read outside of a buffer: a response that fills its buffer, as
`read_socket` puts a NUL behind it, or an id that fills its own, as `strncpy` puts none.
-/
import Uefistored.Lib.CString
import Uefistored.Startup

namespace Uefistored

open Lib

/-! ## Responses -/

/-- `http_status`. -/
def httpStatus (response : List UInt8) : Int :=
  match strchr 0x20 response with
  | none => -1
  | some p =>
    let status := strtol p
    if status = LONG_MIN ∨ status = LONG_MAX ∨ status > INT_MAX then -1
    -- the conversion to `int` keeps the low 32 bits
    else status.bmod (2 ^ 32)

/-- `response_body`. -/
def responseBody (response : List UInt8) : Option (List UInt8) :=
  (strstr response (literal "\r\n\r\n")).map (·.drop 4)

theorem clampLong_eq_iff {n v : Int} (hmin : v ≠ LONG_MIN) (hmax : v ≠ LONG_MAX) :
    clampLong n = v ↔ n = v ∧ LONG_MIN < v ∧ v < LONG_MAX := by
  simp only [clampLong, LONG_MIN, LONG_MAX] at *
  omega

/-- The `int` of a number below `INT_MAX` is 200. -/
theorem bmod_eq_ok_iff {n : Int} (h : n ≤ INT_MAX) :
    n.bmod (2 ^ 32) = 200 ↔ n = 200 ∨ n < 0 ∧ n % 2 ^ 32 = 200 := by
  simp only [INT_MAX] at h
  rw [Int.bmod_def]
  omega

/-- A response counts as good exactly if the number behind its first blank is 200; or if it is
negative, fits a `long` and is 200 modulo 2^32. -/
theorem httpStatus_ok_iff (response : List UInt8) : httpStatus response = 200 ↔
    ∃ front rest n, cstr response = front ++ 0x20 :: rest ∧ 0x20 ∉ front ∧
      Numeral (0x20 :: rest) n ∧ (n = 200 ∨ LONG_MIN < n ∧ n < 0 ∧ n % 2 ^ 32 = 200) := by
  constructor
  · intro h
    unfold httpStatus at h
    split at h
    · cases h
    · rename_i p hp
      obtain ⟨front, rest, hsplit, hfront, rfl⟩ := strchr_eq_some_iff.mp hp
      dsimp only at h
      split at h
      · cases h
      · rename_i hrange
        obtain ⟨hmin, hmax, hint⟩ := not_or.mp hrange |>.imp_right not_or.mp
        have hok := (bmod_eq_ok_iff (Int.not_lt.mp hint)).mp h
        have hne : strtol (0x20 :: rest) ≠ 0 := by omega
        obtain ⟨n, hn, hclamp⟩ := (strtol_eq_iff hne).mp rfl
        obtain ⟨heq, hlow, -⟩ := (clampLong_eq_iff hmin hmax).mp hclamp
        rw [← heq] at hok hlow
        exact ⟨front, rest, n, hsplit, hfront, hn, hok.imp_right fun ⟨hneg, hmod⟩ =>
          ⟨hlow, hneg, hmod⟩⟩
  · rintro ⟨front, rest, n, hsplit, hfront, hn, hok⟩
    have hchr : strchr 0x20 response = some (0x20 :: rest) :=
      strchr_eq_some_iff.mpr ⟨front, rest, hsplit, hfront, rfl⟩
    have hlong : n ≠ LONG_MIN ∧ n ≠ LONG_MAX ∧ LONG_MIN < n ∧ n < LONG_MAX ∧ n ≤ INT_MAX := by
      simp only [LONG_MIN, LONG_MAX, INT_MAX] at *
      omega
    obtain ⟨hmin, hmax, hlow, hhigh, hint⟩ := hlong
    have hstrtol : strtol (0x20 :: rest) = n :=
      hn.strtol_eq.trans ((clampLong_eq_iff hmin hmax).mpr ⟨rfl, hlow, hhigh⟩)
    unfold httpStatus
    rw [hchr]
    dsimp only
    rw [hstrtol, if_neg (not_or.mpr ⟨hmin, not_or.mpr ⟨hmax, Int.not_lt.mpr hint⟩⟩)]
    exact (bmod_eq_ok_iff hint).mpr (hok.imp_right And.right)

example : httpStatus (literal "HTTP/1.1 -4294967096 Bad") = 200 := by decide +kernel

/-! ## Requests -/

def SESSION_ID_SIZE : Nat := 512
def MAX_RESPONSE_SIZE : Nat := 4096
def VM_UUID_MAX : Nat := 36

/-- The calls of the client but for the one in `Uefistored.Message`. -/
inductive XapiCall
  | login
  | vmGetByUuid (id uuid : List UInt8)
  | vmGetNvram (id uuid : List UInt8)
  | logout (id : List UInt8)
  | messageCreate (id uuid : List UInt8)
  deriving DecidableEq

def stringParam (text : List UInt8) : List UInt8 :=
  literal "<param><value><string>" ++ (text ++ literal "</string></value></param>")

def methodCall (xml method : List UInt8) (params : List (List UInt8)) : List UInt8 :=
  xml ++ (literal "<methodCall>" ++ (literal "<methodName>" ++ (method ++
    (literal "</methodName>" ++ (literal "<params>" ++ (params.flatten ++
      (literal "</params>" ++ literal "</methodCall>")))))))

/-- The body of a request.  But for `MESSAGE_CREATE` the texts have no blank behind `xml`. -/
def XapiCall.body : XapiCall → List UInt8
  | .login => methodCall (literal "<?xmlversion='1.0'?>") (literal "session.login_with_password")
      [stringParam (literal "root"), stringParam [], stringParam [], stringParam []]
  | .vmGetByUuid id uuid => methodCall (literal "<?xmlversion='1.0'?>")
      (literal "VM.get_by_uuid") [stringParam id, stringParam uuid]
  | .vmGetNvram id uuid => methodCall (literal "<?xmlversion='1.0'?>")
      (literal "VM.get_NVRAM") [stringParam id, stringParam uuid]
  | .logout id => methodCall (literal "<?xmlversion='1.0'?>")
      (literal "session.logout") [stringParam id]
  | .messageCreate id uuid => methodCall (literal "<?xml version='1.0'?>")
      (literal "message.create")
      [stringParam id, stringParam (literal "VM_SECURE_BOOT_FAILED"),
        literal "<param><value><int>5</int></value></param>", stringParam (literal "VM"),
        stringParam uuid, stringParam (literal "The VM failed to pass Secure Boot verification")]

/-- The size of the buffer for the response. -/
def XapiCall.room : XapiCall → Nat
  | .login => 1024
  | .vmGetByUuid _ _ => 1024
  | .vmGetNvram _ _ => MSG_SIZE
  | .logout _ => 1024
  | .messageCreate _ _ => MAX_RESPONSE_SIZE

/-- The message that `xapi_request` builds.  `none`: `strncat` puts its NUL behind the buffer,
which is where the body begins. -/
def xapiMessage (body : List UInt8) : Option (List UInt8) :=
  if (headerText body.length).length + body.length < MSG_SIZE then
    some (headerText body.length ++ body)
  else none

/-- The arguments of a call are shorter than the buffers that they come from. -/
def XapiCall.Sized : XapiCall → Prop
  | .login => True
  | .vmGetByUuid id uuid => id.length < SESSION_ID_SIZE ∧ uuid.length ≤ VM_UUID_MAX
  | .vmGetNvram id uuid => id.length < SESSION_ID_SIZE ∧ uuid.length ≤ VM_UUID_MAX
  | .logout id => id.length < SESSION_ID_SIZE
  | .messageCreate id uuid => id.length < SESSION_ID_SIZE ∧ uuid.length ≤ VM_UUID_MAX

theorem length_stringParam (text : List UInt8) : (stringParam text).length = text.length + 47 := by
  have hfront : (literal "<param><value><string>").length = 22 := by decide +kernel
  have hback : (literal "</string></value></param>").length = 25 := by decide +kernel
  rw [stringParam, List.length_append, List.length_append, hfront, hback]
  omega

theorem length_methodCall (xml method : List UInt8) (params : List (List UInt8)) :
    (methodCall xml method params).length =
      xml.length + method.length + params.flatten.length + 67 := by
  have htexts : (literal "<methodCall>").length = 12 ∧ (literal "<methodName>").length = 12 ∧
      (literal "</methodName>").length = 13 ∧ (literal "<params>").length = 8 ∧
      (literal "</params>").length = 9 ∧ (literal "</methodCall>").length = 13 := by
    decide +kernel
  obtain ⟨h₁, h₂, h₃, h₄, h₅, h₆⟩ := htexts
  simp only [methodCall, List.length_append, h₁, h₂, h₃, h₄, h₅, h₆]
  omega

theorem XapiCall.Sized.length_body_le {call : XapiCall} (h : call.Sized) :
    call.body.length ≤ 2000 := by
  have htexts : (literal "<?xmlversion='1.0'?>").length = 20 ∧
      (literal "<?xml version='1.0'?>").length = 21 ∧
      (literal "session.login_with_password").length = 27 ∧ (literal "root").length = 4 ∧
      (literal "VM.get_by_uuid").length = 14 ∧ (literal "VM.get_NVRAM").length = 12 ∧
      (literal "session.logout").length = 14 ∧ (literal "message.create").length = 14 ∧
      (literal "VM_SECURE_BOOT_FAILED").length = 21 ∧ (literal "VM").length = 2 ∧
      (literal "<param><value><int>5</int></value></param>").length = 42 ∧
      (literal "The VM failed to pass Secure Boot verification").length = 46 := by
    decide +kernel
  cases call <;>
    simp only [XapiCall.Sized, XapiCall.body, length_methodCall, length_stringParam,
      List.flatten_cons, List.flatten_nil, List.length_append, List.length_nil, SESSION_ID_SIZE,
      VM_UUID_MAX, htexts] at h ⊢ <;>
    omega

/-- The message for such a call fits. -/
theorem XapiCall.Sized.message {call : XapiCall} (h : call.Sized) :
    ∃ message, xapiMessage call.body = some message := by
  have hbody := h.length_body_le
  have hdigits : (decimal call.body.length).length ≤ 4 :=
    (length_decimal_le_iff (by decide)).mpr (by omega)
  have hfits : (headerText call.body.length).length + call.body.length < MSG_SIZE := by
    rw [length_headerText, MSG_SIZE, PAGE_SIZE]
    omega
  exact ⟨_, if_pos hfits⟩

/-! ## The client -/

/-- XAPI's response to the `i`-th message, if it can be reached; and what libxml finds in a
body.  The outer `none` is a crash, as on a path that leads to no node. -/
structure Peer where
  reply : Nat → List UInt8 → Option (List UInt8)
  success : List UInt8 → Option Bool
  value : List UInt8 → Option (Option (List UInt8))
  efiVariables : List UInt8 → Option (Option (List UInt8))

/-- Code that sends requests; the state is those that it tried to send. -/
abbrev Talk := StateT (List XapiCall) Option

namespace Peer

variable (x : Peer)

/-- `send_request`; the inner `none` is a failure. -/
def sendRequest (i : Nat) (message : List UInt8) (size : Nat) : Option (Option (List UInt8)) :=
  match x.reply i message with
  | none => some none
  | some response =>
    if size ≤ response.length then none
    else some (if httpStatus response = 200 then some response else none)

/-- The `i`-th request, and what is read from a good response to it. -/
def exchange {α : Type} (i : Nat) (call : XapiCall) (read : List UInt8 → Option (Option α)) :
    Option (Option α) := do
  let message ← xapiMessage call.body
  match ← x.sendRequest i message call.room with
  | none => some none
  | some response => read response

/-- `xapi_request` with the code behind it. -/
def xapiRequest {α : Type} (call : XapiCall) (read : List UInt8 → Option (Option α)) :
    Talk (Option α) := fun sent => do
  let result ← x.exchange sent.length call read
  some (result, sent ++ [call])

/-- `success(response_body(response))`. -/
def succeeds (response : List UInt8) : Option Bool :=
  match responseBody response with
  | none => some false
  | some body => x.success body

/-- `get_value`. -/
def getValue (n : Nat) (body : List UInt8) : Option (Option (List UInt8)) := do
  match ← x.value body with
  | none => some none
  | some string => if (cstr string).length < n then some (some (cstr string)) else none

/-- `get_response_content`. -/
def getResponseContent (n : Nat) (response : List UInt8) : Option (Option (List UInt8)) := do
  match ← x.succeeds response, responseBody response with
  | true, some body => x.getValue n body
  | _, _ => some none

/-- `base64_from_response`. -/
def base64FromResponse (response : List UInt8) : Option (Option (List UInt8)) :=
  match responseBody response with
  | none => some none
  | some body => x.efiVariables body

/-- Whether the call succeeded, for the functions that look at nothing else. -/
def done (response : List UInt8) : Option (Option Unit) := do
  if ← x.succeeds response then some (some ()) else some none

/-- `session_login`. -/
def sessionLogin : Talk (Option (List UInt8)) :=
  x.xapiRequest .login (x.getResponseContent SESSION_ID_SIZE)

/-- The loop of `session_login_retry`. -/
def loginLoop : Nat → Option (List UInt8) → Talk (Option (List UInt8))
  | _, some id => pure (some id)
  | 0, none => pure none
  | retries + 1, none => x.sessionLogin >>= loginLoop retries

/-- `session_login_retry`. -/
def sessionLoginRetry : Talk (Option (List UInt8)) := x.sessionLogin >>= x.loginLoop 5

/-- `xapi_vm_get_by_uuid`. -/
def xapiVmGetByUuid (uuid id : List UInt8) : Talk (Option Unit) :=
  x.xapiRequest (.vmGetByUuid id uuid) x.done

/-- `xapi_get_nvram`. -/
def xapiGetNvram (uuid id : List UInt8) : Talk (Option (List UInt8)) :=
  x.xapiRequest (.vmGetNvram id uuid) x.base64FromResponse

/-- `session_logout`. -/
def sessionLogout (id : List UInt8) : Talk (Option Unit) := x.xapiRequest (.logout id) x.done

/-- `xapi_variables_request` up to the text of the variables (`xapiVariablesRequest`). -/
def fetchVariables (uuid : List UInt8) : Talk Answer := do
  match ← x.sessionLoginRetry with
  | none => return .noSession
  | some id =>
    match ← x.xapiVmGetByUuid uuid id with
    | none => return .noVm
    | some () =>
      match ← x.xapiGetNvram uuid id with
      | none => return .noNvram
      | some text =>
        -- whether this works is not looked at
        let _ ← x.sessionLogout id
        return .nvram text

/-- `xapi_notify`. -/
def xapiNotify (uuid : List UInt8) : Talk Int := do
  match ← x.sessionLoginRetry with
  | none => return -1
  | some id =>
    match ← x.xapiRequest (.messageCreate id uuid) (fun _ => some (some ())) with
    | none => return -1
    | some () => return 0

/-! ## Sessions -/

/-- The id that the `i`-th request was granted, if it was a login. -/
def granted (i : Nat) : Option (List UInt8) :=
  (x.exchange i .login (x.getResponseContent SESSION_ID_SIZE)).join

/-- Whether the `i`-th request, a logout, was answered with success. -/
def released (i : Nat) (id : List UInt8) : Bool :=
  (x.exchange i (.logout id) x.done).join.isSome

/-- The sessions that are kept behind the `i`-th request.  A logout that fails hands nothing
back. -/
def keptBehind (kept : List (List UInt8)) (i : Nat) : XapiCall → List (List UInt8)
  | .login => (x.granted i).toList ++ kept
  | .logout id => if x.released i id then kept.erase id else kept
  | _ => kept

/-- The ids that were granted and not handed back, the latest in front. -/
def kept (sent : List XapiCall) : List (List UInt8) :=
  sent.zipIdx.foldl (fun kept (call, i) => x.keptBehind kept i call) []

/-- Whether the `i`-th request is the last one under its session and leaves it open: a
notification, as no logout follows it, or a logout that is not answered with success. -/
def leaves (i : Nat) : XapiCall → Bool
  | .messageCreate _ _ => true
  | .logout id => !x.released i id
  | _ => false

/-- How many of the requests are such. -/
def left (sent : List XapiCall) : Nat :=
  sent.zipIdx.countP (fun (call, i) => x.leaves i call)

variable {x}

theorem kept_snoc (sent : List XapiCall) (call : XapiCall) :
    x.kept (sent ++ [call]) = x.keptBehind (x.kept sent) sent.length call := by
  simp [kept, List.zipIdx_append]

theorem left_snoc (sent : List XapiCall) (call : XapiCall) :
    x.left (sent ++ [call]) = x.left sent + if x.leaves sent.length call then 1 else 0 := by
  simp [left, List.zipIdx_append, List.countP_append, List.countP_singleton]

/-- A login leaves nothing. -/
theorem left_logins (sent : List XapiCall) (n : Nat) :
    x.left (sent ++ List.replicate n .login) = x.left sent := by
  induction n with
  | zero => simp
  | succ n ih =>
      rw [List.replicate_succ', ← List.append_assoc, left_snoc, ih]
      rfl

variable {sent sent' : List XapiCall} {uuid : List UInt8}

theorem bind_some {α β : Type} {c : Talk α} {f : α → Talk β} {b : β}
    (h : (c >>= f) sent = some (b, sent')) :
    ∃ a sent₁, c sent = some (a, sent₁) ∧ f a sent₁ = some (b, sent') := by
  obtain ⟨⟨a, sent₁⟩, hc, hf⟩ := Option.bind_eq_some_iff.mp h
  exact ⟨a, sent₁, hc, hf⟩

theorem xapiRequest_some {α : Type} {call : XapiCall} {read : List UInt8 → Option (Option α)}
    {r : Option α} (h : x.xapiRequest call read sent = some (r, sent')) :
    x.exchange sent.length call read = some r ∧ sent' = sent ++ [call] := by
  obtain ⟨r', hr, h⟩ := Option.bind_eq_some_iff.mp h
  cases h
  exact ⟨hr, rfl⟩

/-- `tries` logins, and what came of them: all but the last were refused. -/
structure Logins (x : Peer) (sent : List XapiCall) (tries : Nat) (r : Option (List UInt8)) :
    Prop where
  refused : ∀ j, j + 1 < tries → x.granted (sent.length + j) = none
  last : ∀ j, j + 1 = tries → x.granted (sent.length + j) = r

theorem sessionLogin_some {r : Option (List UInt8)} (h : x.sessionLogin sent = some (r, sent')) :
    x.granted sent.length = r ∧ sent' = sent ++ [.login] := by
  obtain ⟨hr, rfl⟩ := xapiRequest_some h
  refine ⟨?_, rfl⟩
  rw [granted, hr]
  rfl

theorem Logins.one {r : Option (List UInt8)} (h : x.granted sent.length = r) :
    x.Logins sent 1 r where
  refused := fun j hj => absurd hj (by omega)
  last := fun j hj => by
    obtain rfl : j = 0 := by omega
    exact h

/-- A login in front of others was refused. -/
theorem logins_succ_iff {tries : Nat} {r : Option (List UInt8)} : x.Logins sent (tries + 2) r ↔
    x.granted sent.length = none ∧ x.Logins (sent ++ [.login]) (tries + 1) r := by
  have hlen : ∀ j, (sent ++ [XapiCall.login]).length + j = sent.length + (j + 1) := by
    intro j
    rw [List.length_append, List.length_singleton]
    omega
  constructor
  · intro h
    exact ⟨h.refused 0 (by omega), fun j hj => hlen j ▸ h.refused (j + 1) (by omega),
      fun j hj => hlen j ▸ h.last (j + 1) (by omega)⟩
  · rintro ⟨hfirst, h⟩
    constructor
    · intro j hj
      cases j with
      | zero => exact hfirst
      | succ j => exact hlen j ▸ h.refused j (by omega)
    · intro j hj
      cases j with
      | zero => omega
      | succ j => exact hlen j ▸ h.last j (by omega)

/-- The loop, entered behind a login. -/
theorem loginLoop_some (retries : Nat) : ∀ {r₀ r : Option (List UInt8)}
    {sent sent' : List XapiCall}, x.granted sent.length = r₀ →
    x.loginLoop retries r₀ (sent ++ [.login]) = some (r, sent') →
    ∃ tries, sent' = sent ++ List.replicate (tries + 1) .login ∧ tries ≤ retries ∧
      (r = none → tries = retries) ∧ x.Logins sent (tries + 1) r := by
  induction retries with
  | zero =>
      intro r₀ r sent sent' hgranted h
      cases r₀ with
      | none =>
          cases h
          exact ⟨0, rfl, Nat.le_refl 0, fun _ => rfl, .one hgranted⟩
      | some id =>
          cases h
          exact ⟨0, rfl, Nat.le_refl 0, nofun, .one hgranted⟩
  | succ retries ih =>
      intro r₀ r sent sent' hgranted h
      cases r₀ with
      | some id =>
          cases h
          exact ⟨0, rfl, Nat.zero_le _, nofun, .one hgranted⟩
      | none =>
          obtain ⟨r₁, sent₁, hlogin, h⟩ := bind_some h
          obtain ⟨hr₁, rfl⟩ := sessionLogin_some hlogin
          obtain ⟨tries, rfl, hle, hnone, hlogins⟩ := ih hr₁ h
          refine ⟨tries + 1, ?_, Nat.succ_le_succ hle, fun hr => by rw [hnone hr],
            logins_succ_iff.mpr ⟨hgranted, hlogins⟩⟩
          rw [List.append_assoc, List.singleton_append, ← List.replicate_succ]

theorem sessionLoginRetry_some {r : Option (List UInt8)}
    (h : x.sessionLoginRetry sent = some (r, sent')) :
    ∃ tries, sent' = sent ++ List.replicate (tries + 1) .login ∧ tries ≤ 5 ∧
      (r = none → tries = 5) ∧ x.Logins sent (tries + 1) r := by
  obtain ⟨r₀, sent₁, hlogin, h⟩ := bind_some h
  obtain ⟨hr₀, rfl⟩ := sessionLogin_some hlogin
  exact loginLoop_some 5 hr₀ h

/-- Of the logins only the last one can add a session. -/
theorem Logins.kept_eq {r : Option (List UInt8)} (tries : Nat) : ∀ {sent : List XapiCall},
    x.Logins sent (tries + 1) r →
    x.kept (sent ++ List.replicate (tries + 1) .login) = r.toList ++ x.kept sent := by
  induction tries with
  | zero =>
      intro sent h
      rw [List.replicate_one, kept_snoc, keptBehind]
      rw [show x.granted sent.length = r from h.last 0 rfl]
  | succ tries ih =>
      intro sent h
      obtain ⟨hrefused, htail⟩ := logins_succ_iff.mp h
      -- the refused login in front adds nothing
      have hfirst : x.kept (sent ++ [.login]) = x.kept sent := by
        rw [kept_snoc, keptBehind, hrefused]
        rfl
      rw [List.replicate_succ, ← List.singleton_append, ← List.append_assoc, ih htail, hfirst]

/-! ## The dialogue -/

/-- The requests behind the logins of a fetch, by its end; `id` is what the last login was
granted. -/
inductive Dialogue (uuid : List UInt8) : Option (List UInt8) → Answer → List XapiCall → Prop
  | noSession : Dialogue uuid none .noSession []
  | noVm (id : List UInt8) : Dialogue uuid (some id) .noVm [.vmGetByUuid id uuid]
  | noNvram (id : List UInt8) :
      Dialogue uuid (some id) .noNvram [.vmGetByUuid id uuid, .vmGetNvram id uuid]
  | nvram (id text : List UInt8) : Dialogue uuid (some id) (.nvram text)
      [.vmGetByUuid id uuid, .vmGetNvram id uuid, .logout id]

theorem fetchVariables_some {answer : Answer}
    (h : x.fetchVariables uuid sent = some (answer, sent')) :
    ∃ tries r rest, sent' = sent ++ List.replicate (tries + 1) .login ++ rest ∧ tries ≤ 5 ∧
      (r = none → tries = 5) ∧ x.Logins sent (tries + 1) r ∧ Dialogue uuid r answer rest := by
  obtain ⟨r, sent₁, hlogin, h⟩ := bind_some h
  obtain ⟨tries, rfl, hle, hnone, hlogins⟩ := sessionLoginRetry_some hlogin
  cases r with
  | none =>
      cases h
      exact ⟨tries, none, [], (List.append_nil _).symm, hle, hnone, hlogins, .noSession⟩
  | some id =>
      obtain ⟨vm, sent₂, hvm, h⟩ := bind_some h
      obtain ⟨-, rfl⟩ := xapiRequest_some hvm
      cases vm with
      | none =>
          cases h
          exact ⟨tries, some id, _, rfl, hle, hnone, hlogins, .noVm id⟩
      | some _ =>
          obtain ⟨text, sent₃, hnvram, h⟩ := bind_some h
          obtain ⟨-, rfl⟩ := xapiRequest_some hnvram
          cases text with
          | none =>
              cases h
              exact ⟨tries, some id, _, List.append_assoc _ _ _, hle, hnone, hlogins, .noNvram id⟩
          | some text =>
              obtain ⟨_, sent₄, hlogout, h⟩ := bind_some h
              obtain ⟨-, rfl⟩ := xapiRequest_some hlogout
              cases h
              refine ⟨tries, some id, _, ?_, hle, hnone, hlogins, .nvram id text⟩
              simp only [List.append_assoc, List.cons_append, List.nil_append]

theorem xapiNotify_some {ret : Int} (h : x.xapiNotify uuid sent = some (ret, sent')) :
    ∃ tries r, tries ≤ 5 ∧ x.Logins sent (tries + 1) r ∧
      sent' = sent ++ List.replicate (tries + 1) .login ++
        (r.map (XapiCall.messageCreate · uuid)).toList := by
  obtain ⟨r, sent₁, hlogin, h⟩ := bind_some h
  obtain ⟨tries, rfl, hle, -, hlogins⟩ := sessionLoginRetry_some hlogin
  cases r with
  | none =>
      cases h
      exact ⟨tries, none, hle, hlogins, (List.append_nil _).symm⟩
  | some id =>
      obtain ⟨ok, sent₂, hcreate, h⟩ := bind_some h
      obtain ⟨-, rfl⟩ := xapiRequest_some hcreate
      cases ok with
      | none =>
          cases h
          exact ⟨tries, some id, hle, hlogins, rfl⟩
      | some _ =>
          cases h
          exact ⟨tries, some id, hle, hlogins, rfl⟩

/-! ## No access outside of a buffer -/

/-- A peer whose responses and ids are shorter than the buffers for them, in XML that has the
nodes that are looked for. -/
structure Orderly (x : Peer) : Prop where
  short : ∀ (i : Nat) (call : XapiCall) (message response : List UInt8),
    xapiMessage call.body = some message → x.reply i message = some response →
      response.length < call.room
  success : ∀ body, (x.success body).isSome
  value : ∀ body, ∃ v, x.value body = some v ∧
    ∀ string ∈ v, (cstr string).length < SESSION_ID_SIZE
  efiVariables : ∀ body, (x.efiVariables body).isSome

section
variable (hx : x.Orderly)
include hx

theorem Orderly.exchange {α : Type} {i : Nat} {call : XapiCall}
    {read : List UInt8 → Option (Option α)} (hcall : call.Sized)
    (hread : ∀ response, (read response).isSome) : (x.exchange i call read).isSome := by
  obtain ⟨message, hmessage⟩ := hcall.message
  simp only [Peer.exchange, hmessage, sendRequest, Option.bind_eq_bind, Option.bind_some]
  cases hreply : x.reply i message with
  | none => rfl
  | some response =>
      simp only [if_neg (Nat.not_le.mpr (hx.short i call message response hmessage hreply)),
        Option.bind_some]
      split
      · rfl
      · exact hread _

theorem Orderly.succeeds (response : List UInt8) : (x.succeeds response).isSome := by
  unfold Peer.succeeds
  split
  · rfl
  · exact hx.success _

theorem Orderly.done (response : List UInt8) : (x.done response).isSome := by
  obtain ⟨ok, hok⟩ := Option.isSome_iff_exists.mp (hx.succeeds response)
  cases ok <;> simp [Peer.done, hok]

theorem Orderly.getResponseContent (response : List UInt8) :
    (x.getResponseContent SESSION_ID_SIZE response).isSome := by
  obtain ⟨ok, hok⟩ := Option.isSome_iff_exists.mp (hx.succeeds response)
  simp only [Peer.getResponseContent, hok, Option.bind_eq_bind, Option.bind_some]
  split
  · rename_i body _
    obtain ⟨v, hv, hshort⟩ := hx.value body
    cases v with
    | none => simp [getValue, hv]
    | some string => simp [getValue, hv, hshort string rfl]
  · rfl

theorem Orderly.base64FromResponse (response : List UInt8) :
    (x.base64FromResponse response).isSome := by
  unfold Peer.base64FromResponse
  split
  · rfl
  · exact hx.efiVariables _

theorem Orderly.xapiRequest {α : Type} {call : XapiCall} {read : List UInt8 → Option (Option α)}
    (hcall : call.Sized) (hread : ∀ response, (read response).isSome) (sent : List XapiCall) :
    (x.xapiRequest call read sent).isSome := by
  obtain ⟨r, hr⟩ := Option.isSome_iff_exists.mp (hx.exchange (i := sent.length) hcall hread)
  simp [Peer.xapiRequest, hr]

end

theorem bind_isSome {α β : Type} {c : Talk α} {f : α → Talk β} (hc : (c sent).isSome)
    (hf : ∀ a sent₁, c sent = some (a, sent₁) → (f a sent₁).isSome) : ((c >>= f) sent).isSome := by
  obtain ⟨⟨a, sent₁⟩, h⟩ := Option.isSome_iff_exists.mp hc
  have hbind : (c >>= f) sent = f a sent₁ := by
    show (c sent).bind _ = _
    rw [h]
    rfl
  rw [hbind]
  exact hf a sent₁ h

theorem Orderly.sessionLogin (hx : x.Orderly) (sent : List XapiCall) :
    (x.sessionLogin sent).isSome := by
  have hsized : XapiCall.login.Sized := trivial
  exact hx.xapiRequest hsized hx.getResponseContent sent

theorem Orderly.loginLoop (hx : x.Orderly) (retries : Nat) : ∀ (r : Option (List UInt8))
    (sent : List XapiCall), (x.loginLoop retries r sent).isSome := by
  induction retries with
  | zero =>
      intro r sent
      cases r <;> rfl
  | succ retries ih =>
      intro r sent
      cases r with
      | none => exact bind_isSome (hx.sessionLogin sent) fun r₁ sent₁ _ => ih r₁ sent₁
      | some id => rfl

theorem Orderly.sessionLoginRetry (hx : x.Orderly) (sent : List XapiCall) :
    (x.sessionLoginRetry sent).isSome :=
  bind_isSome (hx.sessionLogin sent) fun r sent₁ _ => hx.loginLoop 5 r sent₁

/-- An id that was granted has its NUL in the buffer. -/
theorem length_granted {i : Nat} {id : List UInt8} (h : x.granted i = some id) :
    id.length < SESSION_ID_SIZE := by
  have hex : x.exchange i .login (x.getResponseContent SESSION_ID_SIZE) = some (some id) :=
    Option.join_eq_some_iff.mp h
  unfold exchange at hex
  obtain ⟨message, -, hex⟩ := Option.bind_eq_some_iff.mp hex
  obtain ⟨response, -, hex⟩ := Option.bind_eq_some_iff.mp hex
  cases response with
  | none => cases hex
  | some response =>
      replace hex : x.getResponseContent SESSION_ID_SIZE response = some (some id) := hex
      unfold getResponseContent at hex
      obtain ⟨ok, -, hex⟩ := Option.bind_eq_some_iff.mp hex
      split at hex
      · unfold getValue at hex
        obtain ⟨v, -, hex⟩ := Option.bind_eq_some_iff.mp hex
        cases v with
        | none => cases hex
        | some string =>
            dsimp only at hex
            split at hex
            · rename_i hlt
              cases hex
              exact hlt
            · cases hex
      · cases hex

theorem Orderly.fetchVariables (hx : x.Orderly) (huuid : uuid.length ≤ VM_UUID_MAX)
    (sent : List XapiCall) : (x.fetchVariables uuid sent).isSome := by
  refine bind_isSome (hx.sessionLoginRetry sent) ?_
  intro r sent₁ hlogin
  obtain ⟨tries, -, -, -, hlogins⟩ := sessionLoginRetry_some hlogin
  cases r with
  | none => rfl
  | some id =>
      have hid := length_granted (hlogins.last tries rfl)
      have hvm : (XapiCall.vmGetByUuid id uuid).Sized := ⟨hid, huuid⟩
      have hnvram : (XapiCall.vmGetNvram id uuid).Sized := ⟨hid, huuid⟩
      have hlogout : (XapiCall.logout id).Sized := hid
      refine bind_isSome (hx.xapiRequest hvm hx.done sent₁) ?_
      intro vm sent₂ _
      cases vm with
      | none => rfl
      | some _ =>
          refine bind_isSome (hx.xapiRequest hnvram hx.base64FromResponse sent₂) ?_
          intro text sent₃ _
          cases text with
          | none => rfl
          | some text => exact bind_isSome (hx.xapiRequest hlogout hx.done sent₃) fun _ _ _ => rfl

/-- **The fetch**: from one to six logins, the last one granted or all refused; then the calls
under the id of the last one, and a logout if and only if the variables were got. -/
theorem fetch_dialogue (hx : x.Orderly) (huuid : uuid.length ≤ VM_UUID_MAX)
    (sent : List XapiCall) : ∃ answer tries r rest, x.fetchVariables uuid sent =
        some (answer, sent ++ List.replicate (tries + 1) .login ++ rest) ∧ tries ≤ 5 ∧
      (r = none → tries = 5) ∧ x.Logins sent (tries + 1) r ∧ Dialogue uuid r answer rest := by
  obtain ⟨⟨answer, sent'⟩, h⟩ := Option.isSome_iff_exists.mp (hx.fetchVariables huuid sent)
  obtain ⟨tries, r, rest, rfl, hrest⟩ := fetchVariables_some h
  exact ⟨answer, tries, r, rest, h, hrest⟩

end Peer

/-- A peer that answers every request alike, and grants the id `"S"`. -/
def obliging : Peer where
  reply := fun _ _ => some (literal "HTTP/1.1 200 OK\r\n\r\n")
  success := fun _ => some true
  value := fun _ => some (some (literal "S"))
  efiVariables := fun _ => some (some (literal "QQ=="))

theorem obliging_orderly : obliging.Orderly where
  short := by
    intro i call message response _ hreply
    have hlen : (literal "HTTP/1.1 200 OK\r\n\r\n").length = 19 := by decide +kernel
    have hroom : 1024 ≤ call.room := by
      cases call <;> simp [XapiCall.room, MSG_SIZE, PAGE_SIZE, MAX_RESPONSE_SIZE]
    cases hreply
    omega
  success := fun _ => rfl
  value := fun _ => ⟨_, rfl, by
    rintro string ⟨⟩
    decide +kernel⟩
  efiVariables := fun _ => rfl

theorem fetch_dialogue_obliging : ∃ answer tries r rest, obliging.fetchVariables [] [] =
      some (answer, [] ++ List.replicate (tries + 1) .login ++ rest) ∧
    Peer.Dialogue [] r answer rest ∧ rest.length = 3 := by
  obtain ⟨answer, tries, r, rest, h, -, -, -, hdialogue⟩ :=
    Peer.fetch_dialogue obliging_orderly (by decide : ([] : List UInt8).length ≤ VM_UUID_MAX) []
  have hfetch : obliging.fetchVariables [] [] = some (.nvram (literal "QQ=="),
      [.login, .vmGetByUuid (literal "S") [], .vmGetNvram (literal "S") [],
        .logout (literal "S")]) := by
    decide +kernel
  refine ⟨answer, tries, r, rest, h, hdialogue, ?_⟩
  cases hdialogue with
  | nvram id text => rfl
  | _ => cases h.symm.trans hfetch

/-! ## What is left open -/

/-- What the program does with XAPI, but for sending the variables, which needs no session. -/
inductive Talked
  | fetched (answer : Answer)
  | notified (ret : Int)

inductive TalkStep (x : Peer) (uuid : List UInt8) :
    List XapiCall → Talked → List XapiCall → Prop
  | fetch {sent sent' : List XapiCall} {answer : Answer} :
      x.fetchVariables uuid sent = some (answer, sent') →
      TalkStep x uuid sent (.fetched answer) sent'
  | notify {sent sent' : List XapiCall} {ret : Int} :
      x.xapiNotify uuid sent = some (ret, sent') → TalkStep x uuid sent (.notified ret) sent'

/-- A fetch that ended between login and logout. -/
def Talked.broken : Talked → Bool
  | .fetched .noVm => true
  | .fetched .noNvram => true
  | _ => false

section
variable {x : Peer} {uuid : List UInt8} {sent sent' : List XapiCall}

/-- Behind the logins of a fetch: the session stays if the fetch breaks off, or if the logout at
its end fails. -/
theorem Peer.kept_of_dialogue {r : Option (List UInt8)} {answer : Answer} {rest : List XapiCall}
    {kept : List (List UInt8)} (hkept : x.kept sent = r.toList ++ kept)
    (h : Dialogue uuid r answer rest) :
    (x.kept (sent ++ rest)).length + x.left sent =
      kept.length + (if (Talked.fetched answer).broken then 1 else 0) + x.left (sent ++ rest) := by
  cases h with
  | noSession => simp [hkept, Talked.broken]
  | noVm id =>
      rw [kept_snoc, left_snoc]
      simp [keptBehind, leaves, hkept, Talked.broken]
  | noNvram id =>
      rw [List.append_cons, kept_snoc, kept_snoc, left_snoc, left_snoc]
      simp [keptBehind, leaves, hkept, Talked.broken]
  | nvram id text =>
      rw [List.append_cons, List.append_cons, kept_snoc, kept_snoc, kept_snoc, left_snoc,
        left_snoc, left_snoc]
      have hlogout : (sent ++ [XapiCall.vmGetByUuid id uuid] ++
          [XapiCall.vmGetNvram id uuid]).length = sent.length + 2 := by
        simp
      simp only [keptBehind, leaves, hkept, hlogout]
      -- only a logout that is answered takes the session away
      cases x.released (sent.length + 2) id with
      | true => simp [Talked.broken]
      | false =>
          simp [Talked.broken]
          omega

/-- One fetch or notification: the sessions grow by the broken fetches and the requests that
leave one. -/
theorem TalkStep.balance {t : Talked} (h : TalkStep x uuid sent t sent') :
    (x.kept sent').length + x.left sent =
      (x.kept sent).length + (if t.broken then 1 else 0) + x.left sent' := by
  cases h with
  | fetch h =>
      obtain ⟨tries, r, rest, rfl, -, -, hl, hdialogue⟩ := Peer.fetchVariables_some h
      rw [← Peer.left_logins sent (tries + 1)]
      exact Peer.kept_of_dialogue (Peer.Logins.kept_eq tries hl) hdialogue
  | notify h =>
      obtain ⟨tries, r, -, hl, rfl⟩ := Peer.xapiNotify_some h
      have hkept := Peer.Logins.kept_eq tries hl
      rw [← Peer.left_logins sent (tries + 1)]
      cases r with
      | none => simp [hkept, Talked.broken]
      | some id =>
          simp only [Option.map_some, Option.toList_some, Peer.kept_snoc, Peer.left_snoc,
            Peer.keptBehind, Peer.leaves, hkept, List.length_append, List.length_singleton,
            Talked.broken, Bool.false_eq_true, if_false, if_true]
          omega

theorem talk_balance {ts : List Talked} (h : Run (TalkStep x uuid) sent ts sent') :
    (x.kept sent').length + x.left sent =
      (x.kept sent).length + ts.countP Talked.broken + x.left sent' := by
  induction h with
  | nil => simp
  | cons hstep _ ih =>
      have hone := hstep.balance
      rw [List.countP_cons]
      omega

/-- **Sessions are not handed back**: in any run of fetches and notifications, the sessions that
stay open are as many as the fetches that broke off behind the login, the notifications that got
to send their message and the logouts that were not answered with success. -/
theorem sessions_kept {ts : List Talked} (h : Run (TalkStep x uuid) [] ts sent) :
    (x.kept sent).length = ts.countP Talked.broken + x.left sent := by
  have hbalance := talk_balance h
  have hnil : x.kept [] = [] ∧ x.left [] = 0 := ⟨rfl, rfl⟩
  rw [hnil.1, hnil.2] at hbalance
  simpa using hbalance

end

/-- A peer that is not reached any more when the first fetch logs out. -/
def restarting : Peer :=
  { obliging with reply := fun i message => if i = 3 then none else obliging.reply i message }

/-- A fetch whose logout fails and a notification leave two sessions. -/
theorem sessions_kept_restarting : ∃ sent,
    Run (TalkStep restarting []) [] [.fetched (.nvram (literal "QQ==")), .notified 0] sent ∧
      (restarting.kept sent).length = 2 := by
  have hfetch : restarting.fetchVariables [] [] = some (.nvram (literal "QQ=="),
      [.login, .vmGetByUuid (literal "S") [], .vmGetNvram (literal "S") [],
        .logout (literal "S")]) := by
    decide +kernel
  have hnotify : restarting.xapiNotify [] [.login, .vmGetByUuid (literal "S") [],
        .vmGetNvram (literal "S") [], .logout (literal "S")] =
      some (0, [.login, .vmGetByUuid (literal "S") [], .vmGetNvram (literal "S") [],
        .logout (literal "S"), .login, .messageCreate (literal "S") []]) := by
    decide +kernel
  have hrun := Run.cons (TalkStep.fetch hfetch) (.cons (.notify hnotify) (.nil _))
  exact ⟨_, hrun, (sessions_kept hrun).trans (by decide +kernel)⟩

end Uefistored
