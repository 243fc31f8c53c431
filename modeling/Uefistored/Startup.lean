/-
# `Uefistored.Startup` — from the fetched variables to the loop

The end of `main` in `src/uefistored.c`, with the part of `src/xapi.c` that gets
the variables for it: from XAPI, or from the file of a suspended machine.  What
was fetched is replayed into the empty store, `auth_lib_initialize` adds what the
key files hold, and where the host asks for secure boot the program goes on only
if it is on and has its keys.  Then the variables are saved back, and the loop is
entered.

Two results.  With secure boot asked for, the loop is entered with PK, KEK and db
in the store and SecureBoot at 1, and SecureBoot stays at 1 until a verified
deletion of PK (`secureBoot_from_start`).  And a fetch that fails is taken for a
machine without variables: the loop is entered as for a new machine, and where the
message with its variables is taken, they replace what XAPI had (`start_forgets`).

`auth-enforce`, which `main` reads as well, is not looked at by any function.
-/
import Uefistored.Decode
import Uefistored.DefaultKeys
import Uefistored.Lib.CString
import Uefistored.Message
import Uefistored.Modes

namespace Uefistored

open Lib

/-! ## Where the variables come from -/

/-- `base64_to_bytes`, of a text shorter than the buffer. -/
def base64ToBytes (bio : Bio) (encoded : List UInt8) : Except Int (List UInt8) :=
  if encoded.length = 0 then .error (-1)
  else
    match bio.read encoded with
    -- the error is a `size_t` above `INT_MAX`
    | none => .error (-2)
    | some [] => .error (-1)
    | some bytes => .ok bytes

/-- What XAPI answers. -/
inductive Answer
  /-- `session_login_retry` fails. -/
  | noSession
  /-- `xapi_vm_get_by_uuid` fails. -/
  | noVm
  /-- `xapi_get_nvram` fails: there is no answer, or none that can be parsed. -/
  | noNvram
  /-- The text of `EFI-variables`. -/
  | nvram (text : List UInt8)
  deriving DecidableEq

/-- `xapi_variables_request`.  `none`: `strncpy` left no NUL behind the text, and `strlen` runs
out of the buffer. -/
def xapiVariablesRequest (bio : Bio) (front : UInt16) (n : Nat) :
    Answer → Option (Except Int (List Variable))
  | .noSession => some (.ok [])
  | .noVm => some (.ok [])
  | .noNvram => some (.ok [])
  | .nvram text =>
    if (cstr text).length ≥ MSG_SIZE then none
    else
      match base64ToBytes bio (cstr text) with
      | .error ret => some (.error ret)
      | .ok bytes => fromBytesToVars front n bytes

/-- The two ways to start: with the file of a suspended machine, which may be unreadable, or
with what XAPI has. -/
inductive Source
  | file (contents : Option (List UInt8))
  | xapi (answer : Answer)

/-- What `xapi_init` reads into its array. -/
def Source.variables (bio : Bio) (front : UInt16) : Source → Option (Except Int (List Variable))
  | .file none => some (.ok [])
  | .file (some contents) => xapiVariablesReadFile front MAX_VAR_COUNT contents
  | .xapi answer => xapiVariablesRequest bio front MAX_VAR_COUNT answer

/-- `xapi_init`: what it returns, and the store.  `uuid` is whether one was given. -/
def xapiInitFrom (bio : Bio) (front : UInt16) (uuid : Bool) (src : Source) (s : Storage) :
    Option (Int × Storage) :=
  if uuid = false then some (-1, s)
  else do
    match ← src.variables bio front with
    | .error ret => return (ret, s)
    | .ok vars =>
      let s ← restoreVariables s vars
      return (0, s)

/-! ## The end of `main` -/

/-- `uefistored_xs_read_bool`, on what `xs_read` returns. -/
def xsReadBool : Option (List UInt8) → Bool
  | none => false
  | some data => strncmpEq data.length data (literal "true")

/-- `secure_boot_on`.  `none`: the variable has no first byte. -/
def secureBootOn (s : Storage) : Option Bool :=
  match storageFindVariable s secureBootKey with
  | none => some false
  | some v => v.data.head?.map (fun b => b == 1)

/-- `sb_certs_exist`. -/
def sbCertsExist (s : Storage) : Bool :=
  storageExists s pkKey && storageExists s kekKey && storageExists s dbKey

/-- Secure boot is asked for and cannot be had. -/
def secureBootFails (m : Machine) : Option Bool :=
  if m.secureBootEnabled then do
    let on ← secureBootOn m.storage
    return !on || !sbCertsExist m.storage
  else some false

/-- The statics of the program, and what XAPI has saved for the machine. -/
def Machine.atStart (below : UInt16) (saved : List Saved) (secureBootEnabled : Bool) : Machine :=
  ⟨.empty below, .user, secureBootEnabled, false, saved, []⟩

/-- What one start of the program meets. -/
structure Boot (P X : Type) where
  ssl : Phase → OpenSsl P X
  /-- The value of `platform/secureboot` in xenstore. -/
  secureBoot : Option (List UInt8)
  db : AuthFile
  dbx : AuthFile
  kek : AuthFile
  pk : AuthFile
  /-- `drop_privileges` succeeds. -/
  privileges : Bool
  uuid : Bool
  source : Source
  /-- The unit in front of the array of `xapi_init`. -/
  front : UInt16
  /-- The units in front of what `xapi_set` copies to. -/
  fronts : Fronts
  /-- What `xapi_set` sends gets to XAPI. -/
  taken : Bool
  /-- `write_pid` succeeds. -/
  pid : Bool

section
variable {P X : Type}

/-- `main` from `auth_lib_load` up to `backend_set`: whether it gets there, and the state. -/
def startUp (bio : Bio) (b : Boot P X) (below : UInt16) (saved : List Saved) :
    Option (Bool × Machine) := do
  let m := Machine.atStart below saved (xsReadBool b.secureBoot)
  let auths ← loadKeyFiles b.db b.dbx b.kek b.pk
  if b.privileges = false then return (false, m)
  let (ret, s) ← xapiInitFrom bio b.front b.uuid b.source m.storage
  let m := { m with storage := s }
  if ret < 0 then return (false, m)
  let (status, m) ← authLibInitialize b.ssl m auths
  if status ≠ .success then return (false, m)
  let fails ← secureBootFails m
  if fails then return (false, m)
  return (true, m)

/-- `xapi_set`, with what XAPI has then: nothing is sent where no message is built, and what is
sent may get lost.  `none`: the message is built behind the buffer. -/
def xapiSet (bio : Bio) (f : Fronts) (taken : Bool) (m : Machine) : Option Machine := do
  let (ret, _) ← buildSetEfiVarsMessage bio f m.storage messageBuffer MSG_SIZE
  if ret < 0 then return m
  if taken = false then return m
  return { m with persistent := (outgoing f m.storage).map Variable.record }

/-- `main` from `auth_lib_load` on: whether the loop is entered, and the state. -/
def start (bio : Bio) (b : Boot P X) (below : UInt16) (saved : List Saved) :
    Option (Bool × Machine) := do
  let (ready, m) ← startUp bio b below saved
  if ready = false then return (false, m)
  let m ← xapiSet bio b.fronts b.taken m
  return (b.pid, m)

/-! ## Reading a boolean -/

/-- What counts as true: the start of `true`, also an empty one, and `true` with a NUL behind
it. -/
theorem xsReadBool_iff (value : Option (List UInt8)) : xsReadBool value = true ↔
    ∃ data, value = some data ∧ (data <+: literal "true" ∨ literal "true" ++ [0] <+: data) := by
  have htrue : cstr (literal "true") = literal "true" := by decide +kernel
  have hfour : (literal "true").length = 4 := by rfl
  cases value with
  | none => simp [xsReadBool]
  | some data =>
      have hlen : (cstr data).length ≤ data.length := (List.takeWhile_prefix _).length_le
      have hread : xsReadBool (some data) = true ↔
          cstr data = (literal "true").take data.length := by
        unfold xsReadBool
        rw [strncmpEq_iff, htrue, List.take_of_length_le hlen]
      rw [hread]
      constructor
      · intro heq
        refine ⟨data, rfl, ?_⟩
        rcases cstr_append_rest data with hall | ⟨rest, hrest⟩
        · left
          rw [← hall, heq]
          exact List.take_prefix _ _
        · -- there is a NUL, so the string is shorter than the data
          right
          have hlong : (cstr data).length < data.length := by
            have hsum := congrArg List.length hrest
            rw [List.length_append, List.length_cons] at hsum
            omega
          have hwhole : cstr data = literal "true" := by
            rw [heq]
            refine List.take_of_length_le ?_
            rw [heq, List.length_take] at hlong
            omega
          rw [hrest, hwhole, ← List.singleton_append, ← List.append_assoc]
          exact List.prefix_append _ _
      · rintro ⟨_, hdata, hpre | hpre⟩
        · obtain rfl := Option.some.inj hdata
          have htext : IsText data :=
            fun c hc => (by decide +kernel : IsText (literal "true")) c (hpre.subset hc)
          rw [cstr_of_isText htext]
          exact List.prefix_iff_eq_take.mp hpre
        · obtain rfl := Option.some.inj hdata
          obtain ⟨rest, rfl⟩ := hpre
          have hsplit : literal "true" ++ [0] ++ rest = literal "true" ++ 0 :: rest := by simp
          rw [hsplit, cstr_text (by decide +kernel), List.take_of_length_le]
          rw [List.length_append]
          exact Nat.le_add_right _ _

example : xsReadBool (some []) = true ∧ xsReadBool (some (literal "false")) = false := by
  decide +kernel

/-! ## What a start goes through -/

theorem fromBytesToVars_error_neg {front : UInt16} {n : Nat} {bytes : List UInt8} {ret : Int}
    (h : fromBytesToVars front n bytes = some (.error ret)) : ret < 0 := by
  have hread : ∀ r, (unserializeVars front n).read bytes = some (.error r) → r < 0 := by
    intro r hr
    by_cases hlen : bytes.length < 24
    · rw [unserializeVars_short front n hlen] at hr
      cases hr
    rw [unserializeVars_read front n (Nat.not_lt.mp hlen)] at hr
    split at hr
    · cases hr
      decide
    · have hentries := times_entriesRead (fun i => if i = 0 then front else 0)
        (headerCount bytes) 0 (bytes.drop 24)
      rw [hr] at hentries
      cases hentries with
      | refused => decide
  unfold fromBytesToVars at h
  obtain ⟨r, hr, h⟩ := Option.bind_eq_some_iff.mp h
  cases r with
  | error e =>
      cases h
      exact hread _ hr
  | ok r =>
      dsimp only at h
      split at h
      · cases h
        decide
      split at h
      · cases h
        decide
      · cases h

theorem base64ToBytes_error_neg {bio : Bio} {text : List UInt8} {ret : Int}
    (h : base64ToBytes bio text = .error ret) : ret < 0 := by
  unfold base64ToBytes at h
  split at h
  · cases h
    decide
  split at h
  · cases h
    decide
  · cases h
    decide
  · cases h

/-- Every error is one that ends the program. -/
theorem Source.variables_error_neg {bio : Bio} {front : UInt16} {src : Source} {ret : Int}
    (h : src.variables bio front = some (.error ret)) : ret < 0 := by
  cases src with
  | file contents =>
      cases contents with
      | none => cases h
      | some contents =>
          replace h : xapiVariablesReadFile front MAX_VAR_COUNT contents = some (.error ret) := h
          unfold xapiVariablesReadFile at h
          split at h
          · cases h
          · exact fromBytesToVars_error_neg h
  | xapi answer =>
      cases answer with
      | nvram text =>
          replace h : xapiVariablesRequest bio front MAX_VAR_COUNT (.nvram text) =
            some (.error ret) := h
          rw [xapiVariablesRequest] at h
          split at h
          · cases h
          split at h
          · rename_i hbytes
            cases h
            exact base64ToBytes_error_neg hbytes
          · exact fromBytesToVars_error_neg h
      | _ => cases h

theorem xapiInitFrom_ok {bio : Bio} {front : UInt16} {uuid : Bool} {src : Source}
    {s s' : Storage} {ret : Int} (h : xapiInitFrom bio front uuid src s = some (ret, s'))
    (hret : ¬ ret < 0) :
    ∃ vars, src.variables bio front = some (.ok vars) ∧ restoreVariables s vars = some s' := by
  unfold xapiInitFrom at h
  split at h
  · cases h
    exact absurd (by decide) hret
  obtain ⟨r, hr, h⟩ := Option.bind_eq_some_iff.mp h
  cases r with
  | error e =>
      cases h
      exact absurd (Source.variables_error_neg hr) hret
  | ok vars =>
      obtain ⟨s₁, hs₁, h⟩ := Option.bind_eq_some_iff.mp h
      cases h
      exact ⟨vars, hr, hs₁⟩

/-- A start that got to `backend_set`: the variables that were read, the store they were replayed
into, and the state behind `auth_lib_initialize`. -/
structure Started (bio : Bio) (b : Boot P X) (below : UInt16) (saved : List Saved)
    (vars : List Variable) (s : Storage) (m : Machine) : Prop where
  read : b.source.variables bio b.front = some (.ok vars)
  restored : restoreVariables (.empty below) vars = some s
  initialized : ∃ db dbx kek pk,
    authLibInitialize b.ssl { Machine.atStart below saved (xsReadBool b.secureBoot) with
      storage := s } (authFiles db dbx kek pk) = some (.success, m)
  passed : secureBootFails m = some false

theorem startUp_ready {bio : Bio} {b : Boot P X} {below : UInt16} {saved : List Saved}
    {m : Machine} (h : startUp bio b below saved = some (true, m)) :
    ∃ vars s, Started bio b below saved vars s m := by
  unfold startUp at h
  obtain ⟨auths, hauths, h⟩ := Option.bind_eq_some_iff.mp h
  obtain ⟨db, dbx, kek, pk, rfl, -⟩ := loadKeyFiles_pk hauths
  split at h
  · cases h
  obtain ⟨⟨ret, s⟩, hinit, h⟩ := Option.bind_eq_some_iff.mp h
  dsimp only at h
  split at h
  · cases h
  rename_i hret
  obtain ⟨vars, hvars, hrestored⟩ := xapiInitFrom_ok hinit hret
  obtain ⟨⟨status, m₁⟩, hlib, h⟩ := Option.bind_eq_some_iff.mp h
  dsimp only at h
  split at h
  · cases h
  rename_i hstatus
  obtain rfl := not_not.mp hstatus
  obtain ⟨fails, hfails, h⟩ := Option.bind_eq_some_iff.mp h
  split at h
  · cases h
  rename_i hgate
  obtain ⟨-, rfl⟩ := Prod.mk.inj (Option.some.inj h)
  rw [Bool.not_eq_true] at hgate
  exact ⟨vars, s, hvars, hrestored, ⟨db, dbx, kek, pk, hlib⟩, hgate ▸ hfails⟩

/-- A start that entered the loop. -/
theorem start_loop {bio : Bio} {b : Boot P X} {below : UInt16} {saved : List Saved} {m : Machine}
    (h : start bio b below saved = some (true, m)) :
    ∃ m₁, startUp bio b below saved = some (true, m₁) ∧
      xapiSet bio b.fronts b.taken m₁ = some m := by
  unfold start at h
  obtain ⟨⟨ready, m₁⟩, hup, h⟩ := Option.bind_eq_some_iff.mp h
  dsimp only at h
  split at h
  · cases h
  rename_i hready
  rw [Bool.not_eq_false] at hready
  obtain ⟨m₂, hset, h⟩ := Option.bind_eq_some_iff.mp h
  obtain ⟨-, rfl⟩ := Prod.mk.inj (Option.some.inj h)
  exact ⟨m₁, hready ▸ hup, hset⟩

/-- What XAPI has behind `xapi_set`: the list that was sent, or what it had. -/
theorem xapiSet_cases {bio : Bio} {f : Fronts} {taken : Bool} {m m' : Machine}
    (h : xapiSet bio f taken m = some m') :
    m' = { m with persistent := (outgoing f m.storage).map Variable.record } ∧
        taken = true ∧ outgoing f m.storage ≠ [] ∨
      m' = m ∧ (taken = false ∨ outgoing f m.storage = []) := by
  unfold xapiSet at h
  obtain ⟨⟨ret, buffer⟩, hbuild, h⟩ := Option.bind_eq_some_iff.mp h
  by_cases hnil : outgoing f m.storage = []
  · rw [build_nil hnil] at hbuild
    cases hbuild
    cases h
    exact .inr ⟨rfl, .inr hnil⟩
  · obtain ⟨rfl, -⟩ := message_of_build rfl hbuild hnil
    dsimp only at h
    rw [if_neg (by decide)] at h
    split at h
    · rename_i htaken
      cases h
      exact .inr ⟨rfl, .inl htaken⟩
    · rename_i htaken
      cases h
      exact .inl ⟨rfl, Bool.not_eq_false _ ▸ htaken, hnil⟩

/-- The program itself is not changed. -/
theorem xapiSet_persistent {bio : Bio} {f : Fronts} {taken : Bool} {m m' : Machine}
    (h : xapiSet bio f taken m = some m') : ∃ p, m' = { m with persistent := p } := by
  rcases xapiSet_cases h with ⟨rfl, -⟩ | ⟨rfl, -⟩
  · exact ⟨_, rfl⟩
  · exact ⟨m'.persistent, rfl⟩

end

/-! ## The store that is started from -/

/-- The name of the variable has no NUL units. -/
def Variable.Named (v : Variable) : Prop := ∃ K : VarKey, v.isMatch K.key = true

theorem restoreVariable_writes (s : Storage) {v : Variable} (hv : v.Named) :
    Writes Key.IsVarKey s (restoreVariable s v).2 := by
  obtain ⟨K, hK⟩ := hv
  have hsame := Variable.key_same hK
  have hset : Writes Key.IsVarKey s (storageSet s v.key (some v.data) v.attrs).2 := by
    rw [hsame.storageSet_eq]
    exact .single (k := K.key) ⟨K, rfl⟩ (.set _ _)
  unfold restoreVariable
  split
  · rcases storageSetWithTimestamp_cases s v.key v.data v.attrs v.timestamp with
      ⟨-, heq⟩ | ⟨-, ⟨-, heq⟩ | ⟨i, hi, heq⟩⟩
    · rw [heq]
      exact hset
    · rw [heq]
      exact hset
    · rw [heq]
      rw [hsame.findSlot_eq] at hi
      exact hset.trans (.single (k := K.key) ⟨K, rfl⟩ (.mark v.timestamp _ hi))
  · exact hset

theorem restoreVariables_writes : ∀ {vars : List Variable} {s s' : Storage},
    (∀ v ∈ vars, v.Named) → restoreVariables s vars = some s' → Writes Key.IsVarKey s s'
  | [], _, _, _, hs => by
      cases hs
      exact .refl _
  | v :: vars, s, s', hvars, hs => by
      have hstep := restoreVariable_writes s (hvars v List.mem_cons_self)
      unfold restoreVariables at hs
      split at hs
      · rename_i s₁ heq
        rw [heq] at hstep
        exact hstep.trans
          (restoreVariables_writes (fun w hw => hvars w (List.mem_cons_of_mem _ hw)) hs)
      · cases hs

/-- What is read has names without NUL units. -/
def Source.Named (bio : Bio) (front : UInt16) (src : Source) : Prop :=
  ∀ vars, src.variables bio front = some (.ok vars) → ∀ v ∈ vars, v.Named

section
variable {P X : Type} {bio : Bio} {b : Boot P X} {below : UInt16} {saved : List Saved}
  {vars : List Variable} {s : Storage} {m : Machine}

theorem Started.tidy (h : Started bio b below saved vars s m)
    (hsrc : b.source.Named bio b.front) : s.Tidy :=
  (restoreVariables_writes (hsrc vars h.read) h.restored).tidy (Storage.tidy_empty below)

theorem Started.shown (h : Started bio b below saved vars s m)
    (hsrc : b.source.Named bio b.front) : m.Shown := by
  obtain ⟨db, dbx, kek, pk, hinit⟩ := h.initialized
  exact authLibInitialize_shown (h.tidy hsrc) hinit

theorem Started.pkMode (h : Started bio b below saved vars s m)
    (hsrc : b.source.Named bio b.front) : PkMode m := by
  obtain ⟨db, dbx, kek, pk, hinit⟩ := h.initialized
  exact authLibInitialize_pkMode ((h.tidy hsrc).oneSlot pkKey_clean) hinit

/-! ## Secure boot, once it is on -/

/-- Secure boot is on: PK is there, and the mode variables say so. -/
structure Machine.Secured (m : Machine) : Prop where
  pk : storageExists m.storage pkKey = true
  secureBoot : view m.storage secureBootKey = some (RT_BS_ATTRS, [1])
  setupMode : view m.storage setupModeKey = some (RT_BS_ATTRS, [0])

/-- The state behind it. -/
structure Machine.Guarded (m : Machine) : Prop where
  shown : m.Shown
  pkMode : PkMode m
  user : m.setupMode = .user
  enabled : m.secureBootEnabled = true

theorem Machine.Guarded.secured (h : m.Guarded) : m.Secured := by
  have hmodes := h.shown.modes
  rw [h.user, h.enabled] at hmodes
  exact ⟨h.pkMode.mode.mpr h.user, hmodes (secureBootKey, 1) (by simp [modeVariables]),
    hmodes (setupModeKey, 0) (by simp [modeVariables])⟩

theorem Machine.Guarded.persistent (h : m.Guarded) (p : List Saved) :
    Machine.Guarded { m with persistent := p } :=
  ⟨⟨h.shown.tidy, h.shown.modes⟩, ⟨h.pkMode.one, h.pkMode.mode⟩, h.user, h.enabled⟩

/-- A request keeps it, or is a verified deletion of PK. -/
theorem Machine.Guarded.step {r : Request P X} {m' : Machine} (h : m.Guarded) (hstep : Step m r m')
    (hname : NulFree r.set.name) : m'.Guarded ∨
      r.set.key = pkKey ∧ r.set.VerifiedBy (r.ssl .verify) m.storage m' .pk ∧
        storageExists m'.storage pkKey = false := by
  cases hmode : m'.setupMode with
  | setup => exact .inr (hstep.leaves_userMode hname h.shown.tidy h.user hmode)
  | user =>
      -- the digest of a signer matters in setup mode only
      have henrol : EnrolStep m r m' := by
        refine ⟨hstep, hname, fun hsetup => ?_⟩
        rw [h.user] at hsetup
        cases hsetup
      exact .inl ⟨hstep.shown hname h.shown, henrol.pkMode h.pkMode, hmode,
        hstep.secureBootEnabled.trans h.enabled⟩

/-- Behind the gate of `main`, with secure boot asked for. -/
theorem Started.guarded (h : Started bio b below saved vars s m)
    (hsrc : b.source.Named bio b.front) (hon : m.secureBootEnabled = true) :
    m.Guarded ∧ sbCertsExist m.storage = true := by
  have hshown := h.shown hsrc
  obtain ⟨hboot, hcerts⟩ : secureBootOn m.storage = some true ∧ sbCertsExist m.storage = true := by
    have hpassed := h.passed
    rw [secureBootFails, if_pos hon] at hpassed
    obtain ⟨on, hsecure, hpassed⟩ := Option.bind_eq_some_iff.mp hpassed
    have hboth := Option.some.inj hpassed
    rw [Bool.or_eq_false_iff, Bool.not_eq_false', Bool.not_eq_false'] at hboth
    obtain ⟨rfl, hcerts⟩ := hboth
    exact ⟨hsecure, hcerts⟩
  refine ⟨⟨hshown, h.pkMode hsrc, ?_, hon⟩, hcerts⟩
  cases hmode : m.setupMode with
  | user => rfl
  | setup =>
      -- in setup mode SecureBoot is 0
      have hmodes := hshown.modes
      rw [hmode] at hmodes
      have hview := hmodes (secureBootKey, 0) (by simp [modeVariables])
      obtain ⟨v, hv, hdata⟩ := Option.map_eq_some_iff.mp hview
      obtain ⟨-, hdata⟩ := Prod.mk.inj hdata
      rw [secureBootOn, hv] at hboot
      dsimp only at hboot
      rw [hdata] at hboot
      cases hboot

theorem PkEffect.secureBootEnabled {k : Key} {isPk : Bool} {m m' : Machine}
    (h : PkEffect k isPk m m') : m'.secureBootEnabled = m.secureBootEnabled := by
  obtain ⟨mid, hmid, rfl | ⟨_, mode, rfl⟩⟩ := h
  · exact hmid.secureBootEnabled
  · exact hmid.secureBootEnabled

/-- The key files leave alone what the host asked for and what is saved. -/
theorem loadAuthFiles_kept {ssl : Phase → OpenSsl P X} : ∀ {auths : List AuthData}
    {m m' : Machine} {status : EfiStatus}, loadAuthFiles ssl m auths = some (status, m') →
    m'.secureBootEnabled = m.secureBootEnabled ∧ m'.persistent = m.persistent
  | [], _, _, _, h => by
      cases h
      exact ⟨rfl, rfl⟩
  | auth :: rest, m, m', status, h => by
      unfold loadAuthFiles at h
      split at h
      · exact loadAuthFiles_kept h
      · obtain ⟨o, ho, h⟩ := Option.bind_eq_some_iff.mp h
        have hlib := authLibProcessVariable_cases ho
        split at h
        · cases h
          exact ⟨hlib.effect.secureBootEnabled, hlib.persistent⟩
        · obtain ⟨henabled, hsaved⟩ := loadAuthFiles_kept h
          exact ⟨henabled.trans hlib.effect.secureBootEnabled, hsaved.trans hlib.persistent⟩

theorem authLibInitialize_kept {ssl : Phase → OpenSsl P X} {m m' : Machine}
    {auths : List AuthData} (h : authLibInitialize ssl m auths = some (.success, m')) :
    m'.secureBootEnabled = m.secureBootEnabled ∧ m'.persistent = m.persistent := by
  obtain ⟨m₁, m₂, hmode, hload, -, rfl⟩ := authLibInitialize_success h
  obtain rfl := congrArg Prod.snd hmode
  have huser : (userModeIfPk m₂).2.secureBootEnabled = m₂.secureBootEnabled ∧
      (userModeIfPk m₂).2.persistent = m₂.persistent := by
    unfold userModeIfPk
    split <;> exact ⟨rfl, rfl⟩
  obtain ⟨henabled, hsaved⟩ := loadAuthFiles_kept hload
  exact ⟨huser.1.trans henabled, huser.2.trans hsaved⟩

theorem Started.secureBootEnabled (h : Started bio b below saved vars s m) :
    m.secureBootEnabled = xsReadBool b.secureBoot := by
  obtain ⟨db, dbx, kek, pk, hinit⟩ := h.initialized
  exact (authLibInitialize_kept hinit).1

/-- The loop is entered with secure boot asked for: PK, KEK and db are there, SecureBoot is 1
and SetupMode 0; and after any requests PK is still there and the two variables say the same, or
one of the requests deleted PK, behind a `verify_pk` that returned true.  KEK and db may be
deleted by requests that are signed. -/
theorem secureBoot_from_start {rs : List (Request P X)} {m' : Machine}
    (hstart : start bio b below saved = some (true, m)) (hon : xsReadBool b.secureBoot = true)
    (hsrc : b.source.Named bio b.front) (hrun : Run Step m rs m')
    (hnames : ∀ r ∈ rs, NulFree r.set.name) :
    (m.Secured ∧ storageExists m.storage kekKey = true ∧ storageExists m.storage dbKey = true) ∧
      (m'.Secured ∨ ∃ rs₁ r rs₂ m₁ m₂, rs = rs₁ ++ r :: rs₂ ∧ Run Step m rs₁ m₁ ∧
        Step m₁ r m₂ ∧ Run Step m₂ rs₂ m' ∧ m₁.Secured ∧ r.set.key = pkKey ∧
        r.set.VerifiedBy (r.ssl .verify) m₁.storage m₂ .pk ∧
        storageExists m₂.storage pkKey = false) := by
  obtain ⟨m₀, hup, hset⟩ := start_loop hstart
  obtain ⟨vars, s, h⟩ := startUp_ready hup
  obtain ⟨hguarded₀, hcerts⟩ := h.guarded hsrc (h.secureBootEnabled.trans hon)
  obtain ⟨p, rfl⟩ := xapiSet_persistent hset
  have hguarded := hguarded₀.persistent p
  have hkeys : storageExists m₀.storage kekKey = true ∧ storageExists m₀.storage dbKey = true := by
    rw [sbCertsExist, Bool.and_eq_true, Bool.and_eq_true] at hcerts
    exact ⟨hcerts.1.2, hcerts.2⟩
  refine ⟨⟨hguarded.secured, hkeys⟩, ?_⟩
  rcases (hrun.restrict hnames).holds_or_breaks (fun _ _ _ hstep hm => hm.step hstep.1 hstep.2)
    hguarded with hend | ⟨rs₁, r, rs₂, m₁, m₂, hsplit, hfront, hstep, hback, hm₁, hbreak⟩
  · exact .inl hend.secured
  · exact .inr ⟨rs₁, r, rs₂, m₁, m₂, hsplit, hfront.mono (fun _ _ _ h => h.1), hstep.1,
      hback.mono (fun _ _ _ h => h.1), hm₁.secured, hbreak⟩

end

/-- The state where XAPI has got the variables. -/
def Machine.sentBy (f : Fronts) (m : Machine) : Machine :=
  { m with persistent := (outgoing f m.storage).map Variable.record }

/-- A start that is ready enters the loop, if there is something to send that fits, and XAPI
gets it. -/
theorem start_of_startUp {P X : Type} {bio : Bio} {b : Boot P X} {below : UInt16}
    {saved : List Saved} {m : Machine} (hup : startUp bio b below saved = some (true, m))
    (hpid : b.pid = true) (htaken : b.taken = true) (hne : outgoing b.fronts m.storage ≠ [])
    (hfits : MessageFits bio b.fronts m.storage) :
    start bio b below saved = some (true, m.sentBy b.fronts) := by
  obtain ⟨ret, buffer, hbuild, -⟩ := hfits messageBuffer rfl
  obtain ⟨rfl, -⟩ := message_of_build rfl hbuild hne
  have hset : xapiSet bio b.fronts b.taken m = some (m.sentBy b.fronts) := by
    unfold xapiSet
    rw [hbuild, htaken]
    rfl
  unfold start
  rw [hup]
  dsimp only [Option.bind_eq_bind, Option.bind_some]
  rw [if_neg (by decide), hset, hpid]
  rfl

/-- A start of a machine that XAPI cannot tell anything about, with certificates in the files
of db, KEK and PK, and with secure boot asked for. -/
def certBoot : Boot Unit Unit where
  ssl := fun _ => .accepting
  secureBoot := some (literal "true")
  db := certFile
  dbx := .missing
  kek := certFile
  pk := certFile
  privileges := true
  uuid := true
  source := .xapi .noSession
  front := 0
  fronts := .zero
  taken := true
  pid := true

theorem certBoot_named : certBoot.source.Named .strict certBoot.front := by
  intro vars hvars
  cases hvars
  exact List.forall_mem_nil _

/-- Its variables can be sent: the last slot is not in use, and there is not much to send. -/
theorem certBoot_start {saved : List Saved} {m : Machine}
    (hup : startUp .strict certBoot 0 saved = some (true, m))
    (h : ((m.storage.vars lastSlot).isValid = false ∧ savedSize m.storage true ≤ 196275) ∧
      outgoing .zero m.storage ≠ []) :
    start .strict certBoot 0 saved = some (true, m.sentBy .zero) := by
  obtain ⟨⟨hlast, hsize⟩, hne⟩ := h
  obtain ⟨vars, s, hst⟩ := startUp_ready hup
  have hcomplete := (hst.shown certBoot_named).tidy.complete (by rw [hlast, Bool.false_and])
  exact start_of_startUp hup rfl rfl hne (hcomplete.messageFits hsize)

theorem secureBoot_from_start_certBoot : ∃ m m', start .strict certBoot 0 [] = some (true, m) ∧
    Run Step m [deletePk] m' ∧ m.Secured ∧ storageExists m.storage dbKey = true ∧
    storageExists m'.storage pkKey = false := by
  have hrun : (startUp .strict certBoot 0 []).bind (fun r =>
      (handleSetVariable deletePk.ssl (r.2.sentBy .zero) deletePk.set).map (fun r' =>
        (r.1, decide (((r.2.storage.vars lastSlot).isValid = false ∧
          savedSize r.2.storage true ≤ 196275) ∧ outgoing .zero r.2.storage ≠ []),
          storageExists r'.2.storage pkKey))) = some (true, true, false) := by
    decide +kernel
  obtain ⟨⟨ready, m⟩, hup, hrun⟩ := Option.bind_eq_some_iff.mp hrun
  obtain ⟨⟨status, m'⟩, hstep, hr⟩ := Option.map_eq_some_iff.mp hrun
  simp only [Prod.mk.injEq] at hr
  obtain ⟨rfl, hsend, hpk⟩ := hr
  have hstart := certBoot_start hup (of_decide_eq_true hsend)
  have hrun : Run Step (m.sentBy .zero) [deletePk] m' := .cons ⟨status, hstep⟩ (.nil m')
  obtain ⟨⟨hsecured, -, hdb⟩, -⟩ := secureBoot_from_start hstart (by decide +kernel)
    certBoot_named hrun (by decide +kernel)
  exact ⟨_, m', hstart, hrun, hsecured, hdb, hpk⟩

/-! ## A fetch that fails -/

/-- The variables could not be had, or not all of them. -/
inductive Source.Fails : Source → Prop
  | unreadable : Fails (.file none)
  | tooLarge {contents : List UInt8} :
      MAX_RESUME_FILE_SIZE < contents.length → Fails (.file (some contents))
  | noSession : Fails (.xapi .noSession)
  | noVm : Fails (.xapi .noVm)
  | noNvram : Fails (.xapi .noNvram)

/-- It counts as a fetch of no variables. -/
theorem Source.Fails.variables_eq {src : Source} (h : src.Fails) (bio : Bio) (front : UInt16) :
    src.variables bio front = some (.ok []) := by
  cases h with
  | tooLarge hlarge =>
      rw [Source.variables, xapiVariablesReadFile, if_pos hlarge]
  | _ => rfl

/-- The slots in use are under keys that were written. -/
theorem Writes.written {K : Key → Prop} (hK : ∀ k, K k → k.Clean) {s s' : Storage}
    (h : Writes K s s')
    (hs : ∀ i, (s.vars i).isFree = false → ∃ k, K k ∧ (s.vars i).isMatch k = true) :
    ∀ i, (s'.vars i).isFree = false → ∃ k, K k ∧ (s'.vars i).isMatch k = true := by
  refine h.invariant (I := fun t => ∀ i, (t.vars i).isFree = false →
    ∃ k, K k ∧ (t.vars i).isMatch k = true) ?_ hs
  intro k t t' hk hw ht
  cases hw with
  | set data attrs =>
      intro i
      have hslot := storageSet_slot (s := t) (hK k hk) data attrs i
      generalize (storageSet t k data attrs).2.vars i = v at hslot ⊢
      cases hslot with
      | kept => exact ht i
      | removed =>
          intro hused
          rw [Variable.isFree_zero] at hused
          cases hused
      | replaced _ _ _ hi => exact fun _ => ⟨k, hk, Storage.findSlot_isMatch hi⟩
      | created => exact fun _ => ⟨k, hk, Variable.isMatch_created (hK k hk) _ _ _ _⟩
  | @mark i time cert hi =>
      exact Slots.forall_update (Q := fun _ (v : Variable) => v.isFree = false →
        ∃ k, K k ∧ v.isMatch k = true) ht (fun _ => ⟨k, hk, Storage.findSlot_isMatch hi⟩)

/-- The variables that a key file may be enrolled in. -/
def fileKeys : List Key := [dbKey, dbxKey, kekKey, pkKey]

section
variable {P X : Type} {bio : Bio} {b : Boot P X} {below : UInt16} {saved : List Saved}

/-- What start-up leaves in an empty store is under the keys of the files, or volatile. -/
theorem authLibInitialize_empty {ssl : Phase → OpenSsl P X} {m m₁ : Machine}
    {db dbx kek pk : List UInt8} (hempty : m.storage = .empty below)
    (h : authLibInitialize ssl m (authFiles db dbx kek pk) = some (.success, m₁))
    (i : Fin MAX_VAR_COUNT) (hvalid : (m₁.storage.vars i).isValid = true) :
    (∃ k ∈ fileKeys, (m₁.storage.vars i).isMatch k = true) ∨
      (m₁.storage.vars i).attrs.nonVolatile = false := by
  have hstart : m.storage.Tidy := by
    rw [hempty]
    exact Storage.tidy_empty below
  have hshown := authLibInitialize_shown hstart h
  obtain ⟨hsupport, haudit⟩ := authLibInitialize_fixed h
  have hclean : ∀ k ∈ startKeys (authFiles db dbx kek pk), k.Clean := by
    intro k hk
    obtain ⟨K, rfl⟩ := startKeys_isVarKey db dbx kek pk k hk
    exact K.clean
  obtain ⟨k, hk, hmatch⟩ := (authLibInitialize_writes h).written hclean (by
    intro j hj
    rw [hempty, show ((Storage.empty below).vars j).isFree = true from Variable.isFree_zero] at hj
    cases hj) i (Variable.isFree_of_isValid hvalid)
  have hfind := hshown.tidy.keyed.findSlot_eq (hclean k hk) hmatch
  -- what is shown under the other keys is volatile
  have hvolatile : ∀ d, view m₁.storage k = some (RT_BS_ATTRS, d) →
      (m₁.storage.vars i).attrs.nonVolatile = false := by
    intro d hview
    rw [view, storageFindVariable_eq hfind, Option.map_some] at hview
    obtain ⟨hattrs, -⟩ := Prod.mk.inj (Option.some.inj hview)
    rw [hattrs]
    decide
  rcases List.mem_cons.mp hk with rfl | hk
  · exact .inr (hvolatile _ hsupport)
  rcases List.mem_cons.mp hk with rfl | hk
  · exact .inr (hvolatile _ haudit)
  rcases List.mem_append.mp hk with hk | hk
  · exact .inl ⟨k, hk, hmatch⟩
  · rw [← modeVariables_keys m₁.secureBootEnabled m₁.setupMode] at hk
    obtain ⟨kv, hkv, rfl⟩ := List.mem_map.mp hk
    exact .inr (hvolatile _ (hshown.modes kv hkv))

/-- An entry of the list that is sent has the contents of a variable in the store. -/
theorem mem_outgoing {f : Fronts} {s : Storage} (h : s.Tidy) {w : Variable}
    (hw : w ∈ outgoing f s) : ∃ i, (s.vars i).isValid = true ∧
      (s.vars i).attrs.nonVolatile = true ∧ (s.vars i).SameContents w := by
  obtain ⟨i, hi, hnv, below, below', dst, rfl⟩ := mem_copiesNonvolatile hw
  have hvalid := (mem_reachedSlots.mp hi).valid
  have hkept := h.kept hvalid
  have hfirst := hkept.copied below' dst
  have hkept' := hfirst.kept hkept
  have h2 := hkept'.name.1
  rw [variableCopy_eq below Variable.zero (by omega) hkept'.copyable]
  exact ⟨i, hvalid, hnv, hfirst.trans (hkept'.copied below Variable.zero)⟩

/-- A start whose fetch failed, and that entered the loop: where there is a non-volatile variable
to send and XAPI gets it, XAPI has nothing but PK, KEK, db and dbx, from the key files; otherwise
it has what it had. -/
theorem start_forgets {m : Machine} (hfail : b.source.Fails)
    (hstart : start bio b below saved = some (true, m)) :
    (b.taken = true → (∃ i, m.storage.Reached i ∧ (m.storage.vars i).attrs.nonVolatile = true) →
        ∀ e ∈ m.persistent, ∃ k ∈ fileKeys, e.name = k.bytes ∧ e.guid = k.guid) ∧
      (b.taken = false ∨ (∀ i, m.storage.Reached i → (m.storage.vars i).attrs.nonVolatile = false) →
        m.persistent = saved) := by
  obtain ⟨m₁, hup, hset⟩ := start_loop hstart
  obtain ⟨vars, s, h⟩ := startUp_ready hup
  obtain rfl : [] = vars := by
    have hread := h.read
    rw [hfail.variables_eq] at hread
    exact Except.ok.inj (Option.some.inj hread)
  obtain rfl := Option.some.inj h.restored
  obtain ⟨db, dbx, kek, pk, hinit⟩ := h.initialized
  have hsaved : m₁.persistent = saved := (authLibInitialize_kept hinit).2
  have htidy := (authLibInitialize_shown (Storage.tidy_empty below) hinit).tidy
  rcases xapiSet_cases hset with ⟨rfl, htaken, hne⟩ | ⟨rfl, hnot⟩
  · refine ⟨fun _ _ e he => ?_, fun hnot => ?_⟩
    · obtain ⟨w, hw, rfl⟩ := List.mem_map.mp he
      obtain ⟨i, hvalid, hnv, hsame⟩ := mem_outgoing htidy hw
      rcases authLibInitialize_empty rfl hinit i hvalid with ⟨k, hk, hmatch⟩ | hvolatile
      · obtain ⟨-, hname, hguid⟩ := Variable.isMatch_iff.mp hmatch
        exact ⟨k, hk, hsame.name.trans hname, hsame.guid.trans hguid⟩
      · rw [hnv] at hvolatile
        cases hvolatile
    · rcases hnot with hlost | hnone
      · rw [htaken] at hlost
        cases hlost
      · exact absurd (outgoing_eq_nil_iff.mpr hnone) hne
  · refine ⟨fun htaken hsome => ?_, fun _ => hsaved⟩
    obtain ⟨i, hi, hnv⟩ := hsome
    rcases hnot with hlost | hnil
    · rw [htaken] at hlost
      cases hlost
    · rw [outgoing_eq_nil_iff.mp hnil i hi] at hnv
      cases hnv

end

/-- `"A"`, as it is saved. -/
def savedA : Saved := ⟨wide ['A'], gEfiGlobalVariableGuid, EFI_VARIABLE_NON_VOLATILE, [1]⟩

theorem start_forgets_savedA : ∃ m, start .strict certBoot 0 [savedA] = some (true, m) ∧
    m.persistent.length = 3 ∧ savedA ∉ m.persistent := by
  have hrun : (startUp .strict certBoot 0 [savedA]).map (fun r =>
      (r.1, decide (((r.2.storage.vars lastSlot).isValid = false ∧
        savedSize r.2.storage true ≤ 196275) ∧ outgoing .zero r.2.storage ≠ []),
        (r.2.sentBy .zero).persistent.length)) = some (true, true, 3) := by
    decide +kernel
  obtain ⟨⟨ready, m⟩, hup, hr⟩ := Option.map_eq_some_iff.mp hrun
  simp only [Prod.mk.injEq] at hr
  obtain ⟨rfl, hsend, hlen⟩ := hr
  have hsend := of_decide_eq_true hsend
  have hstart := certBoot_start hup hsend
  refine ⟨_, hstart, hlen, fun hmem => ?_⟩
  have hsome : ∃ i, m.storage.Reached i ∧ (m.storage.vars i).attrs.nonVolatile = true := by
    by_contra hnone
    push Not at hnone
    exact hsend.2 (outgoing_eq_nil_iff.mpr (fun i hi => Bool.eq_false_iff.mpr (hnone i hi)))
  obtain ⟨k, hk, hname, -⟩ := (start_forgets .noSession hstart).1 rfl hsome savedA hmem
  have hother : ∀ k ∈ fileKeys, savedA.name ≠ k.bytes := by decide +kernel
  exact hother k hk hname

end Uefistored
