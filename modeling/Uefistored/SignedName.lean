/-
# `Uefistored.SignedName` — the name that is signed and the name that is stored

Along the path of an authenticated write the name is measured three times:
`namesz` bytes for the look-up, the units before the first NUL for the signed
message, and `namesz` less a last NUL unit for what is stored.  The three meet
exactly for names of even size with no NUL unit before the last one
(`NameCovered`), and so does the message with the name the value is kept under
(`signedName_iff`).

For any other name the signature covers less, or more, than the stored name.
`"A\0B"` and `"A\0C"` are two variables with one message
(`one_signature_two_names`).
-/
import Uefistored.SecureBoot

namespace Uefistored

open Lib

/-- Even size, and no NUL unit in front of the last unit. -/
def NameCovered (l : List UInt8) : Prop :=
  l.length % 2 = 0 ∧ ∀ i < l.length / 2 - 1, unitAt l i ≠ 0

instance (l : List UInt8) : Decidable (NameCovered l) :=
  inferInstanceAs (Decidable (_ ∧ ∀ i < l.length / 2 - 1, unitAt l i ≠ 0))

/-! ## Three measures of a name -/

theorem unitAt_nameArray_past {l : List UInt8} (hl : l.length ≤ MAX_VARIABLE_NAME_SIZE)
    (heven : l.length % 2 = 0) {i : Nat} (h : l.length ≤ 2 * i) :
    unitAt (nameArray l).bytes i = 0 := by
  have hb : (nameArray l).bytes = l ++ List.replicate (MAX_VARIABLE_NAME_SIZE - l.length) 0 :=
    Block.ofList_bytes hl
  rw [hb, unitAt_append_right heven h]
  exact unitAt_replicate_zero _ _

/-- The scan for a NUL stops where the stored name ends, exactly for covered names. -/
theorem strsize16_eq_stored_iff {l : List UInt8} {g : Guid} (h0 : l ≠ [])
    (hl : l.length ≤ MAX_VARIABLE_NAME_SIZE) (below : UInt16) :
    2 * strlen16 (nameArray l).bytes = (Key.of l g).stored below ↔ NameCovered l := by
  have hpos : 0 < l.length := List.length_pos_of_ne_nil h0
  have hlen : (nameArray l).bytes.length = 256 := (nameArray l).length_eq
  have hmax : l.length ≤ 256 := hl
  obtain ⟨s1, s2, s3⟩ := strlen16_spec (nameArray l).bytes (by rw [hlen])
  rw [hlen] at s1 s3
  show _ = (if lastUnit below (nameArray l) l.length = 0 then sub64 l.length 2 else l.length) ↔ _
  by_cases heven : l.length % 2 = 0
  · have hne : ¬ l.length / 2 = 0 := by omega
    have hsub : sub64 l.length 2 = l.length - 2 := sub64_of_le (by omega) (by omega)
    have hlast : lastUnit below (nameArray l) l.length = unitAt l (l.length / 2 - 1) := by
      rw [lastUnit, if_neg hne, unitAt_nameArray hl (by omega)]
    rw [hlast, hsub]
    constructor
    · intro h
      refine ⟨heven, fun i hi => ?_⟩
      rw [← unitAt_nameArray hl (by omega)]
      refine s2 i ?_
      split at h <;> omega
    · rintro ⟨-, hunits⟩
      -- the scan passes every unit before the last one and stops at the last, or behind it
      have hle : l.length / 2 - 1 ≤ strlen16 (nameArray l).bytes := by
        by_contra hlt
        have hz := s3 (by omega)
        rw [unitAt_nameArray hl (by omega)] at hz
        exact hunits _ (by omega) hz
      have hge : strlen16 (nameArray l).bytes ≤ l.length / 2 := by
        by_contra hgt
        exact s2 (l.length / 2) (by omega) (unitAt_nameArray_past hl heven (by omega))
      split
      · rename_i hz
        have : ¬ l.length / 2 - 1 < strlen16 (nameArray l).bytes := fun hlt =>
          s2 _ hlt (by rw [unitAt_nameArray hl (by omega)]; exact hz)
        omega
      · rename_i hz
        have : strlen16 (nameArray l).bytes ≠ l.length / 2 - 1 := fun heq => by
          have hzero := s3 (by omega)
          rw [heq, unitAt_nameArray hl (by omega)] at hzero
          exact hz hzero
        omega
  · -- an odd size stays odd, and the scan counts in twos
    constructor
    · intro h
      exfalso
      split at h
      · unfold sub64 at h
        omega
      · omega
    · rintro ⟨h, -⟩
      exact absurd h heven

example : NameCovered (wide ['A'] ++ [0, 0]) ∧
    ¬ NameCovered (wide ['A'] ++ [0, 0] ++ wide ['B']) := by
  decide +kernel

/-- The name that is signed is the stored one, exactly for covered names. -/
theorem signedName_eq_keyBytes_iff {l : List UInt8} {g : Guid} (h0 : l ≠ [])
    (hl : l.length ≤ MAX_VARIABLE_NAME_SIZE) (below : UInt16) {v : Variable}
    (hsz : v.namesz = (Key.of l g).stored below)
    (hb : v.name.bytes.take l.length = (Key.of l g).bytes) :
    (nameArray l).bytes.take (strlen16 (nameArray l).bytes * 2) = v.keyBytes ↔
      NameCovered l := by
  rw [← strsize16_eq_stored_iff (g := g) h0 hl below]
  have hlen : (nameArray l).bytes.length = 256 := (nameArray l).length_eq
  have hmax : l.length ≤ 256 := hl
  obtain ⟨s1, s2, _⟩ := strlen16_spec (nameArray l).bytes (by rw [hlen])
  rw [hlen] at s1
  rcases Key.stored_le_or (g := g) h0 hl below with hle | ⟨h1, hbig⟩
  · -- both are prefixes of the request's array
    have hkey : v.keyBytes = (nameArray l).bytes.take ((Key.of l g).stored below) := by
      have h := congrArg (List.take ((Key.of l g).stored below)) hb
      rw [List.take_take, Nat.min_eq_left hle, Key.bytes, List.take_take] at h
      rw [Nat.min_eq_left (show _ ≤ (Key.of l g).namesz from hle), ← hsz] at h
      rw [← hsz]
      exact h
    rw [hkey, List.take_eq_take_iff, hlen]
    omega
  · -- the stored size covers the whole array, the message at most one unit
    have hunit : unitAt (nameArray l).bytes 1 = 0 := by
      obtain ⟨b, rfl⟩ := List.length_eq_one_iff.mp h1
      have hbytes : (nameArray [b]).bytes =
          [b] ++ List.replicate (MAX_VARIABLE_NAME_SIZE - [b].length) 0 := Block.ofList_bytes hl
      rw [hbytes]
      rfl
    have hscan : strlen16 (nameArray l).bytes ≤ 1 := by
      by_contra hgt
      exact s2 1 (by omega) hunit
    constructor
    · intro h
      have hlens := congrArg List.length h
      have hvlen : v.name.bytes.length = 256 := v.name.length_eq
      rw [Variable.keyBytes, List.length_take, List.length_take, hlen, hvlen, hsz, hbig] at hlens
      omega
    · intro h
      omega

/-! ## The slot the value is kept in -/

section
variable {P X : Type}

/-- The variables whose appends are filtered have names without NUL units. -/
theorem Key.clean_of_sigList {l : List UInt8} {g : Guid} (hl : l.length ≤ MAX_VARIABLE_NAME_SIZE)
    {v : Variable} (hm : v.isMatch (Key.of l g) = true) (hv : isSigListVariable v = true) :
    (Key.of l g).Clean :=
  secureBootKeys_clean _ (sigListKeys_secureBoot _ (mem_sigListKeys_of_isMatch hl hm hv))

/-- The request was accepted and its value is kept in slot `i`: `storage_set` took it, in
the slot of the variable or, for a new one, in the first empty slot. -/
structure Keeps (ssl : Phase → OpenSsl P X) (m : Machine) (req : SetRequest)
    (kind : AuthVarType) (payload : List UInt8) (i : Fin MAX_VAR_COUNT) (o : Outcome) : Prop where
  accepted : ∃ del, verifyTimeBasedPayloadAndUpdate ssl m req.key req.buffer req.data.length
    req.attrs kind = some (o, del)
  success : o.status = .success
  timeBased : req.attrs.timeBased = true
  payload_eq : requestPayload req = some payload
  nonempty : payload ≠ []
  stored : (storageSet m.storage req.key (some payload) req.attrs).1 = .success
  slot : (m.storage.findSlot req.key <|> m.storage.freeSlot) = some i

/-- The slot carries the name of the key, under the size that storing it leaves. -/
def Variable.NamedBy (k : Key) (v : Variable) : Prop :=
  ∃ below, v.namesz = k.stored below ∧ v.name.bytes.take k.namesz = k.bytes

theorem Variable.namedBy_of_isMatch {k : Key} {v : Variable} (hk : k.Clean)
    (hm : v.isMatch k = true) : v.NamedBy k := by
  obtain ⟨hsz, hb, _⟩ := Variable.isMatch_iff.mp hm
  refine ⟨0, by rw [hk.stored_eq, hsz], ?_⟩
  rw [← hb, Variable.keyBytes, hsz]

/-- Writing a slot without touching its name leaves all names as they are. -/
theorem Variable.namedBy_setSlot {s : Storage} {k : Key} {i j : Fin MAX_VAR_COUNT} {w : Variable}
    (hname : w.name = (s.vars j).name) (hsz : w.namesz = (s.vars j).namesz)
    (h : (s.vars i).NamedBy k) : ((s.setSlot j w).vars i).NamedBy k := by
  by_cases hij : i = j
  · subst hij
    simpa only [Variable.NamedBy, Storage.setSlot_vars, Function.update_self, hname, hsz] using h
  · simpa only [Variable.NamedBy, Storage.setSlot_vars, Function.update_of_ne hij] using h

/-- Storing non-empty data, when `storage_set` takes it, leaves the name in the slot. -/
theorem storageSetWithTimestamp_named {s s' : Storage} {k : Key} {d : List UInt8} {attrs : Attrs}
    {time : EfiTime} {status : EfiStatus} {i : Fin MAX_VAR_COUNT}
    (hdel : isDelete attrs d.length = false) (hi : (s.findSlot k <|> s.freeSlot) = some i)
    (hok : (storageSet s k (some d) attrs).1 = .success)
    (h : storageSetWithTimestamp s k (some d) attrs time = (status, s')) :
    (s'.vars i).NamedBy k := by
  have hset : ((storageSet s k (some d) attrs).2.vars i).NamedBy k :=
    ⟨_, storageSet_named hok (asksRemoval_of_isDelete hdel) hi⟩
  rcases storageSetWithTimestamp_cases s k d attrs time with
    ⟨hc, _⟩ | ⟨_, ⟨_, hr⟩ | ⟨l, _, hr⟩⟩
  · rw [hdel] at hc; cases hc
  · cases h.symm.trans hr
    exact hset
  · cases h.symm.trans hr
    exact Variable.namedBy_setSlot rfl rfl hset

/-- A key that is stored as it came keeps its slot when non-empty data is stored. -/
theorem storageSetWithTimestamp_findSlot {s s' : Storage} {k : Key} {d : List UInt8}
    {attrs : Attrs} {time : EfiTime} {status : EfiStatus} {i : Fin MAX_VAR_COUNT}
    (hk : k.Clean) (hdel : isDelete attrs d.length = false) (hi : s.findSlot k = some i)
    (h : storageSetWithTimestamp s k (some d) attrs time = (status, s')) :
    s'.findSlot k = some i := by
  have hset := storageSet_findSlot hk hi (asksRemoval_of_isDelete hdel)
  rcases storageSetWithTimestamp_cases s k d attrs time with
    ⟨hc, _⟩ | ⟨_, ⟨_, hr⟩ | ⟨l, _, hr⟩⟩
  · rw [hdel] at hc; cases hc
  · cases h.symm.trans hr
    exact hset
  · cases h.symm.trans hr
    exact (Storage.findSlot_mark _ _ _ _ _).trans hset

/-- The name in the slot the value is kept in. -/
theorem Keeps.named {ssl : Phase → OpenSsl P X} {m : Machine} {req : SetRequest}
    {kind : AuthVarType} {payload : List UInt8} {i : Fin MAX_VAR_COUNT} {o : Outcome}
    (h : Keeps ssl m req kind payload i o) : (o.machine.storage.vars i).NamedBy req.key := by
  -- a filtered variable is in slot `i`, and its name is stored as it came
  have hsig : ∀ {v : Variable}, storageFindVariable m.storage req.key = some v →
      isSigListVariable v = true → m.storage.findSlot req.key = some i ∧ req.key.Clean := by
    intro v hv hsig
    obtain ⟨j, hj, rfl⟩ := Option.map_eq_some_iff.mp hv
    have hj' : m.storage.findSlot req.key = some j := hj
    have hij : i = j := by
      have hslot := h.slot
      rw [hj'] at hslot
      exact (Option.some.inj hslot).symm
    exact ⟨hij ▸ hj', Key.clean_of_sigList req.name_fits (Storage.findSlot_isMatch hj') hsig⟩
  obtain ⟨del, hrun⟩ := h.accepted
  have hsuccess := h.success
  cases verifyTimeBasedPayloadAndUpdate_cases hrun with
  | rejected hs _ => exact absurd hsuccess hs
  | failed _ _ hs => exact absurd hsuccess hs
  | lost => cases hsuccess
  | undigested _ _ _ _ hd => rw [sha256FromAuth_error hd] at hsuccess; cases hsuccess
  | deleted hacc _ hdel =>
      exfalso
      obtain ⟨_, _, _, hp, _⟩ := hacc.described.msg_eq
      obtain rfl := Option.some.inj
        ((hacc.described.requestPayload_eq hp).symm.trans h.payload_eq)
      exact h.nonempty (List.eq_nil_of_length_eq_zero
        ((Buffer.length_slice hp).trans (isDel_iff.mp hdel).2.1))
  | recorded hacc hstore _ _ _ =>
      refine Variable.namedBy_setSlot rfl rfl ?_
      cases authInternalUpdate_cases hstore with
      | nothingNew _ hv hs =>
          obtain ⟨hi, hk⟩ := hsig hv hs
          exact Variable.namedBy_of_isMatch hk (Storage.findSlot_isMatch hi)
      | stored hp hr =>
          obtain rfl := Option.some.inj
            ((hacc.described.requestPayload_eq hp).symm.trans h.payload_eq)
          exact storageSetWithTimestamp_named (isDelete_eq_false h.timeBased h.nonempty) h.slot
            h.stored hr
      | filtered _ hv hs hne hr =>
          obtain ⟨hi, hk⟩ := hsig hv hs
          exact Variable.namedBy_of_isMatch hk (Storage.findSlot_isMatch
            (storageSetWithTimestamp_findSlot hk (isDelete_eq_false h.timeBased hne) hi hr))

/-! ## The result -/

/-- What the signature should cover: the stored name, then GUID, attributes, TimeStamp and
payload. -/
def storedMessage (v : Variable) (req : SetRequest) (stamp payload : List UInt8) : List UInt8 :=
  v.keyBytes ++ req.guid.bytes ++ leBytes 4 req.attrs.toNat ++ stamp ++ payload

/-- An accepted request was verified on its message. -/
theorem Keeps.verified {ssl : Phase → OpenSsl P X} {m : Machine} {req : SetRequest}
    {kind : AuthVarType} {payload : List UInt8} {i : Fin MAX_VAR_COUNT} {o : Outcome}
    (h : Keeps ssl m req kind payload i o) :
    ∃ stamp off, req.buffer.slice 0 16 = some stamp ∧
      requestMessage req = some (signedMessage req.key req.attrs stamp payload) ∧
      verifyBy (ssl .verify) m.storage req.key req.buffer off
        (signedMessage req.key req.attrs stamp payload) kind = some true := by
  obtain ⟨del, hrun⟩ := h.accepted
  rcases (verifyTimeBasedPayloadAndUpdate_cases hrun).unchanged_or_accepted with
    ⟨_, _, hfail⟩ | ⟨off, size, msg, time, hacc, _⟩
  · exact absurd h.success hfail
  · obtain ⟨stamp, payload', hstamp, hp, hmsg⟩ := hacc.described.msg_eq
    obtain rfl := Option.some.inj
      ((hacc.described.requestPayload_eq hp).symm.trans h.payload_eq)
    subst hmsg
    exact ⟨stamp, off, hstamp, hacc.described.requestMessage_eq, hacc.verified⟩

/-- The message of an accepted request covers the stored name exactly if that is covered. -/
theorem Keeps.signedMessage_iff {ssl : Phase → OpenSsl P X} {m : Machine} {req : SetRequest}
    {kind : AuthVarType} {payload : List UInt8} {i : Fin MAX_VAR_COUNT} {o : Outcome}
    (h : Keeps ssl m req kind payload i o) (h0 : req.name ≠ []) (stamp : List UInt8) :
    signedMessage req.key req.attrs stamp payload =
        storedMessage (o.machine.storage.vars i) req stamp payload ↔ NameCovered req.name := by
  obtain ⟨below, hsz, hb⟩ := h.named
  rw [← signedName_eq_keyBytes_iff h0 req.name_fits below hsz hb]
  simp only [signedMessage, storedMessage, List.append_assoc, SetRequest.key, Key.of]
  exact List.append_left_inj _

/-- The bytes handed to `pkcs7_verify` are the name under which an accepted value is kept,
GUID, attributes, TimeStamp and payload, if and only if the request's name has even size and
no NUL unit in front of its last unit.  So among such names one signed blob, with one GUID and
one set of attributes, is not accepted for two stored names: the message would be another. -/
theorem signedName_iff {ssl : Phase → OpenSsl P X} {m : Machine} {req : SetRequest}
    {kind : AuthVarType} {payload : List UInt8} {i : Fin MAX_VAR_COUNT} {o : Outcome}
    (h0 : req.name ≠ []) (h : Keeps ssl m req kind payload i o) :
    (∃ stamp off msg, req.buffer.slice 0 16 = some stamp ∧ requestMessage req = some msg ∧
        verifyBy (ssl .verify) m.storage req.key req.buffer off msg kind = some true ∧
        (msg = storedMessage (o.machine.storage.vars i) req stamp payload ↔
          NameCovered req.name)) ∧
      ∀ {ssl' : Phase → OpenSsl P X} {m' : Machine} {req' : SetRequest} {kind' : AuthVarType}
        {payload' : List UInt8} {i' : Fin MAX_VAR_COUNT} {o' : Outcome}, req'.name ≠ [] →
        Keeps ssl' m' req' kind' payload' i' o' → NameCovered req.name → NameCovered req'.name →
        req'.guid = req.guid → req'.attrs = req.attrs → req'.data = req.data →
        requestMessage req' = requestMessage req →
        (o'.machine.storage.vars i').keyBytes = (o.machine.storage.vars i).keyBytes := by
  obtain ⟨stamp, off, hstamp, hmsg, hver⟩ := h.verified
  refine ⟨⟨stamp, off, _, hstamp, hmsg, hver, h.signedMessage_iff h0 stamp⟩, ?_⟩
  intro ssl' m' req' kind' payload' i' o' h0' h' hcov hcov' hguid hattrs hdata hsame
  obtain ⟨stamp', _, hstamp', hmsg', _⟩ := h'.verified
  have hbuffer : req'.buffer = req.buffer := by simp only [SetRequest.buffer, hdata]
  have hpay : payload' = payload := by
    have hp := h'.payload_eq
    rw [requestPayload, hbuffer, hdata] at hp
    exact Option.some.inj (hp.symm.trans h.payload_eq)
  have hst : stamp' = stamp := by
    rw [hbuffer] at hstamp'
    exact Option.some.inj (hstamp'.symm.trans hstamp)
  subst hpay hst
  have heq := Option.some.inj (hmsg'.symm.trans (hsame.trans hmsg))
  rw [(h.signedMessage_iff h0 stamp').mpr hcov, (h'.signedMessage_iff h0' stamp').mpr hcov'] at heq
  simp only [storedMessage, hguid, hattrs, List.append_assoc] at heq
  exact List.append_cancel_right heq

/-- What an evaluation of the update shows. -/
theorem keeps_of_run (ssl : Phase → OpenSsl P X) (m : Machine) (req : SetRequest)
    (kind : AuthVarType) (payload name : List UInt8) (i : Fin MAX_VAR_COUNT)
    (hrun : (verifyTimeBasedPayloadAndUpdate ssl m req.key req.buffer req.data.length req.attrs
      kind).map (fun r => (r.1.status, (r.1.machine.storage.vars i).keyBytes)) =
        some (.success, name))
    (htb : req.attrs.timeBased = true) (hp : requestPayload req = some payload)
    (hne : payload ≠ [])
    (hst : (storageSet m.storage req.key (some payload) req.attrs).1 = .success)
    (hslot : (m.storage.findSlot req.key <|> m.storage.freeSlot) = some i) :
    ∃ o, Keeps ssl m req kind payload i o ∧ (o.machine.storage.vars i).keyBytes = name := by
  obtain ⟨⟨o, del⟩, h, hr⟩ := Option.map_eq_some_iff.mp hrun
  obtain ⟨hs, hname⟩ := Prod.mk.inj hr
  exact ⟨o, ⟨⟨del, h⟩, hs, htb, hp, hne, hst, hslot⟩, hname⟩

end

/-- A signed request of one byte for a new variable. -/
def signedRequest (name : List UInt8) (h : name.length ≤ MAX_VARIABLE_NAME_SIZE) : SetRequest :=
  authRequest name gEfiGlobalVariableGuid 2021 AT_ATTRS [1] ⟨h, by decide⟩

/-- `"A"`, and `"A"` followed by a NUL and one more letter. -/
def nameA : List UInt8 := wide ['A']
def nameANul (c : Char) : List UInt8 := wide ['A'] ++ [0, 0] ++ wide [c]

theorem signedName_iff_A : ∃ o,
    Keeps (fun _ => .accepting) emptyUserMode (signedRequest nameA (by decide)) .priv [1] 0 o ∧
      ∃ stamp, requestMessage (signedRequest nameA (by decide)) =
        some (storedMessage (o.machine.storage.vars 0) (signedRequest nameA (by decide))
          stamp [1]) := by
  obtain ⟨o, ho, _⟩ := keeps_of_run (fun _ => .accepting) emptyUserMode
    (signedRequest nameA (by decide)) .priv [1] nameA 0 (by decide +kernel) (by decide)
    (by decide +kernel) (by decide) (by decide +kernel) (by decide +kernel)
  obtain ⟨⟨stamp, _, msg, _, hmsg, _, hiff⟩, _⟩ := signedName_iff (by decide) ho
  exact ⟨o, ho, stamp, hmsg.trans (congrArg some (hiff.mpr (by decide +kernel)))⟩

/-- `"A\0B"` and `"A\0C"`: the message stops at the NUL and is one for both, and both are
accepted and kept, each under its whole name. -/
theorem one_signature_two_names : ∃ o o',
    Keeps (fun _ => .accepting) emptyUserMode (signedRequest (nameANul 'B') (by decide)) .priv [1]
      0 o ∧
    Keeps (fun _ => .accepting) emptyUserMode (signedRequest (nameANul 'C') (by decide)) .priv [1]
      0 o' ∧
    requestMessage (signedRequest (nameANul 'B') (by decide)) =
      requestMessage (signedRequest (nameANul 'C') (by decide)) ∧
    (o.machine.storage.vars 0).keyBytes = nameANul 'B' ∧
    (o'.machine.storage.vars 0).keyBytes = nameANul 'C' := by
  obtain ⟨o, ho, hname⟩ := keeps_of_run (fun _ => .accepting) emptyUserMode
    (signedRequest (nameANul 'B') (by decide)) .priv [1] (nameANul 'B') 0 (by decide +kernel)
    (by decide) (by decide +kernel) (by decide) (by decide +kernel) (by decide +kernel)
  obtain ⟨o', ho', hname'⟩ := keeps_of_run (fun _ => .accepting) emptyUserMode
    (signedRequest (nameANul 'C') (by decide)) .priv [1] (nameANul 'C') 0 (by decide +kernel)
    (by decide) (by decide +kernel) (by decide) (by decide +kernel) (by decide +kernel)
  exact ⟨o, o', ho, ho', by decide +kernel, hname, hname'⟩

end Uefistored
