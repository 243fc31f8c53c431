/-
# `Uefistored.Serializer` — the format in which a store is saved

The part of `src/serializer.c`, `src/variable.c` and `src/xapi.c` that turns a
list of variables into bytes and back: a header with the number of variables,
then each variable with its name and its data behind their sizes, its GUID,
attributes, time stamp and cert.

Written to are plain buffers, so that the writers are functions to lists of
bytes; `none` stands for reading past the end of an array.  The readers are
`Reader`s: -1 is an error, and reading past the end of the input is undefined.

Encoder, size functions and decoder are written separately in the source.
`serialize_roundTrip` says that they agree, for every list of variables of the
sizes that a store holds.
-/
import Mathlib.Data.List.Forall2
import Uefistored.Lib.Wire
import Uefistored.Variable

namespace Uefistored

open Lib

/-! ## Sizes -/

/-- `variable_size`. -/
def variableSize (v : Variable) : Nat :=
  (8 + v.namesz + 8 + v.datasz + 16 + 4 + 16 + 32) % 2 ^ 64

/-- `payload_size`. -/
def payloadSize : List Variable → Nat
  | [] => 0
  | v :: vars => add64 (variableSize v) (payloadSize vars)

/-- `sizeof(struct variable_list_header)`. -/
def HEADER_SIZE : Nat := 24

/-- `list_size`. -/
def listSize (vars : List Variable) : Nat := add64 HEADER_SIZE (payloadSize vars)

/-! ## Writing -/

/-- `serialize_name`, which copies `namesz` bytes out of the name. -/
def serializeName (v : Variable) : Option (List UInt8) :=
  if v.namesz ≤ MAX_VARIABLE_NAME_SIZE then some (leBytes 8 v.namesz ++ v.keyBytes) else none

/-- `serialize_data`. -/
def serializeData (v : Variable) : List UInt8 := leBytes 8 v.datasz ++ v.data

/-- `serialize_var` for a variable with data. -/
def serializeVar (v : Variable) : Option (List UInt8) := do
  let name ← serializeName v
  return name ++ (serializeData v ++ (v.guid.bytes ++ (leBytes 4 v.attrs.toNat ++
    (v.timestamp.toBytes ++ v.cert.bytes))))

/-- `VARS`. -/
def VARS : List UInt8 := [0x56, 0x41, 0x52, 0x53]

/-- `serialize_variable_list_header`. -/
def serializeVariableListHeader (vars : List Variable) : List UInt8 :=
  VARS ++ (leBytes 4 1 ++ (leBytes 8 vars.length ++ leBytes 8 (payloadSize vars)))

/-- The loop of `serialize_variable_list`: what it returns, and the bytes it wrote.  It stops
at a variable that does not fit or that has no data. -/
def serializeVars (sz : Nat) : Nat → Nat → List Variable → Option (Nat × List UInt8)
  | _, _, [] => some (0, [])
  | i, sum, v :: vars =>
    let sum := add64 sum (variableSize v)
    if sum > sz then some (i, [])
    else if v.data = [] then some (i, [])
    else do
      let bytes ← serializeVar v
      let (ret, rest) ← serializeVars sz (i + 1) sum vars
      return (ret, bytes ++ rest)

/-- `serialize_variable_list`. -/
def serializeVariableList (sz : Nat) (vars : List Variable) : Option (Nat × List UInt8) := do
  let (ret, bytes) ← serializeVars sz 0 0 vars
  return (ret, serializeVariableListHeader vars ++ bytes)

/-! ## Reading -/

/-- `unserialize_var_cached`, into a variable that is all zeros. -/
def unserializeVarCached (below : UInt16) : Reader Int Variable := do
  let namesz ← Reader.num 8
  if namesz = 0 ∨ namesz > MAX_VARIABLE_NAME_SIZE then throw (-1) else
  let name ← Reader.bytes namesz
  let datasz ← Reader.num 8
  if datasz = 0 then throw (-1) else
  -- `malloc` fails
  if datasz ≥ 2 ^ 63 then throw (-1) else
  let data ← Reader.bytes datasz
  let guid ← Reader.bytes 16
  let attrs ← Reader.num 4
  let timestamp ← Reader.bytes 16
  let cert ← Reader.bytes SHA256_DIGEST_SIZE
  match variableCreateNoalloc below Variable.zero ⟨nameArray name, namesz, Block.ofList 16 guid⟩
    (some data) (BitVec.ofNat 32 attrs) with
  | (ret, v) =>
    if ret < 0 then throw ret
    else return { v with
      timestamp := EfiTime.ofBytes timestamp, cert := Block.ofList SHA256_DIGEST_SIZE cert }

/-- The array of `from_bytes_to_vars` in front of its last check.  `front` is the unit in
front of that array. -/
def unserializeVars (front : UInt16) (n : Nat) : Reader Int (List Variable) := do
  let _magic ← Reader.num 4
  let _version ← Reader.num 4
  let count ← Reader.num 8
  let _payload ← Reader.num 8
  if count > n then throw (-1) else
  Reader.times (fun i => unserializeVarCached (if i = 0 then front else 0)) 0 count

/-- `from_bytes_to_vars`. -/
def fromBytesToVars (front : UInt16) (n : Nat) (bytes : List UInt8) :
    Option (Except Int (List Variable)) := do
  match ← (unserializeVars front n).read bytes with
  | .error ret => return .error ret
  | .ok (vars, rest) =>
      if rest ≠ [] then return .error (-1)
      else if vars.length > INT_MAX then return .error (-1)
      else return .ok vars

/-- What is accepted has been read to its end. -/
theorem fromBytesToVars_ok_iff {front : UInt16} {n : Nat} {bytes : List UInt8}
    {vars : List Variable} : fromBytesToVars front n bytes = some (.ok vars) ↔
      (unserializeVars front n).read bytes = some (.ok (vars, [])) ∧ vars.length ≤ INT_MAX := by
  unfold fromBytesToVars
  constructor
  · intro h
    obtain ⟨r, hr, h⟩ := Option.bind_eq_some_iff.mp h
    cases r with
    | error ret => cases h
    | ok r =>
        obtain ⟨vars', rest⟩ := r
        dsimp only at h
        split at h
        · cases h
        rename_i hrest
        split at h
        · cases h
        rename_i hint
        cases h
        rw [not_not.mp hrest] at hr
        exact ⟨hr, Nat.not_lt.mp hint⟩
  · rintro ⟨hr, hint⟩
    refine Option.bind_eq_some_iff.mpr ⟨_, hr, ?_⟩
    dsimp only
    rw [if_neg (not_not_intro rfl), if_neg (Nat.not_lt.mpr hint)]
    rfl

/-! ## Sizes again -/

theorem Variable.length_keyBytes {v : Variable} (h : v.namesz ≤ MAX_VARIABLE_NAME_SIZE) :
    v.keyBytes.length = v.namesz := by
  rw [Variable.keyBytes, List.length_take, v.name.length_eq]
  exact min_eq_left h

/-- A name that is written lies inside its array. -/
theorem serializeVar_fits {v : Variable} {bytes : List UInt8} (h : serializeVar v = some bytes) :
    v.namesz ≤ MAX_VARIABLE_NAME_SIZE := by
  by_contra hgt
  unfold serializeVar serializeName at h
  rw [if_neg hgt] at h
  cases h

theorem length_serializeVar {v : Variable} {bytes : List UInt8} (h : serializeVar v = some bytes) :
    bytes.length = 84 + v.namesz + v.datasz := by
  obtain ⟨name, hname, hbytes⟩ := Option.bind_eq_some_iff.mp h
  unfold serializeName at hname
  split at hname
  · rename_i hfits
    cases hname
    cases hbytes
    have hkey := Variable.length_keyBytes hfits
    simp only [List.length_append, length_leBytes, hkey, serializeData, Block.length_eq,
      EfiTime.length_toBytes, Variable.datasz, SHA256_DIGEST_SIZE]
    omega
  · cases hname

/-! ## What is read back -/

/-- The variable that `unserialize_var_cached` makes of what `serialize_var` wrote. -/
def Variable.reloaded (below : UInt16) (v : Variable) : Variable :=
  { name := Variable.zero.name.overwrite (nameArray v.keyBytes).bytes v.namesz
    namesz := Key.stored below ⟨nameArray v.keyBytes, v.namesz, v.guid⟩
    data := v.data
    guid := v.guid
    attrs := v.attrs
    timestamp := v.timestamp
    cert := v.cert }

theorem reads_serializeVar {v : Variable} {bytes : List UInt8} (below : UInt16)
    (h : serializeVar v = some bytes) (h0 : v.namesz ≠ 0) (hd : v.data ≠ [])
    (hmax : v.datasz ≤ MAX_VARIABLE_DATA_SIZE) :
    Reads (unserializeVarCached below) bytes (v.reloaded below) := by
  obtain ⟨name, hname, hbytes⟩ := Option.bind_eq_some_iff.mp h
  unfold serializeName at hname
  split at hname
  · rename_i hfits
    cases hname
    cases hbytes
    have hkey := Variable.length_keyBytes hfits
    have hname64 : v.namesz < 256 ^ 8 := lt_of_le_of_lt hfits (by decide)
    have hdata64 : v.datasz < 256 ^ 8 := lt_of_le_of_lt hmax (by decide)
    have hdata0 : ¬ v.datasz = 0 := by simpa [Variable.datasz] using hd
    have hmalloc : ¬ v.datasz ≥ 2 ^ 63 := by
      have hd32 : v.datasz ≤ 32768 := hmax
      omega
    have hsize : ¬ (v.namesz = 0 ∨ v.namesz > MAX_VARIABLE_NAME_SIZE) := by
      rintro (hz | hz)
      · exact h0 hz
      · exact absurd hfits (Nat.not_le.mpr hz)
    unfold unserializeVarCached serializeData
    rw [List.append_assoc, List.append_assoc]
    refine (Reads.num hname64).bind ?_
    rw [if_neg hsize]
    refine (Reads.bytes hkey).bind ((Reads.num hdata64).bind ?_)
    rw [if_neg hdata0, if_neg hmalloc]
    refine (Reads.bytes rfl).bind ((Reads.bytes v.guid.length_eq).bind
      ((Reads.num v.attrs.isLt).bind ((Reads.bytes v.timestamp.length_toBytes).bind ?_)))
    rw [← List.append_nil v.cert.bytes]
    refine (Reads.bytes v.cert.length_eq).bind ?_
    rw [variableCreateNoalloc_eq below _ ⟨nameArray v.keyBytes, v.namesz, _⟩ _ hd hmax h0 hfits]
    have hv := Reads.pure (ε := Int) (v.reloaded below)
    simpa only [Variable.reloaded, Block.ofList_bytes_self, BitVec.ofNat_toNat,
      BitVec.setWidth_eq, EfiTime.ofBytes_toBytes, Int.lt_irrefl, if_false] using hv
  · cases hname

/-! ## The round trip -/

/-- The sizes of a variable in a store, with a name that is stored as it is. -/
structure Variable.WellSized (v : Variable) : Prop where
  name : 2 ≤ v.namesz ∧ v.namesz ≤ MAX_VARIABLE_NAME_SIZE
  even : v.namesz % 2 = 0
  last : unitAt v.name.bytes (v.namesz / 2 - 1) ≠ 0
  data : 1 ≤ v.datasz ∧ v.datasz ≤ MAX_VARIABLE_DATA_SIZE

/-- The sizes of a variable in a store, with a last unit that is not NUL: what the round trip
needs.  The name may end in half a unit. -/
structure Variable.Kept (v : Variable) : Prop where
  name : 2 ≤ v.namesz ∧ v.namesz ≤ MAX_VARIABLE_NAME_SIZE
  last : unitAt v.name.bytes (v.namesz / 2 - 1) ≠ 0
  data : 1 ≤ v.datasz ∧ v.datasz ≤ MAX_VARIABLE_DATA_SIZE

theorem Variable.WellSized.kept {v : Variable} (h : v.WellSized) : v.Kept :=
  ⟨h.name, h.last, h.data⟩

/-- Every field is the same, the name up to its size. -/
structure Variable.SameFields (v v' : Variable) : Prop where
  name : v'.keyBytes = v.keyBytes
  namesz : v'.namesz = v.namesz
  data : v'.data = v.data
  guid : v'.guid = v.guid
  attrs : v'.attrs = v.attrs
  timestamp : v'.timestamp = v.timestamp
  cert : v'.cert = v.cert

/-- Name, data, GUID and attributes are the same. -/
structure Variable.SameContents (v v' : Variable) : Prop where
  name : v'.keyBytes = v.keyBytes
  namesz : v'.namesz = v.namesz
  data : v'.data = v.data
  guid : v'.guid = v.guid
  attrs : v'.attrs = v.attrs

theorem Variable.SameFields.contents {v v' : Variable} (h : v.SameFields v') : v.SameContents v' :=
  ⟨h.name, h.namesz, h.data, h.guid, h.attrs⟩

theorem Variable.unitAt_keyBytes {v : Variable} {i : Nat} (h : 2 * i + 1 < v.namesz) :
    unitAt v.keyBytes i = unitAt v.name.bytes i := by
  rw [Variable.keyBytes, unitAt_take h]

namespace Variable.SameContents

variable {u v w : Variable}

theorem trans (h : u.SameContents v) (h' : v.SameContents w) : u.SameContents w :=
  ⟨h'.name.trans h.name, h'.namesz.trans h.namesz, h'.data.trans h.data, h'.guid.trans h.guid,
    h'.attrs.trans h.attrs⟩

theorem kept (h : v.SameContents w) (hv : v.Kept) : w.Kept := by
  have h2 := hv.name.1
  refine ⟨?_, ?_, ?_⟩
  · rw [h.namesz]
    exact hv.name
  · rw [← Variable.unitAt_keyBytes (by rw [h.namesz]; omega), h.namesz, h.name,
      Variable.unitAt_keyBytes (by omega)]
    exact hv.last
  · rw [Variable.datasz, h.data]
    exact hv.data

theorem trans_all {us vs ws : List Variable} (h : List.Forall₂ Variable.SameContents us vs)
    (h' : List.Forall₂ Variable.SameContents vs ws) :
    List.Forall₂ Variable.SameContents us ws := by
  induction h generalizing ws with
  | nil => exact h'
  | cons huv _ ih =>
      cases h' with
      | cons hvw hrest => exact .cons (huv.trans hvw) (ih hrest)

end Variable.SameContents

theorem Variable.Kept.reloaded {v : Variable} (h : v.Kept) (below : UInt16) :
    v.SameFields (v.reloaded below) := by
  obtain ⟨h2, hfits⟩ := h.name
  have hlen := Variable.length_keyBytes hfits
  have hfits' : v.keyBytes.length ≤ MAX_VARIABLE_NAME_SIZE := by rwa [hlen]
  have hsz : (v.reloaded below).namesz = v.namesz := by
    have hne : ¬ v.namesz / 2 = 0 := by omega
    have hunit : unitAt (nameArray v.keyBytes).bytes (v.namesz / 2 - 1) =
        unitAt v.name.bytes (v.namesz / 2 - 1) := by
      rw [unitAt_nameArray hfits' (by omega), Variable.keyBytes, unitAt_take (by omega)]
    simp only [Variable.reloaded, Key.stored, lastUnit, if_neg hne, hunit, if_neg h.last]
  refine ⟨?_, hsz, rfl, rfl, rfl, rfl, rfl⟩
  rw [Variable.keyBytes, hsz]
  show (Variable.zero.name.overwrite (nameArray v.keyBytes).bytes v.namesz).bytes.take v.namesz = _
  rw [Block.overwrite_take _ _ hfits]
  have htake := nameArray_take hfits'
  rwa [hlen] at htake

theorem Variable.Kept.serializeVar {v : Variable} (h : v.Kept) :
    ∃ bytes, serializeVar v = some bytes ∧ bytes.length = variableSize v := by
  obtain ⟨_, hfits⟩ := h.name
  obtain ⟨_, hmax⟩ := h.data
  have hser : ∃ bytes, Uefistored.serializeVar v = some bytes := by
    unfold Uefistored.serializeVar serializeName
    rw [if_pos hfits]
    exact ⟨_, rfl⟩
  obtain ⟨bytes, hser⟩ := hser
  refine ⟨bytes, hser, ?_⟩
  rw [length_serializeVar hser, variableSize]
  have hn : v.namesz ≤ 256 := hfits
  have hd : v.datasz ≤ 32768 := hmax
  omega

/-- The bytes of one variable in a list. -/
def serialized (v : Variable) : List UInt8 := (serializeVar v).getD []

theorem Variable.Kept.reads {v : Variable} (h : v.Kept) (below : UInt16) :
    Reads (unserializeVarCached below) (serialized v) (v.reloaded below) := by
  obtain ⟨bytes, hser, _⟩ := h.serializeVar
  rw [serialized, hser, Option.getD_some]
  refine reads_serializeVar below hser ?_ ?_ h.data.2
  · intro h0
    have := h.name.1
    omega
  · intro hnil
    have := h.data.1
    rw [Variable.datasz, hnil] at this
    cases this

theorem Variable.Kept.variableSize_le {v : Variable} (h : v.Kept) :
    variableSize v ≤ 33108 := by
  have hn : v.namesz ≤ 256 := h.name.2
  have hd : v.datasz ≤ 32768 := h.data.2
  unfold variableSize
  omega

/-- The sum of the sizes does not wrap around. -/
theorem payloadSize_sum : ∀ {vars : List Variable}, (∀ v ∈ vars, variableSize v ≤ 33108) →
    vars.length ≤ 128 → payloadSize vars = (vars.map variableSize).sum ∧
      payloadSize vars ≤ vars.length * 33108
  | [], _, _ => ⟨rfl, Nat.zero_le _⟩
  | v :: vars, hvars, hn => by
      have hv := hvars v List.mem_cons_self
      rw [List.length_cons] at hn
      obtain ⟨ih, hle⟩ := payloadSize_sum (fun w hw => hvars w (List.mem_cons_of_mem _ hw))
        (by omega)
      have hsum : add64 (variableSize v) (payloadSize vars) =
          variableSize v + payloadSize vars := by
        unfold add64
        omega
      rw [payloadSize, hsum, List.map_cons, List.sum_cons, ih, List.length_cons]
      exact ⟨rfl, by omega⟩

theorem listSize_eq {vars : List Variable} (hvars : ∀ v ∈ vars, variableSize v ≤ 33108)
    (hn : vars.length ≤ 128) : listSize vars = 24 + (vars.map variableSize).sum ∧
      listSize vars ≤ 24 + vars.length * 33108 := by
  obtain ⟨hsum, hle⟩ := payloadSize_sum hvars hn
  unfold listSize add64 HEADER_SIZE
  omega

theorem payloadSize_eq {vars : List Variable} (hvars : ∀ v ∈ vars, v.Kept)
    (hn : vars.length ≤ 128) :
    payloadSize vars = (vars.flatMap serialized).length ∧
      payloadSize vars ≤ vars.length * 33108 := by
  obtain ⟨hsum, hle⟩ := payloadSize_sum (fun v hv => (hvars v hv).variableSize_le) hn
  refine ⟨?_, hle⟩
  rw [hsum, List.length_flatMap]
  refine congrArg List.sum (List.map_congr_left ?_)
  intro v hv
  obtain ⟨bytes, hser, hlen⟩ := (hvars v hv).serializeVar
  rw [serialized, hser, Option.getD_some, hlen]

/-- The loop writes every variable: the running sum stays within the size. -/
theorem serializeVars_eq {sz : Nat} : ∀ {vars : List Variable} (i sum : Nat),
    (∀ v ∈ vars, v.Kept) → sum + (vars.flatMap serialized).length ≤ sz → sz < 2 ^ 64 →
    serializeVars sz i sum vars = some (0, vars.flatMap serialized)
  | [], _, _, _, _, _ => rfl
  | v :: vars, i, sum, hvars, hsum, hsz => by
      have hv := hvars v List.mem_cons_self
      obtain ⟨bytes, hser, hlen⟩ := hv.serializeVar
      have hbytes : serialized v = bytes := by rw [serialized, hser, Option.getD_some]
      rw [List.flatMap_cons, List.length_append, hbytes, hlen] at hsum
      have hadd : add64 sum (variableSize v) = sum + variableSize v := by
        unfold add64
        omega
      have hdata : ¬ v.data = [] := by
        intro hnil
        have := hv.data.1
        rw [Variable.datasz, hnil] at this
        cases this
      have ih := serializeVars_eq (i + 1) (sum + variableSize v)
        (fun w hw => hvars w (List.mem_cons_of_mem _ hw)) (by omega) hsz
      unfold serializeVars
      rw [hadd, if_neg (by omega), if_neg hdata, hser, ih, List.flatMap_cons, hbytes]
      rfl

/-- The header is read, and then the entries it announces. -/
theorem reads_unserializeVars {vars vars' : List Variable} {front : UInt16} {n : Nat}
    {body : List UInt8} (hcount : vars.length < 256 ^ 8) (hpay : payloadSize vars < 256 ^ 8)
    (hcap : vars.length ≤ n) (h : Reads (Reader.times (fun i =>
      unserializeVarCached (if i = 0 then front else 0)) 0 vars.length) body vars') :
    Reads (unserializeVars front n) (serializeVariableListHeader vars ++ body) vars' := by
  unfold unserializeVars serializeVariableListHeader
  simp only [List.append_assoc]
  refine (Reads.num (v := leNat VARS) (by decide)).bind ((Reads.num (by decide)).bind
    ((Reads.num hcount).bind ((Reads.num hpay).bind ?_)))
  rw [if_neg (by omega)]
  exact h

/-- A list of variables is written whole, and read back into any array that is long enough. -/
theorem serialize_kept {vars : List Variable} (hn : vars.length ≤ MAX_VAR_COUNT)
    (hvars : ∀ v ∈ vars, v.Kept) (front : UInt16) {n : Nat} (hcap : vars.length ≤ n) :
    serializeVariableList (listSize vars) vars =
        some (0, serializeVariableListHeader vars ++ vars.flatMap serialized) ∧
      (serializeVariableListHeader vars ++ vars.flatMap serialized).length = listSize vars ∧
      ∃ vars', fromBytesToVars front n (serializeVariableListHeader vars ++ vars.flatMap serialized)
          = some (.ok vars') ∧ List.Forall₂ Variable.SameFields vars vars' := by
  have h128 : vars.length ≤ 128 := hn
  obtain ⟨hpayload, hle⟩ := payloadSize_eq hvars h128
  have hlist : listSize vars = 24 + payloadSize vars := by
    unfold listSize add64 HEADER_SIZE
    omega
  have hser : serializeVars (listSize vars) 0 0 vars = some (0, vars.flatMap serialized) :=
    serializeVars_eq 0 0 hvars (by omega) (by omega)
  have hentry : ∀ i, ∀ v ∈ vars, ∃ v', v.SameFields v' ∧
      Reads (unserializeVarCached (if i = 0 then front else 0)) (serialized v) v' := by
    intro i v hv
    exact ⟨_, (hvars v hv).reloaded _, (hvars v hv).reads _⟩
  obtain ⟨vars', hsame, hreads⟩ := Reads.times hentry 0
  refine ⟨by rw [serializeVariableList, hser]; rfl, ?_, vars', ?_, hsame⟩
  · rw [List.length_append, ← hpayload, hlist]
    rfl
  · have hcount : vars.length < 256 ^ 8 := by omega
    have hpay : payloadSize vars < 256 ^ 8 := by omega
    have hread : Reads (unserializeVars front n) _ vars' :=
      reads_unserializeVars hcount hpay hcap hreads
    have hall := hread []
    have hint : vars'.length ≤ INT_MAX := by
      rw [hsame.length_eq.symm, INT_MAX]
      omega
    rw [List.append_nil] at hall
    exact fromBytesToVars_ok_iff.mpr ⟨hall, hint⟩

/-- A list of variables is written as exactly `list_size` bytes and read back with every
field of every variable, in order, into any array that is long enough. -/
theorem serialize_roundTrip {vars : List Variable} (hn : vars.length ≤ MAX_VAR_COUNT)
    (hvars : ∀ v ∈ vars, v.WellSized) (front : UInt16) {n : Nat} (hcap : vars.length ≤ n) :
    ∃ bytes vars', serializeVariableList (listSize vars) vars = some (0, bytes) ∧
      bytes.length = listSize vars ∧ fromBytesToVars front n bytes = some (.ok vars') ∧
      vars'.length = vars.length ∧ List.Forall₂ Variable.SameFields vars vars' := by
  obtain ⟨hser, hlen, vars', hread, hsame⟩ :=
    serialize_kept hn (fun v hv => (hvars v hv).kept) front hcap
  exact ⟨_, vars', hser, hlen, hread, hsame.length_eq.symm, hsame⟩

/-- Three variables of different sizes, one of them with a time stamp and a digest. -/
def threeVariables : List Variable :=
  [{ Variable.zero with name := nameArray (wide ['A']), namesz := 2, data := [1] },
    { Variable.zero with
      name := nameArray (wide ['d', 'b', 'x']), namesz := 6, data := [2, 3],
      guid := gEfiImageSecurityDatabaseGuid, attrs := EFI_VARIABLE_NON_VOLATILE,
      timestamp := { EfiTime.zero with year := 2021 },
      cert := Block.ofList SHA256_DIGEST_SIZE [4, 5] },
    { Variable.zero with name := nameArray (wide ['B']), namesz := 2, data := [6, 7, 8] }]

theorem threeVariables_wellSized : ∀ v ∈ threeVariables, v.WellSized := by
  refine List.forall_mem_cons.mpr ⟨?_, List.forall_mem_cons.mpr ⟨?_,
    List.forall_mem_singleton.mpr ?_⟩⟩
  all_goals exact ⟨by decide, by decide, by decide +kernel, by decide⟩

theorem serialize_roundTrip_three : ∃ bytes vars',
    serializeVariableList (listSize threeVariables) threeVariables = some (0, bytes) ∧
      bytes.length = listSize threeVariables ∧
      fromBytesToVars 0 MAX_VAR_COUNT bytes = some (.ok vars') ∧ vars'.length = 3 ∧
      List.Forall₂ Variable.SameFields threeVariables vars' :=
  serialize_roundTrip (by decide) threeVariables_wellSized 0 (by decide)

end Uefistored
