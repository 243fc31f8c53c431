/-
# `Uefistored.Variable` — one slot of the store

`variable_t` of `inc/variable.h` and the functions of `src/variable.c` that
write one.

`data` is the block `var->data` points to.  Every function that writes
`var->data` sets `var->datasz` to the size of the block, so the size is the
length of the list and an unset pointer is the empty list.  Where a caller may
pass `NULL` as data the argument is an `Option`.

`sanitize_namesz` looks at the unit in front of index `namesz / 2`.  For
`namesz = 1` that is the unit in front of the array, `name[-1]`: the parameter
`below` stands for it.

A `setName`/`setData` that fails leaves its variable alone, so both return an
`Except`; `variable_create_noalloc` can fail after it wrote the name.
-/
import Uefistored.Name

namespace Uefistored

open Lib

/-- `variable_t`. -/
@[ext] structure Variable where
  name : NameArray
  namesz : Nat
  data : List UInt8
  guid : Guid
  attrs : Attrs
  timestamp : EfiTime
  cert : Digest
  deriving DecidableEq

/-- The triple `(name, namesz, guid)` that every storage function is handed. -/
structure Key where
  name : NameArray
  namesz : Nat
  guid : Guid
  deriving DecidableEq

/-- The key of a name that fills its size, zeros behind it. -/
def Key.of (l : List UInt8) (guid : Guid) : Key := ⟨nameArray l, l.length, guid⟩

theorem Key.of_namesz_ne_zero {l : List UInt8} (h : l ≠ []) (guid : Guid) :
    (Key.of l guid).namesz ≠ 0 :=
  fun h0 => h (List.eq_nil_of_length_eq_zero h0)

/-- `name[0 .. namesz)`. -/
def Key.bytes (k : Key) : List UInt8 := k.name.bytes.take k.namesz

namespace Variable

/-- `memset(var, 0, sizeof(*var))`. -/
def zero : Variable := ⟨Block.zero _, 0, [], Block.zero _, 0, EfiTime.zero, Block.zero _⟩

instance : Inhabited Variable := ⟨zero⟩

/-- `var->datasz`. -/
def datasz (v : Variable) : Nat := v.data.length

/-- The stored name, `name[0 .. namesz)`. -/
def keyBytes (v : Variable) : List UInt8 := v.name.bytes.take v.namesz

/-- The key that names the variable. -/
def key (v : Variable) : Key := ⟨v.name, v.namesz, v.guid⟩

/-- `variable_is_valid`. -/
def isValid (v : Variable) : Bool := unitAt v.name.bytes 0 != 0 && v.namesz != 0

/-- `var->name[0] == 0`, the test for an empty slot. -/
def isFree (v : Variable) : Bool := unitAt v.name.bytes 0 == 0

/-- The test of `find_variable` and of every other search loop. -/
def isMatch (k : Key) (v : Variable) : Bool :=
  v.namesz == k.namesz &&
    (v.name.bytes.take v.namesz == k.name.bytes.take v.namesz && v.guid == k.guid)

end Variable

/-! ## `variable.c` -/

def ENOMEM : Int := 12
def EINVAL : Int := 22

/-- `var->name[namesz / sizeof(UTF16) - 1]`; the index of a one-byte name is `-1`. -/
def lastUnit (below : UInt16) (name : NameArray) (namesz : Nat) : Nat :=
  if namesz / 2 = 0 then below.toNat else unitAt name.bytes (namesz / 2 - 1)

/-- `sanitize_namesz`. -/
def sanitizeNamesz (below : UInt16) (v : Variable) : Variable :=
  if lastUnit below v.name v.namesz = 0 then { v with namesz := sub64 v.namesz 2 } else v

/-- `variable_set_name`. -/
def variableSetName (below : UInt16) (v : Variable) (name : NameArray) (namesz : Nat) :
    Except Int Variable :=
  if namesz > MAX_VARIABLE_NAME_SIZE then .error (-EINVAL)
  else if namesz = 0 then .error (-1)
  else if namesz > MAX_VARIABLE_NAME_SIZE then .error (-2)
  else .ok (sanitizeNamesz below
    { v with name := v.name.overwrite name.bytes namesz, namesz := namesz })

/-- `variable_set_data`.  A block of the right size is written in place and any
other is allocated anew; both end with the bytes of `data`. -/
def variableSetData (v : Variable) (data : Option (List UInt8)) (append : Bool) :
    Except Int Variable :=
  match data with
  | none => .error (-1)
  | some data =>
    if data.length = 0 then .error (-1)
    else if data.length > MAX_VARIABLE_DATA_SIZE then .error (-2)
    else if append then
      if v.datasz + data.length > MAX_VARIABLE_DATA_SIZE then .error (-ENOMEM)
      else .ok { v with data := v.data ++ data }
    else .ok { v with data := data }

/-- `variable_create_noalloc` without a timestamp and without a cert, as `storage_set` calls
it: those two fields of the slot stay. -/
def variableCreateNoalloc (below : UInt16) (v : Variable) (k : Key)
    (data : Option (List UInt8)) (attrs : Attrs) : Int × Variable :=
  if (data.getD []).length = 0 then (-1, v)
  else
    match variableSetName below v k.name k.namesz with
    | .error _ => (-1, v)
    | .ok v =>
      match variableSetData v data false with
      -- cleanup_name
      | .error _ => (-1, { v with
          name := v.name.overwrite (List.replicate k.namesz 0) k.namesz })
      | .ok v => (0, { v with guid := k.guid, attrs := attrs })

/-- `variable_destroy_noalloc`. -/
def variableDestroyNoalloc (_ : Variable) : Variable := Variable.zero

/-- `variable_set_timestamp`. -/
def variableSetTimestamp (v : Variable) (timestamp : EfiTime) : Variable :=
  { v with timestamp := timestamp }

/-- `variable_copy`: name, data, GUID and attributes.  By the time the data is refused, the
name has been written. -/
def variableCopy (below : UInt16) (dst src : Variable) : Int × Variable :=
  match variableSetName below dst src.name src.namesz with
  | .error ret => (ret, dst)
  | .ok dst =>
    match variableSetData dst (some src.data) false with
    | .error ret => (ret, dst)
    | .ok dst => (0, { dst with guid := src.guid, attrs := src.attrs })

/-! ## The size a name is stored with -/

namespace Key

/-- The `namesz` that `sanitize_namesz` leaves. -/
def stored (below : UInt16) (k : Key) : Nat :=
  if lastUnit below k.name k.namesz = 0 then sub64 k.namesz 2 else k.namesz

/-- The last unit of the name is there and is not NUL, so that the name is
stored with the size it came with; and it is not the name of an empty slot. -/
structure Clean (k : Key) : Prop where
  two_le : 2 ≤ k.namesz
  fits : k.namesz ≤ MAX_VARIABLE_NAME_SIZE
  head : unitAt k.name.bytes 0 ≠ 0
  last : unitAt k.name.bytes (k.namesz / 2 - 1) ≠ 0

instance (k : Key) : Decidable k.Clean :=
  decidable_of_iff (2 ≤ k.namesz ∧ k.namesz ≤ MAX_VARIABLE_NAME_SIZE ∧
      unitAt k.name.bytes 0 ≠ 0 ∧ unitAt k.name.bytes (k.namesz / 2 - 1) ≠ 0)
    ⟨fun ⟨h1, h2, h3, h4⟩ => ⟨h1, h2, h3, h4⟩, fun ⟨h1, h2, h3, h4⟩ => ⟨h1, h2, h3, h4⟩⟩

theorem Clean.stored_eq {k : Key} (h : k.Clean) (below : UInt16) : k.stored below = k.namesz := by
  have h2 := h.two_le
  have hne : ¬ k.namesz / 2 = 0 := by omega
  simp only [stored, lastUnit, if_neg hne, if_neg h.last]

/-- The stored size is at most the size that came, but for a one-byte name, where the
subtraction wraps around. -/
theorem stored_le_or {l : List UInt8} {g : Guid} (h0 : l ≠ [])
    (hl : l.length ≤ MAX_VARIABLE_NAME_SIZE) (below : UInt16) :
    (Key.of l g).stored below ≤ l.length ∨
      l.length = 1 ∧ (Key.of l g).stored below = 2 ^ 64 - 1 := by
  have hpos : 0 < l.length := List.length_pos_of_ne_nil h0
  have hmax : l.length ≤ 256 := hl
  have hk : (Key.of l g).namesz = l.length := rfl
  unfold Key.stored
  rw [hk]
  split
  · by_cases h1 : l.length = 1
    · exact .inr ⟨h1, by rw [h1]; decide +kernel⟩
    · rw [sub64_of_le (by omega) (by omega)]
      exact .inl (by omega)
  · exact .inl (le_refl _)

/-- A stored size inside the array is the size that came, or that size without a NUL unit
at the end. -/
theorem stored_of_fits {l : List UInt8} {g : Guid} (hl : l.length ≤ MAX_VARIABLE_NAME_SIZE)
    {below : UInt16} (h : (Key.of l g).stored below ≤ MAX_VARIABLE_NAME_SIZE) :
    (Key.of l g).stored below = l.length ∨
      (Key.of l g).stored below + 2 = l.length ∧ unitAt l (l.length / 2 - 1) = 0 := by
  have hk : (Key.of l g).namesz = l.length := rfl
  have hmax : l.length ≤ 256 := hl
  have h256 : (Key.of l g).stored below ≤ 256 := h
  unfold stored at h256 ⊢
  rw [hk] at h256 ⊢
  split at h256
  · rename_i hlast
    rw [if_pos hlast]
    have h2 : 2 ≤ l.length := by
      by_contra hlt
      unfold sub64 at h256
      omega
    have hne : ¬ l.length / 2 = 0 := by omega
    rw [lastUnit, if_neg hne] at hlast
    rw [sub64_of_le h2 (by omega)]
    refine .inr ⟨by omega, ?_⟩
    rw [← unitAt_nameArray hl (by omega)]
    exact hlast
  · rename_i hlast
    rw [if_neg hlast]
    exact .inl rfl

@[simp] theorem bytes_of {l : List UInt8} (hl : l.length ≤ MAX_VARIABLE_NAME_SIZE) (guid : Guid) :
    (Key.of l guid).bytes = l :=
  nameArray_take hl

theorem clean_of_nulFree {l : List UInt8} (h : NulFree l)
    (hl : l.length ≤ MAX_VARIABLE_NAME_SIZE) (guid : Guid) : (Key.of l guid).Clean := by
  have h2 := h.two_le
  have hunit : ∀ i < l.length / 2, unitAt (nameArray l).bytes i ≠ 0 := by
    intro i hi
    rw [unitAt_nameArray hl (by omega)]
    exact h.2.2 i hi
  refine ⟨h2, hl, hunit 0 (by omega), hunit _ ?_⟩
  show l.length / 2 - 1 < l.length / 2
  omega

end Key

/-! ## What the functions compute -/

theorem Variable.isMatch_iff {k : Key} {v : Variable} :
    v.isMatch k = true ↔ v.namesz = k.namesz ∧ v.keyBytes = k.bytes ∧ v.guid = k.guid := by
  simp only [isMatch, Bool.and_eq_true, beq_iff_eq, keyBytes, Key.bytes]
  constructor
  · rintro ⟨h1, h2, h3⟩
    exact ⟨h1, by rw [h2, h1], h3⟩
  · rintro ⟨h1, h2, h3⟩
    exact ⟨h1, by rw [h2, h1], h3⟩

/-- Storing a name: the first `namesz` bytes are the key's and the size is the
sanitised one. -/
theorem variableSetName_eq (below : UInt16) (v : Variable) (k : Key) (h0 : k.namesz ≠ 0)
    (hfits : k.namesz ≤ MAX_VARIABLE_NAME_SIZE) :
    variableSetName below v k.name k.namesz =
      .ok { v with name := v.name.overwrite k.name.bytes k.namesz, namesz := k.stored below } := by
  have hlt : ¬ k.namesz > MAX_VARIABLE_NAME_SIZE := by omega
  have hlast : lastUnit below (v.name.overwrite k.name.bytes k.namesz) k.namesz =
      lastUnit below k.name k.namesz := by
    unfold lastUnit
    split
    · rfl
    · have hidx : 2 * (k.namesz / 2 - 1) + 1 < k.namesz := by omega
      rw [← unitAt_take hidx, Block.overwrite_take _ _ hfits, unitAt_take hidx]
  simp only [variableSetName, if_neg hlt, if_neg h0, sanitizeNamesz, Key.stored, hlast]
  split <;> rfl

theorem variableSetName_ok {below : UInt16} {v w : Variable} {k : Key}
    (h : variableSetName below v k.name k.namesz = .ok w) :
    w = { v with name := v.name.overwrite k.name.bytes k.namesz, namesz := k.stored below } := by
  have hsz : k.namesz ≠ 0 ∧ k.namesz ≤ MAX_VARIABLE_NAME_SIZE := by
    by_contra hc
    rw [not_and_or, not_not, not_le] at hc
    unfold variableSetName at h
    split at h
    · cases h
    · rename_i hle
      rw [if_pos (hc.resolve_right hle)] at h
      cases h
  rw [variableSetName_eq below v k hsz.1 hsz.2] at h
  exact (Except.ok.inj h).symm

/-- A name whose last unit is not NUL, written over itself, changes nothing. -/
theorem variableSetName_self (below : UInt16) {v : Variable} {k : Key} (hk : k.Clean)
    (hm : v.isMatch k = true) : variableSetName below v k.name k.namesz = .ok v := by
  obtain ⟨hsz, hbytes, _⟩ := Variable.isMatch_iff.mp hm
  have hover : v.name.overwrite k.name.bytes k.namesz = v.name := by
    apply Block.overwrite_eq_self hk.fits
    rw [← hsz]
    simpa [Variable.keyBytes, Key.bytes, hsz] using hbytes
  have h0 : k.namesz ≠ 0 := by have := hk.two_le; omega
  rw [variableSetName_eq below v k h0 hk.fits, hk.stored_eq, hover, ← hsz]

/-- Everything a successful `variable_set_data` can have done. -/
theorem variableSetData_ok {v v' : Variable} {data : List UInt8} {append : Bool}
    (h : variableSetData v (some data) append = .ok v') :
    data ≠ [] ∧ data.length ≤ MAX_VARIABLE_DATA_SIZE ∧
      v' = { v with data := if append then v.data ++ data else data } := by
  simp only [variableSetData] at h
  split at h
  · cases h
  · rename_i h0
    have hne : data ≠ [] := fun hd => h0 (by simp [hd])
    split at h
    · cases h
    · rename_i hmax
      refine ⟨hne, by omega, ?_⟩
      cases append with
      | false => simpa using h.symm
      | true =>
          simp only [if_true] at h
          split at h
          · cases h
          · simpa using h.symm

theorem variableSetData_fits {v v' : Variable} {data : List UInt8} {append : Bool}
    (h : variableSetData v (some data) append = .ok v') : v'.datasz ≤ MAX_VARIABLE_DATA_SIZE := by
  simp only [variableSetData] at h
  split at h
  · cases h
  split at h
  · cases h
  rename_i hmax
  split at h
  · split at h
    · cases h
    · rename_i hsum
      cases h
      rw [Variable.datasz, List.length_append]
      exact not_lt.mp hsum
  · cases h
    exact not_lt.mp hmax

/-- A block that fits replaces the data; only an append can overflow. -/
theorem variableSetData_replace {v : Variable} {data : List UInt8} (h0 : data ≠ [])
    (hmax : data.length ≤ MAX_VARIABLE_DATA_SIZE) :
    variableSetData v (some data) false = .ok { v with data := data } := by
  have h1 : ¬ data.length = 0 := by simpa using h0
  have h2 : ¬ data.length > MAX_VARIABLE_DATA_SIZE := by omega
  simp [variableSetData, h0, h2]

theorem variableSetData_append {v : Variable} {data : List UInt8} (h0 : data ≠ [])
    (hmax : data.length ≤ MAX_VARIABLE_DATA_SIZE) :
    variableSetData v (some data) true =
      if MAX_VARIABLE_DATA_SIZE < v.datasz + data.length then .error (-ENOMEM)
      else .ok { v with data := v.data ++ data } := by
  have h1 : ¬ data.length = 0 := by simpa using h0
  simp only [variableSetData, if_neg h1, if_neg (not_lt.mpr hmax), if_true, gt_iff_lt]

/-- What a copy leaves: what was there, a new name, or all but the old time stamp and cert. -/
theorem variableCopy_cases (below : UInt16) (dst src : Variable) :
    (variableCopy below dst src).2 = dst ∨
      (variableCopy below dst src).2 = { dst with
        name := dst.name.overwrite src.name.bytes src.namesz, namesz := src.key.stored below } ∨
      src.datasz ≤ MAX_VARIABLE_DATA_SIZE ∧ (variableCopy below dst src).2 = { dst with
        name := dst.name.overwrite src.name.bytes src.namesz, namesz := src.key.stored below,
        data := src.data, guid := src.guid, attrs := src.attrs } := by
  unfold variableCopy
  cases hname : variableSetName below dst src.name src.namesz with
  | error ret => exact .inl rfl
  | ok v =>
      obtain rfl := variableSetName_ok (k := src.key) hname
      dsimp only
      split
      · exact .inr (.inl rfl)
      · rename_i w hdata
        obtain ⟨_, hmax, rfl⟩ := variableSetData_ok hdata
        exact .inr (.inr ⟨hmax, rfl⟩)

/-- A variable with data that fits is created as it is asked for. -/
theorem variableCreateNoalloc_eq (below : UInt16) (v : Variable) (k : Key) {d : List UInt8}
    (attrs : Attrs) (hd : d ≠ []) (hmax : d.length ≤ MAX_VARIABLE_DATA_SIZE) (h0 : k.namesz ≠ 0)
    (hfits : k.namesz ≤ MAX_VARIABLE_NAME_SIZE) :
    variableCreateNoalloc below v k (some d) attrs =
      (0, { v with
        name := v.name.overwrite k.name.bytes k.namesz, namesz := k.stored below,
        data := d, guid := k.guid, attrs := attrs }) := by
  have hlen : ¬ ((some d).getD []).length = 0 := by simpa using hd
  unfold variableCreateNoalloc
  rw [if_neg hlen, variableSetName_eq below v k h0 hfits]
  dsimp only
  rw [variableSetData_replace hd hmax]

/-- Data that does not fit is refused, whatever the name. -/
theorem variableCreateNoalloc_long (below : UInt16) (v : Variable) (k : Key) {d : List UInt8}
    (attrs : Attrs) (hmax : MAX_VARIABLE_DATA_SIZE < d.length) :
    (variableCreateNoalloc below v k (some d) attrs).1 = -1 := by
  have hset : ∀ w : Variable, ∃ ret, variableSetData w (some d) false = .error ret := by
    intro w
    have h0 : ¬ d.length = 0 := by omega
    exact ⟨-2, by simp only [variableSetData, if_neg h0, if_pos hmax]⟩
  unfold variableCreateNoalloc
  split
  · rfl
  split
  · rfl
  · rename_i w _
    obtain ⟨ret, hret⟩ := hset w
    rw [hret]

end Uefistored
