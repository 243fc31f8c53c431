/-
# `Uefistored.Storage` — the variable store

`src/storage.c`: an array of `MAX_VAR_COUNT` slots, searched from the front,
and the two counters `total` and `used`.

`front` is the unit in memory in front of the array.  `sanitize_namesz` reads
it when a one-byte name is stored in slot 0; in front of every other slot lie
the four bytes of tail padding of the slot before, which are always zero.

**Proved here.**

    everything a `storage_set` can have done                        (`storageSet_cases`)
    a key stored as it came: failing means nothing changed          (`storageSet_failed`)
    what is left in any one slot                                    (`storageSet_slot`)
    slots of other keys keep their content                          (`storageSet_frame`)
-/
import Uefistored.Lib.Slots
import Uefistored.Variable

namespace Uefistored

open Lib

/-- The statics of `storage.c`; `vars` is the array `variables`. -/
structure Storage where
  vars : Fin MAX_VAR_COUNT → Variable
  total : Nat
  used : Nat
  front : UInt16

namespace Storage

/-- The store after `storage_destroy` or at program start. -/
def empty (front : UInt16) : Storage := ⟨fun _ => Variable.zero, 0, 0, front⟩

/-- The unit in front of slot `i`'s name. -/
def below (s : Storage) (i : Fin MAX_VAR_COUNT) : UInt16 := if i.val = 0 then s.front else 0

def setSlot (s : Storage) (i : Fin MAX_VAR_COUNT) (v : Variable) : Storage :=
  { s with vars := Function.update s.vars i v }

@[simp] theorem setSlot_vars (s : Storage) (i : Fin MAX_VAR_COUNT) (v : Variable) :
    (s.setSlot i v).vars = Function.update s.vars i v := rfl

@[simp] theorem setSlot_setSlot (s : Storage) (i : Fin MAX_VAR_COUNT) (v w : Variable) :
    (s.setSlot i v).setSlot i w = s.setSlot i w := by
  simp [setSlot]

@[simp] theorem setSlot_self (s : Storage) (i : Fin MAX_VAR_COUNT) :
    s.setSlot i (s.vars i) = s := by
  simp [setSlot]

/-- The slot a search for `k` ends at. -/
def findSlot (s : Storage) (k : Key) : Option (Fin MAX_VAR_COUNT) :=
  Slots.first s.vars (Variable.isMatch k)

/-- The first empty slot. -/
def freeSlot (s : Storage) : Option (Fin MAX_VAR_COUNT) :=
  Slots.first s.vars Variable.isFree

end Storage

/-! ## `storage.c` -/

/-- `is_delete`. -/
def isDelete (attrs : Attrs) (datasz : Nat) : Bool := datasz == 0 || attrs == 0

/-- `storage_find_variable`, and `storage_get_var_ptr` with `none` for
`EFI_NOT_FOUND`. -/
def storageFindVariable (s : Storage) (k : Key) : Option Variable :=
  Slots.lookup s.vars (Variable.isMatch k)

/-- `storage_exists`. -/
def storageExists (s : Storage) (k : Key) : Bool := (s.findSlot k).isSome

/-- The body of the loop of `storage_remove`, at the slot it found. -/
def Storage.remove (s : Storage) (i : Fin MAX_VAR_COUNT) : Storage :=
  { s.setSlot i (variableDestroyNoalloc (s.vars i)) with
    used := sub64 s.used (MAX_VARIABLE_NAME_SIZE + MAX_VARIABLE_DATA_SIZE)
    total := sub64 s.total 1 }

/-- `storage_remove`. -/
def storageRemove (s : Storage) (k : Key) : EfiStatus × Storage :=
  match s.findSlot k with
  | some i => (.success, s.remove i)
  | none => (.notFound, s)

/-- The status for a failed `variable_set_name` or `variable_set_data`. -/
def setErrorStatus (ret : Int) : EfiStatus := if ret = -2 then .outOfResources else .deviceError

/-- The body of the first loop of `storage_set`, at the slot it found.  By the time
the data is refused, the name has been written. -/
def Storage.replace (s : Storage) (i : Fin MAX_VAR_COUNT) (k : Key) (data : List UInt8)
    (attrs : Attrs) (append : Bool) : EfiStatus × Storage :=
  if (s.vars i).attrs ≠ attrs then (.invalidParameter, s)
  else
    match variableSetName (s.below i) (s.vars i) k.name k.namesz with
    | .error ret => (setErrorStatus ret, s)
    | .ok v =>
      match variableSetData v (some data) append with
      | .error ret => (setErrorStatus ret, s.setSlot i v)
      | .ok v => (.success, s.setSlot i { v with attrs := attrs })

/-- The body of the second loop of `storage_set`, at the slot it found. -/
def Storage.create (s : Storage) (i : Fin MAX_VAR_COUNT) (k : Key) (data : List UInt8)
    (attrs : Attrs) : EfiStatus × Storage :=
  match variableCreateNoalloc (s.below i) (s.vars i) k (some data) attrs with
  | (ret, v) =>
    if ret < 0 then (.deviceError, s.setSlot i v)
    else (.success, { s.setSlot i v with
      total := add64 s.total 1
      used := add64 s.used (MAX_VARIABLE_NAME_SIZE + MAX_VARIABLE_DATA_SIZE) })

/-- The size of a block a caller hands over, 0 for `NULL`. -/
def dataSize (data : Option (List UInt8)) : Nat := (data.getD []).length

/-- The size checks in front of `storage_set`. -/
def tooLarge (s : Storage) (k : Key) (datasz : Nat) : Bool :=
  k.namesz > MAX_VARIABLE_NAME_SIZE || datasz > MAX_VARIABLE_DATA_SIZE ||
    add64 (add64 datasz k.namesz) s.used > MAX_STORAGE_SIZE

/-- `storage_set`. -/
def storageSet (s : Storage) (k : Key) (data : Option (List UInt8)) (attrs : Attrs) :
    EfiStatus × Storage :=
  if tooLarge s k (dataSize data) then (.outOfResources, s)
  else if (dataSize data == 0 && !attrs.append) || attrs == 0 then storageRemove s k
  else
    match data with
    | none => (.deviceError, s)
    | some data =>
      match s.findSlot k with
      | some i => s.replace i k data attrs.withoutAppend attrs.append
      | none =>
        match s.freeSlot with
        | some i => s.create i k data attrs.withoutAppend
        | none => (.deviceError, s)

/-- `storage_set_with_timestamp`.  The status of `storage_set` is only returned for
a deletion. -/
def storageSetWithTimestamp (s : Storage) (k : Key) (data : Option (List UInt8))
    (attrs : Attrs) (timestamp : EfiTime) : EfiStatus × Storage :=
  if data.isNone then (.deviceError, s)
  else
    let r := storageSet s k data attrs
    if isDelete attrs (dataSize data) then r
    else
      match r.2.findSlot k with
      | none => (.notFound, r.2)
      | some i =>
        (.success, r.2.setSlot i (variableSetTimestamp (r.2.vars i) timestamp))

/-- `rt_deny_access`. -/
def rtDenyAccess (efiAtRuntime : Bool) (attrs : Attrs) : Bool :=
  efiAtRuntime && !attrs.has EFI_VARIABLE_RUNTIME_ACCESS

/-- `storage_get`: the status, `*data_size`, and the attributes and data that are copied out. -/
def storageGet (s : Storage) (efiAtRuntime : Bool) (k : Key) (dataSize : Nat) :
    EfiStatus × Nat × Option (Attrs × List UInt8) :=
  match storageFindVariable s k with
  | none => (.notFound, dataSize, none)
  | some v =>
    if rtDenyAccess efiAtRuntime v.attrs then (.notFound, dataSize, none)
    else if dataSize < v.datasz then (.bufferTooSmall, v.datasz, none)
    else if dataSize > MAX_SHARED_OVMF_MEM then (.deviceError, dataSize, none)
    else (.success, v.datasz, some (v.attrs, v.data))

/-- The slots that `storage_get_first` and `storage_next_variable` stop at. -/
def Variable.isListed (efiAtRuntime : Bool) (v : Variable) : Bool :=
  v.isValid && !rtDenyAccess efiAtRuntime v.attrs

/-- `storage_get_first`. -/
def storageGetFirst (s : Storage) (efiAtRuntime : Bool) : Option (Fin MAX_VAR_COUNT) :=
  if s.total = 0 then none else Slots.first s.vars (Variable.isListed efiAtRuntime)

/-- `storage_next_variable`, the slot of the variable it returns.  Where the name is not found
the index ends behind the array. -/
def storageNextVariable (s : Storage) (efiAtRuntime : Bool) (k : Key) :
    Option (Fin MAX_VAR_COUNT) :=
  if unitAt k.name.bytes 0 = 0 ∨ k.namesz = 0 then storageGetFirst s efiAtRuntime
  else
    match s.findSlot k with
    | none => none
    | some i => Slots.firstFrom s.vars (Variable.isListed efiAtRuntime) (i.val + 1)

/-! ## What a write can do -/

/-- The slot content that storing `k` leaves, but for data and attributes. -/
def Variable.named (v : Variable) (below : UInt16) (k : Key) : Variable :=
  { v with name := v.name.overwrite k.name.bytes k.namesz, namesz := k.stored below }

/-- The request is one to delete: no data and no append, or no attributes. -/
def asksRemoval (data : Option (List UInt8)) (attrs : Attrs) : Bool :=
  (dataSize data == 0 && !attrs.append) || attrs == 0

/-- Everything `storage_set` can have done, with the conditions under which it did. -/
inductive SetResult (s : Storage) (k : Key) (data : Option (List UInt8)) (attrs : Attrs) :
    EfiStatus → Storage → Prop
  /-- An error, and nothing written. -/
  | refused {st : EfiStatus} : st ≠ .success → SetResult s k data attrs st s
  /-- The first match was destroyed. -/
  | removed {i : Fin MAX_VAR_COUNT} : asksRemoval data attrs = true → s.findSlot k = some i →
      SetResult s k data attrs .success (s.remove i)
  /-- The first match has new data. -/
  | replaced {i : Fin MAX_VAR_COUNT} {d : List UInt8} : asksRemoval data attrs = false →
      data = some d → d ≠ [] → k.namesz ≠ 0 → k.namesz ≤ MAX_VARIABLE_NAME_SIZE →
      s.findSlot k = some i → (s.vars i).attrs = attrs.withoutAppend →
      (if attrs.append then (s.vars i).data ++ d else d).length ≤ MAX_VARIABLE_DATA_SIZE →
      SetResult s k data attrs .success (s.setSlot i { (s.vars i).named (s.below i) k with
        data := if attrs.append then (s.vars i).data ++ d else d })
  /-- The append did not fit; the first match was renamed all the same. -/
  | renamed {i : Fin MAX_VAR_COUNT} {st : EfiStatus} : st ≠ .success → k.namesz ≠ 0 →
      k.namesz ≤ MAX_VARIABLE_NAME_SIZE → s.findSlot k = some i →
      SetResult s k data attrs st (s.setSlot i ((s.vars i).named (s.below i) k))
  /-- The first empty slot was taken. -/
  | created {i : Fin MAX_VAR_COUNT} {d : List UInt8} : asksRemoval data attrs = false →
      data = some d → d ≠ [] → k.namesz ≠ 0 → k.namesz ≤ MAX_VARIABLE_NAME_SIZE →
      s.findSlot k = none → s.freeSlot = some i → d.length ≤ MAX_VARIABLE_DATA_SIZE →
      SetResult s k data attrs .success
        { s.setSlot i { (s.vars i).named (s.below i) k with
            data := d, guid := k.guid, attrs := attrs.withoutAppend } with
          total := add64 s.total 1
          used := add64 s.used (MAX_VARIABLE_NAME_SIZE + MAX_VARIABLE_DATA_SIZE) }

theorem setErrorStatus_ne (ret : Int) : setErrorStatus ret ≠ .success := by
  unfold setErrorStatus
  split <;> simp

theorem replace_cases {s : Storage} {k : Key} {d : List UInt8} {attrs : Attrs}
    {i : Fin MAX_VAR_COUNT} (hrem : asksRemoval (some d) attrs = false)
    (hi : s.findSlot k = some i) (hsz : k.namesz ≤ MAX_VARIABLE_NAME_SIZE) :
    SetResult s k (some d) attrs (s.replace i k d attrs.withoutAppend attrs.append).1
      (s.replace i k d attrs.withoutAppend attrs.append).2 := by
  unfold Storage.replace
  split
  · exact .refused (by simp)
  · rename_i hattrs
    rw [not_not] at hattrs
    by_cases h0 : k.namesz = 0
    · have hname : variableSetName (s.below i) (s.vars i) k.name k.namesz = .error (-1) := by
        simp [variableSetName, h0]
      rw [hname]
      dsimp only
      exact .refused (setErrorStatus_ne _)
    · rw [variableSetName_eq _ _ _ h0 hsz]
      dsimp only
      cases hd : variableSetData { s.vars i with
          name := (s.vars i).name.overwrite k.name.bytes k.namesz,
          namesz := k.stored (s.below i) } (some d) attrs.append with
      | error ret => exact .renamed (setErrorStatus_ne _) h0 hsz hi
      | ok v =>
          have hfits := variableSetData_fits hd
          obtain ⟨hne, _, rfl⟩ := variableSetData_ok hd
          have hrep : SetResult s k (some d) attrs .success _ :=
            .replaced hrem rfl hne h0 hsz hi hattrs hfits
          simpa [Variable.named, ← hattrs] using hrep

theorem create_cases {s : Storage} {k : Key} {d : List UInt8} {attrs : Attrs}
    {i : Fin MAX_VAR_COUNT} (hrem : asksRemoval (some d) attrs = false)
    (hk : s.findSlot k = none) (hi : s.freeSlot = some i)
    (hsz : k.namesz ≤ MAX_VARIABLE_NAME_SIZE) (hd : d.length ≤ MAX_VARIABLE_DATA_SIZE) :
    SetResult s k (some d) attrs (s.create i k d attrs.withoutAppend).1
      (s.create i k d attrs.withoutAppend).2 := by
  unfold Storage.create
  by_cases hne : d = []
  · rw [hne]
    simpa [variableCreateNoalloc] using SetResult.refused (by simp)
  · by_cases h0 : k.namesz = 0
    · have hname : variableSetName (s.below i) (s.vars i) k.name k.namesz = .error (-1) := by
        simp [variableSetName, h0]
      have hlen : ¬ ((some d).getD []).length = 0 := by simpa using hne
      unfold variableCreateNoalloc
      rw [if_neg hlen, hname]
      simpa using SetResult.refused (by simp)
    · rw [variableCreateNoalloc_eq _ _ _ _ hne hd h0 hsz]
      exact .created hrem rfl hne h0 hsz hk hi hd

theorem storageSet_cases (s : Storage) (k : Key) (data : Option (List UInt8)) (attrs : Attrs) :
    SetResult s k data attrs (storageSet s k data attrs).1 (storageSet s k data attrs).2 := by
  unfold storageSet
  split
  · exact .refused (by simp)
  · rename_i hlarge
    simp only [tooLarge, Bool.or_eq_true, decide_eq_true_eq, not_or, not_lt] at hlarge
    split
    · rename_i hrem
      unfold storageRemove
      cases hi : s.findSlot k with
      | none => exact .refused (by simp)
      | some i => exact .removed hrem hi
    · rename_i hrem
      have hrem' : asksRemoval data attrs = false := by simpa [asksRemoval] using hrem
      cases data with
      | none => exact .refused (by simp)
      | some d =>
          dsimp only
          cases hi : s.findSlot k with
          | some i => exact replace_cases hrem' hi hlarge.1.1
          | none =>
              dsimp only
              cases hf : s.freeSlot with
              | none => exact .refused (by simp)
              | some i =>
                  exact create_cases hrem' hi hf hlarge.1.1 (by simpa [dataSize] using hlarge.1.2)

/-- Everything `storage_set_with_timestamp` can have done: pass on the result of a
deletion, not find the variable again, or stamp the slot it finds. -/
theorem storageSetWithTimestamp_cases (s : Storage) (k : Key) (d : List UInt8) (attrs : Attrs)
    (time : EfiTime) :
    (isDelete attrs d.length = true ∧
        storageSetWithTimestamp s k (some d) attrs time = storageSet s k (some d) attrs) ∨
      isDelete attrs d.length = false ∧
        ((storageSet s k (some d) attrs).2.findSlot k = none ∧
            storageSetWithTimestamp s k (some d) attrs time =
              (.notFound, (storageSet s k (some d) attrs).2) ∨
          ∃ i, (storageSet s k (some d) attrs).2.findSlot k = some i ∧
            storageSetWithTimestamp s k (some d) attrs time =
              (.success, (storageSet s k (some d) attrs).2.setSlot i
                { (storageSet s k (some d) attrs).2.vars i with timestamp := time })) := by
  have hsz : dataSize (some d) = d.length := rfl
  unfold storageSetWithTimestamp
  simp only [Option.isNone_some, Bool.false_eq_true, if_false, hsz]
  cases hdel : isDelete attrs d.length with
  | true => exact .inl ⟨rfl, if_pos rfl⟩
  | false =>
      refine .inr ⟨rfl, ?_⟩
      simp only [Bool.false_eq_true, if_false]
      cases hf : (storageSet s k (some d) attrs).2.findSlot k with
      | none => exact .inl ⟨rfl, rfl⟩
      | some i => exact .inr ⟨i, rfl, rfl⟩

theorem asksRemoval_of_isDelete {d : List UInt8} {attrs : Attrs}
    (h : isDelete attrs d.length = false) : asksRemoval (some d) attrs = false := by
  simp only [isDelete, Bool.or_eq_false_iff] at h
  simp only [asksRemoval, dataSize, Option.getD_some, h.1, h.2, Bool.false_and, Bool.or_self]

theorem isDelete_eq_false {attrs : Attrs} {d : List UInt8} (ha : attrs.timeBased = true)
    (hd : d ≠ []) : isDelete attrs d.length = false := by
  have hlen : (d.length == 0) = false := by simpa using hd
  have hne : (attrs == 0) = false := by simpa using Attrs.ne_zero_of_timeBased ha
  rw [isDelete, hlen, hne, Bool.or_self]

/-! ## Keys that are stored as they came -/

theorem Variable.named_self {v : Variable} {k : Key} (hk : k.Clean) (hm : v.isMatch k = true)
    (below : UInt16) : v.named below k = v := by
  have h0 : k.namesz ≠ 0 := by have := hk.two_le; omega
  have h := variableSetName_self below hk hm
  rw [variableSetName_eq below v k h0 hk.fits] at h
  exact Except.ok.inj h

theorem Variable.isMatch_named {v : Variable} {k : Key} (hk : k.Clean) (hg : v.guid = k.guid)
    (below : UInt16) : (v.named below k).isMatch k = true := by
  refine Variable.isMatch_iff.mpr ⟨hk.stored_eq below, ?_, hg⟩
  simp only [Variable.keyBytes, Variable.named, hk.stored_eq]
  exact Block.overwrite_take _ _ hk.fits

/-- A created variable is found under its key. -/
theorem Variable.isMatch_created {k : Key} (hk : k.Clean) (v : Variable) (below : UInt16)
    (data : List UInt8) (attrs : Attrs) : Variable.isMatch k { v.named below k with
      data := data, guid := k.guid, attrs := attrs } = true :=
  Variable.isMatch_named (v := { v with guid := k.guid }) hk rfl below

theorem Storage.findSlot_isMatch {s : Storage} {k : Key} {i : Fin MAX_VAR_COUNT}
    (h : s.findSlot k = some i) : (s.vars i).isMatch k = true :=
  Slots.first_pred h

theorem Storage.findSlot_guid {s : Storage} {k : Key} {i : Fin MAX_VAR_COUNT}
    (h : s.findSlot k = some i) : (s.vars i).guid = k.guid :=
  (Variable.isMatch_iff.mp (Storage.findSlot_isMatch h)).2.2

theorem storageFindVariable_eq {s : Storage} {k : Key} {i : Fin MAX_VAR_COUNT}
    (h : s.findSlot k = some i) : storageFindVariable s k = some (s.vars i) :=
  Slots.lookup_eq_some h

theorem storageFindVariable_eq_none {s : Storage} {k : Key} :
    storageFindVariable s k = none ↔ s.findSlot k = none :=
  Slots.lookup_eq_none_iff

/-- A slot in use is not the first empty one. -/
theorem freeSlot_ne {s : Storage} {i j : Fin MAX_VAR_COUNT} (hocc : (s.vars i).isFree = false)
    (hj : s.freeSlot = some j) : j ≠ i := by
  rintro rfl
  have hfree : (s.vars j).isFree = true := Slots.first_pred hj
  rw [hocc] at hfree
  cases hfree

/-- A refused write of such a key changed nothing: the only thing a failing
`storage_set` writes is the name, over itself. -/
theorem storageSet_failed {s : Storage} {k : Key} (hk : k.Clean) {data : Option (List UInt8)}
    {attrs : Attrs} (h : (storageSet s k data attrs).1 ≠ .success) :
    (storageSet s k data attrs).2 = s := by
  have hc := storageSet_cases s k data attrs
  generalize storageSet s k data attrs = r at h hc
  obtain ⟨st, s'⟩ := r
  cases hc with
  | refused => rfl
  | removed => exact absurd rfl h
  | replaced => exact absurd rfl h
  | renamed _ _ _ hi =>
      show s.setSlot _ _ = s
      rw [Variable.named_self hk (Storage.findSlot_isMatch hi), Storage.setSlot_self]
  | created => exact absurd rfl h

/-- Such a key keeps its slot through every write that is not a removal. -/
theorem storageSet_findSlot {s : Storage} {k : Key} (hk : k.Clean) {i : Fin MAX_VAR_COUNT}
    (hi : s.findSlot k = some i) {data : Option (List UInt8)} {attrs : Attrs}
    (hrem : asksRemoval data attrs = false) :
    (storageSet s k data attrs).2.findSlot k = some i := by
  have hc := storageSet_cases s k data attrs
  generalize storageSet s k data attrs = r at hc
  obtain ⟨st, s'⟩ := r
  cases hc with
  | refused => exact hi
  | removed h => rw [hrem] at h; cases h
  | replaced _ _ _ _ _ hj _ =>
      obtain rfl := Option.some.inj (hi.symm.trans hj)
      exact Slots.first_update_self hi (Variable.isMatch_named hk (Storage.findSlot_guid hi) _)
  | renamed _ _ _ hj =>
      obtain rfl := Option.some.inj (hi.symm.trans hj)
      exact Slots.first_update_self hi (Variable.isMatch_named hk (Storage.findSlot_guid hi) _)
  | created _ _ _ _ _ hnone => rw [hi] at hnone; cases hnone

/-- What was stored is found. -/
theorem storageSet_findSlot_isSome {s : Storage} {k : Key} (hk : k.Clean)
    {data : Option (List UInt8)} {attrs : Attrs} (hrem : asksRemoval data attrs = false)
    (hok : (storageSet s k data attrs).1 = .success) :
    ((storageSet s k data attrs).2.findSlot k).isSome := by
  cases hf : s.findSlot k with
  | some i =>
      rw [storageSet_findSlot hk hf hrem]
      rfl
  | none =>
      have hc := storageSet_cases s k data attrs
      generalize storageSet s k data attrs = r at hc hok
      obtain ⟨st, s'⟩ := r
      cases hc with
      | refused hst => exact absurd hok hst
      | removed h => rw [hrem] at h; cases h
      | replaced _ _ _ _ _ hj => rw [hf] at hj; cases hj
      | renamed hst => exact absurd hok hst
      | @created i d =>
          have hfind := Slots.first_update_of_none (i := i) hf
            (Variable.isMatch_created hk (s.vars i) (s.below i) d attrs.withoutAppend)
          exact Option.isSome_of_eq_some hfind

/-- What `storage_set` with such a key can leave in slot `i`. -/
inductive SlotResult (s : Storage) (k : Key) (data : Option (List UInt8)) (attrs : Attrs)
    (i : Fin MAX_VAR_COUNT) : Variable → Prop
  | kept : SlotResult s k data attrs i (s.vars i)
  | removed : asksRemoval data attrs = true → s.findSlot k = some i →
      SlotResult s k data attrs i Variable.zero
  | replaced {d : List UInt8} : asksRemoval data attrs = false → data = some d → d ≠ [] →
      s.findSlot k = some i → (s.vars i).attrs = attrs.withoutAppend →
      SlotResult s k data attrs i
        { s.vars i with data := if attrs.append then (s.vars i).data ++ d else d }
  | created {d : List UInt8} : asksRemoval data attrs = false → data = some d → d ≠ [] →
      s.findSlot k = none → s.freeSlot = some i →
      SlotResult s k data attrs i { (s.vars i).named (s.below i) k with
        data := d, guid := k.guid, attrs := attrs.withoutAppend }

theorem storageSet_slot {s : Storage} {k : Key} (hk : k.Clean) (data : Option (List UInt8))
    (attrs : Attrs) (i : Fin MAX_VAR_COUNT) :
    SlotResult s k data attrs i ((storageSet s k data attrs).2.vars i) := by
  have hc := storageSet_cases s k data attrs
  generalize storageSet s k data attrs = r at hc
  obtain ⟨st, s'⟩ := r
  -- the write goes to one slot, which is `i` or not
  have hslot : ∀ {j : Fin MAX_VAR_COUNT} {v : Variable},
      (j = i → SlotResult s k data attrs i v) →
      SlotResult s k data attrs i (Function.update s.vars j v i) := by
    intro j v hv
    by_cases hij : j = i
    · subst hij
      rw [Function.update_self]
      exact hv rfl
    · rw [Function.update_of_ne (Ne.symm hij)]
      exact .kept
  cases hc with
  | refused => exact .kept
  | removed hrem hj =>
      refine hslot ?_
      rintro rfl
      exact .removed hrem hj
  | replaced hrem hd hne _ _ hj hattrs =>
      refine hslot ?_
      rintro rfl
      rw [Variable.named_self hk (Storage.findSlot_isMatch hj)]
      exact .replaced hrem hd hne hj hattrs
  | renamed _ _ _ hj =>
      refine hslot ?_
      rintro rfl
      rw [Variable.named_self hk (Storage.findSlot_isMatch hj)]
      exact .kept
  | created hrem hd hne _ _ hnone hj =>
      refine hslot ?_
      rintro rfl
      exact .created hrem hd hne hnone hj

/-- Time stamp and cert are no part of what a look-up compares. -/
theorem Storage.findSlot_mark (s : Storage) (i : Fin MAX_VAR_COUNT) (time : EfiTime)
    (cert : Digest) (k : Key) :
    (s.setSlot i { s.vars i with timestamp := time, cert := cert }).findSlot k =
      s.findSlot k := by
  refine Slots.first_congr (fun j => ?_)
  by_cases hj : j = i
  · subst hj
    simp only [Storage.setSlot_vars, Function.update_self]
    rfl
  · rw [Storage.setSlot_vars, Function.update_of_ne hj]

/-- The slot a successful write put the data in carries the name of the key. -/
theorem storageSet_named {s : Storage} {k : Key} {data : Option (List UInt8)} {attrs : Attrs}
    {i : Fin MAX_VAR_COUNT} (hok : (storageSet s k data attrs).1 = .success)
    (hrem : asksRemoval data attrs = false) (hi : (s.findSlot k <|> s.freeSlot) = some i) :
    ((storageSet s k data attrs).2.vars i).namesz = k.stored (s.below i) ∧
      ((storageSet s k data attrs).2.vars i).name.bytes.take k.namesz = k.bytes := by
  have hc := storageSet_cases s k data attrs
  generalize storageSet s k data attrs = r at hc hok
  obtain ⟨st, s'⟩ := r
  cases hc with
  | refused h => exact absurd hok h
  | removed h => rw [hrem] at h; cases h
  | replaced _ _ _ _ hsz hj _ =>
      obtain rfl := Option.some.inj (hi.symm.trans (by rw [hj]; rfl))
      simp only [Function.update_self]
      exact ⟨rfl, Block.overwrite_take _ _ hsz⟩
  | renamed h => exact absurd hok h
  | created _ _ _ _ hsz hnone hj =>
      obtain rfl := Option.some.inj (hi.symm.trans (by rw [hnone, hj]; rfl))
      simp only [Storage.setSlot_vars, Function.update_self]
      exact ⟨rfl, Block.overwrite_take _ _ hsz⟩

/-! ## The frame of a write -/

/-- The slot contents a write of `k` can leave: the key's bytes under the key's
size or under the size without its last unit. -/
def Variable.Hit (k : Key) (v : Variable) : Prop :=
  v.guid = k.guid ∧ v.name.bytes.take k.namesz = k.bytes ∧
    (v.namesz = k.namesz ∨ ∃ below, v.namesz = k.stored below)

/-- The slots a write of `k` may touch: the empty ones and those of `k`. -/
def Variable.Touched (k : Key) (v : Variable) : Prop := v.isFree = true ∨ v.Hit k

theorem Variable.hit_of_isMatch {k : Key} {v : Variable} (h : v.isMatch k = true) : v.Hit k := by
  obtain ⟨hsz, hb, hg⟩ := Variable.isMatch_iff.mp h
  refine ⟨hg, ?_, Or.inl hsz⟩
  rw [← hb, Variable.keyBytes, hsz]

theorem Variable.hit_named {k : Key} {v : Variable} (below : UInt16) (hg : v.guid = k.guid)
    (hfits : k.namesz ≤ MAX_VARIABLE_NAME_SIZE) : (v.named below k).Hit k :=
  ⟨hg, Block.overwrite_take _ _ hfits, Or.inr ⟨below, rfl⟩⟩

theorem Variable.isFree_zero : Variable.zero.isFree = true := by
  simp only [Variable.isFree, Variable.zero, Block.zero, beq_iff_eq]
  exact unitAt_replicate_zero _ 0

/-- A write of `k` touches empty slots and slots of `k`, and leaves such slots. -/
theorem storageSet_frame (s : Storage) (k : Key) (data : Option (List UInt8)) (attrs : Attrs) :
    Slots.AgreeOff (Variable.Touched k) s.vars (storageSet s k data attrs).2.vars := by
  have hc := storageSet_cases s k data attrs
  generalize storageSet s k data attrs = r at hc
  obtain ⟨st, s'⟩ := r
  cases hc with
  | refused => exact .refl _ _
  | removed _ hi =>
      exact .update (Or.inr (Variable.hit_of_isMatch (Storage.findSlot_isMatch hi)))
        (Or.inl Variable.isFree_zero)
  | replaced _ _ _ _ hsz hi _ =>
      exact .update (Or.inr (Variable.hit_of_isMatch (Storage.findSlot_isMatch hi)))
        (Or.inr (Variable.hit_named _ (Storage.findSlot_guid hi) hsz))
  | renamed _ _ hsz hi =>
      exact .update (Or.inr (Variable.hit_of_isMatch (Storage.findSlot_isMatch hi)))
        (Or.inr (Variable.hit_named _ (Storage.findSlot_guid hi) hsz))
  | created _ _ _ _ hsz _ hi =>
      exact .update (Or.inl (Slots.first_pred hi))
        (Or.inr ⟨rfl, Block.overwrite_take _ _ hsz, Or.inr ⟨_, rfl⟩⟩)

end Uefistored
