/-
# `Uefistored.Xapi` — saving a store and loading it again

The part of `src/xapi.c` between the store and the bytes of a save file, and
`storage_iter` of `src/storage.c`, by which it walks through the store.

`storage_iter` keeps its place in a static index; it copies the next valid slot
and, once the index is at the end, reports `EFI_NOT_FOUND` and starts over.  So
the variable in the last slot is copied, and reported as the end.

A variable on the stack or in a fresh array has a unit in memory in front of its
name as well (see `sanitizeNamesz`).  `Fronts` gives them: in front of `tmp`,
where other locals lie, at every place of the walk; and in front of the array.
Between two entries of the array there is only padding, which is zero.

The loops of `retrieve_vars` and its sibling end because the walk moves on
(`storageIter_success`): one round more than there are slots is enough
(`walk_isSome`).
-/
import Uefistored.Serializer
import Uefistored.Storage

namespace Uefistored

open Lib

/-- The units in front of the variables that a save copies to. -/
structure Fronts where
  tmp : Nat → UInt16
  vars : UInt16

/-- Zeros in front of everything that is copied. -/
def Fronts.zero : Fronts := ⟨fun _ => 0, 0⟩

/-- The unit in front of the next entry of an array with the given ones. -/
def Fronts.next (f : Fronts) (vars : List Variable) : UInt16 := if vars = [] then f.vars else 0

/-! ## `storage_iter` -/

/-- The loop of `storage_iter` over the slots from the index on: what `variable_copy`
returned, the new index and `*var`. -/
def iterSlots (below : UInt16) (s : Storage) (var : Variable) :
    List (Fin MAX_VAR_COUNT) → Int × Nat × Variable
  | [] => (0, MAX_VAR_COUNT, var)
  | i :: rest =>
    if (s.vars i).isValid then
      match variableCopy below var (s.vars i) with
      | (ret, var) => (ret, i.val + 1, var)
    else iterSlots below s var rest

/-- `storage_iter`: the status, the static index and `*var`. -/
def storageIter (below : UInt16) (s : Storage) (index : Nat) (var : Variable) :
    EfiStatus × Nat × Variable :=
  match iterSlots below s var ((List.finRange MAX_VAR_COUNT).drop index) with
  | (ret, index, var) =>
    if ret < 0 then (.deviceError, 0, var)
    else if index ≥ MAX_VAR_COUNT then (.notFound, 0, var)
    else (.success, index, var)

/-! ## Saving -/

/-- How a walk through the store ends: the entries that the returned count covers, the static
index of `storage_iter`, and whether the last call of it reported `EFI_DEVICE_ERROR`. -/
structure Retrieved where
  vars : List Variable
  index : Nat
  failed : Bool

/-- The loop of `retrieve_nonvolatile_vars`, with the index of `storage_iter`, `tmp` and the
entries so far.  What the copy into the array returns is not looked at, and a failing
`storage_iter` ends the loop like the last variable does. -/
def retrieveNonvolatileVars (f : Fronts) (s : Storage) (n : Nat) :
    Nat → Nat → Variable → List Variable → Option Retrieved
  | 0, _, _, _ => none
  | fuel + 1, index, tmp, vars =>
    if vars.length ≥ n then some ⟨vars, index, false⟩
    else
      match storageIter (f.tmp index) s index tmp with
      | (.success, index, tmp) =>
        if tmp.attrs.nonVolatile then
          retrieveNonvolatileVars f s n fuel index Variable.zero
            (vars ++ [(variableCopy (f.next vars) Variable.zero tmp).2])
        else retrieveNonvolatileVars f s n fuel index tmp vars
      | (status, index, _) => some ⟨vars, index, status == .deviceError⟩

/-- The loop of `retrieve_vars`.  On an error it returns the status as an `int`: so many
entries of the array, which is zero behind the one that was being written. -/
def retrieveVars (f : Fronts) (s : Storage) (n : Nat) :
    Nat → Nat → List Variable → Option Retrieved
  | 0, _, _ => none
  | fuel + 1, index, vars =>
    if vars.length ≥ n then some ⟨vars, index, false⟩
    else
      match storageIter (f.next vars) s index Variable.zero with
      | (.success, index, next) => retrieveVars f s n fuel index (vars ++ [next])
      | (.deviceError, index, next) =>
        some ⟨(vars ++ next :: List.replicate (n - vars.length - 1) Variable.zero).take
          (EfiStatus.deviceError.code % 2 ^ 32), index, true⟩
      | (_, index, _) => some ⟨vars, index, false⟩

/-- The walk of `variable_list_bytes`, from the first slot on. -/
def walk (f : Fronts) (s : Storage) (nonvolatile : Bool) : Option Retrieved :=
  if nonvolatile then
    retrieveNonvolatileVars f s MAX_VAR_COUNT (MAX_VAR_COUNT + 1) 0 Variable.zero []
  else retrieveVars f s MAX_VAR_COUNT (MAX_VAR_COUNT + 1) 0 []

/-- The entries that `variable_list_bytes` writes. -/
def retrieve (f : Fronts) (s : Storage) (nonvolatile : Bool) : Option (List Variable) :=
  (walk f s nonvolatile).map Retrieved.vars

/-- `variable_list_bytes`: no bytes where there is nothing to save, and none that are known
where the buffer is not written to its end. -/
def variableListBytes (f : Fronts) (s : Storage) (nonvolatile : Bool) : Option (List UInt8) := do
  let vars ← retrieve f s nonvolatile
  if vars = [] then none
  else
    let (_, bytes) ← serializeVariableList (listSize vars) vars
    if bytes.length = listSize vars then some bytes else none

/-! ## Loading -/

/-- The body of the loop of `xapi_init`. -/
def restoreVariable (s : Storage) (v : Variable) : EfiStatus × Storage :=
  if v.attrs.timeBased then
    storageSetWithTimestamp s v.key (some v.data) v.attrs v.timestamp
  else storageSet s v.key (some v.data) v.attrs

/-- The loop of `xapi_init`; `none` is the failing `assert`. -/
def restoreVariables : Storage → List Variable → Option Storage
  | s, [] => some s
  | s, v :: vars =>
    match restoreVariable s v with
    | (.success, s) => restoreVariables s vars
    | _ => none

/-- `xapi_init` on the bytes that were saved: what it returns, and the store. -/
def xapiInit (front : UInt16) (s : Storage) (bytes : List UInt8) : Option (Int × Storage) := do
  match ← fromBytesToVars front MAX_VAR_COUNT bytes with
  | .error ret => return (ret, s)
  | .ok vars =>
    let s ← restoreVariables s vars
    return (0, s)

/-! ## The walk moves on -/

/-- The index is left behind a slot of the walk, or at the end. -/
theorem iterSlots_index (below : UInt16) (s : Storage) (var : Variable) :
    ∀ (l : List (Fin MAX_VAR_COUNT)),
      (iterSlots below s var l).2.1 = MAX_VAR_COUNT ∨
        ∃ i ∈ l, (iterSlots below s var l).2.1 = i.val + 1
  | [] => .inl rfl
  | i :: rest => by
      unfold iterSlots
      split
      · exact .inr ⟨i, List.mem_cons_self, rfl⟩
      · rcases iterSlots_index below s var rest with hend | ⟨j, hj, hidx⟩
        · exact .inl hend
        · exact .inr ⟨j, List.mem_cons_of_mem _ hj, hidx⟩

theorem storageIter_success {below : UInt16} {s : Storage} {index index' : Nat}
    {var var' : Variable} (h : storageIter below s index var = (.success, index', var')) :
    index < index' ∧ index' < MAX_VAR_COUNT := by
  have hidx := iterSlots_index below s var ((List.finRange MAX_VAR_COUNT).drop index)
  unfold storageIter at h
  dsimp only at h
  split at h
  · cases h
  · split at h
    · cases h
    · rename_i hlt
      cases h
      rw [not_le] at hlt
      refine ⟨?_, hlt⟩
      rcases hidx with hend | ⟨i, hi, hidx⟩
      · exact absurd hend (ne_of_lt hlt)
      · obtain ⟨j, hj, hget⟩ := List.getElem_of_mem hi
        rw [List.getElem_drop, List.getElem_finRange] at hget
        have hval : i.val = index + j := by rw [← hget]; rfl
        rw [hidx, hval]
        exact Nat.lt_succ_of_le (Nat.le_add_right _ _)

theorem retrieveNonvolatileVars_isSome {f : Fronts} {s : Storage} {n : Nat} :
    ∀ (fuel index : Nat) (tmp : Variable) (vars : List Variable), index ≤ MAX_VAR_COUNT →
      MAX_VAR_COUNT < fuel + index → (retrieveNonvolatileVars f s n fuel index tmp vars).isSome
  | 0, _, _, _, hle, hlt => by omega
  | fuel + 1, index, tmp, vars, _, hlt => by
      unfold retrieveNonvolatileVars
      split
      · rfl
      · split
        · rename_i index' tmp' hiter
          obtain ⟨hmoved, hend⟩ := storageIter_success hiter
          split
          · exact retrieveNonvolatileVars_isSome fuel index' _ _ hend.le (by omega)
          · exact retrieveNonvolatileVars_isSome fuel index' _ _ hend.le (by omega)
        · rfl

theorem retrieveVars_isSome {f : Fronts} {s : Storage} {n : Nat} :
    ∀ (fuel index : Nat) (vars : List Variable), index ≤ MAX_VAR_COUNT →
      MAX_VAR_COUNT < fuel + index → (retrieveVars f s n fuel index vars).isSome
  | 0, _, _, hle, hlt => by omega
  | fuel + 1, index, vars, _, hlt => by
      unfold retrieveVars
      split
      · rfl
      · split
        · rename_i index' next hiter
          obtain ⟨hmoved, hend⟩ := storageIter_success hiter
          exact retrieveVars_isSome fuel index' _ hend.le (by omega)
        · rfl
        · rfl

/-- Every store can be walked to its end. -/
theorem walk_isSome (f : Fronts) (s : Storage) (nonvolatile : Bool) :
    (walk f s nonvolatile).isSome := by
  unfold walk
  split
  · exact retrieveNonvolatileVars_isSome _ _ _ _ (Nat.zero_le _) (Nat.lt_succ_self _)
  · exact retrieveVars_isSome _ _ _ (Nat.zero_le _) (Nat.lt_succ_self _)

end Uefistored
