/-
# `Uefistored.Enumerate` — listing the variables

GetNextVariableName has no state: each call of `storage_next_variable` finds the
variable that the caller names, and goes on from the slot behind it to the next
one that may be seen.  `nthNext` is the walk of a caller who starts with the
empty name and hands back what was returned.

In a store without duplicates a variable is found in its own slot, so the walk
cannot jump back or ahead: the `n`-th call returns the `n`-th of the slots that
may be seen, in slot order, and `NULL` when there are no more
(`nthNext_lists`).
-/
import Uefistored.VarMap

namespace Uefistored

open Lib

/-- What the `n`-th call returns, counted from 0: the first names nothing, and each later one
the variable that was returned before it. -/
def nthNext (s : Storage) (efiAtRuntime : Bool) (guid : Guid) : Nat → Option (Fin MAX_VAR_COUNT)
  | 0 => storageNextVariable s efiAtRuntime (Key.of [] guid)
  | n + 1 =>
    match nthNext s efiAtRuntime guid n with
    | none => none
    | some i => storageNextVariable s efiAtRuntime (s.vars i).key

/-! ## Finding the variable that is named -/

theorem Storage.Tidy.findSlot_key {s : Storage} (h : s.Tidy) {i : Fin MAX_VAR_COUNT}
    (hi : (s.vars i).isFree = false) : s.findSlot (s.vars i).key = some i := by
  obtain ⟨K, hK⟩ := h.named i hi
  rw [(Variable.key_same hK).findSlot_eq s]
  exact h.keyed.findSlot_eq K.clean hK

/-! ## The walk -/

section
variable {s : Storage} (h : s.Tidy) (efiAtRuntime : Bool)
include h

/-- The slots that may be seen, from the first on. -/
theorem Storage.Tidy.getFirst_eq :
    storageGetFirst s efiAtRuntime =
      (Slots.indices s.vars (Variable.isListed efiAtRuntime))[0]? := by
  unfold storageGetFirst
  split
  · -- no slot is valid
    rename_i htotal
    rw [← Slots.first_eq_indices]
    refine (Slots.first_eq_none_iff.mpr ?_).symm
    intro i
    rw [h.counted.total] at htotal
    rw [Variable.isListed, Slots.count_eq_zero_iff.mp htotal i, Bool.false_and]
  · exact Slots.first_eq_indices _ _

/-- Behind a slot that may be seen comes the next one. -/
theorem Storage.Tidy.nextVariable_eq {i : Fin MAX_VAR_COUNT} {n : Nat}
    (hi : (Slots.indices s.vars (Variable.isListed efiAtRuntime))[n]? = some i) :
    storageNextVariable s efiAtRuntime (s.vars i).key =
      (Slots.indices s.vars (Variable.isListed efiAtRuntime))[n + 1]? := by
  have hlisted := Slots.pred_of_indices hi
  rw [Variable.isListed, Bool.and_eq_true] at hlisted
  obtain ⟨hunit, hsz⟩ := Variable.isValid_iff.mp hlisted.1
  have hnamed : ¬ (unitAt (s.vars i).key.name.bytes 0 = 0 ∨ (s.vars i).key.namesz = 0) := by
    rintro (hzero | hzero)
    · exact hunit hzero
    · exact hsz hzero
  unfold storageNextVariable
  rw [if_neg hnamed, h.findSlot_key (Variable.isFree_of_isValid hlisted.1)]
  exact Slots.firstFrom_eq_indices hi

theorem Storage.Tidy.nthNext_eq (guid : Guid) : ∀ n : Nat, nthNext s efiAtRuntime guid n =
    (Slots.indices s.vars (Variable.isListed efiAtRuntime))[n]?
  | 0 => by
      unfold nthNext storageNextVariable
      rw [if_pos (.inr rfl)]
      exact h.getFirst_eq efiAtRuntime
  | n + 1 => by
      unfold nthNext
      rw [Storage.Tidy.nthNext_eq guid n]
      cases hn : (Slots.indices s.vars (Variable.isListed efiAtRuntime))[n]? with
      | none =>
          rw [List.getElem?_eq_none_iff] at hn
          exact (List.getElem?_eq_none (Nat.le_succ_of_le hn)).symm
      | some i => exact h.nextVariable_eq efiAtRuntime hn

end

/-! ## Stores that were written to under names without NUL units -/

/-- A call that writes.  The name may be too long to be stored. -/
inductive Edit
  | set (name : {l : List UInt8 // NulFree l}) (guid : Guid) (data : Option (List UInt8))
      (attrs : Attrs)
  | remove (name : {l : List UInt8 // NulFree l}) (guid : Guid)

/-- The store behind `storage_set` or `storage_remove`. -/
def Edit.exec (s : Storage) : Edit → Storage
  | .set name guid data attrs => (storageSet s (Key.of name.val guid) data attrs).2
  | .remove name guid => (storageRemove s (Key.of name.val guid)).2

/-- No variable has a name that does not fit. -/
theorem Storage.Tidy.findSlot_long {s : Storage} (h : s.Tidy) {k : Key}
    (hlong : MAX_VARIABLE_NAME_SIZE < k.namesz) : s.findSlot k = none := by
  refine Slots.first_eq_none_iff.mpr ?_
  intro i
  by_contra hmatch
  rw [Bool.not_eq_false] at hmatch
  have hsz : (s.vars i).namesz = k.namesz := (Variable.isMatch_iff.mp hmatch).1
  have hle : (s.vars i).namesz ≤ MAX_VARIABLE_NAME_SIZE := by
    cases hfree : (s.vars i).isFree with
    | false => exact (h.sized i hfree).name.2
    | true =>
        rw [h.zero i hfree]
        exact Nat.zero_le _
  rw [hsz] at hle
  exact absurd hlong (not_lt.mpr hle)

theorem Edit.tidy {s : Storage} (h : s.Tidy) (e : Edit) : (e.exec s).Tidy := by
  cases e with
  | set name guid data attrs =>
      by_cases hfits : name.val.length ≤ MAX_VARIABLE_NAME_SIZE
      · have hw : Write (VarKey.key ⟨name.val, guid, name.property, hfits⟩) s
            (Edit.exec s (.set name guid data attrs)) := .set data attrs
        exact hw.tidy h
      · have hlarge : tooLarge s (Key.of name.val guid) (dataSize data) = true := by
          rw [tooLarge, show decide ((Key.of name.val guid).namesz > MAX_VARIABLE_NAME_SIZE) = true
            from decide_eq_true (not_le.mp hfits)]
          rfl
        have hrefused : storageSet s (Key.of name.val guid) data attrs = (.outOfResources, s) :=
          if_pos hlarge
        rw [Edit.exec, hrefused]
        exact h
  | remove name guid =>
      by_cases hfits : name.val.length ≤ MAX_VARIABLE_NAME_SIZE
      · exact (storageRemove_write h ⟨name.val, guid, name.property, hfits⟩).tidy h
      · have hnone : s.findSlot (Key.of name.val guid) = none := h.findSlot_long (not_le.mp hfits)
        rw [Edit.exec, storageRemove, hnone]
        exact h

theorem tidy_foldl : ∀ (es : List Edit) {s : Storage}, s.Tidy → (es.foldl Edit.exec s).Tidy
  | [], _, h => h
  | e :: es, _, h => tidy_foldl es (e.tidy h)

/-- After any writes under names without NUL units, at runtime or before it, there is a list of
slots, in slot order and each there once, that holds the variables in use that may be seen: the
`n`-th call returns the `n`-th of them, and `NULL` as soon as these are used up. -/
theorem nthNext_lists (front : UInt16) (es : List Edit) (efiAtRuntime : Bool) (guid : Guid) :
    ∃ slots : List (Fin MAX_VAR_COUNT), slots.Pairwise (· < ·) ∧
      (∀ i, i ∈ slots ↔ ((es.foldl Edit.exec (.empty front)).vars i).isFree = false ∧
        rtDenyAccess efiAtRuntime ((es.foldl Edit.exec (.empty front)).vars i).attrs = false) ∧
      ∀ n, nthNext (es.foldl Edit.exec (.empty front)) efiAtRuntime guid n = slots[n]? := by
  have h := tidy_foldl es (Storage.tidy_empty front)
  refine ⟨Slots.indices _ (Variable.isListed efiAtRuntime), Slots.indices_pairwise _ _, ?_,
    h.nthNext_eq efiAtRuntime guid⟩
  intro i
  rw [Slots.mem_indices, Variable.isListed, h.counted.valid i, Bool.and_eq_true,
    Bool.not_eq_true', Bool.not_eq_true']

end Uefistored
