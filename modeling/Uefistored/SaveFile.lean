/-
# `Uefistored.SaveFile` — the file of a suspended machine

`xapi_save` writes the block of `variable_list_bytes` to a file, and
`xapi_variables_read_file` reads it when the machine is resumed.  The writer is
bounded by the number of slots and the sizes of a variable, the reader by
`MAX_RESUME_FILE_SIZE`; and a file that is refused is reported as a file with no
variables.

`savedFileLoads_iff` compares the two, over the stores that names without NUL
units lead to: the file is read again exactly when there is something in front
of the last slot and all of it together fits in 32768 bytes.
-/
import Uefistored.Blob

namespace Uefistored

open Lib

/-! ## The save file -/

def PAGE_SIZE : Nat := 4096
def MAX_RESUME_FILE_SIZE : Nat := 8 * PAGE_SIZE

/-- `xapi_save`: what it returns, and the file it leaves.  The file is opened, and emptied,
before there is anything to write. -/
def xapiSave (f : Fronts) (s : Storage) : Option (Int × List UInt8) := do
  match ← variableListBlob f s false with
  | none => some (-1, [])
  -- past what was written the block holds what `malloc` left there
  | some blob => if blob.written.length = blob.size then some (0, blob.written) else none

/-- `xapi_variables_read_file` on a file with these bytes. -/
def xapiVariablesReadFile (front : UInt16) (n : Nat) (file : List UInt8) :
    Option (Except Int (List Variable)) :=
  if file.length > MAX_RESUME_FILE_SIZE then some (.ok [])
  else fromBytesToVars front n file

/-- A name that keeps its size has settled. -/
theorem Variable.Kept.settles {v : Variable} (h : v.Kept) (k : Nat) : v.Settles k := by
  have hfix : v.trim v.namesz = v.namesz := if_neg h.last
  refine ⟨h.name.1, ?_⟩
  rw [Function.iterate_fixed hfix]
  exact h.last

theorem Storage.Tidy.savable {s : Storage} (h : s.Tidy) (nonvolatile : Bool) :
    s.Savable nonvolatile :=
  ⟨fun _ hi => (h.kept hi).copyable, fun _ hi _ => (h.kept (mem_innerSlots hi).2).settles _⟩

theorem Variable.Kept.variableSize_eq {v : Variable} (h : v.Kept) :
    variableSize v = 84 + v.namesz + v.datasz := by
  have hn : v.namesz ≤ 256 := h.name.2
  have hd : v.datasz ≤ 32768 := h.data.2
  unfold variableSize
  omega

/-- The bytes of a save file: a header, and for every variable in front of the last slot its
name, its data and 84 bytes. -/
def savedSize (s : Storage) (nonvolatile : Bool) : Nat :=
  24 + ((((innerSlots s).map s.vars).filter (asked nonvolatile)).map
    (fun v => 84 + v.namesz + v.datasz)).sum

theorem map_variableSize_same {vs ws : List Variable} (hvs : ∀ v ∈ vs, v.Kept)
    (h : List.Forall₂ Variable.SameContents vs ws) :
    ws.map variableSize = vs.map (fun v => 84 + v.namesz + v.datasz) := by
  induction h with
  | nil => rfl
  | @cons v w vs ws hvw _ ih =>
      have hv := hvs v List.mem_cons_self
      have hw : variableSize w = 84 + v.namesz + v.datasz := by
        rw [(hvw.kept hv).variableSize_eq, hvw.namesz, Variable.datasz, hvw.data]
        rfl
      rw [List.map_cons, List.map_cons, hw, ih (fun x hx => hvs x (List.mem_cons_of_mem _ hx))]

theorem Storage.Tidy.listSize_saved {s : Storage} (h : s.Tidy) (f : Fronts) (nonvolatile : Bool) :
    listSize (saved f s nonvolatile) = savedSize s nonvolatile := by
  have hsav := h.savable nonvolatile
  have hkept : ∀ v ∈ ((innerSlots s).map s.vars).filter (asked nonvolatile), v.Kept := by
    intro v hv
    obtain ⟨i, hi, rfl⟩ := List.mem_map.mp (List.mem_filter.mp hv).1
    exact h.kept (mem_innerSlots hi).2
  have hlist := (listSize_eq (fun w hw => (saved_modest (f := f) hsav.1 w hw).variableSize.2)
    ((length_saved f s nonvolatile).trans (by decide))).1
  rw [hlist, map_variableSize_same hkept (h.saved_same f nonvolatile), savedSize]

/-- The file that `xapi_save` writes is read again: as many variables as were saved, at least
one, and those. -/
def SavedFileLoads (f : Fronts) (front : UInt16) (s : Storage) : Prop :=
  ∃ r ret file vars, walk f s false = some r ∧ xapiSave f s = some (ret, file) ∧
    xapiVariablesReadFile front MAX_VAR_COUNT file = some (.ok vars) ∧ vars ≠ [] ∧
    List.Forall₂ Variable.SameFields r.vars vars

section File

variable {s : Storage} (h : s.Tidy)

include h in
/-- The file of a store with something to save. -/
theorem Storage.Tidy.xapiSave_eq (f : Fronts) (front : UInt16) (hne : innerSlots s ≠ []) :
    ∃ file vars, xapiSave f s = some (0, file) ∧ file.length = savedSize s false ∧
      fromBytesToVars front MAX_VAR_COUNT file = some (.ok vars) ∧ vars ≠ [] ∧
      List.Forall₂ Variable.SameFields (saved f s false) vars := by
  have hsaved : saved f s false ≠ [] := by
    intro hnil
    have hlen : (saved f s false).length = (innerSlots s).length := length_copies _ _
    rw [hnil] at hlen
    exact hne (List.eq_nil_of_length_eq_zero hlen.symm)
  obtain ⟨file, vars, hblob, hsize, hread, -, hsame⟩ := (h.savable false).blob f front hsaved
  refine ⟨file, vars, ?_, hsize.trans (h.listSize_saved f false), hread, ?_, hsame⟩
  · unfold xapiSave
    rw [hblob]
    exact if_pos rfl
  · rintro rfl
    exact hsaved (List.forall₂_nil_right_iff.mp hsame)

include h in
theorem Storage.Tidy.xapiSave_nil (f : Fronts) (hnil : innerSlots s = []) :
    xapiSave f s = some (-1, []) := by
  have hwalk : walk f s false = some ⟨saved f s false, 0, false⟩ :=
    walk_of_copyable (h.savable false).1
  have hsaved : saved f s false = [] := by
    unfold saved
    rw [hnil]
    rfl
  unfold xapiSave
  rw [blob_of_nil hwalk hsaved]
  rfl

example : xapiSave .zero (.empty 0) = some (-1, []) := by
  decide +kernel

include h in
theorem Storage.Tidy.not_loads_of_large (f : Fronts) (front : UInt16)
    (hlarge : MAX_RESUME_FILE_SIZE < savedSize s false) : ¬ SavedFileLoads f front s := by
  rintro ⟨r, ret, file, vars, hr, hsave, hread, hne, -⟩
  by_cases hnil : innerSlots s = []
  · rw [savedSize, hnil] at hlarge
    exact absurd (show 32768 < 24 from hlarge) (by decide)
  · obtain ⟨file₁, vars₁, hsave₁, hlen, -⟩ := h.xapiSave_eq f front hnil
    obtain ⟨-, rfl⟩ := Prod.mk.inj (Option.some.inj (hsave₁.symm.trans hsave))
    unfold xapiVariablesReadFile at hread
    rw [if_pos (by rw [hlen]; exact hlarge)] at hread
    cases hread
    exact hne rfl

end File

/-- It is read again exactly when there is a variable in front of the last slot and the file is
not larger than the reader takes. -/
theorem savedFileLoads_iff {s : Storage} (h : s.Reachable) (f : Fronts) (front : UInt16) :
    SavedFileLoads f front s ↔ (∃ i, i ≠ lastSlot ∧ (s.vars i).isValid = true) ∧
      savedSize s false ≤ MAX_RESUME_FILE_SIZE := by
  have htidy := h.tidy
  rw [← innerSlots_ne_nil_iff]
  constructor
  · intro hloads
    refine ⟨fun hnil => ?_, ?_⟩
    · obtain ⟨r, ret, file, vars, -, hsave, hread, -⟩ := hloads
      rw [htidy.xapiSave_nil f hnil] at hsave
      obtain ⟨-, rfl⟩ := Prod.mk.inj (Option.some.inj hsave)
      have hnone : fromBytesToVars front MAX_VAR_COUNT [] = none :=
        fromBytesToVars_none (unserializeVars_short front MAX_VAR_COUNT (by decide))
      have hread' : fromBytesToVars front MAX_VAR_COUNT [] = some (.ok vars) := hread
      rw [hnone] at hread'
      cases hread'
    · by_contra hlarge
      exact htidy.not_loads_of_large f front (Nat.not_le.mp hlarge) hloads
  · rintro ⟨hne, hsize⟩
    obtain ⟨file, vars, hsave, hlen, hread, hvars, hsame⟩ := htidy.xapiSave_eq f front hne
    refine ⟨_, 0, file, vars, walk_of_copyable (htidy.savable false).1, hsave, ?_, hvars, hsame⟩
    unfold xapiVariablesReadFile
    rw [if_neg (by rw [hlen]; exact Nat.not_lt.mpr hsize)]
    exact hread

theorem Filled.length_innerSlots {d : List UInt8} {n : Nat} {s : Storage} (h : Filled d n s) :
    (innerSlots s).length = (((List.finRange 127).map (Fin.castSucc (n := 127))).filter
      (fun i => decide (i.val < n))).length :=
  congrArg (fun p => (List.filter p ((List.finRange 127).map Fin.castSucc)).length)
    (funext h.isValid)

/-- Every variable of a store filled in order has the same size. -/
theorem Filled.savedSize {d : List UInt8} {n : Nat} {s : Storage} (h : Filled d n s)
    (nonvolatile : Bool) :
    savedSize s nonvolatile = 24 + (innerSlots s).length * (86 + d.length) := by
  have hslot : ∀ i ∈ innerSlots s, i.val < n := by
    intro i hi
    have hvalid := (mem_innerSlots hi).2
    rw [h.isValid] at hvalid
    exact of_decide_eq_true hvalid
  have hasked : ((innerSlots s).map s.vars).filter (asked nonvolatile)
      = (innerSlots s).map s.vars := by
    refine List.filter_eq_self.mpr ?_
    intro v hv
    obtain ⟨i, hi, rfl⟩ := List.mem_map.mp hv
    rw [asked, (h.slot i (hslot i hi)).2.2]
    cases nonvolatile <;> rfl
  have hsize : ∀ i ∈ innerSlots s, 84 + (s.vars i).namesz + (s.vars i).datasz = 86 + d.length := by
    intro i hi
    obtain ⟨hmatch, hdata, -⟩ := h.slot i (hslot i hi)
    have hname : (s.vars i).namesz = 2 := (Variable.isMatch_iff.mp hmatch).1
    rw [hname, Variable.datasz, hdata]
  have hsizes : ((innerSlots s).map s.vars).map (fun v => 84 + v.namesz + v.datasz)
      = (innerSlots s).map (fun _ => 86 + d.length) := by
    rw [List.map_map]
    exact List.map_congr_left hsize
  rw [Uefistored.savedSize, hasked, hsizes, List.map_const', List.sum_replicate_nat]

theorem savedFileLoads_holed : savedSize holed false = 288 ∧
    ∀ f front, SavedFileLoads f front holed := by
  have hsize : savedSize holed false = 288 := by decide +kernel
  refine ⟨hsize, fun f front => (savedFileLoads_iff holed_reachable f front).mpr ⟨⟨0, ?_, ?_⟩, ?_⟩⟩
  · decide
  · decide +kernel
  · rw [hsize]
    decide

/-- One variable of the largest size: its file is refused, and no variable is read. -/
theorem not_savedFileLoads_large : ∃ s : Storage, s.Reachable ∧ s.variables.length = 1 ∧
    ∀ f front, ¬ SavedFileLoads f front s := by
  have hlen : (List.replicate 32768 (1 : UInt8)).length = 32768 := List.length_replicate
  obtain ⟨s, hs⟩ := exists_filled (d := List.replicate 32768 1) (n := 1)
    (fun hnil => by rw [hnil] at hlen; cases hlen) hlen.le (by decide)
  refine ⟨s, hs.reachable, hs.length_variables.trans (by decide), fun f front => ?_⟩
  refine hs.reachable.tidy.not_loads_of_large f front ?_
  rw [hs.savedSize, hs.length_innerSlots, hlen]
  decide

end Uefistored
