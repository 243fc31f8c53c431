/-
# `Uefistored.Room` — room for the mode variables

`update_platform_mode` writes three variables of one byte, and it can fail as
every write can: a stored one has other attributes, `used` is too high, or there
is no slot for a new one.  It is called behind the write or the deletion of PK,
on a store that this write has changed.  `Room` is all that it can have changed
for the mode variables, and `ModesFit` decides from the store in front of the
write whether the three are written (`setModeVariables_success_iff`).
-/
import Uefistored.Modes
import Uefistored.Status
import Uefistored.Written

namespace Uefistored

open Lib

/-! ## Counter and slots -/

/-- The bytes that count as used, and the number of free slots. -/
structure Room where
  used : Nat
  free : Nat

namespace Room

/-- One variable more. -/
def taken (r : Room) : Room :=
  ⟨add64 r.used (MAX_VARIABLE_NAME_SIZE + MAX_VARIABLE_DATA_SIZE), r.free - 1⟩

/-- One variable less. -/
def given (r : Room) : Room :=
  ⟨sub64 r.used (MAX_VARIABLE_NAME_SIZE + MAX_VARIABLE_DATA_SIZE), r.free + 1⟩

end Room

def Storage.room (s : Storage) : Room := ⟨s.used, Slots.count s.vars Variable.isFree⟩

section
variable {s s' : Storage} {k : Key} {i : Fin MAX_VAR_COUNT} {v : Variable}

theorem Storage.freeSlot_ne_none_iff : s.freeSlot ≠ none ↔ 0 < s.room.free := by
  rw [Nat.pos_iff_ne_zero]
  refine not_congr ?_
  show Slots.first s.vars Variable.isFree = none ↔ Slots.count s.vars Variable.isFree = 0
  rw [Slots.first_eq_none_iff, Slots.count_eq_zero_iff]

/-- A slot is written, and is in use or free as before. -/
theorem Storage.room_setSlot (h : v.isFree = (s.vars i).isFree) :
    (s.setSlot i v).room = s.room := by
  have hcount := Slots.count_update s.vars Variable.isFree i v
  rw [h] at hcount
  exact congrArg (Room.mk s.used) (Nat.add_right_cancel hcount)

/-- A free slot is taken. -/
theorem Storage.room_create {total : Nat} (hi : (s.vars i).isFree = true) (hv : v.isFree = false) :
    Storage.room { s.setSlot i v with
      total := total
      used := add64 s.used (MAX_VARIABLE_NAME_SIZE + MAX_VARIABLE_DATA_SIZE) } = s.room.taken := by
  have hcount := Slots.count_update s.vars Variable.isFree i v
  rw [hi, hv] at hcount
  exact congrArg (Room.mk _) (Nat.eq_sub_of_add_eq hcount)

/-- A slot in use is emptied. -/
theorem Storage.room_remove (hi : (s.vars i).isFree = false) :
    (s.remove i).room = s.room.given := by
  have hcount := Slots.count_update s.vars Variable.isFree i Variable.zero
  rw [hi, Variable.isFree_zero] at hcount
  exact congrArg (Room.mk _) hcount

theorem isFree_of_findSlot (hk : k.Clean) (hi : s.findSlot k = some i) :
    (s.vars i).isFree = false :=
  Variable.isFree_of_isValid (Variable.isValid_of_isMatch hk.named (Storage.findSlot_isMatch hi))

/-- What is left behind a write under a name that is stored as it came. -/
theorem Wrote.room {attrs : Attrs} {time : EfiTime} (hk : k.Clean) (h : Wrote s k attrs time i s') :
    s'.room = if (s.findSlot k).isSome then s.room else s.room.taken := by
  cases h with
  | nothingNew _ hi _ => rw [hi, if_pos (show (some i).isSome from rfl)]
  | stamped hi _ =>
      rw [hi, if_pos (show (some i).isSome from rfl)]
      exact Storage.room_setSlot rfl
  | created hnone hi =>
      rw [hnone, if_neg (show ¬ (none : Option (Fin MAX_VAR_COUNT)).isSome by decide)]
      refine Storage.room_create (Slots.first_pred hi) ?_
      exact Variable.isFree_of_isValid (Variable.isValid_named hk.named (s.vars i) (s.below i))

/-! ## One mode variable -/

theorem tooLarge_one (hk : k.Clean) :
    tooLarge s k 1 = false ↔ add64 (add64 1 k.namesz) s.used ≤ MAX_STORAGE_SIZE := by
  have hfits := hk.fits
  simp only [tooLarge, Bool.or_eq_false_iff, decide_eq_false_iff_not, not_lt]
  refine and_iff_right ⟨hfits, by decide⟩

theorem storageSet_mode_iff (hk : k.Clean) (value : UInt8) :
    (storageSet s k (some [value]) RT_BS_ATTRS).1 = .success ↔
      add64 (add64 1 k.namesz) s.used ≤ MAX_STORAGE_SIZE ∧
        match (storageFindVariable s k).map (·.attrs) with
        | some attrs => attrs = RT_BS_ATTRS
        | none => 0 < s.room.free := by
  have h0 : k.namesz ≠ 0 := by
    have := hk.two_le
    omega
  have hrem := asksRemoval_mode value
  have hplain : RT_BS_ATTRS.withoutAppend = RT_BS_ATTRS := by decide
  have happ : RT_BS_ATTRS.append = false := by decide
  rw [← tooLarge_one hk]
  cases hi : s.findSlot k with
  | some i =>
      rw [storageSet_found_success_iff hrem h0 (List.cons_ne_nil _ _) hi, storageFindVariable_eq hi,
        Variable.Takes, hplain, happ]
      simp
  | none =>
      rw [storageFindVariable_eq_none.mpr hi, Option.map_none, ← Storage.freeSlot_ne_none_iff]
      cases hlarge : tooLarge s k 1 with
      | true =>
          rw [storageSet_tooLarge (show tooLarge s k [value].length = true from hlarge)]
          exact iff_of_false nofun nofun
      | false =>
          rw [storageSet_new_status (show tooLarge s k [value].length = false from hlarge) hrem
            (List.cons_ne_nil _ _) hi, and_iff_right rfl]
          simp [h0]

/-- What is left behind it. -/
theorem storageSet_mode_room (hk : k.Clean) {value : UInt8}
    (hok : (storageSet s k (some [value]) RT_BS_ATTRS).1 = .success) :
    (storageSet s k (some [value]) RT_BS_ATTRS).2.room =
      if (storageFindVariable s k).isSome then s.room else s.room.taken := by
  have hc := storageSet_cases s k (some [value]) RT_BS_ATTRS
  generalize storageSet s k (some [value]) RT_BS_ATTRS = r at hc hok
  obtain ⟨st, s'⟩ := r
  cases hc with
  | refused hs => exact absurd hok hs
  | removed hrem => cases (asksRemoval_mode value).symm.trans hrem
  | renamed hs => exact absurd hok hs
  | replaced _ _ _ _ _ hi _ =>
      rw [storageFindVariable_eq hi, Variable.named_self hk (Storage.findSlot_isMatch hi)]
      exact Storage.room_setSlot rfl
  | @created i _ _ _ _ _ _ hnone hi _ =>
      rw [storageFindVariable_eq_none.mpr hnone]
      refine Storage.room_create (Slots.first_pred hi) ?_
      exact Variable.isFree_of_isValid (Variable.isValid_named hk.named (s.vars i) (s.below i))

end

/-! ## All of them -/

/-- The mode variables can be written one after the other, from the room `r`: the sizes stay
within the limit, a variable that is there has the attributes of a mode variable, and for one that
is not there is a slot. -/
def ModesFit (s : Storage) : Room → List Key → Prop
  | _, [] => True
  | r, k :: rest => add64 (add64 1 k.namesz) r.used ≤ MAX_STORAGE_SIZE ∧
      match (storageFindVariable s k).map (·.attrs) with
      | some attrs => attrs = RT_BS_ATTRS ∧ ModesFit s r rest
      | none => 0 < r.free ∧ ModesFit s r.taken rest

section
variable {s : Storage} {k : Key} {value : UInt8} {rest : List (Key × UInt8)}

theorem setModeVariables_cons (h : (storageSet s k (some [value]) RT_BS_ATTRS).1 = .success) :
    setModeVariables s ((k, value) :: rest) =
      setModeVariables (storageSet s k (some [value]) RT_BS_ATTRS).2 rest := by
  rw [setModeVariables]
  generalize storageSet s k (some [value]) RT_BS_ATTRS = r at h ⊢
  obtain ⟨status, s₁⟩ := r
  obtain rfl : status = .success := h
  rfl

theorem setModeVariables_failed (h : (storageSet s k (some [value]) RT_BS_ATTRS).1 ≠ .success) :
    (setModeVariables s ((k, value) :: rest)).1 ≠ .success := by
  rw [setModeVariables]
  generalize storageSet s k (some [value]) RT_BS_ATTRS = r at h ⊢
  obtain ⟨status, s₁⟩ := r
  cases status with
  | success => exact absurd rfl h
  | _ => exact h

end

/-- **The mode variables are written exactly if they fit**, as told from a store `s` with the same
mode variables. -/
theorem setModeVariables_success_iff {s : Storage} : ∀ (l : List (Key × UInt8)) {s' : Storage},
    ModeList l → (∀ kv ∈ l, (storageFindVariable s' kv.1).map (·.attrs) =
      (storageFindVariable s kv.1).map (·.attrs)) →
    ((setModeVariables s' l).1 = .success ↔ ModesFit s s'.room (l.map Prod.fst))
  | [], _, _, _ => iff_of_true rfl trivial
  | (k, value) :: rest, s', hl, hsame => by
      obtain ⟨K, rfl⟩ := hl.varKey (k, value) List.mem_cons_self
      have hattrs : (storageFindVariable s' K.key).map (·.attrs) =
          (storageFindVariable s K.key).map (·.attrs) := hsame (K.key, value) List.mem_cons_self
      have hfirst : (storageSet s' K.key (some [value]) RT_BS_ATTRS).1 = .success ↔ _ :=
        storageSet_mode_iff K.clean value
      rw [hattrs] at hfirst
      rw [List.map_cons, ModesFit]
      by_cases hok : (storageSet s' K.key (some [value]) RT_BS_ATTRS).1 = .success
      · have hw : Write K.key s' (storageSet s' K.key (some [value]) RT_BS_ATTRS).2 := .set _ _
        have hrest : ∀ kv ∈ rest,
            (storageFindVariable (storageSet s' K.key (some [value]) RT_BS_ATTRS).2 kv.1).map
              (·.attrs) = (storageFindVariable s kv.1).map (·.attrs) := by
          intro kv hkv
          obtain ⟨K', hK'⟩ := hl.varKey kv (List.mem_cons_of_mem _ hkv)
          have hne := ((List.pairwise_cons.mp hl.apart).1 kv hkv).1
          have hfind := (Writes.single rfl hw).find_eq (fun _ hk =>
            hk ▸ K.clean.spares (hK' ▸ K'.clean) hne)
          rw [hfind]
          exact hsame kv (List.mem_cons_of_mem _ hkv)
        have hroom := storageSet_mode_room K.clean hok
        rw [← Option.isSome_map (f := (·.attrs)), hattrs] at hroom
        rw [setModeVariables_cons hok, setModeVariables_success_iff rest hl.tail hrest, hroom]
        obtain ⟨hused, hslot⟩ := hfirst.mp hok
        rw [and_iff_right (show add64 (add64 1 K.key.namesz) s'.room.used ≤ _ from hused)]
        dsimp only
        cases hfind : (storageFindVariable s K.key).map (·.attrs) with
        | some attrs =>
            rw [hfind] at hslot
            exact (and_iff_right hslot).symm
        | none =>
            rw [hfind] at hslot
            exact (and_iff_right hslot).symm
      · refine iff_of_false (setModeVariables_failed hok) ?_
        rintro ⟨hused, hslot⟩
        refine hok (hfirst.mpr ⟨hused, ?_⟩)
        dsimp only at hslot
        cases hfind : (storageFindVariable s K.key).map (·.attrs) with
        | some attrs =>
            rw [hfind] at hslot
            exact hslot.1
        | none =>
            rw [hfind] at hslot
            exact hslot.1

end Uefistored
