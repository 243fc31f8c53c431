/-
# `Uefistored.Copies` — what the entries of a save look like

The entries that a walk returns are copies of the variables in the store, and in
an arbitrary store not always equal to them: each time a name is copied,
`sanitize_namesz` may cut one NUL unit off its end, and a name of one byte may
get the size `-1`.

`Variable.Modest` bounds the sizes of a copy.  `Variable.Settles v k` says, of a
variable in the store, that `k` copies are enough for its name to end in a unit
that is not NUL; `saved_kept` and `settles_of_saved` connect it with the entries,
which are copied once by `retrieve_vars` and twice by
`retrieve_nonvolatile_vars`.
-/
import Uefistored.Walk

namespace Uefistored

open Lib

/-! ## Sizes of what a walk returns -/

/-- The sizes that a copy can have.  A name of one byte behind which a NUL unit is seen gets the
size `-1`. -/
structure Variable.Modest (v : Variable) : Prop where
  name : v.namesz ≤ MAX_VARIABLE_NAME_SIZE ∨ v.namesz = 2 ^ 64 - 1
  data : v.datasz ≤ MAX_VARIABLE_DATA_SIZE

theorem Variable.modest_zero : Variable.zero.Modest := ⟨.inl (Nat.zero_le _), Nat.zero_le _⟩

theorem Variable.Modest.variableSize {v : Variable} (h : v.Modest) :
    83 ≤ Uefistored.variableSize v ∧ Uefistored.variableSize v ≤ 33108 := by
  have hdata : v.datasz ≤ 32768 := h.data
  unfold Uefistored.variableSize
  rcases h.name with hname | hname
  · have hname : v.namesz ≤ 256 := hname
    omega
  · omega

/-- The size `sanitize_namesz` leaves of a size in range. -/
theorem Key.stored_modest {k : Key} (h0 : k.namesz ≠ 0) (h : k.namesz ≤ MAX_VARIABLE_NAME_SIZE)
    (below : UInt16) :
    k.stored below ≤ MAX_VARIABLE_NAME_SIZE ∨ k.stored below = 2 ^ 64 - 1 := by
  have hmax : k.namesz ≤ 256 := h
  unfold Key.stored
  split
  · by_cases h2 : 2 ≤ k.namesz
    · rw [sub64_of_le h2 (by omega)]
      exact .inl ((Nat.sub_le _ _).trans h)
    · rw [sub64_of_lt (by omega) (by decide)]
      refine .inr ?_
      omega
  · exact .inl h

theorem variableCopy_modest (below : UInt16) {dst : Variable} (src : Variable) (h : dst.Modest) :
    (variableCopy below dst src).2.Modest := by
  by_cases hname : src.namesz = 0 ∨ src.namesz > MAX_VARIABLE_NAME_SIZE
  · have herr : ∃ ret, variableSetName below dst src.name src.namesz = .error ret := by
      unfold variableSetName
      split
      · exact ⟨_, rfl⟩
      · split
        · exact ⟨_, rfl⟩
        · rename_i hle h0
          exact absurd hname (not_or.mpr ⟨h0, hle⟩)
    obtain ⟨ret, herr⟩ := herr
    unfold variableCopy
    rw [herr]
    exact h
  · obtain ⟨h0, hle⟩ := not_or.mp hname
    have hsize := Key.stored_modest (k := src.key) h0 (Nat.not_lt.mp hle) below
    rcases variableCopy_cases below dst src with heq | heq | ⟨hdata, heq⟩
    · rw [heq]
      exact h
    · rw [heq]
      exact ⟨hsize, h.data⟩
    · rw [heq]
      exact ⟨hsize, hdata⟩

theorem copies_modest {s : Storage} : ∀ {l : List (Fin MAX_VAR_COUNT)} (below : UInt16),
    (∀ i ∈ l, Walked s i) → ∀ w ∈ copies s below l, w.Modest
  | [], _, _ => fun _ hw => absurd hw List.not_mem_nil
  | i :: l, below, h => by
      obtain ⟨-, hvalid, hcopy⟩ := h i List.mem_cons_self
      intro w hw
      rcases List.mem_cons.mp hw with rfl | hw
      · exact ⟨Key.stored_modest (k := (s.vars i).key) (Variable.namesz_of_isValid hvalid) hcopy.1
          below, hcopy.2.2⟩
      · exact copies_modest 0 (fun j hj => h j (List.mem_cons_of_mem _ hj)) w hw

theorem copiesNonvolatile_modest {f : Fronts} {s : Storage} : ∀ {l : List (Fin MAX_VAR_COUNT)}
    (index : Nat) (tmp : Variable) (below : UInt16),
    ∀ w ∈ copiesNonvolatile f s index tmp below l, w.Modest
  | [], _, _, _ => fun _ hw => absurd hw List.not_mem_nil
  | i :: l, index, tmp, below => by
      intro w hw
      unfold copiesNonvolatile at hw
      split at hw
      · rcases List.mem_cons.mp hw with rfl | hw
        · exact variableCopy_modest below _ Variable.modest_zero
        · exact copiesNonvolatile_modest _ _ _ w hw
      · exact copiesNonvolatile_modest _ _ _ w hw

theorem length_copies {s : Storage} : ∀ (l : List (Fin MAX_VAR_COUNT)) (below : UInt16),
    (copies s below l).length = l.length
  | [], _ => rfl
  | _ :: l, _ => congrArg (· + 1) (length_copies l 0)

theorem length_copiesNonvolatile {f : Fronts} {s : Storage} :
    ∀ (l : List (Fin MAX_VAR_COUNT)) (index : Nat) (tmp : Variable) (below : UInt16),
      (copiesNonvolatile f s index tmp below l).length
        = (l.filter fun i => (s.vars i).attrs.nonVolatile).length
  | [], _, _, _ => rfl
  | i :: l, index, tmp, below => by
      rw [copiesNonvolatile, List.filter_cons]
      split
      · rw [List.length_cons, List.length_cons, length_copiesNonvolatile l]
      · rw [length_copiesNonvolatile l]

/-! ## Names that are cut -/

/-- `sanitize_namesz` on a size of at least one unit. -/
def Variable.trim (v : Variable) (n : Nat) : Nat :=
  if unitAt v.name.bytes (n / 2 - 1) = 0 then n - 2 else n

/-- Behind `k` copies the name ends in a unit that is not NUL. -/
def Variable.Settles (v : Variable) (k : Nat) : Prop :=
  2 ≤ v.namesz ∧ unitAt v.name.bytes (v.trim^[k] v.namesz / 2 - 1) ≠ 0

instance (v : Variable) (k : Nat) : Decidable (v.Settles k) := inferInstanceAs (Decidable (_ ∧ _))

section Copy

variable {v : Variable} (hvalid : v.isValid = true) (hcopy : v.Copyable) (h2 : 2 ≤ v.namesz)

include hcopy h2 in
theorem namesz_copied (below : UInt16) (dst : Variable) :
    (v.copied below dst).namesz = v.trim v.namesz := by
  have hmax : v.namesz ≤ 256 := hcopy.1
  have hne : ¬ v.namesz / 2 = 0 := by omega
  show v.key.stored below = _
  unfold Key.stored lastUnit Variable.trim
  rw [show v.key.namesz = v.namesz from rfl, show v.key.name = v.name from rfl, if_neg hne]
  split
  · exact sub64_of_le h2 (by omega)
  · rfl

include hvalid in
/-- The first unit is not NUL, so that it is never cut off. -/
theorem trim_range {n : Nat} (hn : 2 ≤ n) : 2 ≤ v.trim n ∧ v.trim n ≤ n := by
  have h0 : unitAt v.name.bytes 0 ≠ 0 := (Variable.isValid_iff.mp hvalid).1
  unfold Variable.trim
  split
  · rename_i hzero
    by_cases h4 : 4 ≤ n
    · omega
    · rw [show n / 2 - 1 = 0 by omega] at hzero
      exact absurd hzero h0
  · omega

include hcopy in
/-- The copy has the units of the name. -/
theorem unitAt_copied (below : UInt16) (dst : Variable) {i : Nat} (hi : 2 * i + 1 < v.namesz) :
    unitAt (v.copied below dst).name.bytes i = unitAt v.name.bytes i := by
  have htake : (v.copied below dst).name.bytes.take v.namesz = v.name.bytes.take v.namesz :=
    Block.overwrite_take _ _ hcopy.1
  rw [← unitAt_take (l := (v.copied below dst).name.bytes) hi, htake, unitAt_take hi]

include hvalid hcopy h2 in
theorem copied_valid (below : UInt16) (dst : Variable) :
    (v.copied below dst).isValid = true ∧ (v.copied below dst).Copyable ∧
      2 ≤ (v.copied below dst).namesz := by
  have hsz := namesz_copied hcopy h2 below dst
  obtain ⟨htwo, hle⟩ := trim_range hvalid h2
  refine ⟨Variable.isValid_iff.mpr ⟨?_, by omega⟩, ⟨?_, hcopy.2⟩, by omega⟩
  · rw [unitAt_copied hcopy below dst (by omega)]
    exact (Variable.isValid_iff.mp hvalid).1
  · rw [hsz]
    exact hle.trans hcopy.1

include hvalid hcopy h2 in
/-- One copy. -/
theorem kept_copied_iff (below : UInt16) (dst : Variable) :
    (v.copied below dst).Kept ↔ v.Settles 1 := by
  have hsz := namesz_copied hcopy h2 below dst
  obtain ⟨htwo, hle⟩ := trim_range hvalid h2
  have hdata : 1 ≤ v.datasz ∧ v.datasz ≤ MAX_VARIABLE_DATA_SIZE :=
    ⟨Nat.one_le_iff_ne_zero.mpr (fun h0 => hcopy.2.1 (List.eq_nil_of_length_eq_zero h0)),
      hcopy.2.2⟩
  have hlast : unitAt (v.copied below dst).name.bytes ((v.copied below dst).namesz / 2 - 1) =
      unitAt v.name.bytes (v.trim v.namesz / 2 - 1) := by
    rw [hsz, unitAt_copied hcopy below dst (by omega)]
  constructor
  · intro h
    refine ⟨h2, ?_⟩
    rw [Function.iterate_one, ← hlast]
    exact h.last
  · rintro ⟨-, h⟩
    rw [Function.iterate_one] at h
    refine ⟨⟨by omega, ?_⟩, ?_, hdata⟩
    · rw [hsz]
      exact hle.trans hcopy.1
    · rwa [hlast]

include hvalid hcopy h2 in
/-- A copy of a copy. -/
theorem kept_copied_copied_iff (below below' : UInt16) (dst dst' : Variable) :
    ((v.copied below dst).copied below' dst').Kept ↔ v.Settles 2 := by
  obtain ⟨hvalid', hcopy', h2'⟩ := copied_valid hvalid hcopy h2 below dst
  have hsz := namesz_copied hcopy h2 below dst
  obtain ⟨htwo, hle⟩ := trim_range hvalid h2
  obtain ⟨htwo', hle'⟩ := trim_range hvalid htwo
  have htrim : (v.copied below dst).trim (v.trim v.namesz) = v.trim (v.trim v.namesz) := by
    unfold Variable.trim at htwo hle ⊢
    rw [unitAt_copied hcopy below dst (by omega)]
  rw [kept_copied_iff hvalid' hcopy' h2']
  unfold Variable.Settles
  rw [Function.iterate_one, hsz, htrim, unitAt_copied hcopy below dst (by omega)]
  exact ⟨fun h => ⟨h2, h.2⟩, fun h => ⟨htwo, h.2⟩⟩

end Copy

section Single

variable {v : Variable} (hvalid : v.isValid = true) (hcopy : v.Copyable)

include hvalid in
/-- A name of one byte, with zeros in front, gets the size `-1`. -/
theorem two_le_of_copied {dst : Variable}
    (h : (v.copied 0 dst).namesz ≤ MAX_VARIABLE_NAME_SIZE) : 2 ≤ v.namesz := by
  by_contra hlt
  have h0 := Variable.namesz_of_isValid hvalid
  have h1 : v.key.namesz = 1 := by
    show v.namesz = 1
    omega
  have hstored : (v.copied 0 dst).namesz = 2 ^ 64 - 1 := by
    show v.key.stored 0 = _
    unfold Key.stored lastUnit
    rw [h1, if_pos (show (if 1 / 2 = 0 then (0 : UInt16).toNat else _) = 0 from rfl)]
    exact (sub64_of_lt (by decide) (by decide)).trans (by decide)
  rw [hstored] at h
  exact absurd h (by decide)

include hvalid hcopy in
theorem settles_of_kept_copy {dst : Variable} (h : (v.copied 0 dst).Kept) : v.Settles 1 :=
  (kept_copied_iff hvalid hcopy (two_le_of_copied hvalid h.name.2) 0 dst).mp h

include hvalid hcopy in
theorem settles_of_kept_copies {dst : Variable}
    (h : (variableCopy 0 Variable.zero (v.copied 0 dst)).2.Kept) : v.Settles 2 := by
  by_cases hname : (v.copied 0 dst).namesz ≤ MAX_VARIABLE_NAME_SIZE
  · have h2 := two_le_of_copied hvalid hname
    obtain ⟨hvalid', hcopy', -⟩ := copied_valid hvalid hcopy h2 0 dst
    rw [variableCopy_eq _ _ (Variable.namesz_of_isValid hvalid') hcopy'] at h
    exact (kept_copied_copied_iff hvalid hcopy h2 0 0 dst Variable.zero).mp h
  · -- the second copy fails, and the entry stays empty
    have hzero : (variableCopy 0 Variable.zero (v.copied 0 dst)).2 = Variable.zero := by
      unfold variableCopy variableSetName
      rw [if_pos (Nat.not_le.mp hname)]
    rw [hzero] at h
    exact absurd h.name.1 (by decide)

end Single

section Saved

variable {f : Fronts} {s : Storage}

theorem mem_copies : ∀ {l : List (Fin MAX_VAR_COUNT)} {below : UInt16} {w : Variable},
    w ∈ copies s below l → ∃ i ∈ l, ∃ b, w = (s.vars i).copied b Variable.zero
  | i :: l, below, w, hw => by
      rcases List.mem_cons.mp hw with rfl | hw
      · exact ⟨i, List.mem_cons_self, below, rfl⟩
      · obtain ⟨j, hj, hb⟩ := mem_copies hw
        exact ⟨j, List.mem_cons_of_mem _ hj, hb⟩

theorem copy_mem_copies : ∀ {l : List (Fin MAX_VAR_COUNT)} {i : Fin MAX_VAR_COUNT}, i ∈ l →
    (s.vars i).copied 0 Variable.zero ∈ copies s 0 l
  | j :: l, i, hi => by
      rcases List.mem_cons.mp hi with rfl | hi
      · exact List.mem_cons_self
      · exact List.mem_cons_of_mem _ (copy_mem_copies hi)

theorem mem_copiesNonvolatile : ∀ {l : List (Fin MAX_VAR_COUNT)} {index : Nat} {tmp w : Variable}
    {below : UInt16}, w ∈ copiesNonvolatile f s index tmp below l →
    ∃ i ∈ l, (s.vars i).attrs.nonVolatile = true ∧
      ∃ b b' dst, w = (variableCopy b Variable.zero ((s.vars i).copied b' dst)).2
  | i :: l, index, tmp, w, below, hw => by
      unfold copiesNonvolatile at hw
      split at hw
      · rename_i hnv
        rcases List.mem_cons.mp hw with rfl | hw
        · exact ⟨i, List.mem_cons_self, hnv, below, _, tmp, rfl⟩
        · obtain ⟨j, hj, h⟩ := mem_copiesNonvolatile hw
          exact ⟨j, List.mem_cons_of_mem _ hj, h⟩
      · obtain ⟨j, hj, h⟩ := mem_copiesNonvolatile hw
        exact ⟨j, List.mem_cons_of_mem _ hj, h⟩

theorem copy_mem_copiesNonvolatile : ∀ {l : List (Fin MAX_VAR_COUNT)} {i : Fin MAX_VAR_COUNT}
    (index : Nat) (tmp : Variable), i ∈ l → (s.vars i).attrs.nonVolatile = true →
    ∃ dst, (variableCopy 0 Variable.zero ((s.vars i).copied 0 dst)).2 ∈
      copiesNonvolatile Fronts.zero s index tmp 0 l
  | j :: l, i, index, tmp, hi, hnv => by
      unfold copiesNonvolatile
      rcases List.mem_cons.mp hi with rfl | hi
      · rw [if_pos hnv]
        exact ⟨tmp, List.mem_cons_self⟩
      · split
        · obtain ⟨dst, h⟩ := copy_mem_copiesNonvolatile (j.val + 1) Variable.zero hi hnv
          exact ⟨dst, List.mem_cons_of_mem _ h⟩
        · exact copy_mem_copiesNonvolatile _ _ hi hnv

/-- How often a name is copied on its way to the file. -/
def timesCopied (nonvolatile : Bool) : Nat := if nonvolatile then 2 else 1

/-- The names in front of the last slot settle: none of them is cut by the reader. -/
theorem saved_kept {nonvolatile : Bool}
    (hcopy : ∀ i, (s.vars i).isValid = true → (s.vars i).Copyable)
    (h : ∀ i ∈ innerSlots s, asked nonvolatile (s.vars i) = true →
      (s.vars i).Settles (timesCopied nonvolatile)) (f : Fronts) :
    ∀ w ∈ saved f s nonvolatile, w.Kept := by
  intro w hw
  cases nonvolatile with
  | false =>
      obtain ⟨i, hi, b, rfl⟩ := mem_copies hw
      have hvalid := (mem_innerSlots hi).2
      have hset := h i hi rfl
      exact (kept_copied_iff hvalid (hcopy i hvalid) hset.1 b _).mpr hset
  | true =>
      obtain ⟨i, hi, hnv, b, b', dst, rfl⟩ := mem_copiesNonvolatile hw
      have hvalid := (mem_innerSlots hi).2
      have hset := h i hi hnv
      obtain ⟨hvalid', hcopy', -⟩ := copied_valid hvalid (hcopy i hvalid) hset.1 b' dst
      rw [variableCopy_eq _ _ (Variable.namesz_of_isValid hvalid') hcopy']
      exact (kept_copied_copied_iff hvalid (hcopy i hvalid) hset.1 b' b dst _).mpr hset

theorem settles_of_saved {nonvolatile : Bool}
    (hcopy : ∀ i, (s.vars i).isValid = true → (s.vars i).Copyable)
    (h : ∀ w ∈ saved Fronts.zero s nonvolatile, w.Kept) :
    ∀ i ∈ innerSlots s, asked nonvolatile (s.vars i) = true →
      (s.vars i).Settles (timesCopied nonvolatile) := by
  intro i hi hask
  have hvalid := (mem_innerSlots hi).2
  cases nonvolatile with
  | false => exact settles_of_kept_copy hvalid (hcopy i hvalid) (h _ (copy_mem_copies hi))
  | true =>
      obtain ⟨dst, hmem⟩ := copy_mem_copiesNonvolatile 0 Variable.zero hi hask
      exact settles_of_kept_copies hvalid (hcopy i hvalid) (h _ hmem)

theorem length_innerSlots (s : Storage) : (innerSlots s).length ≤ 127 :=
  (List.length_filter_le _ _).trans
    ((List.length_map (Fin.castSucc (n := 127))).trans List.length_finRange).le

theorem length_saved (f : Fronts) (s : Storage) (nonvolatile : Bool) :
    (saved f s nonvolatile).length ≤ 127 := by
  have hinner := length_innerSlots s
  unfold saved
  split
  · rw [length_copiesNonvolatile]
    exact (List.length_filter_le _ _).trans hinner
  · rw [length_copies]
    exact hinner

/-- Nothing is saved exactly when nothing in front of the last slot is asked for. -/
theorem saved_eq_nil_iff (nonvolatile : Bool) : saved f s nonvolatile = [] ↔
    ∀ i ∈ innerSlots s, asked nonvolatile (s.vars i) = false := by
  rw [← List.length_eq_zero_iff]
  cases nonvolatile with
  | false =>
      rw [show (saved f s false).length = (innerSlots s).length from length_copies _ _,
        List.length_eq_zero_iff]
      constructor
      · intro h i hi
        rw [h] at hi
        cases hi
      · intro h
        refine List.eq_nil_iff_forall_not_mem.mpr (fun i hi => ?_)
        -- without the flag every variable is asked for
        cases h i hi
  | true =>
      rw [show (saved f s true).length = ((innerSlots s).filter fun i =>
        (s.vars i).attrs.nonVolatile).length from length_copiesNonvolatile _ _ _ _,
        List.length_eq_zero_iff, List.filter_eq_nil_iff]
      exact forall₂_congr (fun i _ => (Bool.not_eq_true _).to_iff)

theorem saved_modest {nonvolatile : Bool}
    (hcopy : ∀ i, (s.vars i).isValid = true → (s.vars i).Copyable) :
    ∀ w ∈ saved f s nonvolatile, w.Modest := by
  cases nonvolatile with
  | false =>
      refine copies_modest _ ?_
      intro i hi
      obtain ⟨hlast, hvalid⟩ := mem_innerSlots hi
      exact ⟨hlast, hvalid, hcopy i hvalid⟩
  | true => exact copiesNonvolatile_modest _ _ _

end Saved

/-! ## No entry with data is without a name -/

theorem Key.stored_ne_zero {k : Key} (h0 : k.namesz ≠ 0) (hlt : k.namesz < 2 ^ 64)
    (hhead : k.namesz = 2 → unitAt k.name.bytes 0 ≠ 0) (below : UInt16) : k.stored below ≠ 0 := by
  unfold Key.stored
  split
  · rename_i hlast
    intro hzero
    have h2 := (sub64_eq_zero_iff hlt (by decide)).mp hzero
    rw [lastUnit, h2, if_neg (by decide)] at hlast
    exact hhead h2 hlast
  · exact h0

section Named

variable {v : Variable} (hvalid : v.isValid = true) (hcopy : v.Copyable)

include hvalid hcopy in
theorem namesz_copied_ne (below : UInt16) (dst : Variable) : (v.copied below dst).namesz ≠ 0 := by
  obtain ⟨hhead, h0⟩ := Variable.isValid_iff.mp hvalid
  have hmax : v.namesz ≤ 256 := hcopy.1
  exact Key.stored_ne_zero (k := v.key) h0 (show v.namesz < 2 ^ 64 by omega) (fun _ => hhead) below

include hvalid hcopy in
theorem namesz_variableCopy_ne (below below' : UInt16) (dst : Variable)
    (hdata : (variableCopy below Variable.zero (v.copied below' dst)).2.data ≠ []) :
    (variableCopy below Variable.zero (v.copied below' dst)).2.namesz ≠ 0 := by
  have hne := namesz_copied_ne hvalid hcopy below' dst
  have hmodest := Key.stored_modest (k := v.key) (Variable.namesz_of_isValid hvalid) hcopy.1 below'
  have hlt : (v.copied below' dst).namesz < 2 ^ 64 := by
    show v.key.stored below' < _
    have hmax : MAX_VARIABLE_NAME_SIZE = 256 := rfl
    omega
  have hhead : (v.copied below' dst).namesz = 2 →
      unitAt (v.copied below' dst).name.bytes 0 ≠ 0 := by
    intro hsz
    have h2 : 2 ≤ v.namesz := by
      by_contra hlt2
      have h0 := Variable.namesz_of_isValid hvalid
      have hkey : v.key.namesz = 1 := show v.namesz = 1 by omega
      have hstored : v.key.stored below' = 2 := hsz
      unfold Key.stored at hstored
      rw [hkey, sub64_of_lt (by decide) (by decide)] at hstored
      split at hstored <;> omega
    rw [unitAt_copied hcopy below' dst (by omega)]
    exact (Variable.isValid_iff.mp hvalid).1
  rcases variableCopy_cases below Variable.zero (v.copied below' dst) with heq | heq | ⟨-, heq⟩
  · rw [heq] at hdata
    exact absurd rfl hdata
  · rw [heq] at hdata
    exact absurd rfl hdata
  · rw [heq]
    exact Key.stored_ne_zero (k := (v.copied below' dst).key) hne hlt hhead below

end Named

theorem saved_named {f : Fronts} {s : Storage} {nonvolatile : Bool}
    (hcopy : ∀ i, (s.vars i).isValid = true → (s.vars i).Copyable) :
    ∀ w ∈ saved f s nonvolatile, w.data ≠ [] → w.namesz ≠ 0 := by
  intro w hw hdata
  cases nonvolatile with
  | false =>
      obtain ⟨i, hi, b, rfl⟩ := mem_copies hw
      have hvalid := (mem_innerSlots hi).2
      exact namesz_copied_ne hvalid (hcopy i hvalid) b _
  | true =>
      obtain ⟨i, hi, -, b, b', dst, rfl⟩ := mem_copiesNonvolatile hw
      have hvalid := (mem_innerSlots hi).2
      exact namesz_variableCopy_ne hvalid (hcopy i hvalid) b b' dst hdata

end Uefistored
