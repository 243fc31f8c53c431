/-
# `Uefistored.Outgoing` — the list of variables that is sent, for any store

What `variable_list_bytes` makes of the non-volatile variables of an arbitrary
store.  `retrieve_nonvolatile_vars` stops at the first valid slot that cannot be
copied, whether it is volatile or not, and at the last slot; what it has until
then is taken for all of them (`walk_nonvolatile`).  On the way two copies and
the reader may each cut a NUL unit off a name.

The list that is handed out is read as all non-volatile variables of the store
exactly when the walk reaches each of them and each has a name that keeps its
size: `Storage.Complete.carries` and `complete_of_carries`.
-/
import Uefistored.SaveFile

namespace Uefistored

open Lib

/-! ## How far the walk gets -/

/-- The slot is copied, and the walk goes on behind it. -/
def Storage.passes (s : Storage) (i : Fin MAX_VAR_COUNT) : Bool :=
  decide (i ≠ lastSlot ∧ (s.vars i).Copyable)

/-- The valid slots in front of the one that ends the walk. -/
def reachedSlots (s : Storage) : List (Fin MAX_VAR_COUNT) :=
  (Slots.indices s.vars Variable.isValid).takeWhile s.passes

/-- That one, and the valid slots behind it. -/
def unreachedSlots (s : Storage) : List (Fin MAX_VAR_COUNT) :=
  (Slots.indices s.vars Variable.isValid).dropWhile s.passes

/-- A slot in use that is not the last one, where every slot in use up to it can be copied. -/
structure Storage.Reached (s : Storage) (i : Fin MAX_VAR_COUNT) : Prop where
  valid : (s.vars i).isValid = true
  inner : i ≠ lastSlot
  copyable : ∀ k ≤ i, (s.vars k).isValid = true → (s.vars k).Copyable

/-- What `retrieve_nonvolatile_vars` returns. -/
def outgoing (f : Fronts) (s : Storage) : List Variable :=
  copiesNonvolatile f s 0 Variable.zero f.vars (reachedSlots s)

section
variable {f : Fronts} {s : Storage}

theorem indices_eq_reached (s : Storage) :
    Slots.indices s.vars Variable.isValid = reachedSlots s ++ unreachedSlots s :=
  List.takeWhile_append_dropWhile.symm

theorem mem_reachedSlots {i : Fin MAX_VAR_COUNT} : i ∈ reachedSlots s ↔ s.Reached i := by
  rw [reachedSlots, Slots.mem_takeWhile_iff (Slots.indices_pairwise _ _), Slots.mem_indices]
  constructor
  · rintro ⟨hvalid, hall⟩
    have hpass : ∀ k ≤ i, (s.vars k).isValid = true → k ≠ lastSlot ∧ (s.vars k).Copyable :=
      fun k hle hk => of_decide_eq_true (hall k (Slots.mem_indices.mpr hk) hle)
    exact ⟨hvalid, (hpass i le_rfl hvalid).1, fun k hle hk => (hpass k hle hk).2⟩
  · rintro ⟨hvalid, hinner, hcopy⟩
    refine ⟨hvalid, fun k hk hle => decide_eq_true ⟨?_, hcopy k hle (Slots.mem_indices.mp hk)⟩⟩
    rintro rfl
    exact hinner (Fin.last_le_iff.mp hle)

theorem Storage.Reached.walked {i : Fin MAX_VAR_COUNT} (h : s.Reached i) : Walked s i := by
  have hlt : i.val < 127 := Fin.lt_last_iff_ne_last.mpr h.inner
  exact ⟨Nat.succ_lt_succ hlt, h.valid, h.copyable i le_rfl h.valid⟩

theorem reachedSlots_walked : ∀ i ∈ reachedSlots s, Walked s i :=
  fun _ hi => (mem_reachedSlots.mp hi).walked

/-- Whatever ends the walk, the variables so far are returned. -/
theorem walk_nonvolatile (f : Fronts) (s : Storage) :
    ∃ failed, walk f s true = some ⟨outgoing f s, 0, failed⟩ := by
  obtain ⟨index, tmp, happend⟩ := gatherNonvolatile_append (f := f) 0 Variable.zero []
    (unreachedSlots s) reachedSlots_walked
  rw [walk_eq, if_pos rfl, indices_eq_reached, happend, List.nil_append,
    show f.next [] = f.vars from rfl]
  cases hrest : unreachedSlots s with
  | nil => exact ⟨false, rfl⟩
  | cons j rest =>
      have hj := List.head?_dropWhile_not s.passes (Slots.indices s.vars Variable.isValid)
      rw [show List.dropWhile _ _ = j :: rest from hrest] at hj
      unfold gatherNonvolatile
      dsimp only
      split
      · exact ⟨true, rfl⟩
      · rename_i hret
        -- the copy succeeded, so it is the last slot
        have hvalid : (s.vars j).isValid = true := by
          refine Slots.mem_indices.mp ?_
          rw [indices_eq_reached, hrest]
          exact List.mem_append_right _ List.mem_cons_self
        have hcopy : (s.vars j).Copyable := by
          by_contra hfail
          exact hret (variableCopy_neg _ _ (Variable.namesz_of_isValid hvalid) hfail)
        have hlast : j = lastSlot := by
          by_contra hne
          exact of_decide_eq_false hj ⟨hne, hcopy⟩
        subst hlast
        exact ⟨false, rfl⟩

theorem outgoing_eq_nil_iff :
    outgoing f s = [] ↔ ∀ i, s.Reached i → (s.vars i).attrs.nonVolatile = false := by
  rw [outgoing, copiesNonvolatile_eq_nil]
  exact forall_congr' (fun i => by rw [mem_reachedSlots])

theorem outgoing_modest : ∀ w ∈ outgoing f s, w.Modest := copiesNonvolatile_modest _ _ _

theorem length_outgoing (f : Fronts) (s : Storage) : (outgoing f s).length ≤ 128 := by
  have hlt := length_indices_lt s Variable.isValid
  have hmax : MAX_VAR_COUNT = 128 := rfl
  have hle : (reachedSlots s).length ≤ (Slots.indices s.vars Variable.isValid).length :=
    (List.takeWhile_prefix _).length_le
  rw [outgoing, length_copiesNonvolatile]
  exact (List.length_filter_le _ _).trans (by omega)

theorem listSize_outgoing (f : Fronts) (s : Storage) :
    listSize (outgoing f s) = 24 + ((outgoing f s).map variableSize).sum ∧
      listSize (outgoing f s) < 2 ^ 24 := by
  have hlen := length_outgoing f s
  have hsize := listSize_eq (fun w hw => (outgoing_modest (f := f) (s := s) w hw).variableSize.2)
    hlen
  exact ⟨hsize.1, by omega⟩

/-- The block, where there is something to put into it. -/
theorem blob_outgoing (hne : outgoing f s ≠ []) : variableListBlob f s true =
    (serializeVariableList (listSize (outgoing f s)) (outgoing f s)).map
      (fun out => some ⟨listSize (outgoing f s), out.2⟩) := by
  obtain ⟨failed, hwalk⟩ := walk_nonvolatile f s
  exact blob_of_walk hwalk hne outgoing_modest (length_outgoing f s)

theorem blob_outgoing_nil (hnil : outgoing f s = []) : variableListBlob f s true = some none := by
  obtain ⟨failed, hwalk⟩ := walk_nonvolatile f s
  exact blob_of_nil hwalk hnil

theorem outgoing_named : ∀ w ∈ outgoing f s, w.data ≠ [] → w.namesz ≠ 0 := by
  intro w hw hdata
  obtain ⟨i, hi, -, b, b', dst, rfl⟩ := mem_copiesNonvolatile hw
  obtain ⟨-, hvalid, hcopy⟩ := reachedSlots_walked i hi
  exact namesz_variableCopy_ne hvalid hcopy b b' dst hdata

end

/-! ## The variables that are missing -/

/-- The walk reaches every non-volatile variable, and every name keeps its size. -/
def Storage.Complete (s : Storage) : Prop :=
  ∀ i, (s.vars i).isValid = true → (s.vars i).attrs.nonVolatile = true →
    s.Reached i ∧ (s.vars i).Kept

section
variable {f : Fronts} {s : Storage}

/-- In a store that only names without NUL units were written to, only the last slot can be
missed. -/
theorem Storage.Tidy.complete (h : s.Tidy)
    (hlast : ((s.vars lastSlot).isValid && asked true (s.vars lastSlot)) = false) :
    s.Complete := by
  intro i hvalid hnv
  refine ⟨⟨hvalid, ?_, fun _ _ hk => (h.kept hk).copyable⟩, h.kept hvalid⟩
  rintro rfl
  rw [hvalid, asked, hnv] at hlast
  cases hlast

theorem variables_eq_reached (s : Storage) : s.variables.filter (asked true) =
    ((reachedSlots s).map s.vars).filter (asked true) ++
      ((unreachedSlots s).map s.vars).filter (asked true) := by
  rw [Storage.variables, indices_eq_reached, List.map_append, List.filter_append]

/-- No non-volatile variable is missing exactly when all of them are reached. -/
theorem unreached_eq_nil_iff : ((unreachedSlots s).map s.vars).filter (asked true) = [] ↔
    ∀ i, (s.vars i).isValid = true → (s.vars i).attrs.nonVolatile = true → s.Reached i := by
  rw [List.filter_eq_nil_iff, List.forall_mem_map]
  constructor
  · intro hnone i hvalid hnv
    have hi : i ∈ Slots.indices s.vars Variable.isValid := Slots.mem_indices.mpr hvalid
    rw [indices_eq_reached] at hi
    rcases List.mem_append.mp hi with hi | hi
    · exact mem_reachedSlots.mp hi
    · exact absurd hnv (hnone i hi)
  · intro hall i hi hnv
    have horder := Slots.indices_pairwise s.vars Variable.isValid
    have hmem : i ∈ Slots.indices s.vars Variable.isValid := by
      rw [indices_eq_reached]
      exact List.mem_append_right _ hi
    have hreached := hall i (Slots.mem_indices.mp hmem) hnv
    rw [indices_eq_reached] at horder
    exact lt_irrefl i
      ((List.pairwise_append.mp horder).2.2 i (mem_reachedSlots.mpr hreached) i hi)

theorem Storage.Complete.variables_eq (h : s.Complete) : s.variables.filter (asked true) =
    ((reachedSlots s).map s.vars).filter (asked true) := by
  rw [variables_eq_reached, unreached_eq_nil_iff.mpr (fun i hi hnv => (h i hi hnv).1),
    List.append_nil]

theorem Storage.Complete.outgoing_same (h : s.Complete) (f : Fronts) :
    List.Forall₂ Variable.SameContents (s.variables.filter (asked true)) (outgoing f s) := by
  rw [h.variables_eq]
  exact copiesNonvolatile_same 0 Variable.zero f.vars
    (fun i hi hnv => (h i (mem_reachedSlots.mp hi).valid hnv).2)

theorem Storage.Complete.kept (h : s.Complete) : ∀ v ∈ s.variables.filter (asked true), v.Kept := by
  intro v hv
  obtain ⟨hmem, hnv⟩ := List.mem_filter.mp hv
  obtain ⟨i, hi, rfl⟩ := List.mem_map.mp hmem
  exact (h i (Slots.mem_indices.mp hi) hnv).2

theorem forall_kept_of_same {vs ws : List Variable}
    (h : List.Forall₂ Variable.SameContents vs ws) (hvs : ∀ v ∈ vs, v.Kept) :
    ∀ w ∈ ws, w.Kept := by
  induction h with
  | nil => exact List.forall_mem_nil _
  | cons hv _ ih =>
      rw [List.forall_mem_cons] at hvs ⊢
      exact ⟨hv.kept hvs.1, ih hvs.2⟩

/-- The size of the list, by the variables in the store. -/
theorem Storage.Complete.listSize_eq (h : s.Complete) (f : Fronts) :
    listSize (outgoing f s) = savedSize s true := by
  have hlast : ¬ ((s.vars lastSlot).isValid && asked true (s.vars lastSlot)) = true := by
    intro hlast
    obtain ⟨hvalid, hnv⟩ := Bool.and_eq_true_iff.mp hlast
    exact (h lastSlot hvalid hnv).1.inner rfl
  have hinner := variables_eq_inner s true
  rw [if_neg hlast, List.append_nil] at hinner
  rw [(listSize_outgoing f s).1, map_variableSize_same h.kept (h.outgoing_same f), hinner,
    savedSize]

end

/-! ## The list as the reader gets it -/

/-- The bytes are those of all non-volatile variables of the store. -/
def Carries (bytes : List UInt8) (s : Storage) : Prop :=
  ∀ front, ∃ vars, fromBytesToVars front MAX_VAR_COUNT bytes = some (.ok vars) ∧
    List.Forall₂ Variable.SameContents (s.variables.filter (asked true)) vars

section
variable {f : Fronts} {s : Storage}

theorem Storage.Complete.carries (h : s.Complete) (hne : outgoing f s ≠ []) :
    ∃ bytes, variableListBlob f s true = some (some ⟨bytes.length, bytes⟩) ∧
      bytes.length = savedSize s true ∧ Carries bytes s := by
  have hkept := forall_kept_of_same (h.outgoing_same f) h.kept
  have hlen := length_outgoing f s
  obtain ⟨hser, hsize, -⟩ := serialize_kept (n := MAX_VAR_COUNT) hlen hkept 0 hlen
  refine ⟨_, ?_, hsize.trans (h.listSize_eq f), fun front => ?_⟩
  · rw [blob_outgoing hne, hser, hsize]
    rfl
  · obtain ⟨-, -, vars, hread, hsame⟩ := serialize_kept (n := MAX_VAR_COUNT) hlen hkept front hlen
    exact ⟨vars, hread, Variable.SameContents.trans_all (h.outgoing_same f)
      (hsame.imp fun _ _ hvw => hvw.contents)⟩

/-- The entry is a copy of a copy. -/
def Variable.CopiedAs (v w : Variable) : Prop :=
  ∃ b b' dst, w = (variableCopy b Variable.zero (v.copied b' dst)).2

theorem copiesNonvolatile_copied : ∀ (l : List (Fin MAX_VAR_COUNT)) (index : Nat) (tmp : Variable)
    (below : UInt16), List.Forall₂ Variable.CopiedAs ((l.map s.vars).filter (asked true))
      (copiesNonvolatile f s index tmp below l)
  | [], _, _, _ => .nil
  | i :: l, index, tmp, below => by
      rw [List.map_cons, copiesNonvolatile, List.filter_cons, asked, Bool.not_true, Bool.false_or]
      split
      · exact .cons ⟨below, _, tmp, rfl⟩ (copiesNonvolatile_copied l _ _ _)
      · exact copiesNonvolatile_copied l _ _ _

theorem Key.stored_cases (k : Key) (below : UInt16) :
    k.stored below = k.namesz ∨ k.stored below = sub64 k.namesz 2 := by
  unfold Key.stored
  split
  · exact .inr rfl
  · exact .inl rfl

/-- Nothing is added to a size of at least one unit. -/
theorem Key.stored_le {k : Key} (h2 : 2 ≤ k.namesz) (hlt : k.namesz < 2 ^ 64) (below : UInt16) :
    k.stored below ≤ k.namesz := by
  rcases k.stored_cases below with heq | heq
  · exact heq.le
  · rw [heq, sub64_of_le h2 hlt]
    exact Nat.sub_le _ _

/-- A size of one byte that is still in range is that size. -/
theorem Key.stored_one {k : Key} (h1 : k.namesz = 1) {below : UInt16}
    (h : k.stored below ≤ MAX_VARIABLE_NAME_SIZE) : k.stored below = 1 := by
  have hmax : MAX_VARIABLE_NAME_SIZE = 256 := rfl
  rcases k.stored_cases below with heq | heq
  · exact heq.trans h1
  · rw [heq, h1, sub64_of_lt (by decide) (by decide)] at h
    omega

/-- A copy with data is a copy of the whole variable. -/
theorem variableCopy_of_data {below : UInt16} {v : Variable} (h0 : v.namesz ≠ 0)
    (hcopy : v.data ≠ [] ∧ v.datasz ≤ MAX_VARIABLE_DATA_SIZE)
    (hdata : (variableCopy below Variable.zero v).2.data ≠ []) :
    v.Copyable ∧ (variableCopy below Variable.zero v).2 = v.copied below Variable.zero := by
  have hname : v.namesz ≤ MAX_VARIABLE_NAME_SIZE := by
    by_contra hlong
    refine hdata ?_
    unfold variableCopy variableSetName
    rw [if_pos (Nat.not_le.mp hlong)]
    rfl
  exact ⟨⟨hname, hcopy⟩, congrArg Prod.snd (variableCopy_eq below Variable.zero h0 ⟨hname, hcopy⟩)⟩

/-- A name that has its size behind two copies and the reader keeps it. -/
theorem kept_of_copiedAs {v w : Variable} (hvalid : v.isValid = true) (hcopy : v.Copyable)
    (hw : v.CopiedAs w) (hmodest : w.Modest) (hdata : w.data ≠ [])
    (hfits : w.namesz ≤ MAX_VARIABLE_NAME_SIZE) (hsize : (w.reloaded 0).namesz = v.namesz) :
    v.Kept := by
  have hmax : MAX_VARIABLE_NAME_SIZE = 256 := rfl
  obtain ⟨b, b', dst, rfl⟩ := hw
  obtain ⟨hcopy', heq⟩ := variableCopy_of_data (namesz_copied_ne hvalid hcopy b' dst) hcopy.2 hdata
  rw [heq] at hmodest hdata hfits hsize
  by_cases h2 : 2 ≤ v.namesz
  · obtain ⟨hvalid', -, h2'⟩ := copied_valid hvalid hcopy h2 b' dst
    obtain ⟨-, -, h2''⟩ := copied_valid hvalid' hcopy' h2' b Variable.zero
    have hsz := namesz_copied hcopy h2 b' dst
    have hsz' := namesz_copied hcopy' h2' b Variable.zero
    have hle := (trim_range hvalid h2).2
    have hle' := (trim_range hvalid' h2').2
    have hread : (((v.copied b' dst).copied b Variable.zero).reloaded 0).namesz ≤
        ((v.copied b' dst).copied b Variable.zero).namesz :=
      Key.stored_le (k := ⟨nameArray _, _, _⟩) h2''
        (show ((v.copied b' dst).copied b Variable.zero).namesz < 2 ^ 64 by omega) 0
    -- the three sizes only fall, and the last is the first
    have hkept := kept_of_reloaded hfits hdata hmodest (by omega)
    have hfix : v.trim v.namesz = v.namesz := by omega
    have hlast := ((kept_copied_copied_iff hvalid hcopy h2 b' b dst Variable.zero).mp hkept).2
    rw [Function.iterate_fixed hfix] at hlast
    exact ⟨⟨h2, hcopy.1⟩, hlast, hkept.data⟩
  · -- one byte: the reader, which has a NUL unit in front of the name, makes it `-1`
    have h0 := Variable.namesz_of_isValid hvalid
    have h1 : v.namesz = 1 := by omega
    have h1' : (v.copied b' dst).namesz = 1 := Key.stored_one (k := v.key) h1 hcopy'.1
    have h1'' : ((v.copied b' dst).copied b Variable.zero).namesz = 1 :=
      Key.stored_one (k := (v.copied b' dst).key) h1' hfits
    have hkept := kept_of_reloaded hfits hdata hmodest (by rw [hsize, h1, h1''])
    have hname := hkept.name.1
    omega

theorem forall₂_chain {α β γ : Type} {R : α → β → Prop} {S : β → γ → Prop} {T : α → γ → Prop}
    {as : List α} {bs : List β} {cs : List γ} (hR : List.Forall₂ R as bs)
    (hS : List.Forall₂ S bs cs) (hT : List.Forall₂ T as cs) :
    ∀ a ∈ as, ∃ b ∈ bs, ∃ c, R a b ∧ S b c ∧ T a c := by
  induction hR generalizing cs with
  | nil => exact List.forall_mem_nil _
  | cons hab _ ih =>
      cases hS with
      | cons hbc hS =>
          cases hT with
          | cons hac hT =>
              refine List.forall_mem_cons.mpr ⟨⟨_, List.mem_cons_self, _, hab, hbc, hac⟩, ?_⟩
              intro a ha
              obtain ⟨b, hb, hrel⟩ := ih hS hT a ha
              exact ⟨b, List.mem_cons_of_mem _ hb, hrel⟩

/-- A list that is read as all non-volatile variables left none out and cut no name. -/
theorem complete_of_carries {bytes : List UInt8}
    (hblob : variableListBlob f s true = some (some ⟨bytes.length, bytes⟩))
    (h : Carries bytes s) : s.Complete := by
  have hne : outgoing f s ≠ [] := by
    intro hnil
    rw [blob_outgoing_nil hnil] at hblob
    cases hblob
  rw [blob_outgoing hne] at hblob
  obtain ⟨⟨ret, written⟩, hser, hblob⟩ := Option.map_eq_some_iff.mp hblob
  obtain ⟨hfull, rfl⟩ := Blob.mk.inj (Option.some.inj hblob)
  obtain ⟨vars, hread, hall⟩ := h 0
  obtain ⟨hreload, hentries⟩ := reloaded_of_read outgoing_modest (length_outgoing f s)
    outgoing_named hser hfull.symm hread
  have hcopied : List.Forall₂ Variable.CopiedAs
      (((reachedSlots s).map s.vars).filter (asked true)) (outgoing f s) :=
    copiesNonvolatile_copied _ _ _ _
  -- there are as many entries as variables that are reached
  have hlen := hall.length_eq
  rw [← hreload.length_eq, ← hcopied.length_eq, variables_eq_reached, List.length_append] at hlen
  have hnil : ((unreachedSlots s).map s.vars).filter (asked true) = [] :=
    List.eq_nil_of_length_eq_zero (by omega)
  have hreached := unreached_eq_nil_iff.mp hnil
  rw [variables_eq_reached, hnil, List.append_nil] at hall
  intro i hvalid hnv
  have hi := hreached i hvalid hnv
  have hmem : s.vars i ∈ ((reachedSlots s).map s.vars).filter (asked true) :=
    List.mem_filter.mpr ⟨List.mem_map_of_mem (mem_reachedSlots.mpr hi), hnv⟩
  obtain ⟨w, hw, c, hcopy, rfl, hsame⟩ := forall₂_chain hcopied hreload hall _ hmem
  exact ⟨hi, kept_of_copiedAs hvalid (hi.copyable i le_rfl hvalid) hcopy (outgoing_modest w hw)
    (hentries w hw).1 (hentries w hw).2 hsame.namesz⟩

end

end Uefistored
