/-
# `Uefistored.Walk` — what a save finds in the store

`retrieve_vars` and `retrieve_nonvolatile_vars` call `storage_iter` until it
reports the end.  `storage_iter` keeps a static index, moves it behind the slot
it copies, and takes an index at the end for the end of the variables: the
variable in the last slot is copied and then reported as `EFI_NOT_FOUND`.

The loops are first brought into a form that runs over the valid slots, in slot
order, instead of over an index (`walk_eq`); this holds of every store.  In a
store that only names without NUL units were written to every copy succeeds and
is the variable it was copied from.  `retrieves_iff`: the walk returns every
variable, in order and once, exactly when the last slot holds none that it is
asked for; and the index is back at 0 in any case.
-/
import Uefistored.Rebuild

namespace Uefistored

open Lib

/-! ## Copies -/

/-- `variable_copy` of a slot in use does not fail. -/
def Variable.Copyable (v : Variable) : Prop :=
  v.namesz ≤ MAX_VARIABLE_NAME_SIZE ∧ v.data ≠ [] ∧ v.datasz ≤ MAX_VARIABLE_DATA_SIZE

instance (v : Variable) : Decidable v.Copyable := inferInstanceAs (Decidable (_ ∧ _ ∧ _))

/-- The copy of a variable over another. -/
def Variable.copied (v : Variable) (below : UInt16) (dst : Variable) : Variable :=
  { dst with
    name := dst.name.overwrite v.name.bytes v.namesz, namesz := v.key.stored below,
    data := v.data, guid := v.guid, attrs := v.attrs }

theorem variableCopy_eq (below : UInt16) (dst : Variable) {v : Variable} (h0 : v.namesz ≠ 0)
    (h : v.Copyable) : variableCopy below dst v = (0, v.copied below dst) := by
  obtain ⟨hname, hne, hdata⟩ := h
  unfold variableCopy
  rw [show v.name = v.key.name from rfl, show v.namesz = v.key.namesz from rfl,
    variableSetName_eq below dst v.key h0 hname]
  dsimp only
  rw [variableSetData_replace hne hdata]
  rfl

theorem variableCopy_neg (below : UInt16) (dst : Variable) {v : Variable} (h0 : v.namesz ≠ 0)
    (h : ¬ v.Copyable) : (variableCopy below dst v).1 < 0 := by
  unfold variableCopy
  by_cases hname : v.namesz ≤ MAX_VARIABLE_NAME_SIZE
  · rw [show v.name = v.key.name from rfl, show v.namesz = v.key.namesz from rfl,
      variableSetName_eq below dst v.key h0 hname]
    dsimp only
    by_cases hne : v.data = []
    · have hlen : v.data.length = 0 := by rw [hne]; rfl
      simp only [variableSetData, if_pos hlen]
      decide
    · have hlen : ¬ v.data.length = 0 := fun hz => hne (List.eq_nil_of_length_eq_zero hz)
      have hlong : v.data.length > MAX_VARIABLE_DATA_SIZE := by
        by_contra hle
        exact h ⟨hname, hne, Nat.not_lt.mp hle⟩
      simp only [variableSetData, if_neg hlen, if_pos hlong]
      decide
  · simp only [variableSetName, if_pos (Nat.not_le.mp hname)]
    decide

theorem Variable.namesz_of_isValid {v : Variable} (h : v.isValid = true) : v.namesz ≠ 0 := by
  intro h0
  rw [Variable.isValid, h0] at h
  simp at h

/-! ## The loops over the valid slots -/

theorem iterSlots_eq (below : UInt16) (s : Storage) (var : Variable) :
    ∀ l : List (Fin MAX_VAR_COUNT), iterSlots below s var l =
      match l.find? (fun i => (s.vars i).isValid) with
      | none => (0, MAX_VAR_COUNT, var)
      | some i => ((variableCopy below var (s.vars i)).1, i.val + 1,
          (variableCopy below var (s.vars i)).2)
  | [] => rfl
  | i :: l => by
      unfold iterSlots
      cases hv : (s.vars i).isValid with
      | false =>
          rw [List.find?_cons_of_neg (by rw [hv]; exact Bool.false_ne_true)]
          exact iterSlots_eq below s var l
      | true =>
          rw [List.find?_cons_of_pos (p := fun i => (s.vars i).isValid) hv]
          rfl

/-- `storage_iter`, with the search as one step. -/
theorem storageIter_eq (below : UInt16) (s : Storage) (index : Nat) (var : Variable) :
    storageIter below s index var =
      match Slots.firstFrom s.vars Variable.isValid index with
      | none => (.notFound, 0, var)
      | some i =>
        if (variableCopy below var (s.vars i)).1 < 0 then
          (.deviceError, 0, (variableCopy below var (s.vars i)).2)
        else if i.val + 1 ≥ MAX_VAR_COUNT then
          (.notFound, 0, (variableCopy below var (s.vars i)).2)
        else (.success, i.val + 1, (variableCopy below var (s.vars i)).2) := by
  unfold storageIter
  rw [iterSlots_eq, show ((List.finRange MAX_VAR_COUNT).drop index).find?
    (fun i => (s.vars i).isValid) = Slots.firstFrom s.vars Variable.isValid index from rfl]
  cases Slots.firstFrom s.vars Variable.isValid index with
  | none => rfl
  | some i => rfl

/-- `retrieve_vars`, run over the valid slots that are still ahead. -/
def gather (f : Fronts) (s : Storage) : List Variable → List (Fin MAX_VAR_COUNT) → Retrieved
  | vars, [] => ⟨vars, 0, false⟩
  | vars, i :: rest =>
    match variableCopy (f.next vars) Variable.zero (s.vars i) with
    | (ret, next) =>
      if ret < 0 then
        ⟨(vars ++ next :: List.replicate (MAX_VAR_COUNT - vars.length - 1) Variable.zero).take
          (EfiStatus.deviceError.code % 2 ^ 32), 0, true⟩
      else if i.val + 1 ≥ MAX_VAR_COUNT then ⟨vars, 0, false⟩
      else gather f s (vars ++ [next]) rest

/-- `retrieve_nonvolatile_vars`, likewise. -/
def gatherNonvolatile (f : Fronts) (s : Storage) :
    Nat → Variable → List Variable → List (Fin MAX_VAR_COUNT) → Retrieved
  | _, _, vars, [] => ⟨vars, 0, false⟩
  | index, tmp, vars, i :: rest =>
    match variableCopy (f.tmp index) tmp (s.vars i) with
    | (ret, tmp) =>
      if ret < 0 then ⟨vars, 0, true⟩
      else if i.val + 1 ≥ MAX_VAR_COUNT then ⟨vars, 0, false⟩
      else if tmp.attrs.nonVolatile then
        gatherNonvolatile f s (i.val + 1) Variable.zero
          (vars ++ [(variableCopy (f.next vars) Variable.zero tmp).2]) rest
      else gatherNonvolatile f s (i.val + 1) tmp vars rest

section Gather

variable {f : Fronts} {s : Storage}

/-- The array is never full: it has an entry for every slot, and the last slot gives none. -/
theorem retrieveVars_eq_gather : ∀ (rest : List (Fin MAX_VAR_COUNT)) {fuel index : Nat}
    {vars : List Variable}, Slots.Ahead s.vars Variable.isValid index rest →
    vars.length ≤ index → index < MAX_VAR_COUNT → rest.length < fuel →
    retrieveVars f s MAX_VAR_COUNT fuel index vars = some (gather f s vars rest)
  | _, 0, _, _, _, _, _, hfuel => absurd hfuel (Nat.not_lt_zero _)
  | [], fuel + 1, index, vars, hahead, hlen, hidx, _ => by
      unfold retrieveVars
      rw [if_neg (by omega), storageIter_eq, show Slots.firstFrom _ _ _ = none from hahead]
      rfl
  | i :: rest, fuel + 1, index, vars, ⟨hfirst, hrest⟩, hlen, hidx, hfuel => by
      have hle : index ≤ i.val := (Slots.firstFrom_eq_some_iff.mp hfirst).2.1
      unfold retrieveVars gather
      rw [if_neg (by omega), storageIter_eq, hfirst]
      dsimp only
      generalize variableCopy (f.next vars) Variable.zero (s.vars i) = r
      obtain ⟨ret, next⟩ := r
      dsimp only
      by_cases hret : ret < 0
      · rw [if_pos hret, if_pos hret]
      · rw [if_neg hret, if_neg hret]
        by_cases hend : i.val + 1 ≥ MAX_VAR_COUNT
        · rw [if_pos hend, if_pos hend]
        · rw [if_neg hend, if_neg hend]
          refine retrieveVars_eq_gather rest hrest ?_ (Nat.not_le.mp hend) ?_
          · rw [List.length_append, List.length_singleton]
            omega
          · rw [List.length_cons] at hfuel
            omega

theorem retrieveNonvolatileVars_eq_gather : ∀ (rest : List (Fin MAX_VAR_COUNT))
    {fuel index : Nat} {tmp : Variable} {vars : List Variable},
    Slots.Ahead s.vars Variable.isValid index rest →
    vars.length ≤ index → index < MAX_VAR_COUNT → rest.length < fuel →
    retrieveNonvolatileVars f s MAX_VAR_COUNT fuel index tmp vars =
      some (gatherNonvolatile f s index tmp vars rest)
  | _, 0, _, _, _, _, _, _, hfuel => absurd hfuel (Nat.not_lt_zero _)
  | [], fuel + 1, index, tmp, vars, hahead, hlen, hidx, _ => by
      unfold retrieveNonvolatileVars
      rw [if_neg (by omega), storageIter_eq, show Slots.firstFrom _ _ _ = none from hahead]
      rfl
  | i :: rest, fuel + 1, index, tmp, vars, ⟨hfirst, hrest⟩, hlen, hidx, hfuel => by
      have hle : index ≤ i.val := (Slots.firstFrom_eq_some_iff.mp hfirst).2.1
      rw [List.length_cons] at hfuel
      unfold retrieveNonvolatileVars gatherNonvolatile
      rw [if_neg (by omega), storageIter_eq, hfirst]
      dsimp only
      generalize variableCopy (f.tmp index) tmp (s.vars i) = r
      obtain ⟨ret, next⟩ := r
      dsimp only
      by_cases hret : ret < 0
      · rw [if_pos hret, if_pos hret]
        rfl
      · rw [if_neg hret, if_neg hret]
        by_cases hend : i.val + 1 ≥ MAX_VAR_COUNT
        · rw [if_pos hend, if_pos hend]
          rfl
        · rw [if_neg hend, if_neg hend]
          dsimp only
          split
          · refine retrieveNonvolatileVars_eq_gather rest hrest ?_ (Nat.not_le.mp hend) (by omega)
            rw [List.length_append, List.length_singleton]
            omega
          · exact retrieveNonvolatileVars_eq_gather rest hrest (by omega) (Nat.not_le.mp hend)
              (by omega)

theorem length_indices_lt (s : Storage) (p : Variable → Bool) :
    (Slots.indices s.vars p).length < MAX_VAR_COUNT + 1 := by
  have hle : (Slots.indices s.vars p).length ≤ (List.finRange MAX_VAR_COUNT).length :=
    List.length_filter_le _ _
  rw [List.length_finRange] at hle
  omega

/-- The walk goes over the valid slots, in order. -/
theorem walk_eq (f : Fronts) (s : Storage) (nonvolatile : Bool) : walk f s nonvolatile =
    some (if nonvolatile then
        gatherNonvolatile f s 0 Variable.zero [] (Slots.indices s.vars Variable.isValid)
      else gather f s [] (Slots.indices s.vars Variable.isValid)) := by
  have hahead := Slots.ahead_indices s.vars Variable.isValid
  have hlen := length_indices_lt s Variable.isValid
  unfold walk
  split
  · exact retrieveNonvolatileVars_eq_gather _ hahead (Nat.zero_le _) (by decide) hlen
  · exact retrieveVars_eq_gather _ hahead (Nat.zero_le _) (by decide) hlen

end Gather

/-! ## Walks on which every copy succeeds -/

/-- A slot that is copied, and not taken for the end. -/
def Walked (s : Storage) (i : Fin MAX_VAR_COUNT) : Prop :=
  i.val + 1 < MAX_VAR_COUNT ∧ (s.vars i).isValid = true ∧ (s.vars i).Copyable

/-- The entries of `retrieve_vars` for such slots; `below` is the unit in front of the first. -/
def copies (s : Storage) : UInt16 → List (Fin MAX_VAR_COUNT) → List Variable
  | _, [] => []
  | below, i :: l => (s.vars i).copied below Variable.zero :: copies s 0 l

/-- The entries of `retrieve_nonvolatile_vars`, which are copied twice. -/
def copiesNonvolatile (f : Fronts) (s : Storage) :
    Nat → Variable → UInt16 → List (Fin MAX_VAR_COUNT) → List Variable
  | _, _, _, [] => []
  | index, tmp, below, i :: l =>
    if (s.vars i).attrs.nonVolatile then
      (variableCopy below Variable.zero ((s.vars i).copied (f.tmp index) tmp)).2 ::
        copiesNonvolatile f s (i.val + 1) Variable.zero 0 l
    else copiesNonvolatile f s (i.val + 1) ((s.vars i).copied (f.tmp index) tmp) below l

@[simp] theorem Fronts.next_append (f : Fronts) (vars : List Variable) (v : Variable) :
    f.next (vars ++ [v]) = 0 := by
  unfold Fronts.next
  rw [if_neg (List.append_ne_nil_of_right_ne_nil _ (List.cons_ne_nil _ _))]

section Append

variable {f : Fronts} {s : Storage}

theorem gather_append : ∀ {l : List (Fin MAX_VAR_COUNT)} {vars : List Variable}
    (r : List (Fin MAX_VAR_COUNT)), (∀ i ∈ l, Walked s i) →
    gather f s vars (l ++ r) = gather f s (vars ++ copies s (f.next vars) l) r
  | [], vars, _, _ => by rw [copies, List.append_nil, List.nil_append]
  | i :: l, vars, r, h => by
      obtain ⟨hlast, hvalid, hcopy⟩ := h i List.mem_cons_self
      rw [List.cons_append, gather,
        variableCopy_eq _ _ (Variable.namesz_of_isValid hvalid) hcopy]
      dsimp only
      rw [if_neg (by decide), if_neg (Nat.not_le.mpr hlast),
        gather_append r (fun j hj => h j (List.mem_cons_of_mem _ hj)), Fronts.next_append, copies,
        List.append_assoc, List.singleton_append]

theorem gatherNonvolatile_append : ∀ {l : List (Fin MAX_VAR_COUNT)} (index : Nat)
    (tmp : Variable) (vars : List Variable) (r : List (Fin MAX_VAR_COUNT)),
    (∀ i ∈ l, Walked s i) → ∃ index' tmp', gatherNonvolatile f s index tmp vars (l ++ r) =
      gatherNonvolatile f s index' tmp'
        (vars ++ copiesNonvolatile f s index tmp (f.next vars) l) r
  | [], index, tmp, vars, _, _ =>
      ⟨index, tmp, by rw [copiesNonvolatile, List.append_nil, List.nil_append]⟩
  | i :: l, index, tmp, vars, r, h => by
      obtain ⟨hlast, hvalid, hcopy⟩ := h i List.mem_cons_self
      have hrest : ∀ j ∈ l, Walked s j := fun j hj => h j (List.mem_cons_of_mem _ hj)
      rw [List.cons_append, gatherNonvolatile,
        variableCopy_eq _ _ (Variable.namesz_of_isValid hvalid) hcopy, copiesNonvolatile]
      dsimp only
      rw [if_neg (by decide), if_neg (Nat.not_le.mpr hlast),
        show ((s.vars i).copied (f.tmp index) tmp).attrs = (s.vars i).attrs from rfl]
      split
      · obtain ⟨index', tmp', ih⟩ := gatherNonvolatile_append (i.val + 1) Variable.zero
          (vars ++ [(variableCopy (f.next vars) Variable.zero
            ((s.vars i).copied (f.tmp index) tmp)).2]) r hrest
        refine ⟨index', tmp', ?_⟩
        rw [ih, Fronts.next_append, List.append_assoc, List.singleton_append]
      · exact gatherNonvolatile_append _ _ vars r hrest

end Append

/-- The slot behind whose index the walk ends. -/
def lastSlot : Fin MAX_VAR_COUNT := Fin.last 127

/-- The valid slots in front of it. -/
def innerSlots (s : Storage) : List (Fin MAX_VAR_COUNT) :=
  ((List.finRange 127).map Fin.castSucc).filter (fun i => (s.vars i).isValid)

theorem indices_eq_inner (s : Storage) : Slots.indices s.vars Variable.isValid =
    innerSlots s ++ if (s.vars lastSlot).isValid then [lastSlot] else [] :=
  Slots.indices_succ (n := 127) s.vars Variable.isValid

theorem mem_innerSlots {s : Storage} {i : Fin MAX_VAR_COUNT} (h : i ∈ innerSlots s) :
    i.val + 1 < MAX_VAR_COUNT ∧ (s.vars i).isValid = true := by
  obtain ⟨hmem, hvalid⟩ := List.mem_filter.mp h
  obtain ⟨j, -, rfl⟩ := List.mem_map.mp hmem
  exact ⟨Nat.succ_lt_succ j.isLt, hvalid⟩

theorem innerSlots_ne_nil_iff {s : Storage} :
    innerSlots s ≠ [] ↔ ∃ i, i ≠ lastSlot ∧ (s.vars i).isValid = true := by
  rw [ne_eq, List.eq_nil_iff_forall_not_mem, not_forall_not]
  refine exists_congr (fun i => ⟨fun hi => ?_, ?_⟩)
  · obtain ⟨hlt, hvalid⟩ := mem_innerSlots hi
    refine ⟨?_, hvalid⟩
    rintro rfl
    exact absurd hlt (by decide)
  · rintro ⟨hne, hvalid⟩
    have hi : i ∈ Slots.indices s.vars Variable.isValid := Slots.mem_indices.mpr hvalid
    rw [indices_eq_inner] at hi
    rcases List.mem_append.mp hi with hi | hi
    · exact hi
    · split at hi
      · exact absurd (List.mem_singleton.mp hi) hne
      · cases hi

/-- The entries of a walk that comes to its end. -/
def saved (f : Fronts) (s : Storage) (nonvolatile : Bool) : List Variable :=
  if nonvolatile then copiesNonvolatile f s 0 Variable.zero f.vars (innerSlots s)
  else copies s f.vars (innerSlots s)

/-- Every valid slot can be copied: the walk is over all of them but the last. -/
theorem walk_of_copyable {f : Fronts} {s : Storage} {nonvolatile : Bool}
    (h : ∀ i, (s.vars i).isValid = true → (s.vars i).Copyable) :
    walk f s nonvolatile = some ⟨saved f s nonvolatile, 0, false⟩ := by
  have hinner : ∀ i ∈ innerSlots s, Walked s i := by
    intro i hi
    obtain ⟨hlast, hvalid⟩ := mem_innerSlots hi
    exact ⟨hlast, hvalid, h i hvalid⟩
  have hend : ∀ hvalid : (s.vars lastSlot).isValid = true, ∀ below dst,
      variableCopy below dst (s.vars lastSlot) = (0, (s.vars lastSlot).copied below dst) :=
    fun hvalid below dst => variableCopy_eq _ _ (Variable.namesz_of_isValid hvalid) (h _ hvalid)
  rw [walk_eq, indices_eq_inner]
  cases nonvolatile with
  | false =>
      rw [if_neg Bool.false_ne_true, gather_append _ hinner, List.nil_append,
        show f.next [] = f.vars from rfl]
      split
      · rename_i hvalid
        rw [gather, hend hvalid]
        rfl
      · rfl
  | true =>
      obtain ⟨index', tmp', happend⟩ := gatherNonvolatile_append (f := f) 0 Variable.zero []
        (if (s.vars lastSlot).isValid then [lastSlot] else []) hinner
      rw [if_pos rfl, happend, List.nil_append, show f.next [] = f.vars from rfl]
      split
      · rename_i hvalid
        rw [gatherNonvolatile, hend hvalid]
        rfl
      · rfl

/-! ## Stores with names that keep their size -/

theorem Variable.Kept.stored {v : Variable} (h : v.Kept) (below : UInt16) :
    v.key.stored below = v.namesz := by
  have h2 := h.name.1
  have hne : ¬ v.key.namesz / 2 = 0 := by
    show ¬ v.namesz / 2 = 0
    omega
  have hlast : ¬ lastUnit below v.key.name v.key.namesz = 0 := by
    unfold lastUnit
    rw [if_neg hne]
    exact h.last
  unfold Key.stored
  rw [if_neg hlast]
  rfl

theorem Variable.Kept.copyable {v : Variable} (h : v.Kept) : v.Copyable := by
  refine ⟨h.name.2, ?_, h.data.2⟩
  intro hnil
  have h1 := h.data.1
  rw [Variable.datasz, hnil] at h1
  cases h1

/-- Such a name is copied as it is. -/
theorem Variable.Kept.copied {v : Variable} (h : v.Kept) (below : UInt16)
    (dst : Variable) : v.SameContents (v.copied below dst) := by
  have hsz : (v.copied below dst).namesz = v.namesz := h.stored below
  refine ⟨?_, hsz, rfl, rfl, rfl⟩
  rw [Variable.keyBytes, hsz]
  exact Block.overwrite_take _ _ h.name.2

theorem copies_same {s : Storage} : ∀ {l : List (Fin MAX_VAR_COUNT)} (below : UInt16),
    (∀ i ∈ l, (s.vars i).Kept) →
    List.Forall₂ Variable.SameContents (l.map s.vars) (copies s below l)
  | [], _, _ => .nil
  | i :: _, below, h => .cons ((h i List.mem_cons_self).copied below Variable.zero)
      (copies_same 0 (fun j hj => h j (List.mem_cons_of_mem _ hj)))

theorem copiesNonvolatile_same {f : Fronts} {s : Storage} : ∀ {l : List (Fin MAX_VAR_COUNT)}
    (index : Nat) (tmp : Variable) (below : UInt16),
    (∀ i ∈ l, (s.vars i).attrs.nonVolatile = true → (s.vars i).Kept) →
    List.Forall₂ Variable.SameContents
      ((l.map s.vars).filter (fun v => v.attrs.nonVolatile))
      (copiesNonvolatile f s index tmp below l)
  | [], _, _, _, _ => .nil
  | i :: l, index, tmp, below, h => by
      have hrest := fun j hj => h j (List.mem_cons_of_mem _ hj)
      rw [List.map_cons, copiesNonvolatile, List.filter_cons]
      split
      · rename_i hnv
        have hi := h i List.mem_cons_self hnv
        have htmp := hi.copied (f.tmp index) tmp
        have hwell := htmp.kept hi
        have h2 := hwell.name.1
        rw [variableCopy_eq below Variable.zero (by omega) hwell.copyable]
        exact .cons (htmp.trans (hwell.copied below Variable.zero))
          (copiesNonvolatile_same _ _ _ hrest)
      · exact copiesNonvolatile_same _ _ _ hrest

/-- In a store that only names without NUL units were written to, every variable is of such
sizes. -/
theorem Storage.Tidy.kept {s : Storage} (h : s.Tidy) {i : Fin MAX_VAR_COUNT}
    (hi : (s.vars i).isValid = true) : (s.vars i).Kept := by
  have hused := Variable.isFree_of_isValid hi
  obtain ⟨K, hK⟩ := h.named i hused
  obtain ⟨hsz, hbytes, -⟩ := Variable.isMatch_iff.mp hK
  have hlen : (s.vars i).namesz = K.name.length := hsz
  have hkey : (s.vars i).keyBytes = K.name := hbytes.trans K.key_bytes
  have h2 : 2 ≤ K.name.length := K.clean.two_le
  obtain ⟨-, heven, hunits⟩ := K.nulFree
  refine ⟨⟨by omega, ?_⟩, ?_, (h.sized i hused).data⟩
  · rw [hlen]
    exact K.fits
  · rw [← Variable.unitAt_keyBytes (by omega), hkey, hlen]
    exact hunits _ (by omega)

/-- The variables a walk is asked for. -/
def asked (nonvolatile : Bool) (v : Variable) : Bool := !nonvolatile || v.attrs.nonVolatile

/-- The entries are the variables in front of the last slot that are asked for. -/
theorem Storage.Tidy.saved_same {s : Storage} (h : s.Tidy) (f : Fronts) (nonvolatile : Bool) :
    List.Forall₂ Variable.SameContents
      (((innerSlots s).map s.vars).filter (asked nonvolatile)) (saved f s nonvolatile) := by
  have hinner : ∀ i ∈ innerSlots s, (s.vars i).Kept :=
    fun i hi => h.kept (mem_innerSlots hi).2
  cases nonvolatile with
  | false =>
      have hall : ((innerSlots s).map s.vars).filter (asked false) = (innerSlots s).map s.vars :=
        List.filter_eq_self.mpr (fun _ _ => rfl)
      rw [hall]
      exact copies_same f.vars hinner
  | true => exact copiesNonvolatile_same 0 Variable.zero f.vars (fun i hi _ => hinner i hi)

theorem variables_eq_inner (s : Storage) (nonvolatile : Bool) :
    s.variables.filter (asked nonvolatile) =
      ((innerSlots s).map s.vars).filter (asked nonvolatile) ++
        if (s.vars lastSlot).isValid && asked nonvolatile (s.vars lastSlot) then [s.vars lastSlot]
        else [] := by
  rw [Storage.variables, indices_eq_inner, List.map_append, List.filter_append]
  cases (s.vars lastSlot).isValid with
  | false => rfl
  | true =>
      rw [if_pos rfl, List.map_singleton, List.filter_singleton, Bool.true_and, Bool.cond_eq_ite]

/-- The stores that writes under names without NUL units lead to, from an empty one. -/
def Storage.Reachable (s : Storage) : Prop := ∃ front, Writes Key.IsVarKey (.empty front) s

theorem Storage.Reachable.tidy {s : Storage} (h : s.Reachable) : s.Tidy := by
  obtain ⟨front, hw⟩ := h
  exact hw.tidy (Storage.tidy_empty front)

/-- `retrieve_vars`, or its sibling, returns every variable it is asked for, once and in slot
order, and leaves the index at the first slot. -/
def Retrieves (f : Fronts) (s : Storage) (nonvolatile : Bool) : Prop :=
  ∃ vars, walk f s nonvolatile = some ⟨vars, 0, false⟩ ∧
    List.Forall₂ Variable.SameContents (s.variables.filter (asked nonvolatile)) vars

/-- Entries for the slots in front of the last one are entries for all of them exactly when the
last slot holds nothing that is asked for. -/
theorem forall₂_variables_iff {s : Storage} {nonvolatile : Bool} {vars : List Variable}
    (h : List.Forall₂ Variable.SameContents
      (((innerSlots s).map s.vars).filter (asked nonvolatile)) vars) :
    List.Forall₂ Variable.SameContents (s.variables.filter (asked nonvolatile)) vars ↔
      ((s.vars lastSlot).isValid && asked nonvolatile (s.vars lastSlot)) = false := by
  rw [variables_eq_inner]
  constructor
  · intro hall
    -- the lengths tell that nothing is missing
    have hlen := hall.length_eq
    rw [List.length_append, ← h.length_eq] at hlen
    by_contra hlast
    rw [if_pos (by simpa using hlast), List.length_singleton] at hlen
    omega
  · intro hlast
    rw [if_neg (by rw [hlast]; exact Bool.false_ne_true), List.append_nil]
    exact h

theorem Storage.Tidy.retrieves {s : Storage} (h : s.Tidy) (f : Fronts) (nonvolatile : Bool) :
    Retrieves f s nonvolatile ↔
      ((s.vars lastSlot).isValid && asked nonvolatile (s.vars lastSlot)) = false := by
  have hwalk : walk f s nonvolatile = some ⟨saved f s nonvolatile, 0, false⟩ :=
    walk_of_copyable (fun _ hi => (h.kept hi).copyable)
  rw [← forall₂_variables_iff (h.saved_same f nonvolatile)]
  constructor
  · rintro ⟨vars, hvars, hall⟩
    obtain rfl : saved f s nonvolatile = vars :=
      congrArg Retrieved.vars (Option.some.inj (hwalk.symm.trans hvars))
    exact hall
  · exact fun hall => ⟨_, hwalk, hall⟩

/-- The index is back at the first slot in any case; every variable is returned exactly when
the last slot holds none that is asked for. -/
theorem retrieves_iff {s : Storage} (h : s.Reachable) (f : Fronts) (nonvolatile : Bool) :
    (∃ r, walk f s nonvolatile = some r ∧ r.index = 0) ∧
      (Retrieves f s nonvolatile ↔
        ((s.vars lastSlot).isValid && asked nonvolatile (s.vars lastSlot)) = false) :=
  ⟨⟨_, walk_of_copyable (fun _ hi => (h.tidy.kept hi).copyable), rfl⟩,
    h.tidy.retrieves f nonvolatile⟩

/-! ## Stores with many variables -/

/-- The key of the `n`-th variable. -/
def slotKey (n : Nat) : VarKey :=
  ⟨unitName n, Block.zero 16, unitName_nulFree n, show 2 ≤ 256 by decide⟩

theorem slotKey_inj {m n : Nat} (hm : m < 128) (hn : n < 128) (h : slotKey m = slotKey n) :
    m = n :=
  unitName_inj (by omega) (by omega) (congrArg VarKey.name h)

def slotAttrs : Attrs := EFI_VARIABLE_NON_VOLATILE ||| EFI_VARIABLE_BOOTSERVICE_ACCESS

/-- The first `n` slots hold the first `n` variables, with data `d`, and the others nothing. -/
structure Filled (d : List UInt8) (n : Nat) (s : Storage) : Prop where
  reachable : s.Reachable
  slot : ∀ i : Fin MAX_VAR_COUNT, i.val < n → (s.vars i).isMatch (slotKey i.val).key = true ∧
    (s.vars i).data = d ∧ (s.vars i).attrs = slotAttrs
  zero : ∀ i : Fin MAX_VAR_COUNT, n ≤ i.val → s.vars i = Variable.zero

/-- One more variable goes into the first slot that holds nothing. -/
theorem Filled.next {d : List UInt8} {s : Storage} {i : Fin MAX_VAR_COUNT} (h : Filled d i.val s)
    (hne : d ≠ []) (hd : d.length ≤ MAX_VARIABLE_DATA_SIZE) : ∃ s', Filled d (i.val + 1) s' := by
  have htidy := h.reachable.tidy
  have hclean := (slotKey i.val).clean
  have hrem : asksRemoval (some d) slotAttrs = false := by
    have hlen : (dataSize (some d) == 0) = false := by
      rw [beq_eq_false_iff_ne]
      exact fun h0 => hne (List.eq_nil_of_length_eq_zero h0)
    rw [asksRemoval, hlen]
    decide
  have hnone : s.findSlot (slotKey i.val).key = none := by
    refine Slots.first_eq_none_iff.mpr ?_
    intro j
    by_cases hj : j.val < i.val
    · by_contra hmatch
      have hkey := VarKey.eq_of_isMatch (h.slot j hj).1 (Bool.not_eq_false _ ▸ hmatch)
      exact absurd (slotKey_inj j.isLt i.isLt hkey) (Nat.ne_of_lt hj)
    · rw [h.zero j (Nat.not_lt.mp hj)]
      exact Variable.not_isMatch_of_isFree hclean Variable.isFree_zero
  have hfree : s.freeSlot = some i := by
    refine Slots.first_eq_some_iff.mpr ⟨?_, ?_⟩
    · rw [h.zero i (le_refl _)]
      exact Variable.isFree_zero
    · intro j hj
      exact Variable.isFree_of_isMatch (slotKey j.val).clean (h.slot j hj).1
  have hset : storageSet s (slotKey i.val).key (some d) slotAttrs = _ :=
    storageSet_stores htidy hd hrem
  have hcreate := variableCreateNoalloc_eq (s.below i) (s.vars i) (slotKey i.val).key
    slotAttrs.withoutAppend hne hd hclean.named.size hclean.fits
  rw [hnone, hfree] at hset
  dsimp only at hset
  unfold Storage.create at hset
  rw [hcreate] at hset
  refine ⟨(storageSet s (slotKey i.val).key (some d) slotAttrs).2, ?_, ?_, ?_⟩
  · obtain ⟨front, hw⟩ := h.reachable
    exact ⟨front, hw.trans (.single ⟨slotKey i.val, rfl⟩ (.set (some d) slotAttrs))⟩
  · intro j hj
    rw [hset]
    show (Function.update s.vars i _ j).isMatch _ = true ∧ (Function.update s.vars i _ j).data = d ∧
      (Function.update s.vars i _ j).attrs = slotAttrs
    by_cases hji : j = i
    · subst hji
      rw [Function.update_self]
      exact ⟨Variable.isMatch_created hclean (s.vars j) (s.below j) d _, rfl,
        show slotAttrs.withoutAppend = slotAttrs by decide⟩
    · rw [Function.update_of_ne hji]
      refine h.slot j ?_
      have hval : j.val ≠ i.val := fun h => hji (Fin.ext h)
      omega
  · intro j hj
    rw [hset]
    show Function.update s.vars i _ j = Variable.zero
    rw [Function.update_of_ne (fun h => by rw [h] at hj; omega)]
    exact h.zero j (by omega)

theorem exists_filled {d : List UInt8} (hne : d ≠ []) (hd : d.length ≤ MAX_VARIABLE_DATA_SIZE) :
    ∀ {n : Nat}, n ≤ MAX_VAR_COUNT → ∃ s, Filled d n s
  | 0, _ => ⟨.empty 0, ⟨0, .refl _⟩, fun _ hi => absurd hi (Nat.not_lt_zero _), fun _ _ => rfl⟩
  | n + 1, hn => by
      obtain ⟨s, hs⟩ := exists_filled hne hd (Nat.le_of_succ_le hn)
      exact Filled.next (i := ⟨n, hn⟩) hs hne hd

/-- The slots in use are the first ones. -/
theorem Filled.isValid {d : List UInt8} {n : Nat} {s : Storage} (h : Filled d n s)
    (i : Fin MAX_VAR_COUNT) : (s.vars i).isValid = decide (i.val < n) := by
  by_cases hi : i.val < n
  · rw [decide_eq_true hi]
    exact Variable.isValid_of_isMatch (slotKey i.val).clean.named (h.slot i hi).1
  · rw [decide_eq_false hi, h.zero i (Nat.not_lt.mp hi)]
    exact Variable.isValid_zero

theorem Filled.length_variables {d : List UInt8} {n : Nat} {s : Storage} (h : Filled d n s) :
    s.variables.length = ((List.finRange MAX_VAR_COUNT).filter (fun i => decide (i.val < n))).length
    := by
  rw [Storage.variables, List.length_map, Slots.indices]
  exact congrArg (fun p => (List.filter p (List.finRange MAX_VAR_COUNT)).length)
    (funext h.isValid)

/-- Writes one after another, each of them the key's number, the data and the attributes. -/
def putAll (s : Storage) (ws : List (Nat × Option (List UInt8) × Attrs)) : Storage :=
  ws.foldl (fun s w => (storageSet s (slotKey w.1).key w.2.1 w.2.2).2) s

theorem putAll_reachable : ∀ (ws : List (Nat × Option (List UInt8) × Attrs)) {s : Storage},
    s.Reachable → (putAll s ws).Reachable
  | [], _, h => h
  | w :: ws, s, h => by
      obtain ⟨front, hw⟩ := h
      exact putAll_reachable ws
        ⟨front, hw.trans (.single ⟨slotKey w.1, rfl⟩ (.set w.2.1 w.2.2))⟩

/-- A non-volatile variable in slot 0, a hole, a volatile one and another non-volatile one. -/
def holed : Storage :=
  putAll (.empty 0) [(0, some [1], slotAttrs), (1, some [2], slotAttrs),
    (2, some [3, 4], EFI_VARIABLE_BOOTSERVICE_ACCESS), (3, some [5, 6, 7], slotAttrs),
    (1, none, slotAttrs)]

theorem holed_reachable : holed.Reachable := putAll_reachable _ ⟨0, .refl _⟩

/-- All three variables are retrieved, or the two that are not volatile. -/
theorem retrieves_holed : holed.variables.map Variable.datasz = [1, 2, 3] ∧
    (holed.vars 1).isValid = false ∧ ∀ f nonvolatile, Retrieves f holed nonvolatile := by
  refine ⟨by decide +kernel, by decide +kernel, fun f nonvolatile => ?_⟩
  have hlast : (holed.vars lastSlot).isValid = false := by decide +kernel
  refine ((retrieves_iff holed_reachable f nonvolatile).2).mpr ?_
  rw [hlast, Bool.false_and]

/-- A store with a variable in every slot: the last one is not retrieved. -/
theorem not_retrieves_full : ∃ s : Storage, s.Reachable ∧ s.variables.length = 128 ∧
    ∀ f nonvolatile, ¬ Retrieves f s nonvolatile := by
  obtain ⟨s, hs⟩ := exists_filled (d := [1]) (n := 128) (by decide) (by decide) (by decide)
  refine ⟨s, hs.reachable, hs.length_variables.trans (by decide +kernel), fun f nonvolatile h => ?_⟩
  have hlast := (hs.reachable.tidy.retrieves f nonvolatile).mp h
  have hattrs : (s.vars lastSlot).attrs = slotAttrs := (hs.slot lastSlot (by decide)).2.2
  rw [hs.isValid lastSlot, asked, hattrs] at hlast
  cases nonvolatile <;> exact absurd hlast (by decide)

end Uefistored
