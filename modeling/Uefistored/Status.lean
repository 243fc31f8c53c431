/-
# `Uefistored.Status` — what `storage_set` answers, and what is made of it

The status of a write that is no deletion is decided by four questions: are the
sizes within the limits, is the variable there, do the attributes agree, and is
there room, for the longer data or for one more variable.

    the variable is there                                   (`storageSet_found_status`)
    the variable is new                                     (`storageSet_new_status`)

Two of its users read the status for more than it says.  A guest is told by
QueryVariableInfo how much storage remains, a number that has nothing to do with
the slots that are left; a full table and an append that does not fit are
answered `EFI_DEVICE_ERROR` (`roomContract_iff`).  And
`storage_set_with_timestamp` drops the status and stamps whatever it finds
(`stampContract_iff`); for a name of any content it succeeds where the variable is
found again (`storageSetWithTimestamp_success_iff`).
-/
import Uefistored.Occupancy

namespace Uefistored

open Lib

/-! ## The status of a write -/

section
variable {s : Storage} {k : Key} {d : List UInt8} {attrs : Attrs}

theorem storageSet_tooLarge (hlarge : tooLarge s k d.length = true) :
    storageSet s k (some d) attrs = (.outOfResources, s) := by
  unfold storageSet
  exact if_pos hlarge

/-- The tests in front are passed, and the search begins. -/
theorem storageSet_search (hlarge : tooLarge s k d.length = false)
    (hrem : asksRemoval (some d) attrs = false) :
    storageSet s k (some d) attrs =
      match s.findSlot k with
      | some i => s.replace i k d attrs.withoutAppend attrs.append
      | none =>
        match s.freeSlot with
        | some i => s.create i k d attrs.withoutAppend
        | none => (.deviceError, s) := by
  have hlarge' : ¬ tooLarge s k (dataSize (some d)) = true := by
    show ¬ tooLarge s k d.length = true
    rw [hlarge]
    exact Bool.false_ne_true
  have hrem' : ¬ ((dataSize (some d) == 0 && !attrs.append) || attrs == 0) = true := by
    show ¬ asksRemoval (some d) attrs = true
    rw [hrem]
    exact Bool.false_ne_true
  unfold storageSet
  refine (if_neg hlarge').trans ((if_neg hrem').trans ?_)
  rfl

theorem fits_of_not_tooLarge (h : tooLarge s k d.length = false) :
    k.namesz ≤ MAX_VARIABLE_NAME_SIZE ∧ d.length ≤ MAX_VARIABLE_DATA_SIZE := by
  simp only [tooLarge, Bool.or_eq_false_iff, decide_eq_false_iff_not, not_lt] at h
  exact h.1

/-- A variable that is there: the attributes must agree and the data must fit. -/
theorem storageSet_found_status {i : Fin MAX_VAR_COUNT} (hlarge : tooLarge s k d.length = false)
    (hrem : asksRemoval (some d) attrs = false) (h0 : k.namesz ≠ 0) (hd : d ≠ [])
    (hi : s.findSlot k = some i) :
    (storageSet s k (some d) attrs).1 =
      if (s.vars i).attrs ≠ attrs.withoutAppend then .invalidParameter
      else if attrs.append = true ∧ MAX_VARIABLE_DATA_SIZE < (s.vars i).datasz + d.length then
        .deviceError
      else .success := by
  obtain ⟨hname, hdata⟩ := fits_of_not_tooLarge hlarge
  rw [storageSet_search hlarge hrem, hi]
  dsimp only
  unfold Storage.replace
  split
  · rfl
  rw [variableSetName_eq _ _ _ h0 hname]
  dsimp only
  cases happ : attrs.append with
  | false =>
      rw [variableSetData_replace hd hdata]
      simp
  | true =>
      rw [variableSetData_append hd hdata]
      by_cases hsum : MAX_VARIABLE_DATA_SIZE < (s.vars i).datasz + d.length
      · have hsum' : MAX_VARIABLE_DATA_SIZE < Variable.datasz { s.vars i with
            name := (s.vars i).name.overwrite k.name.bytes k.namesz,
            namesz := k.stored (s.below i) } + d.length := hsum
        rw [if_pos hsum', if_pos ⟨rfl, hsum⟩]
        rfl
      · have hsum' : ¬ MAX_VARIABLE_DATA_SIZE < Variable.datasz { s.vars i with
            name := (s.vars i).name.overwrite k.name.bytes k.namesz,
            namesz := k.stored (s.below i) } + d.length := hsum
        rw [if_neg hsum', if_neg (fun h => hsum h.2)]

/-- A new variable: there must be a slot. -/
theorem storageSet_new_status (hlarge : tooLarge s k d.length = false)
    (hrem : asksRemoval (some d) attrs = false) (hd : d ≠ []) (hi : s.findSlot k = none) :
    (storageSet s k (some d) attrs).1 =
      if s.freeSlot = none ∨ k.namesz = 0 then .deviceError else .success := by
  obtain ⟨hname, hdata⟩ := fits_of_not_tooLarge hlarge
  rw [storageSet_search hlarge hrem, hi]
  dsimp only
  cases hf : s.freeSlot with
  | none => simp
  | some i =>
      dsimp only
      unfold Storage.create
      by_cases h0 : k.namesz = 0
      · have hlen : ¬ ((some d).getD []).length = 0 := by simpa using hd
        unfold variableCreateNoalloc
        rw [if_neg hlen, if_pos (.inr h0)]
        simp [variableSetName, h0, MAX_VARIABLE_NAME_SIZE]
      · rw [variableCreateNoalloc_eq _ _ _ _ hd hdata h0 hname]
        simp [h0]

end

/-! ## `storage_set_with_timestamp` -/

/-- What its callers take it to do: it succeeds when the write did, a variable that was
written has the new time stamp, and a variable that was not is as it was. -/
structure StampContract (s : Storage) (k : Key) (d : List UInt8) (attrs : Attrs)
    (time : EfiTime) : Prop where
  status : (storageSetWithTimestamp s k (some d) attrs time).1 = .success ↔
    (storageSet s k (some d) attrs).1 = .success
  stamped : (storageSetWithTimestamp s k (some d) attrs time).1 = .success →
    isDelete attrs d.length = false →
    ∃ v, storageFindVariable (storageSet s k (some d) attrs).2 k = some v ∧
      storageFindVariable (storageSetWithTimestamp s k (some d) attrs time).2 k =
        some { v with timestamp := time }
  unchanged : (storageSet s k (some d) attrs).1 ≠ .success ∨
      (storageSetWithTimestamp s k (some d) attrs time).1 ≠ .success →
    storageFindVariable (storageSetWithTimestamp s k (some d) attrs time).2 k =
      storageFindVariable s k

/-- A stored variable takes the data: the sizes are within the limits, the attributes agree,
and an append fits. -/
def Variable.Takes (s : Storage) (k : Key) (d : List UInt8) (attrs : Attrs) (v : Variable) :
    Prop :=
  tooLarge s k d.length = false ∧ v.attrs = attrs.withoutAppend ∧
    (attrs.append = true → v.datasz + d.length ≤ MAX_VARIABLE_DATA_SIZE)

section
variable {s : Storage} {k : Key} {d : List UInt8} {attrs : Attrs} {time : EfiTime}

theorem storageSet_found_success_iff {i : Fin MAX_VAR_COUNT}
    (hrem : asksRemoval (some d) attrs = false) (h0 : k.namesz ≠ 0) (hd : d ≠ [])
    (hi : s.findSlot k = some i) :
    (storageSet s k (some d) attrs).1 = .success ↔ (s.vars i).Takes s k d attrs := by
  cases hlarge : tooLarge s k d.length with
  | true =>
      rw [storageSet_tooLarge hlarge]
      constructor
      · intro h
        cases h
      · rintro ⟨h, _⟩
        rw [hlarge] at h
        cases h
  | false =>
      rw [storageSet_found_status hlarge hrem h0 hd hi]
      by_cases hattrs : (s.vars i).attrs = attrs.withoutAppend
      · rw [if_neg (not_not.mpr hattrs)]
        by_cases hsum : attrs.append = true ∧ MAX_VARIABLE_DATA_SIZE < (s.vars i).datasz + d.length
        · rw [if_pos hsum]
          constructor
          · intro h
            cases h
          · rintro ⟨_, _, happ⟩
            exact absurd hsum.2 (not_lt.mpr (happ hsum.1))
        · rw [if_neg hsum]
          refine ⟨fun _ => ⟨hlarge, hattrs, ?_⟩, fun _ => rfl⟩
          intro happ
          exact not_lt.mp (fun hlt => hsum ⟨happ, hlt⟩)
      · rw [if_pos hattrs]
        constructor
        · intro h
          cases h
        · rintro ⟨_, h, _⟩
          exact absurd h hattrs

/-- A name without NUL units, of any length: a write that fails changes nothing. -/
theorem storageSet_failed_nulFree {name : List UInt8} {guid : Guid} (hname : NulFree name)
    (h : (storageSet s (Key.of name guid) (some d) attrs).1 ≠ .success) :
    (storageSet s (Key.of name guid) (some d) attrs).2 = s := by
  by_cases hfits : name.length ≤ MAX_VARIABLE_NAME_SIZE
  · exact storageSet_failed (Key.clean_of_nulFree hname hfits guid) h
  · have hlarge : tooLarge s (Key.of name guid) d.length = true := by
      have hsz : (Key.of name guid).namesz > MAX_VARIABLE_NAME_SIZE := not_le.mp hfits
      simp [tooLarge, hsz]
    rw [storageSet_tooLarge hlarge]

/-- After a write that succeeded and deleted nothing, the variable is there with its new
time stamp. -/
theorem storageSetWithTimestamp_written {name : List UInt8} {guid : Guid} (time : EfiTime)
    (hname : NulFree name) (hdel : isDelete attrs d.length = false)
    (hok : (storageSet s (Key.of name guid) (some d) attrs).1 = .success) :
    (storageSetWithTimestamp s (Key.of name guid) (some d) attrs time).1 = .success ∧
      ∃ v, storageFindVariable (storageSet s (Key.of name guid) (some d) attrs).2
          (Key.of name guid) = some v ∧
        storageFindVariable (storageSetWithTimestamp s (Key.of name guid) (some d) attrs time).2
          (Key.of name guid) = some { v with timestamp := time } := by
  have hfits : name.length ≤ MAX_VARIABLE_NAME_SIZE := by
    by_contra hno
    have hsz : (Key.of name guid).namesz > MAX_VARIABLE_NAME_SIZE := not_le.mp hno
    rw [storageSet_tooLarge (by simp [tooLarge, hsz])] at hok
    cases hok
  have hclean := Key.clean_of_nulFree hname hfits guid
  obtain ⟨i, hi⟩ := Option.isSome_iff_exists.mp
    (storageSet_findSlot_isSome hclean (asksRemoval_of_isDelete hdel) hok)
  rcases storageSetWithTimestamp_cases s (Key.of name guid) d attrs time with
    ⟨hdel', _⟩ | ⟨_, ⟨hnone, _⟩ | ⟨j, hj, heq⟩⟩
  · rw [hdel] at hdel'
    cases hdel'
  · rw [hi] at hnone
    cases hnone
  · obtain rfl := Option.some.inj (hi.symm.trans hj)
    rw [heq]
    refine ⟨rfl, _, storageFindVariable_eq hi, ?_⟩
    have hmark := Storage.findSlot_mark (storageSet s (Key.of name guid) (some d) attrs).2 i time
      ((storageSet s (Key.of name guid) (some d) attrs).2.vars i).cert (Key.of name guid)
    rw [storageFindVariable_eq (hmark.trans hi), Storage.setSlot_vars, Function.update_self]

theorem storageSetWithTimestamp_isDelete (hdel : isDelete attrs d.length = true) :
    storageSetWithTimestamp s k (some d) attrs time = storageSet s k (some d) attrs := by
  rcases storageSetWithTimestamp_cases s k d attrs time with ⟨_, heq⟩ | ⟨hdel', _⟩
  · exact heq
  · rw [hdel] at hdel'
    cases hdel'

/-- After a write that failed: a variable that is there is stamped, and the call succeeds. -/
theorem storageSetWithTimestamp_failed {name : List UInt8} {guid : Guid} (time : EfiTime)
    (hname : NulFree name) (hdel : isDelete attrs d.length = false)
    (hfail : (storageSet s (Key.of name guid) (some d) attrs).1 ≠ .success) :
    s.findSlot (Key.of name guid) = none ∧
        storageSetWithTimestamp s (Key.of name guid) (some d) attrs time = (.notFound, s) ∨
      (∃ i, s.findSlot (Key.of name guid) = some i) ∧
        (storageSetWithTimestamp s (Key.of name guid) (some d) attrs time).1 = .success := by
  have hsame := storageSet_failed_nulFree hname hfail
  rcases storageSetWithTimestamp_cases s (Key.of name guid) d attrs time with
    ⟨hdel', _⟩ | ⟨_, ⟨hnone, heq⟩ | ⟨i, hi, heq⟩⟩
  · rw [hdel] at hdel'
    cases hdel'
  · rw [hsame] at hnone heq
    exact .inl ⟨hnone, heq⟩
  · rw [hsame] at hi
    exact .inr ⟨⟨i, hi⟩, by rw [heq]⟩

/-- **The status of `storage_set` gets lost.**  For a name without NUL units the contract is
kept exactly if the request is a deletion, the variable is new, or the stored one takes the
data. -/
theorem stampContract_iff {name : List UInt8} {guid : Guid} (hname : NulFree name) :
    StampContract s (Key.of name guid) d attrs time ↔
      (isDelete attrs d.length = false →
        ∀ v, storageFindVariable s (Key.of name guid) = some v →
          v.Takes s (Key.of name guid) d attrs) := by
  have h0 : (Key.of name guid).namesz ≠ 0 := by
    have h2 := hname.two_le
    show name.length ≠ 0
    omega
  have hsuccess : ∀ {i}, isDelete attrs d.length = false →
      s.findSlot (Key.of name guid) = some i →
      ((storageSet s (Key.of name guid) (some d) attrs).1 = .success ↔
        (s.vars i).Takes s (Key.of name guid) d attrs) := by
    intro i hdel hi
    refine storageSet_found_success_iff (asksRemoval_of_isDelete hdel) h0 ?_ hi
    rintro rfl
    cases hdel
  constructor
  · intro hc hdel v hv
    obtain ⟨i, hi, rfl⟩ := Option.map_eq_some_iff.mp hv
    by_contra htakes
    have hfail := mt (hsuccess hdel hi).mp htakes
    rcases storageSetWithTimestamp_failed time hname hdel hfail with ⟨hnone, _⟩ | ⟨_, hst⟩
    · cases hnone.symm.trans hi
    · exact hfail (hc.status.mp hst)
  · intro hcond
    cases hdel : isDelete attrs d.length with
    | true =>
        have heq : storageSetWithTimestamp s (Key.of name guid) (some d) attrs time =
            storageSet s (Key.of name guid) (some d) attrs := storageSetWithTimestamp_isDelete hdel
        refine ⟨by rw [heq], ?_, ?_⟩
        · intro _ hno
          rw [hdel] at hno
          cases hno
        · intro hfail
          rw [heq, or_self] at hfail
          rw [heq, storageSet_failed_nulFree hname hfail]
    | false =>
        by_cases hok : (storageSet s (Key.of name guid) (some d) attrs).1 = .success
        · obtain ⟨hst, v, hv, hv'⟩ := storageSetWithTimestamp_written time hname hdel hok
          refine ⟨⟨fun _ => hok, fun _ => hst⟩, fun _ _ => ⟨v, hv, hv'⟩, ?_⟩
          rintro (hfail | hfail)
          · exact absurd hok hfail
          · exact absurd hst hfail
        · rcases storageSetWithTimestamp_failed time hname hdel hok with
            ⟨_, heq⟩ | ⟨⟨i, hi⟩, _⟩
          · refine ⟨?_, ?_, fun _ => by rw [heq]⟩
            · rw [heq]
              exact ⟨fun h => absurd h (by simp), fun h => absurd h hok⟩
            · intro h
              rw [heq] at h
              cases h
          · -- it is there, so by the condition it took the data
            exact absurd ((hsuccess hdel hi).mpr (hcond hdel _ (storageFindVariable_eq hi))) hok

end

/-- A time stamp in the year 2021. -/
def time2021 : EfiTime := { EfiTime.zero with year := 2021 }

theorem stampContract_new :
    StampContract (Storage.empty 0) keyA [1] RT_BS_ATTRS time2021 ∧
      (storageSetWithTimestamp (Storage.empty 0) keyA (some [1]) RT_BS_ATTRS time2021).1 =
        .success := by
  refine ⟨(stampContract_iff (by decide)).mpr ?_, by decide +kernel⟩
  intro _ v hv
  have hnone : storageFindVariable (Storage.empty 0) keyA = none := by decide +kernel
  exact absurd (hnone.symm.trans hv) (by simp)

/-- Other attributes than the stored ones: `storage_set` refuses the data, and the call
succeeds and stamps the old value. -/
theorem stampContract_mismatch :
    (storageSet (Storage.ofList [Variable.ofKey keyA [1] RT_BS_ATTRS]) keyA (some [2])
        AT_ATTRS).1 = .invalidParameter ∧
      (storageSetWithTimestamp (Storage.ofList [Variable.ofKey keyA [1] RT_BS_ATTRS]) keyA
        (some [2]) AT_ATTRS time2021).1 = .success ∧
      storageFindVariable (storageSetWithTimestamp
          (Storage.ofList [Variable.ofKey keyA [1] RT_BS_ATTRS]) keyA (some [2]) AT_ATTRS
          time2021).2 keyA =
        some { Variable.ofKey keyA [1] RT_BS_ATTRS with timestamp := time2021 } ∧
      ¬ StampContract (Storage.ofList [Variable.ofKey keyA [1] RT_BS_ATTRS]) keyA [2] AT_ATTRS
        time2021 := by
  have hset : (storageSet (Storage.ofList [Variable.ofKey keyA [1] RT_BS_ATTRS]) keyA (some [2])
      AT_ATTRS).1 = .invalidParameter := by decide +kernel
  have hstamp : (storageSetWithTimestamp (Storage.ofList [Variable.ofKey keyA [1] RT_BS_ATTRS])
      keyA (some [2]) AT_ATTRS time2021).1 = .success := by decide +kernel
  refine ⟨hset, hstamp, by decide +kernel, ?_⟩
  intro hc
  have hok := hc.status.mp hstamp
  rw [hset] at hok
  cases hok

/-! ## Names that are found again -/

section
variable {s : Storage} {k : Key} {d : List UInt8} {attrs : Attrs} {i : Fin MAX_VAR_COUNT}

/-- A slot that was given the name is found under it exactly if the size was kept. -/
theorem Variable.isMatch_named_iff {v : Variable} (hfits : k.namesz ≤ MAX_VARIABLE_NAME_SIZE)
    (hg : v.guid = k.guid) (below : UInt16) :
    (v.named below k).isMatch k = true ↔ k.stored below = k.namesz := by
  rw [Variable.isMatch_iff]
  constructor
  · exact fun h => h.1
  · intro h
    refine ⟨h, ?_, hg⟩
    simp only [Variable.keyBytes, Variable.named, h]
    exact Block.overwrite_take _ _ hfits

theorem findSlot_setSlot_ne_none_iff {w : Variable} : (s.setSlot i w).findSlot k ≠ none ↔
    w.isMatch k = true ∨ ∃ j, j ≠ i ∧ (s.vars j).isMatch k = true := by
  rw [ne_eq, Storage.findSlot, Slots.first_eq_none_iff, not_forall]
  simp only [Bool.not_eq_false, Storage.setSlot_vars]
  constructor
  · rintro ⟨j, hj⟩
    by_cases hji : j = i
    · subst hji
      rw [Function.update_self] at hj
      exact .inl hj
    · rw [Function.update_of_ne hji] at hj
      exact .inr ⟨j, hji, hj⟩
  · rintro (hw | ⟨j, hji, hj⟩)
    · exact ⟨i, by rwa [Function.update_self]⟩
    · exact ⟨j, by rwa [Function.update_of_ne hji]⟩

/-- After `storage_set_with_timestamp` the variable is there, and that is its success; or it was
there and is deleted.  A name that ends in a NUL unit is stored without it, and then another
slot has to carry the name. -/
def Storage.Keeps (s : Storage) (k : Key) (d : List UInt8) (attrs : Attrs) : Prop :=
  match s.findSlot k with
  | none => d ≠ [] ∧ tooLarge s k d.length = false ∧
      ∃ i, s.freeSlot = some i ∧ k.stored (s.below i) = k.namesz
  | some i =>
    if d = [] then attrs.append = false ∧ tooLarge s k 0 = false
    else tooLarge s k d.length = true ∨ (s.vars i).attrs ≠ attrs.withoutAppend ∨
      k.stored (s.below i) = k.namesz ∨ ∃ j, j ≠ i ∧ (s.vars j).isMatch k = true

theorem replace_findSlot_iff (h0 : k.namesz ≠ 0) (hfits : k.namesz ≤ MAX_VARIABLE_NAME_SIZE)
    (hi : s.findSlot k = some i) {attrs : Attrs} {append : Bool} :
    (s.replace i k d attrs append).2.findSlot k ≠ none ↔ (s.vars i).attrs ≠ attrs ∨
      k.stored (s.below i) = k.namesz ∨ ∃ j, j ≠ i ∧ (s.vars j).isMatch k = true := by
  have hg := Storage.findSlot_guid hi
  have hname := Variable.isMatch_named_iff hfits hg (s.below i)
  unfold Storage.replace
  split
  · rename_i hattrs
    refine iff_of_true ?_ (.inl hattrs)
    rw [hi]
    exact Option.some_ne_none i
  rename_i hattrs
  rw [or_iff_right hattrs, variableSetName_eq _ _ _ h0 hfits]
  dsimp only
  split
  · rw [findSlot_setSlot_ne_none_iff, ← hname]
    rfl
  · rename_i w hw
    obtain ⟨_, _, rfl⟩ := variableSetData_ok hw
    rw [findSlot_setSlot_ne_none_iff, ← hname]
    rfl

theorem storageSet_findSlot_iff (h0 : k.namesz ≠ 0) (hd : d ≠ [])
    (hrem : asksRemoval (some d) attrs = false) :
    (storageSet s k (some d) attrs).2.findSlot k ≠ none ↔ s.Keeps k d attrs := by
  unfold Storage.Keeps
  cases hlarge : tooLarge s k d.length with
  | true =>
      rw [storageSet_tooLarge hlarge]
      cases hi : s.findSlot k with
      | none => exact iff_of_false (fun h => h rfl) (fun h => nomatch h.2.1)
      | some i =>
          refine iff_of_true (Option.some_ne_none i) ?_
          dsimp only
          rw [if_neg hd]
          exact .inl rfl
  | false =>
      obtain ⟨hfits, hmax⟩ := fits_of_not_tooLarge hlarge
      rw [storageSet_search hlarge hrem]
      cases hi : s.findSlot k with
      | some i =>
          dsimp only
          rw [if_neg hd, or_iff_right Bool.false_ne_true]
          exact replace_findSlot_iff h0 hfits hi
      | none =>
          rw [and_iff_right hd, and_iff_right rfl]
          cases hf : s.freeSlot with
          | none => exact iff_of_false (fun h => h hi) (fun ⟨_, h, _⟩ => nomatch h)
          | some i =>
              simp only [Option.some.injEq, exists_eq_left']
              unfold Storage.create
              rw [variableCreateNoalloc_eq _ _ _ _ hd hmax h0 hfits]
              have hname := Variable.isMatch_named_iff (v := { s.vars i with guid := k.guid })
                hfits rfl (s.below i)
              have hother : ¬ ∃ j, j ≠ i ∧ (s.vars j).isMatch k = true := by
                rintro ⟨j, _, hj⟩
                rw [Slots.first_eq_none_iff.mp hi j] at hj
                cases hj
              rw [← hname]
              refine (findSlot_setSlot_ne_none_iff (s := s) (i := i)).trans ?_
              rw [or_iff_left hother]
              rfl

/-- Without data and without an append a write is a deletion. -/
theorem storageSet_nil_eq (ha : attrs ≠ 0) (happ : attrs.append = false) :
    storageSet s k (some []) attrs =
      if tooLarge s k 0 = true then (.outOfResources, s) else storageRemove s k := by
  have hrem : asksRemoval (some []) attrs = true := by
    rw [asksRemoval, beq_false_of_ne ha, happ]
    rfl
  unfold storageSet
  exact congrArg (ite _ _) (if_pos hrem)

/-- Without data a write can only delete. -/
theorem storageSet_nil_success_iff (ha : attrs ≠ 0) :
    (storageSet s k (some []) attrs).1 = .success ↔
    (s.findSlot k).isSome ∧ attrs.append = false ∧ tooLarge s k 0 = false := by
  cases happ : attrs.append with
  | true =>
      refine iff_of_false ?_ (fun h => Bool.noConfusion h.2.1)
      have hrem : asksRemoval (some []) attrs = false := by
        rw [asksRemoval, beq_false_of_ne ha, happ]
        rfl
      intro hok
      have hc := storageSet_cases s k (some []) attrs
      rw [hok] at hc
      generalize (storageSet s k (some []) attrs).2 = s' at hc
      cases hc with
      | refused h => exact h rfl
      | removed h => cases hrem.symm.trans h
      | replaced _ hd hne => exact hne (Option.some.inj hd).symm
      | renamed h => exact h rfl
      | created _ hd hne => exact hne (Option.some.inj hd).symm
  | false =>
      rw [storageSet_nil_eq ha happ, and_iff_right rfl]
      cases tooLarge s k 0 with
      | true =>
          refine iff_of_false ?_ (fun h => Bool.noConfusion h.2)
          intro h
          cases h
      | false =>
          rw [if_neg Bool.false_ne_true, and_iff_left rfl, storageRemove]
          cases s.findSlot k with
          | none =>
              refine iff_of_false ?_ Bool.false_ne_true
              intro h
              cases h
          | some i => exact iff_of_true rfl rfl

/-- The status of `storage_set_with_timestamp`, for names of any content. -/
theorem storageSetWithTimestamp_success_iff (h0 : k.namesz ≠ 0) (ha : attrs ≠ 0) (time : EfiTime) :
    (storageSetWithTimestamp s k (some d) attrs time).1 = .success ↔ s.Keeps k d attrs := by
  by_cases hd : d = []
  · subst hd
    have hset : storageSetWithTimestamp s k (some []) attrs time = storageSet s k (some []) attrs :=
      storageSetWithTimestamp_isDelete rfl
    rw [hset, storageSet_nil_success_iff ha, Storage.Keeps]
    cases s.findSlot k with
    | none => exact iff_of_false (fun h => Bool.noConfusion h.1) (fun h => h.1 rfl)
    | some i =>
        dsimp only
        rw [if_pos rfl, and_iff_right (show (some i).isSome from rfl)]
  · have hattrs : (attrs == 0) = false := beq_false_of_ne ha
    have hlen : (d.length == 0) = false := by simpa using hd
    have hdel : isDelete attrs d.length = false := by rw [isDelete, hlen, hattrs, Bool.or_self]
    rw [← storageSet_findSlot_iff h0 hd (asksRemoval_of_isDelete hdel)]
    rcases storageSetWithTimestamp_cases s k d attrs time with
      ⟨hc, _⟩ | ⟨_, ⟨hnone, hr⟩ | ⟨i, hi, hr⟩⟩
    · rw [hdel] at hc
      cases hc
    · rw [hr, hnone]
      refine iff_of_false ?_ (fun h => h rfl)
      intro h
      cases h
    · rw [hr, hi]
      exact iff_of_true rfl (Option.some_ne_none i)

/-- Where the variable is not kept, it is not there; or it was not to be deleted and is as it
was. -/
theorem storageSetWithTimestamp_notKept (h0 : k.namesz ≠ 0) (ha : attrs ≠ 0)
    (happ : attrs.append = false) (hkeeps : ¬ s.Keeps k d attrs) (time : EfiTime) :
    (storageSetWithTimestamp s k (some d) attrs time).2.findSlot k = none ∨
      (storageSetWithTimestamp s k (some d) attrs time).2 = s := by
  have hfail := mt (storageSetWithTimestamp_success_iff h0 ha time).mp hkeeps
  by_cases hd : d = []
  · subst hd
    rw [storageSetWithTimestamp_isDelete rfl, storageSet_nil_eq ha happ] at hfail ⊢
    refine .inr ?_
    split
    · rfl
    · rename_i hlarge
      rw [if_neg hlarge] at hfail
      unfold storageRemove at hfail ⊢
      cases hi : s.findSlot k with
      | none => rfl
      | some i =>
          rw [hi] at hfail
          exact absurd rfl hfail
  · rcases storageSetWithTimestamp_cases s k d attrs time with
      ⟨hdel, _⟩ | ⟨_, ⟨hnone, hr⟩ | ⟨i, _, hr⟩⟩
    · rw [isDelete, beq_false_of_ne ha, Bool.or_false] at hdel
      exact absurd (List.eq_nil_of_length_eq_zero (eq_of_beq hdel)) hd
    · rw [hr]
      exact .inl hnone
    · rw [hr] at hfail
      exact absurd rfl hfail

/-- Where it is kept, and not deleted, it is there under the new time stamp. -/
theorem storageSetWithTimestamp_kept (h0 : k.namesz ≠ 0) (ha : attrs ≠ 0) (hd : d ≠ [])
    (hkeeps : s.Keeps k d attrs) (time : EfiTime) :
    ∃ v, storageFindVariable (storageSetWithTimestamp s k (some d) attrs time).2 k = some v ∧
      v.timestamp = time := by
  have hok := (storageSetWithTimestamp_success_iff h0 ha time).mpr hkeeps
  rcases storageSetWithTimestamp_cases s k d attrs time with
    ⟨hdel, _⟩ | ⟨_, ⟨_, hr⟩ | ⟨i, hi, hr⟩⟩
  · rw [isDelete, beq_false_of_ne ha, Bool.or_false] at hdel
    exact absurd (List.eq_nil_of_length_eq_zero (eq_of_beq hdel)) hd
  · rw [hr] at hok
    cases hok
  · rw [hr]
    have hmark := Storage.findSlot_mark (storageSet s k (some d) attrs).2 i time
      ((storageSet s k (some d) attrs).2.vars i).cert k
    refine ⟨_, storageFindVariable_eq (hmark.trans hi), ?_⟩
    rw [Storage.setSlot_vars, Function.update_self]

end

/-! ## Room -/

/-- Attributes that are valid and not those of an authenticated variable. -/
def Attrs.plain (attrs : Attrs) : Bool :=
  attrs != 0 && evaluateAttrs attrs == .success && !attrs.timeBased

/-- Why there is no room for a write: the sizes are over the limits, there is no slot for a
new variable, or the block would get too long. -/
inductive LacksRoom (s : Storage) (k : Key) (d : List UInt8) (attrs : Attrs) : Prop
  | sizes : tooLarge s k d.length = true → LacksRoom s k d attrs
  | slots : s.findSlot k = none → s.freeSlot = none → LacksRoom s k d attrs
  | block {i : Fin MAX_VAR_COUNT} : s.findSlot k = some i →
      (s.vars i).attrs = attrs.withoutAppend → attrs.append = true →
      MAX_VARIABLE_DATA_SIZE < (s.vars i).datasz + d.length → LacksRoom s k d attrs

/-- What a guest is told about room: a new variable is stored when QueryVariableInfo says that
one of the largest size remains, and a write that only room stands against is refused with
`EFI_OUT_OF_RESOURCES`. -/
structure RoomContract (s : Storage) (k : Key) (d : List UInt8) (attrs : Attrs) : Prop where
  succeeds : s.findSlot k = none → k.namesz ≤ MAX_VARIABLE_NAME_SIZE → 1 ≤ d.length →
    d.length ≤ MAX_VARIABLE_DATA_SIZE → attrs.plain = true →
    (∃ query max remaining largest,
      handleQueryVariableInfo s UEFISTORED_VERSION COMMAND_QUERY_VARIABLE_INFO query =
        .ok (max, remaining, largest) ∧ MAX_VARIABLE_SIZE ≤ remaining) →
    (storageSet s k (some d) attrs).1 = .success
  refused : asksRemoval (some d) attrs = false → d ≠ [] → k.namesz ≠ 0 →
    LacksRoom s k d attrs → (storageSet s k (some d) attrs).1 = .outOfResources

/-- A write within the limits has room: a new variable has a name and a slot, and an append
to a variable with these attributes fits. -/
structure HasRoom (s : Storage) (k : Key) (d : List UInt8) (attrs : Attrs) : Prop where
  name : s.findSlot k = none → attrs.plain = true → k.namesz ≠ 0
  slot : s.findSlot k = none → k.namesz ≠ 0 → s.freeSlot ≠ none
  block : ∀ i, s.findSlot k = some i → (s.vars i).attrs = attrs.withoutAppend →
    attrs.append = true → k.namesz ≠ 0 → (s.vars i).datasz + d.length ≤ MAX_VARIABLE_DATA_SIZE

section
variable {s : Storage} {k : Key} {d : List UInt8} {attrs : Attrs}

/-- In a store whose counters are right the limits are those of one variable. -/
theorem Storage.Counted.tooLarge_iff (h : s.Counted) :
    tooLarge s k d.length = false ↔
      k.namesz ≤ MAX_VARIABLE_NAME_SIZE ∧ d.length ≤ MAX_VARIABLE_DATA_SIZE := by
  refine ⟨fits_of_not_tooLarge, ?_⟩
  rintro ⟨hname, hdata⟩
  have htotal : s.total ≤ 128 := h.total_le
  have hused := h.used
  have hmax : MAX_STORAGE_SIZE = 1073741824 := by decide
  simp only [MAX_VARIABLE_NAME_SIZE, MAX_VARIABLE_DATA_SIZE] at hused hname hdata
  have hone : add64 d.length k.namesz = d.length + k.namesz := add64_of_lt (by omega)
  have hsum : add64 (add64 d.length k.namesz) s.used = d.length + k.namesz + s.used := by
    rw [hone, add64_of_lt (by omega)]
  simp only [tooLarge, Bool.or_eq_false_iff, decide_eq_false_iff_not, not_lt, hsum]
  exact ⟨⟨hname, hdata⟩, by omega⟩

/-- QueryVariableInfo always says that one more variable of the largest size remains. -/
theorem Storage.Counted.remaining (h : s.Counted) : ∃ max remaining largest,
    handleQueryVariableInfo s UEFISTORED_VERSION COMMAND_QUERY_VARIABLE_INFO RT_BS_ATTRS =
      .ok (max, remaining, largest) ∧ MAX_VARIABLE_SIZE ≤ remaining := by
  have htotal : s.total ≤ 128 := h.total_le
  have hused := h.used
  have hmax : MAX_STORAGE_SIZE = 1073741824 := by decide
  have hsize : MAX_VARIABLE_SIZE = 33024 := by decide
  simp only [MAX_VARIABLE_NAME_SIZE, MAX_VARIABLE_DATA_SIZE] at hused
  refine ⟨_, _, _, rfl, ?_⟩
  rw [sub64_of_le (by omega) (by omega)]
  omega

theorem Storage.Counted.freeSlot_ne (h : s.Counted) (hlt : s.total < MAX_VAR_COUNT) :
    s.freeSlot ≠ none := by
  intro hfull
  have hall : ∀ i, (s.vars i).isValid = true := by
    intro i
    rw [h.valid i, Slots.first_eq_none_iff.mp hfull i]
    rfl
  rw [h.total, Slots.count_eq_of_forall hall] at hlt
  exact lt_irrefl _ hlt

theorem Storage.Counted.freeSlot_eq (h : s.Counted) (hfull : s.total = MAX_VAR_COUNT) :
    s.freeSlot = none := by
  refine Slots.first_eq_none_iff.mpr (fun i => ?_)
  by_contra hfree
  rw [Bool.not_eq_false] at hfree
  have hlt := Slots.count_lt (t := s.vars) (p := Variable.isValid) (i := i) (by
    rw [h.valid i, hfree]
    rfl)
  rw [← h.total, hfull] at hlt
  exact lt_irrefl _ hlt

theorem asksRemoval_of_plain (ha : attrs.plain = true) (hd : d ≠ []) :
    asksRemoval (some d) attrs = false := by
  have hlen : (d.length == 0) = false := by simpa using hd
  simp only [Attrs.plain, Bool.and_eq_true, bne_iff_ne] at ha
  have hne : (attrs == 0) = false := by simpa using ha.1.1
  simp only [asksRemoval, dataSize, Option.getD_some, hlen, hne, Bool.false_and, Bool.or_self]

theorem roomContract_of_counted (h : s.Counted) :
    RoomContract s k d attrs ↔
      (k.namesz ≤ MAX_VARIABLE_NAME_SIZE → d.length ≤ MAX_VARIABLE_DATA_SIZE → d ≠ [] →
        asksRemoval (some d) attrs = false → HasRoom s k d attrs) := by
  constructor
  · intro hc hname hdata hd hrem
    have hlarge := h.tooLarge_iff.mpr ⟨hname, hdata⟩
    have hlen : 1 ≤ d.length := List.length_pos_of_ne_nil hd
    refine ⟨?_, ?_, ?_⟩
    · rintro hi hplain h0
      have hok := hc.succeeds hi hname hlen hdata hplain ⟨_, h.remaining⟩
      rw [storageSet_new_status hlarge hrem hd hi, if_pos (.inr h0)] at hok
      cases hok
    · intro hi h0 hfull
      have hst := hc.refused hrem hd h0 (.slots hi hfull)
      rw [storageSet_new_status hlarge hrem hd hi, if_pos (.inl hfull)] at hst
      cases hst
    · intro i hi hattrs happ h0
      by_contra hsum
      have hst := hc.refused hrem hd h0 (.block hi hattrs happ (not_le.mp hsum))
      rw [storageSet_found_status hlarge hrem h0 hd hi, if_neg (not_not.mpr hattrs),
        if_pos ⟨happ, not_le.mp hsum⟩] at hst
      cases hst
  · intro hcond
    refine ⟨?_, ?_⟩
    · intro hi hname hlen hdata hplain _
      have hd : d ≠ [] := List.ne_nil_of_length_pos hlen
      have hrem := asksRemoval_of_plain hplain hd
      have hroom := hcond hname hdata hd hrem
      have h0 := hroom.name hi hplain
      rw [storageSet_new_status (h.tooLarge_iff.mpr ⟨hname, hdata⟩) hrem hd hi, if_neg]
      rintro (hfull | hz)
      · exact hroom.slot hi h0 hfull
      · exact h0 hz
    · intro hrem hd h0 hlack
      cases hlarge : tooLarge s k d.length with
      | true => rw [storageSet_tooLarge hlarge]
      | false =>
          obtain ⟨hname, hdata⟩ := fits_of_not_tooLarge hlarge
          have hroom := hcond hname hdata hd hrem
          cases hlack with
          | sizes hl => rw [hlarge] at hl; cases hl
          | slots hi hfull => exact absurd hfull (hroom.slot hi h0)
          | block hi hattrs happ hsum =>
              exact absurd hsum (not_lt.mpr (hroom.block _ hi hattrs happ h0))

end

section
variable {P X : Type}

/-- **What is said to remain is not what is left.**  In every store that start-up and requests
lead to, a write is answered as a guest is told exactly if, within the limits of one variable,
it has room. -/
theorem roomContract_iff {ssl : Phase → OpenSsl P X} {m₀ m m' : Machine} {front : UInt16}
    {db dbx kek pk : List UInt8} {status : EfiStatus} {rs : List (Request P X)}
    (hempty : m₀.storage = Storage.empty front)
    (hinit : authLibInitialize ssl m₀ (authFiles db dbx kek pk) = some (status, m))
    (hrun : Run Step m rs m') (k : Key) (d : List UInt8) (attrs : Attrs) :
    RoomContract m'.storage k d attrs ↔
      (k.namesz ≤ MAX_VARIABLE_NAME_SIZE → d.length ≤ MAX_VARIABLE_DATA_SIZE → d ≠ [] →
        asksRemoval (some d) attrs = false → HasRoom m'.storage k d attrs) :=
  roomContract_of_counted (reachable_counted hempty hinit hrun)

end

theorem roomContract_start : ∃ m,
    authLibInitialize (fun _ => OpenSsl.accepting) freshMachine (authFiles [] [] [] []) =
      some (.success, m) ∧ RoomContract m.storage keyA [1] RT_BS_ATTRS := by
  have hstart : ((authLibInitialize (fun _ => OpenSsl.accepting) freshMachine
      (authFiles [] [] [] [])).map (fun r => (r.1, r.2.storage.total))) = some (.success, 5) := by
    decide +kernel
  obtain ⟨⟨status, m⟩, hinit, hpair⟩ := Option.map_eq_some_iff.mp hstart
  obtain ⟨rfl, htotal⟩ := Prod.mk.inj hpair
  have hlt : m.storage.total < MAX_VAR_COUNT := Nat.lt_of_le_of_lt (Nat.le_of_eq htotal) (by decide)
  refine ⟨m, hinit, (roomContract_iff rfl hinit (.nil m) keyA [1] RT_BS_ATTRS).mpr ?_⟩
  intro _ _ _ _
  refine ⟨fun _ _ => by decide, fun _ _ => ?_, fun _ _ _ happ => absurd happ (by decide)⟩
  exact (reachable_counted rfl hinit (.nil m)).freeSlot_ne hlt

/-! ## A full store -/

/-- The requests that fill the store: variables with one-unit names. -/
def fillRequest (n : Nat) : Request Unit Unit :=
  volatileRequest (unitName (n + 1)) [1] ⟨Nat.le_of_ble_eq_true rfl, Nat.le_of_ble_eq_true rfl⟩

/-- The key of the `n`-th of them. -/
def fillKey (n : Nat) : Key := (fillRequest n).set.key

theorem fillKey_clean (n : Nat) : (fillKey n).Clean :=
  Key.clean_of_nulFree (unitName_nulFree (n + 1)) (Nat.le_of_ble_eq_true rfl) gEfiGlobalVariableGuid

/-- One unit is shorter than every name the server knows. -/
theorem isRo_fillKey (n : Nat) : isRo (fillKey n) = false := by
  have hsz : ∀ str ∈ roNames, ¬ 2 = str.length := by decide
  have hall : roNames.any (strcmp16Len (fillKey n)) = false := by
    rw [List.any_eq_false]
    intro str hstr hsame
    rw [strcmp16Len, Bool.and_eq_true, beq_iff_eq] at hsame
    exact hsz str hstr hsame.1
  rw [isRo, hall, Bool.and_false]

theorem isSecureBootVariable_fillKey (n : Nat) : isSecureBootVariable (fillKey n) = false := by
  rfl

theorem refusal_fillRequest {n : Nat} (hn : n < 200) : refusal (fillRequest n).set = none := by
  have hunit : (UInt8.ofNat (n + 1) == 0) = false := by
    rw [beq_eq_false_iff_ne, ne_eq, ← UInt8.toNat_inj, UInt8.toNat_ofNat']
    change (n + 1) % 256 ≠ 0
    omega
  have hcmd : ¬ (fillRequest n).set.command ≠ COMMAND_SET_VARIABLE := not_not_intro rfl
  have hrt : (fillRequest n).set.attrs = RT_BS_ATTRS := rfl
  have hfront : ¬ ((fillRequest n).set.name.headD 0 == 0 ||
      ((fillRequest n).set.attrs.has EFI_VARIABLE_RUNTIME_ACCESS &&
        !(fillRequest n).set.attrs.has EFI_VARIABLE_BOOTSERVICE_ACCESS)) = true := by
    rw [show (fillRequest n).set.name.headD 0 = UInt8.ofNat (n + 1) from rfl, hunit, hrt]
    decide
  have hro : ¬ isRo (fillRequest n).set.key = true := ne_true_of_eq_false (isRo_fillKey n)
  have hattrs : ¬ evaluateAttrs (fillRequest n).set.attrs ≠ .success := by
    rw [hrt]
    decide
  unfold refusal
  rw [if_neg hcmd, if_neg hfront, if_neg hro, if_neg hattrs]

theorem fillKey_spares {n j : Nat} (hn : n < 200) (hj : j < 200) (hne : n ≠ j) :
    (fillKey n).Spares (fillKey j) := by
  refine (fillKey_clean n).spares (fillKey_clean j) ?_
  rintro ⟨_, hb, _⟩
  rw [fillKey, fillKey, SetRequest.key, SetRequest.key, Key.bytes_of (fillRequest n).set.name_fits,
    Key.bytes_of (fillRequest j).set.name_fits] at hb
  have hsucc := unitName_inj (by omega) (by omega) hb
  omega

/-- A new variable counts. -/
theorem storageSet_total {s : Storage} {k : Key} {data : Option (List UInt8)} {attrs : Attrs}
    (hnew : s.findSlot k = none) (hok : (storageSet s k data attrs).1 = .success) :
    (storageSet s k data attrs).2.total = add64 s.total 1 := by
  have hc := storageSet_cases s k data attrs
  generalize storageSet s k data attrs = r at hc hok
  obtain ⟨st, s'⟩ := r
  cases hc with
  | refused hst => exact absurd hok hst
  | removed _ hi => cases hnew.symm.trans hi
  | replaced _ _ _ _ _ hi => cases hnew.symm.trans hi
  | renamed hst => exact absurd hok hst
  | created => rfl

/-- While there is a free slot, one more request takes it. -/
theorem fill_step {m : Machine} {n : Nat} (hn : n < 200) (hm : m.storage.Counted)
    (htotal : m.storage.total < MAX_VAR_COUNT) (hnew : m.storage.findSlot (fillKey n) = none) :
    ∃ m', Step m (fillRequest n) m' ∧ m'.storage.Counted ∧
      m'.storage.total = m.storage.total + 1 ∧
      ∀ j < 200, n ≠ j → m'.storage.findSlot (fillKey j) = m.storage.findSlot (fillKey j) := by
  have hclean := fillKey_clean n
  have hstep := handleSetVariable_plain (fillRequest n).ssl m (refusal_fillRequest hn)
    (show RT_BS_ATTRS.timeBased = false by decide) (isSecureBootVariable_fillKey n)
  have hok : (storageSet m.storage (fillKey n) (some [1]) RT_BS_ATTRS).1 = .success := by
    rw [storageSet_new_status (hm.tooLarge_iff.mpr ⟨hclean.fits, by decide⟩) (by decide) (by decide)
      hnew, if_neg]
    rintro (hfull | h0)
    · exact hm.freeSlot_ne htotal hfull
    · exact hclean.named.size h0
  refine ⟨_, ⟨_, hstep⟩, ?_, ?_, ?_⟩
  · rw [Machine.saved_storage]
    exact storageSet_counted hm hclean.named _ _
  · have hlt : m.storage.total < 128 := htotal
    rw [Machine.saved_storage]
    exact (storageSet_total hnew hok).trans (add64_of_lt (by omega))
  · intro j hj hne
    rw [Machine.saved_storage]
    exact (storageSet_frame m.storage (fillKey n) _ _).first_eq (fillKey_spares hn hj hne)

/-- As many requests as there are free slots. -/
theorem fill : ∀ (n a : Nat) {m : Machine}, a + n < 200 → m.storage.Counted →
    m.storage.total + n ≤ MAX_VAR_COUNT →
    (∀ j < 200, a ≤ j → m.storage.findSlot (fillKey j) = none) →
    ∃ m', Run Step m ((List.range' a n).map fillRequest) m' ∧
      m'.storage.total = m.storage.total + n ∧
      ∀ j < 200, a + n ≤ j → m'.storage.findSlot (fillKey j) = none
  | 0, _, m, _, _, _, hnew => ⟨m, .nil m, rfl, hnew⟩
  | n + 1, a, m, ha, hm, htotal, hnew => by
      obtain ⟨m₁, hstep, hm₁, htotal₁, hother⟩ :=
        fill_step (by omega) hm (by omega) (hnew a (by omega) le_rfl)
      have hnew₁ : ∀ j < 200, a + 1 ≤ j → m₁.storage.findSlot (fillKey j) = none := by
        intro j hj hle
        rw [hother j hj (by omega)]
        exact hnew j hj (by omega)
      obtain ⟨m', hrun, htotal', hnew'⟩ := fill n (a + 1) (by omega) hm₁ (by omega) hnew₁
      refine ⟨m', ?_, by omega, fun j hj hle => hnew' j hj (by omega)⟩
      rw [List.range'_succ, List.map_cons]
      exact .cons hstep hrun

/-- The 5 variables of start-up and 123 of a guest fill all slots; a gigabyte is said to remain,
and the next variable is refused, with a status that does not say why. -/
theorem roomContract_full : ∃ m m',
    authLibInitialize (fun _ => OpenSsl.accepting) freshMachine (authFiles [] [] [] []) =
      some (.success, m) ∧
    Run Step m ((List.range' 0 123).map fillRequest) m' ∧
    handleQueryVariableInfo m'.storage UEFISTORED_VERSION COMMAND_QUERY_VARIABLE_INFO RT_BS_ATTRS =
      .ok (MAX_STORAGE_SIZE, 2 ^ 30 - 128 * 33024, MAX_VARIABLE_SIZE) ∧
    m'.storage.findSlot (fillKey 123) = none ∧ RT_BS_ATTRS.plain = true ∧
    (storageSet m'.storage (fillKey 123) (some [1]) RT_BS_ATTRS).1 = .deviceError ∧
    ¬ RoomContract m'.storage (fillKey 123) [1] RT_BS_ATTRS := by
  have hstart : ((authLibInitialize (fun _ => OpenSsl.accepting) freshMachine
      (authFiles [] [] [] [])).map (fun r => (r.1, r.2.storage.total))) = some (.success, 5) := by
    decide +kernel
  obtain ⟨⟨status, m⟩, hinit, hpair⟩ := Option.map_eq_some_iff.mp hstart
  obtain ⟨rfl, htotal⟩ := Prod.mk.inj hpair
  have htotal : m.storage.total = 5 := htotal
  have hcounted := reachable_counted rfl hinit (.nil m)
  have hnew : ∀ j < 200, 0 ≤ j → m.storage.findSlot (fillKey j) = none := by
    intro j hj _
    have hspares : ∀ k ∈ startKeys (authFiles [] [] [] []), k.Spares (fillKey j) := by
      intro k hk
      have hsz : k.namesz ≠ 2 := by
        revert k
        decide +kernel
      refine (startKeys_clean _ _ _ _ k hk).spares (fillKey_clean j) ?_
      rintro ⟨h, _⟩
      exact hsz h
    rw [(authLibInitialize_writes hinit).findSlot_eq hspares]
    exact Slots.first_eq_none_iff.mpr (fun _ =>
      Variable.not_isMatch_of_isFree (fillKey_clean j) Variable.isFree_zero)
  obtain ⟨m', hrun, htotal', hnew'⟩ :=
    fill 123 0 (by decide) hcounted (by rw [htotal]; decide) hnew
  have hcounted' := reachable_counted rfl hinit hrun
  have hfull : m'.storage.total = 128 := by rw [htotal', htotal]
  have hfree := hcounted'.freeSlot_eq hfull
  have hlarge := (hcounted'.tooLarge_iff (k := fillKey 123) (d := [1])).mpr (by decide)
  have hst : (storageSet m'.storage (fillKey 123) (some [1]) RT_BS_ATTRS).1 = .deviceError := by
    rw [storageSet_new_status hlarge (by decide) (by decide) (hnew' 123 (by decide) le_rfl),
      if_pos (.inl hfree)]
  refine ⟨m, m', hinit, hrun, ?_, hnew' 123 (by decide) le_rfl, by decide, hst, ?_⟩
  · have hused : m'.storage.used = 128 * 33024 := by
      rw [hcounted'.used, hfull]
      rfl
    have hquery : handleQueryVariableInfo m'.storage UEFISTORED_VERSION
        COMMAND_QUERY_VARIABLE_INFO RT_BS_ATTRS =
        .ok (MAX_STORAGE_SIZE, sub64 MAX_STORAGE_SIZE m'.storage.used, MAX_VARIABLE_SIZE) := rfl
    rw [hquery, hused, sub64_of_le (by decide) (by decide)]
    rfl
  · intro hc
    have hoor := hc.refused (by decide) (by decide) (by decide)
      (.slots (hnew' 123 (by decide) le_rfl) hfree)
    rw [hst] at hoor
    cases hoor

end Uefistored
