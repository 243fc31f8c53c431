/-
# `Uefistored.Append` — appending the same signatures twice

A guest that applies the same update of KEK, db, dbx or dbt again has
`auth_internal_update_variable_with_timestamp` append the same payload a second
time.  Nothing comes of it (`append_idempotent`), whatever the first call did:

* it created the variable, with the payload as it is: the second call finds
  every signature known;
* it appended the signatures that were new: now they are known as well;
* there was nothing new, or no room: the second call is the first over again,
  and stamps the slot with the time it has.

    what is kept of lists that are known         (`keptLists_eq_nil`)
    `storage_set_with_timestamp` on an append    (`storageSetWithTimestamp_append`)
    the function, where the variable is there    (`update_found`)
    and where it is not                          (`update_new`)
-/
import Uefistored.Esl
import Uefistored.Written
import Uefistored.SecureBoot

namespace Uefistored

open Lib

/-! ## Lists that are known -/

theorem encodeAll_append (ls ls' : List Esl) :
    encodeAll (ls ++ ls') = encodeAll ls ++ encodeAll ls' :=
  List.flatMap_append

theorem signatures_append (ls ls' : List Esl) :
    signatures (ls ++ ls') = signatures ls ++ signatures ls' :=
  List.flatMap_append

theorem encodeAll_eq_nil_iff {ls : List Esl} : encodeAll ls = [] ↔ ls = [] := by
  constructor
  · intro h
    cases ls with
    | nil => rfl
    | cons l ls =>
        have hlen := length_encodeAll_cons l ls
        have hpos := l.listSize_pos
        rw [h, List.length_nil] at hlen
        omega
  · rintro rfl
    rfl

/-- Nothing is kept of lists whose signatures all occur in the old ones. -/
theorem keptLists_eq_nil {olds news : List Esl} (h : ∀ x ∈ signatures news, x ∈ signatures olds) :
    keptLists olds news = [] := by
  have hnone : signatures (keptLists olds news) = [] := by
    rw [signatures_keptLists, List.filter_eq_nil_iff]
    intro x hx
    simpa using h x hx
  refine List.eq_nil_iff_forall_not_mem.mpr ?_
  intro l hl
  have hentries : (!l.entries.isEmpty) = true := (List.mem_filter.mp hl).2
  have hnil : l.entries.map (fun e => (l.type, l.size, e)) = [] :=
    List.flatMap_eq_nil_iff.mp hnone l hl
  rw [List.map_eq_nil_iff.mp hnil] at hentries
  cases hentries

theorem keptLists_self (ls : List Esl) : keptLists ls ls = [] :=
  keptLists_eq_nil fun _ hx => hx

/-- Once what is new is there, nothing is. -/
theorem keptLists_appended (olds news : List Esl) :
    keptLists (olds ++ keptLists olds news) news = [] := by
  refine keptLists_eq_nil ?_
  intro x hx
  rw [signatures_append, List.mem_append, signatures_keptLists, List.mem_filter]
  by_cases hold : x ∈ signatures olds
  · exact .inl hold
  · exact .inr ⟨hx, decide_eq_true hold⟩

/-! ## The storage functions on an append -/

section
variable {s : Storage} {k : Key} {i : Fin MAX_VAR_COUNT} {d : List UInt8} {attrs : Attrs}
  {time : EfiTime}

/-- `storage_set` takes an append to the variable in slot `i`. -/
def Takes (s : Storage) (i : Fin MAX_VAR_COUNT) (k : Key) (d : List UInt8) (attrs : Attrs) : Prop :=
  tooLarge s k d.length = false ∧ (s.vars i).attrs = attrs.withoutAppend ∧
    (s.vars i).datasz + d.length ≤ MAX_VARIABLE_DATA_SIZE

instance : Decidable (Takes s i k d attrs) := inferInstanceAs (Decidable (_ ∧ _ ∧ _))

/-- The data of the variable after an append. -/
def appendedData (s : Storage) (i : Fin MAX_VAR_COUNT) (k : Key) (d : List UInt8)
    (attrs : Attrs) : List UInt8 :=
  if Takes s i k d attrs then (s.vars i).data ++ d else (s.vars i).data

theorem Attrs.ne_zero_of_append (h : attrs.append = true) : attrs ≠ 0 := by
  rintro rfl
  exact absurd h (by decide)

theorem appendedData_of_takes (h : Takes s i k d attrs) :
    appendedData s i k d attrs = (s.vars i).data ++ d := if_pos h

theorem appendedData_of_not (h : ¬ Takes s i k d attrs) :
    appendedData s i k d attrs = (s.vars i).data := if_neg h

/-- The time stamp has no part in it. -/
theorem takes_stamped (time : EfiTime) :
    Takes (s.setSlot i { s.vars i with timestamp := time }) i k d attrs ↔ Takes s i k d attrs := by
  unfold Takes
  rw [Storage.setSlot_vars, Function.update_self]
  exact Iff.rfl

/-- Where the append is not taken, the variable is as it was. -/
theorem setSlot_not_taken (h : ¬ Takes s i k d attrs) :
    s = s.setSlot i { s.vars i with data := appendedData s i k d attrs } := by
  rw [appendedData_of_not h]
  exact (Storage.setSlot_self s i).symm

theorem replace_append (hk : k.Clean) (hi : s.findSlot k = some i) (hd : d ≠ [])
    (hlarge : tooLarge s k d.length = false) :
    (s.replace i k d attrs.withoutAppend true).2 =
      s.setSlot i { s.vars i with data := appendedData s i k d attrs } := by
  have hname := variableSetName_self (s.below i) hk (Storage.findSlot_isMatch hi)
  have hne : ¬ d.length = 0 := fun h0 => hd (List.eq_nil_of_length_eq_zero h0)
  have hmax : ¬ d.length > MAX_VARIABLE_DATA_SIZE := by
    simp only [tooLarge, Bool.or_eq_false_iff, decide_eq_false_iff_not] at hlarge
    exact hlarge.1.2
  unfold Storage.replace
  by_cases hattrs : (s.vars i).attrs = attrs.withoutAppend
  · rw [if_neg (not_not.mpr hattrs), hname]
    dsimp only [variableSetData]
    rw [if_neg hne, if_neg hmax, if_pos rfl]
    by_cases hroom : (s.vars i).datasz + d.length > MAX_VARIABLE_DATA_SIZE
    · rw [if_pos hroom]
      have hnot : ¬ Takes s i k d attrs := fun h => Nat.not_lt.mpr h.2.2 hroom
      rw [appendedData_of_not hnot]
    · rw [if_neg hroom, appendedData_of_takes ⟨hlarge, hattrs, Nat.not_lt.mp hroom⟩, ← hattrs]
  · rw [if_pos hattrs]
    exact setSlot_not_taken fun h => hattrs h.2.1

theorem storageSet_append (hk : k.Clean) (hi : s.findSlot k = some i) (happ : attrs.append = true)
    (hd : d ≠ []) : (storageSet s k (some d) attrs).2 =
      s.setSlot i { s.vars i with data := appendedData s i k d attrs } := by
  have hsize : dataSize (some d) = d.length := rfl
  have hattrs : (attrs == 0) = false := beq_false_of_ne (Attrs.ne_zero_of_append happ)
  unfold storageSet
  rw [hsize]
  cases hlarge : tooLarge s k d.length with
  | true =>
      have hnot : ¬ Takes s i k d attrs := fun h => Bool.noConfusion (hlarge.symm.trans h.1)
      rw [if_pos rfl]
      exact setSlot_not_taken hnot
  | false =>
      rw [if_neg Bool.false_ne_true, happ, hattrs, Bool.not_true, Bool.and_false, Bool.or_false,
        if_neg Bool.false_ne_true, hi]
      exact replace_append hk hi hd hlarge

/-- The variable is stamped, with the appended data if they were taken. -/
theorem storageSetWithTimestamp_append (hk : k.Clean) (hi : s.findSlot k = some i)
    (happ : attrs.append = true) (hd : d ≠ []) :
    storageSetWithTimestamp s k (some d) attrs time = (.success, s.setSlot i
      { s.vars i with data := appendedData s i k d attrs, timestamp := time }) := by
  have hset := storageSet_append hk hi happ hd
  have hdel : isDelete attrs d.length = false := by
    rw [isDelete, beq_false_of_ne (Attrs.ne_zero_of_append happ), Bool.or_false]
    exact beq_false_of_ne fun h0 => hd (List.eq_nil_of_length_eq_zero h0)
  have hfind := storageSet_findSlot hk hi (asksRemoval_of_isDelete hdel)
  rcases storageSetWithTimestamp_cases s k d attrs time with
    ⟨hdel', _⟩ | ⟨_, ⟨hnone, _⟩ | ⟨j, hj, hr⟩⟩
  · rw [hdel] at hdel'
    cases hdel'
  · rw [hfind] at hnone
    cases hnone
  · obtain rfl := Option.some.inj (hfind.symm.trans hj)
    rw [hr, hset, Storage.setSlot_vars, Function.update_self, Storage.setSlot_setSlot]

/-- A new variable is created with the data, or not at all. -/
theorem storageSetWithTimestamp_new {r : EfiStatus × Storage} (hk : k.Clean)
    (hnone : s.findSlot k = none) (happ : attrs.append = true)
    (hr : storageSetWithTimestamp s k (some d) attrs time = r) :
    (r.1 ≠ .success ∧ r.2 = s) ∨
      r.1 = .success ∧ ∃ i, r.2.findSlot k = some i ∧ (r.2.vars i).data = d := by
  have hcreated : (storageSet s k (some d) attrs).2 = s ∨
      ∃ i, (storageSet s k (some d) attrs).2.findSlot k = some i ∧
        ((storageSet s k (some d) attrs).2.vars i).data = d := by
    rcases storageSet_new hnone with hsame | ⟨i, d', hd, _, hset⟩
    · exact .inl hsame
    · obtain rfl := Option.some.inj hd
      refine .inr ⟨i, ?_, ?_⟩
      · rw [hset]
        exact Slots.first_update_of_none hnone
          (Variable.isMatch_created hk (s.vars i) (s.below i) d attrs.withoutAppend)
      · rw [hset, Storage.setSlot_vars, Function.update_self]
  subst hr
  rcases storageSetWithTimestamp_cases s k d attrs time with
    ⟨hdel, hr⟩ | ⟨_, ⟨hlost, hr⟩ | ⟨i, hfound, hr⟩⟩
  · -- no data: `storage_set` refuses to create the variable
    have hd : d = [] := by
      rw [isDelete, beq_false_of_ne (Attrs.ne_zero_of_append happ), Bool.or_false] at hdel
      exact List.eq_nil_of_length_eq_zero (eq_of_beq hdel)
    subst hd
    rw [hr]
    rcases storageSet_nil hk (Attrs.ne_zero_of_append happ) with hfail | ⟨hno, _⟩
    · exact .inl hfail
    · rw [happ] at hno
      cases hno
  · rw [hr]
    rcases hcreated with hsame | ⟨i, hi, _⟩
    · exact .inl ⟨by simp, hsame⟩
    · rw [hlost] at hi
      cases hi
  · rw [hr]
    rcases hcreated with hsame | ⟨j, hj, hdata⟩
    · rw [hsame, hnone] at hfound
      cases hfound
    · obtain rfl := Option.some.inj (hj.symm.trans hfound)
      refine .inr ⟨rfl, j, Slots.first_update_self hj (Storage.findSlot_isMatch hj), ?_⟩
      rw [Storage.setSlot_vars, Function.update_self]
      exact hdata

end

/-! ## The function -/

section
variable {s : Storage} {k : Key} {attrs : Attrs} {time : EfiTime} {data : Buffer} {off : Nat}
  {olds news : List Esl}

/-- The store after an append to the variable in slot `i`. -/
def appended (s : Storage) (i : Fin MAX_VAR_COUNT) (k : Key) (olds news : List Esl)
    (attrs : Attrs) (time : EfiTime) : Storage :=
  if keptLists olds news = [] then s
  else s.setSlot i { s.vars i with
    data := appendedData s i k (encodeAll (keptLists olds news)) attrs, timestamp := time }

theorem storePayload_eq {d : List UInt8} (h : data.Holds off d) :
    storePayload s k data off d.length attrs time =
      some ((storageSetWithTimestamp s k (some d) attrs time).1,
        (storageSetWithTimestamp s k (some d) attrs time).2, data) := by
  rw [storePayload, h.slice_eq rfl]
  rfl

/-- Where the variable is there, what is new is appended to it. -/
theorem update_found (hk : k ∈ sigListKeys) {i : Fin MAX_VAR_COUNT} (hi : s.findSlot k = some i)
    (hold : (s.vars i).data = encodeAll olds) (happ : attrs.append = true)
    (time : EfiTime) (h : data.Holds off (encodeAll news)) :
    ∃ data', authInternalUpdateVariableWithTimestamp s k data off (encodeAll news).length
      attrs time = some (.success, appended s i k olds news attrs time, data') := by
  have hclean := secureBootKeys_clean k (sigListKeys_secureBoot k hk)
  have hfilter : (storageFindVariable s k).filter (fun v => attrs.append && isSigListVariable v) =
      some (s.vars i) := by
    rw [storageFindVariable_eq hi, happ, Option.filter_some, Bool.true_and,
      isSigListVariable_of_isMatch hk (Storage.findSlot_isMatch hi), if_pos rfl]
  obtain ⟨data', hkept, hholds, _⟩ := filterSignatureList_kept olds news h
  refine ⟨data', ?_⟩
  unfold authInternalUpdateVariableWithTimestamp
  rw [hfilter]
  dsimp only
  rw [hold]
  refine Option.bind_eq_some_iff.mpr ⟨_, hkept, ?_⟩
  dsimp only
  unfold appended
  by_cases hnil : keptLists olds news = []
  · rw [if_pos hnil, hnil]
    rfl
  · have hne : encodeAll (keptLists olds news) ≠ [] := mt encodeAll_eq_nil_iff.mp hnil
    rw [if_neg hnil, if_neg (mt List.eq_nil_of_length_eq_zero hne), storePayload_eq hholds,
      storageSetWithTimestamp_append hclean hi happ hne]

/-- Where it is not, it is created with the whole payload, or not at all. -/
theorem update_new (hk : k ∈ sigListKeys) (hnone : s.findSlot k = none)
    (happ : attrs.append = true) (news : List Esl) (time : EfiTime) :
    ∃ status s', (∀ (data : Buffer) (off : Nat), data.Holds off (encodeAll news) →
        authInternalUpdateVariableWithTimestamp s k data off (encodeAll news).length attrs time =
          some (status, s', data)) ∧
      (status ≠ .success ∧ s' = s ∨ status = .success ∧
        ∃ i, s'.findSlot k = some i ∧ (s'.vars i).data = encodeAll news) := by
  have hclean := secureBootKeys_clean k (sigListKeys_secureBoot k hk)
  generalize hr : storageSetWithTimestamp s k (some (encodeAll news)) attrs time = r
  refine ⟨r.1, r.2, ?_, storageSetWithTimestamp_new hclean hnone happ hr⟩
  intro data off hdata
  subst hr
  unfold authInternalUpdateVariableWithTimestamp
  rw [storageFindVariable_eq_none.mpr hnone]
  exact storePayload_eq hdata

/-! ## The second time -/

/-- The variable is in its slot still, and holds lists. -/
theorem appended_slot {i : Fin MAX_VAR_COUNT} (hi : s.findSlot k = some i)
    (hold : (s.vars i).data = encodeAll olds) (news : List Esl) (attrs : Attrs) (time : EfiTime) :
    (appended s i k olds news attrs time).findSlot k = some i ∧
      ∃ olds', ((appended s i k olds news attrs time).vars i).data = encodeAll olds' ∧
        appended (appended s i k olds news attrs time) i k olds' news attrs time =
          appended s i k olds news attrs time := by
  by_cases hnil : keptLists olds news = []
  · have hsame : appended s i k olds news attrs time = s := if_pos hnil
    rw [hsame]
    exact ⟨hi, olds, hold, hsame⟩
  have heq : appended s i k olds news attrs time = _ := if_neg hnil
  rw [heq]
  refine ⟨Slots.first_update_self hi (Storage.findSlot_isMatch hi), ?_⟩
  by_cases htakes : Takes s i k (encodeAll (keptLists olds news)) attrs
  · -- all of the payload is known now
    refine ⟨olds ++ keptLists olds news, ?_, if_pos (keptLists_appended olds news)⟩
    rw [Storage.setSlot_vars, Function.update_self, appendedData_of_takes htakes, hold,
      encodeAll_append]
  · refine ⟨olds, ?_, ?_⟩
    · rw [Storage.setSlot_vars, Function.update_self, appendedData_of_not htakes]
      exact hold
    · -- the same append is refused again
      have hagain := mt (takes_stamped time).mp htakes
      rw [appended, if_neg hnil, appendedData_of_not htakes, appendedData_of_not hagain,
        Storage.setSlot_vars, Function.update_self, Storage.setSlot_setSlot]

/-- **An append is idempotent**: with the same payload, attributes and time stamp a second call
leaves the store as it is, and succeeds if the first one did. -/
theorem append_idempotent (hk : k ∈ sigListKeys)
    (hs : ∀ v, storageFindVariable s k = some v → ∃ olds, v.data = encodeAll olds)
    (news : List Esl) (happ : attrs.append = true) (time : EfiTime) {data data' : Buffer}
    {off off' : Nat} (h : data.Holds off (encodeAll news))
    (h' : data'.Holds off' (encodeAll news)) :
    ∃ status status' s₁ rest rest',
      authInternalUpdateVariableWithTimestamp s k data off (encodeAll news).length attrs time =
        some (status, s₁, rest) ∧
      authInternalUpdateVariableWithTimestamp s₁ k data' off' (encodeAll news).length attrs time =
        some (status', s₁, rest') ∧
      (status = .success → status' = .success) := by
  cases hfind : s.findSlot k with
  | some i =>
      obtain ⟨olds, hold⟩ := hs _ (storageFindVariable_eq hfind)
      obtain ⟨hi, olds', hold', hsame⟩ := appended_slot hfind hold news attrs time
      obtain ⟨rest, hfirst⟩ := update_found hk hfind hold happ time h
      obtain ⟨rest', hsecond⟩ := update_found hk hi hold' happ time h'
      rw [hsame] at hsecond
      exact ⟨_, _, _, rest, rest', hfirst, hsecond, fun _ => rfl⟩
  | none =>
      obtain ⟨status, s₁, hcall, ⟨_, rfl⟩ | ⟨_, i, hi, hdata⟩⟩ := update_new hk hfind happ news time
      · -- refused, and so it is again
        exact ⟨status, status, s₁, data, data', hcall data off h, hcall data' off' h', id⟩
      · obtain ⟨rest', hsecond⟩ := update_found hk hi hdata happ time h'
        have hsame : appended s₁ i k news news attrs time = s₁ := if_pos (keptLists_self news)
        rw [hsame] at hsecond
        exact ⟨status, .success, s₁, data, rest', hcall data off h, hsecond, fun _ => rfl⟩

end

/-- A store with two digests in dbx. -/
def digestStore : Storage :=
  (storageSet (.empty 0) dbxKey (some (encodeAll [digestEsl [1, 2] (by decide)])) AT_ATTRS).2

/-- A payload with a digest that is there, one that is not, twice, and a list without any. -/
def digestPayload : List UInt8 :=
  encodeAll [digestEsl [2, 3, 3] (by decide), digestEsl [] (by decide)]

theorem append_idempotent_digests : ∃ status status' s₁ rest rest',
    authInternalUpdateVariableWithTimestamp digestStore dbxKey (.ofList digestPayload) 0
      digestPayload.length (AT_ATTRS ||| EFI_VARIABLE_APPEND_WRITE) EfiTime.zero =
        some (status, s₁, rest) ∧
    authInternalUpdateVariableWithTimestamp s₁ dbxKey (.ofList digestPayload) 0
      digestPayload.length (AT_ATTRS ||| EFI_VARIABLE_APPEND_WRITE) EfiTime.zero =
        some (status', s₁, rest') ∧
    (status = .success → status' = .success) := by
  have hdata : (storageFindVariable digestStore dbxKey).map Variable.data =
      some (encodeAll [digestEsl [1, 2] (by decide)]) := by
    decide +kernel
  refine append_idempotent (by decide +kernel) ?_ _ (by decide) _ (Buffer.holds_ofList _)
    (Buffer.holds_ofList _)
  intro v hv
  rw [hv] at hdata
  exact ⟨_, Option.some.inj hdata⟩

end Uefistored
