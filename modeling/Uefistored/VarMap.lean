/-
# `Uefistored.VarMap` — the store as a finite map

What the slot array is for: a finite map from names and GUIDs to attributes,
data, time stamp and cert, of at most `MAX_VAR_COUNT` entries.  `VarMap.set` says
what `storage_set` means on such a map, without slots, searches and counters; it
fails, or there is a new map.

`Represents s m` relates a store to the map it stands for.  One call of
`storage_set`, `storage_remove` or `storage_get` answers as the map does and
leaves a store that represents the new map (`Represents.step`), so that no
sequence of calls can tell the two apart (`store_refines_map`).
-/
import Mathlib.Data.Finmap
import Uefistored.Tidy

namespace Uefistored

open Lib

/-! ## The map -/

/-- What is stored under a key. -/
structure Entry where
  attrs : Attrs
  data : List UInt8
  timestamp : EfiTime
  cert : Digest
  deriving DecidableEq

def Variable.entry (v : Variable) : Entry := ⟨v.attrs, v.data, v.timestamp, v.cert⟩

/-- A new entry: neither time stamp nor signer. -/
def Entry.fresh (data : List UInt8) (attrs : Attrs) : Entry :=
  ⟨attrs, data, EfiTime.zero, Block.zero _⟩

/-- The data of an entry after a write to it. -/
def Entry.written (e : Entry) (data : List UInt8) (attrs : Attrs) : List UInt8 :=
  if attrs.append then e.data ++ data else data

abbrev VarMap := Finmap (fun _ : VarKey => Entry)

namespace VarMap

/-- `storage_set` on the map; `none` is a failure. -/
def set (m : VarMap) (K : VarKey) (data : List UInt8) (attrs : Attrs) : Option VarMap :=
  if data.length > MAX_VARIABLE_DATA_SIZE then none
  else if attrs = 0 ∨ data = [] ∧ attrs.append = false then
    if K ∈ m then some (m.erase K) else none
  else if data = [] then none
  else
    match m.lookup K with
    | none =>
      if m.keys.card < MAX_VAR_COUNT then some (m.insert K (.fresh data attrs.withoutAppend))
      else none
    | some e =>
      if e.attrs = attrs.withoutAppend ∧ (e.written data attrs).length ≤ MAX_VARIABLE_DATA_SIZE then
        some (m.insert K { e with data := e.written data attrs })
      else none

/-- `storage_remove` on the map. -/
def remove (m : VarMap) (K : VarKey) : Option VarMap := if K ∈ m then some (m.erase K) else none

/-- `storage_get` on the map. -/
def get (m : VarMap) (efiAtRuntime : Bool) (K : VarKey) (dataSize : Nat) :
    Option (Attrs × List UInt8) :=
  match m.lookup K with
  | none => none
  | some e =>
    if rtDenyAccess efiAtRuntime e.attrs = false ∧ e.data.length ≤ dataSize ∧
        dataSize ≤ MAX_SHARED_OVMF_MEM then some (e.attrs, e.data)
    else none

end VarMap

/-! ## Calls -/

/-- A call of one of the three storage functions. -/
inductive Call
  | set (K : VarKey) (data : List UInt8) (attrs : Attrs)
  | remove (K : VarKey)
  | get (efiAtRuntime : Bool) (K : VarKey) (dataSize : Nat)

/-- Whether the call succeeded, and what `storage_get` copied out. -/
structure Reply where
  ok : Bool
  value : Option (Attrs × List UInt8)
  deriving DecidableEq

/-- The call on the store. -/
def Call.exec (s : Storage) : Call → Reply × Storage
  | .set K data attrs =>
    (⟨(storageSet s K.key (some data) attrs).1 == .success, none⟩,
      (storageSet s K.key (some data) attrs).2)
  | .remove K => (⟨(storageRemove s K.key).1 == .success, none⟩, (storageRemove s K.key).2)
  | .get efiAtRuntime K dataSize =>
    (⟨(storageGet s efiAtRuntime K.key dataSize).1 == .success,
      (storageGet s efiAtRuntime K.key dataSize).2.2⟩, s)

/-- A map that is changed or left alone. -/
def replyTo (m : VarMap) (m' : Option VarMap) : Reply × VarMap := (⟨m'.isSome, none⟩, m'.getD m)

/-- The call on the map. -/
def Call.spec (m : VarMap) : Call → Reply × VarMap
  | .set K data attrs => replyTo m (m.set K data attrs)
  | .remove K => replyTo m (m.remove K)
  | .get efiAtRuntime K dataSize =>
    (⟨(m.get efiAtRuntime K dataSize).isSome, m.get efiAtRuntime K dataSize⟩, m)

/-! ## The relation -/

/-- The store stands for the map. -/
structure Represents (s : Storage) (m : VarMap) : Prop where
  tidy : s.Tidy
  lookup : ∀ K : VarKey, m.lookup K = (storageFindVariable s K.key).map Variable.entry

namespace Represents

variable {s s' : Storage} {m : VarMap} {K : VarKey}

theorem empty (front : UInt16) : Represents (.empty front) ∅ := by
  refine ⟨Storage.tidy_empty front, ?_⟩
  intro K
  have hnone : storageFindVariable (.empty front) K.key = none := by
    refine storageFindVariable_eq_none.mpr (Slots.first_eq_none_iff.mpr ?_)
    intro i
    exact Variable.not_isMatch_of_isFree K.clean Variable.isFree_zero
  rw [hnone, Finmap.lookup_empty]
  rfl

theorem lookup_some (h : Represents s m) {i : Fin MAX_VAR_COUNT}
    (hi : s.findSlot K.key = some i) : m.lookup K = some (s.vars i).entry := by
  rw [h.lookup, storageFindVariable_eq hi]
  rfl

theorem lookup_none (h : Represents s m) (hnone : s.findSlot K.key = none) :
    m.lookup K = none := by
  rw [h.lookup, storageFindVariable_eq_none.mpr hnone]
  rfl

theorem mem_iff (h : Represents s m) : K ∈ m ↔ (s.findSlot K.key).isSome := by
  rw [← Finmap.lookup_isSome, h.lookup, Option.isSome_map]
  cases hf : s.findSlot K.key with
  | none => rw [storageFindVariable_eq_none.mpr hf]; rfl
  | some i => rw [storageFindVariable_eq hf]; rfl

/-- There are as many keys as there are slots in use. -/
theorem card_keys (h : Represents s m) : m.keys.card = Slots.count s.vars Variable.isValid := by
  have hslot : ∀ K ∈ m.keys, ∃ i, s.findSlot K.key = some i := by
    intro K hK
    exact Option.isSome_iff_exists.mp (h.mem_iff.mp (Finmap.mem_keys.mp hK))
  refine Finset.card_bij (fun K _ => (s.findSlot K.key).getD 0) ?_ ?_ ?_
  · intro K hK
    obtain ⟨i, hi⟩ := hslot K hK
    rw [hi, Option.getD_some, Finset.mem_filter]
    exact ⟨Finset.mem_univ i,
      Variable.isValid_of_isMatch K.clean.named (Storage.findSlot_isMatch hi)⟩
  · intro K hK K' hK' heq
    obtain ⟨i, hi⟩ := hslot K hK
    obtain ⟨i', hi'⟩ := hslot K' hK'
    rw [hi, hi', Option.getD_some, Option.getD_some] at heq
    subst heq
    exact VarKey.eq_of_isMatch (Storage.findSlot_isMatch hi) (Storage.findSlot_isMatch hi')
  · intro i hi
    have hused := Variable.isFree_of_isValid (Finset.mem_filter.mp hi).2
    obtain ⟨K, hK⟩ := h.tidy.named i hused
    have hfind := h.tidy.keyed.findSlot_eq K.clean hK
    refine ⟨K, Finmap.mem_keys.mpr (h.mem_iff.mpr (by rw [hfind]; rfl)), ?_⟩
    rw [hfind, Option.getD_some]

theorem card_le (h : Represents s m) : m.keys.card ≤ MAX_VAR_COUNT := by
  rw [h.card_keys]
  exact Slots.count_le _ _

/-- There is room for a key exactly if there is a free slot. -/
theorem freeSlot_isSome (h : Represents s m) :
    s.freeSlot.isSome ↔ m.keys.card < MAX_VAR_COUNT := by
  rw [h.card_keys]
  cases hf : s.freeSlot with
  | some i =>
      have hinvalid : (s.vars i).isValid = false := by
        rw [h.tidy.counted.valid i, show (s.vars i).isFree = true from Slots.first_pred hf]
        rfl
      exact ⟨fun _ => Slots.count_lt hinvalid, fun _ => rfl⟩
  | none =>
      have hall : ∀ i, (s.vars i).isValid = true := by
        intro i
        rw [h.tidy.counted.valid i,
          show (s.vars i).isFree = false from Slots.first_eq_none_iff.mp hf i]
        rfl
      constructor
      · intro hsome
        cases hsome
      · intro hlt
        rw [Slots.count, Finset.filter_true_of_mem (fun i _ => hall i), Finset.card_univ,
          Fintype.card_fin] at hlt
        exact absurd hlt (lt_irrefl _)

/-- A write under `K` is seen under `K` only. -/
theorem of_write (h : Represents s m) (hw : Write K.key s s') {m' : VarMap}
    (hself : m'.lookup K = (storageFindVariable s' K.key).map Variable.entry)
    (hother : ∀ K', K' ≠ K → m'.lookup K' = m.lookup K') : Represents s' m' := by
  refine ⟨hw.tidy h.tidy, ?_⟩
  intro K'
  by_cases hK : K' = K
  · rw [hK]
    exact hself
  · have hspares : ∀ k, k = K.key → k.Spares K'.key := by
      rintro _ rfl
      exact K.clean.spares K'.clean (fun hsame => hK (VarKey.eq_of_same hsame).symm)
    rw [hother K' hK, h.lookup]
    rw [(Writes.single (K := (· = K.key)) rfl hw).find_eq hspares]

end Represents

/-! ## What the store does -/

section
variable {s : Storage} {K : VarKey} {d : List UInt8} {attrs : Attrs}

/-- The counter check never refuses anything: there is room for every slot to be full. -/
theorem tooLarge_eq_false (h : s.Tidy) (K : VarKey) (hd : d.length ≤ MAX_VARIABLE_DATA_SIZE) :
    tooLarge s K.key (dataSize (some d)) = false := by
  have hname : K.key.namesz ≤ 256 := K.fits
  have hdata : d.length ≤ 32768 := hd
  have hle : s.total ≤ 128 := h.counted.total_le
  have hused := h.counted.used
  have hmax : MAX_STORAGE_SIZE = 1073741824 := by decide
  simp only [MAX_VARIABLE_NAME_SIZE, MAX_VARIABLE_DATA_SIZE] at hused
  have hin : add64 d.length K.key.namesz = d.length + K.key.namesz := add64_of_lt (by omega)
  have hsum : add64 (d.length + K.key.namesz) s.used = d.length + K.key.namesz + s.used :=
    add64_of_lt (by omega)
  rw [Bool.eq_false_iff]
  intro hlarge
  simp only [tooLarge, dataSize, Option.getD_some, hin, hsum, Bool.or_eq_true] at hlarge
  rcases hlarge with (hlarge | hlarge) | hlarge
  · exact absurd (of_decide_eq_true hlarge) (not_lt.mpr K.fits)
  · exact absurd (of_decide_eq_true hlarge) (not_lt.mpr hd)
  · have := of_decide_eq_true hlarge
    omega

theorem storageSet_removes (h : s.Tidy) (hd : d.length ≤ MAX_VARIABLE_DATA_SIZE)
    (hrem : asksRemoval (some d) attrs = true) :
    storageSet s K.key (some d) attrs = storageRemove s K.key := by
  unfold storageSet
  rw [if_neg (by rw [tooLarge_eq_false h K hd]; exact Bool.false_ne_true)]
  exact if_pos hrem

/-- A removal is a write. -/
theorem storageRemove_write (h : s.Tidy) (K : VarKey) :
    Write K.key s (storageRemove s K.key).2 := by
  have hset : storageSet s K.key (some []) 0 = storageRemove s K.key :=
    storageSet_removes h (Nat.zero_le _) rfl
  rw [← hset]
  exact .set (some []) 0

/-- Otherwise it replaces what it finds, or takes a free slot. -/
theorem storageSet_stores (h : s.Tidy) (hd : d.length ≤ MAX_VARIABLE_DATA_SIZE)
    (hrem : asksRemoval (some d) attrs = false) : storageSet s K.key (some d) attrs =
      match s.findSlot K.key with
      | some i => s.replace i K.key d attrs.withoutAppend attrs.append
      | none =>
        match s.freeSlot with
        | some i => s.create i K.key d attrs.withoutAppend
        | none => (.deviceError, s) := by
  unfold storageSet
  rw [if_neg (by rw [tooLarge_eq_false h K hd]; exact Bool.false_ne_true)]
  exact if_neg (show ¬ asksRemoval (some d) attrs = true by rw [hrem]; exact Bool.false_ne_true)

theorem storageSet_replaces (h : s.Tidy) (hd : d.length ≤ MAX_VARIABLE_DATA_SIZE)
    (hrem : asksRemoval (some d) attrs = false) (hne : d ≠ []) {i : Fin MAX_VAR_COUNT}
    (hi : s.findSlot K.key = some i) (hattrs : (s.vars i).attrs = attrs.withoutAppend)
    (hfits : (if attrs.append then (s.vars i).data ++ d else d).length ≤ MAX_VARIABLE_DATA_SIZE) :
    storageSet s K.key (some d) attrs = (.success, s.setSlot i { s.vars i with
      data := if attrs.append then (s.vars i).data ++ d else d }) := by
  have hset : variableSetData (s.vars i) (some d) attrs.append = .ok { s.vars i with
      data := if attrs.append then (s.vars i).data ++ d else d } := by
    have hlen : ¬ d.length = 0 := by simpa using hne
    unfold variableSetData
    dsimp only
    rw [if_neg hlen, if_neg (not_lt.mpr hd)]
    cases happ : attrs.append with
    | false => rfl
    | true =>
        rw [happ, if_pos rfl, List.length_append] at hfits
        rw [if_pos rfl, if_neg (show ¬ (s.vars i).datasz + d.length > _ from not_lt.mpr hfits)]
        rfl
  rw [storageSet_stores h hd hrem, hi]
  dsimp only
  unfold Storage.replace
  rw [if_neg (not_not.mpr hattrs),
    variableSetName_self (s.below i) K.clean (Storage.findSlot_isMatch hi)]
  dsimp only
  rw [hset, ← hattrs]

theorem storageSet_creates (h : s.Tidy) (hd : d.length ≤ MAX_VARIABLE_DATA_SIZE)
    (hrem : asksRemoval (some d) attrs = false) (hne : d ≠ []) {i : Fin MAX_VAR_COUNT}
    (hnone : s.findSlot K.key = none) (hi : s.freeSlot = some i) :
    (storageSet s K.key (some d) attrs).1 = .success := by
  have h0 : K.key.namesz ≠ 0 := K.clean.named.size
  rw [storageSet_stores h hd hrem, hnone, hi]
  dsimp only
  unfold Storage.create
  rw [variableCreateNoalloc_eq _ _ _ _ hne hd h0 K.clean.fits]
  rfl

end

/-! ## Call by call -/

/-- The result of a call is what the map says: success is a new map, and otherwise the store
stands for the old one. -/
structure Agrees (m : VarMap) (r : EfiStatus × Storage) (m' : Option VarMap) : Prop where
  ok : (r.1 == .success) = m'.isSome
  represents : Represents r.2 (m'.getD m)

namespace Represents

variable {s : Storage} {m : VarMap} {K : VarKey} {d : List UInt8} {attrs : Attrs}

theorem failed (h : Represents s m) (hfail : (storageSet s K.key (some d) attrs).1 ≠ .success) :
    Agrees m (storageSet s K.key (some d) attrs) none := by
  refine ⟨beq_eq_false_iff_ne.mpr hfail, ?_⟩
  rw [storageSet_failed K.clean hfail]
  exact h

/-- Behind a removal, nothing is found. -/
theorem findSlot_remove (h : Represents s m) {i : Fin MAX_VAR_COUNT}
    (hi : s.findSlot K.key = some i) : (s.remove i).findSlot K.key = none := by
  refine Slots.first_eq_none_iff.mpr ?_
  intro j
  show (Function.update s.vars i Variable.zero j).isMatch K.key = false
  by_cases hj : j = i
  · rw [hj, Function.update_self]
    exact Variable.not_isMatch_of_isFree K.clean Variable.isFree_zero
  · rw [Function.update_of_ne hj]
    by_contra hmatch
    rw [Bool.not_eq_false] at hmatch
    have hfind := h.tidy.keyed.findSlot_eq K.clean hmatch
    exact hj (Option.some.inj (hfind.symm.trans hi))

theorem remove (h : Represents s m) (K : VarKey) :
    Agrees m (storageRemove s K.key) (m.remove K) := by
  have hw := storageRemove_write h.tidy K
  unfold VarMap.remove
  unfold storageRemove at hw ⊢
  cases hi : s.findSlot K.key with
  | none =>
      rw [if_neg (fun hK => by rw [h.mem_iff, hi] at hK; cases hK)]
      exact ⟨rfl, h⟩
  | some i =>
      rw [hi] at hw
      rw [if_pos (h.mem_iff.mpr (by rw [hi]; rfl))]
      refine ⟨rfl, h.of_write hw ?_ ?_⟩
      · rw [storageFindVariable_eq_none.mpr (h.findSlot_remove hi), Option.getD_some,
          Finmap.lookup_erase]
        rfl
      · intro K' hK'
        exact Finmap.lookup_erase_ne hK'

/-- An entry that is there is written to. -/
theorem replace (h : Represents s m) (hd : d.length ≤ MAX_VARIABLE_DATA_SIZE)
    (hrem : asksRemoval (some d) attrs = false) (hne : d ≠ []) {i : Fin MAX_VAR_COUNT}
    (hi : s.findSlot K.key = some i) :
    Agrees m (storageSet s K.key (some d) attrs)
      (if (s.vars i).entry.attrs = attrs.withoutAppend ∧
          ((s.vars i).entry.written d attrs).length ≤ MAX_VARIABLE_DATA_SIZE then
        some (m.insert K { (s.vars i).entry with data := (s.vars i).entry.written d attrs })
      else none) := by
  split
  · rename_i hcond
    have heq := storageSet_replaces h.tidy hd hrem hne hi hcond.1 hcond.2
    have hw : Write K.key s (storageSet s K.key (some d) attrs).2 := .set (some d) attrs
    rw [heq] at hw ⊢
    refine ⟨rfl, h.of_write hw ?_ ?_⟩
    · have hfind := storageFindVariable_eq (s := s.setSlot i { s.vars i with
          data := if attrs.append then (s.vars i).data ++ d else d })
        (Slots.first_update_self hi (Storage.findSlot_isMatch hi))
      rw [hfind, Storage.setSlot_vars, Function.update_self, Option.getD_some,
        Finmap.lookup_insert]
      rfl
    · intro K' hK'
      exact Finmap.lookup_insert_of_ne _ hK'
  · rename_i hcond
    refine h.failed (fun hok => hcond ?_)
    have hc := storageSet_cases s K.key (some d) attrs
    generalize storageSet s K.key (some d) attrs = r at hc hok
    obtain ⟨st, s'⟩ := r
    cases hc with
    | refused hst => exact absurd hok hst
    | removed hr => rw [hrem] at hr; cases hr
    | replaced _ hd' _ _ _ hj hattrs hfits =>
        obtain rfl := Option.some.inj hd'
        obtain rfl := Option.some.inj (hi.symm.trans hj)
        exact ⟨hattrs, hfits⟩
    | renamed hst => exact absurd hok hst
    | created _ _ _ _ _ hnone => rw [hi] at hnone; cases hnone

/-- A new entry is made if there is room. -/
theorem create (h : Represents s m) (hd : d.length ≤ MAX_VARIABLE_DATA_SIZE)
    (hrem : asksRemoval (some d) attrs = false) (hne : d ≠ [])
    (hnone : s.findSlot K.key = none) :
    Agrees m (storageSet s K.key (some d) attrs)
      (if m.keys.card < MAX_VAR_COUNT then
        some (m.insert K (.fresh d attrs.withoutAppend)) else none) := by
  have hc := storageSet_cases s K.key (some d) attrs
  split
  · rename_i hroom
    obtain ⟨i, hi⟩ := Option.isSome_iff_exists.mp (h.freeSlot_isSome.mpr hroom)
    have hok := storageSet_creates h.tidy hd hrem hne hnone hi
    have hw : Write K.key s (storageSet s K.key (some d) attrs).2 := .set (some d) attrs
    refine ⟨beq_iff_eq.mpr hok, h.of_write hw ?_ ?_⟩
    · rw [Option.getD_some, Finmap.lookup_insert]
      generalize storageSet s K.key (some d) attrs = r at hc hok
      obtain ⟨st, s'⟩ := r
      cases hc with
      | refused hst => exact absurd hok hst
      | removed hr => rw [hrem] at hr; cases hr
      | replaced _ _ _ _ _ hj => rw [hnone] at hj; cases hj
      | renamed hst => exact absurd hok hst
      | @created j d' _ hd' _ _ _ _ hj =>
          obtain rfl := Option.some.inj hd'
          obtain rfl := Option.some.inj (hi.symm.trans hj)
          have hzero := h.tidy.zero i (Slots.first_pred hi)
          have hfind := Slots.first_update_of_none (i := i) hnone
            (Variable.isMatch_created K.clean (s.vars i) (s.below i) d attrs.withoutAppend)
          rw [show storageFindVariable _ K.key = _ from Slots.lookup_eq_some hfind]
          simp only [Storage.setSlot_vars, Function.update_self, hzero]
          rfl
    · intro K' hK'
      exact Finmap.lookup_insert_of_ne _ hK'
  · rename_i hroom
    refine h.failed (fun hok => hroom (h.freeSlot_isSome.mp ?_))
    generalize storageSet s K.key (some d) attrs = r at hc hok
    obtain ⟨st, s'⟩ := r
    cases hc with
    | refused hst => exact absurd hok hst
    | removed hr => rw [hrem] at hr; cases hr
    | replaced _ _ _ _ _ hj => rw [hnone] at hj; cases hj
    | renamed hst => exact absurd hok hst
    | created _ _ _ _ _ _ hj => rw [hj]; rfl

theorem asksRemoval_iff : asksRemoval (some d) attrs = true ↔
    attrs = 0 ∨ d = [] ∧ attrs.append = false := by
  simp only [asksRemoval, dataSize, Option.getD_some, Bool.or_eq_true, Bool.and_eq_true,
    beq_iff_eq, List.length_eq_zero_iff, Bool.not_eq_true']
  exact or_comm

theorem set (h : Represents s m) (K : VarKey) (d : List UInt8) (attrs : Attrs) :
    Agrees m (storageSet s K.key (some d) attrs) (m.set K d attrs) := by
  unfold VarMap.set
  by_cases hd : d.length > MAX_VARIABLE_DATA_SIZE
  · rw [if_pos hd]
    refine h.failed ?_
    unfold storageSet
    rw [if_pos (by simp [tooLarge, dataSize, hd])]
    simp
  rw [if_neg hd]
  rw [not_lt] at hd
  cases hrem : asksRemoval (some d) attrs with
  | true =>
      rw [if_pos (asksRemoval_iff.mp hrem), storageSet_removes h.tidy hd hrem]
      exact h.remove K
  | false =>
      rw [if_neg (fun hc => by rw [asksRemoval_iff.mpr hc] at hrem; cases hrem)]
      by_cases hne : d = []
      · -- an append of nothing
        rw [if_pos hne]
        refine h.failed (fun hok => ?_)
        have hc := storageSet_cases s K.key (some d) attrs
        generalize storageSet s K.key (some d) attrs = r at hc hok
        obtain ⟨st, s'⟩ := r
        cases hc with
        | refused hst => exact hst hok
        | removed hr => rw [hrem] at hr; cases hr
        | replaced _ hd' hne' => exact hne' ((Option.some.inj hd').symm.trans hne)
        | renamed hst => exact hst hok
        | created _ hd' hne' => exact hne' ((Option.some.inj hd').symm.trans hne)
      · rw [if_neg hne]
        cases hi : s.findSlot K.key with
        | some i =>
            rw [h.lookup_some hi]
            exact h.replace hd hrem hne hi
        | none =>
            rw [h.lookup_none hi]
            exact h.create hd hrem hne hi

theorem get (h : Represents s m) (efiAtRuntime : Bool) (K : VarKey) (dataSize : Nat) :
    (storageGet s efiAtRuntime K.key dataSize).2.2 = m.get efiAtRuntime K dataSize ∧
      ((storageGet s efiAtRuntime K.key dataSize).1 == .success) =
        (m.get efiAtRuntime K dataSize).isSome := by
  unfold storageGet VarMap.get
  rw [h.lookup]
  cases hv : storageFindVariable s K.key with
  | none => exact ⟨rfl, rfl⟩
  | some v =>
      dsimp only [Option.map_some, Variable.entry]
      cases hdeny : rtDenyAccess efiAtRuntime v.attrs with
      | true => exact ⟨rfl, rfl⟩
      | false =>
          rw [if_neg Bool.false_ne_true]
          by_cases hsmall : dataSize < v.datasz
          · rw [if_pos hsmall, if_neg (fun hc => absurd hc.2.1 (not_le.mpr hsmall))]
            exact ⟨rfl, rfl⟩
          by_cases hlarge : dataSize > MAX_SHARED_OVMF_MEM
          · rw [if_neg hsmall, if_pos hlarge, if_neg (fun hc => absurd hc.2.2 (not_le.mpr hlarge))]
            exact ⟨rfl, rfl⟩
          · rw [if_neg hsmall, if_neg hlarge,
              if_pos ⟨rfl, not_lt.mp hsmall, not_lt.mp hlarge⟩]
            exact ⟨rfl, rfl⟩

/-- One call: the same answer, and again a store that stands for the map. -/
theorem step (h : Represents s m) (c : Call) :
    (c.exec s).1 = (c.spec m).1 ∧ Represents (c.exec s).2 (c.spec m).2 := by
  cases c with
  | set K data attrs =>
      have hset := h.set K data attrs
      exact ⟨congrArg (Reply.mk · none) hset.ok, hset.represents⟩
  | remove K =>
      have hrem := h.remove K
      exact ⟨congrArg (Reply.mk · none) hrem.ok, hrem.represents⟩
  | get efiAtRuntime K dataSize =>
      obtain ⟨hvalue, hok⟩ := h.get efiAtRuntime K dataSize
      exact ⟨congrArg₂ Reply.mk hok hvalue, h⟩

end Represents

/-- Whatever is called, the store stands for what the map has become. -/
theorem represents_trace (front : UInt16) (cs : List Call) :
    (trace Call.exec (.empty front) cs).1 = (trace Call.spec ∅ cs).1 ∧
      Represents (trace Call.exec (.empty front) cs).2 (trace Call.spec ∅ cs).2 :=
  trace_simulation (R := Represents) (fun _ _ c h => h.step c) cs (.empty front)

/-- From the empty store and the empty map, every sequence of calls gets the same answers from
both, and leaves a store in which every look-up finds what the map holds; and the map never
has more than `MAX_VAR_COUNT` entries. -/
theorem store_refines_map (front : UInt16) (cs : List Call) :
    (trace Call.exec (.empty front) cs).1 = (trace Call.spec ∅ cs).1 ∧
      (∀ K : VarKey, (storageFindVariable (trace Call.exec (.empty front) cs).2 K.key).map
        Variable.entry = (trace Call.spec ∅ cs).2.lookup K) ∧
      (trace Call.spec ∅ cs).2.keys.card ≤ MAX_VAR_COUNT := by
  obtain ⟨hanswers, hend⟩ := represents_trace front cs
  exact ⟨hanswers, fun K => (hend.lookup K).symm, hend.card_le⟩

end Uefistored
