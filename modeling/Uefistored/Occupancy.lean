/-
# `Uefistored.Occupancy` — the counters, and the sizes in a slot

Whether a slot is in use is asked in three ways: `name[0] == 0` when a free one
is looked for, `variable_is_valid` when the variables are listed, and equal
sizes and bytes when one is looked up.  `total` and `used` are kept by creation
and removal alone.

A request is refused when the first byte of its name is zero, so no name that is
stored starts with a NUL unit (`Key.Named`); then the three tests agree, and the
counters are right (`counters_exact`), whatever bytes a guest sends.  The sizes
in a slot are in their ranges as well, but for a name of one byte: for that one
`sanitize_namesz` looks at the unit in front of the name, and takes two bytes off
a size of one (`oneByteName`).
-/
import Uefistored.Distinct

namespace Uefistored

open Lib

/-! ## Names that are stored -/

/-- A name that is not empty and does not start with a NUL unit. -/
structure Key.Named (k : Key) : Prop where
  size : k.namesz ≠ 0
  fits : k.namesz ≤ MAX_VARIABLE_NAME_SIZE
  head : unitAt k.bytes 0 ≠ 0

theorem Key.Clean.named {k : Key} (hk : k.Clean) : k.Named := by
  have h2 := hk.two_le
  refine ⟨by omega, hk.fits, ?_⟩
  rw [Key.bytes, unitAt_take (by omega)]
  exact hk.head

/-- A unit that is cut off is at most the whole one. -/
theorem unitAt_take_le (l : List UInt8) (n i : Nat) : unitAt (l.take n) i ≤ unitAt l i := by
  have hle : ∀ j, ((l.take n).getD j 0).toNat ≤ (l.getD j 0).toNat := by
    intro j
    rw [List.getD_eq_getElem?_getD, List.getD_eq_getElem?_getD, List.getElem?_take]
    split
    · exact le_refl _
    · exact Nat.zero_le _
  have hlo := hle (2 * i)
  have hhi := hle (2 * i + 1)
  unfold unitAt
  omega

theorem unitAt_ne_of_take {l : List UInt8} {n i : Nat} (h : unitAt (l.take n) i ≠ 0) :
    unitAt l i ≠ 0 := by
  have := unitAt_take_le l n i
  omega

/-- The size is not rewritten to zero: a name of one or two units keeps its first. -/
theorem Key.Named.stored_ne {k : Key} (hk : k.Named) (below : UInt16) : k.stored below ≠ 0 := by
  have h0 := hk.size
  have hmax : k.namesz ≤ 256 := hk.fits
  have hhead := unitAt_ne_of_take hk.head
  unfold Key.stored
  split
  · rename_i hlast
    intro hzero
    unfold sub64 at hzero
    have hsz : k.namesz = 2 := by omega
    rw [lastUnit, hsz] at hlast
    exact hhead hlast
  · exact h0

theorem Key.Named.stored_le {k : Key} (hk : k.Named) (h2 : 2 ≤ k.namesz) (below : UInt16) :
    k.stored below ≤ MAX_VARIABLE_NAME_SIZE := by
  have hmax : k.namesz ≤ 256 := hk.fits
  unfold Key.stored
  split
  · rw [sub64_of_le h2 (by omega)]
    exact le_trans (Nat.sub_le _ _) hk.fits
  · exact hk.fits

theorem Variable.isValid_iff {v : Variable} :
    v.isValid = true ↔ unitAt v.name.bytes 0 ≠ 0 ∧ v.namesz ≠ 0 := by
  rw [Variable.isValid, Bool.and_eq_true, bne_iff_ne, bne_iff_ne]

theorem Variable.isValid_zero : Variable.zero.isValid = false := by
  rw [Bool.eq_false_iff]
  intro h
  exact (Variable.isValid_iff.mp h).2 rfl

theorem Variable.isFree_zero_eq_not_isValid : Variable.zero.isFree = !Variable.zero.isValid := by
  rw [Variable.isFree_zero, Variable.isValid_zero]
  rfl

/-- A slot that was named after `k` is in use. -/
theorem Variable.isValid_named {k : Key} (hk : k.Named) (v : Variable) (below : UInt16) :
    (v.named below k).isValid = true := by
  refine Variable.isValid_iff.mpr ⟨?_, hk.stored_ne below⟩
  have htake : (v.named below k).name.bytes.take k.namesz = k.bytes :=
    Block.overwrite_take _ _ hk.fits
  refine unitAt_ne_of_take (n := k.namesz) ?_
  rw [htake]
  exact hk.head

theorem Variable.isValid_of_isMatch {k : Key} (hk : k.Named) {v : Variable}
    (h : v.isMatch k = true) : v.isValid = true := by
  obtain ⟨hsz, hb, _⟩ := Variable.isMatch_iff.mp h
  have hsz0 : v.namesz ≠ 0 := by rw [hsz]; exact hk.size
  refine Variable.isValid_iff.mpr ⟨unitAt_ne_of_take (n := v.namesz) ?_, hsz0⟩
  rw [show v.name.bytes.take v.namesz = k.bytes from hb]
  exact hk.head

/-! ## The counters -/

/-- The counters are right, and a slot is free exactly if it is not valid. -/
structure Storage.Counted (s : Storage) : Prop where
  total : s.total = Slots.count s.vars Variable.isValid
  used : s.used = s.total * (MAX_VARIABLE_NAME_SIZE + MAX_VARIABLE_DATA_SIZE)
  free : ∀ i, (s.vars i).isFree = !(s.vars i).isValid

theorem Variable.isFree_of_isValid {v : Variable} (h : v.isValid = true) : v.isFree = false := by
  rw [Variable.isFree, beq_eq_false_iff_ne]
  exact (Variable.isValid_iff.mp h).1

theorem Storage.counted_empty (front : UInt16) : (Storage.empty front).Counted := by
  have hfree : ∀ i, ((Storage.empty front).vars i).isFree =
      !((Storage.empty front).vars i).isValid := by
    intro i
    exact Variable.isFree_zero_eq_not_isValid
  refine ⟨?_, (Nat.zero_mul _).symm, hfree⟩
  rw [Slots.count, Finset.filter_false_of_mem]
  · rfl
  · intro i _
    show ¬ Variable.zero.isValid = true
    rw [Variable.isValid_zero]
    exact Bool.false_ne_true

section
variable {s : Storage} {i : Fin MAX_VAR_COUNT} {v : Variable}

theorem Storage.Counted.total_le (h : s.Counted) : s.total ≤ MAX_VAR_COUNT := by
  rw [h.total]
  exact Slots.count_le _ _

theorem Storage.Counted.valid (h : s.Counted) (i : Fin MAX_VAR_COUNT) :
    (s.vars i).isValid = !(s.vars i).isFree := by
  rw [h.free i, Bool.not_not]

theorem Storage.Counted.free_update (h : s.Counted) (hv : v.isFree = !v.isValid)
    (j : Fin MAX_VAR_COUNT) : (Function.update s.vars i v j).isFree =
      !(Function.update s.vars i v j).isValid :=
  Slots.forall_update (Q := fun _ (v : Variable) => v.isFree = !v.isValid) h.free hv j

/-- A slot in use is written and stays in use. -/
theorem Storage.Counted.rewrite (h : s.Counted) (hi : (s.vars i).isValid = true)
    (hv : v.isValid = true) : (s.setSlot i v).Counted := by
  refine ⟨?_, h.used, h.free_update (by rw [hv, Variable.isFree_of_isValid hv]; rfl)⟩
  have hcount := Slots.count_update s.vars Variable.isValid i v
  rw [hi, hv] at hcount
  show s.total = Slots.count (Function.update s.vars i v) Variable.isValid
  rw [h.total]
  exact (Nat.add_right_cancel hcount).symm

/-- A slot in use is emptied. -/
theorem Storage.Counted.remove (h : s.Counted) (hi : (s.vars i).isValid = true) :
    (s.remove i).Counted := by
  have hcount := Slots.count_update s.vars Variable.isValid i Variable.zero
  rw [hi, Variable.isValid_zero, ← h.total] at hcount
  have htotal : s.total = Slots.count (Function.update s.vars i Variable.zero)
      Variable.isValid + 1 := hcount.symm
  have hle : s.total ≤ 128 := h.total_le
  have hused := h.used
  refine ⟨?_, ?_, h.free_update Variable.isFree_zero_eq_not_isValid⟩
  · show sub64 s.total 1 = Slots.count (Function.update s.vars i Variable.zero) Variable.isValid
    rw [sub64_of_le (by omega) (by omega)]
    omega
  · show sub64 s.used (MAX_VARIABLE_NAME_SIZE + MAX_VARIABLE_DATA_SIZE) =
      sub64 s.total 1 * (MAX_VARIABLE_NAME_SIZE + MAX_VARIABLE_DATA_SIZE)
    simp only [MAX_VARIABLE_NAME_SIZE, MAX_VARIABLE_DATA_SIZE] at hused ⊢
    rw [sub64_of_le (by omega) (by omega), sub64_of_le (by omega) (by omega)]
    omega

/-- A free slot is taken. -/
theorem Storage.Counted.create (h : s.Counted) (hi : (s.vars i).isFree = true)
    (hv : v.isValid = true) :
    Storage.Counted { s.setSlot i v with
      total := add64 s.total 1
      used := add64 s.used (MAX_VARIABLE_NAME_SIZE + MAX_VARIABLE_DATA_SIZE) } := by
  have hnot : (s.vars i).isValid = false := by
    rw [h.valid i, hi]
    rfl
  have hcount := Slots.count_update s.vars Variable.isValid i v
  rw [hnot, hv, ← h.total] at hcount
  have hle : s.total ≤ 128 := h.total_le
  have hused := h.used
  have hadd : add64 s.total 1 = s.total + 1 := add64_of_lt (by omega)
  refine ⟨?_, ?_, h.free_update (by rw [hv, Variable.isFree_of_isValid hv]; rfl)⟩
  · show add64 s.total 1 = Slots.count (Function.update s.vars i v) Variable.isValid
    rw [hadd]
    exact hcount.symm
  · show add64 s.used (MAX_VARIABLE_NAME_SIZE + MAX_VARIABLE_DATA_SIZE) =
      add64 s.total 1 * (MAX_VARIABLE_NAME_SIZE + MAX_VARIABLE_DATA_SIZE)
    simp only [MAX_VARIABLE_NAME_SIZE, MAX_VARIABLE_DATA_SIZE] at hused ⊢
    rw [hadd, add64_of_lt (by omega)]
    omega

end

theorem storageSet_counted {s : Storage} (h : s.Counted) {k : Key} (hk : k.Named)
    (data : Option (List UInt8)) (attrs : Attrs) : (storageSet s k data attrs).2.Counted := by
  have hc := storageSet_cases s k data attrs
  generalize storageSet s k data attrs = r at hc
  obtain ⟨st, s'⟩ := r
  have hfound : ∀ {i}, s.findSlot k = some i → (s.vars i).isValid = true :=
    fun hi => Variable.isValid_of_isMatch hk (Storage.findSlot_isMatch hi)
  cases hc with
  | refused => exact h
  | removed _ hi => exact h.remove (hfound hi)
  | @replaced i _ _ _ _ _ _ hi => exact h.rewrite (hfound hi) (Variable.isValid_named hk _ _)
  | renamed _ _ _ hi => exact h.rewrite (hfound hi) (Variable.isValid_named hk _ _)
  | @created i _ _ _ _ _ _ _ hi =>
      exact h.create (Slots.first_pred hi) (Variable.isValid_named hk (s.vars i) (s.below i))

theorem Write.counted {k : Key} (hk : k.Named) {s s' : Storage} (h : Write k s s')
    (hs : s.Counted) : s'.Counted := by
  cases h with
  | set data attrs => exact storageSet_counted hs hk data attrs
  | mark time cert hi =>
      have hvalid := Variable.isValid_of_isMatch hk (Storage.findSlot_isMatch hi)
      exact hs.rewrite hvalid hvalid

/-- The first byte of a name that is not refused is not zero. -/
theorem SetRequest.key_named {req : SetRequest} (hr : refusal req = none) : req.key.Named := by
  have hhead := headD_of_refusal hr
  cases hname : req.name with
  | nil =>
      rw [hname] at hhead
      exact absurd rfl hhead
  | cons b rest =>
      have hb : b.toNat ≠ 0 := by
        rw [hname] at hhead
        exact fun h0 => hhead (UInt8.toNat_inj.mp h0)
      refine ⟨?_, req.name_fits, ?_⟩
      · show req.name.length ≠ 0
        rw [hname]
        exact Nat.succ_ne_zero _
      · rw [SetRequest.key, Key.bytes_of req.name_fits, hname, unitAt, Nat.mul_zero,
          List.getD_cons_zero]
        omega

section
variable {P X : Type}

/-- Everything a request writes, it writes under a name that can be stored. -/
theorem Step.writes_named {m m' : Machine} {r : Request P X} (h : Step m r m') :
    Writes Key.Named m.storage m'.storage := by
  obtain ⟨status, h⟩ := h
  refine (handleSetVariable_writes h).mono ?_
  rintro k (⟨rfl, hr⟩ | hk)
  · exact SetRequest.key_named hr
  · exact (modeKeys_clean k hk).named

theorem Writes.counted {s s' : Storage} (h : Writes Key.Named s s') (hs : s.Counted) :
    s'.Counted :=
  h.invariant (fun _ _ _ hk hw => hw.counted hk) hs

theorem Storage.Counted.used_le {s : Storage} (h : s.Counted) : s.used ≤ MAX_STORAGE_SIZE := by
  have hle : s.total ≤ 128 := h.total_le
  have hused := h.used
  simp only [MAX_VARIABLE_NAME_SIZE, MAX_VARIABLE_DATA_SIZE] at hused
  have hmax : MAX_STORAGE_SIZE = 1073741824 := by decide
  omega

/-- What is said to remain is the size of the store without what is used. -/
theorem handleQueryVariableInfo_remaining {s : Storage} (h : s.Counted) {version command : Nat}
    {attrs : Attrs} {max remaining largest : Nat}
    (hq : handleQueryVariableInfo s version command attrs = .ok (max, remaining, largest)) :
    remaining + s.used = max := by
  unfold handleQueryVariableInfo at hq
  split at hq
  · cases hq
  split at hq
  · cases hq
  split at hq
  · cases hq
  · cases hq
    have hle := h.used_le
    rw [sub64_of_le hle (by decide)]
    exact Nat.sub_add_cancel hle

example : handleQueryVariableInfo { Storage.empty 0 with used := 256 + 32768 } 1
    COMMAND_QUERY_VARIABLE_INFO RT_BS_ATTRS = .ok (2 ^ 30, 2 ^ 30 - 33024, 33024) := by
  decide +kernel

/-- The counters are right in every store that start-up and requests lead to. -/
theorem reachable_counted {ssl : Phase → OpenSsl P X} {m₀ m m' : Machine} {front : UInt16}
    {db dbx kek pk : List UInt8} {status : EfiStatus} {rs : List (Request P X)}
    (hempty : m₀.storage = Storage.empty front)
    (hinit : authLibInitialize ssl m₀ (authFiles db dbx kek pk) = some (status, m))
    (hrun : Run Step m rs m') : m'.storage.Counted := by
  have hstart : m.storage.Counted := by
    refine Writes.counted ((authLibInitialize_writes hinit).mono
      (fun k hk => (startKeys_clean db dbx kek pk k hk).named)) ?_
    rw [hempty]
    exact Storage.counted_empty front
  exact hrun.invariant (I := fun m => m.storage.Counted)
    (fun _ _ _ hstep hm => hstep.writes_named.counted hm) hstart

/-- From an empty store, through start-up and requests of any bytes: `total` and `used` are
what the slots say, free is not valid, and the remaining storage does not wrap around. -/
theorem counters_exact {ssl : Phase → OpenSsl P X} {m₀ m m' : Machine} {front : UInt16}
    {db dbx kek pk : List UInt8} {status : EfiStatus} {rs : List (Request P X)}
    (hempty : m₀.storage = Storage.empty front)
    (hinit : authLibInitialize ssl m₀ (authFiles db dbx kek pk) = some (status, m))
    (hrun : Run Step m rs m') :
    m'.storage.Counted ∧ m'.storage.used ≤ MAX_STORAGE_SIZE ∧
      ∀ version command attrs max remaining largest,
        handleQueryVariableInfo m'.storage version command attrs =
          .ok (max, remaining, largest) → remaining + m'.storage.used = max := by
  have hend := reachable_counted hempty hinit hrun
  exact ⟨hend, hend.used_le, fun _ _ _ _ _ _ hq => handleQueryVariableInfo_remaining hend hq⟩

end

theorem counters_exact_oneByte : ∃ m m',
    authLibInitialize (fun _ => OpenSsl.accepting) freshMachine (authFiles [] [] [] []) =
      some (.success, m) ∧
    Run Step m [volatileRequest [0x41] [1] (by decide)] m' ∧ m'.storage.total = 6 ∧
    m'.storage.Counted := by
  have hrun : ((authLibInitialize (fun _ => OpenSsl.accepting) freshMachine
      (authFiles [] [] [] [])).bind (fun r => (handleAll r.2
        [volatileRequest [0x41] [1] (by decide)]).map (fun m => (r.1, m.storage.total)))) =
      some (.success, 6) := by
    decide +kernel
  obtain ⟨⟨status, m⟩, hinit, hrun⟩ := Option.bind_eq_some_iff.mp hrun
  obtain ⟨m', hm', hpair⟩ := Option.map_eq_some_iff.mp hrun
  obtain ⟨rfl, htotal⟩ := Prod.mk.inj hpair
  have hrun := run_iff_handleAll.mpr hm'
  exact ⟨m, m', hinit, hrun, htotal, (counters_exact rfl hinit hrun).1⟩

/-! ## The sizes in a slot -/

/-- The sizes that every reader of a variable relies on. -/
structure Variable.Sized (v : Variable) : Prop where
  name : 1 ≤ v.namesz ∧ v.namesz ≤ MAX_VARIABLE_NAME_SIZE
  data : 1 ≤ v.datasz ∧ v.datasz ≤ MAX_VARIABLE_DATA_SIZE

/-- Every slot in use has sizes in their ranges. -/
def Storage.Sized (s : Storage) : Prop := ∀ i, (s.vars i).isFree = false → (s.vars i).Sized

/-- The index `namesz / sizeof(UTF16) - 1` that `sanitize_namesz` computes is inside the name. -/
def Key.IndexInside (k : Key) : Prop := sub64 (k.namesz / 2) 1 < MAX_VARIABLE_NAME_CHARS

instance (k : Key) : Decidable k.IndexInside := inferInstanceAs (Decidable (_ < _))

theorem Key.indexInside_of_two_le {k : Key} (h2 : 2 ≤ k.namesz)
    (hfits : k.namesz ≤ MAX_VARIABLE_NAME_SIZE) : k.IndexInside := by
  have hmax : k.namesz ≤ 256 := hfits
  have hchars : MAX_VARIABLE_NAME_CHARS = 128 := rfl
  rw [Key.IndexInside, sub64_of_le (by omega) (by omega)]
  omega

theorem Storage.Sized.update {s : Storage} (h : s.Sized) (i : Fin MAX_VAR_COUNT) {v : Variable}
    (hv : v.isFree = false → v.Sized) (j : Fin MAX_VAR_COUNT)
    (hj : (Function.update s.vars i v j).isFree = false) :
    (Function.update s.vars i v j).Sized :=
  Slots.forall_update (Q := fun _ (v : Variable) => v.isFree = false → v.Sized) h hv j hj

/-- The name and its size are in range behind a name of at least two bytes. -/
theorem Key.Named.stored_range {k : Key} (hk : k.Named) (h2 : 2 ≤ k.namesz) (below : UInt16) :
    1 ≤ k.stored below ∧ k.stored below ≤ MAX_VARIABLE_NAME_SIZE :=
  ⟨Nat.one_le_iff_ne_zero.mpr (hk.stored_ne below), hk.stored_le h2 below⟩

theorem storageSet_sized {s : Storage} (h : s.Sized) {k : Key} (hk : k.Named) (h2 : 2 ≤ k.namesz)
    (data : Option (List UInt8)) (attrs : Attrs) : (storageSet s k data attrs).2.Sized := by
  have hc := storageSet_cases s k data attrs
  generalize storageSet s k data attrs = r at hc
  obtain ⟨st, s'⟩ := r
  intro j hj
  cases hc with
  | refused => exact h j hj
  | @removed i =>
      refine h.update i ?_ j hj
      intro hfree
      rw [variableDestroyNoalloc, Variable.isFree_zero] at hfree
      cases hfree
  | @replaced i d _ _ hd _ _ _ _ hfits =>
      refine h.update i ?_ j hj
      intro _
      refine ⟨hk.stored_range h2 _, ?_, hfits⟩
      show 1 ≤ (if attrs.append then (s.vars i).data ++ d else d).length
      have hpos := List.length_pos_of_ne_nil hd
      split
      · rw [List.length_append]
        omega
      · exact hpos
  | @renamed i _ _ _ _ hi =>
      refine h.update i ?_ j hj
      intro _
      have hvalid := Variable.isValid_of_isMatch hk (Storage.findSlot_isMatch hi)
      exact ⟨hk.stored_range h2 _, (h i (Variable.isFree_of_isValid hvalid)).data⟩
  | @created i d _ _ hd _ _ _ _ hfits =>
      refine h.update i ?_ j hj
      intro _
      exact ⟨hk.stored_range h2 _, List.length_pos_of_ne_nil hd, hfits⟩

theorem Write.sized {k : Key} (hk : k.Named) (h2 : 2 ≤ k.namesz) {s s' : Storage}
    (h : Write k s s') (hs : s.Sized) : s'.Sized := by
  cases h with
  | set data attrs => exact storageSet_sized hs hk h2 data attrs
  | @mark i time cert hi =>
      intro j hj
      refine hs.update i ?_ j hj
      intro hfree
      have hsized := hs i hfree
      exact ⟨hsized.name, hsized.data⟩

section
variable {P X : Type}

/-- Every name that the request stores has its index inside: its own, if it is not refused,
and that of every write it makes. -/
structure StoresInside (m : Machine) (r : Request P X) (m' : Machine) : Prop where
  own : refusal r.set = none → r.set.key.IndexInside
  writes : Writes Key.IndexInside m.storage m'.storage

/-- The writes of a request whose name is not of one byte. -/
theorem Step.writes_two_le {m m' : Machine} {r : Request P X} (h : Step m r m')
    (hname : r.set.name.length ≠ 1) :
    Writes (fun k => k.Named ∧ 2 ≤ k.namesz) m.storage m'.storage := by
  obtain ⟨status, h⟩ := h
  refine (handleSetVariable_writes h).mono ?_
  rintro k (⟨rfl, hr⟩ | hk)
  · have hnamed := SetRequest.key_named hr
    have h0 : r.set.name.length ≠ 0 := hnamed.size
    refine ⟨hnamed, ?_⟩
    show 2 ≤ r.set.name.length
    omega
  · exact ⟨(modeKeys_clean k hk).named, (modeKeys_clean k hk).two_le⟩

theorem Step.storesInside {m m' : Machine} {r : Request P X} (h : Step m r m')
    (hname : r.set.name.length ≠ 1) : StoresInside m r m' := by
  refine ⟨?_, (h.writes_two_le hname).mono ?_⟩
  · intro hr
    have hnamed := SetRequest.key_named hr
    have h0 : r.set.name.length ≠ 0 := hnamed.size
    refine Key.indexInside_of_two_le ?_ hnamed.fits
    show 2 ≤ r.set.name.length
    omega
  · rintro k ⟨hnamed, h2⟩
    exact Key.indexInside_of_two_le h2 hnamed.fits

/-- From an empty store, by requests of any bytes whose names are not of one byte: the sizes
in every slot in use are in range, and no name was stored with an index outside. -/
theorem sizes_inRange {m m' : Machine} {front : UInt16} {rs : List (Request P X)}
    (hempty : m.storage = Storage.empty front) (hrun : Run Step m rs m')
    (hnames : ∀ r ∈ rs, r.set.name.length ≠ 1) :
    m'.storage.Sized ∧ Run (fun m r m' => Step m r m' ∧ StoresInside m r m') m rs m' := by
  have hstart : m.storage.Sized := by
    intro i hi
    rw [hempty, show ((Storage.empty front).vars i).isFree = true from Variable.isFree_zero] at hi
    cases hi
  have hrun' := hrun.restrict hnames
  refine ⟨?_, hrun'.mono (fun _ _ _ h => ⟨h.1, h.1.storesInside h.2⟩)⟩
  refine hrun'.invariant (I := fun m => m.storage.Sized) ?_ hstart
  intro m r m' hstep hm
  exact (hstep.1.writes_two_le hstep.2).invariant (fun _ _ _ hk hw => hw.sized hk.1 hk.2) hm

end

theorem sizes_inRange_A : ∃ m',
    Run Step freshMachine [volatileRequest (wide ['A'] ++ [0]) [1] (by decide)] m' ∧
    (m'.storage.vars 0).isFree = false ∧ m'.storage.Sized := by
  have hrun : (handleAll freshMachine
      [volatileRequest (wide ['A'] ++ [0]) [1] (by decide)]).map
        (fun m => (m.storage.vars 0).isFree) = some false := by
    decide +kernel
  obtain ⟨m', hm', hfree⟩ := Option.map_eq_some_iff.mp hrun
  have hrun := run_iff_handleAll.mpr hm'
  exact ⟨m', hrun, hfree, (sizes_inRange rfl hrun (by decide)).1⟩

/-- A name of one byte: its index is `-1`, and the unit there is zero, so that the variable
has a size of `2 ^ 64 - 1`. -/
theorem oneByteName : ∃ m',
    Run Step freshMachine [volatileRequest [0x41] [1] (by decide)] m' ∧
    (m'.storage.vars 0).isFree = false ∧ (m'.storage.vars 0).namesz = 2 ^ 64 - 1 ∧
    ¬ m'.storage.Sized ∧ ¬ (volatileRequest [0x41] [1] (by decide)).set.key.IndexInside := by
  have hrun : (handleAll freshMachine [volatileRequest [0x41] [1] (by decide)]).map
      (fun m => ((m.storage.vars 0).isFree, (m.storage.vars 0).namesz)) =
        some (false, 2 ^ 64 - 1) := by
    decide +kernel
  obtain ⟨m', hm', hpair⟩ := Option.map_eq_some_iff.mp hrun
  obtain ⟨hfree, hsz⟩ := Prod.mk.inj hpair
  refine ⟨m', run_iff_handleAll.mpr hm', hfree, hsz, ?_, by decide +kernel⟩
  intro hsized
  have hle := (hsized 0 hfree).name.2
  rw [hsz] at hle
  exact absurd hle (by decide)

end Uefistored
