/-
# `Uefistored.Rebuild` — replaying a store into an empty one

The loop of `xapi_init` writes the variables of a list back one by one, and an
`assert` ends the program if one is refused.  Into an empty store each variable
is a new one: it is taken if it has data, if there is room, and if its
attributes are not 0, which `storage_set` reads as a deletion.

`Rebuilt t M vs` says that `vs` has been replayed into `t`, through the map `M`
that `t` stands for.  One variable more keeps it (`Rebuilt.restore`), so a list
of different variables is replayed to its end (`restoreVariables_rebuilt`).

What requests leave in a slot has attributes without the append bit, and these
are 0 only if the request had the append bit and no other.
-/
import Uefistored.VarMap
import Uefistored.Xapi

namespace Uefistored

open Lib

/-! ## Keys that find the same slots write the same -/

theorem Key.Same.storageSet_eq {k K : Key} (h : k.Same K) (s : Storage)
    (data : Option (List UInt8)) (attrs : Attrs) :
    storageSet s k data attrs = storageSet s K data attrs := by
  have hfind := h.findSlot_eq s
  obtain ⟨hsz, hb, hg⟩ := h
  have hname : ∀ below v, variableSetName below v k.name k.namesz =
      variableSetName below v K.name K.namesz := by
    intro below v
    have hover : v.name.overwrite k.name.bytes k.namesz =
        v.name.overwrite K.name.bytes K.namesz := by
      refine Block.eq_of_bytes_eq ?_
      simp only [Block.overwrite]
      rw [show k.name.bytes.take k.namesz = K.name.bytes.take K.namesz from hb]
    unfold variableSetName
    rw [hsz] at hover ⊢
    rw [hover]
  have hcreate : ∀ below v d a, variableCreateNoalloc below v k d a =
      variableCreateNoalloc below v K d a := by
    intro below v d a
    unfold variableCreateNoalloc
    rw [hname, hsz, hg]
  rw [hsz] at hname
  unfold storageSet storageRemove tooLarge Storage.replace Storage.create
  simp only [hfind, hsz, hname, hcreate]

/-! ## Restoring one variable -/

/-- Attributes and data. -/
def Variable.value (v : Variable) : Attrs × List UInt8 := (v.attrs, v.data)

def Entry.value (e : Entry) : Attrs × List UInt8 := (e.attrs, e.data)

/-- A variable that `storage_set` takes as a new one. -/
structure Variable.Storable (v : Variable) : Prop where
  named : ∃ K : VarKey, v.isMatch K.key = true
  sized : v.Sized
  attrs : v.attrs ≠ 0
  noAppend : v.attrs.append = false

/-- No key finds both. -/
def Variable.Apart (v w : Variable) : Prop :=
  ∀ K : VarKey, v.isMatch K.key = true → w.isMatch K.key = false

theorem VarMap.set_new {m : VarMap} {K : VarKey} {d : List UInt8} {attrs : Attrs}
    (hnew : m.lookup K = none) (hroom : m.keys.card < MAX_VAR_COUNT) (hd : d ≠ [])
    (hmax : d.length ≤ MAX_VARIABLE_DATA_SIZE) (hattrs : attrs ≠ 0)
    (happ : attrs.append = false) : m.set K d attrs = some (m.insert K (.fresh d attrs)) := by
  unfold VarMap.set
  rw [if_neg (not_lt.mpr hmax), if_neg (fun h => h.elim hattrs (fun h => hd h.1)), if_neg hd,
    hnew]
  dsimp only
  rw [if_pos hroom, Attrs.withoutAppend_of_not happ]

/-- A stamp changes the entry it is set in. -/
theorem Represents.mark {s : Storage} {m : VarMap} {K : VarKey} (h : Represents s m)
    {i : Fin MAX_VAR_COUNT} (hi : s.findSlot K.key = some i) (time : EfiTime) (cert : Digest) :
    Represents (s.setSlot i { s.vars i with timestamp := time, cert := cert })
      (m.insert K { (s.vars i).entry with timestamp := time, cert := cert }) := by
  refine h.of_write (.mark time cert hi) ?_ (fun K' hK' => Finmap.lookup_insert_of_ne _ hK')
  have hfind : (s.setSlot i { s.vars i with timestamp := time, cert := cert }).findSlot K.key =
      some i := Slots.first_update_self hi (Storage.findSlot_isMatch hi)
  rw [Finmap.lookup_insert, storageFindVariable_eq hfind, Storage.setSlot_vars,
    Function.update_self]
  rfl

/-- The list has been replayed into `t`, which stands for `M`. -/
structure Rebuilt (t : Storage) (M : VarMap) (vs : List Variable) : Prop where
  represents : Represents t M
  card : M.keys.card ≤ vs.length
  values : ∀ K : VarKey, (M.lookup K).map Entry.value =
    (vs.find? (Variable.isMatch K.key)).map Variable.value

theorem Rebuilt.empty (front : UInt16) : Rebuilt (.empty front) ∅ [] :=
  ⟨.empty front, le_refl 0, fun _ => rfl⟩

/-- A map with an entry for one variable more. -/
theorem Rebuilt.insert {t t' : Storage} {M : VarMap} {vs : List Variable}
    (h : Rebuilt t M vs) {v : Variable} {K : VarKey} (hK : v.isMatch K.key = true)
    (hapart : ∀ w ∈ vs, w.Apart v) {e : Entry} (he : e.value = v.value)
    (ht : Represents t' (M.insert K e)) : Rebuilt t' (M.insert K e) (vs ++ [v]) := by
  refine ⟨ht, ?_, ?_⟩
  · have hsub : (Finmap.insert K e M).keys ⊆ Insert.insert K M.keys := by
      intro K' hK'
      rw [Finmap.mem_keys, Finmap.mem_insert] at hK'
      rw [Finset.mem_insert, Finmap.mem_keys]
      exact hK'
    rw [List.length_append, List.length_singleton]
    exact (Finset.card_le_card hsub).trans
      ((Finset.card_insert_le _ _).trans (Nat.add_le_add_right h.card 1))
  · intro K'
    rw [List.find?_append]
    by_cases hKK : K' = K
    · -- none of the variables before is found under this key
      have hnone : vs.find? (Variable.isMatch K.key) = none := by
        refine List.find?_eq_none.mpr ?_
        intro w hw hmatch
        rw [hapart w hw K hmatch] at hK
        cases hK
      rw [hKK, Finmap.lookup_insert, hnone, Option.none_or, List.find?_cons_of_pos hK,
        Option.map_some, Option.map_some, he]
    · have hmiss : [v].find? (Variable.isMatch K'.key) = none := by
        refine List.find?_eq_none.mpr ?_
        intro w hw hmatch
        rw [List.mem_singleton.mp hw] at hmatch
        exact hKK (VarKey.eq_of_isMatch hmatch hK)
      rw [Finmap.lookup_insert_of_ne _ hKK, h.values K', hmiss, Option.or_none]

/-- One variable more: it is taken. -/
theorem Rebuilt.restore {t : Storage} {M : VarMap} {vs : List Variable} (h : Rebuilt t M vs)
    {v : Variable} (hv : v.Storable) (hapart : ∀ w ∈ vs, w.Apart v)
    (hroom : vs.length < MAX_VAR_COUNT) :
    ∃ t' M', restoreVariable t v = (.success, t') ∧ Rebuilt t' M' (vs ++ [v]) := by
  obtain ⟨K, hK⟩ := hv.named
  have hsame := Variable.key_same hK
  have hd : v.data ≠ [] := List.ne_nil_of_length_pos hv.sized.data.1
  have hnew : M.lookup K = none := by
    have hvalue := h.values K
    have hnone : vs.find? (Variable.isMatch K.key) = none := by
      refine List.find?_eq_none.mpr ?_
      intro w hw hmatch
      rw [hapart w hw K hmatch] at hK
      cases hK
    rw [hnone, Option.map_none, Option.map_eq_none_iff] at hvalue
    exact hvalue
  have hset := h.represents.set K v.data v.attrs
  rw [VarMap.set_new hnew (h.card.trans_lt hroom) hd hv.sized.data.2 hv.attrs hv.noAppend,
    ← hsame.storageSet_eq] at hset
  have hok : (storageSet t v.key (some v.data) v.attrs).1 = .success := beq_iff_eq.mp hset.ok
  have hrep : Represents (storageSet t v.key (some v.data) v.attrs).2
      (M.insert K (.fresh v.data v.attrs)) := hset.represents
  unfold restoreVariable
  split
  · -- the stamp is set in the slot that was just taken
    rename_i htb
    have hdel : isDelete v.attrs v.data.length = false := isDelete_eq_false htb hd
    have hmem : K ∈ M.insert K (.fresh v.data v.attrs) := by simp
    obtain ⟨i, hi⟩ := Option.isSome_iff_exists.mp (hrep.mem_iff.mp hmem)
    have hentry := hrep.lookup_some hi
    rw [Finmap.lookup_insert] at hentry
    have hmark := hrep.mark hi v.timestamp
      ((storageSet t v.key (some v.data) v.attrs).2.vars i).cert
    rw [Finmap.insert_insert, ← Option.some.inj hentry] at hmark
    refine ⟨_, _, ?_, h.insert hK hapart rfl hmark⟩
    rcases storageSetWithTimestamp_cases t v.key v.data v.attrs v.timestamp with
      ⟨hc, _⟩ | ⟨_, ⟨hnone, _⟩ | ⟨j, hj, hr⟩⟩
    · rw [hdel] at hc; cases hc
    · rw [hsame.findSlot_eq, hi] at hnone; cases hnone
    · rw [hsame.findSlot_eq, hi] at hj
      obtain rfl := Option.some.inj hj
      exact hr
  · exact ⟨_, _, Prod.ext hok rfl, h.insert hK hapart rfl hrep⟩

/-! ## Restoring a list -/

/-- Different variables are replayed one after the other, and none is refused. -/
theorem restoreVariables_rebuilt : ∀ (vs done : List Variable) {t : Storage} {M : VarMap},
    Rebuilt t M done → (∀ v ∈ vs, v.Storable) → (done ++ vs).Pairwise Variable.Apart →
    (done ++ vs).length ≤ MAX_VAR_COUNT →
    ∃ t' M', restoreVariables t vs = some t' ∧ Rebuilt t' M' (done ++ vs)
  | [], done, t, M, h, _, _, _ => ⟨t, M, rfl, by rw [List.append_nil]; exact h⟩
  | v :: vs, done, t, M, h, hv, hapart, hlen => by
      have hdone : ∀ w ∈ done, w.Apart v := by
        intro w hw
        exact (List.pairwise_append.mp hapart).2.2 w hw v List.mem_cons_self
      have hroom : done.length < MAX_VAR_COUNT := by
        rw [List.length_append, List.length_cons] at hlen
        omega
      obtain ⟨t₁, M₁, hok, h₁⟩ := h.restore (hv v List.mem_cons_self) hdone hroom
      rw [List.append_cons] at hapart hlen ⊢
      obtain ⟨t', M', hrest, h'⟩ := restoreVariables_rebuilt vs (done ++ [v]) h₁
        (fun w hw => hv w (List.mem_cons_of_mem _ hw)) hapart hlen
      refine ⟨t', M', ?_, h'⟩
      unfold restoreVariables
      rw [hok]
      exact hrest

/-- The variables of a store, in slot order. -/
def Storage.variables (s : Storage) : List Variable :=
  (Slots.indices s.vars Variable.isValid).map s.vars

/-- The attributes in every slot in use are such that they can be written again. -/
def Storage.Writable (s : Storage) : Prop :=
  ∀ i, (s.vars i).isFree = false → (s.vars i).attrs ≠ 0 ∧ (s.vars i).attrs.append = false

theorem Storage.Tidy.storable {s : Storage} (h : s.Tidy) (hw : s.Writable) :
    ∀ v ∈ s.variables, v.Storable := by
  intro v hv
  obtain ⟨i, hi, rfl⟩ := List.mem_map.mp hv
  have hused := Variable.isFree_of_isValid (Slots.mem_indices.mp hi)
  exact ⟨h.named i hused, h.sized i hused, (hw i hused).1, (hw i hused).2⟩

theorem Storage.Tidy.apart {s : Storage} (h : s.Tidy) : s.variables.Pairwise Variable.Apart := by
  refine List.pairwise_map.mpr ((Slots.indices_pairwise _ _).imp ?_)
  intro i j hij K hi
  by_contra hj
  rw [Bool.not_eq_false] at hj
  have hfind := h.keyed.findSlot_eq K.clean hi
  rw [h.keyed.findSlot_eq K.clean hj] at hfind
  exact absurd (Option.some.inj hfind) (ne_of_gt hij)

/-- A store that can be written again is rebuilt by its list of variables. -/
theorem Storage.Tidy.rebuilds {s : Storage} (h : s.Tidy) (hw : s.Writable) (front : UInt16) :
    ∃ t, restoreVariables (.empty front) s.variables = some t ∧
      ∀ K : VarKey, view t K.key = view s K.key := by
  have hlen : s.variables.length ≤ MAX_VAR_COUNT := by
    rw [Storage.variables, List.length_map, Slots.indices]
    exact (List.length_filter_le _ _).trans (List.length_finRange).le
  obtain ⟨t, M, ht, hbuilt⟩ := restoreVariables_rebuilt s.variables [] (.empty front)
    (h.storable hw) h.apart hlen
  refine ⟨t, ht, ?_⟩
  intro K
  have hvalues := hbuilt.values K
  have hfind : s.variables.find? (Variable.isMatch K.key) = storageFindVariable s K.key :=
    Slots.find?_indices (fun _ hm => Variable.isValid_of_isMatch K.clean.named hm)
  rw [hbuilt.represents.lookup K, Option.map_map, List.nil_append, hfind] at hvalues
  exact hvalues

/-! ## What requests leave in the slots -/

theorem storageSet_writable {s : Storage} {k : Key} (hk : k.Clean) (h : s.Writable)
    (data : Option (List UInt8)) {attrs : Attrs} (ha : attrs ≠ EFI_VARIABLE_APPEND_WRITE) :
    (storageSet s k data attrs).2.Writable := by
  intro i
  have hr := storageSet_slot (s := s) hk data attrs i
  generalize (storageSet s k data attrs).2.vars i = v at hr ⊢
  cases hr with
  | kept => exact h i
  | removed =>
      intro hused
      rw [Variable.isFree_zero] at hused
      cases hused
  | replaced => exact h i
  | created hrem =>
      intro _
      refine ⟨?_, Attrs.append_withoutAppend attrs⟩
      intro hzero
      rcases Attrs.eq_of_withoutAppend_eq_zero hzero with rfl | happ
      · rw [asksRemoval, beq_self_eq_true, Bool.or_true] at hrem
        cases hrem
      · exact ha happ

section
variable {P X : Type}

/-- The attributes that are handed over: those of the request, or 0. -/
theorem Offers.attrs_eq {ssl : OpenSsl P X} {k : Key} {data : Buffer} {dataSize : Nat}
    {attrs a : Attrs} {s : Storage} {d : Option (List UInt8)}
    (h : Offers ssl k data dataSize attrs s d a) : a = attrs ∨ a = 0 := by
  cases h with
  | plain => exact .inl rfl
  | nothing => exact .inr rfl
  | payload => exact .inl rfl
  | filtered => exact .inl rfl

theorem Step.writable {m m' : Machine} {r : Request P X} (h : Step m r m')
    (hname : NulFree r.set.name) (hattrs : r.set.attrs ≠ EFI_VARIABLE_APPEND_WRITE)
    (hm : m.storage.Writable) : m'.storage.Writable := by
  obtain ⟨status, h⟩ := h
  refine handleSetVariable_invariant h ?_ ?_ ?_ hm
  · intro _ s data attrs hd hs
    refine storageSet_writable (r.set.varKey hname).clean hs data ?_
    rcases hd.attrs_eq with rfl | rfl
    · exact hattrs
    · decide
  · intro _ s i time cert hi hs
    exact Slots.forall_update (Q := fun _ (v : Variable) => v.isFree = false → v.attrs ≠ 0 ∧
      v.attrs.append = false) hs (hs i)
  · intro _ s k value hk hs
    exact storageSet_writable (modeKeys_clean k hk) hs _ (by decide)

/-- From an empty store, by requests none of which has the append attribute and no other: the
variables that are stored are replayed into an empty store without a failure, and every key
finds the same attributes and data there. -/
theorem replay_rebuilds {m m' : Machine} {front : UInt16} {rs : List (Request P X)}
    (hempty : m.storage = Storage.empty front) (hrun : Run Step m rs m')
    (hnames : ∀ r ∈ rs, NulFree r.set.name)
    (hattrs : ∀ r ∈ rs, r.set.attrs ≠ EFI_VARIABLE_APPEND_WRITE) (front' : UInt16) :
    ∃ t, restoreVariables (.empty front') m'.storage.variables = some t ∧
      ∀ K : VarKey, view t K.key = view m'.storage K.key := by
  have hstart : m.storage.Tidy ∧ m.storage.Writable := by
    rw [hempty]
    refine ⟨Storage.tidy_empty front, ?_⟩
    intro i hi
    rw [show ((Storage.empty front).vars i).isFree = true from Variable.isFree_zero] at hi
    cases hi
  have hrun' := (hrun.restrict hnames).restrict hattrs
  obtain ⟨htidy, hwritable⟩ :=
    hrun'.invariant (I := fun m => m.storage.Tidy ∧ m.storage.Writable) (by
      rintro m r m' ⟨⟨hstep, hname⟩, hattrs⟩ ⟨htidy, hw⟩
      exact ⟨hstep.tidy hname htidy, hstep.writable hname hattrs hw⟩) hstart
  exact htidy.rebuilds hwritable front'

end

theorem letter_fits (c : Char) (value : Option UInt8) :
    (wide [c]).length ≤ MAX_VARIABLE_NAME_SIZE ∧ value.toList.length ≤ MAX_VARIABLE_DATA_SIZE := by
  refine ⟨(by decide : 2 ≤ 256), ?_⟩
  cases value with
  | none => exact Nat.zero_le _
  | some byte => exact (by decide : 1 ≤ 32768)

/-- The request to set a variable named by one letter to a byte, or to delete it. -/
def letterRequest (c : Char) (value : Option UInt8) : Request Unit Unit :=
  volatileRequest (wide [c]) value.toList (letter_fits c value)

/-- Three variables are set and the second of them is deleted. -/
def holeRequests : List (Request Unit Unit) :=
  [letterRequest 'A' (some 1), letterRequest 'B' (some 2), letterRequest 'C' (some 4),
    letterRequest 'B' none]

theorem replay_rebuilds_hole : ∃ m' t, Run Step freshMachine holeRequests m' ∧
    m'.storage.variables.map Variable.data = [[1], [4]] ∧ (m'.storage.vars 1).isValid = false ∧
    restoreVariables (.empty 0) m'.storage.variables = some t ∧
    ∀ K : VarKey, view t K.key = view m'.storage K.key := by
  have hrun : (handleAll freshMachine holeRequests).map (fun m =>
      (m.storage.variables.map Variable.data, (m.storage.vars 1).isValid)) =
        some ([[1], [4]], false) := by
    decide +kernel
  obtain ⟨m', hm', hpair⟩ := Option.map_eq_some_iff.mp hrun
  obtain ⟨hdata, hhole⟩ := Prod.mk.inj hpair
  have hrun := run_iff_handleAll.mpr hm'
  obtain ⟨t, ht, hview⟩ := replay_rebuilds rfl hrun (by decide) (by decide) 0
  exact ⟨m', t, hrun, hdata, hhole, ht, hview⟩

theorem nameA_fits : (wide ['A']).length ≤ MAX_VARIABLE_NAME_SIZE ∧
    [(1 : UInt8)].length ≤ MAX_VARIABLE_DATA_SIZE := by
  decide

/-- The request to set `A` with the append attribute and no other. -/
def appendOnly : Request Unit Unit :=
  let r := volatileRequest (wide ['A']) [1] nameA_fits
  { r with set := { r.set with attrs := EFI_VARIABLE_APPEND_WRITE } }

/-- `A` is created with attributes 0, which the replay takes for a deletion: the `assert`
fails. -/
theorem appendOnly_stops_replay : ∃ m', Run Step freshMachine [appendOnly] m' ∧
    m'.storage.variables.length = 1 ∧
    restoreVariables (.empty 0) m'.storage.variables = none := by
  have hrun : (handleAll freshMachine [appendOnly]).map (fun m =>
      (m.storage.variables.length, (restoreVariables (.empty 0) m.storage.variables).isNone)) =
        some (1, true) := by
    decide +kernel
  obtain ⟨m', hm', hpair⟩ := Option.map_eq_some_iff.mp hrun
  obtain ⟨hlen, hnone⟩ := Prod.mk.inj hpair
  exact ⟨m', run_iff_handleAll.mpr hm', hlen, Option.isNone_iff_eq_none.mp hnone⟩

end Uefistored
