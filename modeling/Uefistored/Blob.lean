/-
# `Uefistored.Blob` — the block of bytes that a save hands out

`variable_list_bytes` turns what the walk returns into one block of bytes.  Two
of its results are not what they look like.

* When `storage_iter` reports `EFI_DEVICE_ERROR`, `retrieve_vars` returns the
  status as an `int`, which is 7: seven entries of the array are written, the
  ones behind the error empty.  `retrieve_nonvolatile_vars` returns the number
  of variables so far.  Neither is an error to `variable_list_bytes`.
* An entry without data ends `serialize_variable_list` early.  Its result is
  not negative, and the rest of the block stays as `malloc` left it.

And `sanitize_namesz` may cut a name: once or twice on the way to the block
(`Uefistored.Copies`) and once more on the way back.

`saveLoads_iff` gives the stores, of all stores, for which a block that is
handed out is complete, is read back, and comes from a walk without an error.
-/
import Uefistored.Copies
import Uefistored.Decode

namespace Uefistored

open Lib

/-! ## `variable_list_bytes` -/

/-- A block handed out by `variable_list_bytes`: `*size`, and the bytes that were written from
its start on. -/
structure Blob where
  size : Nat
  written : List UInt8

/-- `variable_list_bytes`, with the block as it is; `some none` is `NULL`. -/
def variableListBlob (f : Fronts) (s : Storage) (nonvolatile : Bool) : Option (Option Blob) := do
  let r ← walk f s nonvolatile
  if r.vars = [] then some none
  -- `malloc` fails
  else if listSize r.vars ≥ 2 ^ 63 then some none
  else
    let (_, bytes) ← serializeVariableList (listSize r.vars) r.vars
    some (some ⟨listSize r.vars, bytes⟩)

/-- The bytes of a save are known where the block was written to its end. -/
theorem variableListBytes_of_blob {f : Fronts} {s : Storage} {nonvolatile : Bool}
    {bytes : List UInt8}
    (h : variableListBlob f s nonvolatile = some (some ⟨bytes.length, bytes⟩)) :
    variableListBytes f s nonvolatile = some bytes := by
  unfold variableListBlob at h
  obtain ⟨r, hr, h⟩ := Option.bind_eq_some_iff.mp h
  dsimp only at h
  split at h
  · cases h
  rename_i hne
  split at h
  · cases h
  obtain ⟨⟨ret, written⟩, hser, h⟩ := Option.bind_eq_some_iff.mp h
  obtain ⟨hsize, hwritten⟩ : listSize r.vars = bytes.length ∧ written = bytes := by
    have hblob := Option.some.inj (Option.some.inj h)
    exact ⟨congrArg Blob.size hblob, congrArg Blob.written hblob⟩
  unfold variableListBytes retrieve
  rw [hr]
  refine Option.bind_eq_some_iff.mpr ⟨r.vars, rfl, ?_⟩
  rw [if_neg hne]
  refine Option.bind_eq_some_iff.mpr ⟨_, hser, ?_⟩
  dsimp only
  rw [hwritten, hsize, if_pos rfl]

/-! ## The block -/

/-- What a walk returned is small enough to be allocated. -/
theorem blob_of_walk {f : Fronts} {s : Storage} {nonvolatile : Bool} {r : Retrieved}
    (hwalk : walk f s nonvolatile = some r) (hne : r.vars ≠ []) (hmodest : ∀ v ∈ r.vars, v.Modest)
    (hlen : r.vars.length ≤ 128) :
    variableListBlob f s nonvolatile = (serializeVariableList (listSize r.vars) r.vars).map
      (fun out => some ⟨listSize r.vars, out.2⟩) := by
  have hsize := (listSize_eq (fun v hv => (hmodest v hv).variableSize.2) hlen).2
  unfold variableListBlob
  rw [hwalk]
  refine (Option.bind_some ..).trans ?_
  rw [if_neg hne, if_neg (by omega)]
  cases serializeVariableList (listSize r.vars) r.vars with
  | none => rfl
  | some out => rfl

theorem blob_of_nil {f : Fronts} {s : Storage} {nonvolatile : Bool} {r : Retrieved}
    (hwalk : walk f s nonvolatile = some r) (hnil : r.vars = []) :
    variableListBlob f s nonvolatile = some none := by
  unfold variableListBlob
  rw [hwalk]
  refine (Option.bind_some ..).trans ?_
  rw [if_pos hnil]

/-- A loop that wrote as many bytes as the sizes say has written every variable. -/
theorem serializeVars_complete {sz : Nat} : ∀ {vars : List Variable} {i sum ret : Nat}
    {bytes : List UInt8}, (∀ v ∈ vars, v.Modest) →
    serializeVars sz i sum vars = some (ret, bytes) →
    bytes.length ≤ (vars.map variableSize).sum ∧
      (bytes.length = (vars.map variableSize).sum →
        bytes = vars.flatMap serialized ∧ ∀ v ∈ vars, v.data ≠ [] ∧ (serializeVar v).isSome)
  | [], _, _, _, _, _, h => by
      cases h
      exact ⟨le_refl _, fun _ => ⟨rfl, fun _ hv => absurd hv List.not_mem_nil⟩⟩
  | v :: vars, i, sum, ret, bytes, hvars, h => by
      have hv := hvars v List.mem_cons_self
      have hsize := hv.variableSize
      have hsum : ((v :: vars).map variableSize).sum =
          variableSize v + (vars.map variableSize).sum :=
        rfl
      -- what stops the loop leaves at least this variable out
      have hstop : ∀ {ret' : Nat}, some (ret', []) = some (ret, bytes) →
          bytes.length ≤ ((v :: vars).map variableSize).sum ∧
            (bytes.length = ((v :: vars).map variableSize).sum →
              bytes = (v :: vars).flatMap serialized ∧
                ∀ w ∈ v :: vars, w.data ≠ [] ∧ (serializeVar w).isSome) := by
        intro ret' heq
        cases heq
        refine ⟨Nat.zero_le _, fun hlen => ?_⟩
        rw [hsum, List.length_nil] at hlen
        omega
      unfold serializeVars at h
      dsimp only at h
      split at h
      · exact hstop h
      split at h
      · exact hstop h
      rename_i hdata
      obtain ⟨b, hb, h⟩ := Option.bind_eq_some_iff.mp h
      obtain ⟨⟨ret', rest⟩, hrest, h⟩ := Option.bind_eq_some_iff.mp h
      cases h
      obtain ⟨ih, hall⟩ := serializeVars_complete (fun w hw => hvars w (List.mem_cons_of_mem _ hw))
        hrest
      have hlen : b.length = variableSize v := by
        have hname : v.namesz ≤ 256 := serializeVar_fits hb
        have hdata32 : v.datasz ≤ 32768 := hv.data
        rw [length_serializeVar hb, variableSize]
        omega
      dsimp only
      rw [hsum, List.length_append, hlen]
      refine ⟨by omega, fun heq => ?_⟩
      obtain ⟨hflat, hrests⟩ := hall (by omega)
      refine ⟨?_, ?_⟩
      · rw [List.flatMap_cons, serialized, hb, Option.getD_some, hflat]
      · intro w hw
        rcases List.mem_cons.mp hw with rfl | hw
        · exact ⟨hdata, by rw [hb]; rfl⟩
        · exact hrests w hw

/-! ## What the reader makes of a whole block -/

/-- Where an entry is read back with the size it was written with, its name lost no unit. -/
theorem kept_of_reloaded {w : Variable} (hname : w.namesz ≤ MAX_VARIABLE_NAME_SIZE)
    (hdata : w.data ≠ []) (hmodest : w.Modest) (h : (w.reloaded 0).namesz = w.namesz) :
    w.Kept := by
  have hmax : w.namesz ≤ 256 := hname
  have hkey := Variable.length_keyBytes hname
  have hsz : Key.stored 0 ⟨nameArray w.keyBytes, w.namesz, w.guid⟩ = w.namesz := h
  have hlast : lastUnit 0 (nameArray w.keyBytes) w.namesz ≠ 0 := by
    intro hzero
    unfold Key.stored at hsz
    rw [if_pos hzero] at hsz
    dsimp only at hsz
    by_cases h2 : 2 ≤ w.namesz
    · rw [sub64_of_le h2 (by omega)] at hsz
      omega
    · rw [sub64_of_lt (by omega) (by decide)] at hsz
      omega
  unfold lastUnit at hlast
  split at hlast
  · exact absurd rfl hlast
  · rename_i h2
    have hidx : 2 * (w.namesz / 2 - 1) + 1 < w.namesz := by omega
    refine ⟨⟨by omega, hname⟩, ?_, ?_, hmodest.data⟩
    · rwa [unitAt_nameArray (by rwa [hkey]) (by rw [hkey]; exact hidx),
        Variable.unitAt_keyBytes hidx] at hlast
    · exact Nat.one_le_iff_ne_zero.mpr (fun h0 => hdata (List.eq_nil_of_length_eq_zero h0))

/-- The reader of a block that is complete gets its entries. -/
theorem reloaded_of_read {vars vars' : List Variable} {ret : Nat} {bytes : List UInt8}
    (hmodest : ∀ v ∈ vars, v.Modest) (hlen : vars.length ≤ 128)
    (hnamed : ∀ v ∈ vars, v.data ≠ [] → v.namesz ≠ 0)
    (hser : serializeVariableList (listSize vars) vars = some (ret, bytes))
    (hfull : bytes.length = listSize vars)
    (hread : fromBytesToVars 0 MAX_VAR_COUNT bytes = some (.ok vars')) :
    List.Forall₂ (fun v v' => v' = v.reloaded 0) vars vars' ∧
      ∀ v ∈ vars, v.data ≠ [] ∧ v.namesz ≤ MAX_VARIABLE_NAME_SIZE := by
  have hsizes : ∀ v ∈ vars, variableSize v ≤ 33108 := fun v hv => (hmodest v hv).variableSize.2
  obtain ⟨hlist, hle⟩ := listSize_eq hsizes hlen
  obtain ⟨hpayload, -⟩ := payloadSize_sum hsizes hlen
  unfold serializeVariableList at hser
  obtain ⟨⟨ret', body⟩, hbody, hser⟩ := Option.bind_eq_some_iff.mp hser
  cases hser
  have hheader : (serializeVariableListHeader vars).length = 24 := rfl
  rw [List.length_append, hheader, hlist] at hfull
  obtain ⟨rfl, hall⟩ := (serializeVars_complete hmodest hbody).2 (by omega)
  have hentry : ∀ i, ∀ v ∈ vars, ∃ v', v' = v.reloaded 0 ∧
      Reads (unserializeVarCached (if i = 0 then 0 else 0)) (serialized v) v' := by
    intro i v hv
    obtain ⟨hdata, hsome⟩ := hall v hv
    obtain ⟨b, hb⟩ := Option.isSome_iff_exists.mp hsome
    refine ⟨_, rfl, ?_⟩
    rw [serialized, hb, Option.getD_some, ite_self]
    exact reads_serializeVar 0 hb (hnamed v hv hdata) hdata (hmodest v hv).data
  obtain ⟨vars₁, hreload, hreads⟩ := Reads.times hentry 0
  have hread₁ := reads_unserializeVars (n := MAX_VAR_COUNT) (by omega)
    (by omega : payloadSize vars < 256 ^ 8) hlen hreads []
  rw [List.append_nil] at hread₁
  have hvars : vars₁ = vars' := by
    have heq := hread₁.symm.trans (fromBytesToVars_ok_iff.mp hread).1
    exact congrArg Prod.fst (Except.ok.inj (Option.some.inj heq))
  subst hvars
  refine ⟨hreload, fun v hv => ⟨(hall v hv).1, ?_⟩⟩
  obtain ⟨b, hb⟩ := Option.isSome_iff_exists.mp (hall v hv).2
  exact serializeVar_fits hb

/-- A block that is complete and read back as it was written holds only names that keep their
size. -/
theorem kept_of_loads {vars vars' : List Variable} {ret : Nat} {bytes : List UInt8}
    (hmodest : ∀ v ∈ vars, v.Modest) (hlen : vars.length ≤ 128)
    (hnamed : ∀ v ∈ vars, v.data ≠ [] → v.namesz ≠ 0)
    (hser : serializeVariableList (listSize vars) vars = some (ret, bytes))
    (hfull : bytes.length = listSize vars)
    (hread : fromBytesToVars 0 MAX_VAR_COUNT bytes = some (.ok vars'))
    (hsame : List.Forall₂ Variable.SameFields vars vars') : ∀ v ∈ vars, v.Kept := by
  obtain ⟨hreload, hall⟩ := reloaded_of_read hmodest hlen hnamed hser hfull hread
  intro v hv
  obtain ⟨i, hi, rfl⟩ := List.getElem_of_mem hv
  have hi' : i < vars'.length := by rwa [← hreload.length_eq]
  have hval := List.Forall₂.get hreload hi hi'
  have hfields := List.Forall₂.get hsame hi hi'
  rw [show vars'.get ⟨i, hi'⟩ = (vars.get ⟨i, hi⟩).reloaded 0 from hval] at hfields
  exact kept_of_reloaded (hall _ hv).2 (hall _ hv).1 (hmodest _ hv) hfields.namesz

/-! ## Walks that fail -/

/-- The first valid slot that cannot be copied, and the valid slots in front of it. -/
structure FailsAt (s : Storage) (pre : List (Fin MAX_VAR_COUNT)) (j : Fin MAX_VAR_COUNT) :
    Prop where
  valid : (s.vars j).isValid = true
  fails : ¬ (s.vars j).Copyable
  front : ∀ k, k ∈ pre ↔ k < j ∧ (s.vars k).isValid = true
  walked : ∀ k ∈ pre, Walked s k
  split : ∃ post, Slots.indices s.vars Variable.isValid = pre ++ j :: post

theorem exists_failsAt {s : Storage} {i : Fin MAX_VAR_COUNT} (hvalid : (s.vars i).isValid = true)
    (hfail : ¬ (s.vars i).Copyable) : ∃ pre j, FailsAt s pre j ∧ j ≤ i := by
  have hi : i ∈ Slots.indices s.vars Variable.isValid := Slots.mem_indices.mpr hvalid
  obtain ⟨j, hj⟩ : ∃ j, (Slots.indices s.vars Variable.isValid).find?
      (fun k => decide (¬ (s.vars k).Copyable)) = some j := by
    rw [← Option.isSome_iff_exists, List.find?_isSome]
    exact ⟨i, hi, decide_eq_true hfail⟩
  obtain ⟨hjfail, pre, post, hsplit, hpre⟩ := List.find?_eq_some_iff_append.mp hj
  have hcopy : ∀ k ∈ pre, (s.vars k).Copyable := by
    intro k hk
    have hnot := hpre k hk
    rw [Bool.not_eq_true', decide_eq_false_iff_not, not_not] at hnot
    exact hnot
  have hjmem : j ∈ Slots.indices s.vars Variable.isValid := List.mem_of_find?_eq_some hj
  have horder := Slots.indices_pairwise s.vars Variable.isValid
  rw [hsplit, List.pairwise_append, List.pairwise_cons] at horder
  obtain ⟨-, ⟨hpost, -⟩, hless⟩ := horder
  have hbelow : ∀ k ∈ pre, k < j := fun k hk => hless k hk j List.mem_cons_self
  have hmem : ∀ k, (s.vars k).isValid = true ↔ k ∈ pre ∨ k = j ∨ k ∈ post := by
    intro k
    rw [← Slots.mem_indices (t := s.vars) (p := Variable.isValid), hsplit, List.mem_append,
      List.mem_cons]
  have hfront : ∀ k, k ∈ pre ↔ k < j ∧ (s.vars k).isValid = true := by
    intro k
    refine ⟨fun hk => ⟨hbelow k hk, (hmem k).mpr (.inl hk)⟩, ?_⟩
    rintro ⟨hlt, hk⟩
    rcases (hmem k).mp hk with hk | rfl | hk
    · exact hk
    · exact absurd hlt (lt_irrefl _)
    · exact absurd hlt (lt_asymm (hpost k hk))
  refine ⟨pre, j, ⟨Slots.mem_indices.mp hjmem, of_decide_eq_true hjfail, hfront, ?_, post, hsplit⟩,
    ?_⟩
  · intro k hk
    refine ⟨?_, ((hfront k).mp hk).2, hcopy k hk⟩
    have hlt : k.val < j.val := hbelow k hk
    have hj128 := j.isLt
    omega
  · rcases (hmem i).mp hvalid with hi | rfl | hi
    · exact absurd (hcopy i hi) hfail
    · exact le_refl _
    · exact (hpost i hi).le

theorem FailsAt.length_le {s : Storage} {pre : List (Fin MAX_VAR_COUNT)} {j : Fin MAX_VAR_COUNT}
    (h : FailsAt s pre j) : pre.length ≤ 128 := by
  obtain ⟨post, hsplit⟩ := h.split
  have hlen := length_indices_lt s Variable.isValid
  have hmax : MAX_VAR_COUNT = 128 := rfl
  rw [hsplit, List.length_append] at hlen
  omega

/-- `retrieve_vars` then returns 7, and `retrieve_nonvolatile_vars` what it has so far. -/
theorem FailsAt.walk {f : Fronts} {s : Storage} {pre : List (Fin MAX_VAR_COUNT)}
    {j : Fin MAX_VAR_COUNT} (h : FailsAt s pre j) (nonvolatile : Bool) :
    Uefistored.walk f s nonvolatile = some ⟨if nonvolatile then
        copiesNonvolatile f s 0 Variable.zero f.vars pre
      else (copies s f.vars pre ++
        (variableCopy (f.next (copies s f.vars pre)) Variable.zero (s.vars j)).2 ::
          List.replicate (MAX_VAR_COUNT - (copies s f.vars pre).length - 1) Variable.zero).take
        (EfiStatus.deviceError.code % 2 ^ 32), 0, true⟩ := by
  obtain ⟨post, hsplit⟩ := h.split
  have hneg : ∀ below dst, (variableCopy below dst (s.vars j)).1 < 0 := fun below dst =>
    variableCopy_neg below dst (Variable.namesz_of_isValid h.valid) h.fails
  rw [walk_eq, hsplit]
  cases nonvolatile with
  | false =>
      rw [if_neg Bool.false_ne_true, if_neg Bool.false_ne_true, gather_append _ h.walked,
        List.nil_append, show f.next [] = f.vars from rfl, gather]
      dsimp only
      rw [if_pos (hneg _ _)]
  | true =>
      obtain ⟨index', tmp', happend⟩ := gatherNonvolatile_append (f := f) 0 Variable.zero []
        (j :: post) h.walked
      rw [if_pos rfl, if_pos rfl, happend, List.nil_append, show f.next [] = f.vars from rfl,
        gatherNonvolatile]
      dsimp only
      rw [if_pos (hneg _ _)]

/-- A failed `retrieve_vars` is not taken for one. -/
theorem FailsAt.blob_ne_null {f : Fronts} {s : Storage} {pre : List (Fin MAX_VAR_COUNT)}
    {j : Fin MAX_VAR_COUNT} (h : FailsAt s pre j) :
    variableListBlob f s false ≠ some none := by
  have hwalk := h.walk (f := f) false
  rw [if_neg Bool.false_ne_true] at hwalk
  have hmodest : ∀ w ∈ copies s f.vars pre ++
      (variableCopy (f.next (copies s f.vars pre)) Variable.zero (s.vars j)).2 ::
        List.replicate (MAX_VAR_COUNT - (copies s f.vars pre).length - 1) Variable.zero,
      w.Modest := by
    intro w hw
    rcases List.mem_append.mp hw with hw | hw
    · exact copies_modest _ h.walked w hw
    rcases List.mem_cons.mp hw with rfl | hw
    · exact variableCopy_modest _ _ Variable.modest_zero
    · rw [List.eq_of_mem_replicate hw]
      exact Variable.modest_zero
  have hseven : EfiStatus.deviceError.code % 2 ^ 32 = 7 := by decide
  rw [hseven] at hwalk
  generalize copies s f.vars pre = front at hwalk hmodest
  rw [blob_of_walk hwalk ?_ (fun w hw => hmodest w (List.mem_of_mem_take hw)) ?_]
  · intro heq
    obtain ⟨out, -, hout⟩ := Option.map_eq_some_iff.mp heq
    cases hout
  · intro hnil
    rcases List.take_eq_nil_iff.mp hnil with hzero | happ
    · cases hzero
    · exact absurd (List.append_eq_nil_iff.mp happ).2 (List.cons_ne_nil _ _)
  · exact (List.length_take_le _ _).trans (by decide)

theorem copiesNonvolatile_eq_nil {f : Fronts} {s : Storage} {l : List (Fin MAX_VAR_COUNT)}
    {index : Nat} {tmp : Variable} {below : UInt16} :
    copiesNonvolatile f s index tmp below l = [] ↔
      ∀ i ∈ l, (s.vars i).attrs.nonVolatile = false := by
  rw [← List.length_eq_zero_iff, length_copiesNonvolatile, List.length_eq_zero_iff,
    List.filter_eq_nil_iff]
  exact forall₂_congr (fun i _ => (Bool.not_eq_true _).to_iff)

/-! ## Saving and loading -/

/-- Whatever lies in front of the variables: a block that is handed out has the announced size,
is read back, and holds what the walk returned; and none is handed out when the walk failed. -/
def SaveLoads (s : Storage) (nonvolatile : Bool) : Prop :=
  ∀ f front, ∃ r out, walk f s nonvolatile = some r ∧
    variableListBlob f s nonvolatile = some out ∧ (r.failed = true → out = none) ∧
    ∀ blob, out = some blob → blob.written.length = blob.size ∧
      ∃ vars, fromBytesToVars front MAX_VAR_COUNT blob.written = some (.ok vars) ∧
        headerCount blob.written = vars.length ∧ List.Forall₂ Variable.SameFields r.vars vars

/-- Every valid variable can be copied, and every name that is saved has settled before the
reader gets it. -/
def Storage.Savable (s : Storage) (nonvolatile : Bool) : Prop :=
  (∀ i, (s.vars i).isValid = true → (s.vars i).Copyable) ∧
    ∀ i ∈ innerSlots s, asked nonvolatile (s.vars i) = true →
      (s.vars i).Settles (timesCopied nonvolatile)

/-- `retrieve_nonvolatile_vars` fails before it has found anything. -/
def Storage.FailsEarly (s : Storage) : Prop :=
  ∃ i, (s.vars i).isValid = true ∧ ¬ (s.vars i).Copyable ∧
    ∀ j < i, (s.vars j).isValid = true → (s.vars j).attrs.nonVolatile = false

theorem headerCount_header {vars : List Variable} (h : vars.length < 256 ^ 8)
    (body : List UInt8) : headerCount (serializeVariableListHeader vars ++ body) = vars.length := by
  unfold headerCount serializeVariableListHeader
  rw [List.append_assoc, List.append_assoc, List.append_assoc, ← List.append_assoc VARS,
    List.drop_left' (show (VARS ++ leBytes 4 1).length = 8 from rfl),
    List.take_left' (length_leBytes 8 _), leNat_leBytes_of_lt h]

/-- A store whose names have settled is saved and loaded. -/
theorem Storage.Savable.blob {s : Storage} {nonvolatile : Bool} (h : s.Savable nonvolatile)
    (f : Fronts) (front : UInt16) (hne : saved f s nonvolatile ≠ []) :
    ∃ bytes vars, variableListBlob f s nonvolatile = some (some ⟨bytes.length, bytes⟩) ∧
      bytes.length = listSize (saved f s nonvolatile) ∧
      fromBytesToVars front MAX_VAR_COUNT bytes = some (.ok vars) ∧
      headerCount bytes = vars.length ∧
      List.Forall₂ Variable.SameFields (saved f s nonvolatile) vars := by
  have hlen := length_saved f s nonvolatile
  have hkept := saved_kept h.1 h.2 f
  obtain ⟨hser, hsize, vars, hread, hsame⟩ := serialize_kept (n := MAX_VAR_COUNT)
    (hlen.trans (by decide)) hkept front (hlen.trans (by decide))
  refine ⟨_, vars, ?_, hsize, hread, ?_, hsame⟩
  · rw [blob_of_walk (walk_of_copyable h.1) hne (saved_modest h.1) (hlen.trans (by decide)), hser,
      hsize]
    rfl
  · rw [headerCount_header (by omega), hsame.length_eq]

theorem saveLoads_of_savable {s : Storage} {nonvolatile : Bool} (h : s.Savable nonvolatile) :
    SaveLoads s nonvolatile := by
  intro f front
  have hwalk : walk f s nonvolatile = some ⟨saved f s nonvolatile, 0, false⟩ :=
    walk_of_copyable h.1
  by_cases hnil : saved f s nonvolatile = []
  · exact ⟨_, none, hwalk, blob_of_nil hwalk hnil, fun _ => rfl, fun _ hblob => nomatch hblob⟩
  · obtain ⟨bytes, vars, hblob, -, hread, hcount, hsame⟩ := h.blob f front hnil
    refine ⟨_, _, hwalk, hblob, fun hfailed => Bool.noConfusion hfailed, ?_⟩
    intro blob heq
    cases heq
    exact ⟨rfl, vars, hread, hcount, hsame⟩

theorem saveLoads_of_failsEarly {s : Storage} (h : s.FailsEarly) : SaveLoads s true := by
  obtain ⟨i, hvalid, hfail, hvolatile⟩ := h
  obtain ⟨pre, j, hfails, hle⟩ := exists_failsAt hvalid hfail
  intro f front
  have hwalk := hfails.walk (f := f) true
  have hnil : copiesNonvolatile f s 0 Variable.zero f.vars pre = [] := by
    refine copiesNonvolatile_eq_nil.mpr ?_
    intro k hk
    obtain ⟨hlt, hk⟩ := (hfails.front k).mp hk
    exact hvolatile k (lt_of_lt_of_le hlt hle) hk
  exact ⟨_, none, hwalk, blob_of_nil hwalk hnil, fun _ => rfl, fun _ hblob => nomatch hblob⟩

/-- Where zeros lie in front of the variables, a name that has not settled is cut by the
reader. -/
theorem savable_of_saveLoads {s : Storage} {nonvolatile : Bool}
    (hcopy : ∀ i, (s.vars i).isValid = true → (s.vars i).Copyable) (h : SaveLoads s nonvolatile) :
    s.Savable nonvolatile := by
  refine ⟨hcopy, ?_⟩
  have hwalk : walk Fronts.zero s nonvolatile = some ⟨saved Fronts.zero s nonvolatile, 0, false⟩ :=
    walk_of_copyable hcopy
  by_cases hnil : saved Fronts.zero s nonvolatile = []
  · intro i hi hask
    rw [(saved_eq_nil_iff nonvolatile).mp hnil i hi] at hask
    cases hask
  refine settles_of_saved hcopy ?_
  have hlen := (length_saved Fronts.zero s nonvolatile).trans (show 127 ≤ 128 by decide)
  have hmodest : ∀ w ∈ saved Fronts.zero s nonvolatile, w.Modest := saved_modest hcopy
  obtain ⟨r, out, hr, hout, -, hloads⟩ := h Fronts.zero 0
  obtain rfl := Option.some.inj (hwalk.symm.trans hr)
  rw [blob_of_walk hwalk hnil hmodest hlen] at hout
  obtain ⟨⟨ret, bytes⟩, hser, rfl⟩ := Option.map_eq_some_iff.mp hout
  obtain ⟨hfull, vars, hread, -, hsame⟩ := hloads _ rfl
  exact kept_of_loads hmodest hlen (saved_named hcopy) hser hfull hread hsame

/-- The stores that are saved and loaded as they should be: every variable can be copied and
every name has settled; or, where only the non-volatile variables are asked for, the walk fails
before it has found one. -/
theorem saveLoads_iff (s : Storage) (nonvolatile : Bool) :
    SaveLoads s nonvolatile ↔ s.Savable nonvolatile ∨ nonvolatile = true ∧ s.FailsEarly := by
  constructor
  · intro h
    by_cases hcopy : ∀ i, (s.vars i).isValid = true → (s.vars i).Copyable
    · exact .inl (savable_of_saveLoads hcopy h)
    rw [not_forall] at hcopy
    obtain ⟨i, hi⟩ := hcopy
    obtain ⟨hvalid, hfail⟩ := Classical.not_imp.mp hi
    obtain ⟨pre, j, hfails, -⟩ := exists_failsAt hvalid hfail
    obtain ⟨r, out, hr, hout, hnull, -⟩ := h Fronts.zero 0
    obtain rfl := Option.some.inj ((hfails.walk nonvolatile).symm.trans hr)
    obtain rfl := hnull rfl
    cases nonvolatile with
    | false => exact absurd hout hfails.blob_ne_null
    | true =>
        refine .inr ⟨rfl, j, hfails.valid, hfails.fails, fun k hlt hk => ?_⟩
        have hmem := (hfails.front k).mpr ⟨hlt, hk⟩
        by_contra hnv
        have hne : copiesNonvolatile Fronts.zero s 0 Variable.zero Fronts.zero.vars pre ≠ [] :=
          fun hnil => hnv (copiesNonvolatile_eq_nil.mp hnil k hmem)
        rw [blob_of_walk hr hne (copiesNonvolatile_modest _ _ _) ?_] at hout
        · obtain ⟨_, -, hblob⟩ := Option.map_eq_some_iff.mp hout
          cases hblob
        · exact (length_copiesNonvolatile pre 0 _ _).le.trans
            ((List.length_filter_le _ _).trans hfails.length_le)
  · rintro (h | ⟨rfl, h⟩)
    · exact saveLoads_of_savable h
    · exact saveLoads_of_failsEarly h

/-- The request for a name of one byte. -/
def oneByteRequest : Request Unit Unit := volatileRequest [65] [1] (by decide)

/-- The name is stored with the size `-1`.  `storage_iter` reports an error for it, and seven
empty variables are saved: 24 of the block's 612 bytes are written. -/
theorem not_saveLoads_oneByte : ∃ m, Run Step freshMachine [oneByteRequest] m ∧
    (∃ r, walk Fronts.zero m.storage false = some r ∧ r.failed = true ∧ r.vars.length = 7) ∧
    (∃ blob, variableListBlob Fronts.zero m.storage false = some (some blob) ∧
      blob.size = 612 ∧ blob.written.length = 24) ∧ ¬ SaveLoads m.storage false := by
  have hrun : ((handleAll freshMachine [oneByteRequest]).bind fun m =>
      (walk Fronts.zero m.storage false).bind fun r =>
        (variableListBlob Fronts.zero m.storage false).map fun out =>
          (r.failed, r.vars.length, out.map fun blob => (blob.size, blob.written.length))) =
      some (true, 7, some (612, 24)) := by
    decide +kernel
  obtain ⟨m, hm, hrun⟩ := Option.bind_eq_some_iff.mp hrun
  obtain ⟨r, hr, hrun⟩ := Option.bind_eq_some_iff.mp hrun
  obtain ⟨out, hout, hsizes⟩ := Option.map_eq_some_iff.mp hrun
  obtain ⟨hfailed, hsizes⟩ := Prod.mk.inj hsizes
  obtain ⟨hseven, hsizes⟩ := Prod.mk.inj hsizes
  obtain ⟨blob, rfl, hsizes⟩ := Option.map_eq_some_iff.mp hsizes
  obtain ⟨hsize, hwritten⟩ := Prod.mk.inj (Option.some.inj hsizes)
  refine ⟨m, run_iff_handleAll.mpr hm, ⟨r, hr, hfailed, hseven⟩, ⟨blob, hout, hsize, hwritten⟩,
    fun h => ?_⟩
  obtain ⟨r₁, out₁, hr₁, hout₁, hnull, -⟩ := h Fronts.zero 0
  obtain rfl := Option.some.inj (hr.symm.trans hr₁)
  obtain rfl := Option.some.inj (hout.symm.trans hout₁)
  exact absurd (hnull hfailed) (Option.some_ne_none _)

end Uefistored
