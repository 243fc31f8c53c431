/-
# `Uefistored.Distinct` — one slot for one name

A look-up compares the size it is told with the stored one, and storing a name
rewrites the size: `sanitize_namesz` takes off a last unit that is NUL.  For a
name that ends in NUL the two disagree, the look-up misses the slot the last
write went to, and the same request again takes a second slot
(`trailingNul_twice`).

For names that do not end in NUL they agree.  Then every write keeps the store
free of duplicates (`Write.keyed`), start-up begins without any, and so no
sequence of requests ever makes one (`storage_noDuplicates`).
-/
import Uefistored.Effect

namespace Uefistored

open Lib

namespace Storage

/-- No two occupied slots hold the same stored name and GUID. -/
def NoDuplicates (s : Storage) : Prop :=
  Slots.Distinct (fun v : Variable => v.isFree = false) (fun v => (v.keyBytes, v.guid)) s.vars

/-- The invariant of the store: stored sizes are inside the name array, and there are no
duplicates. -/
structure Keyed (s : Storage) : Prop where
  fits : ∀ i, (s.vars i).namesz ≤ MAX_VARIABLE_NAME_SIZE
  distinct : s.NoDuplicates

theorem keyed_empty (front : UInt16) : (empty front).Keyed := by
  refine ⟨fun _ => Nat.zero_le _, ?_⟩
  intro i j hi _ _
  rw [show ((empty front).vars i).isFree = true from Variable.isFree_zero] at hi
  cases hi

/-- Replacing a slot by one with the same name, size and GUID. -/
theorem Keyed.rewrite {s : Storage} (h : s.Keyed) {i : Fin MAX_VAR_COUNT} {v : Variable}
    (hname : v.name = (s.vars i).name) (hsz : v.namesz = (s.vars i).namesz)
    (hguid : v.guid = (s.vars i).guid) : (s.setSlot i v).Keyed := by
  constructor
  · exact Slots.forall_update (Q := fun _ (v : Variable) => v.namesz ≤ MAX_VARIABLE_NAME_SIZE)
      h.fits (hsz.trans_le (h.fits i))
  · refine Slots.Distinct.update h.distinct ?_
    intro hocc j hj hoccj hkey
    have hfree : (s.vars i).isFree = false := by simpa [Variable.isFree, hname] using hocc
    refine hj (h.distinct j i hoccj hfree ?_)
    simpa [Variable.keyBytes, hname, hsz, hguid] using hkey

/-- Emptying a slot. -/
theorem Keyed.remove {s : Storage} (h : s.Keyed) (i : Fin MAX_VAR_COUNT) : (s.remove i).Keyed := by
  constructor
  · exact Slots.forall_update (Q := fun _ (v : Variable) => v.namesz ≤ MAX_VARIABLE_NAME_SIZE)
      h.fits (Nat.zero_le _)
  · refine Slots.Distinct.update h.distinct ?_
    intro hocc
    rw [variableDestroyNoalloc, Variable.isFree_zero] at hocc
    cases hocc

/-- Equal stored names have equal sizes, so a slot with the name of `k` is one that a
look-up of `k` accepts. -/
theorem Keyed.isMatch {s : Storage} (h : s.Keyed) {k : Key} (hk : k.Clean)
    {j : Fin MAX_VAR_COUNT} (hb : (s.vars j).keyBytes = k.bytes)
    (hg : (s.vars j).guid = k.guid) : (s.vars j).isMatch k = true := by
  refine Variable.isMatch_iff.mpr ⟨?_, hb, hg⟩
  have hlen := congrArg List.length hb
  simp only [Variable.keyBytes, Key.bytes, List.length_take, Block.length_eq] at hlen
  have hj := h.fits j
  have hk' := hk.fits
  omega

/-- Taking an empty slot for a name that no slot holds. -/
theorem Keyed.create {s : Storage} (h : s.Keyed) {k : Key} (hk : k.Clean)
    (hnone : s.findSlot k = none) {i : Fin MAX_VAR_COUNT} {v : Variable}
    (hm : v.isMatch k = true) : (s.setSlot i v).Keyed := by
  obtain ⟨hsz, hb, hg⟩ := Variable.isMatch_iff.mp hm
  constructor
  · exact Slots.forall_update (Q := fun _ (v : Variable) => v.namesz ≤ MAX_VARIABLE_NAME_SIZE)
      h.fits (hsz.trans_le hk.fits)
  · refine Slots.Distinct.update h.distinct ?_
    intro _ j _ _ hkey
    obtain ⟨hbj, hgj⟩ := Prod.mk.inj hkey
    have hmatch := h.isMatch hk (hbj.trans hb) (hgj.trans hg)
    rw [Slots.first_eq_none_iff.mp hnone j] at hmatch
    cases hmatch

end Storage

/-! ## Writes keep the invariant -/

theorem storageSet_keyed {s : Storage} (h : s.Keyed) {k : Key} (hk : k.Clean)
    (data : Option (List UInt8)) (attrs : Attrs) : (storageSet s k data attrs).2.Keyed := by
  have hc := storageSet_cases s k data attrs
  generalize storageSet s k data attrs = r at hc
  obtain ⟨st, s'⟩ := r
  cases hc with
  | refused => exact h
  | removed _ _ => exact h.remove _
  | replaced _ _ _ _ _ hi _ =>
      rw [Variable.named_self hk (Storage.findSlot_isMatch hi)]
      exact h.rewrite rfl rfl rfl
  | renamed _ _ _ hi =>
      rw [Variable.named_self hk (Storage.findSlot_isMatch hi)]
      exact h.rewrite rfl rfl rfl
  | @created i d _ _ _ _ _ hnone _ =>
      have hm := Variable.isMatch_created hk (s.vars i) (s.below i) d attrs.withoutAppend
      have hkeyed := h.create hk hnone (i := i) hm
      exact ⟨hkeyed.fits, hkeyed.distinct⟩

theorem Write.keyed {k : Key} (hk : k.Clean) {s s' : Storage} (h : Write k s s')
    (hs : s.Keyed) : s'.Keyed := by
  cases h with
  | set data attrs => exact storageSet_keyed hs hk data attrs
  | mark time cert _ => exact hs.rewrite rfl rfl rfl

theorem Writes.keyed {K : Key → Prop} (hK : ∀ k, K k → k.Clean) {s s' : Storage}
    (h : Writes K s s') (hs : s.Keyed) : s'.Keyed :=
  h.invariant (fun k _ _ hk hw => hw.keyed (hK k hk)) hs

/-! ## Requests -/

/-- The name of the request has a unit, and its last unit is not NUL. -/
def SetRequest.NoTrailingNul (req : SetRequest) : Prop :=
  2 ≤ req.name.length ∧ unitAt req.name (req.name.length / 2 - 1) ≠ 0

instance (req : SetRequest) : Decidable req.NoTrailingNul := inferInstanceAs (Decidable (_ ∧ _))

theorem headD_of_refusal {req : SetRequest} (h : refusal req = none) : req.name.headD 0 ≠ 0 := by
  unfold refusal at h
  split at h
  · cases h
  split at h
  · cases h
  · rename_i hcond
    simp only [Bool.or_eq_true, not_or, beq_iff_eq] at hcond
    exact hcond.1

/-- Such a name is stored with the size it came with. -/
theorem SetRequest.NoTrailingNul.key_clean {req : SetRequest} (h : req.NoTrailingNul)
    (hr : refusal req = none) : req.key.Clean := by
  have hunit : ∀ i < req.name.length / 2, unitAt req.key.name.bytes i = unitAt req.name i := by
    intro i hi
    exact unitAt_nameArray req.name_fits (by omega)
  refine ⟨h.1, req.name_fits, ?_, ?_⟩
  · have h2 := h.1
    have hhead := headD_of_refusal hr
    rw [hunit 0 (by omega)]
    match hname : req.name with
    | lo :: hi :: rest =>
        rw [hname] at hhead
        exact fun h0 => hhead (unitAt_cons_cons_zero.mp h0).1
    | [_] => simp [hname] at h2
    | [] => simp [hname] at h2
  · show unitAt req.key.name.bytes (req.name.length / 2 - 1) ≠ 0
    have h2 := h.1
    rw [hunit _ (by omega)]
    exact h.2

section
variable {P X : Type}

theorem Step.keyed {m m' : Machine} {r : Request P X} (h : Step m r m')
    (hname : r.set.NoTrailingNul) (hm : m.storage.Keyed) : m'.storage.Keyed := by
  obtain ⟨status, h⟩ := h
  refine (handleSetVariable_writes h).keyed ?_ hm
  rintro k (⟨rfl, hr⟩ | hk)
  · exact hname.key_clean hr
  · exact modeKeys_clean k hk

theorem startKeys_clean (db dbx kek pk : List UInt8) :
    ∀ k ∈ startKeys (authFiles db dbx kek pk), k.Clean := by
  have hkeys : startKeys (authFiles db dbx kek pk) =
      signatureSupportKey :: auditModeKey :: ([dbKey, dbxKey, kekKey, pkKey] ++ modeKeys) := rfl
  rw [hkeys]
  decide +kernel

/-- From an empty store, through start-up and any requests whose names do not end in NUL:
no two occupied slots hold the same name and GUID. -/
theorem storage_noDuplicates {ssl : Phase → OpenSsl P X} {m₀ m m' : Machine} {front : UInt16}
    {db dbx kek pk : List UInt8} {status : EfiStatus} {rs : List (Request P X)}
    (hempty : m₀.storage = Storage.empty front)
    (hinit : authLibInitialize ssl m₀ (authFiles db dbx kek pk) = some (status, m))
    (hrun : Run Step m rs m') (hnames : ∀ r ∈ rs, r.set.NoTrailingNul) :
    m'.storage.NoDuplicates := by
  have hstart : m.storage.Keyed := by
    refine (authLibInitialize_writes hinit).keyed (startKeys_clean db dbx kek pk) ?_
    rw [hempty]
    exact Storage.keyed_empty front
  have hend : m'.storage.Keyed :=
    (hrun.restrict hnames).invariant (I := fun m => m.storage.Keyed)
      (fun _ _ _ hstep hm => hstep.1.keyed hstep.2 hm) hstart
  exact hend.distinct

end

theorem storage_noDuplicates_A : ∃ m m',
    authLibInitialize (fun _ => OpenSsl.accepting) freshMachine (authFiles [] [] [] []) =
      some (.success, m) ∧
    Run Step m [volatileRequest (wide ['A']) [1] (by decide),
      volatileRequest (wide ['A']) [1] (by decide)] m' ∧
    m'.storage.NoDuplicates := by
  have hrun : ((authLibInitialize (fun _ => OpenSsl.accepting) freshMachine
      (authFiles [] [] [] [])).bind (fun r => (handleAll r.2
        [volatileRequest (wide ['A']) [1] (by decide),
          volatileRequest (wide ['A']) [1] (by decide)]).map (fun _ => r.1))) = some .success := by
    decide +kernel
  obtain ⟨⟨status, m⟩, hinit, hrun⟩ := Option.bind_eq_some_iff.mp hrun
  obtain ⟨m', hrun, rfl⟩ := Option.map_eq_some_iff.mp hrun
  have hrun := run_iff_handleAll.mpr hrun
  exact ⟨m, m', hinit, hrun, storage_noDuplicates rfl hinit hrun (by decide +kernel)⟩

/-- The same request twice, with a name that ends in NUL: the slots 5 and 6, behind the
five variables of start-up, both hold `A`. -/
theorem trailingNul_twice : ∃ m m',
    authLibInitialize (fun _ => OpenSsl.accepting) freshMachine (authFiles [] [] [] []) =
      some (.success, m) ∧
    Run Step m [volatileRequest (wide ['A'] ++ [0, 0]) [1] (by decide),
      volatileRequest (wide ['A'] ++ [0, 0]) [1] (by decide)] m' ∧
    ¬ m'.storage.NoDuplicates := by
  have hrun : ((authLibInitialize (fun _ => OpenSsl.accepting) freshMachine
      (authFiles [] [] [] [])).bind (fun r => (handleAll r.2
        [volatileRequest (wide ['A'] ++ [0, 0]) [1] (by decide),
          volatileRequest (wide ['A'] ++ [0, 0]) [1] (by decide)]).map (fun m =>
            (r.1, [5, 6].map (fun i => ((m.storage.vars i).isFree, (m.storage.vars i).keyBytes,
              (m.storage.vars i).guid)))))) =
      some (.success, [(false, wide ['A'], gEfiGlobalVariableGuid),
        (false, wide ['A'], gEfiGlobalVariableGuid)]) := by
    decide +kernel
  obtain ⟨⟨status, m⟩, hinit, hrun⟩ := Option.bind_eq_some_iff.mp hrun
  obtain ⟨m', hrun, hslots⟩ := Option.map_eq_some_iff.mp hrun
  simp only [List.map_cons, List.map_nil, Prod.mk.injEq, List.cons.injEq, and_true] at hslots
  obtain ⟨rfl, ⟨h5, hb5, hg5⟩, h6, hb6, hg6⟩ := hslots
  refine ⟨m, m', hinit, run_iff_handleAll.mpr hrun, fun hdup => ?_⟩
  have h56 := hdup 5 6 h5 h6 (Prod.ext (hb5.trans hb6.symm) (hg5.trans hg6.symm))
  exact absurd h56 (by decide)

end Uefistored
