/-
# `Uefistored.Tidy` — stores that hold names without NUL units

The stores that writes under names without NUL units lead to.  A `VarKey` is
such a name with its GUID; it carries the two facts about the name that every
look-up relies on.

`Storage.Tidy` collects what is true of these stores: the counters are right,
no key is there twice, sizes are in range, every slot in use is found under the
key of a `VarKey`, and every other slot is all zeros.  One write keeps all of
it (`Write.tidy`), and so does everything that is made of writes.
-/
import Uefistored.Occupancy

namespace Uefistored

open Lib

/-- A name without NUL units that fits, and a GUID. -/
structure VarKey where
  name : List UInt8
  guid : Guid
  nulFree : NulFree name
  fits : name.length ≤ MAX_VARIABLE_NAME_SIZE
  deriving DecidableEq

namespace VarKey

/-- The key that is handed to the storage functions. -/
def key (K : VarKey) : Key := Key.of K.name K.guid

theorem clean (K : VarKey) : K.key.Clean := Key.clean_of_nulFree K.nulFree K.fits K.guid

theorem key_bytes (K : VarKey) : K.key.bytes = K.name := Key.bytes_of K.fits K.guid

/-- Different keys find different slots. -/
theorem eq_of_same {K K' : VarKey} (h : K.key.Same K'.key) : K = K' := by
  obtain ⟨name, guid, hn, hf⟩ := K
  obtain ⟨name', guid', hn', hf'⟩ := K'
  obtain ⟨_, hb, hg⟩ := h
  rw [key_bytes, key_bytes] at hb
  obtain rfl : name = name' := hb
  obtain rfl : guid = guid' := hg
  rfl

theorem eq_of_isMatch {K K' : VarKey} {v : Variable} (h : v.isMatch K.key = true)
    (h' : v.isMatch K'.key = true) : K = K' :=
  eq_of_same (Variable.same_of_isMatch h h')

end VarKey

/-- What holds of every store that only such names were written to. -/
structure Storage.Tidy (s : Storage) : Prop where
  counted : s.Counted
  keyed : s.Keyed
  sized : s.Sized
  named : ∀ i, (s.vars i).isFree = false → ∃ K : VarKey, (s.vars i).isMatch K.key = true
  zero : ∀ i, (s.vars i).isFree = true → s.vars i = Variable.zero

namespace Storage

theorem sized_empty (front : UInt16) : (empty front).Sized := by
  intro i hi
  rw [show ((empty front).vars i).isFree = true from Variable.isFree_zero] at hi
  cases hi

theorem tidy_empty (front : UInt16) : (empty front).Tidy := by
  refine ⟨counted_empty front, keyed_empty front, sized_empty front, ?_, fun _ _ => rfl⟩
  intro i hi
  rw [show ((empty front).vars i).isFree = true from Variable.isFree_zero] at hi
  cases hi

/-- A slot that a look-up accepts is the one it ends at. -/
theorem Keyed.findSlot_eq {s : Storage} (h : s.Keyed) {k : Key} (hk : k.Clean)
    {i : Fin MAX_VAR_COUNT} (hi : (s.vars i).isMatch k = true) : s.findSlot k = some i := by
  have hused : ∀ {j}, (s.vars j).isMatch k = true → (s.vars j).isFree = false := by
    intro j hj
    exact Variable.isFree_of_isValid (Variable.isValid_of_isMatch hk.named hj)
  cases hf : s.findSlot k with
  | none =>
      rw [Slots.first_eq_none_iff.mp hf i] at hi
      cases hi
  | some j =>
      have hj := findSlot_isMatch hf
      obtain ⟨_, hbi, hgi⟩ := Variable.isMatch_iff.mp hi
      obtain ⟨_, hbj, hgj⟩ := Variable.isMatch_iff.mp hj
      have hkey : ((s.vars j).keyBytes, (s.vars j).guid) = ((s.vars i).keyBytes, (s.vars i).guid) :=
        Prod.ext (hbj.trans hbi.symm) (hgj.trans hgi.symm)
      rw [h.distinct j i (hused hj) (hused hi) hkey]

end Storage

/-! ## Writes -/

/-- What is left in one slot by a `storage_set`, seen from the two last fields of `Tidy`. -/
theorem storageSet_tidySlot {s : Storage} (h : s.Tidy) (K : VarKey) (data : Option (List UInt8))
    (attrs : Attrs) (i : Fin MAX_VAR_COUNT) :
    (((storageSet s K.key data attrs).2.vars i).isFree = false →
      ∃ K' : VarKey, ((storageSet s K.key data attrs).2.vars i).isMatch K'.key = true) ∧
    (((storageSet s K.key data attrs).2.vars i).isFree = true →
      (storageSet s K.key data attrs).2.vars i = Variable.zero) := by
  have hr := storageSet_slot (s := s) K.clean data attrs i
  generalize (storageSet s K.key data attrs).2.vars i = v at hr ⊢
  cases hr with
  | kept => exact ⟨h.named i, h.zero i⟩
  | removed =>
      refine ⟨?_, fun _ => rfl⟩
      intro hfree
      rw [Variable.isFree_zero] at hfree
      cases hfree
  | replaced _ _ _ hi =>
      have hmatch : (s.vars i).isMatch K.key = true := Storage.findSlot_isMatch hi
      refine ⟨fun _ => ⟨K, hmatch⟩, ?_⟩
      intro hfree
      exact absurd ((Variable.isFree_of_isMatch K.clean hmatch).symm.trans hfree) (by simp)
  | @created d =>
      have hmatch := Variable.isMatch_created K.clean (s.vars i) (s.below i) d attrs.withoutAppend
      refine ⟨fun _ => ⟨K, hmatch⟩, ?_⟩
      intro hfree
      exact absurd ((Variable.isFree_of_isMatch K.clean hmatch).symm.trans hfree) (by simp)

theorem Write.tidy {K : VarKey} {s s' : Storage} (h : Write K.key s s') (hs : s.Tidy) :
    s'.Tidy := by
  refine ⟨h.counted K.clean.named hs.counted, h.keyed K.clean hs.keyed,
    h.sized K.clean.named K.clean.two_le hs.sized, ?_, ?_⟩
  · cases h with
    | set data attrs => exact fun i => (storageSet_tidySlot hs K data attrs i).1
    | @mark i time cert hi =>
        exact Slots.forall_update (Q := fun _ (v : Variable) => v.isFree = false → ∃ K : VarKey,
          v.isMatch K.key = true) hs.named (fun _ => ⟨K, Storage.findSlot_isMatch hi⟩)
  · cases h with
    | set data attrs => exact fun i => (storageSet_tidySlot hs K data attrs i).2
    | @mark i time cert hi =>
        refine Slots.forall_update (Q := fun _ (v : Variable) => v.isFree = true →
          v = Variable.zero) hs.zero ?_
        intro hfree
        have hused := Variable.isFree_of_isMatch K.clean (Storage.findSlot_isMatch hi)
        exact absurd (hused.symm.trans hfree) (by simp)

/-- The key is one without NUL units. -/
def Key.IsVarKey (k : Key) : Prop := ∃ K : VarKey, k = K.key

theorem modeKeys_isVarKey : ∀ k ∈ modeKeys, k.IsVarKey := by
  intro k hk
  simp only [modeKeys, List.mem_cons, List.not_mem_nil, or_false] at hk
  rcases hk with rfl | rfl | rfl
  · exact ⟨⟨EFI_SECURE_BOOT_MODE_NAME, gEfiGlobalVariableGuid, by decide, by decide⟩, rfl⟩
  · exact ⟨⟨EFI_SETUP_MODE_NAME, gEfiGlobalVariableGuid, by decide, by decide⟩, rfl⟩
  · exact ⟨⟨EFI_DEPLOYED_MODE_NAME, gEfiGlobalVariableGuid, by decide, by decide⟩, rfl⟩

theorem Key.IsVarKey.not_same {k : Key} (hk : k.IsVarKey) {K : VarKey} (hne : k ≠ K.key) :
    ¬ k.Same K.key := by
  obtain ⟨K', rfl⟩ := hk
  exact fun hsame => hne (congrArg VarKey.key (VarKey.eq_of_same hsame))

theorem Key.IsVarKey.spares {k : Key} (hk : k.IsVarKey) {K : VarKey} (hne : k ≠ K.key) :
    k.Spares K.key := by
  have hsame := hk.not_same hne
  obtain ⟨K', rfl⟩ := hk
  exact K'.clean.spares K.clean hsame

/-- The key of a request whose name has no NUL units. -/
def SetRequest.varKey (req : SetRequest) (h : NulFree req.name) : VarKey :=
  ⟨req.name, req.guid, h, req.name_fits⟩

theorem Writes.tidy {s s' : Storage} (h : Writes Key.IsVarKey s s') (hs : s.Tidy) : s'.Tidy := by
  refine h.invariant ?_ hs
  rintro _ s₁ s₂ ⟨K, rfl⟩ hw hs₁
  exact hw.tidy hs₁

theorem Step.tidy {P X : Type} {m m' : Machine} {r : Request P X} (h : Step m r m')
    (hname : NulFree r.set.name) (hm : m.storage.Tidy) : m'.storage.Tidy := by
  obtain ⟨status, h⟩ := h
  refine ((handleSetVariable_writes h).mono ?_).tidy hm
  rintro k (⟨rfl, _⟩ | hk)
  · exact ⟨r.set.varKey hname, rfl⟩
  · exact modeKeys_isVarKey k hk

end Uefistored
