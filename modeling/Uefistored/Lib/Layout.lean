/-
# `Uefistored.Lib.Layout` — bytes that stand somewhere in an object

`b.Holds pos bs`: from offset `pos` on the object holds the bytes `bs`.  It is
what a reader of a packed format assumes of the memory in front of it, and it
splits along `++` (`holds_append`), so the layout of a record is taken apart
field by field: a field of fixed width by `Holds.num_eq`, an array of bytes by
the definition.  What is built up from the front is put together the same way: a
write behind the bytes that stand there adds to them (`Holds.write`).
-/
import Uefistored.Lib.Bytes

namespace Uefistored.Lib.Buffer

/-- The object holds `bs` from offset `pos` on. -/
def Holds (b : Buffer) (pos : Nat) (bs : List UInt8) : Prop := b.slice pos bs.length = some bs

theorem holds_iff {b : Buffer} {pos : Nat} {bs : List UInt8} :
    b.Holds pos bs ↔ pos + bs.length ≤ b.size ∧
      ∀ i < bs.length, bs.getD i 0 = b.bytes.getD (pos + i) 0 := by
  constructor
  · intro h
    refine ⟨slice_le h, fun i hi => slice_getD h hi⟩
  · rintro ⟨hin, h⟩
    obtain ⟨l, hl⟩ := slice_isSome hin
    have hlen := length_slice hl
    refine hl.trans (congrArg some (List.ext_getElem hlen ?_))
    intro i hi hi'
    rw [← List.getD_eq_getElem _ 0 hi, ← List.getD_eq_getElem _ 0 hi', slice_getD hl hi', h i hi']

theorem holds_append {b : Buffer} {pos : Nat} {l r : List UInt8} :
    b.Holds pos (l ++ r) ↔ b.Holds pos l ∧ b.Holds (pos + l.length) r := by
  rw [holds_iff, holds_iff, holds_iff, List.length_append]
  constructor
  · rintro ⟨hin, h⟩
    refine ⟨⟨by omega, ?_⟩, by omega, ?_⟩
    · intro i hi
      rw [← h i (by omega), List.getD_append _ _ _ _ hi]
    · intro i hi
      rw [Nat.add_assoc, ← h (l.length + i) (by omega),
        List.getD_append_right _ _ _ _ (Nat.le_add_right ..), Nat.add_sub_cancel_left]
  · rintro ⟨⟨_, hl⟩, hin, hr⟩
    refine ⟨by omega, ?_⟩
    intro i hi
    rcases Nat.lt_or_ge i l.length with hlt | hge
    · rw [List.getD_append _ _ _ _ hlt, hl i hlt]
    · rw [List.getD_append_right _ _ _ _ hge, hr (i - l.length) (by omega),
        show pos + l.length + (i - l.length) = pos + i by omega]

theorem holds_ofList (l : List UInt8) : (ofList l).Holds 0 l := by
  show (ofList l).slice 0 l.length = some l
  rw [slice_of_le (show 0 + l.length ≤ (ofList l).bytes.length from (Nat.zero_add _).le)]
  exact congrArg some (List.take_length ..)

/-- A number of `k` bytes that stands there is read. -/
theorem Holds.num_eq {b : Buffer} {pos k v : Nat} (h : b.Holds pos (leBytes k v))
    (hv : v < 256 ^ k) : b.num pos k = some v := by
  have hslice : b.slice pos k = some (leBytes k v) := by
    have h' : b.slice pos (leBytes k v).length = some (leBytes k v) := h
    rwa [length_leBytes] at h'
  show (b.slice pos k).map leNat = some v
  rw [hslice]
  exact congrArg some (leNat_leBytes_of_lt hv)

theorem Holds.slice_eq {b : Buffer} {pos n : Nat} {bs : List UInt8} (h : b.Holds pos bs)
    (hn : bs.length = n) : b.slice pos n = some bs := hn ▸ h

theorem Holds.upTo_eq {b : Buffer} {pos n : Nat} {bs : List UInt8} (h : b.Holds pos bs)
    (hn : bs.length = n) : b.upTo pos n = bs := by
  have hin : pos + bs.length ≤ b.size := slice_le h
  unfold upTo
  rw [min_eq_left (by omega), h.slice_eq hn, Option.getD_some]

theorem Holds.nil (b : Buffer) : b.Holds 0 [] := by
  have hin : 0 + 0 ≤ b.size := Nat.zero_le _
  obtain ⟨l, hl⟩ := slice_isSome hin
  show b.slice 0 0 = some []
  rw [hl, List.eq_nil_of_length_eq_zero (length_slice hl)]

/-- Of two lists that stand there, the shorter one is the front of the other. -/
theorem Holds.front {b : Buffer} {pos : Nat} {l r : List UInt8} (hl : b.Holds pos l)
    (hr : b.Holds pos r) (hle : l.length ≤ r.length) : ∃ rest, r = l ++ rest := by
  have hlen : (r.take l.length).length = l.length := List.length_take_of_le hle
  rw [← List.take_append_drop l.length r] at hr
  have hfront := (holds_append.mp hr).1.slice_eq hlen
  refine ⟨r.drop l.length, ?_⟩
  rw [Option.some.inj ((Eq.symm hl).trans hfront), List.length_take_of_le hle,
    List.take_append_drop]

/-- A write behind what stands there. -/
theorem Holds.write {b b' : Buffer} {l src : List UInt8} (h : b.Holds 0 l)
    (hw : b.write l.length src = some b') : b'.Holds 0 (l ++ src) := by
  refine holds_append.mpr ⟨?_, ?_⟩
  · exact (agreeBelow_write hw 0 l.length (Nat.zero_add _).le).trans h
  · rw [Nat.zero_add]
    exact slice_write hw

end Uefistored.Lib.Buffer
