/-
# `Uefistored.Name` — UTF-16 names

`src/common.c` and the variable names of the headers.

A name is handed around as a pointer to a `UTF16` array and a size in *bytes*.
Every such array has room for 256 bytes (`request->name`, `var->name`, or a
wide literal, which is shorter and ends in a NUL), so the model's pointer is a
`NameArray`, the byte view of the array, and the size stays a separate number:
the source compares `namesz` bytes here and reads up to the first NUL unit
there, and whether the two agree is what several results are about.

`strlen16` reads past a 256-byte array that holds no NUL.  What follows
`request->name` is padding of a zero-initialised struct, so the scan stops at
the end of the array.
-/
import Uefistored.Types

namespace Uefistored

open Lib

/-- `UTF16 name[MAX_VARIABLE_NAME_CHARS]`, byte by byte. -/
abbrev NameArray := Block MAX_VARIABLE_NAME_SIZE

/-- A wide literal `L"..."` without its terminator, two bytes a character. -/
def wide (cs : List Char) : List UInt8 := cs.flatMap (fun c => [UInt8.ofNat c.toNat, 0])

/-- The array a name of at most 256 bytes is passed as: zeros behind the name. -/
def nameArray (l : List UInt8) : NameArray := Block.ofList MAX_VARIABLE_NAME_SIZE l

/-- `name[i]`, the UTF-16 unit at index `i`. -/
def unitAt (l : List UInt8) (i : Nat) : Nat :=
  (l.getD (2 * i) 0).toNat + 256 * (l.getD (2 * i + 1) 0).toNat

/-! ## `common.c` -/

/-- `strlen16`: the units before the first NUL unit. -/
def strlen16 : List UInt8 → Nat
  | lo :: hi :: rest => if lo = 0 ∧ hi = 0 then 0 else strlen16 rest + 1
  | _ => 0

/-- `strsize16`. -/
def strsize16 (l : List UInt8) : Nat := strlen16 l * 2

/-- `strcmp16(a, b) == 0`. -/
def strcmp16 (a b : NameArray) : Bool :=
  strsize16 a.bytes == strsize16 b.bytes &&
    a.bytes.take (strsize16 a.bytes) == b.bytes.take (strsize16 a.bytes)

/-! ## The names the source uses -/

def EFI_PLATFORM_KEY_NAME : List UInt8 := wide ['P', 'K']
def EFI_KEY_EXCHANGE_KEY_NAME : List UInt8 := wide ['K', 'E', 'K']
def EFI_IMAGE_SECURITY_DATABASE : List UInt8 := wide ['d', 'b']
def EFI_IMAGE_SECURITY_DATABASE1 : List UInt8 := wide ['d', 'b', 'x']
def EFI_IMAGE_SECURITY_DATABASE2 : List UInt8 := wide ['d', 'b', 't']
def EFI_SECURE_BOOT_MODE_NAME : List UInt8 :=
  wide ['S', 'e', 'c', 'u', 'r', 'e', 'B', 'o', 'o', 't']
def EFI_SETUP_MODE_NAME : List UInt8 := wide ['S', 'e', 't', 'u', 'p', 'M', 'o', 'd', 'e']
def EFI_AUDIT_MODE_NAME : List UInt8 := wide ['A', 'u', 'd', 'i', 't', 'M', 'o', 'd', 'e']
def EFI_DEPLOYED_MODE_NAME : List UInt8 :=
  wide ['D', 'e', 'p', 'l', 'o', 'y', 'e', 'd', 'M', 'o', 'd', 'e']
def EFI_SIGNATURE_SUPPORT_NAME : List UInt8 :=
  wide ['S', 'i', 'g', 'n', 'a', 't', 'u', 'r', 'e', 'S', 'u', 'p', 'p', 'o', 'r', 't']

/-! ## Names without NUL units -/

/-- A non-empty UTF-16 string without NUL units, the form in which the
XenVariable client sends a name. -/
def NulFree (l : List UInt8) : Prop :=
  l ≠ [] ∧ l.length % 2 = 0 ∧ ∀ i < l.length / 2, unitAt l i ≠ 0

instance (l : List UInt8) : Decidable (NulFree l) :=
  inferInstanceAs (Decidable (_ ∧ _ ∧ ∀ i < l.length / 2, unitAt l i ≠ 0))

theorem NulFree.two_le {l : List UInt8} (h : NulFree l) : 2 ≤ l.length := by
  have h0 : 0 < l.length := List.length_pos_of_ne_nil h.1
  have h1 := h.2.1
  omega

@[simp] theorem unitAt_cons_cons_succ (lo hi : UInt8) (l : List UInt8) (i : Nat) :
    unitAt (lo :: hi :: l) (i + 1) = unitAt l i := by
  have h1 : 2 * (i + 1) = 2 * i + 1 + 1 := by omega
  simp only [unitAt, h1, List.getD_cons_succ]

theorem unitAt_cons_cons_zero {lo hi : UInt8} {l : List UInt8} :
    unitAt (lo :: hi :: l) 0 = 0 ↔ lo = 0 ∧ hi = 0 := by
  have hlo : lo = 0 ↔ lo.toNat = 0 := by rw [← UInt8.toNat_inj]; rfl
  have hhi : hi = 0 ↔ hi.toNat = 0 := by rw [← UInt8.toNat_inj]; rfl
  rw [hlo, hhi]
  simp only [unitAt, Nat.mul_zero, List.getD_cons_zero, Nat.zero_add, List.getD_cons_succ]
  omega

/-- A name of one unit, `256 + n`: for stores with many variables. -/
def unitName (n : Nat) : List UInt8 := [UInt8.ofNat n, 1]

theorem unitName_nulFree (n : Nat) : NulFree (unitName n) := by
  have hlen : (unitName n).length = 2 := rfl
  refine ⟨List.cons_ne_nil _ _, by rw [hlen], ?_⟩
  intro i hi
  obtain rfl : i = 0 := by omega
  intro h0
  exact absurd (unitAt_cons_cons_zero.mp h0).2 (by decide)

theorem unitName_inj {m n : Nat} (hm : m < 256) (hn : n < 256) (h : unitName m = unitName n) :
    m = n := by
  have hbyte : (UInt8.ofNat m).toNat = (UInt8.ofNat n).toNat :=
    congrArg UInt8.toNat (List.cons.inj h).1
  rw [UInt8.toNat_ofNat', UInt8.toNat_ofNat'] at hbyte
  omega

/-- A unit inside a prefix does not see what follows the prefix. -/
theorem unitAt_append {l l' : List UInt8} {i : Nat} (h : 2 * i + 1 < l.length) :
    unitAt (l ++ l') i = unitAt l i := by
  have h1 : 2 * i < l.length := by omega
  simp only [unitAt, List.getD_eq_getElem?_getD, List.getElem?_append_left h1,
    List.getElem?_append_left h]

theorem unitAt_take {l : List UInt8} {n i : Nat} (h : 2 * i + 1 < n) :
    unitAt (l.take n) i = unitAt l i := by
  have h1 : 2 * i < n := by omega
  simp only [unitAt, List.getD_eq_getElem?_getD, List.getElem?_take_of_lt h1,
    List.getElem?_take_of_lt h]

/-- The whole of what `strlen16` computes: the units before it are not NUL, it
stays inside the list, and if it stops early it stops at a NUL. -/
theorem strlen16_spec : ∀ (l : List UInt8), l.length % 2 = 0 →
    2 * strlen16 l ≤ l.length ∧ (∀ i < strlen16 l, unitAt l i ≠ 0) ∧
      (2 * strlen16 l < l.length → unitAt l (strlen16 l) = 0)
  | [], _ => by simp [strlen16]
  | [_], h => by simp at h
  | lo :: hi :: rest, h => by
      have hrest : rest.length % 2 = 0 := by simp only [List.length_cons] at h; omega
      obtain ⟨h1, h2, h3⟩ := strlen16_spec rest hrest
      by_cases hz : lo = 0 ∧ hi = 0
      · refine ⟨by simp [strlen16, hz], by simp [strlen16, hz], fun _ => ?_⟩
        simp only [strlen16, hz, and_self, if_true]
        exact unitAt_cons_cons_zero.mpr ⟨rfl, rfl⟩
      · simp only [strlen16, if_neg hz, List.length_cons]
        refine ⟨by omega, ?_, fun hlt => ?_⟩
        · intro i hi'
          cases i with
          | zero => exact fun h0 => hz (unitAt_cons_cons_zero.mp h0)
          | succ i => simpa using h2 i (by omega)
        · simpa using h3 (by omega)

/-- `strlen16` is the one number with the three properties of its spec. -/
theorem strlen16_eq {l : List UInt8} (hl : l.length % 2 = 0) {n : Nat} (h1 : 2 * n ≤ l.length)
    (h2 : ∀ i < n, unitAt l i ≠ 0) (h3 : 2 * n < l.length → unitAt l n = 0) :
    strlen16 l = n := by
  obtain ⟨s1, s2, s3⟩ := strlen16_spec l hl
  rcases Nat.lt_trichotomy (strlen16 l) n with hlt | heq | hgt
  · exact absurd (s3 (by omega)) (h2 _ hlt)
  · exact heq
  · exact absurd (h3 (by omega)) (s2 _ hgt)

theorem unitAt_replicate_zero (n i : Nat) : unitAt (List.replicate n 0) i = 0 := by
  have h : ∀ j, (List.replicate n (0 : UInt8)).getD j 0 = 0 := by
    intro j
    by_cases hj : j < n
    · simp [List.getD_eq_getElem?_getD, hj]
    · simp [List.getD_eq_getElem?_getD, hj]
  simp only [unitAt, h]
  rfl

theorem unitAt_append_right {l l' : List UInt8} {i : Nat} (heven : l.length % 2 = 0)
    (h : l.length ≤ 2 * i) : unitAt (l ++ l') i = unitAt l' (i - l.length / 2) := by
  have h1 : 2 * i - l.length = 2 * (i - l.length / 2) := by omega
  have h2 : 2 * i + 1 - l.length = 2 * (i - l.length / 2) + 1 := by omega
  simp only [unitAt, List.getD_eq_getElem?_getD, List.getElem?_append_right h,
    List.getElem?_append_right (show l.length ≤ 2 * i + 1 by omega), h1, h2]

/-- In the array of a name without NUL units, the scan stops at its end. -/
theorem strsize16_nameArray {l : List UInt8} (h : NulFree l)
    (hl : l.length ≤ MAX_VARIABLE_NAME_SIZE) : strsize16 (nameArray l).bytes = l.length := by
  obtain ⟨_, heven, hunits⟩ := h
  have hb : (nameArray l).bytes = l ++ List.replicate (MAX_VARIABLE_NAME_SIZE - l.length) 0 :=
    Block.ofList_bytes hl
  have hlen : (nameArray l).bytes.length = MAX_VARIABLE_NAME_SIZE := (nameArray l).length_eq
  have hs : strlen16 (nameArray l).bytes = l.length / 2 := by
    apply strlen16_eq
    · rw [hlen]; rfl
    · rw [hlen]; omega
    · intro i hi
      rw [hb, unitAt_append (by omega)]
      exact hunits i hi
    · intro _
      rw [hb, unitAt_append_right heven (by omega)]
      exact unitAt_replicate_zero _ _
  unfold strsize16
  omega

theorem unitAt_nameArray {l : List UInt8} (hl : l.length ≤ MAX_VARIABLE_NAME_SIZE) {i : Nat}
    (h : 2 * i + 1 < l.length) : unitAt (nameArray l).bytes i = unitAt l i := by
  have hb : (nameArray l).bytes = l ++ List.replicate (MAX_VARIABLE_NAME_SIZE - l.length) 0 :=
    Block.ofList_bytes hl
  rw [hb, unitAt_append h]

theorem nameArray_take {l : List UInt8} (hl : l.length ≤ MAX_VARIABLE_NAME_SIZE) :
    (nameArray l).bytes.take l.length = l :=
  Block.ofList_take hl

/-- Against a name without NUL units, `strcmp16` together with equal sizes is
equality of the bytes. -/
theorem eq_of_strcmp16 {l w : List UInt8} (hl : l.length = w.length) (hw : NulFree w)
    (hwl : w.length ≤ MAX_VARIABLE_NAME_SIZE)
    (h : strcmp16 (nameArray l) (nameArray w) = true) : l = w := by
  simp only [strcmp16, Bool.and_eq_true, beq_iff_eq] at h
  obtain ⟨hs, ht⟩ := h
  rw [hs, strsize16_nameArray hw hwl, nameArray_take hwl, ← hl, nameArray_take (hl ▸ hwl)] at ht
  exact ht

/-- Between names without NUL units, `strcmp16` alone is equality of the bytes. -/
theorem strcmp16_iff {l w : List UInt8} (hl : NulFree l)
    (hll : l.length ≤ MAX_VARIABLE_NAME_SIZE) (hw : NulFree w)
    (hwl : w.length ≤ MAX_VARIABLE_NAME_SIZE) :
    strcmp16 (nameArray l) (nameArray w) = true ↔ l = w := by
  constructor
  · intro h
    refine eq_of_strcmp16 ?_ hw hwl h
    simp only [strcmp16, Bool.and_eq_true, beq_iff_eq] at h
    rw [← strsize16_nameArray hl hll, h.1, strsize16_nameArray hw hwl]
  · rintro rfl
    simp [strcmp16]

end Uefistored
