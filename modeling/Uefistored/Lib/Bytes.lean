/-
# `Uefistored.Lib.Bytes` — little-endian numbers, fixed arrays and objects in memory

Three pieces every C program that parses bytes needs.

* `leBytes k v` / `leNat l`: a number as `k` little-endian bytes, and back.
* `Block n`: a C array `uint8_t a[n]`.  Its length is a field, so a short or a
  long array cannot be built, and `Block.overwrite` (`memcpy` of a prefix)
  keeps it by construction.
* `Buffer`: an object of `size` bytes in memory of which only the first
  `bytes.length` are known, the rest being zero.  A read is an `Option`:
  `none` is an access outside the object, where C gives no meaning.
-/
import Mathlib.Data.List.Basic
import Mathlib.Data.List.GetD
import Mathlib.Tactic.Ring

namespace Uefistored.Lib

/-! ## Little-endian numbers -/

/-- The `k` low bytes of `v`, lowest first. -/
def leBytes : Nat → Nat → List UInt8
  | 0, _ => []
  | k + 1, v => UInt8.ofNat (v % 256) :: leBytes k (v / 256)

/-- The number a list of bytes stands for, lowest first. -/
def leNat : List UInt8 → Nat
  | [] => 0
  | b :: l => b.toNat + 256 * leNat l

@[simp] theorem length_leBytes : ∀ (k v : Nat), (leBytes k v).length = k
  | 0, _ => rfl
  | k + 1, v => by simp [leBytes, length_leBytes k (v / 256)]

theorem leNat_leBytes : ∀ (k v : Nat), leNat (leBytes k v) = v % 256 ^ k
  | 0, v => by simp [leBytes, leNat, Nat.mod_one]
  | k + 1, v => by
      have ih := leNat_leBytes k (v / 256)
      have hb : (UInt8.ofNat (v % 256)).toNat = v % 256 := by simp
      simp only [leBytes, leNat, ih, hb]
      rw [Nat.pow_succ, Nat.mul_comm (256 ^ k) 256, Nat.mod_mul]

/-- A number that fits its width is read back unchanged. -/
theorem leNat_leBytes_of_lt {k v : Nat} (h : v < 256 ^ k) : leNat (leBytes k v) = v := by
  rw [leNat_leBytes, Nat.mod_eq_of_lt h]

theorem leNat_replicate_zero : ∀ n : Nat, leNat (List.replicate n 0) = 0
  | 0 => rfl
  | n + 1 => by
      rw [List.replicate_succ, leNat, leNat_replicate_zero n]
      rfl

theorem leNat_lt : ∀ (l : List UInt8), leNat l < 256 ^ l.length
  | [] => by simp [leNat]
  | b :: l => by
      have ih := leNat_lt l
      have hb := b.toNat_lt
      have hp : 256 ^ (b :: l).length = 256 * 256 ^ l.length := by
        rw [List.length_cons, Nat.pow_succ, Nat.mul_comm]
      rw [hp]
      simp only [leNat]
      omega

/-- Each byte counts with its place. -/
theorem getD_mul_le_leNat : ∀ (l : List UInt8) (i : Nat), (l.getD i 0).toNat * 256 ^ i ≤ leNat l
  | [], i => by simp
  | b :: l, 0 => by simp [leNat]
  | b :: l, i + 1 => by
      have ih := getD_mul_le_leNat l i
      rw [List.getD_cons_succ, Nat.pow_succ', Nat.mul_left_comm, leNat]
      omega

/-- The encoding is canonical: the bytes are the ones the number is written as. -/
theorem leBytes_leNat : ∀ (l : List UInt8), leBytes l.length (leNat l) = l
  | [] => rfl
  | b :: l => by
      have hb := b.toNat_lt
      have h1 : (b.toNat + 256 * leNat l) % 256 = b.toNat := by omega
      have h2 : (b.toNat + 256 * leNat l) / 256 = leNat l := by omega
      simp only [List.length_cons, leBytes, leNat, h1, h2, leBytes_leNat l,
        UInt8.ofNat_toNat]

/-! ## Unsigned arithmetic on 32 and 64 bits

Irreducible, so that unification does not start to count to `2 ^ 64`. -/

/-- `a - b` on `uint32_t`. -/
@[irreducible] def sub32 (a b : Nat) : Nat := (a + 2 ^ 32 - b % 2 ^ 32) % 2 ^ 32

/-- `a - b` on `uint64_t`. -/
@[irreducible] def sub64 (a b : Nat) : Nat := (a + 2 ^ 64 - b % 2 ^ 64) % 2 ^ 64

/-- `a + b` on `uint64_t`. -/
@[irreducible] def add64 (a b : Nat) : Nat := (a + b) % 2 ^ 64

theorem add64_lt (a b : Nat) : add64 a b < 2 ^ 64 := by
  unfold add64
  exact Nat.mod_lt _ (by decide)

theorem add64_of_lt {a b : Nat} (h : a + b < 2 ^ 64) : add64 a b = a + b := by
  unfold add64
  exact Nat.mod_eq_of_lt h

theorem sub32_of_le {a b : Nat} (h : b ≤ a) (ha : a < 2 ^ 32) : sub32 a b = a - b := by
  unfold sub32
  omega

theorem sub64_of_le {a b : Nat} (h : b ≤ a) (ha : a < 2 ^ 64) : sub64 a b = a - b := by
  unfold sub64
  omega

/-- A negative difference wraps around. -/
theorem sub64_of_lt {a b : Nat} (h : a < b) (hb : b < 2 ^ 64) : sub64 a b = 2 ^ 64 - (b - a) := by
  unfold sub64
  omega

theorem sub64_sub64 (a b c : Nat) : sub64 (sub64 a b) c = sub64 a (b + c) := by
  unfold sub64
  omega

theorem sub64_eq_zero_iff {a b : Nat} (ha : a < 2 ^ 64) (hb : b < 2 ^ 64) :
    sub64 a b = 0 ↔ a = b := by
  unfold sub64
  omega

/-! ## Fixed arrays -/

/-- A C array `uint8_t a[n]`. -/
@[ext] structure Block (n : Nat) where
  bytes : List UInt8
  length_eq : bytes.length = n
  deriving DecidableEq

namespace Block

variable {n : Nat}

attribute [simp] Block.length_eq

/-- `memset(a, 0, n)`. -/
def zero (n : Nat) : Block n := ⟨List.replicate n 0, List.length_replicate ..⟩

/-- The first `n` bytes of a list, short lists being filled up with zeros. -/
def ofList (n : Nat) (l : List UInt8) : Block n :=
  ⟨l.take n ++ List.replicate (n - l.length) 0, by
    simp only [List.length_append, List.length_take, List.length_replicate]
    omega⟩

/-- `memcpy(a, src, k)` for `k ≤ n`: the first `k` bytes are replaced, the
others stay. -/
def overwrite (a : Block n) (src : List UInt8) (k : Nat) : Block n :=
  ⟨(src.take k).take n ++ a.bytes.drop ((src.take k).take n).length, by
    simp only [List.length_append, List.length_drop, a.length_eq, List.length_take]
    omega⟩

instance : Inhabited (Block n) := ⟨zero n⟩

theorem eq_of_bytes_eq {a b : Block n} (h : a.bytes = b.bytes) : a = b := Block.ext h

theorem ofList_take {l : List UInt8} (h : l.length ≤ n) :
    (ofList n l).bytes.take l.length = l := by
  simp [ofList, List.take_of_length_le h]

theorem ofList_bytes {l : List UInt8} (h : l.length ≤ n) :
    (ofList n l).bytes = l ++ List.replicate (n - l.length) 0 := by
  simp [ofList, List.take_of_length_le h]

theorem ofList_bytes_of_length {l : List UInt8} (h : l.length = n) : (ofList n l).bytes = l := by
  rw [ofList_bytes h.le, h, Nat.sub_self, List.replicate_zero, List.append_nil]

@[simp] theorem ofList_bytes_self (a : Block n) : ofList n a.bytes = a := by
  apply eq_of_bytes_eq
  rw [ofList_bytes (le_of_eq a.length_eq)]
  simp

/-- The prefix that was written reads back. -/
theorem overwrite_take (a b : Block n) {k : Nat} (h : k ≤ n) :
    (a.overwrite b.bytes k).bytes.take k = b.bytes.take k := by
  have hlen : (b.bytes.take k).length = k := by
    rw [List.length_take, b.length_eq, Nat.min_eq_left h]
  have htk : (b.bytes.take k).take n = b.bytes.take k :=
    List.take_of_length_le (by rw [hlen]; exact h)
  simp only [overwrite, htk, hlen]
  rw [List.take_append_of_le_length (by rw [hlen])]
  exact List.take_of_length_le (by rw [hlen])

/-- Writing a prefix that is already there changes nothing. -/
theorem overwrite_eq_self {a b : Block n} {k : Nat} (h : k ≤ n)
    (hk : a.bytes.take k = b.bytes.take k) : a.overwrite b.bytes k = a := by
  have hlen : (b.bytes.take k).length = k := by
    rw [List.length_take, b.length_eq, Nat.min_eq_left h]
  have htk : (b.bytes.take k).take n = b.bytes.take k :=
    List.take_of_length_le (by rw [hlen]; exact h)
  apply eq_of_bytes_eq
  simp only [overwrite, htk, hlen]
  rw [← hk, List.take_append_drop]

end Block

/-! ## Objects in memory -/

/-- An object of `size` bytes.  Past `bytes` it holds zeros. -/
structure Buffer where
  bytes : List UInt8
  size : Nat
  fits : bytes.length ≤ size
  deriving DecidableEq

namespace Buffer

/-- An object that holds exactly a list of bytes. -/
def ofList (l : List UInt8) : Buffer := ⟨l, l.length, le_refl _⟩

/-- The `n` bytes at offset `off`; `none` when they are not inside the object.
Irreducible, as the comparison with a large `size` is nothing to unfold by accident. -/
@[irreducible] def slice (b : Buffer) (off n : Nat) : Option (List UInt8) :=
  if off + n ≤ b.size then
    some ((b.bytes.drop off).take n ++
      List.replicate (n - (b.bytes.drop off).length) 0)
  else none

/-- The little-endian number in the `n` bytes at offset `off`. -/
def num (b : Buffer) (off n : Nat) : Option Nat := (b.slice off n).map leNat

/-- `memcpy(b + off, src, |src|)`, staying inside the object. -/
def write (b : Buffer) (off : Nat) (src : List UInt8) : Option Buffer :=
  if h : off + src.length ≤ b.size then
    let front := (b.bytes.take off) ++ List.replicate (off - b.bytes.length) 0
    some ⟨front ++ src ++ b.bytes.drop (off + src.length), b.size, by
      have hf := b.fits
      simp only [front, List.length_append, List.length_take, List.length_replicate,
        List.length_drop]
      omega⟩
  else none

/-- The bytes from offset `off` to the end of the object, at most `n`. -/
def upTo (b : Buffer) (off n : Nat) : List UInt8 :=
  (b.slice off (min n (b.size - off))).getD []

theorem write_isSome {b : Buffer} {off : Nat} {src : List UInt8}
    (h : off + src.length ≤ b.size) : ∃ b', b.write off src = some b' := by
  unfold write
  rw [dif_pos h]
  exact ⟨_, rfl⟩

theorem length_slice {b : Buffer} {off n : Nat} {l : List UInt8}
    (h : b.slice off n = some l) : l.length = n := by
  unfold slice at h
  split at h
  · cases h
    simp only [List.length_append, List.length_take, List.length_replicate]
    omega
  · cases h

theorem slice_le {b : Buffer} {off n : Nat} {l : List UInt8} (h : b.slice off n = some l) :
    off + n ≤ b.size := by
  unfold slice at h
  split at h
  · assumption
  · cases h

theorem slice_isSome {b : Buffer} {off n : Nat} (h : off + n ≤ b.size) :
    ∃ l, b.slice off n = some l := by
  unfold slice
  rw [if_pos h]
  exact ⟨_, rfl⟩

/-- The bytes of the object are `n` bytes, a number of 64 bits. -/
def IsWhole (b : Buffer) (n : Nat) : Prop := b.bytes.length = n ∧ n < 2 ^ 64

/-- The two objects hold the same below offset `n`. -/
def AgreeBelow (n : Nat) (b b' : Buffer) : Prop :=
  ∀ off len, off + len ≤ n → b'.slice off len = b.slice off len

theorem AgreeBelow.refl (n : Nat) (b : Buffer) : AgreeBelow n b b := fun _ _ _ => rfl

/-- The bytes of a slice: those of the object, and zeros behind them. -/
theorem slice_getD {b : Buffer} {off n : Nat} {l : List UInt8} (h : b.slice off n = some l)
    {i : Nat} (hi : i < n) : l.getD i 0 = b.bytes.getD (off + i) 0 := by
  unfold slice at h
  split at h
  · cases h
    simp only [List.getD_eq_getElem?_getD, List.getElem?_append, List.length_take,
      List.length_drop, List.getElem?_take, List.getElem?_drop, List.getElem?_replicate]
    split
    · rfl
    · have hnone : b.bytes[off + i]? = none := List.getElem?_eq_none (by omega)
      rw [hnone]
      split <;> rfl
  · cases h

/-- A read is determined by the bytes it reads. -/
theorem slice_congr {b b' : Buffer} {off n : Nat} (hsize : b'.size = b.size)
    (h : ∀ i < n, b'.bytes.getD (off + i) 0 = b.bytes.getD (off + i) 0) :
    b'.slice off n = b.slice off n := by
  by_cases hin : off + n ≤ b.size
  · obtain ⟨l, hl⟩ := slice_isSome hin
    obtain ⟨l', hl'⟩ := slice_isSome (b := b') (hsize.symm ▸ hin)
    rw [hl, hl']
    refine congrArg some (List.ext_getElem ((length_slice hl').trans (length_slice hl).symm) ?_)
    intro i hi' hi
    have hn : i < n := length_slice hl ▸ hi
    rw [← List.getD_eq_getElem _ 0 hi', ← List.getD_eq_getElem _ 0 hi, slice_getD hl' hn,
      slice_getD hl hn]
    exact h i hn
  · unfold slice
    rw [if_neg hin, if_neg (hsize.symm ▸ hin)]

/-- A write leaves everything in front of it. -/
theorem agreeBelow_write {b b' : Buffer} {off : Nat} {src : List UInt8}
    (h : b.write off src = some b') : AgreeBelow off b b' := by
  intro o len hlen
  unfold write at h
  split at h
  · cases h
    refine slice_congr rfl ?_
    intro i hi
    have hfront : (b.bytes.take off ++ List.replicate (off - b.bytes.length) 0).length = off := by
      rw [List.length_append, List.length_take, List.length_replicate]
      omega
    dsimp only
    rw [List.append_assoc, List.getD_append _ _ _ _ (by omega)]
    rcases Nat.lt_or_ge (o + i) b.bytes.length with hlt | hge
    · have htake : o + i < (b.bytes.take off).length := by
        rw [List.length_take]
        omega
      rw [List.getD_append _ _ _ _ htake, List.getD_eq_getElem _ _ htake,
        List.getD_eq_getElem _ _ hlt, List.getElem_take]
    · -- behind its bytes the object was zero, and is filled up with zeros
      have htake : (b.bytes.take off).length ≤ o + i := by
        rw [List.length_take]
        omega
      rw [List.getD_append_right _ _ _ _ htake, List.getD_eq_default _ _ hge,
        List.getD_replicate _ (by rw [List.length_take]; omega)]
  · cases h

theorem length_upTo (b : Buffer) (off n : Nat) : (b.upTo off n).length = min n (b.size - off) := by
  unfold upTo
  cases h : b.slice off (min n (b.size - off)) with
  | none =>
      have hpast : ¬ off + min n (b.size - off) ≤ b.size := by
        intro hin
        obtain ⟨l, hl⟩ := slice_isSome hin
        cases h.symm.trans hl
      rw [Option.getD_none, List.length_nil]
      omega
  | some l => exact length_slice h

theorem upTo_getD {b : Buffer} {off n i : Nat} (hi : i < (b.upTo off n).length) :
    (b.upTo off n).getD i 0 = b.bytes.getD (off + i) 0 := by
  unfold upTo at hi ⊢
  cases h : b.slice off (min n (b.size - off)) with
  | none =>
      rw [h] at hi
      exact absurd hi (Nat.not_lt_zero i)
  | some l =>
      rw [h] at hi
      exact slice_getD h (length_slice h ▸ hi)

/-- Behind its bytes the object is zero. -/
theorem slice_past {b : Buffer} {off n : Nat} {l : List UInt8} (h : b.slice off n = some l)
    (hpast : b.bytes.length ≤ off) : l = List.replicate n 0 := by
  unfold slice at h
  split at h
  · cases h
    rw [List.drop_eq_nil_of_le hpast, List.take_nil, List.nil_append, List.length_nil,
      Nat.sub_zero]
  · cases h

theorem num_past {b : Buffer} {off n v : Nat} (h : b.num off n = some v)
    (hpast : b.bytes.length ≤ off) : v = 0 := by
  obtain ⟨l, hl, rfl⟩ := Option.map_eq_some_iff.mp h
  rw [slice_past hl hpast, leNat_replicate_zero]

/-- A write inside the bytes of the object does not change how many there are. -/
theorem length_write {b b' : Buffer} {off : Nat} {src : List UInt8}
    (h : b.write off src = some b') (hin : off + src.length ≤ b.bytes.length) :
    b'.bytes.length = b.bytes.length := by
  unfold write at h
  split at h
  · cases h
    simp only [List.length_append, List.length_take, List.length_replicate, List.length_drop]
    omega
  · cases h

/-- Inside its bytes the object is those bytes. -/
theorem slice_of_le {b : Buffer} {off n : Nat} (h : off + n ≤ b.bytes.length) :
    b.slice off n = some ((b.bytes.drop off).take n) := by
  have hlen : n - (b.bytes.drop off).length = 0 := by
    rw [List.length_drop]
    omega
  unfold slice
  rw [if_pos (h.trans b.fits), hlen, List.replicate_zero, List.append_nil]

theorem slice_isSome_iff {b : Buffer} {off n : Nat} :
    (b.slice off n).isSome ↔ off + n ≤ b.size := by
  constructor
  · intro h
    obtain ⟨l, hl⟩ := Option.isSome_iff_exists.mp h
    exact slice_le hl
  · intro h
    exact Option.isSome_iff_exists.mpr (slice_isSome h)

theorem slice_eq_none_iff {b : Buffer} {off n : Nat} :
    b.slice off n = none ↔ b.size < off + n := by
  rw [← Option.not_isSome_iff_eq_none, slice_isSome_iff, not_le]

theorem num_eq_none_iff {b : Buffer} {off n : Nat} : b.num off n = none ↔ b.size < off + n := by
  rw [num, Option.map_eq_none_iff, slice_eq_none_iff]

theorem num_isSome {b : Buffer} {off n : Nat} (h : off + n ≤ b.size) :
    ∃ v, b.num off n = some v := by
  obtain ⟨l, hl⟩ := slice_isSome h
  exact ⟨leNat l, congrArg (Option.map leNat) hl⟩

theorem num_le {b : Buffer} {off n v : Nat} (h : b.num off n = some v) : off + n ≤ b.size := by
  obtain ⟨l, hl, _⟩ := Option.map_eq_some_iff.mp h
  exact slice_le hl

/-- A part of an object can be read as an object of its own. -/
theorem slice_part {b : Buffer} {pos n off len : Nat} (hin : pos + n ≤ b.bytes.length)
    (h : off + len ≤ n) :
    (ofList ((b.bytes.drop pos).take n)).slice off len = b.slice (pos + off) len := by
  have hlen : ((b.bytes.drop pos).take n).length = n := by
    rw [List.length_take, List.length_drop]
    omega
  have hle : off + len ≤ (ofList ((b.bytes.drop pos).take n)).bytes.length := h.trans hlen.ge
  rw [slice_of_le hle, slice_of_le (by omega)]
  show some ((((b.bytes.drop pos).take n).drop off).take len) = _
  rw [List.drop_take, List.take_take, List.drop_drop, Nat.min_eq_left (by omega)]

theorem num_part {b : Buffer} {pos n off len : Nat} (hin : pos + n ≤ b.bytes.length)
    (h : off + len ≤ n) :
    (ofList ((b.bytes.drop pos).take n)).num off len = b.num (pos + off) len :=
  congrArg (Option.map leNat) (slice_part hin h)

theorem upTo_part {b : Buffer} {pos n off len : Nat} (hin : pos + n ≤ b.bytes.length)
    (h : off + len ≤ n) :
    (ofList ((b.bytes.drop pos).take n)).upTo off len = b.upTo (pos + off) len := by
  have hlen : ((b.bytes.drop pos).take n).length = n := by
    rw [List.length_take, List.length_drop]
    omega
  have hfits := b.fits
  have hpart : min len ((ofList ((b.bytes.drop pos).take n)).size - off) = len := by
    show min len (((b.bytes.drop pos).take n).length - off) = len
    omega
  have hwhole : min len (b.size - (pos + off)) = len := by omega
  unfold upTo
  rw [hpart, hwhole, slice_part hin h]

theorem slice_write {b b' : Buffer} {off : Nat} {src : List UInt8}
    (h : b.write off src = some b') : b'.slice off src.length = some src := by
  unfold write at h
  split at h
  · rename_i hle
    cases h
    have hfront : (b.bytes.take off ++ List.replicate (off - b.bytes.length) 0).length = off := by
      rw [List.length_append, List.length_take, List.length_replicate]
      omega
    rw [slice_of_le (by simp only [List.length_append] at hfront ⊢; omega)]
    dsimp only
    rw [List.append_assoc, List.drop_append_of_le_length hfront.ge,
      List.drop_of_length_le hfront.le, List.nil_append, List.take_left]
  · cases h

theorem size_write {b b' : Buffer} {off : Nat} {src : List UInt8}
    (h : b.write off src = some b') : b'.size = b.size := by
  unfold write at h
  split at h
  · cases h
    rfl
  · cases h

/-- Nothing written inside the bytes of the object leaves it as it is. -/
theorem write_nil {b b' : Buffer} {off : Nat} (h : b.write off [] = some b')
    (hin : off ≤ b.bytes.length) : b' = b := by
  unfold write at h
  split at h
  · cases h
    have hzero : off - b.bytes.length = 0 := Nat.sub_eq_zero_of_le hin
    simp only [hzero, List.replicate_zero, List.append_nil, List.length_nil, Nat.add_zero,
      List.take_append_drop]
  · cases h

theorem write_past {b : Buffer} {off : Nat} {src : List UInt8} (h : b.size < off + src.length) :
    b.write off src = none := by
  unfold write
  rw [dif_neg (Nat.not_le.mpr h)]

/-- The bytes of a number that was read. -/
theorem num_getD {b : Buffer} {off n v : Nat} (h : b.num off n = some v) {i : Nat} (hi : i < n) :
    b.bytes.getD (off + i) 0 = (leBytes n v).getD i 0 := by
  obtain ⟨l, hl, rfl⟩ := Option.map_eq_some_iff.mp h
  rw [← slice_getD hl hi, ← length_slice hl, leBytes_leNat]

theorem num_ge {b : Buffer} {off n v : Nat} (h : b.num off n = some v) {i : Nat} (hi : i < n) :
    (b.bytes.getD (off + i) 0).toNat * 256 ^ i ≤ v := by
  obtain ⟨l, hl, rfl⟩ := Option.map_eq_some_iff.mp h
  rw [← slice_getD hl hi]
  exact getD_mul_le_leNat l i

theorem num_lt {b : Buffer} {off n v : Nat} (h : b.num off n = some v) : v < 256 ^ n := by
  obtain ⟨l, hl, rfl⟩ := Option.map_eq_some_iff.mp h
  have := leNat_lt l
  rwa [length_slice hl] at this

end Buffer

end Uefistored.Lib
