/-
# `Uefistored.Lib.Ber` — tag, length and contents

The basic encoding rules as far as a reader needs them that knows what it expects: a tag
of one byte; a length, in one byte below `0x80` or in as many bytes as the lower bits of
the first one say; and the contents.  The indefinite form is not read.

`Ber.short` and `Ber.long` write the two forms of the length that are in use for contents
of less than 128 bytes and of two length bytes; `Ber.value` reads both back.
-/
import Uefistored.Lib.Wire

namespace Uefistored.Lib.Ber

/-- A big-endian number. -/
def beNat (l : List UInt8) : Nat := l.foldl (fun n b => n * 256 + b.toNat) 0

/-- The length. -/
def size : Reader Unit Nat := do
  let b ← Reader.num 1
  if b < 0x80 then return b
  else if b = 0x80 then throw ()
  else do
    let l ← Reader.bytes (b - 0x80)
    return beNat l

/-- The contents of a value with the tag. -/
def value (tag : UInt8) : Reader Unit (List UInt8) := do
  let t ← Reader.num 1
  if t ≠ tag.toNat then throw ()
  else do
    let n ← size
    Reader.bytes n

/-- What the reader makes of all the bytes. -/
def whole {α : Type} (p : Reader Unit α) (l : List UInt8) : Option α :=
  match p.read l with
  | some (.ok (a, [])) => some a
  | _ => none

/-- A value with its length in one byte. -/
def short (tag : UInt8) (l : List UInt8) : List UInt8 := tag :: UInt8.ofNat l.length :: l

/-- A value with its length in two bytes. -/
def long (tag : UInt8) (l : List UInt8) : List UInt8 :=
  tag :: 0x82 :: UInt8.ofNat (l.length / 256) :: UInt8.ofNat l.length :: l

theorem whole_of_reads {α : Type} {p : Reader Unit α} {l : List UInt8} {a : α} (h : Reads p l a) :
    whole p l = some a := by
  have hread := h []
  rw [List.append_nil] at hread
  rw [whole, hread]

theorem num_reads (b : UInt8) : Reads (Reader.num 1 : Reader Unit Nat) [b] b.toNat := by
  have hread := Reads.num_bytes (ε := Unit) (show [b].length = 1 from rfl)
  rwa [show leNat [b] = b.toNat by simp [leNat]] at hread

theorem size_reads_short {n : Nat} (h : n < 0x80) : Reads size [UInt8.ofNat n] n := by
  have hn : (UInt8.ofNat n).toNat = n := by
    rw [UInt8.toNat_ofNat', Nat.mod_eq_of_lt (by omega)]
  have hread : Reads size ([UInt8.ofNat n] ++ []) n := by
    refine (num_reads _).bind ?_
    rw [hn, if_pos h]
    exact Reads.pure n
  rwa [List.append_nil] at hread

theorem size_reads_long {n : Nat} (h : n < 65536) :
    Reads size [0x82, UInt8.ofNat (n / 256), UInt8.ofNat n] n := by
  have hbytes : beNat [UInt8.ofNat (n / 256), UInt8.ofNat n] = n := by
    simp only [beNat, List.foldl_cons, List.foldl_nil, UInt8.toNat_ofNat']
    omega
  have hread : Reads size ([0x82] ++ [UInt8.ofNat (n / 256), UInt8.ofNat n]) n := by
    refine (num_reads 0x82).bind ?_
    have hrest := (Reads.bytes (ε := Unit)
      (show [UInt8.ofNat (n / 256), UInt8.ofNat n].length = 2 from rfl)).map (f := beNat)
    rwa [hbytes] at hrest
  exact hread

section
variable {tag : UInt8} {l : List UInt8}

theorem value_reads {sz : List UInt8} (h : Reads size sz l.length) :
    Reads (value tag) ([tag] ++ (sz ++ l)) l := by
  refine (num_reads tag).bind ?_
  rw [if_neg (not_not.mpr rfl)]
  exact h.bind (Reads.bytes rfl)

theorem value_reads_short (h : l.length < 0x80) : Reads (value tag) (short tag l) l :=
  value_reads (size_reads_short h)

theorem value_reads_long (h : l.length < 65536) : Reads (value tag) (long tag l) l :=
  value_reads (size_reads_long h)

theorem length_short : (short tag l).length = l.length + 2 := rfl

theorem length_long : (long tag l).length = l.length + 4 := rfl

end

end Uefistored.Lib.Ber
