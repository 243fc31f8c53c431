/-
# `Uefistored.Lib.Text` — C strings and formatted texts

Strings are lists of bytes.  A text has no NUL; in memory a NUL stands behind it,
and whatever lies behind that is not part of it (`cstr`).  `snprintf` and
`strncpy` are what the two functions of `string.h` and `stdio.h` write: the one
always a NUL and never more than it is given room for, the other exactly as many
bytes as it is told, with a NUL only where the text is shorter.

`substitute` is `printf` with one conversion.
-/
import Mathlib.Algebra.Ring.Nat
import Mathlib.Data.List.Basic

namespace Uefistored.Lib

/-- The bytes of a string literal. -/
def literal (s : String) : List UInt8 := s.toByteArray.data.toList

/-! ## Texts -/

/-- No NUL. -/
def IsText (l : List UInt8) : Prop := ∀ c ∈ l, c ≠ 0

instance (l : List UInt8) : Decidable (IsText l) := List.decidableBAll _ l

theorem IsText.append {l l' : List UInt8} (h : IsText l) (h' : IsText l') : IsText (l ++ l') :=
  List.forall_mem_append.mpr ⟨h, h'⟩

/-- The string at the start of some memory. -/
def cstr (l : List UInt8) : List UInt8 := l.takeWhile (· ≠ 0)

theorem cstr_text : ∀ {l : List UInt8}, IsText l → ∀ rest, cstr (l ++ 0 :: rest) = l
  | [], _, _ => rfl
  | c :: l, h, rest => by
      have hc : c ≠ 0 := h c List.mem_cons_self
      have ih := cstr_text (l := l) (fun d hd => h d (List.mem_cons_of_mem _ hd)) rest
      unfold cstr at ih ⊢
      rw [List.cons_append, List.takeWhile_cons_of_pos (by simpa using hc), ih]

/-- What `snprintf` writes of a text into `size` bytes. -/
def snprintf (size : Nat) (text : List UInt8) : List UInt8 :=
  if size = 0 then [] else text.take (size - 1) ++ [0]

theorem snprintf_of_lt {size : Nat} {text : List UInt8} (h : text.length < size) :
    snprintf size text = text ++ [0] := by
  unfold snprintf
  rw [if_neg (by omega), List.take_of_length_le (by omega)]

/-- The `n` bytes that `strncpy` writes. -/
def strncpy (n : Nat) (text : List UInt8) : List UInt8 :=
  text.take n ++ List.replicate (n - text.length) 0

theorem length_strncpy (n : Nat) (text : List UInt8) : (strncpy n text).length = n := by
  unfold strncpy
  rw [List.length_append, List.length_take, List.length_replicate]
  omega

theorem strncpy_of_le {n : Nat} {text : List UInt8} (h : text.length ≤ n) :
    strncpy n text = text ++ List.replicate (n - text.length) 0 := by
  unfold strncpy
  rw [List.take_of_length_le h]

/-! ## Formatting -/

/-- `arg` in the place of the first `spec`. -/
def substitute (spec arg : List UInt8) : List UInt8 → List UInt8
  | [] => []
  | c :: l => if spec <+: c :: l then arg ++ (c :: l).drop spec.length
      else c :: substitute spec arg l

/-- The conversion stands behind `front`, in which its first character does not occur. -/
theorem substitute_eq {c : UInt8} {spec : List UInt8} (arg : List UInt8) :
    ∀ {front : List UInt8} (back : List UInt8), (∀ d ∈ front, d ≠ c) →
      substitute (c :: spec) arg (front ++ (c :: spec ++ back)) = front ++ (arg ++ back)
  | [], back, _ => by
      have hstart : c :: spec <+: c :: (spec ++ back) := ⟨back, rfl⟩
      rw [List.nil_append, List.cons_append, substitute, if_pos hstart, ← List.cons_append,
        List.drop_left]
      rfl
  | d :: front, back, h => by
      obtain ⟨hd, hrest⟩ := List.forall_mem_cons.mp h
      have hhead : ¬ c :: spec <+: d :: (front ++ (c :: spec ++ back)) :=
        fun hpre => hd (List.cons_prefix_cons.mp hpre).1.symm
      rw [List.cons_append, substitute, if_neg hhead, substitute_eq arg back hrest,
        List.cons_append]

/-- A number in decimal. -/
def decimal (n : Nat) : List UInt8 := (Nat.toDigits 10 n).map (fun c => UInt8.ofNat c.toNat)

theorem isText_decimal (n : Nat) : IsText (decimal n) := by
  intro b hb
  obtain ⟨c, hc, rfl⟩ := List.mem_map.mp hb
  have hdigit := Nat.isDigit_of_mem_toDigits (by decide) (by decide) hc
  rw [Char.isDigit, Bool.and_eq_true, decide_eq_true_eq, decide_eq_true_eq] at hdigit
  have hlow : 48 ≤ c.toNat := UInt32.le_iff_toNat_le.mp hdigit.1
  have hhigh : c.toNat ≤ 57 := UInt32.le_iff_toNat_le.mp hdigit.2
  intro hzero
  have hval : (UInt8.ofNat c.toNat).toNat = 0 := congrArg UInt8.toNat hzero
  rw [UInt8.toNat_ofNat'] at hval
  omega

theorem length_decimal_le_iff {n k : Nat} (hk : 0 < k) : (decimal n).length ≤ k ↔ n < 10 ^ k := by
  rw [decimal, List.length_map]
  exact Nat.length_toDigits_le_iff (by decide) hk

end Uefistored.Lib
