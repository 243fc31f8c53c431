/-
# `Uefistored.Lib.Base64` — base64 texts

The encoding with four characters for three bytes and without line breaks, and
its inverse: four characters at a time, of which the last group may be filled
up.  A text that is no encoding is refused.
-/
import Uefistored.Lib.Text

namespace Uefistored.Lib

/-! ## Writing -/

/-- The character for six bits. -/
def base64Char (n : Nat) : UInt8 :=
  (literal "ABCDEFGHIJKLMNOPQRSTUVWXYZabcdefghijklmnopqrstuvwxyz0123456789+/").getD n 0

/-- The character that fills up the last group. -/
def base64Pad : UInt8 := 61

def base64 : List UInt8 → List UInt8
  | [] => []
  | [a] => [base64Char (a.toNat / 4), base64Char (a.toNat % 4 * 16), base64Pad, base64Pad]
  | [a, b] => [base64Char (a.toNat / 4), base64Char (a.toNat % 4 * 16 + b.toNat / 16),
      base64Char (b.toNat % 16 * 4), base64Pad]
  | a :: b :: c :: l =>
      base64Char (a.toNat / 4) :: base64Char (a.toNat % 4 * 16 + b.toNat / 16) ::
        base64Char (b.toNat % 16 * 4 + c.toNat / 64) :: base64Char (c.toNat % 64) :: base64 l

theorem length_base64 : ∀ l : List UInt8, (base64 l).length = 4 * ((l.length + 2) / 3)
  | [] => rfl
  | [_] => by simp only [base64, List.length_cons, List.length_nil]
  | [_, _] => by simp only [base64, List.length_cons, List.length_nil]
  | a :: b :: c :: l => by
      have ih := length_base64 l
      simp only [base64, List.length_cons, ih]
      omega

theorem base64Char_ne {n : Nat} (h : n < 64) : base64Char n ≠ 0 := by
  have hall : ∀ n < 64, base64Char n ≠ 0 := by decide +kernel
  exact hall n h

theorem isText_base64 : ∀ l : List UInt8, IsText (base64 l)
  | [] => fun _ hc => absurd hc List.not_mem_nil
  | [a] => by
      have ha := a.toNat_lt
      intro c hc
      simp only [base64, List.mem_cons, List.not_mem_nil, or_false] at hc
      rcases hc with rfl | rfl | rfl | rfl
      · exact base64Char_ne (by omega)
      · exact base64Char_ne (by omega)
      · decide
      · decide
  | [a, b] => by
      have ha := a.toNat_lt
      have hb := b.toNat_lt
      intro c hc
      simp only [base64, List.mem_cons, List.not_mem_nil, or_false] at hc
      rcases hc with rfl | rfl | rfl | rfl
      · exact base64Char_ne (by omega)
      · exact base64Char_ne (by omega)
      · exact base64Char_ne (by omega)
      · decide
  | a :: b :: c :: l => by
      have ha := a.toNat_lt
      have hb := b.toNat_lt
      have hc := c.toNat_lt
      intro x hx
      simp only [base64, List.mem_cons] at hx
      rcases hx with rfl | rfl | rfl | rfl | hx
      · exact base64Char_ne (by omega)
      · exact base64Char_ne (by omega)
      · exact base64Char_ne (by omega)
      · exact base64Char_ne (by omega)
      · exact isText_base64 l x hx

/-! ## Reading -/

/-- The six bits that a character stands for. -/
def base64Bits (c : UInt8) : Option Nat := (List.range 64).find? (fun n => base64Char n == c)

theorem base64Bits_char {n : Nat} (h : n < 64) : base64Bits (base64Char n) = some n := by
  have hall : ∀ n < 64, base64Bits (base64Char n) = some n := by decide +kernel
  exact hall n h

theorem base64Char_ne_pad {n : Nat} (h : n < 64) : base64Char n ≠ base64Pad := by
  have hall : ∀ n < 64, base64Char n ≠ base64Pad := by decide +kernel
  exact hall n h

def base64Decode : List UInt8 → Option (List UInt8)
  | [] => some []
  | c₀ :: c₁ :: c₂ :: c₃ :: l => do
    let x₀ ← base64Bits c₀
    let x₁ ← base64Bits c₁
    let a := UInt8.ofNat (x₀ * 4 + x₁ / 16)
    if c₂ = base64Pad then
      if c₃ = base64Pad ∧ l = [] then some [a] else none
    else
      let x₂ ← base64Bits c₂
      let b := UInt8.ofNat (x₁ % 16 * 16 + x₂ / 4)
      if c₃ = base64Pad then
        if l = [] then some [a, b] else none
      else
        let x₃ ← base64Bits c₃
        let rest ← base64Decode l
        some (a :: b :: UInt8.ofNat (x₂ % 4 * 64 + x₃) :: rest)
  | _ => none

/-- A byte from its number, computed in another way. -/
theorem ofNat_eq_of_toNat {b : UInt8} {n : Nat} (h : n = b.toNat) : UInt8.ofNat n = b := by
  rw [h, UInt8.ofNat_toNat]

theorem base64Decode_base64 : ∀ l : List UInt8, base64Decode (base64 l) = some l
  | [] => rfl
  | [a] => by
      have ha := a.toNat_lt
      have hfirst : UInt8.ofNat (a.toNat / 4 * 4 + a.toNat % 4 * 16 / 16) = a :=
        ofNat_eq_of_toNat (by omega)
      rw [base64, base64Decode, base64Bits_char (by omega), base64Bits_char (by omega)]
      dsimp only [Option.bind_eq_bind, Option.bind_some]
      rw [if_pos rfl, if_pos ⟨rfl, rfl⟩, hfirst]
  | [a, b] => by
      have ha := a.toNat_lt
      have hb := b.toNat_lt
      have hfirst : UInt8.ofNat (a.toNat / 4 * 4 + (a.toNat % 4 * 16 + b.toNat / 16) / 16) = a :=
        ofNat_eq_of_toNat (by omega)
      have hsecond : UInt8.ofNat ((a.toNat % 4 * 16 + b.toNat / 16) % 16 * 16 +
          b.toNat % 16 * 4 / 4) = b := ofNat_eq_of_toNat (by omega)
      rw [base64, base64Decode, base64Bits_char (by omega), base64Bits_char (by omega)]
      dsimp only [Option.bind_eq_bind, Option.bind_some]
      rw [if_neg (base64Char_ne_pad (by omega)), base64Bits_char (by omega), Option.bind_some,
        if_pos rfl, if_pos rfl, hfirst, hsecond]
  | a :: b :: c :: l => by
      have ha := a.toNat_lt
      have hb := b.toNat_lt
      have hc := c.toNat_lt
      have hfirst : UInt8.ofNat (a.toNat / 4 * 4 + (a.toNat % 4 * 16 + b.toNat / 16) / 16) = a :=
        ofNat_eq_of_toNat (by omega)
      have hsecond : UInt8.ofNat ((a.toNat % 4 * 16 + b.toNat / 16) % 16 * 16 +
          (b.toNat % 16 * 4 + c.toNat / 64) / 4) = b := ofNat_eq_of_toNat (by omega)
      have hthird : UInt8.ofNat ((b.toNat % 16 * 4 + c.toNat / 64) % 4 * 64 + c.toNat % 64) = c :=
        ofNat_eq_of_toNat (by omega)
      rw [base64, base64Decode, base64Bits_char (by omega), base64Bits_char (by omega)]
      dsimp only [Option.bind_eq_bind, Option.bind_some]
      rw [if_neg (base64Char_ne_pad (by omega)), base64Bits_char (by omega), Option.bind_some,
        if_neg (base64Char_ne_pad (by omega)), base64Bits_char (by omega), Option.bind_some,
        base64Decode_base64 l, Option.bind_some, hfirst, hsecond, hthird]

end Uefistored.Lib
