/-
# `Uefistored.Lib.CString` — C strings compared, searched and read as numbers

Lists of bytes as in `Uefistored.Lib.Text`; behind the last byte of a list stands
a NUL.  `Numeral l n` says that `l` begins, behind white space, with the digits of
`n`; `strtol` finds the `n`, cut to a `long`, or 0 where there is none.
-/
import Mathlib.Data.List.TakeWhile
import Uefistored.Lib.Text

namespace Uefistored.Lib

/-- `strncmp(a, b, n) == 0`. -/
def strncmpEq : Nat → List UInt8 → List UInt8 → Bool
  | 0, _, _ => true
  | n + 1, a, b =>
    if a.headD 0 ≠ b.headD 0 then false
    else if a.headD 0 = 0 then true
    else strncmpEq n a.tail b.tail

theorem cstr_cons {c : UInt8} (h : c ≠ 0) (l : List UInt8) : cstr (c :: l) = c :: cstr l := by
  unfold cstr
  rw [List.takeWhile_cons_of_pos (by simpa using h)]

theorem cstr_cons_zero (l : List UInt8) : cstr (0 :: l) = [] := by
  unfold cstr
  rw [List.takeWhile_cons_of_neg (by simp)]

/-- The memory starts with the string; a NUL follows, or nothing. -/
theorem cstr_append_rest (l : List UInt8) : cstr l = l ∨ ∃ rest, l = cstr l ++ 0 :: rest := by
  induction l with
  | nil => exact .inl rfl
  | cons c l ih =>
      by_cases hc : c = 0
      · subst hc
        exact .inr ⟨l, by rw [cstr_cons_zero, List.nil_append]⟩
      · rw [cstr_cons hc]
        rcases ih with heq | ⟨rest, heq⟩
        · exact .inl (by rw [heq])
        · exact .inr ⟨rest, by rw [List.cons_append, ← heq]⟩

theorem cstr_of_isText {l : List UInt8} (h : IsText l) : cstr l = l := by
  rcases cstr_append_rest l with heq | ⟨rest, heq⟩
  · exact heq
  · have hzero : (0 : UInt8) ∈ l := by
      rw [heq]
      exact List.mem_append_right _ List.mem_cons_self
    exact absurd rfl (h 0 hzero)

theorem cstr_eq_nil_of_head {l : List UInt8} (h : l.headD 0 = 0) : cstr l = [] := by
  cases l with
  | nil => rfl
  | cons c l =>
      obtain rfl : c = 0 := h
      exact cstr_cons_zero l

theorem cstr_of_head {l : List UInt8} (h : l.headD 0 ≠ 0) :
    cstr l = l.headD 0 :: cstr l.tail := by
  cases l with
  | nil => exact absurd rfl h
  | cons c l => exact cstr_cons h l

/-- The first `n` characters of the two strings are compared. -/
theorem strncmpEq_iff : ∀ (n : Nat) (a b : List UInt8),
    strncmpEq n a b = true ↔ (cstr a).take n = (cstr b).take n
  | 0, _, _ => by simp [strncmpEq]
  | n + 1, a, b => by
      unfold strncmpEq
      by_cases ha : a.headD 0 = 0
      · rw [cstr_eq_nil_of_head ha, List.take_nil]
        by_cases hb : b.headD 0 = 0
        · rw [cstr_eq_nil_of_head hb, List.take_nil, if_neg (not_not.mpr (ha.trans hb.symm)),
            if_pos ha]
          simp
        · rw [cstr_of_head hb, if_pos (by rw [ha]; exact Ne.symm hb)]
          simp
      · rw [cstr_of_head ha, List.take_succ_cons]
        by_cases hb : b.headD 0 = 0
        · rw [cstr_eq_nil_of_head hb, if_pos (by rw [hb]; exact ha)]
          simp
        · rw [cstr_of_head hb, List.take_succ_cons, List.cons.injEq, if_neg ha]
          by_cases hab : a.headD 0 = b.headD 0
          · rw [if_neg (not_not.mpr hab), and_iff_right hab]
            exact strncmpEq_iff n a.tail b.tail
          · rw [if_pos hab]
            exact iff_of_false Bool.false_ne_true (fun h => hab h.1)

/-! ## Searching -/

/-- `strchr`, for a character other than NUL: the string from the first one on. -/
def strchr (c : UInt8) (l : List UInt8) : Option (List UInt8) :=
  match (cstr l).dropWhile (· ≠ c) with
  | [] => none
  | d :: rest => some (d :: rest)

/-- The list from the first `needle` on. -/
def findText (needle : List UInt8) : List UInt8 → Option (List UInt8)
  | [] => if needle = [] then some [] else none
  | c :: l => if needle <+: c :: l then some (c :: l) else findText needle l

/-- `strstr`. -/
def strstr (l needle : List UInt8) : Option (List UInt8) := findText needle (cstr l)

theorem strchr_eq_some_iff {c : UInt8} {l p : List UInt8} :
    strchr c l = some p ↔
      ∃ front rest, cstr l = front ++ c :: rest ∧ c ∉ front ∧ p = c :: rest := by
  unfold strchr
  constructor
  · intro h
    have hsplit := List.takeWhile_append_dropWhile (p := (· ≠ c)) (l := cstr l)
    split at h
    · cases h
    · rename_i d rest hdrop
      cases h
      have hd : d = c := by
        have hhead := List.head?_dropWhile_not (p := (· ≠ c)) (l := cstr l)
        rw [hdrop] at hhead
        simpa using hhead
      subst hd
      refine ⟨(cstr l).takeWhile (· ≠ d), rest, ?_, ?_, rfl⟩
      · rw [← hdrop, hsplit]
      · intro hmem
        have hne := List.mem_takeWhile_imp hmem
        simp at hne
  · rintro ⟨front, rest, hl, hfront, rfl⟩
    have hdrop : (cstr l).dropWhile (· ≠ c) = c :: rest := by
      rw [hl, List.dropWhile_append_of_pos (by
        intro a ha
        simpa using fun heq : a = c => hfront (heq ▸ ha))]
      simp
    rw [hdrop]

/-! ## Numbers -/

def isSpace (c : UInt8) : Bool := c == 0x20 || (0x09 ≤ c && c ≤ 0x0D)

def isDigit (c : UInt8) : Bool := 0x30 ≤ c && c ≤ 0x39

/-- The number that the digits stand for. -/
def digitsValue (l : List UInt8) : Nat := l.foldl (fun n c => n * 10 + (c.toNat - 0x30)) 0

def LONG_MAX : Int := 9223372036854775807
def LONG_MIN : Int := -9223372036854775808

/-- The nearest `long`. -/
def clampLong (n : Int) : Int := max LONG_MIN (min LONG_MAX n)

/-- The sign and what follows it. -/
def takeSign : List UInt8 → Int × List UInt8
  | [] => (1, [])
  | c :: l => if c = 0x2D then (-1, l) else if c = 0x2B then (1, l) else (1, c :: l)

/-- `strtol(l, NULL, 10)`. -/
def strtol (l : List UInt8) : Int :=
  let (sign, l) := takeSign (l.dropWhile isSpace)
  clampLong (sign * digitsValue (l.takeWhile isDigit))

/-- The list begins with white space, a sign or none, and all the digits of `n`. -/
inductive Numeral : List UInt8 → Int → Prop
  | mk {spaces sign digits rest : List UInt8} {n : Int} : (∀ c ∈ spaces, isSpace c = true) →
      (sign = [] ∨ sign = [0x2B]) ∧ n = digitsValue digits ∨
        sign = [0x2D] ∧ n = -digitsValue digits →
      digits ≠ [] → (∀ c ∈ digits, isDigit c = true) → (∀ c ∈ rest.head?, isDigit c = false) →
      Numeral (spaces ++ (sign ++ (digits ++ rest))) n

theorem isSpace_of_isDigit {c : UInt8} (h : isDigit c = true) : isSpace c = false := by
  simp only [isDigit, isSpace, Bool.and_eq_true, decide_eq_true_eq, UInt8.le_iff_toNat_le,
    Bool.or_eq_false_iff, beq_eq_false_iff_ne, ne_eq, ← UInt8.toNat_inj, Bool.and_eq_false_iff,
    decide_eq_false_iff_not, UInt8.reduceToNat] at h ⊢
  omega

theorem takeSign_cases (l : List UInt8) : ∃ sign,
    l = sign ++ (takeSign l).2 ∧
      ((sign = [] ∨ sign = [0x2B]) ∧ (takeSign l).1 = 1 ∨ sign = [0x2D] ∧ (takeSign l).1 = -1) := by
  cases l with
  | nil => exact ⟨[], rfl, .inl ⟨.inl rfl, rfl⟩⟩
  | cons c l =>
      simp only [takeSign]
      split
      · rename_i hc
        exact ⟨[0x2D], by rw [hc]; rfl, .inr ⟨rfl, rfl⟩⟩
      · split
        · rename_i hc
          exact ⟨[0x2B], by rw [hc]; rfl, .inl ⟨.inr rfl, rfl⟩⟩
        · exact ⟨[], rfl, .inl ⟨.inl rfl, rfl⟩⟩

/-- No digit is a sign. -/
theorem takeSign_of_isDigit {c : UInt8} (h : isDigit c = true) (l : List UInt8) :
    takeSign (c :: l) = (1, c :: l) := by
  have hminus : c ≠ 0x2D := by
    rintro rfl
    cases h
  have hplus : c ≠ 0x2B := by
    rintro rfl
    cases h
  simp [takeSign, hminus, hplus]

theorem takeWhile_isDigit {digits rest : List UInt8} (hdigits : ∀ c ∈ digits, isDigit c = true)
    (hrest : ∀ c ∈ rest.head?, isDigit c = false) :
    (digits ++ rest).takeWhile isDigit = digits := by
  rw [List.takeWhile_append_of_pos hdigits]
  cases rest with
  | nil => simp
  | cons c rest =>
      rw [List.takeWhile_cons_of_neg (by simp [hrest c rfl]), List.append_nil]

theorem dropWhile_isSpace {spaces rest : List UInt8} (hspaces : ∀ c ∈ spaces, isSpace c = true)
    (hrest : ∀ c ∈ rest.head?, isSpace c = false) :
    (spaces ++ rest).dropWhile isSpace = rest := by
  rw [List.dropWhile_append_of_pos hspaces]
  cases rest with
  | nil => rfl
  | cons c rest => rw [List.dropWhile_cons_of_neg (by simp [hrest c rfl])]

theorem Numeral.strtol_eq {l : List UInt8} {n : Int} (h : Numeral l n) :
    strtol l = clampLong n := by
  obtain ⟨hspaces, hsign, hne, hdigits, hrest⟩ := h
  rename_i spaces sign digits rest
  obtain ⟨d, ds, rfl⟩ := List.exists_cons_of_ne_nil hne
  have hd : isDigit d = true := hdigits d List.mem_cons_self
  have htake := takeWhile_isDigit hdigits hrest
  -- what follows the white space is a sign or a digit
  have hdrop : (spaces ++ (sign ++ (d :: ds ++ rest))).dropWhile isSpace =
      sign ++ (d :: ds ++ rest) := by
    refine dropWhile_isSpace hspaces ?_
    rcases hsign with ⟨rfl | rfl, -⟩ | ⟨rfl, -⟩
    · rintro c ⟨⟩
      exact isSpace_of_isDigit hd
    · rintro c ⟨⟩
      rfl
    · rintro c ⟨⟩
      rfl
  unfold strtol
  rw [hdrop]
  rcases hsign with ⟨rfl | rfl, rfl⟩ | ⟨rfl, rfl⟩
  · rw [List.nil_append, List.cons_append, takeSign_of_isDigit hd, ← List.cons_append]
    simp only [htake, Int.one_mul]
  · show clampLong (1 * digitsValue ((d :: ds ++ rest).takeWhile isDigit)) = _
    rw [htake, Int.one_mul]
  · show clampLong (-1 * digitsValue ((d :: ds ++ rest).takeWhile isDigit)) = _
    rw [htake, Int.neg_one_mul]

/-- A number other than 0 is read exactly where the text has it. -/
theorem strtol_eq_iff {l : List UInt8} {v : Int} (hv : v ≠ 0) :
    strtol l = v ↔ ∃ n, Numeral l n ∧ clampLong n = v := by
  constructor
  · intro h
    let text := l.dropWhile isSpace
    obtain ⟨sign, htext, hsign⟩ := takeSign_cases text
    let digits := (takeSign text).2.takeWhile isDigit
    let rest := (takeSign text).2.dropWhile isDigit
    have hl : l = l.takeWhile isSpace ++ (sign ++ (digits ++ rest)) := by
      rw [List.takeWhile_append_dropWhile, ← htext, List.takeWhile_append_dropWhile]
    have hstrtol : strtol l = clampLong ((takeSign text).1 * digitsValue digits) := rfl
    have hne : digits ≠ [] := by
      intro hnil
      rw [hstrtol, hnil] at h
      refine hv (h.symm.trans ?_)
      rw [show digitsValue [] = 0 from rfl, Int.natCast_zero, Int.mul_zero]
      decide
    refine ⟨(takeSign text).1 * digitsValue digits, ?_, hstrtol.symm.trans h⟩
    rw [hl]
    refine .mk (fun c hc => List.mem_takeWhile_imp hc) ?_ hne
      (fun c hc => List.mem_takeWhile_imp hc) ?_
    · rcases hsign with ⟨hs, hone⟩ | ⟨hs, hone⟩
      · exact .inl ⟨hs, by rw [hone, Int.one_mul]⟩
      · exact .inr ⟨hs, by rw [hone, Int.neg_one_mul]⟩
    · intro c hc
      have hhead := List.head?_dropWhile_not isDigit (takeSign text).2
      rw [Option.mem_def.mp hc] at hhead
      simpa using hhead
  · rintro ⟨n, hn, rfl⟩
    exact hn.strtol_eq

end Uefistored.Lib
