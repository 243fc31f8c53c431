/-
# `Uefistored.Lib.Bucket` — what a token bucket lets through

A bucket holds at most `cap` tokens.  One use refills it, takes some tokens out
and leaves the rest.  `Drains cap level us`: from a bucket with `level` tokens,
every use in `us` finds no more tokens than the one before left plus its own
refill, and never more than `cap`.

From that alone a whole series of uses takes no more than the first level and
all refills together (`Drains.taken_le`), and any window of it no more than
`cap` and the refills after the window's first use (`Drains.window`).
-/
import Mathlib.Algebra.Ring.Nat
import Mathlib.Data.List.Basic

namespace Uefistored.Lib

/-- One use of a bucket: tokens taken, tokens left, tokens the refill offered. -/
structure Use where
  taken : Nat
  left : Nat
  refill : Nat

/-- Every use finds at most what was left and its refill, and at most `cap`. -/
def Drains (cap : Nat) : Nat → List Use → Prop
  | _, [] => True
  | level, u :: us =>
      u.taken + u.left ≤ cap ∧ u.taken + u.left ≤ level + u.refill ∧ Drains cap u.left us

/-- The tokens a series of uses takes. -/
def taken (us : List Use) : Nat := (us.map Use.taken).sum

/-- The tokens a series of uses is offered. -/
def refilled (us : List Use) : Nat := (us.map Use.refill).sum

@[simp] theorem taken_cons (u : Use) (us : List Use) : taken (u :: us) = u.taken + taken us := rfl

@[simp] theorem refilled_cons (u : Use) (us : List Use) :
    refilled (u :: us) = u.refill + refilled us := rfl

namespace Drains

variable {cap : Nat}

theorem left_part : ∀ {us vs : List Use} {level : Nat},
    Drains cap level (us ++ vs) → Drains cap level us
  | [], _, _, _ => trivial
  | _ :: _, _, _, ⟨hcap, hlevel, h⟩ => ⟨hcap, hlevel, left_part h⟩

theorem right_part : ∀ {us vs : List Use} {level : Nat},
    Drains cap level (us ++ vs) → ∃ level', Drains cap level' vs
  | [], _, level, h => ⟨level, h⟩
  | _ :: _, _, _, ⟨_, _, h⟩ => right_part h

/-- What goes out was there or came in. -/
theorem taken_le : ∀ {us : List Use} {level : Nat},
    Drains cap level us → taken us ≤ level + refilled us
  | [], _, _ => Nat.zero_le _
  | u :: us, level, ⟨_, hlevel, h⟩ => by
      have ih := taken_le h
      rw [taken_cons, refilled_cons]
      omega

/-- A window takes at most a full bucket and what came in after its first use. -/
theorem window {before us after : List Use} {level : Nat}
    (h : Drains cap level (before ++ us ++ after)) : taken us ≤ cap + refilled us.tail := by
  obtain ⟨level', hus⟩ := right_part (left_part h)
  cases us with
  | nil => exact Nat.zero_le _
  | cons u us =>
      obtain ⟨hcap, _, hrest⟩ := hus
      have hle := taken_le hrest
      rw [taken_cons, List.tail_cons]
      omega

end Drains

end Uefistored.Lib
