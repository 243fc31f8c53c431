/-
# `Uefistored.Lib.Loop` — loops that may run into a fault

A loop is one function, `turn`: from a state it stops with a result, runs into a
fault, or goes on.  `loop` iterates it with fuel, and has no result in a fault
or out of fuel.

Where every turn that goes on comes down in a measure, fuel above the measure is
enough, and the loop has a result exactly if it comes to no fault
(`loop_isSome_iff`).
-/
import Mathlib.Logic.Relation

namespace Uefistored.Lib

variable {σ ρ : Type}

/-- What one turn of a loop comes to. -/
inductive Turn (σ ρ : Type)
  | stop (result : ρ)
  | fault
  | next (s : σ)

/-- The loop, with fuel. -/
def loop (turn : σ → Turn σ ρ) : Nat → σ → Option ρ
  | 0, _ => none
  | fuel + 1, s =>
    match turn s with
    | .stop r => some r
    | .fault => none
    | .next s' => loop turn fuel s'

/-- The loop gets from `s` to `s'`. -/
def Comes (turn : σ → Turn σ ρ) : σ → σ → Prop :=
  Relation.ReflTransGen (fun s s' => turn s = .next s')

theorem Comes.refl {turn : σ → Turn σ ρ} (s : σ) : Comes turn s s := Relation.ReflTransGen.refl

theorem Comes.head {turn : σ → Turn σ ρ} {s s' t : σ} (h : turn s = .next s')
    (ht : Comes turn s' t) : Comes turn s t := Relation.ReflTransGen.head h ht

/-- With fuel for every turn there is a result exactly if no state the loop comes to is one of
a fault. -/
theorem loop_isSome_iff {turn : σ → Turn σ ρ} {μ : σ → Nat}
    (hdown : ∀ s s', turn s = .next s' → μ s' < μ s) :
    ∀ (fuel : Nat) (s : σ), μ s < fuel →
      ((loop turn fuel s).isSome ↔ ∀ t, Comes turn s t → turn t ≠ .fault)
  | 0, _, h => absurd h (Nat.not_lt_zero _)
  | fuel + 1, s, h => by
      rw [loop]
      cases hturn : turn s with
      | stop r =>
          refine iff_of_true rfl ?_
          intro t ht
          cases Relation.ReflTransGen.cases_head ht with
          | inl heq =>
              rw [← heq, hturn]
              nofun
          | inr hhead =>
              obtain ⟨s', hs', _⟩ := hhead
              cases hturn.symm.trans hs'
      | fault =>
          refine iff_of_false (by simp) ?_
          intro hall
          exact hall s (.refl s) hturn
      | next s' =>
          have hless := hdown s s' hturn
          have ih := loop_isSome_iff hdown fuel s' (by omega)
          dsimp only
          rw [ih]
          constructor
          · intro hall t ht
            cases Relation.ReflTransGen.cases_head ht with
            | inl heq =>
                rw [← heq, hturn]
                nofun
            | inr hhead =>
                obtain ⟨s'', hs'', ht⟩ := hhead
                obtain rfl := Turn.next.inj (hturn.symm.trans hs'')
                exact hall t ht
          · intro hall t ht
            exact hall t (.head hturn ht)

end Uefistored.Lib
