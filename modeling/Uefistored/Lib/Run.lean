/-
# `Uefistored.Lib.Run` — runs of a labelled transition relation

`R s x s'` is one step: in state `s`, on input `x`, to `s'`.  A partial
function gives such a relation, and so does a step together with a condition
on the state it starts from.  `Run R s xs s'` is a run over the inputs `xs`.

What one step preserves, a run preserves (`Run.invariant`); a reflexive and
transitive relation that holds across one step from a good state holds between
the ends of a run (`Run.related`).

`trace f s xs` is what a machine with outputs answers to the inputs `xs`, and
the state it ends in.  Two machines that answer alike in related states, and
stay related, answer alike for ever (`trace_simulation`).
-/
import Mathlib.Data.List.Basic

namespace Uefistored.Lib

variable {σ ι : Type}

/-- `Run R s xs s'`: the inputs `xs`, taken in order, lead from `s` to `s'`. -/
inductive Run (R : σ → ι → σ → Prop) : σ → List ι → σ → Prop
  | nil (s : σ) : Run R s [] s
  | cons {s s₁ s' : σ} {x : ι} {xs : List ι} :
      R s x s₁ → Run R s₁ xs s' → Run R s (x :: xs) s'

namespace Run

variable {R : σ → ι → σ → Prop}

/-- What every step preserves, every run preserves. -/
theorem invariant {I : σ → Prop} (hstep : ∀ s x s', R s x s' → I s → I s') {s s' : σ}
    {xs : List ι} (h : Run R s xs s') (hs : I s) : I s' := by
  induction h with
  | nil => exact hs
  | cons hx _ ih => exact ih (hstep _ _ _ hx hs)

/-- Under an invariant, a preorder that every step goes up in goes up along every run. -/
theorem related {I : σ → Prop} {Q : σ → σ → Prop} (hrefl : ∀ s, Q s s)
    (htrans : ∀ s₁ s₂ s₃, Q s₁ s₂ → Q s₂ s₃ → Q s₁ s₃)
    (hinv : ∀ s x s', R s x s' → I s → I s') (hstep : ∀ s x s', R s x s' → I s → Q s s')
    {s s' : σ} {xs : List ι} (h : Run R s xs s') (hs : I s) : Q s s' := by
  induction h with
  | nil => exact hrefl _
  | cons hx _ ih => exact htrans _ _ _ (hstep _ _ _ hx hs) (ih (hinv _ _ _ hx hs))

/-- One more step at the end. -/
theorem snoc {s s₁ s' : σ} {xs : List ι} {x : ι} (h : Run R s xs s₁) (hx : R s₁ x s') :
    Run R s (xs ++ [x]) s' := by
  induction h with
  | nil => exact .cons hx (.nil _)
  | cons hy _ ih => exact .cons hy (ih hx)

/-- One run behind the other. -/
theorem append {s s₁ s' : σ} {xs ys : List ι} (h : Run R s xs s₁) (h' : Run R s₁ ys s') :
    Run R s (xs ++ ys) s' := by
  induction h with
  | nil => exact h'
  | cons hx _ ih => exact .cons hx (ih h')

/-- Where a step from a good state leads to a good one or breaks it, a run ends in a good state,
or passes a step that breaks one. -/
theorem holds_or_breaks {I : σ → Prop} {B : σ → ι → σ → Prop}
    (hstep : ∀ s x s', R s x s' → I s → I s' ∨ B s x s') {s s' : σ} {xs : List ι}
    (h : Run R s xs s') (hs : I s) :
    I s' ∨ ∃ xs₁ x xs₂ s₁ s₂, xs = xs₁ ++ x :: xs₂ ∧ Run R s xs₁ s₁ ∧ R s₁ x s₂ ∧
      Run R s₂ xs₂ s' ∧ I s₁ ∧ B s₁ x s₂ := by
  induction h with
  | nil => exact .inl hs
  | @cons s s₁ s' x xs hx hrest ih =>
      rcases hstep _ _ _ hx hs with hgood | hbreak
      · rcases ih hgood with hend | ⟨xs₁, y, xs₂, t₁, t₂, rfl, hrun, ht⟩
        · exact .inl hend
        · exact .inr ⟨x :: xs₁, y, xs₂, t₁, t₂, rfl, .cons hx hrun, ht⟩
      · exact .inr ⟨[], x, xs, s, s₁, rfl, .nil _, hx, hrest, hs, hbreak⟩

/-- Where every step of a run goes down in a measure, the run is no longer than it. -/
theorem length_le {I : σ → Prop} {μ : σ → Nat} (hinv : ∀ s x s', R s x s' → I s → I s')
    (hdown : ∀ s x s', R s x s' → I s → μ s' < μ s) {s s' : σ} {xs : List ι}
    (h : Run R s xs s') (hs : I s) : xs.length ≤ μ s := by
  induction h with
  | nil => exact Nat.zero_le _
  | cons hx _ ih =>
      have hrest := ih (hinv _ _ _ hx hs)
      have hless := hdown _ _ _ hx hs
      rw [List.length_cons]
      omega

/-- A run of a finer relation is a run of a coarser one. -/
theorem mono {R' : σ → ι → σ → Prop} (hR : ∀ s x s', R s x s' → R' s x s') {s s' : σ}
    {xs : List ι} (h : Run R s xs s') : Run R' s xs s' := by
  induction h with
  | nil => exact .nil _
  | cons hx _ ih => exact .cons (hR _ _ _ hx) ih

/-- What holds of every input holds at every step. -/
theorem restrict {C : ι → Prop} {s s' : σ} {xs : List ι} (h : Run R s xs s')
    (hC : ∀ x ∈ xs, C x) : Run (fun s x s' => R s x s' ∧ C x) s xs s' := by
  induction h with
  | nil => exact .nil _
  | cons hx _ ih =>
      exact .cons ⟨hx, hC _ List.mem_cons_self⟩ (ih (fun y hy => hC y (List.mem_cons_of_mem _ hy)))

end Run

/-! ## Machines with outputs -/

variable {τ ο : Type}

/-- The answers to a list of inputs, and the last state. -/
def trace (f : σ → ι → ο × σ) : σ → List ι → List ο × σ
  | s, [] => ([], s)
  | s, x :: xs => ((f s x).1 :: (trace f (f s x).2 xs).1, (trace f (f s x).2 xs).2)

/-- Related states that answer alike and stay related. -/
theorem trace_simulation {f : σ → ι → ο × σ} {g : τ → ι → ο × τ} {R : σ → τ → Prop}
    (hstep : ∀ s t x, R s t → (f s x).1 = (g t x).1 ∧ R (f s x).2 (g t x).2) :
    ∀ (xs : List ι) {s : σ} {t : τ}, R s t →
      (trace f s xs).1 = (trace g t xs).1 ∧ R (trace f s xs).2 (trace g t xs).2
  | [], _, _, h => ⟨rfl, h⟩
  | x :: xs, s, t, h => by
      obtain ⟨hout, hR⟩ := hstep s t x h
      obtain ⟨houts, hend⟩ := trace_simulation hstep xs hR
      exact ⟨congrArg₂ List.cons hout houts, hend⟩

end Uefistored.Lib
