/-
# `Uefistored.Lib.Mailbox` — calls that wait in slots until they are served

A server and its callers share a world.  Each caller has one slot: it puts a call
there (`call`), the server serves it in one piece and marks the slot (`serve`), and
the caller takes the answer and empties the slot (`ret`).  In between the world may
change by itself (`other`).

Nothing is said about who comes when.  Still every caller's calls are served in its
own order, each once, but for one that waits (`run_calls`); every return has its
serve (`run_returns`); and the world goes through the serves one at a time
(`run_world`), so that it may be replaced by another one that serves alike
(`run_simulation`).
-/
import Mathlib.Logic.Function.Basic
import Uefistored.Lib.Run

namespace Uefistored.Lib.Mailbox

/-- A slot is empty, or it holds a call that waits, or one that was served. -/
inductive Cell (ρ : Type)
  | empty
  | waiting (r : ρ)
  | served

/-- The calls in a slot that are still to be served. -/
def Cell.calls {ρ : Type} : Cell ρ → List ρ
  | .waiting r => [r]
  | _ => []

/-- The answers in a slot that are still to be taken. -/
def Cell.answers {ρ : Type} : Cell ρ → Nat
  | .served => 1
  | _ => 0

structure State (ι ρ ω : Type) where
  world : ω
  cell : ι → Cell ρ

inductive Event (ι ρ ε : Type)
  | call (i : ι) (r : ρ)
  | serve (i : ι) (r : ρ)
  | ret (i : ι)
  | other (e : ε)

variable {ι ρ ω ε : Type} [DecidableEq ι]

/-- One step: `serve` is what serving a call may do to the world, `other` what the world may
do by itself. -/
inductive Step (serve : ω → ρ → ω → Prop) (other : ω → ε → ω → Prop) :
    State ι ρ ω → Event ι ρ ε → State ι ρ ω → Prop
  | call {s : State ι ρ ω} {i : ι} (r : ρ) : s.cell i = .empty →
      Step serve other s (.call i r) ⟨s.world, Function.update s.cell i (.waiting r)⟩
  | serve {s : State ι ρ ω} {i : ι} {r : ρ} {w : ω} : s.cell i = .waiting r →
      serve s.world r w →
      Step serve other s (.serve i r) ⟨w, Function.update s.cell i .served⟩
  | ret {s : State ι ρ ω} {i : ι} : s.cell i = .served →
      Step serve other s (.ret i) ⟨s.world, Function.update s.cell i .empty⟩
  | other {s : State ι ρ ω} {e : ε} {w : ω} : other s.world e w →
      Step serve other s (.other e) ⟨w, s.cell⟩

/-! ## Histories -/

/-- What caller `i` asked, in order. -/
def callsOf (i : ι) (es : List (Event ι ρ ε)) : List ρ :=
  es.filterMap fun
    | .call j r => if j = i then some r else none
    | _ => none

/-- What was served to caller `i`, in order. -/
def servesOf (i : ι) (es : List (Event ι ρ ε)) : List ρ :=
  es.filterMap fun
    | .serve j r => if j = i then some r else none
    | _ => none

/-- How often caller `i` took an answer. -/
def returnsOf (i : ι) (es : List (Event ι ρ ε)) : Nat :=
  es.countP fun
    | .ret j => j = i
    | _ => false

/-- The serves of all callers, in order. -/
def served (es : List (Event ι ρ ε)) : List (ι × ρ) :=
  es.filterMap fun
    | .serve i r => some (i, r)
    | _ => none

/-- What the world did by itself, in order. -/
def othersOf (es : List (Event ι ρ ε)) : List ε :=
  es.filterMap fun
    | .other e => some e
    | _ => none

theorem callsOf_append (i : ι) (es es' : List (Event ι ρ ε)) :
    callsOf i (es ++ es') = callsOf i es ++ callsOf i es' :=
  List.filterMap_append

theorem servesOf_append (i : ι) (es es' : List (Event ι ρ ε)) :
    servesOf i (es ++ es') = servesOf i es ++ servesOf i es' :=
  List.filterMap_append

theorem returnsOf_append (i : ι) (es es' : List (Event ι ρ ε)) :
    returnsOf i (es ++ es') = returnsOf i es + returnsOf i es' :=
  List.countP_append

section
variable {serve : ω → ρ → ω → Prop} {other : ω → ε → ω → Prop} {s s' : State ι ρ ω}

theorem Step.calls_eq {e : Event ι ρ ε} (h : Step serve other s e s') (i : ι) :
    (s.cell i).calls ++ callsOf i [e] = servesOf i [e] ++ (s'.cell i).calls := by
  cases h with
  | @call j r hj =>
      by_cases hji : j = i
      · subst hji
        simp [callsOf, servesOf, hj, Cell.calls]
      · simp [callsOf, servesOf, hji, Function.update_of_ne (Ne.symm hji)]
  | @serve j r w hj =>
      by_cases hji : j = i
      · subst hji
        simp [callsOf, servesOf, hj, Cell.calls]
      · simp [callsOf, servesOf, hji, Function.update_of_ne (Ne.symm hji)]
  | @ret j hj =>
      by_cases hji : j = i
      · subst hji
        simp [callsOf, servesOf, hj, Cell.calls]
      · simp [callsOf, servesOf, Function.update_of_ne (Ne.symm hji)]
  | other => simp [callsOf, servesOf]

theorem Step.returns_eq {e : Event ι ρ ε} (h : Step serve other s e s') (i : ι) :
    (s.cell i).answers + (servesOf i [e]).length = returnsOf i [e] + (s'.cell i).answers := by
  cases h with
  | @call j r hj =>
      by_cases hji : j = i
      · subst hji
        simp [servesOf, returnsOf, hj, Cell.answers]
      · simp [servesOf, returnsOf, Function.update_of_ne (Ne.symm hji)]
  | @serve j r w hj =>
      by_cases hji : j = i
      · subst hji
        simp [servesOf, returnsOf, hj, Cell.answers]
      · simp [servesOf, returnsOf, hji, Function.update_of_ne (Ne.symm hji)]
  | @ret j hj =>
      by_cases hji : j = i
      · subst hji
        simp [servesOf, returnsOf, hj, Cell.answers]
      · simp [servesOf, returnsOf, hji, Function.update_of_ne (Ne.symm hji)]
  | other => simp [servesOf, returnsOf]

/-- What waited and what was asked is what was served and what waits. -/
theorem run_calls {es : List (Event ι ρ ε)} (h : Run (Step serve other) s es s') (i : ι) :
    (s.cell i).calls ++ callsOf i es = servesOf i es ++ (s'.cell i).calls := by
  induction h with
  | nil s => simp [callsOf, servesOf]
  | @cons s s₁ s' e es he _ ih =>
      have hcalls := callsOf_append i [e] es
      have hserves := servesOf_append i [e] es
      simp only [List.singleton_append] at hcalls hserves
      rw [hcalls, hserves, ← List.append_assoc, he.calls_eq i, List.append_assoc, ih,
        List.append_assoc]

/-- Every answer that was taken, or is still there, was served. -/
theorem run_returns {es : List (Event ι ρ ε)} (h : Run (Step serve other) s es s') (i : ι) :
    (s.cell i).answers + (servesOf i es).length = returnsOf i es + (s'.cell i).answers := by
  induction h with
  | nil s => simp [servesOf, returnsOf]
  | @cons s s₁ s' e es he _ ih =>
      have hserves := servesOf_append i [e] es
      have hreturns := returnsOf_append i [e] es
      have hone := he.returns_eq i
      simp only [List.singleton_append] at hserves hreturns
      rw [hserves, hreturns, List.length_append]
      omega

end

/-! ## The world -/

/-- What is done to the world: calls are served, and it changes by itself. -/
def worldEvents (es : List (Event ι ρ ε)) : List ((ι × ρ) ⊕ ε) :=
  es.filterMap fun
    | .serve i r => some (.inl (i, r))
    | .other e => some (.inr e)
    | _ => none

/-- One such event. -/
def WorldStep (serve : ω → ρ → ω → Prop) (other : ω → ε → ω → Prop) (w : ω) :
    (ι × ρ) ⊕ ε → ω → Prop
  | .inl (_, r), w' => serve w r w'
  | .inr e, w' => other w e w'

theorem mem_worldEvents_serve {es : List (Event ι ρ ε)} {i : ι} {r : ρ}
    (h : .inl (i, r) ∈ worldEvents es) : r ∈ servesOf i es := by
  obtain ⟨e, he, heq⟩ := List.mem_filterMap.mp h
  refine List.mem_filterMap.mpr ⟨e, he, ?_⟩
  cases e with
  | serve j r' =>
      cases heq
      exact if_pos rfl
  | call | ret | other => cases heq

omit [DecidableEq ι] in
theorem mem_worldEvents_other {es : List (Event ι ρ ε)} {e : ε}
    (h : .inr e ∈ worldEvents es) : e ∈ othersOf es := by
  obtain ⟨e', he, heq⟩ := List.mem_filterMap.mp h
  refine List.mem_filterMap.mpr ⟨e', he, ?_⟩
  cases e' with
  | other =>
      cases heq
      rfl
  | call | ret | serve => cases heq

/-- The world goes through the serves and its own changes, and through nothing else. -/
theorem run_world {serve : ω → ρ → ω → Prop} {other : ω → ε → ω → Prop} {s s' : State ι ρ ω}
    {es : List (Event ι ρ ε)} (h : Run (Step serve other) s es s') :
    Run (WorldStep serve other) s.world (worldEvents es) s'.world := by
  induction h with
  | nil s => exact .nil _
  | cons he _ ih =>
      cases he with
      | call => exact ih
      | serve _ hserve => exact .cons hserve ih
      | ret => exact ih
      | other hother => exact .cons hother ih

/-- Where what is served and what changes in one world has its counterpart in another, the other
goes through the same events. -/
theorem run_simulation {ω' : Type} {serve : ω → ρ → ω → Prop} {other : ω → ε → ω → Prop}
    {serve' : ω' → ρ → ω' → Prop} {other' : ω' → ε → ω' → Prop} {R : ω → ω' → Prop}
    (hserve : ∀ w v r w', R w v → serve w r w' → ∃ v', serve' v r v' ∧ R w' v')
    (hother : ∀ w v e w', R w v → other w e w' → ∃ v', other' v e v' ∧ R w' v')
    {s s' : State ι ρ ω} {es : List (Event ι ρ ε)} (h : Run (Step serve other) s es s') :
    ∀ {v : ω'}, R s.world v → ∃ v', Run (Step serve' other') ⟨v, s.cell⟩ es ⟨v', s'.cell⟩ ∧
      R s'.world v' := by
  induction h with
  | nil s => exact fun {v} hv => ⟨v, .nil _, hv⟩
  | cons he _ ih =>
      intro v hv
      cases he with
      | call r hcell =>
          obtain ⟨v', hrun, hv'⟩ := ih hv
          exact ⟨v', .cons (.call r hcell) hrun, hv'⟩
      | serve hcell hserved =>
          obtain ⟨v₁, hserved', hv₁⟩ := hserve _ _ _ _ hv hserved
          obtain ⟨v', hrun, hv'⟩ := ih hv₁
          exact ⟨v', .cons (.serve hcell hserved') hrun, hv'⟩
      | ret hcell =>
          obtain ⟨v', hrun, hv'⟩ := ih hv
          exact ⟨v', .cons (.ret hcell) hrun, hv'⟩
      | other hchanged =>
          obtain ⟨v₁, hchanged', hv₁⟩ := hother _ _ _ _ hv hchanged
          obtain ⟨v', hrun, hv'⟩ := ih hv₁
          exact ⟨v', .cons (.other hchanged') hrun, hv'⟩

end Uefistored.Lib.Mailbox
