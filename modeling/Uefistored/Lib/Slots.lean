/-
# `Uefistored.Lib.Slots` — an array of slots with linear search

A table of `n` slots is a function `Fin n → α`; a write is `Function.update`.
`first t p` is the loop `for (i = 0; i < n; i++) if (p(t[i])) break;`: the
lowest index whose entry satisfies `p`.

`AgreeOff P t t'` is the frame relation of such a table: every slot keeps its
entry, except that a `P`-entry may be replaced by a `P`-entry.  It composes,
and a search for something that is never a `P`-entry sees no difference
(`AgreeOff.first_eq`, `AgreeOff.lookup_eq`).  `Distinct` says that no two
occupied slots have the same key.

`count t p` is the number of entries that satisfy `p`; a write changes it by
what it does to the entry it replaces (`count_update`).
-/
import Mathlib.Data.Fintype.Card
import Mathlib.Data.List.FinRange
import Mathlib.Logic.Function.Basic
import Mathlib.Order.WellFounded

namespace Uefistored.Lib.Slots

variable {n : Nat} {α β : Type}

/-- The lowest index whose entry satisfies `p`. -/
def first (t : Fin n → α) (p : α → Bool) : Option (Fin n) :=
  (List.finRange n).find? (fun i => p (t i))

theorem first_eq_none_iff {t : Fin n → α} {p : α → Bool} :
    first t p = none ↔ ∀ i, p (t i) = false := by
  simp [first]

theorem first_eq_some_iff {t : Fin n → α} {p : α → Bool} {i : Fin n} :
    first t p = some i ↔ p (t i) = true ∧ ∀ j < i, p (t j) = false := by
  rw [first, List.find?_eq_some_iff_getElem]
  constructor
  · rintro ⟨hp, k, hk, rfl, hlt⟩
    refine ⟨hp, fun j hj => ?_⟩
    have hj' : j.val < k := by simpa [Fin.lt_def] using hj
    simpa using hlt j.val hj'
  · rintro ⟨hp, hlt⟩
    refine ⟨hp, i.val, by simp, by simp, fun j hj => ?_⟩
    have hjn : j < n := Nat.lt_trans hj i.isLt
    simpa using hlt ⟨j, hjn⟩ hj

theorem first_pred {t : Fin n → α} {p : α → Bool} {i : Fin n} (h : first t p = some i) :
    p (t i) = true :=
  (first_eq_some_iff.mp h).1

theorem first_isSome_of {t : Fin n → α} {p : α → Bool} {i : Fin n} (h : p (t i) = true) :
    (first t p).isSome := by
  cases hf : first t p with
  | none => rw [first_eq_none_iff.mp hf i] at h; cases h
  | some j => rfl

/-- A write of an entry with `Q`, into a table of them. -/
theorem forall_update {t : Fin n → α} {Q : Fin n → α → Prop} (h : ∀ j, Q j (t j)) {i : Fin n}
    {v : α} (hv : Q i v) (j : Fin n) : Q j (Function.update t i v j) :=
  (Function.forall_update_iff t Q).mpr ⟨hv, fun j _ => h j⟩ j

/-- A search only sees where its predicate holds. -/
theorem first_congr {t t' : Fin n → α} {p p' : α → Bool} (h : ∀ i, p' (t' i) = p (t i)) :
    first t' p' = first t p := by
  simp only [first, h]

/-- Writing an entry the search accepts into the slot it found leaves the
result as it was. -/
theorem first_update_self {t : Fin n → α} {p : α → Bool} {i : Fin n} {a : α}
    (h : first t p = some i) (ha : p a = true) :
    first (Function.update t i a) p = some i := by
  obtain ⟨_, hlt⟩ := first_eq_some_iff.mp h
  refine first_eq_some_iff.mpr ⟨by simpa using ha, fun j hj => ?_⟩
  rw [Function.update_of_ne (ne_of_lt hj)]
  exact hlt j hj

/-- Writing the first accepted entry of a table makes that slot the result. -/
theorem first_update_of_none {t : Fin n → α} {p : α → Bool} {i : Fin n} {a : α}
    (h : first t p = none) (ha : p a = true) :
    first (Function.update t i a) p = some i := by
  refine first_eq_some_iff.mpr ⟨by simpa using ha, fun j hj => ?_⟩
  rw [Function.update_of_ne (ne_of_lt hj)]
  exact first_eq_none_iff.mp h j

/-- Writing elsewhere an entry that the search accepts only where it accepted before. -/
theorem first_update_other {t : Fin n → α} {p : α → Bool} {i j : Fin n} {a : α}
    (h : first t p = some i) (hj : j ≠ i) (ha : p a = true → p (t j) = true) :
    first (Function.update t j a) p = some i := by
  obtain ⟨hi, hlt⟩ := first_eq_some_iff.mp h
  refine first_eq_some_iff.mpr ⟨by rwa [Function.update_of_ne (Ne.symm hj)], ?_⟩
  intro l hl
  by_cases hlj : l = j
  · subst hlj
    rw [Function.update_self]
    by_contra hpa
    rw [Bool.not_eq_false] at hpa
    have hfalse := hlt l hl
    rw [ha hpa] at hfalse
    cases hfalse
  · rw [Function.update_of_ne hlj]
    exact hlt l hl

/-- The lowest index from `start` on whose entry satisfies `p`. -/
def firstFrom (t : Fin n → α) (p : α → Bool) (start : Nat) : Option (Fin n) :=
  ((List.finRange n).drop start).find? (fun i => p (t i))

theorem firstFrom_eq_some_iff {t : Fin n → α} {p : α → Bool} {start : Nat} {j : Fin n} :
    firstFrom t p start = some j ↔
      p (t j) = true ∧ start ≤ j.val ∧ ∀ l < j, start ≤ l.val → p (t l) = false := by
  rw [firstFrom, List.find?_eq_some_iff_getElem]
  constructor
  · rintro ⟨hp, k, hk, rfl, hlt⟩
    refine ⟨hp, by simp, fun l hl hstart => ?_⟩
    have hlk : l.val - start < k := by
      have hval : l.val < start + k := by simpa [Fin.lt_def] using hl
      omega
    simpa [Nat.add_sub_of_le hstart] using hlt (l.val - start) hlk
  · rintro ⟨hp, hstart, hlt⟩
    have hlen : j.val - start < ((List.finRange n).drop start).length := by
      rw [List.length_drop, List.length_finRange]
      omega
    refine ⟨hp, j.val - start, hlen, by simp [Nat.add_sub_of_le hstart], fun l hl => ?_⟩
    have hln : start + l < n := by omega
    have hfalse := hlt ⟨start + l, hln⟩ (Fin.lt_def.mpr (show start + l < j.val by omega))
      (Nat.le_add_right start l)
    simpa using hfalse

/-- An entry with `q` stands in front of `j`. -/
def InFront (t : Fin n → α) (q : α → Bool) (j : Fin n) : Prop := ∃ i < j, q (t i) = true

/-- The first entry with `p` that has an entry with `q` in front of it. -/
structure FirstBehind (t : Fin n → α) (q p : α → Bool) (j : Fin n) : Prop where
  pred : p (t j) = true
  behind : InFront t q j
  first : ∀ l < j, p (t l) = true → ¬ InFront t q l

theorem InFront.mono {t : Fin n → α} {q : α → Bool} {j l : Fin n} (h : InFront t q j)
    (hle : j ≤ l) : InFront t q l := by
  obtain ⟨i, hi, hq⟩ := h
  exact ⟨i, lt_of_lt_of_le hi hle, hq⟩

/-- There is one no later than any entry with `p` behind one with `q`. -/
theorem exists_firstBehind {t : Fin n → α} {q p : α → Bool} {j : Fin n} (hp : p (t j) = true)
    (h : InFront t q j) : ∃ l ≤ j, FirstBehind t q p l := by
  obtain ⟨l, ⟨hpl, hql⟩, hmin⟩ := wellFounded_lt.has_min
    {l : Fin n | p (t l) = true ∧ InFront t q l} ⟨j, hp, h⟩
  exact ⟨l, not_lt.mp (hmin j ⟨hp, h⟩), hpl, hql, fun i hi hpi hqi => hmin i ⟨hpi, hqi⟩ hi⟩

theorem FirstBehind.unique {t : Fin n → α} {q p : α → Bool} {j l : Fin n}
    (h : FirstBehind t q p j) (h' : FirstBehind t q p l) : j = l := by
  rcases lt_trichotomy j l with hlt | heq | hlt
  · exact absurd h.behind (h'.first j hlt h.pred)
  · exact heq
  · exact absurd h'.behind (h.first l hlt h'.pred)

/-- It is where a search for `p` ends that begins behind the first entry with `q`. -/
theorem firstFrom_first_iff {t : Fin n → α} {q p : α → Bool} {j : Fin n} :
    (first t q).bind (fun i => firstFrom t p (i.val + 1)) = some j ↔ FirstBehind t q p j := by
  constructor
  · intro h
    obtain ⟨i, hi, h⟩ := Option.bind_eq_some_iff.mp h
    obtain ⟨hq, hmin⟩ := first_eq_some_iff.mp hi
    obtain ⟨hp, hij, hlt⟩ := firstFrom_eq_some_iff.mp h
    refine ⟨hp, ⟨i, Fin.lt_def.mpr hij, hq⟩, ?_⟩
    rintro l hl hpl ⟨i', hi'l, hq'⟩
    -- the first entry with `q` is no later than the one in front of `l`
    have hle : i ≤ i' := by
      by_contra hgt
      rw [hmin i' (not_le.mp hgt)] at hq'
      cases hq'
    rw [hlt l hl (Nat.succ_le_of_lt (Fin.lt_def.mp (lt_of_le_of_lt hle hi'l)))] at hpl
    cases hpl
  · rintro ⟨hp, ⟨i', hi'j, hq'⟩, hmin⟩
    obtain ⟨i, hi⟩ := Option.isSome_iff_exists.mp (first_isSome_of hq')
    obtain ⟨hq, hfirst⟩ := first_eq_some_iff.mp hi
    have hle : i ≤ i' := by
      by_contra hgt
      rw [hfirst i' (not_le.mp hgt)] at hq'
      cases hq'
    refine Option.bind_eq_some_iff.mpr ⟨i, hi, firstFrom_eq_some_iff.mpr ⟨hp, ?_, ?_⟩⟩
    · exact Nat.succ_le_of_lt (Fin.lt_def.mp (lt_of_le_of_lt hle hi'j))
    · intro l hl hil
      by_contra hpl
      exact hmin l hl (Bool.eq_true_of_not_eq_false hpl) ⟨i, Fin.lt_def.mpr hil, hq⟩

/-- In a list without duplicates: behind an entry that satisfies `p`, the next one that does is
its neighbour among all that do. -/
theorem find?_drop_succ {γ : Type} {p : γ → Bool} : ∀ {l : List γ} {k j : Nat} {a : γ}, l.Nodup →
    l[k]? = some a → (l.filter p)[j]? = some a → (l.drop (k + 1)).find? p = (l.filter p)[j + 1]?
  | [], _, _, _, _, h, _ => by simp at h
  | b :: l, 0, j, a, hnodup, h, hj => by
      obtain rfl : b = a := by simpa using h
      obtain ⟨hb, hl⟩ := List.nodup_cons.mp hnodup
      have hpb : p b = true := (List.mem_filter.mp (List.mem_of_getElem? hj)).2
      rw [List.filter_cons_of_pos hpb] at hj ⊢
      cases j with
      | zero =>
          rw [List.getElem?_cons_succ, ← List.head?_eq_getElem?, List.head?_filter]
          rfl
      | succ j =>
          rw [List.getElem?_cons_succ] at hj
          exact absurd (List.mem_filter.mp (List.mem_of_getElem? hj)).1 hb
  | b :: l, k + 1, j, a, hnodup, h, hj => by
      obtain ⟨hb, hl⟩ := List.nodup_cons.mp hnodup
      rw [List.getElem?_cons_succ] at h
      rw [List.drop_succ_cons]
      cases hpb : p b with
      | false =>
          have hneg : ¬ p b = true := by rw [hpb]; exact Bool.false_ne_true
          rw [List.filter_cons_of_neg hneg] at hj ⊢
          exact find?_drop_succ hl h hj
      | true =>
          rw [List.filter_cons_of_pos hpb] at hj ⊢
          cases j with
          | zero =>
              obtain rfl : b = a := by simpa using hj
              exact absurd (List.mem_of_getElem? h) hb
          | succ j =>
              rw [List.getElem?_cons_succ] at hj ⊢
              exact find?_drop_succ hl h hj

/-- The indices whose entries satisfy `p`, in order. -/
def indices (t : Fin n → α) (p : α → Bool) : List (Fin n) :=
  (List.finRange n).filter (fun i => p (t i))

theorem mem_indices {t : Fin n → α} {p : α → Bool} {i : Fin n} :
    i ∈ indices t p ↔ p (t i) = true := by
  simp [indices]

theorem indices_pairwise (t : Fin n → α) (p : α → Bool) : (indices t p).Pairwise (· < ·) :=
  (List.pairwise_lt_finRange n).filter _

/-- The indices in front of the first one that `q` fails. -/
theorem mem_takeWhile_iff {q : Fin n → Bool} {i : Fin n} : ∀ {l : List (Fin n)},
    l.Pairwise (· < ·) → (i ∈ l.takeWhile q ↔ i ∈ l ∧ ∀ k ∈ l, k ≤ i → q k = true)
  | [], _ => iff_of_false List.not_mem_nil (fun h => List.not_mem_nil h.1)
  | j :: l, h => by
      obtain ⟨hj, hl⟩ := List.pairwise_cons.mp h
      rw [List.takeWhile_cons, List.forall_mem_cons]
      split
      · rename_i hq
        rw [List.mem_cons, List.mem_cons, mem_takeWhile_iff hl]
        constructor
        · rintro (rfl | ⟨hmem, hall⟩)
          · exact ⟨.inl rfl, fun _ => hq, fun k hk hle => absurd (hj k hk) (not_lt.mpr hle)⟩
          · exact ⟨.inr hmem, fun _ => hq, hall⟩
        · rintro ⟨rfl | hmem, -, hall⟩
          · exact .inl rfl
          · exact .inr ⟨hmem, hall⟩
      · rename_i hq
        refine iff_of_false List.not_mem_nil ?_
        rintro ⟨hmem, hhead, -⟩
        rcases List.mem_cons.mp hmem with rfl | hmem
        · exact hq (hhead le_rfl)
        · exact hq (hhead (hj i hmem).le)

theorem first_eq_indices (t : Fin n → α) (p : α → Bool) : first t p = (indices t p)[0]? := by
  rw [indices, ← List.head?_eq_getElem?, List.head?_filter]
  rfl

theorem pred_of_indices {t : Fin n → α} {p : α → Bool} {i : Fin n} {j : Nat}
    (h : (indices t p)[j]? = some i) : p (t i) = true :=
  mem_indices.mp (List.mem_of_getElem? h)

/-- From behind an entry that satisfies `p`, the search ends at the next one. -/
theorem firstFrom_eq_indices {t : Fin n → α} {p : α → Bool} {i : Fin n} {j : Nat}
    (h : (indices t p)[j]? = some i) : firstFrom t p (i.val + 1) = (indices t p)[j + 1]? := by
  have hi : (List.finRange n)[i.val]? = some i := by simp
  exact find?_drop_succ (List.nodup_finRange n) hi h

/-- From `start` on, the search finds the slots of a list one after the other, each time going
on behind the last one, and then no more. -/
def Ahead (t : Fin n → α) (p : α → Bool) : Nat → List (Fin n) → Prop
  | start, [] => firstFrom t p start = none
  | start, i :: l => firstFrom t p start = some i ∧ Ahead t p (i.val + 1) l

theorem ahead_drop_indices {t : Fin n → α} {p : α → Bool} : ∀ (l : List (Fin n)) {start j : Nat},
    l = (indices t p).drop j → firstFrom t p start = (indices t p)[j]? → Ahead t p start l
  | [], start, j, hl, hfirst => by
      rw [List.getElem?_eq_none (List.drop_eq_nil_iff.mp hl.symm)] at hfirst
      exact hfirst
  | i :: l, start, j, hl, hfirst => by
      have hj : (indices t p)[j]? = some i := by
        rw [← List.head?_drop, ← hl]
        rfl
      have hrest : l = (indices t p).drop (j + 1) := by
        rw [← List.tail_drop, ← hl]
        rfl
      exact ⟨hfirst.trans hj, ahead_drop_indices l hrest (firstFrom_eq_indices hj)⟩

/-- From the start, it finds every index whose entry satisfies `p`. -/
theorem ahead_indices (t : Fin n → α) (p : α → Bool) : Ahead t p 0 (indices t p) :=
  ahead_drop_indices _ (by rw [List.drop_zero])
    (by rw [← first_eq_indices, firstFrom, List.drop_zero]; rfl)

/-- The last slot comes last. -/
theorem indices_succ (t : Fin (n + 1) → α) (p : α → Bool) :
    indices t p = ((List.finRange n).map Fin.castSucc).filter (fun i => p (t i)) ++
      if p (t (Fin.last n)) then [Fin.last n] else [] := by
  rw [indices, List.finRange_succ_last, List.filter_append, List.filter_singleton,
    Bool.cond_eq_ite]

/-- The entry the search ends at. -/
def lookup (t : Fin n → α) (p : α → Bool) : Option α := (first t p).map t

theorem lookup_eq_some {t : Fin n → α} {p : α → Bool} {i : Fin n} (h : first t p = some i) :
    lookup t p = some (t i) := by
  simp [lookup, h]

/-- The only entry the look-up accepts is found. -/
theorem lookup_update_of_none {t : Fin n → α} {p : α → Bool} {i : Fin n} {a : α}
    (h : first t p = none) (ha : p a = true) : lookup (Function.update t i a) p = some a := by
  rw [lookup_eq_some (first_update_of_none h ha), Function.update_self]

theorem lookup_eq_none_iff {t : Fin n → α} {p : α → Bool} :
    lookup t p = none ↔ first t p = none := by
  simp [lookup]

/-- The entries that satisfy `q` are enough to look up what `p` accepts. -/
theorem find?_indices {t : Fin n → α} {p q : α → Bool} (h : ∀ a, p a = true → q a = true) :
    ((indices t q).map t).find? p = lookup t p := by
  rw [List.find?_map, indices, List.find?_filter, lookup, first]
  congr 2
  funext i
  cases hp : p (t i) with
  | false => simp [hp]
  | true => simp [hp, h _ hp]

/-! ## The frame relation -/

/-- Every slot keeps its entry, or a `P`-entry was replaced by a `P`-entry. -/
def AgreeOff (P : α → Prop) (t t' : Fin n → α) : Prop :=
  ∀ i, t' i = t i ∨ (P (t i) ∧ P (t' i))

namespace AgreeOff

variable {P Q : α → Prop} {t t' t'' : Fin n → α}

theorem refl (P : α → Prop) (t : Fin n → α) : AgreeOff P t t := fun _ => Or.inl rfl

theorem trans (h : AgreeOff P t t') (h' : AgreeOff P t' t'') : AgreeOff P t t'' := by
  intro i
  rcases h i with he | ⟨h1, h2⟩
  · rcases h' i with he' | ⟨h1', h2'⟩
    · exact Or.inl (he'.trans he)
    · exact Or.inr ⟨he ▸ h1', h2'⟩
  · rcases h' i with he' | ⟨_, h2'⟩
    · exact Or.inr ⟨h1, he'.symm ▸ h2⟩
    · exact Or.inr ⟨h1, h2'⟩

theorem symm (h : AgreeOff P t t') : AgreeOff P t' t :=
  fun i => (h i).imp Eq.symm And.symm

theorem mono (hPQ : ∀ a, P a → Q a) (h : AgreeOff P t t') : AgreeOff Q t t' :=
  fun i => (h i).imp id (fun ⟨h1, h2⟩ => ⟨hPQ _ h1, hPQ _ h2⟩)

theorem update {i : Fin n} {a : α} (h1 : P (t i)) (h2 : P a) :
    AgreeOff P t (Function.update t i a) := by
  intro j
  by_cases hj : j = i
  · subst hj
    exact Or.inr ⟨h1, by simpa using h2⟩
  · exact Or.inl (Function.update_of_ne hj _ _)

/-- An entry that is not a `P`-entry is still in its slot. -/
theorem eq_of_not (h : AgreeOff P t t') {i : Fin n} (hi : ¬ P (t i)) : t' i = t i :=
  (h i).resolve_right (fun hp => hi hp.1)

theorem first_eq (h : AgreeOff P t t') {p : α → Bool} (hp : ∀ a, P a → p a = false) :
    first t' p = first t p := by
  refine first_congr (fun i => ?_)
  rcases h i with he | ⟨h1, h2⟩
  · rw [he]
  · rw [hp _ h1, hp _ h2]

theorem lookup_eq (h : AgreeOff P t t') {p : α → Bool} (hp : ∀ a, P a → p a = false) :
    lookup t' p = lookup t p := by
  rw [lookup, lookup, first_eq h hp]
  cases hf : first t p with
  | none => rfl
  | some i =>
      have hi : ¬ P (t i) := fun hP => by
        have := first_pred hf
        rw [hp _ hP] at this
        cases this
      simp [h.eq_of_not hi]

end AgreeOff

/-! ## Tables without duplicates -/

/-- No two entries that satisfy `occ` have the same key. -/
def Distinct (occ : α → Prop) (key : α → β) (t : Fin n → α) : Prop :=
  ∀ i j, occ (t i) → occ (t j) → key (t i) = key (t j) → i = j

/-- Writing an entry whose key no other slot holds. -/
theorem Distinct.update {occ : α → Prop} {key : α → β} {t : Fin n → α}
    (h : Distinct occ key t) {i : Fin n} {a : α}
    (ha : occ a → ∀ j, j ≠ i → occ (t j) → key (t j) ≠ key a) :
    Distinct occ key (Function.update t i a) := by
  intro j j' hj hj' hkey
  by_cases hji : j = i
  · subst hji
    by_contra hne
    rw [Function.update_self] at hj hkey
    rw [Function.update_of_ne (Ne.symm hne)] at hj' hkey
    exact ha hj j' (Ne.symm hne) hj' hkey.symm
  · rw [Function.update_of_ne hji] at hj hkey
    by_cases hji' : j' = i
    · subst hji'
      rw [Function.update_self] at hj' hkey
      exact absurd hkey (ha hj' j hji hj)
    · rw [Function.update_of_ne hji'] at hj' hkey
      exact h j j' hj hj' hkey

/-! ## How many -/

/-- The number of entries that satisfy `p`. -/
def count (t : Fin n → α) (p : α → Bool) : Nat :=
  (Finset.univ.filter (fun i => p (t i) = true)).card

theorem count_le (t : Fin n → α) (p : α → Bool) : count t p ≤ n := by
  have h := Finset.card_filter_le (Finset.univ : Finset (Fin n)) (fun i => p (t i) = true)
  rwa [Finset.card_univ, Fintype.card_fin] at h

theorem count_eq_zero_iff {t : Fin n → α} {p : α → Bool} :
    count t p = 0 ↔ ∀ i, p (t i) = false := by
  simp [count, Finset.filter_eq_empty_iff]

theorem count_eq_of_forall {t : Fin n → α} {p : α → Bool} (h : ∀ i, p (t i) = true) :
    count t p = n := by
  rw [count, Finset.filter_true_of_mem (fun i _ => h i), Finset.card_univ, Fintype.card_fin]

/-- The entry that is replaced no longer counts, and the new one does. -/
theorem count_update (t : Fin n → α) (p : α → Bool) (i : Fin n) (a : α) :
    count (Function.update t i a) p + (p (t i)).toNat = count t p + (p a).toNat := by
  -- the entries off `i`, which both tables share
  have hsplit : ∀ t' : Fin n → α, (∀ j, j ≠ i → t' j = t j) → count t' p =
      ((Finset.univ.erase i).filter (fun j => p (t j) = true)).card + (p (t' i)).toNat := by
    intro t' ht'
    have hrest : (Finset.univ.erase i).filter (fun j => p (t' j) = true) =
        (Finset.univ.erase i).filter (fun j => p (t j) = true) := by
      refine Finset.filter_congr (fun j hj => ?_)
      rw [ht' j (Finset.ne_of_mem_erase hj)]
    have hnot : i ∉ (Finset.univ.erase i).filter (fun j => p (t' j) = true) := by
      intro hi
      exact Finset.notMem_erase i _ (Finset.mem_of_mem_filter i hi)
    have hset : Finset.univ.filter (fun j => p (t' j) = true) = if p (t' i) = true then
        insert i ((Finset.univ.erase i).filter (fun j => p (t' j) = true))
        else (Finset.univ.erase i).filter (fun j => p (t' j) = true) := by
      have hins := Finset.filter_insert (fun j => p (t' j) = true) i (Finset.univ.erase i)
      rwa [Finset.insert_erase (Finset.mem_univ i)] at hins
    rw [count, hset, ← hrest]
    cases hp : p (t' i) with
    | false => rfl
    | true =>
        rw [if_pos rfl, Finset.card_insert_of_notMem hnot]
        rfl
  rw [hsplit (Function.update t i a) (fun j hj => Function.update_of_ne hj _ _),
    hsplit t (fun _ _ => rfl), Function.update_self]
  omega

/-- A table with an entry that does not satisfy `p` is not full of them. -/
theorem count_lt {t : Fin n → α} {p : α → Bool} {i : Fin n} (h : p (t i) = false) :
    count t p < n := by
  have hi : i ∉ Finset.univ.filter (fun i => p (t i) = true) := by
    intro hi
    rw [(Finset.mem_filter.mp hi).2] at h
    cases h
  have hlt := Finset.card_lt_univ_of_notMem hi
  rwa [Fintype.card_fin] at hlt

end Uefistored.Lib.Slots
