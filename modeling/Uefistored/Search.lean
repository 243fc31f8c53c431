/-
# `Uefistored.Search` — searches through stored lists

`verify_kek` and `FilterSignatureList` go through lists that have been stored
before, list after list and in each list entry after entry, until they find what
they look for.  Their loops are alike: what differs is which lists they look
into and what they do with an entry.  `Query` is that difference, `searchTurn`
one turn of the loop, and the two functions are the iteration of the turn:

    `entryKnown_eq_loop`, `kekLists_eq_loop`

A search has a result exactly if it comes to no fault (`search_isSome_iff`): a
size, a header or an entry that is not there, entries of size zero, or a list of
size zero in which nothing is found.  From there `FilterSignatureList` as a
whole (`filterSignatureList_isSome_iff`) and `cert_equals_esl`
(`certEqualsEsl_isSome_iff`).
-/
import Uefistored.Filter
import Uefistored.Inside
import Uefistored.Lib.Loop

namespace Uefistored

open Lib SigList

/-! ## Entries -/

/-- Entries tried one after the other.  `test` reads outside, finds that the entry is none,
or says whether it is the one. -/
def tryEntries (test : Nat → Option (Option Bool)) (ssz : Nat) : Nat → Nat → Option Bool
  | 0, _ => some false
  | count + 1, pos =>
    match test pos with
    | none => none
    | some none => some false
    | some (some true) => some true
    | some (some false) => tryEntries test ssz count (pos + ssz)

/-- The search comes to entry `j`: those in front of it are others. -/
def ComesTo (test : Nat → Option (Option Bool)) (ssz pos j : Nat) : Prop :=
  ∀ i < j, test (pos + i * ssz) = some (some false)

section
variable {test : Nat → Option (Option Bool)} {ssz : Nat}

theorem comesTo_zero (pos : Nat) : ComesTo test ssz pos 0 := fun _ h => absurd h (Nat.not_lt_zero _)

theorem comesTo_succ_iff {pos j : Nat} : ComesTo test ssz pos (j + 1) ↔
    test pos = some (some false) ∧ ComesTo test ssz (pos + ssz) j := by
  have hshift : ∀ i, pos + (i + 1) * ssz = pos + ssz + i * ssz := by
    intro i
    rw [Nat.succ_mul]
    omega
  constructor
  · intro h
    have hfirst := h 0 (Nat.succ_pos j)
    rw [Nat.zero_mul, Nat.add_zero] at hfirst
    refine ⟨hfirst, ?_⟩
    intro i hi
    rw [← hshift]
    exact h (i + 1) (Nat.succ_lt_succ hi)
  · rintro ⟨hfirst, hrest⟩ i hi
    cases i with
    | zero => rwa [Nat.zero_mul, Nat.add_zero]
    | succ i =>
        rw [hshift]
        exact hrest i (Nat.lt_of_succ_lt_succ hi)

/-- What holds of the entry a search comes to: of the first, or of one behind it. -/
theorem exists_comesTo_succ {count pos : Nat} {r : Option (Option Bool)} :
    (∃ j < count + 1, ComesTo test ssz pos j ∧ test (pos + j * ssz) = r) ↔
      test pos = r ∨ test pos = some (some false) ∧
        ∃ j < count, ComesTo test ssz (pos + ssz) j ∧ test (pos + ssz + j * ssz) = r := by
  have hshift : ∀ i, pos + (i + 1) * ssz = pos + ssz + i * ssz := by
    intro i
    rw [Nat.succ_mul]
    omega
  constructor
  · rintro ⟨j, hj, hcomes, hr⟩
    cases j with
    | zero =>
        rw [Nat.zero_mul, Nat.add_zero] at hr
        exact .inl hr
    | succ j =>
        obtain ⟨hfirst, hcomes⟩ := comesTo_succ_iff.mp hcomes
        rw [hshift] at hr
        exact .inr ⟨hfirst, j, Nat.lt_of_succ_lt_succ hj, hcomes, hr⟩
  · rintro (hr | ⟨hfirst, j, hj, hcomes, hr⟩)
    · refine ⟨0, Nat.succ_pos count, comesTo_zero pos, ?_⟩
      rwa [Nat.zero_mul, Nat.add_zero]
    · refine ⟨j + 1, Nat.succ_lt_succ hj, comesTo_succ_iff.mpr ⟨hfirst, hcomes⟩, ?_⟩
      rwa [hshift]

theorem tryEntries_eq_none_iff : ∀ {count pos : Nat}, tryEntries test ssz count pos = none ↔
    ∃ j < count, ComesTo test ssz pos j ∧ test (pos + j * ssz) = none
  | 0, _ => iff_of_false nofun (fun ⟨_, h, _⟩ => absurd h (Nat.not_lt_zero _))
  | count + 1, pos => by
      rw [exists_comesTo_succ, ← tryEntries_eq_none_iff, tryEntries]
      match test pos with
      | none => simp
      | some none => simp
      | some (some true) => simp
      | some (some false) => simp

theorem tryEntries_eq_true_iff : ∀ {count pos : Nat}, tryEntries test ssz count pos = some true ↔
    ∃ j < count, ComesTo test ssz pos j ∧ test (pos + j * ssz) = some (some true)
  | 0, _ => iff_of_false nofun (fun ⟨_, h, _⟩ => absurd h (Nat.not_lt_zero _))
  | count + 1, pos => by
      rw [exists_comesTo_succ, ← tryEntries_eq_true_iff, tryEntries]
      match test pos with
      | none => simp
      | some none => simp
      | some (some true) => simp
      | some (some false) => simp

end

/-! ## Lists -/

/-- What is looked for: lists of one type, where it matters with entries of one size, and what
to do with an entry of size `ssz` at a position. -/
structure Query where
  type : Guid
  size : Option Nat
  test : (ssz pos : Nat) → Option (Option Bool)

/-- The entries are of the size that is looked for. -/
def Query.takes (q : Query) (ssz : Nat) : Bool := q.size.all (· == ssz)

/-- One list, once its size is read. -/
def Query.look (q : Query) (b : Buffer) (pos lsz : Nat) : Option Bool :=
  match signatureType b pos with
  | none => none
  | some ty =>
    if ty ≠ q.type then some false
    else
      match headerSize b pos, signatureSize b pos with
      | some hsz, some ssz =>
        if !q.takes ssz then some false
        else if ssz = 0 then none
        else tryEntries (q.test ssz) ssz (bodySize lsz hsz / ssz) (pos + ESL_SIZE + hsz)
      | _, _ => none

/-- One turn of a search. -/
def searchTurn (q : Query) (b : Buffer) (s : WalkState) : Turn WalkState Bool :=
  if s.left = 0 then .stop false
  else
    match signatureListSize b s.pos with
    | none => .fault
    | some lsz =>
      if s.left < lsz then .stop false
      else
        match q.look b s.pos lsz with
        | none => .fault
        | some true => .stop true
        | some false => if lsz = 0 then .fault else .next ⟨s.pos + lsz, s.left - lsz⟩

/-- A list that is looked into: its type and size are the ones asked for. -/
structure Looked (q : Query) (b : Buffer) (pos hsz ssz : Nat) : Prop where
  type_eq : signatureType b pos = some q.type
  headerSize_eq : headerSize b pos = some hsz
  signatureSize_eq : signatureSize b pos = some ssz
  takes : q.takes ssz = true

/-- What is looked for is in the list, and comes before anything else. -/
def FoundIn (q : Query) (b : Buffer) (pos lsz : Nat) : Prop :=
  ∃ hsz ssz, Looked q b pos hsz ssz ∧ ssz ≠ 0 ∧ ∃ j < bodySize lsz hsz / ssz,
    ComesTo (q.test ssz) ssz (pos + ESL_SIZE + hsz) j ∧
      q.test ssz (pos + ESL_SIZE + hsz + j * ssz) = some (some true)

/-- A list a search does not get past: its size or its header is not there, its entries have no
bytes, an entry it comes to is not there, or it says it has no bytes and nothing is found. -/
inductive SearchFault (q : Query) (b : Buffer) (s : WalkState) : Prop
  | listSize : b.size < s.pos + 20 → SearchFault q b s
  | header {lsz : Nat} : signatureListSize b s.pos = some lsz → lsz ≤ s.left →
      signatureType b s.pos = some q.type → b.size < s.pos + ESL_SIZE → SearchFault q b s
  | noBytes {lsz hsz : Nat} : signatureListSize b s.pos = some lsz → lsz ≤ s.left →
      Looked q b s.pos hsz 0 → SearchFault q b s
  | entry {lsz hsz ssz j : Nat} : signatureListSize b s.pos = some lsz → lsz ≤ s.left →
      Looked q b s.pos hsz ssz → ssz ≠ 0 → j < bodySize lsz hsz / ssz →
      ComesTo (q.test ssz) ssz (s.pos + ESL_SIZE + hsz) j →
      q.test ssz (s.pos + ESL_SIZE + hsz + j * ssz) = none → SearchFault q b s
  | endless : signatureListSize b s.pos = some 0 → ¬ FoundIn q b s.pos 0 → SearchFault q b s

/-- A search through `n` bytes of lists reads inside them, and ends. -/
def SearchInside (q : Query) (b : Buffer) (n : Nat) : Prop :=
  ∀ s, Comes (searchTurn q b) ⟨0, n⟩ s → s.left ≠ 0 → ¬ SearchFault q b s

section
variable {q : Query} {b : Buffer} {pos lsz : Nat}

theorem Looked.unique {hsz ssz hsz' ssz' : Nat} (h : Looked q b pos hsz ssz)
    (h' : Looked q b pos hsz' ssz') : hsz' = hsz ∧ ssz' = ssz :=
  ⟨Option.some.inj (h'.headerSize_eq.symm.trans h.headerSize_eq),
    Option.some.inj (h'.signatureSize_eq.symm.trans h.signatureSize_eq)⟩

/-- Everything a look into a list comes to. -/
theorem look_cases (q : Query) (lsz : Nat) (h20 : pos + 20 ≤ b.size) :
    (¬ (∃ hsz ssz, Looked q b pos hsz ssz) ∧ (signatureType b pos = some q.type →
        pos + ESL_SIZE ≤ b.size) ∧ q.look b pos lsz = some false) ∨
      (signatureType b pos = some q.type ∧ b.size < pos + ESL_SIZE ∧ q.look b pos lsz = none) ∨
      ∃ hsz ssz, Looked q b pos hsz ssz ∧ q.look b pos lsz =
        if ssz = 0 then none
        else tryEntries (q.test ssz) ssz (bodySize lsz hsz / ssz) (pos + ESL_SIZE + hsz) := by
  obtain ⟨ty, hty⟩ := signatureType_isSome (show pos + 16 ≤ b.size by omega)
  unfold Query.look
  rw [hty]
  dsimp only
  by_cases htype : ty = q.type
  · subst htype
    rw [if_neg (not_not.mpr rfl)]
    by_cases h28 : pos + ESL_SIZE ≤ b.size
    · have h28' : pos + 28 ≤ b.size := h28
      obtain ⟨hsz, hhsz⟩ := headerSize_isSome (show pos + 24 ≤ b.size by omega)
      obtain ⟨ssz, hssz⟩ : ∃ ssz, signatureSize b pos = some ssz := Buffer.num_isSome h28
      rw [hhsz, hssz]
      dsimp only
      cases htakes : q.takes ssz with
      | true =>
          rw [if_neg (show ¬ (!true) = true by decide)]
          exact .inr (.inr ⟨hsz, ssz, ⟨hty, hhsz, hssz, htakes⟩, rfl⟩)
      | false =>
          refine .inl ⟨?_, fun _ => h28, rfl⟩
          rintro ⟨hsz', ssz', hl⟩
          obtain rfl := Option.some.inj (hssz.symm.trans hl.signatureSize_eq)
          rw [hl.takes] at htakes
          cases htakes
    · have hpast := Nat.not_le.mp h28
      refine .inr (.inl ⟨rfl, hpast, ?_⟩)
      rw [signatureSize_eq_none_iff.mpr hpast]
      cases headerSize b pos with
      | none => rfl
      | some hsz => rfl
  · rw [if_pos htype]
    refine .inl ⟨?_, fun h => absurd (Option.some.inj h) htype, rfl⟩
    rintro ⟨hsz, ssz, hl⟩
    exact htype (Option.some.inj (hty.symm.trans hl.type_eq))

theorem look_eq_true_iff (h20 : pos + 20 ≤ b.size) :
    q.look b pos lsz = some true ↔ FoundIn q b pos lsz := by
  unfold FoundIn
  rcases look_cases q lsz h20 with ⟨hno, _, heq⟩ | ⟨_, hpast, heq⟩ | ⟨hsz, ssz, hl, heq⟩
  · rw [heq]
    exact iff_of_false nofun (fun ⟨hsz, ssz, hl, _⟩ => hno ⟨hsz, ssz, hl⟩)
  · rw [heq]
    refine iff_of_false nofun ?_
    rintro ⟨hsz, ssz, hl, _⟩
    exact absurd (signatureSize_le hl.signatureSize_eq) (Nat.not_le.mpr hpast)
  · rw [heq]
    constructor
    · intro h
      split at h
      · cases h
      · rename_i h0
        exact ⟨hsz, ssz, hl, h0, tryEntries_eq_true_iff.mp h⟩
    · rintro ⟨hsz', ssz', hl', h0, hj⟩
      obtain ⟨rfl, rfl⟩ := hl.unique hl'
      rw [if_neg h0]
      exact tryEntries_eq_true_iff.mpr hj

theorem look_eq_none_iff (h20 : pos + 20 ≤ b.size) : q.look b pos lsz = none ↔
    signatureType b pos = some q.type ∧ b.size < pos + ESL_SIZE ∨
      ∃ hsz ssz, Looked q b pos hsz ssz ∧ (ssz = 0 ∨ ∃ j < bodySize lsz hsz / ssz,
        ComesTo (q.test ssz) ssz (pos + ESL_SIZE + hsz) j ∧
          q.test ssz (pos + ESL_SIZE + hsz + j * ssz) = none) := by
  rcases look_cases q lsz h20 with ⟨hno, hin, heq⟩ | ⟨hty, hpast, heq⟩ | ⟨hsz, ssz, hl, heq⟩
  · rw [heq]
    refine iff_of_false (Option.some_ne_none _) ?_
    rintro (⟨hty, hpast⟩ | ⟨hsz, ssz, hl, _⟩)
    · exact absurd (hin hty) (Nat.not_le.mpr hpast)
    · exact hno ⟨hsz, ssz, hl⟩
  · exact iff_of_true heq (.inl ⟨hty, hpast⟩)
  · rw [heq]
    constructor
    · intro h
      refine .inr ⟨hsz, ssz, hl, ?_⟩
      split at h
      · rename_i hz
        exact .inl hz
      · exact .inr (tryEntries_eq_none_iff.mp h)
    · rintro (⟨_, hpast⟩ | ⟨hsz', ssz', hl', hcase⟩)
      · exact absurd (signatureSize_le hl.signatureSize_eq) (Nat.not_le.mpr hpast)
      · obtain ⟨rfl, rfl⟩ := hl.unique hl'
        split
        · rfl
        · rename_i hz
          exact tryEntries_eq_none_iff.mpr (hcase.resolve_left hz)

/-- What is a fault at a list whose size is there: looking at it, or that it has no bytes and
nothing is found in it. -/
theorem searchFault_iff {s : WalkState} (hlsz : signatureListSize b s.pos = some lsz) :
    SearchFault q b s ↔ lsz ≤ s.left ∧
      (q.look b s.pos lsz = none ∨ lsz = 0 ∧ ¬ FoundIn q b s.pos 0) := by
  have h20 := signatureListSize_le hlsz
  rw [look_eq_none_iff h20]
  constructor
  · intro h
    cases h with
    | listSize hlt => omega
    | header hlsz' hle hty hpast =>
        cases hlsz.symm.trans hlsz'
        exact ⟨hle, .inl (.inl ⟨hty, hpast⟩)⟩
    | noBytes hlsz' hle hl =>
        cases hlsz.symm.trans hlsz'
        exact ⟨hle, .inl (.inr ⟨_, _, hl, .inl rfl⟩)⟩
    | entry hlsz' hle hl _ hj hcomes hout =>
        cases hlsz.symm.trans hlsz'
        exact ⟨hle, .inl (.inr ⟨_, _, hl, .inr ⟨_, hj, hcomes, hout⟩⟩)⟩
    | endless hlsz' hno =>
        cases hlsz.symm.trans hlsz'
        exact ⟨Nat.zero_le _, .inr ⟨rfl, hno⟩⟩
  · rintro ⟨hle, (⟨hty, hpast⟩ | ⟨hsz, ssz, hl, hcase⟩) | ⟨rfl, hno⟩⟩
    · exact .header hlsz hle hty hpast
    · by_cases hz : ssz = 0
      · exact .noBytes hlsz hle (hz ▸ hl)
      · obtain ⟨j, hj, hcomes, hout⟩ := hcase.resolve_left hz
        exact .entry hlsz hle hl hz hj hcomes hout
    · exact .endless hlsz hno

theorem searchTurn_fault_iff {s : WalkState} :
    searchTurn q b s = .fault ↔ s.left ≠ 0 ∧ SearchFault q b s := by
  unfold searchTurn
  split
  · rename_i h0
    exact iff_of_false nofun (fun h => h.1 h0)
  rename_i h0
  rw [and_iff_right h0]
  cases hlsz : signatureListSize b s.pos with
  | none => exact iff_of_true rfl (.listSize (signatureListSize_eq_none_iff.mp hlsz))
  | some lsz =>
      have h20 := signatureListSize_le hlsz
      rw [searchFault_iff hlsz]
      dsimp only
      by_cases hle : s.left < lsz
      · rw [if_pos hle]
        exact iff_of_false nofun (fun h => absurd h.1 (Nat.not_le.mpr hle))
      rw [if_neg hle, and_iff_right (Nat.not_lt.mp hle)]
      cases hlook : q.look b s.pos lsz with
      | none => exact iff_of_true rfl (.inl rfl)
      | some found =>
          rw [or_iff_right (Option.some_ne_none found)]
          have hfound := (look_eq_true_iff h20).symm.trans (by rw [hlook, Option.some.injEq])
          cases found with
          | true =>
              refine iff_of_false nofun ?_
              rintro ⟨rfl, hno⟩
              exact hno (hfound.mpr rfl)
          | false =>
              dsimp only
              split
              · rename_i hz
                subst hz
                exact iff_of_true rfl ⟨rfl, fun h => Bool.false_ne_true (hfound.mp h)⟩
              · rename_i hz
                exact iff_of_false nofun (fun h => hz h.1)

/-- A list that is passed has at least one byte. -/
theorem searchTurn_next {s s' : WalkState} (h : searchTurn q b s = .next s') :
    s'.left < s.left := by
  unfold searchTurn at h
  split at h
  · cases h
  rename_i h0
  split at h
  · cases h
  split at h
  · cases h
  rename_i lsz _ hle
  split at h
  · cases h
  · cases h
  split at h
  · cases h
  rename_i hlsz
  cases h
  show s.left - lsz < s.left
  omega

/-- **A search has a result exactly if it comes to no fault.** -/
theorem search_isSome_iff {n : Nat} :
    (loop (searchTurn q b) (n + 1) ⟨0, n⟩).isSome ↔ SearchInside q b n := by
  rw [loop_isSome_iff (μ := WalkState.left) (fun _ _ => searchTurn_next) (n + 1) ⟨0, n⟩
    (Nat.lt_succ_self n)]
  unfold SearchInside
  refine forall_congr' fun s => forall_congr' fun _ => ?_
  rw [ne_eq, searchTurn_fault_iff, not_and]

end

/-- What a search does with one turn. -/
theorem loop_searchTurn {q : Query} {b : Buffer} {fuel pos left : Nat} :
    loop (searchTurn q b) (fuel + 1) ⟨pos, left⟩ =
      if left = 0 then some false
      else (signatureListSize b pos).bind fun lsz =>
        if left < lsz then some false
        else (q.look b pos lsz).bind fun found =>
          if found then some true
          else if lsz = 0 then none
          else loop (searchTurn q b) fuel ⟨pos + lsz, left - lsz⟩ := by
  rw [loop]
  generalize loop (searchTurn q b) fuel = next
  unfold searchTurn
  dsimp only
  by_cases h0 : left = 0
  · rw [if_pos h0, if_pos h0]
  rw [if_neg h0, if_neg h0]
  cases signatureListSize b pos with
  | none => rfl
  | some lsz =>
      dsimp only [Option.bind_some]
      by_cases hle : left < lsz
      · rw [if_pos hle, if_pos hle]
      rw [if_neg hle, if_neg hle]
      cases q.look b pos lsz with
      | none => rfl
      | some found =>
          cases found with
          | true => rfl
          | false =>
              dsimp only [Option.bind_some]
              by_cases hz : lsz = 0
              · rw [if_pos hz, if_neg Bool.false_ne_true, if_pos hz]
              · rw [if_neg hz, if_neg Bool.false_ne_true, if_neg hz]

/-! ## The two searches -/

/-- `FilterSignatureList` looks for an entry, in lists of its type and size. -/
def entryQuery (old : Buffer) (ty : Guid) (entry : List UInt8) : Query where
  type := ty
  size := some entry.length
  test := fun ssz pos => (old.slice pos ssz).map fun cert => some (cert == entry)

section
variable {old : Buffer} {ty : Guid} {entry : List UInt8}

theorem entryQuery_test {ssz pos : Nat} : (entryQuery old ty entry).test ssz pos =
    (old.slice pos ssz).map fun cert => some (cert == entry) := rfl

theorem entryAmong_eq_try {ssz : Nat} : ∀ {count pos : Nat}, entryAmong old entry ssz count pos =
    tryEntries ((entryQuery old ty entry).test ssz) ssz count pos
  | 0, _ => rfl
  | count + 1, pos => by
      rw [entryAmong, tryEntries, entryQuery_test, entryAmong_eq_try]
      cases old.slice pos ssz with
      | none => rfl
      | some cert =>
          simp only [Option.bind_eq_bind, Option.bind_some, Option.map_some]
          cases cert == entry with
          | true => rfl
          | false => rfl

theorem entryQuery_takes {ssz : Nat} :
    (entryQuery old ty entry).takes ssz = (ssz == entry.length) := by
  show (entry.length == ssz) = (ssz == entry.length)
  rw [Bool.eq_iff_iff, beq_iff_eq, beq_iff_eq, eq_comm]

theorem entryKnown_eq_loop : ∀ {fuel pos left : Nat}, entryKnown old ty entry fuel pos left =
    loop (searchTurn (entryQuery old ty entry) old) fuel ⟨pos, left⟩
  | 0, _, _ => rfl
  | fuel + 1, pos, left => by
      rw [entryKnown, loop_searchTurn]
      split
      · rfl
      refine bind_congr fun lsz => ?_
      split
      · rfl
      unfold Query.look
      cases signatureType old pos with
      | none => rfl
      | some oty =>
          rw [Option.bind_eq_bind, Option.bind_some]
          dsimp only
          rw [entryKnown_eq_loop]
          generalize loop (searchTurn (entryQuery old ty entry) old) fuel ⟨pos + lsz, left - lsz⟩ =
            rest
          by_cases hty : oty = ty
          · subst hty
            rw [if_neg (show ¬ oty ≠ (entryQuery old oty entry).type from not_not.mpr rfl)]
            simp only [beq_self_eq_true, if_true, Bool.true_and]
            cases hssz : signatureSize old pos with
            | none => cases headerSize old pos <;> rfl
            | some ssz =>
                have h28 : pos + 28 ≤ old.size := signatureSize_le hssz
                obtain ⟨hsz, hhsz⟩ := headerSize_isSome (show pos + 24 ≤ old.size by omega)
                rw [hhsz]
                simp only [Option.bind_eq_bind, Option.bind_some, entryQuery_takes, entryCount]
                cases ssz == entry.length with
                | false => rfl
                | true =>
                    rw [if_pos rfl, if_neg (show ¬ (!true) = true by decide)]
                    by_cases hz : ssz = 0
                    · rw [if_pos hz, if_pos hz]
                      rfl
                    · rw [if_neg hz, if_neg hz, Option.bind_some, entryAmong_eq_try]
                      rfl
          · rw [if_pos (show oty ≠ (entryQuery old ty entry).type from hty)]
            simp only [beq_eq_false_iff_ne.mpr hty]
            rfl

/-- The search for an entry returns exactly if it reads inside the lists and ends. -/
theorem entryKnown_isSome_iff {n : Nat} : (entryKnown old ty entry (n + 1) 0 n).isSome ↔
    SearchInside (entryQuery old ty entry) old n := by
  rw [entryKnown_eq_loop, search_isSome_iff]

end

section
variable {P X : Type}

/-- `verify_kek` looks for a certificate under which the message verifies, in X.509 lists. -/
def kekQuery (ssl : OpenSsl P X) (kek : Buffer) (pkcs7 : P) (msg : List UInt8) : Query where
  type := gEfiCertX509Guid
  size := none
  test := fun ssz pos => (d2iX509At ssl kek (pos + GUID_SIZE) (sub64 ssz GUID_SIZE)).map
    fun cert => cert.map (pkcs7Verify ssl pkcs7 · msg)

variable {ssl : OpenSsl P X} {kek : Buffer} {pkcs7 : P} {msg : List UInt8}

theorem kekQuery_test {ssz pos : Nat} : (kekQuery ssl kek pkcs7 msg).test ssz pos =
    (d2iX509At ssl kek (pos + GUID_SIZE) (sub64 ssz GUID_SIZE)).map
      fun cert => cert.map (pkcs7Verify ssl pkcs7 · msg) := rfl

/-- The entries behind one that does not parse are not tried: the loop stays at that one. -/
theorem kekEntries_eq_try {ssz : Nat} : ∀ {count pos : Nat},
    kekEntries ssl kek pkcs7 msg ssz count pos =
      tryEntries ((kekQuery ssl kek pkcs7 msg).test ssz) ssz count pos
  | 0, _ => rfl
  | count + 1, pos => by
      rw [tryEntries, kekQuery_test]
      cases hread : d2iX509At ssl kek (pos + GUID_SIZE) (sub64 ssz GUID_SIZE) with
      | none =>
          rw [kekEntries, hread]
          rfl
      | some cert =>
          cases cert with
          | none =>
              rw [kekEntries_stuck hread]
              rfl
          | some trusted =>
              rw [kekEntries, hread, ← kekEntries_eq_try]
              simp only [Option.bind_eq_bind, Option.bind_some, Option.map_some]
              cases pkcs7Verify ssl pkcs7 trusted msg with
              | true => rfl
              | false => rfl

theorem kekLists_eq_loop : ∀ {fuel pos left : Nat}, kekLists ssl kek pkcs7 msg fuel pos left =
    loop (searchTurn (kekQuery ssl kek pkcs7 msg) kek) fuel ⟨pos, left⟩
  | 0, _, _ => rfl
  | fuel + 1, pos, left => by
      rw [kekLists, loop_searchTurn]
      split
      · rfl
      refine bind_congr fun lsz => ?_
      split
      · rfl
      unfold Query.look
      cases signatureType kek pos with
      | none => rfl
      | some ty =>
          rw [Option.bind_eq_bind, Option.bind_some]
          dsimp only
          rw [kekLists_eq_loop]
          generalize loop (searchTurn (kekQuery ssl kek pkcs7 msg) kek) fuel
            ⟨pos + lsz, left - lsz⟩ = rest
          by_cases hty : ty = gEfiCertX509Guid
          · rw [if_neg (show ¬ ty ≠ (kekQuery ssl kek pkcs7 msg).type from not_not.mpr hty),
              if_pos (beq_iff_eq.mpr hty)]
            cases headerSize kek pos with
            | none => rfl
            | some hsz =>
                cases signatureSize kek pos with
                | none => rfl
                | some ssz =>
                    simp only [Option.bind_eq_bind, Option.bind_some, entryCount]
                    rw [if_neg (show ¬ (!(kekQuery ssl kek pkcs7 msg).takes ssz) = true from
                      Bool.false_ne_true)]
                    by_cases hz : ssz = 0
                    · rw [if_pos hz, if_pos hz]
                      rfl
                    · rw [if_neg hz, if_neg hz, Option.bind_some, kekEntries_eq_try]
                      rfl
          · rw [if_pos (show ty ≠ (kekQuery ssl kek pkcs7 msg).type from hty),
              if_neg (by simpa using hty)]
            rfl

/-- The search through KEK returns exactly if it reads inside and ends. -/
theorem kekLists_isSome_iff {n : Nat} : (kekLists ssl kek pkcs7 msg (n + 1) 0 n).isSome ↔
    SearchInside (kekQuery ssl kek pkcs7 msg) kek n := by
  rw [kekLists_eq_loop, search_isSome_iff]

end

/-! ## The certificate stored as PK -/

/-- What `cert_equals_esl` reads of the stored list is there: its header, and the certificate if
it is as long as the other. -/
def CertInside (der : List UInt8) (b : Buffer) : Prop :=
  ∃ hsz ssz, headerSize b 0 = some hsz ∧ signatureSize b 0 = some ssz ∧
    (der.length = sub64 ssz GUID_SIZE → ESL_SIZE + hsz + GUID_SIZE + der.length ≤ b.size)

theorem certEqualsEsl_isSome_iff {der : List UInt8} {b : Buffer} :
    (certEqualsEsl der b).isSome ↔ CertInside der b := by
  unfold certEqualsEsl
  constructor
  · intro h
    obtain ⟨r, h⟩ := Option.isSome_iff_exists.mp h
    obtain ⟨hsz, hhsz, h⟩ := Option.bind_eq_some_iff.mp h
    obtain ⟨ssz, hssz, h⟩ := Option.bind_eq_some_iff.mp h
    refine ⟨hsz, ssz, hhsz, hssz, ?_⟩
    intro hlen
    rw [if_neg (not_not.mpr hlen)] at h
    obtain ⟨old, hold, _⟩ := Option.bind_eq_some_iff.mp h
    exact Buffer.slice_le hold
  · rintro ⟨hsz, ssz, hhsz, hssz, hin⟩
    rw [hhsz, hssz]
    simp only [Option.bind_eq_bind, Option.bind_some]
    split
    · rfl
    · rename_i hlen
      obtain ⟨old, hold⟩ := Buffer.slice_isSome (hin (not_not.mp hlen))
      rw [hold]
      rfl

/-! ## `FilterSignatureList` -/

section
variable {old new : Buffer} {oldSize cap : Nat} {ty : Guid} {listPos hsz ssz : Nat}

/-- The bytes of the header that goes in front of the first entry that is kept. -/
def headerDue (copied hsz : Nat) : Nat := if copied = 0 then ESL_SIZE + hsz else 0

theorem filterEntries_succ (count pos : Nat) (tail : List UInt8) (copied : Nat) :
    filterEntries old new oldSize cap ty listPos hsz ssz (count + 1) pos tail copied =
      (new.slice pos ssz).bind fun entry =>
        (entryKnown old ty entry (oldSize + 1) 0 oldSize).bind fun known =>
          if known then
            filterEntries old new oldSize cap ty listPos hsz ssz count (pos + ssz) tail copied
          else
            (if copied = 0 then new.slice listPos (ESL_SIZE + hsz) else some []).bind fun header =>
              (pushTail cap tail header).bind fun tail => (pushTail cap tail entry).bind fun tail =>
                filterEntries old new oldSize cap ty listPos hsz ssz count (pos + ssz) tail
                  (copied + 1) := by
  rw [filterEntries]
  refine bind_congr fun entry => bind_congr fun known => ?_
  split
  · rfl
  split
  · rfl
  · rfl

/-- The header that is copied has the bytes that are due. -/
theorem length_header {copied : Nat} {header : List UInt8}
    (h : (if copied = 0 then new.slice listPos (ESL_SIZE + hsz) else some []) = some header) :
    header.length = headerDue copied hsz := by
  unfold headerDue
  split at h
  · rename_i h0
    rw [if_pos h0]
    exact Buffer.length_slice h
  · rename_i h0
    cases h
    rw [if_neg h0]
    rfl

theorem length_filterEntries : ∀ (count pos : Nat) (tail : List UInt8) (copied : Nat)
    {tail' : List UInt8} {copied' : Nat},
    filterEntries old new oldSize cap ty listPos hsz ssz count pos tail copied =
      some (tail', copied') →
    tail'.length ≤ tail.length + headerDue copied hsz + count * ssz
  | 0, _, tail, copied, tail', copied', h => by
      cases h
      omega
  | count + 1, pos, tail, copied, tail', copied', h => by
      rw [filterEntries_succ] at h
      obtain ⟨entry, hentry, h⟩ := Option.bind_eq_some_iff.mp h
      obtain ⟨known, _, h⟩ := Option.bind_eq_some_iff.mp h
      rw [Nat.succ_mul]
      split at h
      · have ih := length_filterEntries count _ tail copied h
        omega
      · obtain ⟨header, hheader, h⟩ := Option.bind_eq_some_iff.mp h
        obtain ⟨tail₁, htail₁, h⟩ := Option.bind_eq_some_iff.mp h
        obtain ⟨tail₂, htail₂, h⟩ := Option.bind_eq_some_iff.mp h
        have ih := length_filterEntries count _ tail₂ (copied + 1) h
        rw [(pushTail_eq htail₂).1, (pushTail_eq htail₁).1, List.length_append, List.length_append,
          length_header hheader, Buffer.length_slice hentry,
          show headerDue (copied + 1) hsz = 0 from rfl] at ih
        omega

/-- Entries that are gone through are there. -/
theorem filterEntries_inside : ∀ (count pos : Nat) (tail : List UInt8) (copied : Nat),
    (filterEntries old new oldSize cap ty listPos hsz ssz count pos tail copied).isSome →
    count ≠ 0 → pos + count * ssz ≤ new.size
  | 0, _, _, _, _, h0 => absurd rfl h0
  | count + 1, pos, tail, copied, h, _ => by
      obtain ⟨r, h⟩ := Option.isSome_iff_exists.mp h
      rw [filterEntries_succ] at h
      obtain ⟨entry, hentry, h⟩ := Option.bind_eq_some_iff.mp h
      obtain ⟨known, _, h⟩ := Option.bind_eq_some_iff.mp h
      have hin := Buffer.slice_le hentry
      have hgo : ∀ tail copied, filterEntries old new oldSize cap ty listPos hsz ssz count
          (pos + ssz) tail copied = some r → pos + (count + 1) * ssz ≤ new.size := by
        intro tail copied h
        rw [Nat.succ_mul]
        by_cases h0 : count = 0
        · rw [h0, Nat.zero_mul, Nat.zero_add]
          exact hin
        · have ih := filterEntries_inside count _ tail copied (Option.isSome_of_eq_some h) h0
          omega
      split at h
      · exact hgo _ _ h
      · obtain ⟨header, _, h⟩ := Option.bind_eq_some_iff.mp h
        obtain ⟨tail₁, _, h⟩ := Option.bind_eq_some_iff.mp h
        obtain ⟨tail₂, _, h⟩ := Option.bind_eq_some_iff.mp h
        exact hgo _ _ h

/-- Where the list lies inside and the copy fits, the loop over its entries returns exactly if
the search for each of them does. -/
theorem filterEntries_isSome_iff (hheader : listPos + (ESL_SIZE + hsz) ≤ new.size) :
    ∀ (count pos : Nat) (tail : List UInt8) (copied : Nat), pos + count * ssz ≤ new.size →
    tail.length + headerDue copied hsz + count * ssz ≤ cap →
    ((filterEntries old new oldSize cap ty listPos hsz ssz count pos tail copied).isSome ↔
      ∀ j < count, ∀ entry, new.slice (pos + j * ssz) ssz = some entry →
        (entryKnown old ty entry (oldSize + 1) 0 oldSize).isSome)
  | 0, _, _, _, _, _ => iff_of_true rfl (fun _ h => absurd h (Nat.not_lt_zero _))
  | count + 1, pos, tail, copied, hin, hcap => by
      rw [Nat.succ_mul] at hin hcap
      obtain ⟨entry, hentry⟩ := Buffer.slice_isSome (show pos + ssz ≤ new.size by omega)
      have hlen := Buffer.length_slice hentry
      have hshift : ∀ j, pos + (j + 1) * ssz = pos + ssz + j * ssz := by
        intro j
        rw [Nat.succ_mul]
        omega
      rw [Nat.forall_lt_succ_left, filterEntries_succ, hentry, Option.bind_some]
      simp only [Nat.zero_mul, Nat.add_zero, hentry, Option.some.injEq, forall_eq', hshift]
      cases hknown : entryKnown old ty entry (oldSize + 1) 0 oldSize with
      | none => exact iff_of_false nofun (fun h => nomatch h.1)
      | some known =>
          rw [Option.bind_some, and_iff_right (show (some known).isSome = true from rfl)]
          cases known with
          | true =>
              rw [if_pos rfl]
              exact filterEntries_isSome_iff hheader count (pos + ssz) tail copied (by omega)
                (by omega)
          | false =>
              obtain ⟨header, hh⟩ : ∃ header, (if copied = 0 then
                  new.slice listPos (ESL_SIZE + hsz) else some []) = some header := by
                split
                · exact Buffer.slice_isSome hheader
                · exact ⟨[], rfl⟩
              have hhlen := length_header hh
              rw [if_neg Bool.false_ne_true, hh, Option.bind_some, pushTail_of_le (by omega),
                Option.bind_some, pushTail_of_le (by rw [List.length_append]; omega),
                Option.bind_some]
              refine filterEntries_isSome_iff hheader count (pos + ssz) _ (copied + 1) (by omega) ?_
              rw [List.length_append, List.length_append,
                show headerDue (copied + 1) hsz = 0 from rfl]
              omega

/-- The size in the header is written over the one that stands there. -/
theorem length_patched {count pos copied : Nat} {tail tail' : List UInt8}
    (h : filterEntries old new oldSize cap ty listPos hsz ssz count pos tail 0 =
      some (tail', copied)) (hcap : tail.length ≤ cap) :
    (if copied = 0 then tail' else patchListSize tail' (ESL_SIZE + hsz + copied * ssz)).length =
      tail'.length := by
  split
  · rfl
  rename_i h0
  obtain ⟨_, kept, hlen, hcount, ⟨rfl, _⟩ | ⟨_, header, hheader, rfl⟩⟩ :=
    filterEntries_spec _ _ _ _ h hcap
  · exact absurd (hcount.trans (Nat.zero_add _)) h0
  rw [if_pos rfl] at hheader
  have hhlen : header.length = ESL_SIZE + hsz := Buffer.length_slice hheader
  have h20 : 20 ≤ header.length := by
    rw [hhlen]
    exact (show 20 ≤ ESL_SIZE by decide).trans (Nat.le_add_right _ _)
  have hsize : ESL_SIZE + hsz + copied * ssz = header.length + kept.flatten.length := by
    rw [length_flatten_entries hlen, hhlen, hcount, Nat.zero_add]
  rw [hsize, patchListSize_append h20, List.length_append, length_relist h20, List.length_append,
    List.length_append, Nat.add_assoc]

/-- One turn of the outer loop, at a list whose header is there. -/
theorem filterLists_succ {pos lsz left fuel : Nat} {tail : List UInt8}
    (hh : HeaderAt new pos ty lsz ssz) (hleft : left ≠ 0) (hle : lsz ≤ left) (hlsz : lsz ≠ 0)
    (hssz : ssz ≠ 0) :
    filterLists old new oldSize cap (fuel + 1) pos left tail =
      (filterEntries old new oldSize cap ty pos 0 ssz (sub64 lsz ESL_SIZE / ssz) (pos + ESL_SIZE)
        tail 0).bind fun r => filterLists old new oldSize cap fuel (pos + lsz) (left - lsz)
          (if r.2 = 0 then r.1 else patchListSize r.1 (ESL_SIZE + 0 + r.2 * ssz)) := by
  have hbody : bodySize lsz 0 = sub64 lsz ESL_SIZE := sub64_sub64 lsz ESL_SIZE 0
  rw [filterLists, if_neg hleft, hh.listSize_eq, Option.bind_eq_bind, Option.bind_some,
    if_neg (Nat.not_lt.mpr hle), hh.type_eq, Option.bind_eq_bind, Option.bind_some,
    hh.headerSize_eq, Option.bind_eq_bind, Option.bind_some, hh.signatureSize_eq, Option.bind_some,
    entryCount, if_neg hssz, Option.bind_some, hbody, Nat.add_zero]
  refine congrArg _ (funext fun r => ?_)
  obtain ⟨tail', copied⟩ := r
  exact if_neg hlsz

end

section
variable {P X : Type}

/-- In each list that the walk over the payload comes to there is room for its header, and the
search for each of its entries among the stored ones reads inside those and ends. -/
def FilterInside (ssl : OpenSsl P X) (old : Buffer) (oldSize : Nat) (new : Buffer)
    (off size : Nat) : Prop :=
  ∀ lszs s ty lsz ssz, Run (WalkStep ssl new) ⟨off, size⟩ lszs s → s.left ≠ 0 →
    HeaderAt new s.pos ty lsz ssz → ESL_SIZE ≤ lsz ∧ ∀ j < (lsz - ESL_SIZE) / ssz, ∀ entry,
      new.slice (s.pos + ESL_SIZE + j * ssz) ssz = some entry →
      SearchInside (entryQuery old ty entry) old oldSize

section
variable {ssl : OpenSsl P X} {old new : Buffer} {oldSize cap pos left : Nat}

/-- Where nothing is left there is no step. -/
theorem filterInside_zero : FilterInside ssl old oldSize new pos 0 := by
  intro lszs s ty lsz ssz hrun hleft
  cases hrun with
  | nil => exact absurd rfl hleft
  | cons hstep _ =>
      obtain ⟨⟨entries, hstep⟩, _⟩ := hstep
      exact absurd rfl (formatStep_next hstep).1

/-- The first list, and the lists behind it. -/
theorem filterInside_step {ty : Guid} {lsz ssz : Nat}
    (hstep : WalkStep ssl new ⟨pos, left⟩ lsz ⟨pos + lsz, left - lsz⟩)
    (hh : HeaderAt new pos ty lsz ssz) : FilterInside ssl old oldSize new pos left ↔
      (ESL_SIZE ≤ lsz ∧ ∀ j < (lsz - ESL_SIZE) / ssz, ∀ entry,
        new.slice (pos + ESL_SIZE + j * ssz) ssz = some entry →
        SearchInside (entryQuery old ty entry) old oldSize) ∧
      FilterInside ssl old oldSize new (pos + lsz) (left - lsz) := by
  obtain ⟨entries, hnext⟩ := hstep.1
  constructor
  · intro h
    refine ⟨h [] ⟨pos, left⟩ ty lsz ssz (.nil _) (formatStep_next hnext).1 hh, ?_⟩
    intro lszs s ty' lsz' ssz' hrun
    exact h (lsz :: lszs) s ty' lsz' ssz' (.cons hstep hrun)
  · rintro ⟨hfirst, hrest⟩ lszs s ty' lsz' ssz' hrun hleft hh'
    cases hrun with
    | nil =>
        obtain rfl := Option.some.inj (hh.type_eq.symm.trans hh'.type_eq)
        obtain rfl := Option.some.inj (hh.listSize_eq.symm.trans hh'.listSize_eq)
        obtain rfl := Option.some.inj (hh.signatureSize_eq.symm.trans hh'.signatureSize_eq)
        exact hfirst
    | cons hstep' hrun =>
        obtain ⟨⟨entries', hnext'⟩, rfl⟩ := hstep'
        obtain ⟨rfl, _⟩ := FormatStep.next.inj (hnext.symm.trans hnext')
        exact hrest _ s ty' lsz' ssz' hrun hleft hh'

/-- A list without room for its header: its entries are far more than there is. -/
theorem filterEntries_short (hnew : new.size < 2 ^ 63) {cap pos lsz ssz : Nat} {ty : Guid}
    (tail : List UInt8) (hlt : lsz < ESL_SIZE) (hrem : sub64 lsz ESL_SIZE % ssz = 0) :
    filterEntries old new oldSize cap ty pos 0 ssz (sub64 lsz ESL_SIZE / ssz) (pos + ESL_SIZE)
      tail 0 = none := by
  rw [Option.eq_none_iff_forall_ne_some]
  intro r hr
  have h28 : ESL_SIZE = 28 := rfl
  have hbody : sub64 lsz ESL_SIZE = 2 ^ 64 - (ESL_SIZE - lsz) := sub64_of_lt hlt (by decide)
  have hmul : sub64 lsz ESL_SIZE / ssz * ssz = sub64 lsz ESL_SIZE :=
    Nat.div_mul_cancel (Nat.dvd_of_mod_eq_zero hrem)
  have hne : sub64 lsz ESL_SIZE / ssz ≠ 0 := by
    intro h0
    rw [h0, Nat.zero_mul, hbody] at hmul
    omega
  have hpast := filterEntries_inside _ _ _ _ (Option.isSome_of_eq_some hr) hne
  rw [hmul, hbody] at hpast
  omega

theorem filterLists_isSome_iff (hnew : new.size < 2 ^ 63) (cap : Nat) :
    ∀ (fuel fuel' pos left count : Nat) {n : Nat} (tail : List UInt8),
    formatWalk ssl new fuel pos left count = some (.ok (pos + left, n)) →
    pos + left ≤ new.size → tail.length + left ≤ cap → left < fuel' →
    ((filterLists old new oldSize cap fuel' pos left tail).isSome ↔
      FilterInside ssl old oldSize new pos left)
  | 0, _, _, _, _, _, _, h, _, _, _ => by cases h
  | _, 0, _, _, _, _, _, _, _, _, hlt => absurd hlt (Nat.not_lt_zero _)
  | fuel + 1, fuel' + 1, pos, left, count, n, tail, h, hin, hcap, hlt => by
      rw [formatWalk_eq] at h
      cases hstep : formatStep ssl new pos left with
      | refused => rw [hstep] at h; cases h
      | outside => rw [hstep] at h; cases h
      | dividesByZero => rw [hstep] at h; cases h
      | done =>
          rw [hstep] at h
          obtain ⟨hstop, _⟩ := Prod.mk.inj (Except.ok.inj (Option.some.inj h))
          obtain rfl : left = 0 := by omega
          exact iff_of_true rfl filterInside_zero
      | next lsz entries =>
          rw [hstep] at h
          dsimp only at h
          split at h
          · cases h
          rename_i hlsz
          obtain ⟨hleft, hle, ty, ssz, hv, hrem⟩ := formatStep_next hstep
          have hssz : ssz ≠ 0 := by
            have hge : 16 ≤ ssz := hv.signatureSize_ge
            omega
          rw [filterInside_step ⟨⟨entries, hstep⟩, rfl⟩ hv.toHeaderAt,
            filterLists_succ hv.toHeaderAt hleft hle hlsz hssz]
          rw [show pos + left = pos + lsz + (left - lsz) by omega] at h
          by_cases hfits : ESL_SIZE ≤ lsz
          · have hbody : sub64 lsz ESL_SIZE = lsz - ESL_SIZE :=
              sub64_of_le hfits ((Buffer.num_lt hv.listSize_eq).trans (by decide))
            have hcount := Nat.div_mul_le_self (lsz - ESL_SIZE) ssz
            rw [hbody, and_iff_right hfits]
            generalize (lsz - ESL_SIZE) / ssz = entries at hcount
            have hdue : headerDue 0 0 = ESL_SIZE := rfl
            have hloop : (filterEntries old new oldSize cap ty pos 0 ssz entries (pos + ESL_SIZE)
                tail 0).isSome ↔ _ :=
              filterEntries_isSome_iff (by omega) entries (pos + ESL_SIZE) tail 0 (by omega)
                (by omega)
            simp only [← entryKnown_isSome_iff]
            rw [← hloop]
            cases hentries : filterEntries old new oldSize cap ty pos 0 ssz entries (pos + ESL_SIZE)
              tail 0 with
            | none => exact iff_of_false nofun (fun h => nomatch h.1)
            | some r =>
                obtain ⟨tail', copied⟩ := r
                have hlen := length_filterEntries _ _ _ _ hentries
                have hpatch := length_patched hentries (by omega)
                rw [Option.bind_some, and_iff_right (by rfl)]
                refine filterLists_isSome_iff hnew cap fuel fuel' _ _ _ _ h (by omega) ?_ (by omega)
                dsimp only
                omega
          · rw [filterEntries_short hnew tail (Nat.not_le.mp hfits) hrem]
            exact iff_of_false nofun (fun hall => hfits hall.1.1)

/-- **Filtering a payload made of lists returns exactly if the searches it makes do.** -/
theorem filterSignatureList_isSome_iff {old : List UInt8} {off size : Nat}
    (hnew : new.size < 2 ^ 63) (hcover : ListsCover ssl new off size)
    (hin : off + size ≤ new.size) :
    (filterSignatureList old new off size).isSome ↔
      FilterInside ssl (Buffer.ofList old) old.length new off size := by
  unfold filterSignatureList
  split
  · rename_i h0
    subst h0
    exact iff_of_true rfl filterInside_zero
  obtain ⟨lszs, hrun⟩ := hcover
  obtain ⟨n, hwalk⟩ := formatWalk_of_run hrun rfl (size + 1) 0 (Nat.lt_succ_self size)
  rw [← filterLists_isSome_iff hnew size (size + 1) (size + 1) off size 0 [] hwalk hin
    (Nat.zero_add size).le (Nat.lt_succ_self size)]
  cases htail : filterLists (Buffer.ofList old) new old.length size (size + 1) off size [] with
  | none => exact iff_of_false nofun nofun
  | some tail =>
      refine iff_of_true ?_ rfl
      have hlen := length_filterLists _ _ _ _ htail (Nat.zero_le size)
      obtain ⟨new', hnew'⟩ := Buffer.write_isSome (show off + tail.length ≤ new.size by omega)
      rw [Option.bind_eq_bind, Option.bind_some, hnew']
      rfl

end

end

end Uefistored
