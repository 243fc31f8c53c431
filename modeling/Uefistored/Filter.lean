/-
# `Uefistored.Filter` — what `FilterSignatureList` keeps

The loops of `FilterSignatureList` copy behind `Tail`: of each new list nothing,
or its header and the entries that are not stored yet, with the size in the
header adjusted at the end.  `relist` is that copy.

    the entries of one list                                (`filterEntries_spec`)
    one list: nothing, or a `relist` of it                 (`keptOf_spec`)
    the result is no longer than what it was made from     (`length_filterSignatureList`)
-/
import Uefistored.SigList

namespace Uefistored

open Lib SigList

/-! ## One list -/

theorem pushTail_eq {cap : Nat} {tail src t : List UInt8} (h : pushTail cap tail src = some t) :
    t = tail ++ src ∧ t.length ≤ cap := by
  unfold pushTail at h
  split at h
  · rename_i hle
    cases h
    rw [List.length_append]
    exact ⟨rfl, hle⟩
  · cases h

theorem pushTail_of_le {cap : Nat} {tail src : List UInt8} (h : tail.length + src.length ≤ cap) :
    pushTail cap tail src = some (tail ++ src) := if_pos h

/-- The entries that are kept, behind the header of their list if they are the first. -/
theorem filterEntries_spec {old new : Buffer} {oldSize cap : Nat} {ty : Guid}
    {listPos hsz ssz : Nat} : ∀ (count pos : Nat) (tail : List UInt8) (copied : Nat)
    {tail' : List UInt8} {copied' : Nat},
    filterEntries old new oldSize cap ty listPos hsz ssz count pos tail copied =
      some (tail', copied') → tail.length ≤ cap →
    tail'.length ≤ cap ∧ ∃ kept : List (List UInt8), (∀ e ∈ kept, e.length = ssz) ∧
      copied' = copied + kept.length ∧ (kept = [] ∧ tail' = tail ∨ kept ≠ [] ∧ ∃ header,
        (if copied = 0 then new.slice listPos (ESL_SIZE + hsz) else some []) = some header ∧
        tail' = tail ++ header ++ kept.flatten)
  | 0, _, tail, copied, _, _, h, hcap => by
      cases h
      exact ⟨hcap, [], by simp, rfl, .inl ⟨rfl, rfl⟩⟩
  | count + 1, pos, tail, copied, tail', copied', h, hcap => by
      unfold filterEntries at h
      obtain ⟨entry, hentry, h⟩ := Option.bind_eq_some_iff.mp h
      obtain ⟨known, _, h⟩ := Option.bind_eq_some_iff.mp h
      split at h
      · exact filterEntries_spec count _ tail copied h hcap
      · obtain ⟨header, hheader, h⟩ : ∃ header,
            (if copied = 0 then new.slice listPos (ESL_SIZE + hsz) else some []) = some header ∧
            (pushTail cap tail header).bind (fun tail => (pushTail cap tail entry).bind (fun tail =>
              filterEntries old new oldSize cap ty listPos hsz ssz count (pos + ssz) tail
                (copied + 1))) = some (tail', copied') := by
          split at h
          · rename_i h0
            obtain ⟨header, hheader, h⟩ := Option.bind_eq_some_iff.mp h
            exact ⟨header, (if_pos h0).trans hheader, h⟩
          · rename_i h0
            exact ⟨[], if_neg h0, h⟩
        obtain ⟨tail₁, htail₁, h⟩ := Option.bind_eq_some_iff.mp h
        obtain ⟨tail₂, htail₂, h⟩ := Option.bind_eq_some_iff.mp h
        obtain ⟨rfl, _⟩ := pushTail_eq htail₁
        obtain ⟨rfl, hcap₂⟩ := pushTail_eq htail₂
        obtain ⟨hcap', kept, hlen, hcount, hkept⟩ :=
          filterEntries_spec count _ _ (copied + 1) h hcap₂
        refine ⟨hcap', entry :: kept, ?_, ?_,
          .inr ⟨List.cons_ne_nil _ _, header, hheader, ?_⟩⟩
        · intro e he
          rcases List.mem_cons.mp he with rfl | he
          · exact Buffer.length_slice hentry
          · exact hlen e he
        · rw [hcount, List.length_cons]
          omega
        · rcases hkept with ⟨rfl, rfl⟩ | ⟨_, header', hheader', rfl⟩
          · simp
          · -- the header was copied in front of the entry
            rw [if_neg (Nat.succ_ne_zero copied)] at hheader'
            cases hheader'
            simp

/-- A list with the entries in `body`: the header, with its size field adjusted. -/
def relist (header body : List UInt8) : List UInt8 :=
  header.take 16 ++ leBytes 4 (header.length + body.length) ++ header.drop 20 ++ body

theorem length_relist {header body : List UInt8} (h : 20 ≤ header.length) :
    (relist header body).length = header.length + body.length := by
  simp only [relist, List.length_append, List.length_take, List.length_drop, length_leBytes]
  omega

theorem patchListSize_append {tail header body : List UInt8} (h : 20 ≤ header.length) :
    patchListSize (tail ++ header ++ body) (header.length + body.length) =
      tail ++ relist header body := by
  have hpos : (tail ++ header ++ body).length - (header.length + body.length) = tail.length := by
    simp only [List.length_append]
    omega
  unfold patchListSize relist
  rw [hpos, List.append_assoc tail, List.take_length_add_append, Nat.add_assoc tail.length,
    List.drop_length_add_append, List.take_append_of_le_length (by omega),
    List.drop_append_of_le_length (by omega)]
  simp only [List.append_assoc]

theorem length_flatten_entries {kept : List (List UInt8)} {ssz : Nat}
    (h : ∀ e ∈ kept, e.length = ssz) : kept.flatten.length = kept.length * ssz := by
  rw [List.length_flatten, List.map_congr_left h, List.map_const', List.sum_replicate_nat]

/-- The body of the outer loop: what is behind `tail` once the list at `pos` is done. -/
theorem keptOf_spec {old new : Buffer} {oldSize cap : Nat} {ty : Guid} {pos hsz ssz count : Nat}
    {entryPos copied : Nat} {tail tail' : List UInt8}
    (h : filterEntries old new oldSize cap ty pos hsz ssz count entryPos tail 0 =
      some (tail', copied)) (hcap : tail.length ≤ cap) :
    ∃ t, (if copied = 0 then tail' else patchListSize tail' (ESL_SIZE + hsz + copied * ssz)) = t ∧
      t.length ≤ cap ∧ (t = tail ∨ ∃ header kept,
        new.slice pos (ESL_SIZE + hsz) = some header ∧ (∀ e ∈ kept, e.length = ssz) ∧
        kept ≠ [] ∧ t = tail ++ relist header kept.flatten) := by
  obtain ⟨hcap', kept, hlen, hcount, hkept⟩ := filterEntries_spec _ _ _ _ h hcap
  rw [Nat.zero_add] at hcount
  refine ⟨_, rfl, ?_⟩
  rcases hkept with ⟨rfl, rfl⟩ | ⟨hne, header, hheader, rfl⟩
  · rw [if_pos (show copied = 0 from hcount)]
    exact ⟨hcap', .inl rfl⟩
  · rw [if_pos rfl] at hheader
    have hhlen : header.length = ESL_SIZE + hsz := Buffer.length_slice hheader
    have h20 : 20 ≤ header.length := by
      rw [hhlen]
      exact (show 20 ≤ ESL_SIZE by decide).trans (Nat.le_add_right _ _)
    have hbody : kept.flatten.length = copied * ssz := by
      rw [hcount, length_flatten_entries hlen]
    have hcopied : copied ≠ 0 := by
      rw [hcount]
      exact fun h0 => hne (List.eq_nil_of_length_eq_zero h0)
    have hpatch : patchListSize (tail ++ header ++ kept.flatten)
        (header.length + kept.flatten.length) = tail ++ relist header kept.flatten :=
      patchListSize_append h20
    rw [hhlen, hbody] at hpatch
    rw [if_neg hcopied, hpatch]
    refine ⟨?_, .inr ⟨header, kept, hheader, hlen, hne, rfl⟩⟩
    rw [List.length_append, length_relist h20, ← Nat.add_assoc, ← List.length_append,
      ← List.length_append]
    exact hcap'

/-! ## All lists -/

/-- A step of the outer loop: it ends, or goes on behind the next list with what was kept. -/
theorem filterLists_cases {old new : Buffer} {oldSize cap fuel pos left : Nat}
    {tail t : List UInt8}
    (h : filterLists old new oldSize cap (fuel + 1) pos left tail = some t)
    (hcap : tail.length ≤ cap) :
    t = tail ∧ (left = 0 ∨ ∃ lsz, signatureListSize new pos = some lsz ∧ left < lsz) ∨
      ∃ lsz hsz ssz tail', signatureListSize new pos = some lsz ∧ headerSize new pos = some hsz ∧
        signatureSize new pos = some ssz ∧ ssz ≠ 0 ∧ tail'.length ≤ cap ∧
        (tail' = tail ∨ ∃ header kept, new.slice pos (ESL_SIZE + hsz) = some header ∧
          (∀ e ∈ kept, e.length = ssz) ∧ kept ≠ [] ∧
          tail' = tail ++ relist header kept.flatten) ∧
        filterLists old new oldSize cap fuel (pos + lsz) (left - lsz) tail' = some t := by
  unfold filterLists at h
  split at h
  · rename_i h0
    cases h
    exact .inl ⟨rfl, .inl h0⟩
  obtain ⟨lsz, hlsz, h⟩ := Option.bind_eq_some_iff.mp h
  split at h
  · rename_i hlt
    cases h
    exact .inl ⟨rfl, .inr ⟨lsz, hlsz, hlt⟩⟩
  obtain ⟨ty, _, h⟩ := Option.bind_eq_some_iff.mp h
  obtain ⟨hsz, hhsz, h⟩ := Option.bind_eq_some_iff.mp h
  obtain ⟨ssz, hssz, h⟩ := Option.bind_eq_some_iff.mp h
  obtain ⟨count, hcount, h⟩ := Option.bind_eq_some_iff.mp h
  have hpos : ssz ≠ 0 := by
    rintro rfl
    cases hcount
  obtain ⟨⟨tail₁, copied⟩, hentries, h⟩ := Option.bind_eq_some_iff.mp h
  dsimp only at h
  obtain ⟨tail', htail', hcap', hkept⟩ := keptOf_spec hentries hcap
  rw [htail'] at h
  split at h
  · cases h
  · exact .inr ⟨lsz, hsz, ssz, tail', hlsz, hhsz, hssz, hpos, hcap', hkept, h⟩

theorem length_filterLists {old new : Buffer} {oldSize cap : Nat} :
    ∀ (fuel pos left : Nat) (tail : List UInt8) {t : List UInt8},
      filterLists old new oldSize cap fuel pos left tail = some t → tail.length ≤ cap →
      t.length ≤ cap
  | 0, _, _, _, _, h, _ => by cases h
  | fuel + 1, pos, left, tail, t, h, hcap => by
      rcases filterLists_cases h hcap with ⟨rfl, _⟩ | ⟨_, _, _, tail', _, _, _, _, hcap', _, h⟩
      · exact hcap
      · exact length_filterLists fuel _ _ tail' h hcap'

/-- Behind the bytes of an object there are no lists: their signatures would have size 0. -/
theorem filterLists_past {old new : Buffer} {oldSize cap fuel pos left : Nat}
    {tail t : List UInt8} (h : filterLists old new oldSize cap fuel pos left tail = some t)
    (hcap : tail.length ≤ cap) (hpast : new.bytes.length ≤ pos) : left = 0 := by
  have hzero : ∀ {off v}, new.num (pos + off) 4 = some v → v = 0 :=
    fun hv => Buffer.num_past hv (hpast.trans (Nat.le_add_right _ _))
  cases fuel with
  | zero => cases h
  | succ fuel =>
      rcases filterLists_cases h hcap with
        ⟨_, h0 | ⟨lsz, hlsz, hlt⟩⟩ | ⟨_, _, ssz, _, _, _, hssz, hpos, _⟩
      · exact h0
      · rw [hzero hlsz] at hlt
        cases hlt
      · exact absurd (hzero hssz) hpos

/-- The result stands where the payload stood, which ends where the bytes of the object end. -/
theorem length_filterSignatureList {old : List UInt8} {new new' : Buffer} {off size' : Nat}
    (h : filterSignatureList old new off (sub64 new.bytes.length off) = some (new', size'))
    (hlt : new.bytes.length < 2 ^ 64) : new'.bytes.length = new.bytes.length := by
  unfold filterSignatureList at h
  split at h
  · cases h
    rfl
  · rename_i hsize
    obtain ⟨tail, htail, h⟩ := Option.bind_eq_some_iff.mp h
    obtain ⟨new₁, hw, h⟩ := Option.bind_eq_some_iff.mp h
    cases h
    have hoff : off ≤ new.bytes.length := by
      by_contra hpast
      exact hsize (filterLists_past htail (Nat.zero_le _) (not_le.mp hpast).le)
    have hlen := length_filterLists _ _ _ _ htail (Nat.zero_le _)
    rw [sub64_of_le hoff hlt] at hlen
    exact Buffer.length_write hw (by omega)

end Uefistored
