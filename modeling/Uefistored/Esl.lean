/-
# `Uefistored.Esl` — signature lists as records, and what `FilterSignatureList` does to them

`Esl` is an `EFI_SIGNATURE_LIST` as a record: a type, the size of an entry, and
the entries.  `Esl.encode` lays it out with a `SignatureHeaderSize` of zero and
exact sizes, and `encodeAll` puts lists one behind the other.

On such data the four nested loops of `FilterSignatureList` compute a plain
function of the records, `keptLists`: each new list keeps its entries that are
not among the old ones of its type and size, and a list that keeps none goes.

    is the entry in one list, in any list      (`entryAmong_eq`, `entryKnown_eq`)
    the entries of one list behind the tail    (`filterEntries_eq`)
    all lists                                  (`filterLists_eq`)
    the function                               (`filterSignatureList_eq`)

The temporary buffer has the size of the new data, and no write leaves it: the
model of the loops has no result where one does.
-/
import Uefistored.SigShape

namespace Uefistored

open Lib SigList

/-! ## Lists as records -/

/-- An `EFI_SIGNATURE_LIST` without a signature header. -/
structure Esl where
  type : Guid
  size : Nat
  entries : List (List UInt8)
  size_pos : 0 < size
  size_lt : size < 2 ^ 32
  sized : ∀ e ∈ entries, e.length = size
  fits : ESL_SIZE + entries.length * size < 2 ^ 32

namespace Esl

/-- `SignatureListSize`. -/
def listSize (l : Esl) : Nat := ESL_SIZE + l.entries.length * l.size

def header (l : Esl) : List UInt8 :=
  l.type.bytes ++ leBytes 4 l.listSize ++ leBytes 4 0 ++ leBytes 4 l.size

def encode (l : Esl) : List UInt8 := l.header ++ l.entries.flatten

@[simp] theorem length_header (l : Esl) : l.header.length = ESL_SIZE := by
  simp [header, ESL_SIZE]

theorem length_entries (l : Esl) : l.entries.flatten.length = l.entries.length * l.size :=
  length_flatten_entries l.sized

@[simp] theorem length_encode (l : Esl) : l.encode.length = l.listSize := by
  rw [encode, List.length_append, length_header, length_entries, listSize]

/-- The list with only those entries that pass a test. -/
def select (l : Esl) (p : List UInt8 → Bool) : Esl where
  type := l.type
  size := l.size
  entries := l.entries.filter p
  size_pos := l.size_pos
  size_lt := l.size_lt
  sized := fun e he => l.sized e (List.mem_of_mem_filter he)
  fits := by
    have hle := Nat.mul_le_mul_right l.size (List.length_filter_le p l.entries)
    have hfits := l.fits
    omega

/-- Its bytes are the header with its size adjusted, and the entries. -/
theorem encode_select (l : Esl) (p : List UInt8 → Bool) :
    (l.select p).encode = relist l.header (l.entries.filter p).flatten := by
  have hty : l.type.bytes.length = 16 := l.type.length_eq
  have hbody : (l.entries.filter p).flatten.length = (l.entries.filter p).length * l.size :=
    (l.select p).length_entries
  have htake : l.header.take 16 = l.type.bytes := by
    rw [header, List.append_assoc, List.append_assoc, List.take_append_of_le_length hty.ge,
      List.take_of_length_le hty.le]
  have hdrop : l.header.drop 20 = leBytes 4 0 ++ leBytes 4 l.size := by
    have h20 : (l.type.bytes ++ leBytes 4 l.listSize).length = 20 := by
      rw [List.length_append, hty, length_leBytes]
    rw [header, List.append_assoc, List.drop_append_of_le_length h20.ge,
      List.drop_of_length_le h20.le, List.nil_append]
  rw [relist, htake, hdrop, length_header, hbody]
  simp only [encode, header, listSize, select, List.append_assoc]

theorem entryCount_eq (l : Esl) : entryCount l.listSize 0 l.size = some l.entries.length := by
  have hbody : bodySize l.listSize 0 = l.entries.length * l.size := by
    show sub64 (sub64 l.listSize ESL_SIZE) 0 = _
    rw [sub64_sub64, Nat.add_zero, listSize,
      sub64_of_le (Nat.le_add_right ..) (Nat.lt_trans l.fits (by decide)), Nat.add_sub_cancel_left]
  unfold entryCount
  rw [if_neg l.size_pos.ne', hbody, Nat.mul_div_cancel _ l.size_pos]

theorem listSize_pos (l : Esl) : l.listSize ≠ 0 :=
  (Nat.lt_of_lt_of_le (show 0 < ESL_SIZE by decide) (Nat.le_add_right ..)).ne'

/-- What the loops read of a list that stands at `pos`. -/
structure At (b : Buffer) (pos : Nat) (l : Esl) : Prop where
  type_eq : signatureType b pos = some l.type
  listSize_eq : signatureListSize b pos = some l.listSize
  headerSize_eq : headerSize b pos = some 0
  signatureSize_eq : signatureSize b pos = some l.size
  header_eq : b.slice pos ESL_SIZE = some l.header
  entries_at : b.Holds (pos + ESL_SIZE) l.entries.flatten

theorem at_of_holds {b : Buffer} {pos : Nat} {l : Esl} (h : b.Holds pos l.encode) : l.At b pos := by
  obtain ⟨hheader, hentries⟩ := Buffer.holds_append.mp h
  obtain ⟨hty, hlsz, hhsz, hssz⟩ := HeaderAt.of_holds l.fits l.size_lt hheader
  rw [length_header] at hentries
  exact ⟨hty, hlsz, hhsz, hssz, hheader.slice_eq l.length_header, hentries⟩

end Esl

/-- Lists, one behind the other. -/
def encodeAll (ls : List Esl) : List UInt8 := ls.flatMap Esl.encode

theorem encodeAll_cons (l : Esl) (ls : List Esl) : encodeAll (l :: ls) = l.encode ++ encodeAll ls :=
  rfl

theorem length_encodeAll_cons (l : Esl) (ls : List Esl) :
    (encodeAll (l :: ls)).length = l.listSize + (encodeAll ls).length := by
  rw [encodeAll_cons, List.length_append, Esl.length_encode]

/-! ## Entries that are known -/

/-- The entry occurs in one of the lists, with the same type and size. -/
def known (olds : List Esl) (ty : Guid) (entry : List UInt8) : Bool :=
  olds.any (fun o => o.type == ty && o.size == entry.length && o.entries.contains entry)

theorem entryAmong_eq {b : Buffer} (entry : List UInt8) {ssz : Nat} :
    ∀ (es : List (List UInt8)) (pos : Nat), (∀ e ∈ es, e.length = ssz) → b.Holds pos es.flatten →
      entryAmong b entry ssz es.length pos = some (es.contains entry)
  | [], _, _, _ => rfl
  | e :: es, pos, hlen, h => by
      have he : e.length = ssz := hlen e List.mem_cons_self
      obtain ⟨hfirst, hrest⟩ := Buffer.holds_append.mp h
      rw [he] at hrest
      have ih := entryAmong_eq entry es (pos + ssz) (fun x hx => hlen x (List.mem_cons_of_mem _ hx))
        hrest
      rw [List.length_cons, entryAmong, hfirst.slice_eq he, List.contains_cons, ih]
      by_cases heq : e = entry
      · subst heq
        simp
      · have hne : ¬ entry = e := fun h => heq h.symm
        simp [heq, hne]

theorem entryKnown_eq {b : Buffer} (ty : Guid) (entry : List UInt8) :
    ∀ (olds : List Esl) (fuel pos : Nat), b.Holds pos (encodeAll olds) →
      (encodeAll olds).length < fuel →
      entryKnown b ty entry fuel pos (encodeAll olds).length = some (known olds ty entry)
  | _, 0, _, _, hfuel => absurd hfuel (Nat.not_lt_zero _)
  | [], fuel + 1, _, _, _ => rfl
  | o :: olds, fuel + 1, pos, h, hfuel => by
      obtain ⟨hfirst, hrest⟩ := Buffer.holds_append.mp h
      have ho := Esl.at_of_holds hfirst
      rw [Esl.length_encode] at hrest
      rw [length_encodeAll_cons] at hfuel ⊢
      have hpos := o.listSize_pos
      have ih := entryKnown_eq ty entry olds fuel (pos + o.listSize) hrest (by omega)
      have hamong := entryAmong_eq entry o.entries (pos + ESL_SIZE) o.sized ho.entries_at
      unfold entryKnown
      rw [if_neg (by omega), ho.listSize_eq]
      simp only [Option.bind_eq_bind, Option.bind_some]
      rw [if_neg (Nat.not_lt.mpr (Nat.le_add_right ..)), if_neg hpos, ho.type_eq,
        Nat.add_sub_cancel_left, ih]
      simp only [Option.bind_some, known, List.any_cons]
      by_cases hty : (o.type == ty) = true
      · rw [if_pos hty, ho.signatureSize_eq, Option.bind_some, hty, Bool.true_and]
        by_cases hsize : (o.size == entry.length) = true
        · rw [if_pos hsize, hsize, ho.headerSize_eq, Option.bind_some, o.entryCount_eq,
            Option.bind_some, Nat.add_zero, hamong, Option.bind_some, Bool.true_and]
          cases o.entries.contains entry with
          | true => rfl
          | false => rfl
        · rw [if_neg hsize, Bool.of_not_eq_true hsize]
          rfl
      · rw [if_neg hty, Bool.of_not_eq_true hty]
        rfl

/-! ## One list -/

/-- The entries that are not among the old ones. -/
def newEntries (olds : List Esl) (ty : Guid) (es : List (List UInt8)) : List (List UInt8) :=
  es.filter (fun e => !known olds ty e)

theorem newEntries_of_known {olds : List Esl} {ty : Guid} {e : List UInt8}
    {es : List (List UInt8)} (h : known olds ty e = true) :
    newEntries olds ty (e :: es) = newEntries olds ty es :=
  List.filter_cons_of_neg (by simp [h])

theorem newEntries_of_new {olds : List Esl} {ty : Guid} {e : List UInt8}
    {es : List (List UInt8)} (h : known olds ty e = false) :
    newEntries olds ty (e :: es) = e :: newEntries olds ty es :=
  List.filter_cons_of_pos (by simp [h])

section
variable {old new : Buffer} {olds : List Esl} {oldSize cap : Nat} {ty : Guid} {listPos ssz : Nat}

/-- Behind the first entry that is kept only entries are copied. -/
theorem filterEntries_more
    (hold : ∀ entry, entryKnown old ty entry (oldSize + 1) 0 oldSize = some (known olds ty entry)) :
    ∀ (es : List (List UInt8)) (pos : Nat) (tail : List UInt8) (copied : Nat), copied ≠ 0 →
      (∀ e ∈ es, e.length = ssz) → new.Holds pos es.flatten →
      tail.length + es.flatten.length ≤ cap →
      filterEntries old new oldSize cap ty listPos 0 ssz es.length pos tail copied =
        some (tail ++ (newEntries olds ty es).flatten, copied + (newEntries olds ty es).length)
  | [], _, tail, copied, _, _, _, _ => by
      show some (tail, copied) = some (tail ++ [], copied + 0)
      rw [List.append_nil, Nat.add_zero]
  | e :: es, pos, tail, copied, hcopied, hlen, h, hcap => by
      have he : e.length = ssz := hlen e List.mem_cons_self
      have hlen' : ∀ x ∈ es, x.length = ssz := fun x hx => hlen x (List.mem_cons_of_mem _ hx)
      obtain ⟨hfirst, hrest⟩ := Buffer.holds_append.mp h
      rw [he] at hrest
      rw [List.flatten_cons, List.length_append] at hcap
      rw [List.length_cons, filterEntries, hfirst.slice_eq he]
      simp only [Option.bind_eq_bind, Option.bind_some]
      rw [hold, Option.bind_some]
      cases hknown : known olds ty e with
      | true =>
          rw [if_pos rfl, newEntries_of_known hknown]
          exact filterEntries_more hold es _ tail copied hcopied hlen' hrest (by omega)
      | false =>
          rw [if_neg Bool.false_ne_true, if_neg hcopied,
            pushTail_of_le (by rw [List.length_nil]; omega), Option.bind_some, List.append_nil,
            pushTail_of_le (by omega), Option.bind_some,
            filterEntries_more hold es _ _ _ (Nat.succ_ne_zero copied) hlen' hrest
              (by rw [List.length_append]; omega),
            newEntries_of_new hknown, List.flatten_cons, List.length_cons, List.append_assoc,
            Nat.succ_add_eq_add_succ]

/-- What is kept of a list is put behind the tail, with the header in front of it. -/
theorem filterEntries_eq {header : List UInt8}
    (hold : ∀ entry, entryKnown old ty entry (oldSize + 1) 0 oldSize = some (known olds ty entry))
    (hheader : new.slice listPos ESL_SIZE = some header) :
    ∀ (es : List (List UInt8)) (pos : Nat) (tail : List UInt8),
      (∀ e ∈ es, e.length = ssz) → new.Holds pos es.flatten →
      tail.length + ESL_SIZE + es.flatten.length ≤ cap →
      filterEntries old new oldSize cap ty listPos 0 ssz es.length pos tail 0 =
        some (if newEntries olds ty es = [] then tail
          else tail ++ header ++ (newEntries olds ty es).flatten, (newEntries olds ty es).length)
  | [], _, tail, _, _, _ => rfl
  | e :: es, pos, tail, hlen, h, hcap => by
      have he : e.length = ssz := hlen e List.mem_cons_self
      have hlen' : ∀ x ∈ es, x.length = ssz := fun x hx => hlen x (List.mem_cons_of_mem _ hx)
      obtain ⟨hfirst, hrest⟩ := Buffer.holds_append.mp h
      have hhlen : header.length = ESL_SIZE := Buffer.length_slice hheader
      rw [he] at hrest
      rw [List.flatten_cons, List.length_append] at hcap
      rw [List.length_cons, filterEntries, hfirst.slice_eq he]
      simp only [Option.bind_eq_bind, Option.bind_some]
      rw [hold, Option.bind_some]
      cases hknown : known olds ty e with
      | true =>
          rw [if_pos rfl, newEntries_of_known hknown]
          exact filterEntries_eq hold hheader es _ tail hlen' hrest (by omega)
      | false =>
          rw [if_neg Bool.false_ne_true, if_pos trivial, Nat.add_zero, hheader, Option.bind_some,
            pushTail_of_le (by omega), Option.bind_some,
            pushTail_of_le (by rw [List.length_append]; omega), Option.bind_some,
            filterEntries_more hold es _ _ _ (Nat.succ_ne_zero 0) hlen' hrest
              (by rw [List.length_append, List.length_append]; omega),
            newEntries_of_new hknown, if_neg (List.cons_ne_nil _ _), List.flatten_cons,
            List.length_cons, List.append_assoc, Nat.add_comm 1]

end

/-! ## All lists -/

/-- The list with those of its entries that are new. -/
def Esl.keep (olds : List Esl) (l : Esl) : Esl := l.select (fun e => !known olds l.type e)

theorem Esl.listSize_keep_le (olds : List Esl) (l : Esl) : (l.keep olds).listSize ≤ l.listSize :=
  Nat.add_le_add_left (Nat.mul_le_mul_right _ (List.length_filter_le ..)) _

/-- **What `FilterSignatureList` is for**: of each new list the entries that are new; a list
that has none goes. -/
def keptLists (olds news : List Esl) : List Esl :=
  (news.map (Esl.keep olds)).filter (fun l => !l.entries.isEmpty)

theorem keptLists_cons (olds : List Esl) (l : Esl) (news : List Esl) :
    keptLists olds (l :: news) =
      if newEntries olds l.type l.entries = [] then keptLists olds news
      else l.keep olds :: keptLists olds news := by
  have hentries : (l.keep olds).entries = newEntries olds l.type l.entries := rfl
  unfold keptLists
  rw [List.map_cons]
  split
  · rename_i hnil
    rw [List.filter_cons_of_neg (by simp [hentries, hnil])]
  · rename_i hne
    rw [List.filter_cons_of_pos (by simp [hentries, hne])]

theorem filterLists_eq {old new : Buffer} {olds : List Esl} {oldSize cap : Nat}
    (hold : ∀ ty entry, entryKnown old ty entry (oldSize + 1) 0 oldSize =
      some (known olds ty entry)) :
    ∀ (news : List Esl) (fuel pos : Nat) (tail : List UInt8), new.Holds pos (encodeAll news) →
      (encodeAll news).length < fuel → tail.length + (encodeAll news).length ≤ cap →
      filterLists old new oldSize cap fuel pos (encodeAll news).length tail =
        some (tail ++ encodeAll (keptLists olds news))
  | _, 0, _, _, _, hfuel, _ => absurd hfuel (Nat.not_lt_zero _)
  | [], fuel + 1, _, tail, _, _, _ => by
      show some tail = some (tail ++ [])
      rw [List.append_nil]
  | l :: news, fuel + 1, pos, tail, h, hfuel, hcap => by
      obtain ⟨hfirst, hrest⟩ := Buffer.holds_append.mp h
      have hl := Esl.at_of_holds hfirst
      rw [Esl.length_encode] at hrest
      rw [length_encodeAll_cons] at hfuel hcap ⊢
      have hpos := l.listSize_pos
      have hbody : l.listSize = ESL_SIZE + l.entries.flatten.length := by
        rw [l.length_entries, Esl.listSize]
      have hentries : filterEntries old new oldSize cap l.type pos 0 l.size l.entries.length
          (pos + ESL_SIZE) tail 0 = _ :=
        filterEntries_eq (hold l.type) hl.header_eq l.entries (pos + ESL_SIZE) tail l.sized
          hl.entries_at (by omega)
      unfold filterLists
      rw [if_neg (by omega), hl.listSize_eq]
      simp only [Option.bind_eq_bind, Option.bind_some]
      rw [if_neg (Nat.not_lt.mpr (Nat.le_add_right ..)), hl.type_eq]
      simp only [Option.bind_some]
      rw [hl.headerSize_eq, Option.bind_some, hl.signatureSize_eq, Option.bind_some,
        l.entryCount_eq, Option.bind_some, Nat.add_zero, hentries, Option.bind_some]
      dsimp only
      rw [if_neg hpos, Nat.add_sub_cancel_left, keptLists_cons]
      by_cases hnil : newEntries olds l.type l.entries = []
      · rw [if_pos hnil, if_pos hnil, hnil, if_pos List.length_nil]
        exact filterLists_eq hold news fuel _ tail hrest (by omega) (by omega)
      · have hcopied : (newEntries olds l.type l.entries).length ≠ 0 :=
          fun h0 => hnil (List.eq_nil_of_length_eq_zero h0)
        have hkept : (newEntries olds l.type l.entries).flatten.length =
            (newEntries olds l.type l.entries).length * l.size := (l.keep olds).length_entries
        have hpatch : patchListSize (tail ++ l.header ++ (newEntries olds l.type l.entries).flatten)
            (ESL_SIZE + 0 + (newEntries olds l.type l.entries).length * l.size) =
              tail ++ (l.keep olds).encode := by
          rw [Nat.add_zero, ← l.length_header, ← hkept,
            patchListSize_append (by rw [l.length_header]; decide)]
          exact congrArg (tail ++ ·) (l.encode_select _).symm
        have hless := l.listSize_keep_le olds
        rw [if_neg hnil, if_neg hnil, if_neg hcopied, hpatch,
          filterLists_eq hold news fuel _ _ hrest (by omega)
            (by rw [List.length_append, Esl.length_encode]; omega),
          encodeAll_cons, List.append_assoc]

theorem length_keptLists_le (olds : List Esl) : ∀ news : List Esl,
    (encodeAll (keptLists olds news)).length ≤ (encodeAll news).length
  | [] => le_rfl
  | l :: news => by
      have ih := length_keptLists_le olds news
      rw [keptLists_cons, length_encodeAll_cons]
      split
      · omega
      · have hless := l.listSize_keep_le olds
        rw [length_encodeAll_cons]
        omega

/-! ## The function -/

/-- The entries of lists, each with its type and size. -/
def signatures (ls : List Esl) : List (Guid × Nat × List UInt8) :=
  ls.flatMap (fun l => l.entries.map (fun e => (l.type, l.size, e)))

theorem known_iff {olds : List Esl} {l : Esl} {e : List UInt8} (he : e ∈ l.entries) :
    known olds l.type e = true ↔ (l.type, l.size, e) ∈ signatures olds := by
  simp only [known, signatures, List.any_eq_true, List.mem_flatMap, List.mem_map, Bool.and_eq_true,
    beq_iff_eq, List.contains_iff_mem, Prod.mk.injEq, l.sized e he]
  constructor
  · rintro ⟨o, ho, ⟨hty, hsize⟩, hmem⟩
    exact ⟨o, ho, e, hmem, hty, hsize, rfl⟩
  · rintro ⟨o, ho, e', hmem, hty, hsize, rfl⟩
    exact ⟨o, ho, ⟨hty, hsize⟩, hmem⟩

/-- The signatures of what is kept are the new ones that do not occur in the old data. -/
theorem signatures_keptLists (olds : List Esl) : ∀ news : List Esl,
    signatures (keptLists olds news) =
      (signatures news).filter (fun x => decide (x ∉ signatures olds))
  | [] => rfl
  | l :: news => by
      have ih := signatures_keptLists olds news
      have hlist : (newEntries olds l.type l.entries).map (fun e => (l.type, l.size, e)) =
          (l.entries.map (fun e => (l.type, l.size, e))).filter
            (fun x => decide (x ∉ signatures olds)) := by
        rw [List.filter_map]
        refine congrArg (List.map _) (List.filter_congr ?_)
        intro e he
        have hiff : known olds l.type e = true ↔ _ := known_iff he
        by_cases hk : known olds l.type e = true
        · simp [hk, hiff.mp hk]
        · simp [hk, mt hiff.mpr hk]
      have hcons : signatures (l :: news) =
          l.entries.map (fun e => (l.type, l.size, e)) ++ signatures news := rfl
      rw [keptLists_cons, hcons, List.filter_append, ← hlist, ← ih]
      split
      · rename_i hnil
        rw [hnil]
        rfl
      · rfl

/-- The loops, with the copy back into the new data. -/
theorem filterSignatureList_kept {new : Buffer} {off : Nat} (olds news : List Esl)
    (h : new.Holds off (encodeAll news)) :
    ∃ new', filterSignatureList (encodeAll olds) new off (encodeAll news).length =
        some (new', (encodeAll (keptLists olds news)).length) ∧
      new'.Holds off (encodeAll (keptLists olds news)) ∧ Buffer.AgreeBelow off new new' := by
  have hkept := length_keptLists_le olds news
  by_cases h0 : (encodeAll news).length = 0
  · have hnil : encodeAll (keptLists olds news) = [] := List.eq_nil_of_length_eq_zero (by omega)
    refine ⟨new, ?_, ?_, .refl _ _⟩
    · rw [filterSignatureList, if_pos h0, hnil]
      rfl
    · rw [hnil]
      rw [List.eq_nil_of_length_eq_zero h0] at h
      exact h
  · have hold : ∀ ty entry, entryKnown (Buffer.ofList (encodeAll olds)) ty entry
        ((encodeAll olds).length + 1) 0 (encodeAll olds).length = some (known olds ty entry) :=
      fun ty entry => entryKnown_eq ty entry olds _ 0 (Buffer.holds_ofList _) (Nat.lt_succ_self _)
    have hcap : ([] : List UInt8).length + (encodeAll news).length ≤ (encodeAll news).length :=
      (Nat.zero_add _).le
    have hlists := filterLists_eq hold news _ off [] h (Nat.lt_succ_self _) hcap
    rw [List.nil_append] at hlists
    have hin : off + (encodeAll news).length ≤ new.size := Buffer.slice_le h
    obtain ⟨new', hw⟩ : ∃ new', new.write off (encodeAll (keptLists olds news)) = some new' :=
      Buffer.write_isSome (by omega)
    refine ⟨new', ?_, Buffer.slice_write hw, Buffer.agreeBelow_write hw⟩
    rw [filterSignatureList, if_neg h0, hlists]
    show (new.write off _).bind _ = _
    rw [hw]
    rfl

/-- **`FilterSignatureList` leaves the new signatures**, in their order and in their lists,
where the new data stood; a list with none is gone.  The result is not longer than the new
data, and what lies in front of it is untouched. -/
theorem filterSignatureList_eq {new : Buffer} {off : Nat} (olds news : List Esl)
    (h : new.Holds off (encodeAll news)) :
    ∃ new', filterSignatureList (encodeAll olds) new off (encodeAll news).length =
        some (new', (encodeAll (keptLists olds news)).length) ∧
      new'.Holds off (encodeAll (keptLists olds news)) ∧
      signatures (keptLists olds news) =
        (signatures news).filter (fun x => decide (x ∉ signatures olds)) ∧
      (encodeAll (keptLists olds news)).length ≤ (encodeAll news).length ∧
      Buffer.AgreeBelow off new new' := by
  obtain ⟨new', hfilter, hholds, hagree⟩ := filterSignatureList_kept olds news h
  exact ⟨new', hfilter, hholds, signatures_keptLists olds news, length_keptLists_le olds news,
    hagree⟩

/-- A list of SHA-256 digests, without an owner and each of one byte repeated. -/
def digestEsl (bytes : List UInt8) (h : bytes.length < 1000) : Esl where
  type := EFI_CERT_SHA256_GUID
  size := 48
  entries := bytes.map (fun x => List.replicate GUID_SIZE 0 ++ List.replicate 32 x)
  size_pos := by decide
  size_lt := by decide
  sized := by
    intro e he
    obtain ⟨x, _, rfl⟩ := List.mem_map.mp he
    rw [List.length_append, List.length_replicate, List.length_replicate]
    rfl
  fits := by
    rw [List.length_map]
    unfold ESL_SIZE
    omega

/-- Of two new lists, one of them all known, the other half known, one entry is left. -/
theorem filterSignatureList_digests : ∃ new',
    filterSignatureList (encodeAll [digestEsl [1, 2] (by decide)])
      (Buffer.ofList (encodeAll [digestEsl [2, 3] (by decide), digestEsl [1] (by decide)])) 0 200 =
        some (new', 76) ∧
    new'.Holds 0 (encodeAll [digestEsl [3] (by decide)]) := by
  obtain ⟨new', hfilter, hholds, _⟩ := filterSignatureList_eq [digestEsl [1, 2] (by decide)]
    [digestEsl [2, 3] (by decide), digestEsl [1] (by decide)] (Buffer.holds_ofList _)
  have hkept : encodeAll (keptLists [digestEsl [1, 2] (by decide)]
      [digestEsl [2, 3] (by decide), digestEsl [1] (by decide)]) =
        encodeAll [digestEsl [3] (by decide)] := by
    decide +kernel
  rw [hkept] at hfilter hholds
  exact ⟨new', hfilter, hholds⟩

end Uefistored
