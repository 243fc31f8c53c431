/-
# `Uefistored.SigShape` — well-formed signature lists, and the walks over them

`IsSigList l`: the bytes `l` are one `EFI_SIGNATURE_LIST` of a supported type
whose entries fill it exactly.  `SigLists data`: the data are such lists, one
behind the other.  The fields are read with the same accessors as the loops
read them, so a list inside a longer object is read as if it stood alone
(`IsSigList.at`).

Over such data every walk comes to its end: it never divides by a zero
`SignatureSize`, never reads outside and never stays at a list.

    the inner loops of `FilterSignatureList`               (`SigLists.entryKnown_isSome`)
    the loop of `verify_kek`                               (`SigLists.kekLists_isSome`)
    what `FilterSignatureList` keeps is well formed again  (`filterSignatureList_sigLists`)
-/
import Uefistored.Filter
import Uefistored.Lib.Layout

namespace Uefistored

open Lib SigList

/-! ## Lists -/

/-- One `EFI_SIGNATURE_LIST`, with nothing behind it. -/
structure IsSigList (l : List UInt8) : Prop where
  supported : ∃ item ∈ supportedSigs, signatureType (Buffer.ofList l) 0 = some item.sigType
  header_fits : ESL_SIZE ≤ l.length
  listSize_eq : signatureListSize (Buffer.ofList l) 0 = some l.length
  headerSize_eq : headerSize (Buffer.ofList l) 0 = some 0
  entries : ∃ ssz, signatureSize (Buffer.ofList l) 0 = some ssz ∧ GUID_SIZE ≤ ssz ∧
    ssz ∣ l.length - ESL_SIZE

/-- Lists, one behind the other, that cover the data exactly. -/
def SigLists (data : List UInt8) : Prop :=
  ∃ ls : List (List UInt8), (∀ l ∈ ls, IsSigList l) ∧ ls.flatten = data

namespace SigLists

theorem nil : SigLists [] := ⟨[], by simp, rfl⟩

theorem single {l : List UInt8} (h : IsSigList l) : SigLists l :=
  ⟨[l], by simpa using h, by simp⟩

theorem append {d d' : List UInt8} : SigLists d → SigLists d' → SigLists (d ++ d')
  | ⟨ls, hls, hd⟩, ⟨ls', hls', hd'⟩ => by
      refine ⟨ls ++ ls', ?_, ?_⟩
      · intro l hl
        rcases List.mem_append.mp hl with hl | hl
        · exact hls l hl
        · exact hls' l hl
      · rw [List.flatten_append, hd, hd']

end SigLists

/-- The header of a list at a position of an object. -/
structure HeaderAt (b : Buffer) (pos : Nat) (ty : Guid) (lsz ssz : Nat) : Prop where
  type_eq : signatureType b pos = some ty
  listSize_eq : signatureListSize b pos = some lsz
  headerSize_eq : headerSize b pos = some 0
  signatureSize_eq : signatureSize b pos = some ssz

theorem HeaderAt.of_holds {b : Buffer} {pos lsz ssz : Nat} {ty : Guid} (hlsz : lsz < 2 ^ 32)
    (hssz : ssz < 2 ^ 32)
    (h : b.Holds pos (ty.bytes ++ leBytes 4 lsz ++ leBytes 4 0 ++ leBytes 4 ssz)) :
    HeaderAt b pos ty lsz ssz := by
  obtain ⟨hrest, hs⟩ := Buffer.holds_append.mp h
  obtain ⟨hrest, hh⟩ := Buffer.holds_append.mp hrest
  obtain ⟨hty, hl⟩ := Buffer.holds_append.mp hrest
  simp only [List.length_append, length_leBytes, ty.length_eq] at hl hh hs
  refine ⟨?_, hl.num_eq hlsz, hh.num_eq (by decide), hs.num_eq hssz⟩
  show (b.slice pos 16).map (Block.ofList 16) = some ty
  rw [hty.slice_eq ty.length_eq]
  exact congrArg some (Block.ofList_bytes_self ty)

/-- A part of an object whose header reads as a list of its length. -/
theorem HeaderAt.part {b : Buffer} {pos lsz ssz : Nat} {ty : Guid}
    (hin : pos + lsz ≤ b.bytes.length) (h28 : ESL_SIZE ≤ lsz) :
    HeaderAt (Buffer.ofList ((b.bytes.drop pos).take lsz)) 0 ty lsz ssz ↔
      HeaderAt b pos ty lsz ssz := by
  have h28 : 28 ≤ lsz := h28
  have hty : signatureType (Buffer.ofList ((b.bytes.drop pos).take lsz)) 0 = signatureType b pos :=
    congrArg (Option.map (Block.ofList 16)) (Buffer.slice_part hin (by omega))
  have hlsz : signatureListSize (Buffer.ofList ((b.bytes.drop pos).take lsz)) 0 =
      signatureListSize b pos :=
    Buffer.num_part hin (by omega)
  have hhsz : headerSize (Buffer.ofList ((b.bytes.drop pos).take lsz)) 0 = headerSize b pos :=
    Buffer.num_part hin (by omega)
  have hssz : signatureSize (Buffer.ofList ((b.bytes.drop pos).take lsz)) 0 =
      signatureSize b pos :=
    Buffer.num_part hin (by omega)
  constructor
  · rintro ⟨h1, h2, h3, h4⟩
    exact ⟨hty ▸ h1, hlsz ▸ h2, hhsz ▸ h3, hssz ▸ h4⟩
  · rintro ⟨h1, h2, h3, h4⟩
    exact ⟨hty.trans h1, hlsz.trans h2, hhsz.trans h3, hssz.trans h4⟩

/-- A well-formed list, read where it stands. -/
structure ListAt (b : Buffer) (pos : Nat) (ty : Guid) (lsz ssz : Nat) : Prop
    extends HeaderAt b pos ty lsz ssz where
  supported : ∃ item ∈ supportedSigs, item.sigType = ty
  inside : pos + lsz ≤ b.bytes.length
  header_fits : ESL_SIZE ≤ lsz
  guid_fits : GUID_SIZE ≤ ssz
  divides : ssz ∣ lsz - ESL_SIZE

theorem ListAt.isSigList {b : Buffer} {pos lsz ssz : Nat} {ty : Guid}
    (h : ListAt b pos ty lsz ssz) : IsSigList ((b.bytes.drop pos).take lsz) := by
  have hlen : ((b.bytes.drop pos).take lsz).length = lsz := by
    have := h.inside
    rw [List.length_take, List.length_drop]
    omega
  obtain ⟨hty, hlsz, hhsz, hssz⟩ := (HeaderAt.part h.inside h.header_fits).mpr h.toHeaderAt
  obtain ⟨item, hitem, rfl⟩ := h.supported
  exact ⟨⟨item, hitem, hty⟩, h.header_fits.trans hlen.ge, hlsz.trans (congrArg some hlen.symm),
    hhsz, ssz, hssz, h.guid_fits, hlen.symm ▸ h.divides⟩

theorem IsSigList.at {b : Buffer} {pos : Nat} {l rest : List UInt8} (h : IsSigList l)
    (hb : b.bytes.drop pos = l ++ rest) : ∃ ty ssz, ListAt b pos ty l.length ssz := by
  have hin : pos + l.length ≤ b.bytes.length := by
    have hlen := congrArg List.length hb
    have h28 : 28 ≤ l.length := h.header_fits
    rw [List.length_drop, List.length_append] at hlen
    omega
  have hpart : (b.bytes.drop pos).take l.length = l := by rw [hb, List.take_left]
  obtain ⟨item, hitem, hty⟩ := h.supported
  obtain ⟨ssz, hssz, hguid, hdvd⟩ := h.entries
  refine ⟨item.sigType, ssz, ?_, ⟨item, hitem, rfl⟩, hin, h.header_fits, hguid, hdvd⟩
  rw [← HeaderAt.part hin h.header_fits, hpart]
  exact ⟨hty, h.listSize_eq, h.headerSize_eq, hssz⟩

namespace ListAt

variable {b : Buffer} {pos lsz ssz : Nat} {ty : Guid}

theorem listSize_lt (h : ListAt b pos ty lsz ssz) : lsz < 2 ^ 64 :=
  (Buffer.num_lt h.listSize_eq).trans (by decide)

theorem listSize_pos (h : ListAt b pos ty lsz ssz) : lsz ≠ 0 :=
  (Nat.lt_of_lt_of_le (by decide) h.header_fits).ne'

theorem bodySize_eq (h : ListAt b pos ty lsz ssz) : bodySize lsz 0 = lsz - ESL_SIZE := by
  show sub64 (sub64 lsz ESL_SIZE) 0 = lsz - ESL_SIZE
  rw [sub64_sub64, Nat.add_zero, sub64_of_le h.header_fits h.listSize_lt]

theorem entryCount_eq (h : ListAt b pos ty lsz ssz) :
    entryCount lsz 0 ssz = some ((lsz - ESL_SIZE) / ssz) := by
  unfold entryCount
  rw [if_neg (Nat.lt_of_lt_of_le (by decide) h.guid_fits).ne', h.bodySize_eq]

/-- The entries end where the list ends. -/
theorem entries_fit (h : ListAt b pos ty lsz ssz) :
    pos + ESL_SIZE + (lsz - ESL_SIZE) / ssz * ssz ≤ b.bytes.length := by
  have hfit := h.header_fits
  have hin := h.inside
  rw [Nat.div_mul_cancel h.divides]
  omega

end ListAt

/-! ## The walks over stored lists -/

theorem entryAmong_isSome {old : Buffer} (entry : List UInt8) {ssz : Nat} :
    ∀ (count pos : Nat), pos + count * ssz ≤ old.bytes.length →
      (entryAmong old entry ssz count pos).isSome
  | 0, _, _ => rfl
  | count + 1, pos, h => by
      rw [Nat.succ_mul] at h
      unfold entryAmong
      rw [Buffer.slice_of_le (by omega)]
      show (if _ then some true else entryAmong old entry ssz count (pos + ssz)).isSome
      split
      · rfl
      · exact entryAmong_isSome entry count (pos + ssz) (by omega)

/-- An entry that does not parse is tried to the end of the loop. -/
theorem kekEntries_stuck {P X : Type} {ssl : OpenSsl P X} {b : Buffer} {pkcs7 : P}
    {msg : List UInt8} {ssz pos : Nat}
    (h : d2iX509At ssl b (pos + GUID_SIZE) (sub64 ssz GUID_SIZE) = some none) :
    ∀ count, kekEntries ssl b pkcs7 msg ssz count pos = some false
  | 0 => rfl
  | count + 1 => by
      rw [kekEntries, h]
      exact kekEntries_stuck h count

/-- The loop over certificates that lie inside the object. -/
theorem kekEntries_isSome {P X : Type} (ssl : OpenSsl P X) {b : Buffer} (pkcs7 : P)
    (msg : List UInt8) {ssz : Nat} (hguid : GUID_SIZE ≤ ssz) (hlt : ssz < 2 ^ 32) :
    ∀ (count pos : Nat), pos + count * ssz ≤ b.size →
      (kekEntries ssl b pkcs7 msg ssz count pos).isSome
  | 0, _, _ => rfl
  | count + 1, pos, h => by
      rw [Nat.succ_mul] at h
      have hlen : ssz - GUID_SIZE ≤ (b.upTo (pos + GUID_SIZE) (ssz - GUID_SIZE)).length := by
        rw [Buffer.length_upTo]
        omega
      unfold kekEntries
      rw [sub64_of_le hguid (hlt.trans (by decide)), d2iX509At_of_le hlen, Option.bind_eq_bind,
        Option.bind_some]
      -- where the entry does not parse the loop stays at it, with a turn less to go
      split
      · exact kekEntries_isSome ssl pkcs7 msg hguid hlt count pos (by omega)
      · split
        · rfl
        · exact kekEntries_isSome ssl pkcs7 msg hguid hlt count (pos + ssz) (by omega)

namespace SigLists

/-- A walk over well-formed lists: at each of them it takes a step, and there is one list
less in front of it. -/
theorem walk {b : Buffer} {Q : Nat → Nat → Nat → Prop} (hnil : ∀ fuel pos, Q (fuel + 1) pos 0)
    (hcons : ∀ fuel pos left ty lsz ssz, ListAt b pos ty lsz ssz → Q fuel (pos + lsz) left →
      Q (fuel + 1) pos (lsz + left)) :
    ∀ (ls : List (List UInt8)) (fuel pos : Nat), (∀ l ∈ ls, IsSigList l) →
      b.bytes.drop pos = ls.flatten → ls.flatten.length < fuel → Q fuel pos ls.flatten.length
  | _, 0, _, _, _, h => absurd h (Nat.not_lt_zero _)
  | [], fuel + 1, pos, _, _, _ => hnil fuel pos
  | l :: ls, fuel + 1, pos, hls, hb, hfuel => by
      rw [List.flatten_cons] at hb hfuel ⊢
      rw [List.length_append] at hfuel ⊢
      obtain ⟨ty, ssz, hl⟩ := (hls l (List.mem_cons_self ..)).at hb
      have hpos := hl.listSize_pos
      refine hcons fuel pos _ ty _ ssz hl ?_
      refine walk hnil hcons ls fuel _ (fun l' h' => hls l' (List.mem_cons_of_mem _ h')) ?_
        (by omega)
      rw [← List.drop_drop, hb, List.drop_left]

/-- The rule for a walk over all of stored data. -/
theorem walk_all {data : List UInt8} (h : SigLists data) {Q : Nat → Nat → Nat → Prop}
    (hnil : ∀ fuel pos, Q (fuel + 1) pos 0)
    (hcons : ∀ fuel pos left ty lsz ssz, ListAt (Buffer.ofList data) pos ty lsz ssz →
      Q fuel (pos + lsz) left → Q (fuel + 1) pos (lsz + left)) :
    Q (data.length + 1) 0 data.length := by
  obtain ⟨ls, hls, rfl⟩ := h
  exact walk hnil hcons ls _ 0 hls rfl (Nat.lt_succ_self _)

theorem entryKnown_isSome {data : List UInt8} (h : SigLists data) (ty : Guid)
    (entry : List UInt8) :
    (entryKnown (Buffer.ofList data) ty entry (data.length + 1) 0 data.length).isSome := by
  refine walk_all h (Q := fun fuel pos left =>
    (entryKnown (Buffer.ofList data) ty entry fuel pos left).isSome) (fun _ _ => rfl) ?_
  intro fuel pos left oty lsz ssz hl hnext
  have hpos := hl.listSize_pos
  obtain ⟨known, hknown⟩ := Option.isSome_iff_exists.mp
    (entryAmong_isSome entry _ _ hl.entries_fit)
  have hgo : ∀ known : Bool, (if known = true then pure true else
      entryKnown (Buffer.ofList data) ty entry fuel (pos + lsz) left).isSome := by
    intro known
    cases known with
    | true => rfl
    | false => exact hnext
  unfold entryKnown
  rw [if_neg (by omega), hl.listSize_eq]
  simp only [Option.bind_eq_bind, Option.bind_some]
  rw [if_neg (Nat.not_lt.mpr (Nat.le_add_right lsz left)), if_neg hpos, hl.type_eq,
    Nat.add_sub_cancel_left]
  simp only [Option.bind_some]
  by_cases hty : (oty == ty) = true
  · rw [if_pos hty, hl.signatureSize_eq, Option.bind_some]
    split
    · rw [hl.headerSize_eq, Option.bind_some, hl.entryCount_eq, Option.bind_some,
        Nat.add_zero, hknown]
      exact hgo known
    · exact hgo false
  · rw [if_neg hty, if_neg (by rw [Bool.and_eq_true]; exact fun h => hty h.1)]
    exact hgo false

theorem kekLists_isSome {P X : Type} {data : List UInt8} (h : SigLists data) (ssl : OpenSsl P X)
    (pkcs7 : P) (msg : List UInt8) :
    (kekLists ssl (Buffer.ofList data) pkcs7 msg (data.length + 1) 0 data.length).isSome := by
  refine walk_all h (Q := fun fuel pos left =>
    (kekLists ssl (Buffer.ofList data) pkcs7 msg fuel pos left).isSome) (fun _ _ => rfl) ?_
  intro fuel pos left ty lsz ssz hl hnext
  have hpos := hl.listSize_pos
  have hgo : ∀ found : Bool, (if found = true then pure true else
      kekLists ssl (Buffer.ofList data) pkcs7 msg fuel (pos + lsz) left).isSome := by
    intro found
    cases found with
    | true => rfl
    | false => exact hnext
  unfold kekLists
  rw [if_neg (by omega), hl.listSize_eq]
  simp only [Option.bind_eq_bind, Option.bind_some]
  rw [if_neg (Nat.not_lt.mpr (Nat.le_add_right lsz left)), if_neg hpos, hl.type_eq,
    Nat.add_sub_cancel_left]
  simp only [Option.bind_some]
  split
  · obtain ⟨found, hfound⟩ := Option.isSome_iff_exists.mp (kekEntries_isSome ssl pkcs7 msg
      hl.guid_fits (Buffer.num_lt hl.signatureSize_eq) _ _
      (hl.entries_fit.trans (Buffer.ofList data).fits))
    rw [hl.headerSize_eq, Option.bind_some, hl.signatureSize_eq, Option.bind_some,
      hl.entryCount_eq, Option.bind_some, Nat.add_zero, hfound]
    exact hgo found
  · exact hgo false

end SigLists

/-! ## What `FilterSignatureList` keeps -/

section Relist
variable {header body : List UInt8}

theorem relist_take (h : 20 ≤ header.length) : (relist header body).take 16 = header.take 16 := by
  have hlen : (header.take 16).length = 16 := by
    rw [List.length_take]
    omega
  unfold relist
  rw [List.append_assoc, List.append_assoc, List.take_append_of_le_length hlen.ge,
    List.take_of_length_le hlen.le]

theorem relist_drop (h : 20 ≤ header.length) :
    (relist header body).drop 20 = header.drop 20 ++ body := by
  have hlen : (header.take 16 ++ leBytes 4 (header.length + body.length)).length = 20 := by
    rw [List.length_append, List.length_take, length_leBytes]
    omega
  unfold relist
  rw [List.append_assoc, List.drop_append_of_le_length hlen.ge, List.drop_of_length_le hlen.le,
    List.nil_append]

theorem relist_listSize (h : 20 ≤ header.length) :
    ((relist header body).drop 16).take 4 = leBytes 4 (header.length + body.length) := by
  have hlen : (header.take 16).length = 16 := by
    rw [List.length_take]
    omega
  unfold relist
  rw [List.append_assoc, List.append_assoc, List.drop_append_of_le_length hlen.ge,
    List.drop_of_length_le hlen.le, List.nil_append,
    List.take_append_of_le_length (length_leBytes ..).ge,
    List.take_of_length_le (length_leBytes ..).le]

/-- In front of the size field, the new list reads as the header it was made from. -/
theorem slice_relist_type (h : 20 ≤ header.length) :
    (Buffer.ofList (relist header body)).slice 0 16 = (Buffer.ofList header).slice 0 16 := by
  have hlen : 16 ≤ (relist header body).length := by
    rw [length_relist h]
    omega
  rw [Buffer.slice_of_le (show 0 + 16 ≤ (relist header body).length by omega),
    Buffer.slice_of_le (show 0 + 16 ≤ header.length by omega)]
  exact congrArg some (relist_take h)

/-- And so behind it. -/
theorem slice_relist_sizes (h : 20 ≤ header.length) {o n : Nat} (hn : 20 + o + n ≤ header.length) :
    (Buffer.ofList (relist header body)).slice (20 + o) n =
      (Buffer.ofList header).slice (20 + o) n := by
  have hlen : (relist header body).length = header.length + body.length := length_relist h
  have hrest : o + n ≤ (header.drop 20).length := by
    rw [List.length_drop]
    omega
  rw [Buffer.slice_of_le (show _ ≤ (relist header body).length by omega),
    Buffer.slice_of_le (show _ ≤ header.length by omega)]
  show some (((relist header body).drop (20 + o)).take n) = some ((header.drop (20 + o)).take n)
  rw [← List.drop_drop, relist_drop h, List.drop_append_of_le_length (by omega),
    List.take_append_of_le_length (by rw [List.length_drop]; omega), List.drop_drop]

theorem listSize_relist (h : 20 ≤ header.length) (hlt : header.length + body.length < 2 ^ 32) :
    signatureListSize (Buffer.ofList (relist header body)) 0 =
      some (relist header body).length := by
  have hlen : 20 ≤ (relist header body).length := by
    rw [length_relist h]
    omega
  show ((Buffer.ofList (relist header body)).slice 16 4).map leNat = _
  rw [Buffer.slice_of_le (show 16 + 4 ≤ _ from hlen), length_relist h]
  show some (leNat (((relist header body).drop 16).take 4)) = _
  rw [relist_listSize h, leNat_leBytes_of_lt hlt]

/-- A list that keeps only some of its entries is a list. -/
theorem ListAt.relist {b : Buffer} {pos lsz ssz : Nat} {ty : Guid} (h : ListAt b pos ty lsz ssz)
    {kept : List (List UInt8)} (hheader : b.slice pos ESL_SIZE = some header)
    (hkept : ∀ e ∈ kept, e.length = ssz) (hlt : ESL_SIZE + kept.flatten.length < 2 ^ 32) :
    IsSigList (relist header kept.flatten) := by
  have hin : pos + ESL_SIZE ≤ b.bytes.length :=
    (Nat.add_le_add_left h.header_fits pos).trans h.inside
  have hlen : header.length = ESL_SIZE := Buffer.length_slice hheader
  have h20 : 20 ≤ header.length := hlen ▸ (show 20 ≤ ESL_SIZE by decide)
  have hrelen : (Uefistored.relist header kept.flatten).length = ESL_SIZE + kept.flatten.length :=
    (length_relist h20).trans (by rw [hlen])
  -- the header read alone is the header read where it stands
  have hread : ∀ {off n}, off + n ≤ ESL_SIZE →
      (Buffer.ofList header).slice off n = b.slice (pos + off) n := by
    intro off n hle
    rw [← Buffer.slice_part hin hle]
    exact congrArg (fun l => (Buffer.ofList l).slice off n)
      (Option.some.inj (hheader.symm.trans (Buffer.slice_of_le hin)))
  have hsizes : ∀ {o}, 20 + o + 4 ≤ ESL_SIZE →
      (Buffer.ofList (Uefistored.relist header kept.flatten)).num (20 + o) 4 =
        b.num (pos + (20 + o)) 4 := by
    intro o hle
    exact congrArg (Option.map leNat)
      ((slice_relist_sizes h20 (hle.trans hlen.ge)).trans (hread hle))
  obtain ⟨item, hitem, rfl⟩ := h.supported
  refine ⟨⟨item, hitem, ?_⟩, hrelen ▸ Nat.le_add_right .., ?_, ?_, ssz, ?_, h.guid_fits, ?_⟩
  · rw [← h.type_eq]
    exact congrArg (Option.map (Block.ofList 16))
      ((slice_relist_type h20).trans (hread (show 0 + 16 ≤ ESL_SIZE by decide)))
  · exact listSize_relist h20 (hlen ▸ hlt)
  · exact (hsizes (o := 0) (by decide)).trans h.headerSize_eq
  · exact (hsizes (o := 4) (by decide)).trans h.signatureSize_eq
  · rw [hrelen, Nat.add_sub_cancel_left, length_flatten_entries hkept]
    exact Nat.dvd_mul_left ..

end Relist

/-- Filtering well-formed lists gives well-formed lists. -/
theorem filterLists_sigLists {old new : Buffer} {oldSize cap : Nat} (hcap : cap < 2 ^ 32)
    {ls : List (List UInt8)} (hls : ∀ l ∈ ls, IsSigList l) {pos fuel : Nat} {t : List UInt8}
    (hb : new.bytes.drop pos = ls.flatten) (hfuel : ls.flatten.length < fuel)
    (h : filterLists old new oldSize cap fuel pos ls.flatten.length [] = some t) :
    SigLists t := by
  have hwalk : ∀ tail, SigLists tail → tail.length ≤ cap →
      filterLists old new oldSize cap fuel pos ls.flatten.length tail = some t → SigLists t := by
    refine SigLists.walk (b := new) (Q := fun fuel pos left => ∀ tail, SigLists tail →
      tail.length ≤ cap → filterLists old new oldSize cap fuel pos left tail = some t →
      SigLists t) ?_ ?_ ls fuel pos hls hb hfuel
    · intro fuel pos tail htail _ h
      cases h
      exact htail
    · intro fuel pos left ty lsz ssz hl ih tail htail hle h
      rcases filterLists_cases h hle with
        ⟨rfl, _⟩ | ⟨lsz', hsz, ssz', tail₂, hlsz, hhsz, hssz, _, hle₂, hkept, h⟩
      · exact htail
      obtain rfl := Option.some.inj (hl.listSize_eq.symm.trans hlsz)
      obtain rfl := Option.some.inj (hl.headerSize_eq.symm.trans hhsz)
      obtain rfl := Option.some.inj (hl.signatureSize_eq.symm.trans hssz)
      rw [Nat.add_sub_cancel_left] at h
      refine ih tail₂ ?_ hle₂ h
      rcases hkept with rfl | ⟨header, kept, hheader, hlen, _, rfl⟩
      · exact htail
      · refine htail.append (.single (hl.relist hheader hlen ?_))
        have hhlen : header.length = ESL_SIZE := Buffer.length_slice hheader
        rw [List.length_append, length_relist (hhlen ▸ by decide), hhlen] at hle₂
        omega
  exact hwalk [] .nil (Nat.zero_le _) h

theorem filterSignatureList_sigLists {old l : List UInt8} {new new' : Buffer} {off size size' : Nat}
    (hend : off + size = new.bytes.length) (hlt : size < 2 ^ 32)
    (hnew : SigLists (new.bytes.drop off))
    (h : filterSignatureList old new off size = some (new', size'))
    (hl : new'.slice off size' = some l) : SigLists l := by
  unfold filterSignatureList at h
  split at h
  · cases h
    rw [List.eq_nil_of_length_eq_zero (Buffer.length_slice hl)]
    exact .nil
  · obtain ⟨tail, htail, h⟩ := Option.bind_eq_some_iff.mp h
    obtain ⟨new₁, hw, h⟩ := Option.bind_eq_some_iff.mp h
    cases h
    obtain ⟨ls, hls, hflat⟩ := hnew
    have hsize : size = ls.flatten.length := by
      rw [hflat, List.length_drop]
      omega
    rw [hsize] at htail hlt
    obtain rfl : tail = l := Option.some.inj ((Buffer.slice_write hw).symm.trans hl)
    exact filterLists_sigLists hlt hls hflat.symm (Nat.lt_succ_self _) htail

end Uefistored
