/-
# `Uefistored.KekSearch` — the search of `verify_kek` through KEK

`verify_kek` looks for a certificate in KEK under which the signature verifies.
It goes through the lists, and through the entries of each X.509 list; but where
an entry does not parse, `continue` leaves the pointer at that entry, and the
rest of the turns of the loop are spent on it.  So of each list only the entries
in front of the first one that does not parse are tried (`kekEntries_eq`).

`check_signature_list_format` looks at the first entry of a list only, so such
an entry can stand in a stored KEK.  `findsTrusted_iff` says for which KEK, which
descriptor and which message the answer is nevertheless the one that is asked
for.
-/
import Mathlib.Data.List.TakeWhile
import Uefistored.Esl
import Uefistored.SigStored

namespace Uefistored

open Lib SigList

/-! ## Lists of bytes as records -/

/-- Bytes cut into entries of one size. -/
theorem exists_entries {n : Nat} : ∀ (k : Nat) {d : List UInt8}, d.length = k * n →
    ∃ es : List (List UInt8), es.length = k ∧ (∀ e ∈ es, e.length = n) ∧ es.flatten = d
  | 0, d, h => by
      rw [Nat.zero_mul] at h
      exact ⟨[], rfl, fun _ he => absurd he List.not_mem_nil,
        (List.eq_nil_of_length_eq_zero h).symm⟩
  | k + 1, d, h => by
      rw [Nat.succ_mul] at h
      have hrest : (d.drop n).length = k * n := by
        rw [List.length_drop, h, Nat.add_sub_cancel]
      obtain ⟨es, hk, hes, hflat⟩ := exists_entries k hrest
      refine ⟨d.take n :: es, congrArg Nat.succ hk, List.forall_mem_cons.mpr ⟨?_, hes⟩, ?_⟩
      · rw [List.length_take]
        omega
      · rw [List.flatten_cons, hflat, List.take_append_drop]

/-- A number that is read stands there. -/
theorem holds_of_num {b : Buffer} {pos k v : Nat} (h : b.num pos k = some v) :
    b.Holds pos (leBytes k v) := by
  obtain ⟨l, hl, rfl⟩ := Option.map_eq_some_iff.mp h
  obtain rfl := Buffer.length_slice hl
  rw [leBytes_leNat]
  exact hl

/-- The type of a list that is read stands there. -/
theorem holds_of_signatureType {b : Buffer} {pos : Nat} {ty : Guid}
    (h : signatureType b pos = some ty) : b.Holds pos ty.bytes := by
  obtain ⟨l, hl, rfl⟩ := Option.map_eq_some_iff.mp h
  rw [Block.ofList_bytes_of_length (Buffer.length_slice hl)]
  show b.slice pos l.length = some l
  rw [Buffer.length_slice hl]
  exact hl

/-- So do the four fields of a header. -/
theorem HeaderAt.holds {b : Buffer} {pos lsz ssz : Nat} {ty : Guid}
    (h : HeaderAt b pos ty lsz ssz) :
    b.Holds pos (ty.bytes ++ leBytes 4 lsz ++ leBytes 4 0 ++ leBytes 4 ssz) := by
  have hty := holds_of_signatureType h.type_eq
  have hlsz := holds_of_num h.listSize_eq
  have hhsz := holds_of_num h.headerSize_eq
  have hssz := holds_of_num h.signatureSize_eq
  simp only [Buffer.holds_append, List.length_append, length_leBytes, ty.length_eq]
  exact ⟨⟨⟨hty, hlsz⟩, hhsz⟩, hssz⟩

/-- A well-formed list is a record laid out. -/
theorem IsSigList.exists_esl {l : List UInt8} (h : IsSigList l) : ∃ r : Esl, r.encode = l := by
  obtain ⟨item, _, hty⟩ := h.supported
  obtain ⟨ssz, hssz, hguid, k, hk⟩ := h.entries
  have hfits := h.header_fits
  have hbody : (l.drop ESL_SIZE).length = k * ssz := by
    rw [List.length_drop, hk, Nat.mul_comm]
  obtain ⟨es, rfl, hsized, hflat⟩ := exists_entries k hbody
  have hsize : l.length = ESL_SIZE + es.length * ssz := by
    rw [List.length_drop] at hbody
    omega
  have hlt : l.length < 2 ^ 32 := Buffer.num_lt h.listSize_eq
  let r : Esl := ⟨item.sigType, ssz, es, Nat.lt_of_lt_of_le (by decide) hguid, Buffer.num_lt hssz,
    hsized, hsize ▸ hlt⟩
  have hheader : (Buffer.ofList l).Holds 0 r.header := by
    refine HeaderAt.holds ⟨hty, h.listSize_eq.trans (congrArg some hsize), h.headerSize_eq, hssz⟩
  have htake : l.take ESL_SIZE = r.header := by
    have hslice := hheader.slice_eq r.length_header
    rw [Buffer.slice_of_le (show 0 + ESL_SIZE ≤ l.length by omega)] at hslice
    exact Option.some.inj hslice
  refine ⟨r, ?_⟩
  rw [Esl.encode, ← htake, show r.entries.flatten = l.drop ESL_SIZE from hflat,
    List.take_append_drop]

theorem SigLists.exists_esls {data : List UInt8} (h : SigLists data) :
    ∃ lists : List Esl, encodeAll lists = data := by
  obtain ⟨ls, hls, rfl⟩ := h
  induction ls with
  | nil => exact ⟨[], rfl⟩
  | cons l ls ih =>
      obtain ⟨hl, hrest⟩ := List.forall_mem_cons.mp hls
      obtain ⟨r, rfl⟩ := hl.exists_esl
      obtain ⟨lists, hlists⟩ := ih hrest
      exact ⟨r :: lists, by rw [encodeAll_cons, hlists, List.flatten_cons]⟩

/-! ## The loops -/

section
variable {P X : Type}

/-- `X509_from_sig_data` on an entry: the certificate behind the owner. -/
def sigCert (ssl : OpenSsl P X) (e : List UInt8) : Option X :=
  ssl.d2iX509 (e.drop GUID_SIZE) (toLong (e.length - GUID_SIZE))

/-- The entry is a certificate under which the message verifies. -/
def sigVerifies (ssl : OpenSsl P X) (pkcs7 : P) (msg e : List UInt8) : Bool :=
  (sigCert ssl e).any (fun x => pkcs7Verify ssl pkcs7 x msg)

variable {ssl : OpenSsl P X} {b : Buffer} {pkcs7 : P} {msg : List UInt8}

/-- What the loop reads of an entry is the entry. -/
theorem d2iX509At_entry {pos ssz : Nat} {e : List UInt8} (he : e.length = ssz)
    (hguid : GUID_SIZE ≤ ssz) (hlt : ssz < 2 ^ 32) (h : b.Holds pos e) :
    d2iX509At ssl b (pos + GUID_SIZE) (sub64 ssz GUID_SIZE) = some (sigCert ssl e) := by
  have howner : (e.take GUID_SIZE).length = GUID_SIZE := by
    rw [List.length_take]
    omega
  have hcert : b.Holds (pos + GUID_SIZE) (e.drop GUID_SIZE) := by
    rw [← List.take_append_drop GUID_SIZE e] at h
    have hrest := (Buffer.holds_append.mp h).2
    rwa [howner] at hrest
  have hlen : (e.drop GUID_SIZE).length = ssz - GUID_SIZE := by
    rw [List.length_drop, he]
  have hbytes := hcert.upTo_eq hlen
  rw [sub64_of_le hguid (hlt.trans (by decide)), d2iX509At_of_le (by rw [hbytes, hlen]), hbytes,
    sigCert, he]

/-- Of a list the entries in front of the first one that does not parse are tried. -/
theorem kekEntries_eq {ssz : Nat} (hguid : GUID_SIZE ≤ ssz) (hlt : ssz < 2 ^ 32) :
    ∀ (es : List (List UInt8)) (pos : Nat), (∀ e ∈ es, e.length = ssz) → b.Holds pos es.flatten →
      kekEntries ssl b pkcs7 msg ssz es.length pos =
        some ((es.takeWhile fun e => (sigCert ssl e).isSome).any (sigVerifies ssl pkcs7 msg))
  | [], _, _, _ => rfl
  | e :: es, pos, hlen, h => by
      have he : e.length = ssz := hlen e List.mem_cons_self
      obtain ⟨hfirst, hrest⟩ := Buffer.holds_append.mp h
      rw [he] at hrest
      have hread : d2iX509At ssl b _ _ = some (sigCert ssl e) :=
        d2iX509At_entry he hguid hlt hfirst
      have ih := kekEntries_eq hguid hlt es (pos + ssz)
        (fun x hx => hlen x (List.mem_cons_of_mem _ hx)) hrest
      cases hcert : sigCert ssl e with
      | none =>
          rw [hcert] at hread
          rw [kekEntries_stuck hread,
            List.takeWhile_cons_of_neg (by rw [hcert]; exact Bool.false_ne_true)]
          rfl
      | some x =>
          rw [List.length_cons, kekEntries, hread, hcert,
            List.takeWhile_cons_of_pos (by rw [hcert]; rfl), List.any_cons, ih]
          show (if pkcs7Verify ssl pkcs7 x msg then some true else some _) = _
          rw [show sigVerifies ssl pkcs7 msg e = pkcs7Verify ssl pkcs7 x msg by
            rw [sigVerifies, hcert]; rfl]
          cases pkcs7Verify ssl pkcs7 x msg with
          | true => rfl
          | false => rfl

/-- One list, as the search goes through it. -/
def searched (ssl : OpenSsl P X) (pkcs7 : P) (msg : List UInt8) (l : Esl) : Bool :=
  l.type == gEfiCertX509Guid &&
    (l.entries.takeWhile fun e => (sigCert ssl e).isSome).any (sigVerifies ssl pkcs7 msg)

theorem kekLists_eq : ∀ (lists : List Esl) (fuel pos : Nat), (∀ l ∈ lists, GUID_SIZE ≤ l.size) →
    b.Holds pos (encodeAll lists) → (encodeAll lists).length < fuel →
    kekLists ssl b pkcs7 msg fuel pos (encodeAll lists).length =
      some (lists.any (searched ssl pkcs7 msg))
  | _, 0, _, _, _, hfuel => absurd hfuel (Nat.not_lt_zero _)
  | [], _ + 1, _, _, _, _ => rfl
  | l :: lists, fuel + 1, pos, hguid, h, hfuel => by
      obtain ⟨hg, hguid⟩ := List.forall_mem_cons.mp hguid
      obtain ⟨hfirst, hrest⟩ := Buffer.holds_append.mp h
      have hl := Esl.at_of_holds hfirst
      rw [Esl.length_encode] at hrest
      rw [length_encodeAll_cons] at hfuel ⊢
      have hpos := l.listSize_pos
      have ih := kekLists_eq lists fuel (pos + l.listSize) hguid hrest (by omega)
      have hentries : kekEntries ssl b pkcs7 msg l.size l.entries.length (pos + ESL_SIZE) = _ :=
        kekEntries_eq hg l.size_lt l.entries (pos + ESL_SIZE) l.sized hl.entries_at
      unfold kekLists
      rw [if_neg (by omega), hl.listSize_eq]
      simp only [Option.bind_eq_bind, Option.bind_some]
      rw [if_neg (Nat.not_lt.mpr (Nat.le_add_right ..)), if_neg hpos, hl.type_eq,
        Nat.add_sub_cancel_left, ih]
      simp only [Option.bind_some, List.any_cons, searched]
      by_cases hty : (l.type == gEfiCertX509Guid) = true
      · rw [if_pos hty, hl.headerSize_eq, Option.bind_some, hl.signatureSize_eq, Option.bind_some,
          l.entryCount_eq, Option.bind_some, Nat.add_zero, hentries, hty, Bool.true_and]
        cases (l.entries.takeWhile fun e => (sigCert ssl e).isSome).any
          (sigVerifies ssl pkcs7 msg) with
        | true => rfl
        | false => rfl
      · rw [if_neg hty, Bool.of_not_eq_true hty]
        rfl

/-! ## An accepted KEK -/

/-- The check has seen the size of the entries of every list. -/
theorem formatWalk_guid_fits : ∀ (lists : List Esl) (fuel pos count : Nat) {n : Nat},
    b.Holds pos (encodeAll lists) →
    formatWalk ssl b fuel pos (encodeAll lists).length count =
      some (.ok (pos + (encodeAll lists).length, n)) →
    ∀ l ∈ lists, GUID_SIZE ≤ l.size
  | _, 0, _, _, _, _, h => by cases h
  | [], _ + 1, _, _, _, _, _ => fun _ hl => absurd hl List.not_mem_nil
  | l :: lists, fuel + 1, pos, count, n, hb, h => by
      obtain ⟨hfirst, hrest⟩ := Buffer.holds_append.mp hb
      have hl := Esl.at_of_holds hfirst
      have hpos := l.listSize_pos
      rw [Esl.length_encode] at hrest
      rw [length_encodeAll_cons] at h
      rcases formatWalk_cases h with ⟨hstop, _⟩ | ⟨ty, lsz, ssz, hp, _, hwalk⟩
      · omega
      · obtain rfl := Option.some.inj (hl.listSize_eq.symm.trans hp.listSize_eq)
        obtain rfl := Option.some.inj (hl.signatureSize_eq.symm.trans hp.signatureSize_eq)
        rw [Nat.add_sub_cancel_left, ← Nat.add_assoc] at hwalk
        exact List.forall_mem_cons.mpr ⟨hp.toVetted.signatureSize_ge,
          formatWalk_guid_fits lists fuel _ _ hrest hwalk⟩

/-- `check_signature_list_format` accepts the data as a KEK. -/
def KekAccepted (ssl : OpenSsl P X) (data : List UInt8) : Prop :=
  checkSignatureListFormat ssl kekKey.name kekKey.guid (Buffer.ofList data) 0 data.length =
    some .success

/-- Then there are no data, or the walk has come to their end. -/
theorem KekAccepted.walk {data : List UInt8} (h : KekAccepted ssl data) : data = [] ∨ ∃ n,
    formatWalk ssl (Buffer.ofList data) (data.length + 1) 0 data.length 0 =
      some (.ok (data.length, n)) := by
  unfold KekAccepted checkSignatureListFormat at h
  split at h
  · rename_i h0
    exact .inl (List.eq_nil_of_length_eq_zero h0)
  obtain ⟨isPk, hkind⟩ := Option.isSome_iff_exists.mp
    (secureBootKeys_formatKind kekKey (by simp [secureBootKeys]))
  rw [hkind] at h
  obtain ⟨r, hwalk, h⟩ := Option.bind_eq_some_iff.mp h
  cases r with
  | error status =>
      obtain rfl := formatWalk_error _ _ _ _ hwalk
      cases h
  | ok r =>
      obtain ⟨stop, count⟩ := r
      dsimp only at h
      split at h
      · cases h
      rename_i hstop
      obtain rfl : stop = data.length := by omega
      exact .inr ⟨count, hwalk⟩

theorem KekAccepted.guid_fits {lists : List Esl} (h : KekAccepted ssl (encodeAll lists)) :
    ∀ l ∈ lists, GUID_SIZE ≤ l.size := by
  rcases h.walk with hnil | ⟨n, hwalk⟩
  · cases lists with
    | nil => exact fun _ hl => absurd hl List.not_mem_nil
    | cons l lists =>
        have hlen := length_encodeAll_cons l lists
        rw [hnil, List.length_nil] at hlen
        exact absurd hlen.symm (by have := l.listSize_pos; omega)
  · have hend : formatWalk ssl (Buffer.ofList (encodeAll lists)) ((encodeAll lists).length + 1) 0
        (encodeAll lists).length 0 = some (.ok (0 + (encodeAll lists).length, n)) := by
      rw [Nat.zero_add]
      exact hwalk
    exact formatWalk_guid_fits lists _ 0 0 (Buffer.holds_ofList _) hend

theorem KekAccepted.exists_esls {data : List UInt8} (hder : ssl.DerOnly)
    (hsize : data.length ≤ MAX_VARIABLE_DATA_SIZE) (h : KekAccepted ssl data) :
    ∃ lists : List Esl, encodeAll lists = data := by
  rcases h.walk with rfl | ⟨n, hwalk⟩
  · exact ⟨[], rfl⟩
  · exact (formatWalk_sigLists hder hsize _ _ _ _ (Nat.zero_add _) hwalk).exists_esls

/-! ## What is looked for, and what is found -/

/-- Some entry of some X.509 list is a certificate under which the message verifies. -/
def Trusts (ssl : OpenSsl P X) (pkcs7 : P) (msg : List UInt8) (lists : List Esl) : Prop :=
  ∃ l ∈ lists, l.type = gEfiCertX509Guid ∧ ∃ e ∈ l.entries, ∃ x, sigCert ssl e = some x ∧
    pkcs7Verify ssl pkcs7 x msg = true

/-- One is, and every entry in front of it in its list parses. -/
def TrustsInFront (ssl : OpenSsl P X) (pkcs7 : P) (msg : List UInt8) (lists : List Esl) : Prop :=
  ∃ l ∈ lists, l.type = gEfiCertX509Guid ∧ ∃ front e back, l.entries = front ++ e :: back ∧
    (∀ e' ∈ front, (sigCert ssl e').isSome = true) ∧ ∃ x, sigCert ssl e = some x ∧
      pkcs7Verify ssl pkcs7 x msg = true

/-- `verify_kek` succeeds exactly if the descriptor's PKCS#7 parses and KEK has a certificate
for it. -/
def FindsTrusted (ssl : OpenSsl P X) (s : Storage) (auth : Buffer) (msg : List UInt8)
    (lists : List Esl) : Prop :=
  verifyKek ssl s auth msg = some true ↔
    ∃ pkcs7, pkcs7FromAuth ssl auth = some (some pkcs7) ∧ Trusts ssl pkcs7 msg lists

theorem sigVerifies_iff {e : List UInt8} : sigVerifies ssl pkcs7 msg e = true ↔
    ∃ x, sigCert ssl e = some x ∧ pkcs7Verify ssl pkcs7 x msg = true := by
  unfold sigVerifies
  rw [Option.any_eq_true]

/-- What stands in the part of a list that passes a test. -/
theorem mem_takeWhile_iff {α : Type} {p : α → Bool} {l : List α} {x : α} :
    x ∈ l.takeWhile p ↔ ∃ front back, l = front ++ x :: back ∧ (∀ y ∈ front, p y = true) ∧
      p x = true := by
  constructor
  · intro hx
    obtain ⟨front, back, hsplit⟩ := List.append_of_mem hx
    refine ⟨front, back ++ l.dropWhile p, ?_, ?_, List.mem_takeWhile_imp hx⟩
    · rw [← List.cons_append, ← List.append_assoc, ← hsplit, List.takeWhile_append_dropWhile]
    · intro y hy
      exact List.mem_takeWhile_imp (hsplit ▸ List.mem_append_left _ hy)
  · rintro ⟨front, back, rfl, hfront, hx⟩
    rw [List.takeWhile_append_of_pos hfront, List.takeWhile_cons_of_pos hx]
    exact List.mem_append_right _ List.mem_cons_self

theorem searched_iff {lists : List Esl} :
    lists.any (searched ssl pkcs7 msg) = true ↔ TrustsInFront ssl pkcs7 msg lists := by
  unfold searched
  simp only [List.any_eq_true, Bool.and_eq_true, beq_iff_eq, mem_takeWhile_iff, sigVerifies_iff]
  refine exists_congr fun l => and_congr_right fun _ => and_congr_right fun _ => ?_
  constructor
  · rintro ⟨e, ⟨front, back, hsplit, hfront, _⟩, hx⟩
    exact ⟨front, e, back, hsplit, hfront, hx⟩
  · rintro ⟨front, e, back, hsplit, hfront, x, hcert, hverify⟩
    exact ⟨e, ⟨front, back, hsplit, hfront, by rw [hcert]; rfl⟩, x, hcert, hverify⟩

theorem TrustsInFront.trusts {lists : List Esl} (h : TrustsInFront ssl pkcs7 msg lists) :
    Trusts ssl pkcs7 msg lists := by
  obtain ⟨l, hl, hty, front, e, back, hsplit, -, hx⟩ := h
  exact ⟨l, hl, hty, e, hsplit ▸ List.mem_append_right _ List.mem_cons_self, hx⟩

/-- What `verify_kek` finds in an accepted KEK. -/
theorem verifyKek_iff {s : Storage} {v : Variable} {lists : List Esl}
    (hfind : storageFindVariable s kekKey = some v) (h : KekAccepted ssl v.data)
    (hlists : encodeAll lists = v.data) (auth : Buffer) (msg : List UInt8) :
    verifyKek ssl s auth msg = some true ↔
      ∃ pkcs7, pkcs7FromAuth ssl auth = some (some pkcs7) ∧ TrustsInFront ssl pkcs7 msg lists := by
  rw [← hlists] at h
  have hwalk : ∀ pkcs7 : P,
      kekLists ssl (Buffer.ofList v.data) pkcs7 msg (v.datasz + 1) 0 v.datasz =
      some (lists.any (searched ssl pkcs7 msg)) := by
    intro pkcs7
    rw [Variable.datasz, ← hlists]
    exact kekLists_eq lists _ 0 h.guid_fits (Buffer.holds_ofList _) (Nat.lt_succ_self _)
  unfold verifyKek
  rw [hfind]
  dsimp only
  constructor
  · intro htrue
    obtain ⟨r, hr, htrue⟩ := Option.bind_eq_some_iff.mp htrue
    cases r with
    | none => cases htrue
    | some pkcs7 =>
        dsimp only at htrue
        rw [hwalk] at htrue
        exact ⟨pkcs7, hr, searched_iff.mp (Option.some.inj htrue)⟩
  · rintro ⟨pkcs7, hr, htrusts⟩
    refine Option.bind_eq_some_iff.mpr ⟨_, hr, ?_⟩
    dsimp only
    rw [hwalk, searched_iff.mpr htrusts]

/-- An accepted KEK is a sequence of lists, and the answer is right exactly when an entry that
verifies, if there is one, does not only stand behind entries that do not parse. -/
theorem findsTrusted_iff {s : Storage} {v : Variable}
    (hfind : storageFindVariable s kekKey = some v) (h : KekAccepted ssl v.data) (auth : Buffer)
    (msg : List UInt8) :
    (ssl.DerOnly → v.datasz ≤ MAX_VARIABLE_DATA_SIZE → ∃ lists, encodeAll lists = v.data) ∧
      ∀ lists, encodeAll lists = v.data → (FindsTrusted ssl s auth msg lists ↔
        ∀ pkcs7, pkcs7FromAuth ssl auth = some (some pkcs7) → Trusts ssl pkcs7 msg lists →
          TrustsInFront ssl pkcs7 msg lists) := by
  refine ⟨fun hder hsize => h.exists_esls hder hsize, fun lists hlists => ?_⟩
  unfold FindsTrusted
  rw [verifyKek_iff hfind h hlists]
  constructor
  · intro hiff pkcs7 hr htrusts
    obtain ⟨pkcs7', hr', hfront⟩ := hiff.mpr ⟨pkcs7, hr, htrusts⟩
    obtain rfl := Option.some.inj (Option.some.inj (hr.symm.trans hr'))
    exact hfront
  · intro hcond
    exact ⟨fun ⟨pkcs7, hr, hfront⟩ => ⟨pkcs7, hr, hfront.trusts⟩,
      fun ⟨pkcs7, hr, htrusts⟩ => ⟨pkcs7, hr, hcond pkcs7 hr htrusts⟩⟩

end

/-- An oracle that takes for a certificate what begins as one, tells certificates apart by
their third byte, and to which the one with a 2 is the signer. -/
def OpenSsl.thirdByte : OpenSsl Unit UInt8 where
  d2iPkcs7 := fun _ => some ()
  typeIsSigned := fun _ => true
  get0Signers := fun _ => some [2]
  i2dX509 := fun x => [0x30, 0x82, x]
  d2iX509 := fun bytes _ =>
    match bytes with
    | first :: second :: third :: _ =>
        if first = 0x30 ∧ 0x80 ≤ second.toNat then some third else none
    | _ => none
  readsPast := fun _ _ => false
  hasRsaKey := fun _ => true
  commonName := fun _ => some []
  tbsCert := fun _ => some []
  sha256 := fun _ => some (Block.zero 32)
  verify := fun _ x _ => x == 2

theorem OpenSsl.thirdByte_derOnly : OpenSsl.thirdByte.DerOnly := by
  intro bytes n x h
  match bytes with
  | [] => cases h
  | [_] => cases h
  | [_, _] => cases h
  | first :: second :: third :: rest =>
      obtain ⟨hcond, _⟩ := Option.ite_none_right_eq_some.mp h
      exact ⟨second, third :: rest, by rw [hcond.1], hcond.2⟩

/-- An X.509 list without owners: the first and the third byte of each certificate. -/
def certEsl (certs : List (UInt8 × UInt8)) (h : certs.length < 1000) : Esl where
  type := gEfiCertX509Guid
  size := 19
  entries := certs.map (fun c => List.replicate GUID_SIZE 0 ++ [c.1, 0x82, c.2])
  size_pos := by decide
  size_lt := by decide
  sized := by
    intro e he
    obtain ⟨c, _, rfl⟩ := List.mem_map.mp he
    rw [List.length_append, List.length_replicate]
    rfl
  fits := by
    rw [List.length_map]
    unfold ESL_SIZE
    omega

/-- A store with these lists for KEK. -/
def kekStore (lists : List Esl) : Storage :=
  (storageSet (.empty 0) kekKey (some (encodeAll lists)) AT_ATTRS).2

/-- A descriptor with one byte of signature. -/
def shortAuth : Buffer :=
  .ofList (List.replicate 16 0 ++ leBytes 4 (OFFSET_OF_CERT_DATA + 1) ++ List.replicate 21 0)

/-- A list whose second certificate is the signer's. -/
def signerSecond : List Esl := [certEsl [(0x30, 1), (0x30, 2)] (by decide)]

theorem findsTrusted_second : ∃ v, storageFindVariable (kekStore signerSecond) kekKey = some v ∧
    KekAccepted .thirdByte v.data ∧ encodeAll signerSecond = v.data ∧
    FindsTrusted .thirdByte (kekStore signerSecond) shortAuth [] signerSecond := by
  have hdata : (storageFindVariable (kekStore signerSecond) kekKey).map Variable.data =
      some (encodeAll signerSecond) := by
    decide +kernel
  have haccept : KekAccepted .thirdByte (encodeAll signerSecond) := by
    unfold KekAccepted
    decide +kernel
  obtain ⟨v, hfind, hv⟩ := Option.map_eq_some_iff.mp hdata
  rw [← hv] at haccept
  refine ⟨v, hfind, haccept, hv.symm,
    ((findsTrusted_iff hfind haccept shortAuth []).2 signerSecond hv.symm).mpr ?_⟩
  rintro ⟨⟩ _ _
  refine ⟨_, List.mem_singleton_self _, rfl, [List.replicate GUID_SIZE 0 ++ [0x30, 0x82, 1]],
    List.replicate GUID_SIZE 0 ++ [0x30, 0x82, 2], [], rfl, ?_, 2, by decide +kernel,
    by decide +kernel⟩
  intro e he
  rw [List.mem_singleton.mp he]
  decide +kernel

/-- Between a certificate and the signer's stands an entry that is none. -/
def signerThird : List Esl := [certEsl [(0x30, 1), (0, 0), (0x30, 2)] (by decide)]

/-- The signature is refused. -/
theorem not_findsTrusted_third : OpenSsl.thirdByte.DerOnly ∧
    ∃ v, storageFindVariable (kekStore signerThird) kekKey = some v ∧
      KekAccepted .thirdByte v.data ∧ encodeAll signerThird = v.data ∧
      ¬ FindsTrusted .thirdByte (kekStore signerThird) shortAuth [] signerThird := by
  have hdata : (storageFindVariable (kekStore signerThird) kekKey).map Variable.data =
      some (encodeAll signerThird) := by
    decide +kernel
  have haccept : KekAccepted .thirdByte (encodeAll signerThird) := by
    unfold KekAccepted
    decide +kernel
  have hrefused : verifyKek .thirdByte (kekStore signerThird) shortAuth [] = some false := by
    decide +kernel
  obtain ⟨v, hfind, hv⟩ := Option.map_eq_some_iff.mp hdata
  rw [← hv] at haccept
  refine ⟨OpenSsl.thirdByte_derOnly, v, hfind, haccept, hv.symm, ?_⟩
  intro hfinds
  have htrue := hfinds.mpr ⟨(), by decide +kernel, _, List.mem_singleton_self _, rfl,
    List.replicate GUID_SIZE 0 ++ [0x30, 0x82, 2], by decide +kernel, 2, by decide +kernel,
    by decide +kernel⟩
  rw [hrefused] at htrue
  cases htrue

end Uefistored
