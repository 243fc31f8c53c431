/-
# `Uefistored.Decode` — where `from_bytes_to_vars` reads, and what it accepts

The decoder moves a bare pointer over a header and a number of entries, each
with two sizes in front of what they measure, and compares the pointer with the
end of the bytes once, behind the last entry.

`readsBelow_iff`: it stays inside the bytes exactly where the header is there
and every entry up to the first one it refuses is there.  An entry that is cut
off is read past the end, never refused.

`reserialize`: what it accepts, with names that keep their size, is the encoding
of what it decodes, byte for byte.

Both come from one description of the entry at the front of a list of bytes,
`entry`, and of the three ways in which reading it can end, `EntryRead`.
-/
import Uefistored.Serializer

namespace Uefistored

open Lib

/-! ## The entry at the front -/

section Entry

variable (l : List UInt8)

def entryNamesz : Nat := leNat (l.take 8)

def entryName : List UInt8 := (l.drop 8).take (entryNamesz l)

def entryDatasz : Nat := leNat ((l.drop (8 + entryNamesz l)).take 8)

/-- The bytes of the entry: its two sizes, what they measure, GUID, attributes, time stamp and
cert. -/
def entrySize : Nat := 84 + entryNamesz l + entryDatasz l

/-- The fields behind the data. -/
def entryTail : List UInt8 := l.drop (16 + entryNamesz l + entryDatasz l)

/-- The variable as it is written. -/
def entry : Variable where
  name := nameArray (entryName l)
  namesz := entryNamesz l
  data := (l.drop (16 + entryNamesz l)).take (entryDatasz l)
  guid := Block.ofList 16 ((entryTail l).take 16)
  attrs := BitVec.ofNat 32 (leNat (((entryTail l).drop 16).take 4))
  timestamp := EfiTime.ofBytes (((entryTail l).drop 20).take 16)
  cert := Block.ofList SHA256_DIGEST_SIZE (((entryTail l).drop 36).take SHA256_DIGEST_SIZE)

/-- The name's size is one that `unserialize_var_cached` takes. -/
def NameTaken : Prop := ¬ (entryNamesz l = 0 ∨ entryNamesz l > MAX_VARIABLE_NAME_SIZE)

/-- The data's size is one that it allocates. -/
def DataTaken : Prop := entryDatasz l ≠ 0 ∧ entryDatasz l < 2 ^ 63

/-- What is looked at of the entry is there: the size of the name; if it is taken, the name and
the size of the data; if that is taken too, everything. -/
def EntryInside : Prop :=
  8 ≤ l.length ∧ (NameTaken l → 16 + entryNamesz l ≤ l.length ∧
    (DataTaken l → entrySize l ≤ l.length))

/-- The sizes of the entry are those of a variable. -/
def EntryTaken : Prop :=
  NameTaken l ∧ entryDatasz l ≠ 0 ∧ entryDatasz l ≤ MAX_VARIABLE_DATA_SIZE

end Entry

variable {l : List UInt8}

/-- The fields behind the data, one after the other. -/
theorem entryTail_eq (hfit : entrySize l ≤ l.length) :
    (entryTail l).take 68 = (entry l).guid.bytes ++ (leBytes 4 (entry l).attrs.toNat ++
      ((entry l).timestamp.toBytes ++ (entry l).cert.bytes)) := by
  have hlen : 68 ≤ (entryTail l).length := by
    unfold entryTail entrySize at *
    rw [List.length_drop]
    omega
  generalize hm : entryTail l = m at hlen
  have hguid : (entry l).guid.bytes = m.take 16 := by
    show (Block.ofList 16 ((entryTail l).take 16)).bytes = _
    rw [hm]
    refine Block.ofList_bytes_of_length ?_
    rw [List.length_take]
    omega
  have hcert : (entry l).cert.bytes = (m.drop 36).take 32 := by
    show (Block.ofList SHA256_DIGEST_SIZE (((entryTail l).drop 36).take 32)).bytes = _
    rw [hm]
    refine Block.ofList_bytes_of_length ?_
    rw [List.length_take, List.length_drop]
    unfold SHA256_DIGEST_SIZE
    omega
  have hattrs : leBytes 4 (entry l).attrs.toNat = (m.drop 16).take 4 := by
    show leBytes 4 (BitVec.ofNat 32 (leNat (((entryTail l).drop 16).take 4))).toNat = _
    have hlen4 : ((m.drop 16).take 4).length = 4 := by
      rw [List.length_take, List.length_drop]; omega
    have hlt := leNat_lt ((m.drop 16).take 4)
    rw [hlen4] at hlt
    have hback := leBytes_leNat ((m.drop 16).take 4)
    rw [hlen4] at hback
    rw [hm, BitVec.toNat_ofNat, Nat.mod_eq_of_lt (show _ < 2 ^ 32 from hlt), hback]
  have htime : (entry l).timestamp.toBytes = (m.drop 20).take 16 := by
    show (EfiTime.ofBytes (((entryTail l).drop 20).take 16)).toBytes = _
    rw [hm]
    refine EfiTime.toBytes_ofBytes ?_
    rw [List.length_take, List.length_drop]
    omega
  rw [hguid, hattrs, htime, hcert, show 68 = 16 + (4 + (16 + 32)) from rfl, List.take_add,
    List.take_add, List.take_add, List.drop_drop, List.drop_drop]

/-- The bytes of the entry are what `serialize_var` writes for it. -/
theorem serializeVar_entry (hname : entryNamesz l ≤ MAX_VARIABLE_NAME_SIZE)
    (hfit : entrySize l ≤ l.length) : serializeVar (entry l) = some (l.take (entrySize l)) := by
  have hsize : entrySize l = 8 + (entryNamesz l + (8 + (entryDatasz l + 68))) := by
    unfold entrySize; omega
  have hlen8 : (l.take 8).length = 8 := by rw [List.length_take]; omega
  have hlen8' : ((l.drop (8 + entryNamesz l)).take 8).length = 8 := by
    rw [List.length_take, List.length_drop]; omega
  have hnamesz : leBytes 8 (entryNamesz l) = l.take 8 := by
    have h := leBytes_leNat (l.take 8)
    rwa [hlen8] at h
  have hdatasz : leBytes 8 (entryDatasz l) = (l.drop (8 + entryNamesz l)).take 8 := by
    have h := leBytes_leNat ((l.drop (8 + entryNamesz l)).take 8)
    rwa [hlen8'] at h
  have hnamelen : (entryName l).length = entryNamesz l := by
    rw [entryName, List.length_take, List.length_drop]; omega
  have hkey : (entry l).keyBytes = entryName l := by
    show (nameArray (entryName l)).bytes.take (entryNamesz l) = _
    have h := nameArray_take (l := entryName l) (by rwa [hnamelen])
    rwa [hnamelen] at h
  have hdata : (entry l).datasz = entryDatasz l := by
    show ((l.drop (16 + entryNamesz l)).take (entryDatasz l)).length = _
    rw [List.length_take, List.length_drop]; omega
  have htail : l.drop (8 + entryNamesz l + 8 + entryDatasz l) = entryTail l := by
    rw [entryTail, show 8 + entryNamesz l + 8 = 16 + entryNamesz l by omega]
  have hdrop : l.drop (8 + entryNamesz l + 8) = l.drop (16 + entryNamesz l) := by
    rw [show 8 + entryNamesz l + 8 = 16 + entryNamesz l by omega]
  unfold serializeVar serializeName serializeData
  rw [show (entry l).namesz = entryNamesz l from rfl, if_pos hname, hkey, hdata, hnamesz, hdatasz,
    ← entryTail_eq hfit, hsize, List.take_add, List.take_add, List.take_add, List.take_add,
    List.drop_drop, List.drop_drop, List.drop_drop, htail, hdrop]
  simp only [Option.bind_eq_bind, Option.bind_some, Option.pure_def, List.append_assoc]
  rfl

/-! ## One entry -/

/-- The three ways in which reading an entry ends. -/
inductive EntryRead (below : UInt16) (l : List UInt8) :
    Option (Except Int (Variable × List UInt8)) → Prop
  | outside : ¬ EntryInside l → EntryRead below l none
  | refused : EntryInside l → ¬ EntryTaken l → EntryRead below l (some (.error (-1)))
  | taken : entrySize l ≤ l.length → EntryTaken l →
      EntryRead below l (some (.ok ((entry l).reloaded below, l.drop (entrySize l))))

/-- An entry with the sizes of a variable is read whole. -/
theorem EntryTaken.reads (ht : EntryTaken l) (hfit : entrySize l ≤ l.length) (below : UInt16) :
    (unserializeVarCached below).read l =
      some (.ok ((entry l).reloaded below, l.drop (entrySize l))) := by
  obtain ⟨hname, hd0, hdmax⟩ := ht
  have hnmax : entryNamesz l ≤ MAX_VARIABLE_NAME_SIZE := by
    by_contra hgt
    exact hname (.inr (Nat.not_le.mp hgt))
  have hdatasz : (entry l).datasz = entryDatasz l := by
    show ((l.drop (16 + entryNamesz l)).take (entryDatasz l)).length = _
    unfold entrySize at hfit
    rw [List.length_take, List.length_drop]; omega
  have hread := reads_serializeVar below (serializeVar_entry hnmax hfit)
    (fun h0 => hname (.inl h0))
    (fun hnil => hd0 (by rw [← hdatasz, Variable.datasz, hnil]; rfl))
    (by rwa [hdatasz]) (l.drop (entrySize l))
  rwa [List.take_append_drop] at hread

/-- Where the data is read but is too long for a variable, nothing more than the entry is read
before it is refused; where it is not all there, the reader runs past the end. -/
theorem read_rest {d : Nat} {f : List UInt8 → List UInt8 → Nat → List UInt8 → List UInt8 →
    Reader Int Variable} {m : List UInt8} :
    (do let data ← Reader.bytes d
        let guid ← Reader.bytes 16
        let attrs ← Reader.num 4
        let timestamp ← Reader.bytes 16
        let cert ← Reader.bytes SHA256_DIGEST_SIZE
        f data guid attrs timestamp cert : Reader Int Variable).read m =
      if d + 68 ≤ m.length then
        (f (m.take d) ((m.drop d).take 16) (leNat ((m.drop (d + 16)).take 4))
          ((m.drop (d + 20)).take 16) ((m.drop (d + 36)).take 32)).read (m.drop (d + 68))
      else none := by
  unfold SHA256_DIGEST_SIZE
  rw [Reader.read_bytes_bind]
  split
  · rw [Reader.read_bytes_bind, List.length_drop]
    split
    · rw [Reader.read_num_bind, List.drop_drop, List.length_drop]
      split
      · rw [Reader.read_bytes_bind, List.drop_drop, List.length_drop]
        split
        · rw [Reader.read_bytes_bind, List.drop_drop, List.length_drop, List.drop_drop]
          split
          · rw [if_pos (by omega)]
          · rw [if_neg (by omega)]
        · rw [if_neg (by omega)]
      · rw [if_neg (by omega)]
    · rw [if_neg (by omega)]
  · rw [if_neg (by omega)]

theorem unserializeVarCached_cases (below : UInt16) (l : List UInt8) :
    EntryRead below l ((unserializeVarCached below).read l) := by
  by_cases htaken : entrySize l ≤ l.length ∧ EntryTaken l
  · rw [htaken.2.reads htaken.1]
    exact .taken htaken.1 htaken.2
  unfold unserializeVarCached
  rw [Reader.read_num_bind]
  by_cases h8 : 8 ≤ l.length
  · rw [if_pos h8, show leNat (l.take 8) = entryNamesz l from rfl]
    split
    · rename_i hname
      exact .refused ⟨h8, fun h => absurd hname h⟩ (fun h => h.1 hname)
    rename_i hname
    rw [Reader.read_bytes_bind, List.length_drop]
    by_cases h16 : 16 + entryNamesz l ≤ l.length
    · rw [if_pos (by omega), Reader.read_num_bind, List.drop_drop, List.length_drop,
        if_pos (by omega),
        show leNat ((l.drop (8 + entryNamesz l)).take 8) = entryDatasz l from rfl]
      split
      · rename_i h0
        exact .refused ⟨h8, fun _ => ⟨h16, fun h => absurd h0 h.1⟩⟩ (fun h => h.2.1 h0)
      split
      · rename_i h0 hmalloc
        have hlarge : ¬ entryDatasz l ≤ MAX_VARIABLE_DATA_SIZE := by
          have hmax : MAX_VARIABLE_DATA_SIZE = 32768 := rfl
          omega
        exact .refused ⟨h8, fun _ => ⟨h16, fun h => absurd h.2 (Nat.not_lt.mpr hmalloc)⟩⟩
          (fun h => hlarge h.2.2)
      rename_i h0 hmalloc
      rw [read_rest, List.drop_drop, List.length_drop]
      by_cases hfit : entrySize l ≤ l.length
      · -- all of it is there, so that it is the data that is too long
        have hlong : ¬ EntryTaken l := fun h => htaken ⟨hfit, h⟩
        have hlarge : MAX_VARIABLE_DATA_SIZE < entryDatasz l := by
          by_contra hle
          exact hlong ⟨hname, h0, Nat.not_lt.mp hle⟩
        have hlen : ((l.drop (8 + entryNamesz l + 8)).take (entryDatasz l)).length
            = entryDatasz l := by
          unfold entrySize at hfit
          rw [List.length_take, List.length_drop]
          omega
        rw [if_pos (by unfold entrySize at hfit; omega)]
        generalize hcreate : variableCreateNoalloc below Variable.zero _ _ _ = r
        have hret : r.1 = -1 := by
          rw [← hcreate]
          exact variableCreateNoalloc_long _ _ _ _ (by rw [hlen]; exact hlarge)
        obtain ⟨ret, v⟩ := r
        obtain rfl : ret = -1 := hret
        exact .refused ⟨h8, fun _ => ⟨h16, fun _ => hfit⟩⟩ hlong
      · rw [if_neg (by unfold entrySize at hfit; omega)]
        exact .outside (fun h => hfit ((h.2 hname).2 ⟨h0, Nat.not_le.mp hmalloc⟩))
    · have hout : EntryRead below l none := .outside (fun h => h16 (h.2 hname).1)
      split
      · rw [Reader.read_num_bind, List.drop_drop, List.length_drop, if_neg (by omega)]
        exact hout
      · exact hout
  · rw [if_neg h8]
    exact .outside (fun h => h8 h.1)

/-! ## All entries -/

/-- The entries that are looked at are there, up to the first that is refused. -/
def EntriesInside : Nat → List UInt8 → Prop
  | 0, _ => True
  | k + 1, l => EntryInside l ∧ (EntryTaken l → EntriesInside k (l.drop (entrySize l)))

/-- The bytes hold `k` whole entries. -/
def EntriesFit : Nat → List UInt8 → Prop
  | 0, _ => True
  | k + 1, l => entrySize l ≤ l.length ∧ EntriesFit k (l.drop (entrySize l))

/-- Each of them has the sizes of a variable. -/
def EntriesTaken : Nat → List UInt8 → Prop
  | 0, _ => True
  | k + 1, l => EntryTaken l ∧ EntriesTaken k (l.drop (entrySize l))

/-- The variables as they are written. -/
def entries : Nat → List UInt8 → List Variable
  | 0, _ => []
  | k + 1, l => entry l :: entries k (l.drop (entrySize l))

/-- What is behind `k` entries. -/
def afterEntries : Nat → List UInt8 → List UInt8
  | 0, l => l
  | k + 1, l => afterEntries k (l.drop (entrySize l))

/-- The three ways in which reading `k` entries ends. -/
inductive EntriesRead (k : Nat) (l : List UInt8) :
    Option (Except Int (List Variable × List UInt8)) → Prop
  | outside : ¬ EntriesInside k l → EntriesRead k l none
  | refused : EntriesInside k l → EntriesRead k l (some (.error (-1)))
  | taken {vars : List Variable} : EntriesInside k l → EntriesFit k l → EntriesTaken k l →
      List.Forall₂ (fun v w => ∃ below, w = v.reloaded below) (entries k l) vars →
      EntriesRead k l (some (.ok (vars, afterEntries k l)))

theorem times_entriesRead (q : Nat → UInt16) : ∀ (k i : Nat) (l : List UInt8),
    EntriesRead k l ((Reader.times (fun i => unserializeVarCached (q i)) i k).read l)
  | 0, _, _ => .taken trivial trivial trivial .nil
  | k + 1, i, l => by
      have hstep : (Reader.times (fun i => unserializeVarCached (q i)) i (k + 1)).read l =
          ((unserializeVarCached (q i)).read l).bind (ExceptT.bindCont fun r =>
            ((Reader.times (fun i => unserializeVarCached (q i)) (i + 1) k).read r.2).bind
              (ExceptT.bindCont fun rs => some (.ok (r.1 :: rs.1, rs.2)))) := rfl
      rw [hstep]
      have hentry := unserializeVarCached_cases (q i) l
      generalize (unserializeVarCached (q i)).read l = r at hentry
      cases hentry with
      | outside h => exact .outside (fun hk => h hk.1)
      | refused hin hno => exact .refused ⟨hin, fun h => absurd h hno⟩
      | taken hfit htaken =>
          have hin : EntryInside l := ⟨by unfold entrySize at hfit; omega, fun _ =>
            ⟨by unfold entrySize at hfit; omega, fun _ => hfit⟩⟩
          have ih := times_entriesRead q k (i + 1) (l.drop (entrySize l))
          dsimp only [Option.bind_some, ExceptT.bindCont]
          generalize (Reader.times (fun i => unserializeVarCached (q i)) (i + 1) k).read
            (l.drop (entrySize l)) = rs at ih
          cases ih with
          | outside h => exact .outside (fun hk => h (hk.2 htaken))
          | refused hins => exact .refused ⟨hin, fun _ => hins⟩
          | taken hins hfits htakens hvars =>
              exact .taken ⟨hin, fun _ => hins⟩ ⟨hfit, hfits⟩ ⟨htaken, htakens⟩
                (.cons ⟨_, rfl⟩ hvars)

/-! ## The header -/

def headerVersion (bytes : List UInt8) : Nat := leNat ((bytes.drop 4).take 4)
def headerCount (bytes : List UInt8) : Nat := leNat ((bytes.drop 8).take 8)
def headerPayload (bytes : List UInt8) : Nat := leNat ((bytes.drop 16).take 8)

theorem unserializeVars_short (front : UInt16) (n : Nat) {bytes : List UInt8}
    (h : bytes.length < 24) : (unserializeVars front n).read bytes = none := by
  unfold unserializeVars
  rw [Reader.read_num_bind]
  split
  · rw [Reader.read_num_bind, List.length_drop]
    split
    · rw [Reader.read_num_bind, List.drop_drop, List.length_drop]
      split
      · rw [Reader.read_num_bind, List.drop_drop, List.length_drop, if_neg (by omega)]
      · rfl
    · rfl
  · rfl

theorem unserializeVars_read (front : UInt16) (n : Nat) {bytes : List UInt8}
    (h : 24 ≤ bytes.length) : (unserializeVars front n).read bytes =
      if headerCount bytes > n then some (.error (-1))
      else (Reader.times (fun i => unserializeVarCached (if i = 0 then front else 0)) 0
        (headerCount bytes)).read (bytes.drop 24) := by
  unfold unserializeVars
  rw [Reader.read_num_bind, if_pos (by omega), Reader.read_num_bind, List.length_drop,
    if_pos (by omega), Reader.read_num_bind, List.drop_drop, List.length_drop, if_pos (by omega),
    Reader.read_num_bind, List.drop_drop, List.length_drop, if_pos (by omega), List.drop_drop]
  show (if headerCount bytes > n then throw (-1) else _ : Reader Int _).read _ = _
  split <;> rfl

/-! ## Where the decoder reads -/

/-- The header and as many entries as it announces are there. -/
def Complete (bytes : List UInt8) : Prop :=
  24 ≤ bytes.length ∧ EntriesFit (headerCount bytes) (bytes.drop 24)

/-- `from_bytes_to_vars` reads inside the bytes only, and refuses bytes that are cut off. -/
def ReadsBelow (front : UInt16) (n : Nat) (bytes : List UInt8) : Prop :=
  ∃ r, fromBytesToVars front n bytes = some r ∧ (¬ Complete bytes → r = .error (-1))

theorem fromBytesToVars_none {front : UInt16} {n : Nat} {bytes : List UInt8}
    (h : (unserializeVars front n).read bytes = none) : fromBytesToVars front n bytes = none := by
  unfold fromBytesToVars
  rw [h]
  rfl

theorem fromBytesToVars_error {front : UInt16} {n : Nat} {bytes : List UInt8} {ret : Int}
    (h : (unserializeVars front n).read bytes = some (.error ret)) :
    fromBytesToVars front n bytes = some (.error ret) := by
  unfold fromBytesToVars
  rw [h]
  rfl

theorem fromBytesToVars_isSome {front : UInt16} {n : Nat} {bytes rest : List UInt8}
    {vars : List Variable} (h : (unserializeVars front n).read bytes = some (.ok (vars, rest))) :
    ∃ r, fromBytesToVars front n bytes = some r := by
  unfold fromBytesToVars
  rw [h]
  dsimp only [Option.bind_eq_bind, Option.bind_some]
  split
  · exact ⟨_, rfl⟩
  split <;> exact ⟨_, rfl⟩

/-- It does so exactly when the header is there and, unless it announces more variables than
the array takes, so is every entry up to the first that is refused. -/
theorem readsBelow_iff (front : UInt16) (n : Nat) (bytes : List UInt8) :
    ReadsBelow front n bytes ↔ 24 ≤ bytes.length ∧
      (headerCount bytes ≤ n → EntriesInside (headerCount bytes) (bytes.drop 24)) := by
  by_cases h24 : 24 ≤ bytes.length
  · have hread := unserializeVars_read front n h24
    by_cases hcount : headerCount bytes ≤ n
    · rw [if_neg (Nat.not_lt.mpr hcount)] at hread
      have hentries := times_entriesRead (fun i => if i = 0 then front else 0) (headerCount bytes) 0
        (bytes.drop 24)
      rw [← hread] at hentries
      generalize hr : (unserializeVars front n).read bytes = r at hentries
      cases hentries with
      | outside hout =>
          constructor
          · rintro ⟨r, h, -⟩
            exact absurd ((fromBytesToVars_none hr).symm.trans h) (Option.some_ne_none _).symm
          · exact fun h => absurd (h.2 hcount) hout
      | refused hin =>
          exact ⟨fun _ => ⟨h24, fun _ => hin⟩, fun _ => ⟨_, fromBytesToVars_error hr, fun _ => rfl⟩⟩
      | taken hin hfit =>
          obtain ⟨r, h⟩ := fromBytesToVars_isSome hr
          exact ⟨fun _ => ⟨h24, fun _ => hin⟩, fun _ => ⟨r, h, fun hno => absurd ⟨h24, hfit⟩ hno⟩⟩
    · rw [if_pos (Nat.not_le.mp hcount)] at hread
      exact ⟨fun _ => ⟨h24, fun hle => absurd hle hcount⟩,
        fun _ => ⟨_, fromBytesToVars_error hread, fun _ => rfl⟩⟩
  · constructor
    · rintro ⟨r, h, -⟩
      have hnone := fromBytesToVars_none (unserializeVars_short front n (Nat.not_le.mp h24))
      exact absurd (hnone.symm.trans h) (Option.some_ne_none _).symm
    · exact fun h => absurd h.1 h24

/-- A header that announces one variable, and nothing behind it: the size of a name is read
from behind the end. -/
theorem not_readsBelow_header :
    ¬ ReadsBelow 0 MAX_VAR_COUNT (VARS ++ leBytes 4 1 ++ leBytes 8 1 ++ leBytes 8 0) := by
  rintro ⟨r, h, -⟩
  have hnone : (fromBytesToVars 0 MAX_VAR_COUNT
      (VARS ++ leBytes 4 1 ++ leBytes 8 1 ++ leBytes 8 0)).isNone = true := by decide +kernel
  rw [h] at hnone
  cases hnone

/-! ## What the decoder accepts -/

/-- Every name has whole units, and the last one is not NUL. -/
def KeptNames : Nat → List UInt8 → Prop
  | 0, _ => True
  | k + 1, l => (entryNamesz l % 2 = 0 ∧ unitAt (entryName l) (entryNamesz l / 2 - 1) ≠ 0) ∧
      KeptNames k (l.drop (entrySize l))

theorem entry_kept (hfit : entrySize l ≤ l.length) (ht : EntryTaken l)
    (heven : entryNamesz l % 2 = 0) (hlast : unitAt (entryName l) (entryNamesz l / 2 - 1) ≠ 0) :
    (entry l).Kept := by
  obtain ⟨hname, hd0, hdmax⟩ := ht
  obtain ⟨hn0, hnmax⟩ := not_or.mp hname
  have hnmax := Nat.not_lt.mp hnmax
  unfold entrySize at hfit
  have hnamelen : (entryName l).length = entryNamesz l := by
    rw [entryName, List.length_take, List.length_drop]; omega
  have hdatasz : (entry l).datasz = entryDatasz l := by
    show ((l.drop (16 + entryNamesz l)).take (entryDatasz l)).length = _
    rw [List.length_take, List.length_drop]; omega
  refine ⟨⟨?_, hnmax⟩, ?_, ?_⟩
  · show 2 ≤ entryNamesz l
    omega
  · show unitAt (nameArray (entryName l)).bytes (entryNamesz l / 2 - 1) ≠ 0
    rw [unitAt_nameArray (by rwa [hnamelen]) (by rw [hnamelen]; omega)]
    exact hlast
  · rw [hdatasz]
    exact ⟨Nat.one_le_iff_ne_zero.mpr hd0, hdmax⟩

theorem entries_kept : ∀ {k : Nat} {l : List UInt8}, EntriesFit k l → EntriesTaken k l →
    KeptNames k l → ∀ v ∈ entries k l, v.Kept
  | 0, _, _, _, _ => fun _ hv => absurd hv List.not_mem_nil
  | _ + 1, _, ⟨hfit, hfits⟩, ⟨ht, hts⟩, ⟨⟨heven, hlast⟩, hnames⟩ => by
      intro v hv
      rcases List.mem_cons.mp hv with rfl | hv
      · exact entry_kept hfit ht heven hlast
      · exact entries_kept hfits hts hnames v hv

/-- The entries, written one after the other, are the bytes they were read from. -/
theorem flatMap_entries : ∀ {k : Nat} {l : List UInt8}, EntriesFit k l → EntriesTaken k l →
    (entries k l).flatMap serialized ++ afterEntries k l = l
  | 0, _, _, _ => rfl
  | k + 1, l, ⟨hfit, hfits⟩, ⟨ht, hts⟩ => by
      have ih := flatMap_entries hfits hts
      have hname : entryNamesz l ≤ MAX_VARIABLE_NAME_SIZE := Nat.not_lt.mp (not_or.mp ht.1).2
      rw [entries, List.flatMap_cons, serialized, serializeVar_entry hname hfit, Option.getD_some,
        List.append_assoc, afterEntries, ih, List.take_append_drop]

theorem length_entries : ∀ (k : Nat) (l : List UInt8), (entries k l).length = k
  | 0, _ => rfl
  | k + 1, l => congrArg (· + 1) (length_entries k (l.drop (entrySize l)))

theorem Variable.SameFields.serialized {v v' : Variable} (h : v.SameFields v') :
    Uefistored.serialized v' = Uefistored.serialized v := by
  unfold Uefistored.serialized serializeVar serializeName serializeData Variable.datasz
  rw [h.name, h.namesz, h.data, h.guid, h.attrs, h.timestamp, h.cert]

/-- What is decoded is what was written, each name with its own size. -/
theorem reloaded_all {vs ws : List Variable} (hvs : ∀ v ∈ vs, v.Kept)
    (h : List.Forall₂ (fun v w => ∃ below, w = Variable.reloaded below v) vs ws) :
    ws.flatMap serialized = vs.flatMap serialized ∧ ∀ w ∈ ws, w.Kept := by
  induction h with
  | nil => exact ⟨rfl, fun _ hw => absurd hw List.not_mem_nil⟩
  | @cons v w vs ws hvw _ ih =>
      obtain ⟨below, rfl⟩ := hvw
      have hv := hvs v List.mem_cons_self
      have hsame := hv.reloaded below
      obtain ⟨hflat, hall⟩ := ih (fun x hx => hvs x (List.mem_cons_of_mem _ hx))
      refine ⟨?_, ?_⟩
      · rw [List.flatMap_cons, List.flatMap_cons, hsame.serialized, hflat]
      · intro x hx
        rcases List.mem_cons.mp hx with rfl | hx
        · exact hsame.contents.kept hv
        · exact hall x hx

/-- The header of a list, read off its first bytes. -/
theorem header_eq {bytes : List UInt8} {vars : List Variable} (h24 : 24 ≤ bytes.length)
    (hmagic : bytes.take 4 = VARS) (hversion : headerVersion bytes = 1)
    (hcount : headerCount bytes = vars.length) (hpayload : headerPayload bytes = payloadSize vars) :
    serializeVariableListHeader vars = bytes.take 24 := by
  have hpart : ∀ off n, off + n ≤ 24 →
      leBytes n (leNat ((bytes.drop off).take n)) = (bytes.drop off).take n := by
    intro off n hle
    have hlen : ((bytes.drop off).take n).length = n := by
      rw [List.length_take, List.length_drop]
      omega
    have h := leBytes_leNat ((bytes.drop off).take n)
    rwa [hlen] at h
  have h1 : leBytes 4 1 = (bytes.drop 4).take 4 := by
    rw [← hversion]
    exact hpart 4 4 (by decide)
  have h2 : leBytes 8 vars.length = (bytes.drop 8).take 8 := by
    rw [← hcount]
    exact hpart 8 8 (by decide)
  have h3 : leBytes 8 (payloadSize vars) = (bytes.drop 16).take 8 := by
    rw [← hpayload]
    exact hpart 16 8 (by decide)
  unfold serializeVariableListHeader
  rw [h1, h2, h3, ← hmagic, show 24 = 4 + (4 + (8 + 8)) from rfl, List.take_add, List.take_add,
    List.take_add, List.drop_drop, List.drop_drop]

/-- Bytes with the header that the encoder writes and with names that keep their size are
accepted only if they are what the encoder writes for the variables decoded from them. -/
theorem reserialize {front : UInt16} {bytes : List UInt8} {vars : List Variable}
    (hok : fromBytesToVars front MAX_VAR_COUNT bytes = some (.ok vars))
    (hmagic : bytes.take 4 = VARS) (hversion : headerVersion bytes = 1)
    (hpayload : headerPayload bytes = bytes.length - 24)
    (hnames : KeptNames (headerCount bytes) (bytes.drop 24)) :
    serializeVariableList bytes.length vars = some (0, bytes) := by
  obtain ⟨hread, -⟩ := fromBytesToVars_ok_iff.mp hok
  by_cases h24 : 24 ≤ bytes.length
  · rw [unserializeVars_read _ _ h24] at hread
    split at hread
    · cases hread
    rename_i hle
    have hentries := times_entriesRead (fun i => if i = 0 then front else 0) (headerCount bytes) 0
      (bytes.drop 24)
    rw [hread] at hentries
    generalize hrest : ([] : List UInt8) = rest at hentries
    cases hentries with
    | taken hin hfit htaken hvars =>
        have hbody := flatMap_entries hfit htaken
        rw [← hrest, List.append_nil] at hbody
        obtain ⟨hflat, hall⟩ := reloaded_all (entries_kept hfit htaken hnames) hvars
        have hlen : headerCount bytes = vars.length := by
          rw [← hvars.length_eq, length_entries]
        have h128 : vars.length ≤ 128 := by
          rw [← hlen]
          exact Nat.not_lt.mp hle
        obtain ⟨hsize, hmax⟩ := payloadSize_eq hall h128
        have hbytes : (vars.flatMap serialized).length = bytes.length - 24 := by
          rw [hflat, hbody, List.length_drop]
        have hser : serializeVars bytes.length 0 0 vars = some (0, vars.flatMap serialized) :=
          serializeVars_eq 0 0 hall (by omega) (by omega)
        have hheader := header_eq h24 hmagic hversion hlen (by omega)
        unfold serializeVariableList
        rw [hser, hheader, hflat, hbody]
        exact congrArg (fun l => some (0, l)) (List.take_append_drop 24 bytes)
  · rw [unserializeVars_short _ _ (Nat.not_le.mp h24)] at hread
    cases hread

/-- The bytes of a list of three variables. -/
def bytesThree : List UInt8 :=
  serializeVariableListHeader threeVariables ++ threeVariables.flatMap serialized

theorem reserialize_three : ∃ vars, fromBytesToVars 0 MAX_VAR_COUNT bytesThree = some (.ok vars) ∧
    vars.length = 3 ∧ serializeVariableList bytesThree.length vars = some (0, bytesThree) := by
  have hok : (fromBytesToVars 0 MAX_VAR_COUNT bytesThree).map
      (fun | .ok vars => some vars.length | .error _ => none) = some (some 3) := by
    decide +kernel
  obtain ⟨r, hr, hlen⟩ := Option.map_eq_some_iff.mp hok
  cases r with
  | error ret => cases hlen
  | ok vars =>
      have hcount : headerCount bytesThree = 3 := by decide +kernel
      refine ⟨vars, hr, Option.some.inj hlen, reserialize hr (by decide +kernel) (by decide +kernel)
        (by decide +kernel) ?_⟩
      rw [hcount]
      exact ⟨by decide +kernel, by decide +kernel, by decide +kernel, trivial⟩

end Uefistored
