/-
# `Uefistored.Types` — sizes, status codes, attributes, GUIDs and times

The constants and plain types of `inc/config.h`, `inc/uefi/types.h`,
`inc/uefi/image_authentication.h`, `inc/uefi/global_variable.h` and
`src/uefi/guids.c`, under the source's names.

* `EfiStatus` is the part of `EFI_STATUS` the modelled functions return.
* `Attrs` is `uint32_t`; `Attrs.has a m` is the C test `a & m`.
* `Guid` and `Digest` are arrays of 16 and 32 bytes: the source only ever
  compares and copies them whole, with `memcmp` and `memcpy`.
* `EfiTime` is `EFI_TIME` field by field; `EfiTime.ofBytes` / `EfiTime.toBytes`
  are the packed layout (the struct has no padding on x86-64).
-/
import Uefistored.Lib.Bytes

namespace Uefistored

open Lib

/-! ## `config.h` -/

def MAX_VAR_COUNT : Nat := 128
instance : NeZero MAX_VAR_COUNT := ⟨by decide⟩
def MAX_VARIABLE_NAME_SIZE : Nat := 256
def MAX_VARIABLE_NAME_CHARS : Nat := MAX_VARIABLE_NAME_SIZE / 2
def MAX_VARIABLE_DATA_SIZE : Nat := 32 * 1024
def MAX_VARIABLE_SIZE : Nat := MAX_VARIABLE_NAME_SIZE + MAX_VARIABLE_DATA_SIZE

/-- A product, as in the header: `2 ^ 30` bytes. -/
def MAX_STORAGE_SIZE : Nat :=
  MAX_VAR_COUNT * MAX_VARIABLE_NAME_SIZE * MAX_VARIABLE_DATA_SIZE

def SHA256_DIGEST_SIZE : Nat := 32

/-- `SHMEM_PAGES * PAGE_SIZE` of `common.h`. -/
def MAX_SHARED_OVMF_MEM : Nat := 16 * 4096

/-- `limits.h`. -/
def INT_MAX : Nat := 2 ^ 31 - 1

/-! ## Status codes -/

/-- `EFI_STATUS`. -/
inductive EfiStatus
  | success
  | invalidParameter
  | unsupported
  | bufferTooSmall
  | deviceError
  | writeProtected
  | outOfResources
  | notFound
  | securityViolation
  deriving DecidableEq, Repr

/-- The value of a status code: `MAX_BIT | n` for an error. -/
def EfiStatus.code : EfiStatus → Nat
  | .success => 0
  | .invalidParameter => 2 ^ 63 + 2
  | .unsupported => 2 ^ 63 + 3
  | .bufferTooSmall => 2 ^ 63 + 5
  | .deviceError => 2 ^ 63 + 7
  | .writeProtected => 2 ^ 63 + 8
  | .outOfResources => 2 ^ 63 + 9
  | .notFound => 2 ^ 63 + 14
  | .securityViolation => 2 ^ 63 + 26

/-! ## Attributes -/

abbrev Attrs := BitVec 32

/-- The C condition `attrs & mask`. -/
def Attrs.has (attrs mask : Attrs) : Bool := attrs &&& mask != 0

def EFI_VARIABLE_NON_VOLATILE : Attrs := 0x00000001
def EFI_VARIABLE_BOOTSERVICE_ACCESS : Attrs := 0x00000002
def EFI_VARIABLE_RUNTIME_ACCESS : Attrs := 0x00000004
def EFI_VARIABLE_HARDWARE_ERROR_RECORD : Attrs := 0x00000008
def EFI_VARIABLE_AUTHENTICATED_WRITE_ACCESS : Attrs := 0x00000010
def EFI_VARIABLE_TIME_BASED_AUTHENTICATED_WRITE_ACCESS : Attrs := 0x00000020
def EFI_VARIABLE_APPEND_WRITE : Attrs := 0x00000040

/-- `RT_BS_ATTRS`, and the attributes of every mode variable. -/
def RT_BS_ATTRS : Attrs := EFI_VARIABLE_RUNTIME_ACCESS ||| EFI_VARIABLE_BOOTSERVICE_ACCESS

/-- `AT_ATTRS` of `uefistored.c`, the attributes of the auth files. -/
def AT_ATTRS : Attrs :=
  EFI_VARIABLE_NON_VOLATILE ||| EFI_VARIABLE_TIME_BASED_AUTHENTICATED_WRITE_ACCESS |||
    EFI_VARIABLE_BOOTSERVICE_ACCESS ||| EFI_VARIABLE_RUNTIME_ACCESS

namespace Attrs

abbrev timeBased (a : Attrs) : Bool := a.has EFI_VARIABLE_TIME_BASED_AUTHENTICATED_WRITE_ACCESS
abbrev append (a : Attrs) : Bool := a.has EFI_VARIABLE_APPEND_WRITE
abbrev nonVolatile (a : Attrs) : Bool := a.has EFI_VARIABLE_NON_VOLATILE

/-- `attrs & ~EFI_VARIABLE_APPEND_WRITE`. -/
def withoutAppend (a : Attrs) : Attrs := a &&& ~~~EFI_VARIABLE_APPEND_WRITE

/-- Dropping the append bit leaves every other test as it was. -/
theorem has_withoutAppend (a : Attrs) {m : Attrs} (hm : ~~~EFI_VARIABLE_APPEND_WRITE &&& m = m) :
    (withoutAppend a).has m = a.has m := by
  simp only [has, withoutAppend, BitVec.and_assoc, hm]

theorem append_withoutAppend (a : Attrs) : (withoutAppend a).append = false := by
  simp [withoutAppend, append, has, BitVec.and_assoc]

theorem withoutAppend_or (a : Attrs) :
    withoutAppend a ||| (a &&& EFI_VARIABLE_APPEND_WRITE) = a := by
  have hall : ~~~EFI_VARIABLE_APPEND_WRITE ||| EFI_VARIABLE_APPEND_WRITE = BitVec.allOnes 32 := by
    decide
  rw [withoutAppend, ← BitVec.and_or_distrib_left, hall, BitVec.and_allOnes]

theorem withoutAppend_of_not {a : Attrs} (h : a.append = false) : withoutAppend a = a := by
  have hbit : a &&& EFI_VARIABLE_APPEND_WRITE = 0 := by simpa [append, has] using h
  have hsplit := withoutAppend_or a
  rwa [hbit, show withoutAppend a ||| 0 = withoutAppend a from BitVec.or_zero] at hsplit

/-- Nothing is left of the append bit alone, and something of everything else. -/
theorem eq_of_withoutAppend_eq_zero {a : Attrs} (h : withoutAppend a = 0) :
    a = 0 ∨ a = EFI_VARIABLE_APPEND_WRITE := by
  have hbit : EFI_VARIABLE_APPEND_WRITE = BitVec.twoPow 32 6 := by decide
  have hself := withoutAppend_or a
  rw [h, show 0 ||| (a &&& EFI_VARIABLE_APPEND_WRITE) = a &&& EFI_VARIABLE_APPEND_WRITE from
    BitVec.zero_or, hbit, BitVec.and_twoPow] at hself
  split at hself
  · exact .inr (hself.symm.trans hbit.symm)
  · exact .inl hself.symm

theorem ne_zero_of_timeBased {attrs : Attrs} (h : attrs.timeBased = true) : attrs ≠ 0 := by
  rintro rfl
  revert h
  decide

theorem timeBased_withoutAppend (a : Attrs) : (withoutAppend a).timeBased = a.timeBased :=
  has_withoutAppend a (by decide)

end Attrs

/-! ## GUIDs and digests -/

abbrev Guid := Block 16
abbrev Digest := Block SHA256_DIGEST_SIZE

/-- The initialiser `{ data1, data2, data3, { data4 } }` of an `EFI_GUID`. -/
def Guid.mk (data1 data2 data3 : Nat) (data4 : List UInt8) : Guid :=
  Block.ofList 16 (leBytes 4 data1 ++ leBytes 2 data2 ++ leBytes 2 data3 ++ data4)

def gEfiGlobalVariableGuid : Guid :=
  Guid.mk 0x8BE4DF61 0x93CA 0x11D2 [0xAA, 0x0D, 0x00, 0xE0, 0x98, 0x03, 0x2B, 0x8C]

def gEfiImageSecurityDatabaseGuid : Guid :=
  Guid.mk 0xd719b2cb 0x3d3a 0x4596 [0xa3, 0xbc, 0xda, 0xd0, 0x0e, 0x67, 0x65, 0x6f]

def gEfiCertX509Guid : Guid :=
  Guid.mk 0xa5c059a1 0x94e4 0x4aa7 [0x87, 0xb5, 0xab, 0x15, 0x5c, 0x2b, 0xf0, 0x72]

def gEfiCertPkcs7Guid : Guid :=
  Guid.mk 0x4aafd29d 0x68df 0x49ee [0x8a, 0xa9, 0x34, 0x7d, 0x37, 0x56, 0x65, 0xa7]

def EFI_CERT_SHA256_GUID : Guid :=
  Guid.mk 0xc1c41626 0x504c 0x4092 [0xac, 0xa9, 0x41, 0xf9, 0x36, 0x93, 0x43, 0x28]

def EFI_CERT_RSA2048_GUID : Guid :=
  Guid.mk 0x3c5766e8 0x269c 0x4e34 [0xaa, 0x14, 0xed, 0x77, 0x6e, 0x85, 0xb3, 0xb6]

def EFI_CERT_RSA2048_SHA256_GUID : Guid :=
  Guid.mk 0xe2b36190 0x879b 0x4a3d [0xad, 0x8d, 0xf2, 0xe7, 0xbb, 0xa3, 0x27, 0x84]

def EFI_CERT_SHA1_GUID : Guid :=
  Guid.mk 0x826ca512 0xcf10 0x4ac9 [0xb1, 0x87, 0xbe, 0x01, 0x49, 0x66, 0x31, 0xbd]

def EFI_CERT_RSA2048_SHA1_GUID : Guid :=
  Guid.mk 0x67f8444f 0x8743 0x48f1 [0xa3, 0x28, 0x1e, 0xaa, 0xb8, 0x73, 0x60, 0x80]

def EFI_CERT_SHA224_GUID : Guid :=
  Guid.mk 0x0b6e5233 0xa65c 0x44c9 [0x94, 0x07, 0xd9, 0xab, 0x83, 0xbf, 0xc8, 0xbd]

def EFI_CERT_SHA384_GUID : Guid :=
  Guid.mk 0xff3e5307 0x9fd0 0x48c9 [0x85, 0xf1, 0x8a, 0xd5, 0x6c, 0x70, 0x1e, 0x01]

def EFI_CERT_SHA512_GUID : Guid :=
  Guid.mk 0x093e0fae 0xa6c4 0x4f50 [0x9f, 0x1b, 0xd4, 0x1e, 0x2b, 0x89, 0xc1, 0x9a]

def EFI_CERT_X509_SHA256_GUID : Guid :=
  Guid.mk 0x3bd2a492 0x96c0 0x4079 [0xb4, 0x20, 0xfc, 0xf9, 0x8e, 0xf1, 0x03, 0xed]

def EFI_CERT_X509_SHA384_GUID : Guid :=
  Guid.mk 0x7076876e 0x80c2 0x4ee6 [0xaa, 0xd2, 0x28, 0xb3, 0x49, 0xa6, 0x86, 0x5b]

def EFI_CERT_X509_SHA512_GUID : Guid :=
  Guid.mk 0x446dbf63 0x2502 0x4cda [0xbc, 0xfa, 0x24, 0x65, 0xd2, 0xb0, 0xfe, 0x9d]

/-! ## Times -/

/-- `EFI_TIME`. -/
structure EfiTime where
  year : UInt16
  month : UInt8
  day : UInt8
  hour : UInt8
  minute : UInt8
  second : UInt8
  pad1 : UInt8
  nanosecond : UInt32
  timeZone : UInt16
  daylight : UInt8
  pad2 : UInt8
  deriving DecidableEq, Repr

namespace EfiTime

/-- `memset(&t, 0, sizeof(t))`. -/
def zero : EfiTime := ⟨0, 0, 0, 0, 0, 0, 0, 0, 0, 0, 0⟩

/-- The struct as it lies in memory. -/
def toBytes (t : EfiTime) : List UInt8 :=
  leBytes 2 t.year.toNat ++
    [t.month, t.day, t.hour, t.minute, t.second, t.pad1] ++
    leBytes 4 t.nanosecond.toNat ++ leBytes 2 t.timeZone.toNat ++ [t.daylight, t.pad2]

/-- The struct read from 16 bytes. -/
def ofBytes (l : List UInt8) : EfiTime where
  year := UInt16.ofNat (leNat (l.take 2))
  month := l.getD 2 0
  day := l.getD 3 0
  hour := l.getD 4 0
  minute := l.getD 5 0
  second := l.getD 6 0
  pad1 := l.getD 7 0
  nanosecond := UInt32.ofNat (leNat ((l.drop 8).take 4))
  timeZone := UInt16.ofNat (leNat ((l.drop 12).take 2))
  daylight := l.getD 14 0
  pad2 := l.getD 15 0

/-- `auth_internal_compare_timestamp`: the first is not later than the second. -/
def compareTimestamp (first second : EfiTime) : Bool :=
  if first.year ≠ second.year then first.year < second.year
  else if first.month ≠ second.month then first.month < second.month
  else if first.day ≠ second.day then first.day < second.day
  else if first.hour ≠ second.hour then first.hour < second.hour
  else if first.minute ≠ second.minute then first.minute < second.minute
  else first.second ≤ second.second

/-- The order of `compareTimestamp`: a time is its year, month, day, hour,
minute and second, and nothing else. -/
abbrev notLater (first second : EfiTime) : Prop := compareTimestamp first second = true

/-- The six compared fields as one number, most significant first. -/
def rank (t : EfiTime) : Nat :=
  ((((t.year.toNat * 256 + t.month.toNat) * 256 + t.day.toNat) * 256 + t.hour.toNat) * 256
    + t.minute.toNat) * 256 + t.second.toNat

theorem compareTimestamp_iff (s t : EfiTime) : notLater s t ↔ s.rank ≤ t.rank := by
  have hs1 := s.month.toNat_lt; have hs2 := s.day.toNat_lt; have hs3 := s.hour.toNat_lt
  have hs4 := s.minute.toNat_lt; have hs5 := s.second.toNat_lt
  have ht1 := t.month.toNat_lt; have ht2 := t.day.toNat_lt; have ht3 := t.hour.toNat_lt
  have ht4 := t.minute.toNat_lt; have ht5 := t.second.toNat_lt
  simp only [notLater, compareTimestamp, rank, ne_eq, ← UInt8.toNat_inj, ← UInt16.toNat_inj,
    UInt8.lt_iff_toNat_lt, UInt8.le_iff_toNat_le, UInt16.lt_iff_toNat_lt]
  split
  · simp only [decide_eq_true_eq]; omega
  · split
    · simp only [decide_eq_true_eq]; omega
    · split
      · simp only [decide_eq_true_eq]; omega
      · split
        · simp only [decide_eq_true_eq]; omega
        · split
          · simp only [decide_eq_true_eq]; omega
          · simp only [decide_eq_true_eq]; omega

theorem notLater_refl (t : EfiTime) : notLater t t := (compareTimestamp_iff t t).mpr (le_refl _)

theorem notLater_trans {s t u : EfiTime} (h : notLater s t) (h' : notLater t u) :
    notLater s u :=
  (compareTimestamp_iff s u).mpr
    (le_trans ((compareTimestamp_iff s t).mp h) ((compareTimestamp_iff t u).mp h'))

/-- The order is total: a time that is not "not later" is later. -/
theorem notLater_of_not {s t : EfiTime} (h : compareTimestamp s t = false) : notLater t s := by
  have hn : ¬ notLater s t := by simp [notLater, h]
  rw [compareTimestamp_iff] at hn ⊢
  omega

@[simp] theorem length_toBytes (t : EfiTime) : t.toBytes.length = 16 := by
  simp [toBytes]

theorem ofBytes_toBytes (t : EfiTime) : ofBytes t.toBytes = t := by
  have h2 : ∀ x : UInt16, leNat (leBytes 2 x.toNat) = x.toNat :=
    fun x => leNat_leBytes_of_lt (by have := x.toNat_lt; omega)
  have h4 : ∀ x : UInt32, leNat (leBytes 4 x.toNat) = x.toNat :=
    fun x => leNat_leBytes_of_lt (by have := x.toNat_lt; omega)
  have hy := h2 t.year
  have hn := h4 t.nanosecond
  have hz := h2 t.timeZone
  obtain ⟨year, month, day, hour, minute, second, pad1, nanosecond, timeZone, daylight, pad2⟩ := t
  simp only [leBytes, leNat] at hy hn hz
  simp only [ofBytes, toBytes, leBytes, leNat, List.cons_append, List.nil_append,
    List.take_succ_cons, List.take_zero, List.drop_succ_cons, List.drop_zero, List.getD_cons_succ,
    List.getD_cons_zero, hy, hn, hz, UInt16.ofNat_toNat, UInt32.ofNat_toNat]

/-- Every sixteen bytes are a struct. -/
theorem toBytes_ofBytes {l : List UInt8} (h : l.length = 16) : (ofBytes l).toBytes = l := by
  have h2 : ∀ m : List UInt8, m.length = 2 → leBytes 2 (UInt16.ofNat (leNat m)).toNat = m := by
    intro m hm
    have hlt := leNat_lt m
    rw [hm] at hlt
    rw [UInt16.toNat_ofNat_of_lt' hlt, ← hm, leBytes_leNat]
  have h4 : ∀ m : List UInt8, m.length = 4 → leBytes 4 (UInt32.ofNat (leNat m)).toNat = m := by
    intro m hm
    have hlt := leNat_lt m
    rw [hm] at hlt
    rw [UInt32.toNat_ofNat_of_lt' hlt, ← hm, leBytes_leNat]
  match l, h with
  | [y₀, y₁, month, day, hour, minute, second, pad1, n₀, n₁, n₂, n₃, z₀, z₁, daylight, pad2], _ =>
      have hy := h2 [y₀, y₁] rfl
      have hn := h4 [n₀, n₁, n₂, n₃] rfl
      have hz := h2 [z₀, z₁] rfl
      simp only [ofBytes, toBytes, List.take_succ_cons, List.take_zero, List.drop_succ_cons,
        List.drop_zero, List.getD_cons_succ, List.getD_cons_zero, hy, hn, hz, List.cons_append,
        List.nil_append]

end EfiTime

end Uefistored
