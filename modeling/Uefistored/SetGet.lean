/-
# `Uefistored.SetGet` — a variable that was set is read back

A SetVariable request as the client writes it, handled by
`xen_variable_server_handle_request`, and a GetVariable request for the same
name and GUID behind it:

    the page of the client is decoded to its request       (`read_xenSetVariable`)
    the write takes an empty slot                          (`storageSet_fresh`)
    a look-up finds what was written                       (`getVariable_found`)

`setThenGet_iff` says when the pair of them does what it should.  The test for an
empty name in `handle_set_variable` looks at `request->name[0]`, which is one byte
and not one unit: a name that starts with a unit like U+0100, whose low byte is
zero, is refused (`setThenGet_lowByteZero`), while every other place of the
program takes it for the name it is.
-/
import Uefistored.Page
import Uefistored.Status

namespace Uefistored

open Lib

/-! ## Attributes of a plain variable -/

/-- `EFI_VARIABLE_BOOTSERVICE_ACCESS`, and nothing besides but `EFI_VARIABLE_NON_VOLATILE` and
`EFI_VARIABLE_RUNTIME_ACCESS`. -/
structure Attrs.Ordinary (attrs : Attrs) : Prop where
  boot : attrs.has EFI_VARIABLE_BOOTSERVICE_ACCESS = true
  only : attrs &&& ~~~(EFI_VARIABLE_NON_VOLATILE ||| RT_BS_ATTRS) = 0

namespace Attrs.Ordinary

variable {attrs : Attrs}

/-- Only the three lowest bits may be set. -/
theorem toNat_lt (h : attrs.Ordinary) : attrs.toNat < 8 := by
  have hand : attrs = attrs &&& (7 : BitVec 32) := by
    have hsplit : attrs = (attrs &&& (7 : BitVec 32)) ||| (attrs &&& ~~~(7 : BitVec 32)) := by
      rw [← BitVec.and_or_distrib_left, BitVec.or_not_self, BitVec.and_allOnes]
    have hrest : attrs &&& ~~~(7 : BitVec 32) = 0#32 := h.only
    rw [hrest, BitVec.or_zero] at hsplit
    exact hsplit
  rw [hand, BitVec.toNat_and]
  exact Nat.lt_of_le_of_lt Nat.and_le_right (by decide)

/-- What the handler finds out about them. -/
theorem checks (h : attrs.Ordinary) : evaluateAttrs attrs = .success ∧ attrs.timeBased = false ∧
    attrs.append = false ∧ attrs.plain = true := by
  have hall : ∀ n < 8, Attrs.has (BitVec.ofNat 32 n) EFI_VARIABLE_BOOTSERVICE_ACCESS = true →
      evaluateAttrs (BitVec.ofNat 32 n) = .success ∧ Attrs.timeBased (BitVec.ofNat 32 n) = false ∧
        Attrs.append (BitVec.ofNat 32 n) = false ∧ Attrs.plain (BitVec.ofNat 32 n) = true := by
    decide
  have hn := hall attrs.toNat h.toNat_lt
  rw [BitVec.ofNat_toNat, BitVec.setWidth_eq] at hn
  exact hn h.boot

example : evaluateAttrs EFI_VARIABLE_RUNTIME_ACCESS = .invalidParameter := by
  decide +kernel

end Attrs.Ordinary

/-! ## The write -/

section
variable {s : Storage} {k : Key} {d : List UInt8} {attrs : Attrs}

/-- A new variable in a store with an empty slot: it is stored, and found under its key. -/
theorem storageSet_fresh (hk : k.Clean) (hlarge : tooLarge s k d.length = false)
    (hrem : asksRemoval (some d) attrs = false) (hd : d ≠ []) (hnew : s.findSlot k = none)
    (hfree : s.freeSlot ≠ none) :
    (storageSet s k (some d) attrs).1 = .success ∧
      ∃ v, storageFindVariable (storageSet s k (some d) attrs).2 k = some v ∧
        v.attrs = attrs.withoutAppend ∧ v.data = d := by
  have h2 := hk.two_le
  have hst : (storageSet s k (some d) attrs).1 = .success := by
    rw [storageSet_new_status hlarge hrem hd hnew, if_neg]
    rintro (hf | h0)
    · exact hfree hf
    · omega
  refine ⟨hst, ?_⟩
  have hc := storageSet_cases s k (some d) attrs
  generalize storageSet s k (some d) attrs = r at hc hst
  obtain ⟨st, s'⟩ := r
  cases hc with
  | refused hne => exact absurd hst hne
  | removed hrem' => rw [hrem] at hrem'; cases hrem'
  | replaced _ _ _ _ _ hi => rw [hnew] at hi; cases hi
  | renamed hne => exact absurd hst hne
  | created _ hsome _ _ _ _ hi =>
      cases hsome
      exact ⟨_, Slots.lookup_update_of_none hnew (Variable.isMatch_created hk _ _ _ _), rfl, rfl⟩

end

/-- What GetVariable answers for a variable that is there and may be seen. -/
theorem getVariable_found {s : Storage} {req : ReadRequest} {v : Variable}
    (hc : req.command = COMMAND_GET_VARIABLE) (hname : req.name ≠ [])
    (hv : storageFindVariable s req.key = some v)
    (hrt : req.atRuntime = true → v.attrs.has EFI_VARIABLE_RUNTIME_ACCESS = true)
    (hsize : v.datasz ≤ req.bufferSize) : getVariable s req = .found v.attrs v.data := by
  have hseen : ¬ (req.atRuntime && !v.attrs.has EFI_VARIABLE_RUNTIME_ACCESS) = true := by
    intro h
    rw [Bool.and_eq_true, Bool.not_eq_true'] at h
    rw [hrt h.1] at h
    cases h.2
  unfold getVariable
  rw [if_neg (not_not.mpr hc), if_neg hname, hv]
  dsimp only
  rw [if_neg hseen, if_neg (Nat.not_lt.mpr hsize)]

/-! ## The pair of requests -/

section
variable {P X : Type} {out out' : Outside P X} {m : Machine} {name data : List UInt8} {guid : Guid}
  {attrs : Attrs} {atRuntime : Bool}

/-- SetVariable is answered with `EFI_SUCCESS`, and GetVariable then with these attributes and
these data, for every size of the guest's buffer that is enough and with the runtime flag
only if the variable may be seen at runtime.  Behind a request the page holds anything. -/
def SetThenGet (out out' : Outside P X) (m : Machine) (name : List UInt8) (guid : Guid)
    (attrs : Attrs) (data : List UInt8) (atRuntime : Bool) : Prop :=
  ∀ page : Page, xenSetVariable name guid attrs data atRuntime <+: page.bytes →
    ∃ page₁ m₁, xenVariableServerHandleRequest out m page = some (page₁, m₁) ∧
      serializeResult .success <+: page₁.bytes ∧
      ∀ (page₂ : Page) (dataSize : Nat) (atRuntime' : Bool), data.length ≤ dataSize →
        dataSize < 2 ^ 64 →
        (atRuntime' = true → attrs.has EFI_VARIABLE_RUNTIME_ACCESS = true) →
        xenGetVariable name guid dataSize atRuntime' <+: page₂.bytes →
        ∃ page₃ m₃, xenVariableServerHandleRequest out' m₁ page₂ = some (page₃, m₃) ∧
          (PageReply.found attrs data).encode <+: page₃.bytes

theorem length_serializeResult (status : EfiStatus) : (serializeResult status).length = 8 :=
  length_leBytes 8 _

theorem exists_setPage (guid : Guid) (attrs : Attrs) (atRuntime : Bool)
    (hname : name.length ≤ MAX_VARIABLE_NAME_SIZE) (hdata : data.length ≤ MAX_VARIABLE_DATA_SIZE) :
    ∃ page : Page, xenSetVariable name guid attrs data atRuntime <+: page.bytes := by
  refine ⟨Block.ofList _ (xenSetVariable name guid attrs data atRuntime), ?_⟩
  rw [Block.ofList_bytes (length_xenSetVariable_le guid attrs atRuntime hname hdata)]
  exact List.prefix_append ..

/-- A SetVariable request that is refused. -/
theorem not_setThenGet {status : EfiStatus} {m' : Machine}
    (hname : name.length ≤ MAX_VARIABLE_NAME_SIZE) (hdata : data.length ≤ MAX_VARIABLE_DATA_SIZE)
    (h : handleSetVariable out.ssl m
      ⟨COMMAND_SET_VARIABLE, name, guid, data, attrs, atRuntime, hname, hdata⟩ = some (status, m'))
    (hst : status ≠ .success) : ¬ SetThenGet out out' m name guid attrs data atRuntime := by
  intro hset
  obtain ⟨page, hpage⟩ := exists_setPage guid attrs atRuntime hname hdata
  obtain ⟨page₁, m₁, hrun, hok, _⟩ := hset page hpage
  obtain ⟨hv, hc, rest, hread⟩ := read_xenSetVariable hname hdata hpage
  have hans := answer_set out m hv hc hread
  rw [h] at hans
  obtain ⟨page', hrun', hbytes⟩ := handleRequest_of_answer out m hans
    (show (serializeResult status).length ≤ _ by rw [length_serializeResult]; decide)
  rw [hrun] at hrun'
  cases hrun'
  exact hst (serializeResult_inj ⟨_, hbytes.symm⟩ hok)

/-- A SetVariable request that is accepted, and whose variable is then found. -/
theorem setThenGet_of_found {m' : Machine} {v : Variable} (hne : name ≠ [])
    (hname : name.length ≤ MAX_VARIABLE_NAME_SIZE) (hdata : data.length ≤ MAX_VARIABLE_DATA_SIZE)
    (h : handleSetVariable out.ssl m
      ⟨COMMAND_SET_VARIABLE, name, guid, data, attrs, atRuntime, hname, hdata⟩ =
        some (.success, m'))
    (hfind : storageFindVariable m'.storage (Key.of name guid) = some v)
    (hattrs : v.attrs = attrs) (hd : v.data = data) :
    SetThenGet out out' m name guid attrs data atRuntime := by
  intro page hpage
  obtain ⟨hv, hc, rest, hread⟩ := read_xenSetVariable hname hdata hpage
  have hans := answer_set out m hv hc hread
  rw [h] at hans
  obtain ⟨page₁, hrun, hbytes⟩ := handleRequest_of_answer out m hans
    (show (serializeResult .success).length ≤ _ by rw [length_serializeResult]; decide)
  refine ⟨page₁, m', hrun, ⟨_, hbytes.symm⟩, ?_⟩
  intro page₂ dataSize atRuntime' hsize hmax hrt hpage₂
  have hfound : getVariable m'.storage
      ⟨COMMAND_GET_VARIABLE, name, guid, dataSize, atRuntime', hname⟩ = .found v.attrs v.data := by
    refine getVariable_found rfl hne hfind ?_ ?_
    · rwa [hattrs]
    · rwa [Variable.datasz, hd]
  obtain ⟨hv₂, hc₂, rest₂, hread₂⟩ := read_xenGetVariable hname hmax hpage₂
  have hget := answer_get out' m' hv₂ hc₂ hread₂
  rw [hfound, hattrs, hd] at hget
  obtain ⟨page₃, hrun₃, hbytes₃⟩ := handleRequest_of_answer out' m' hget (by
    have hlen : data.length ≤ 32768 := hdata
    have hmem : MAX_SHARED_OVMF_MEM = 65536 := rfl
    simp only [PageReply.encode, List.length_append, length_serializeResult, length_leBytes, hmem]
    omega)
  exact ⟨page₃, _, hrun₃, _, hbytes₃.symm⟩

/-- The request passes the checks of the handler iff the first byte of its name is set. -/
theorem refusal_ordinary (atRuntime : Bool) (ha : attrs.Ordinary)
    (hname : name.length ≤ MAX_VARIABLE_NAME_SIZE)
    (hdata : data.length ≤ MAX_VARIABLE_DATA_SIZE) (hro : isRo (Key.of name guid) = false) :
    refusal ⟨COMMAND_SET_VARIABLE, name, guid, data, attrs, atRuntime, hname, hdata⟩ =
      if name.headD 0 = 0 then some .invalidParameter else none := by
  have hbits : (attrs.has EFI_VARIABLE_RUNTIME_ACCESS &&
      !attrs.has EFI_VARIABLE_BOOTSERVICE_ACCESS) = false := by
    rw [ha.boot, Bool.not_true, Bool.and_false]
  have hkey : SetRequest.key
      ⟨COMMAND_SET_VARIABLE, name, guid, data, attrs, atRuntime, hname, hdata⟩ =
        Key.of name guid := rfl
  unfold refusal
  rw [hkey]
  dsimp only
  rw [if_neg (not_not.mpr rfl), hbits, hro, ha.checks.1, Bool.or_false]
  by_cases h0 : name.headD 0 = 0
  · rw [if_pos h0, if_pos (beq_iff_eq.mpr h0)]
  · rw [if_neg h0, if_neg (fun h => h0 (beq_iff_eq.mp h)), if_neg Bool.false_ne_true,
      if_neg (not_not.mpr rfl)]

theorem setThenGet_iff (hname : NulFree name) (hfits : name.length ≤ MAX_VARIABLE_NAME_SIZE)
    (hro : isRo (Key.of name guid) = false)
    (hboot : isSecureBootVariable (Key.of name guid) = false)
    (hdata : 1 ≤ data.length ∧ data.length ≤ MAX_VARIABLE_DATA_SIZE) (ha : attrs.Ordinary)
    (hfree : m.storage.freeSlot ≠ none)
    (hnew : m.storage.findSlot (Key.of name guid) = none) :
    SetThenGet out out' m name guid attrs data atRuntime ↔
      name.headD 0 ≠ 0 ∧
        add64 (add64 data.length name.length) m.storage.used ≤ MAX_STORAGE_SIZE := by
  obtain ⟨_, htime, happ, hplain⟩ := ha.checks
  have hd : data ≠ [] := List.ne_nil_of_length_pos hdata.1
  have hrefusal := refusal_ordinary atRuntime ha hfits hdata.2 hro
  have hlarge : tooLarge m.storage (Key.of name guid) data.length = false ↔
      add64 (add64 data.length name.length) m.storage.used ≤ MAX_STORAGE_SIZE := by
    have hn : ¬ MAX_VARIABLE_NAME_SIZE < name.length := Nat.not_lt.mpr hfits
    have hl : ¬ MAX_VARIABLE_DATA_SIZE < data.length := Nat.not_lt.mpr hdata.2
    simp [tooLarge, Key.of, hn, hl]
  have hrem := asksRemoval_of_plain hplain hd
  by_cases h0 : name.headD 0 = 0
  · refine iff_of_false ?_ (fun h => h.1 h0)
    rw [if_pos h0] at hrefusal
    exact not_setThenGet hfits hdata.2 (handleSetVariable_refused out.ssl m hrefusal)
      (by decide)
  · rw [if_neg h0] at hrefusal
    obtain ⟨m', hset, hm'⟩ : ∃ m', handleSetVariable out.ssl m
        ⟨COMMAND_SET_VARIABLE, name, guid, data, attrs, atRuntime, hfits, hdata.2⟩ =
          some ((storageSet m.storage (Key.of name guid) (some data) attrs).1, m') ∧
        m'.storage = (storageSet m.storage (Key.of name guid) (some data) attrs).2 :=
      ⟨_, handleSetVariable_plain out.ssl m hrefusal htime hboot, Machine.saved_storage ..⟩
    cases hl : tooLarge m.storage (Key.of name guid) data.length with
    | true =>
        refine iff_of_false ?_ (fun h => ?_)
        · refine not_setThenGet hfits hdata.2 hset ?_
          rw [storageSet_tooLarge hl]
          exact (by decide : EfiStatus.outOfResources ≠ .success)
        · rw [hlarge.mpr h.2] at hl
          cases hl
    | false =>
        refine iff_of_true ?_ ⟨h0, hlarge.mp hl⟩
        obtain ⟨hst, v, hv, hva, hvd⟩ := storageSet_fresh
          (Key.clean_of_nulFree hname hfits guid) hl hrem hd hnew hfree
        rw [hst] at hset
        refine setThenGet_of_found hname.1 hfits hdata.2 hset ?_
          (hva.trans (Attrs.withoutAppend_of_not happ)) hvd
        rwa [hm']

end

theorem setThenGet_A : SetThenGet quietOutside quietOutside freshMachine (wide ['A'])
    gEfiGlobalVariableGuid RT_BS_ATTRS [1] true :=
  (setThenGet_iff (by decide +kernel) (by decide +kernel) (by decide +kernel) (by decide +kernel)
    (by decide +kernel) ⟨by decide, by decide⟩ (by decide +kernel) (by decide +kernel)).mpr
    (by decide +kernel)

/-- U+0100, a letter whose low byte is zero. -/
def aMacron : List UInt8 := [0x00, 0x01]

/-- It is no empty name, there is a slot, and the request is refused. -/
theorem setThenGet_lowByteZero :
    NulFree aMacron ∧ isRo (Key.of aMacron gEfiGlobalVariableGuid) = false ∧
      isSecureBootVariable (Key.of aMacron gEfiGlobalVariableGuid) = false ∧
      RT_BS_ATTRS.Ordinary ∧ freshMachine.storage.freeSlot ≠ none ∧
      freshMachine.storage.findSlot (Key.of aMacron gEfiGlobalVariableGuid) = none ∧
      ¬ SetThenGet quietOutside quietOutside freshMachine aMacron gEfiGlobalVariableGuid
        RT_BS_ATTRS [1] true := by
  refine ⟨by decide, by decide +kernel, by decide +kernel, ⟨by decide, by decide⟩,
    by decide +kernel, by decide +kernel, ?_⟩
  have hrefusal : refusal ⟨COMMAND_SET_VARIABLE, aMacron, gEfiGlobalVariableGuid, [1],
      RT_BS_ATTRS, true, by decide, by decide⟩ = some .invalidParameter := by decide
  exact not_setThenGet _ _ (handleSetVariable_refused _ _ hrefusal) nofun

end Uefistored
