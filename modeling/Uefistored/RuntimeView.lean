/-
# `Uefistored.RuntimeView` — what a guest sees of boot-only variables at runtime

Two stores that agree slot by slot on the variables with
`EFI_VARIABLE_RUNTIME_ACCESS`, and a guest that sends GetVariable and
GetNextVariableName requests with the runtime flag set.  `sameAtRuntime_iff` says
when it gets the same bytes from both:

    GetVariable         a boot-only variable that is found first hides one behind it of
                        the same name, so the same ones must be hidden    (`Covers.shadow`)
    GetNextVariableName the search for the previous name stops at boot-only variables
                        too, so the same visible ones must be behind each (`Covers.behind`)
                        an empty name asks for the first variable, unless
                        `total` is zero                                   (`Covers.first`)

The second is no accident of odd stores.  `storage_next_variable` applies
`rt_deny_access` to what it returns and not to the name it starts from, so a guest
that guesses the name of a boot-only variable learns that it is there
(`sameAtRuntime_previousName`).
-/
import Uefistored.Page

namespace Uefistored

open Lib

/-! ## Stores that agree at runtime -/

/-- The variable may not be seen at runtime.  An empty slot is such a one, too. -/
def Variable.BootOnly (v : Variable) : Prop := v.attrs.has EFI_VARIABLE_RUNTIME_ACCESS = false

theorem Variable.not_bootOnly {v : Variable} :
    ¬ v.BootOnly ↔ v.attrs.has EFI_VARIABLE_RUNTIME_ACCESS = true := by
  rw [Variable.BootOnly, Bool.not_eq_false]

/-- The stores differ in boot-only variables alone. -/
def SameRuntimePart (s s' : Storage) : Prop := Slots.AgreeOff Variable.BootOnly s.vars s'.vars

/-- Names that a request can carry. -/
def Key.Nameable (k : Key) : Prop :=
  ∃ (name : List UInt8) (guid : Guid), name ≠ [] ∧ name.length ≤ MAX_VARIABLE_NAME_SIZE ∧
    k = Key.of name guid

/-- The same is sent of both variables as an answer to GetNextVariableName. -/
structure Variable.SentAlike (v v' : Variable) : Prop where
  size : add64 v.namesz 2 = add64 v'.namesz 2
  name : serializeName v = serializeName v'
  guid : v.namesz ≤ MAX_VARIABLE_NAME_SIZE → v.guid = v'.guid

/-- Two slots hold variables of which the same is sent, and they are the first ones behind `k` in
the two stores. -/
def Twins (s s' : Storage) (k : Key) : Prop :=
  ∃ j j', j ≠ j' ∧ Slots.FirstBehind s.vars (Variable.isMatch k) (Variable.isListed true) j ∧
    Slots.FirstBehind s'.vars (Variable.isMatch k) (Variable.isListed true) j' ∧
    (s.vars j).SentAlike (s'.vars j')

/-- What is in front of the visible variables of the first store is so in the second one. -/
structure Covers (s s' : Storage) : Prop where
  /-- A visible variable has one of its own name in front of it. -/
  shadow : ∀ k : Key, k.Nameable → ∀ j, ¬ (s.vars j).BootOnly → (s.vars j).isMatch k = true →
    Slots.InFront s.vars (Variable.isMatch k) j → Slots.InFront s'.vars (Variable.isMatch k) j
  /-- A visible variable has a boot-only one in front of it.  It may lack that name in the second
  store only if its name is there twice. -/
  behind : ∀ k : Key, k.Nameable → unitAt k.name.bytes 0 ≠ 0 → ∀ i, (s.vars i).BootOnly →
    (s.vars i).isMatch k = true →
    (∀ j > i, (s.vars j).isListed true = true → Slots.InFront s'.vars (Variable.isMatch k) j) ∨
      Twins s s' k
  first : (∃ j, (s.vars j).isListed true = true) → s.total ≠ 0 → s'.total ≠ 0

theorem Variable.isListed_bootOnly {v : Variable} (h : v.BootOnly) : v.isListed true = false := by
  rw [Variable.isListed, rtDenyAccess, h]
  simp

/-! ## GetVariable -/

section
variable {s s' : Storage} {k : Key} {req : ReadRequest}

/-- A visible variable that one store finds is found by the other one. -/
theorem Covers.findSlot_eq (h : SameRuntimePart s s') (hc : Covers s' s) (hk : k.Nameable)
    {i : Fin MAX_VAR_COUNT} (hi : s.findSlot k = some i) (hrt : ¬ (s.vars i).BootOnly) :
    s'.findSlot k = some i ∧ s'.vars i = s.vars i := by
  have heq : s'.vars i = s.vars i := h.eq_of_not hrt
  obtain ⟨hmatch, hmin⟩ := Slots.first_eq_some_iff.mp hi
  refine ⟨Slots.first_eq_some_iff.mpr ⟨by rwa [heq], fun j hj => ?_⟩, heq⟩
  by_contra hj'
  obtain ⟨i', hi', hmatch'⟩ := hc.shadow k hk i (by rwa [heq]) (by rwa [heq])
    ⟨j, hj, Bool.eq_true_of_not_eq_false hj'⟩
  rw [hmin i' hi'] at hmatch'
  cases hmatch'

/-- Nothing is found at runtime. -/
theorem getVariable_hidden (hc : req.command = COMMAND_GET_VARIABLE) (hname : req.name ≠ [])
    (hrt : req.atRuntime = true)
    (h : ∀ i, s.findSlot req.key = some i → (s.vars i).BootOnly) :
    getVariable s req = .result .notFound := by
  unfold getVariable
  rw [if_neg (not_not.mpr hc), if_neg hname]
  cases hi : s.findSlot req.key with
  | none => rw [storageFindVariable_eq_none.mpr hi]
  | some i =>
      rw [storageFindVariable_eq hi]
      dsimp only
      rw [hrt, h i hi]
      rfl

/-- A variable is found. -/
theorem getVariable_visible (hc : req.command = COMMAND_GET_VARIABLE) (hname : req.name ≠ [])
    {i : Fin MAX_VAR_COUNT} (hi : s.findSlot req.key = some i) (hrt : ¬ (s.vars i).BootOnly) :
    getVariable s req = if req.bufferSize < (s.vars i).datasz then .tooSmall (s.vars i).datasz
      else .found (s.vars i).attrs (s.vars i).data := by
  unfold getVariable
  rw [if_neg (not_not.mpr hc), if_neg hname, storageFindVariable_eq hi]
  dsimp only
  rw [Variable.not_bootOnly.mp hrt, Bool.not_true, Bool.and_false, if_neg Bool.false_ne_true]

theorem ReadRequest.nameable (req : ReadRequest) (hname : req.name ≠ []) : req.key.Nameable :=
  ⟨req.name, req.guid, hname, req.name_fits, rfl⟩

theorem getVariable_alike (h : SameRuntimePart s s') (hc : Covers s s') (hc' : Covers s' s)
    (hrt : req.atRuntime = true) : getVariable s req = getVariable s' req := by
  by_cases hcmd : req.command = COMMAND_GET_VARIABLE
  · by_cases hname : req.name = []
    · unfold getVariable
      rw [if_neg (not_not.mpr hcmd), if_neg (not_not.mpr hcmd), if_pos hname, if_pos hname]
    · have hk := req.nameable hname
      by_cases hvis : ∃ i, s.findSlot req.key = some i ∧ ¬ (s.vars i).BootOnly
      · obtain ⟨i, hi, hseen⟩ := hvis
        obtain ⟨hi', heq⟩ := Covers.findSlot_eq h hc' hk hi hseen
        rw [getVariable_visible hcmd hname hi hseen,
          getVariable_visible hcmd hname hi' (by rwa [heq]), heq]
      · have hhidden : ∀ i, s.findSlot req.key = some i → (s.vars i).BootOnly :=
          fun i hi => not_not.mp (fun hseen => hvis ⟨i, hi, hseen⟩)
        have hhidden' : ∀ i, s'.findSlot req.key = some i → (s'.vars i).BootOnly := by
          intro i hi
          by_contra hseen
          obtain ⟨hi', heq⟩ := Covers.findSlot_eq h.symm hc hk hi hseen
          exact hvis ⟨i, hi', by rwa [heq]⟩
        rw [getVariable_hidden hcmd hname hrt hhidden, getVariable_hidden hcmd hname hrt hhidden']
  · unfold getVariable
    rw [if_pos hcmd, if_pos hcmd]

/-! ## GetNextVariableName -/

/-- Behind the first match. -/
theorem storageNextVariable_iff {efiAtRuntime : Bool} {j : Fin MAX_VAR_COUNT}
    (h0 : unitAt k.name.bytes 0 ≠ 0) (hsz : k.namesz ≠ 0) :
    storageNextVariable s efiAtRuntime k = some j ↔
      Slots.FirstBehind s.vars (Variable.isMatch k) (Variable.isListed efiAtRuntime) j := by
  rw [← Slots.firstFrom_first_iff]
  have heq : storageNextVariable s efiAtRuntime k = (s.findSlot k).bind
      (fun i => Slots.firstFrom s.vars (Variable.isListed efiAtRuntime) (i.val + 1)) := by
    unfold storageNextVariable
    rw [if_neg (not_or.mpr ⟨h0, hsz⟩)]
    cases s.findSlot k <;> rfl
  rw [heq]
  rfl

theorem Key.Nameable.namesz_ne (h : k.Nameable) : k.namesz ≠ 0 := by
  obtain ⟨name, guid, hname, _, rfl⟩ := h
  exact Key.of_namesz_ne_zero hname guid

theorem storageGetFirst_eq (h : SameRuntimePart s s') (htotal : s.total ≠ 0)
    (htotal' : s'.total ≠ 0) : storageGetFirst s' true = storageGetFirst s true := by
  unfold storageGetFirst
  rw [if_neg htotal, if_neg htotal', h.first_eq (fun _ => Variable.isListed_bootOnly)]

theorem serializeName_isSome_iff {v : Variable} :
    (serializeName v).isSome = true ↔ v.namesz ≤ MAX_VARIABLE_NAME_SIZE := by
  unfold serializeName
  split
  · rename_i hfits
    exact iff_of_true rfl hfits
  · rename_i hlong
    exact iff_of_false nofun hlong

theorem Variable.SentAlike.symm {v v' : Variable} (h : v.SentAlike v') : v'.SentAlike v := by
  refine ⟨h.size.symm, h.name.symm, fun hfits => (h.guid ?_).symm⟩
  rwa [← serializeName_isSome_iff, h.name, serializeName_isSome_iff]

theorem Variable.not_bootOnly_of_isListed {v : Variable} (h : v.isListed true = true) :
    ¬ v.BootOnly := by
  intro hb
  rw [Variable.isListed_bootOnly hb] at h
  cases h

/-- A visible variable with `k` in front of it has it in front of it in the other store, or there
are two that are sent alike. -/
theorem Covers.inFront_or (h : SameRuntimePart s s') (hc : Covers s s') (hk : k.Nameable)
    (h0 : unitAt k.name.bytes 0 ≠ 0) {j : Fin MAX_VAR_COUNT}
    (hlisted : (s.vars j).isListed true = true)
    (hfront : Slots.InFront s.vars (Variable.isMatch k) j) :
    Slots.InFront s'.vars (Variable.isMatch k) j ∨ Twins s s' k := by
  obtain ⟨i, hi, hmatch⟩ := hfront
  by_cases hb : (s.vars i).BootOnly
  · rcases hc.behind k hk h0 i hb hmatch with hall | htwins
    · exact .inl (hall j hi hlisted)
    · exact .inr htwins
  · exact .inl ⟨i, hi, by rwa [h.eq_of_not hb]⟩

/-- What follows a name in one store has its like in the other one. -/
theorem Covers.firstBehind (h : SameRuntimePart s s') (hc : Covers s s') (hc' : Covers s' s)
    (hk : k.Nameable) (h0 : unitAt k.name.bytes 0 ≠ 0) {j : Fin MAX_VAR_COUNT}
    (hj : Slots.FirstBehind s.vars (Variable.isMatch k) (Variable.isListed true) j) :
    ∃ j', Slots.FirstBehind s'.vars (Variable.isMatch k) (Variable.isListed true) j' ∧
      (s.vars j).SentAlike (s'.vars j') := by
  have heq : s'.vars j = s.vars j := h.eq_of_not (Variable.not_bootOnly_of_isListed hj.pred)
  rcases hc.inFront_or h hk h0 hj.pred hj.behind with hfront | ⟨j₁, j', _, hj₁, hj', hsent⟩
  · obtain ⟨j', hle, hj'⟩ := Slots.exists_firstBehind (p := Variable.isListed true)
      (show (s'.vars j).isListed true = true by rw [heq]; exact hj.pred) hfront
    have heq' : s.vars j' = s'.vars j' :=
      h.symm.eq_of_not (Variable.not_bootOnly_of_isListed hj'.pred)
    -- an earlier one is behind the name in the second store only
    rcases hc'.inFront_or h.symm hk h0 hj'.pred hj'.behind with
      hfront' | ⟨j₂, j₃, _, hj₂, hj₃, hsent⟩
    · rcases lt_or_eq_of_le hle with hlt | rfl
      · exact absurd hfront' (hj.first j' hlt (by rw [heq']; exact hj'.pred))
      · refine ⟨j', hj', ?_⟩
        rw [heq]
        exact ⟨rfl, rfl, fun _ => rfl⟩
    · obtain rfl := hj'.unique hj₂
      obtain rfl := hj.unique hj₃
      exact ⟨j', hj', hsent.symm⟩
  · obtain rfl := hj.unique hj₁
    exact ⟨j', hj', hsent⟩

/-- The next variable is there in the other store, too. -/
theorem Covers.nextVariable (h : SameRuntimePart s s') (hc : Covers s s') (hc' : Covers s' s)
    {j : Fin MAX_VAR_COUNT}
    (hj : storageNextVariable s true req.key = some j) :
    ∃ j', storageNextVariable s' true req.key = some j' ∧ (s.vars j).SentAlike (s'.vars j') := by
  by_cases hempty : unitAt req.key.name.bytes 0 = 0 ∨ req.key.namesz = 0
  · have hfirst : storageGetFirst s true = some j := by
      unfold storageNextVariable at hj
      rwa [if_pos hempty] at hj
    have htotal : s.total ≠ 0 := by
      intro h0
      unfold storageGetFirst at hfirst
      rw [if_pos h0] at hfirst
      cases hfirst
    have hlisted : (s.vars j).isListed true = true := by
      unfold storageGetFirst at hfirst
      rw [if_neg htotal] at hfirst
      exact Slots.first_pred hfirst
    refine ⟨j, ?_, ?_⟩
    · unfold storageNextVariable
      rw [if_pos hempty, storageGetFirst_eq h htotal (hc.first ⟨j, hlisted⟩ htotal), hfirst]
    · rw [h.eq_of_not (Variable.not_bootOnly_of_isListed hlisted)]
      exact ⟨rfl, rfl, fun _ => rfl⟩
  · obtain ⟨h0, hsz⟩ := not_or.mp hempty
    have hname : req.name ≠ [] := fun hnil => hsz (congrArg List.length hnil)
    obtain ⟨j', hj', hsent⟩ := Covers.firstBehind h hc hc' (req.nameable hname) h0
      ((storageNextVariable_iff h0 hsz).mp hj)
    exact ⟨j', (storageNextVariable_iff h0 hsz).mpr hj', hsent⟩

theorem Variable.SentAlike.nextReply_eq {v v' : Variable} (h : v.SentAlike v') (bufferSize : Nat) :
    nextReply bufferSize v = nextReply bufferSize v' := by
  unfold nextReply
  rw [h.size, ← h.name]
  cases hname : serializeName v with
  | none => rfl
  | some l =>
      rw [h.guid (serializeName_isSome_iff.mp (Option.isSome_of_mem hname))]

theorem getNextVariable_alike (h : SameRuntimePart s s') (hc : Covers s s') (hc' : Covers s' s)
    (hrt : req.atRuntime = true) : getNextVariable s req = getNextVariable s' req := by
  unfold getNextVariable
  rw [hrt]
  split
  · rfl
  · cases hj : storageNextVariable s true req.key with
    | some j =>
        obtain ⟨j', hj', hsent⟩ := Covers.nextVariable h hc hc' hj
        rw [hj']
        exact hsent.nextReply_eq _
    | none =>
        cases hj' : storageNextVariable s' true req.key with
        | none => rfl
        | some j' =>
            obtain ⟨j, hj'', _⟩ := Covers.nextVariable h.symm hc' hc hj'
            rw [hj] at hj''
            cases hj''

end

/-! ## The bytes of an answer -/

theorem Page.put_inj {page : Page} {bs bs' : List UInt8} (hfits : bs.length ≤ MAX_SHARED_OVMF_MEM)
    (h : page.put bs = page.put bs') : ∃ l, bs <+: l ∧ bs' <+: l := by
  obtain ⟨page', hput, hbytes⟩ := Page.put_eq page hfits
  have hfits' : bs'.length ≤ MAX_SHARED_OVMF_MEM := by
    by_contra hlong
    rw [hput, Page.put, if_neg hlong] at h
    cases h
  obtain ⟨page'', hput', hbytes'⟩ := Page.put_eq page hfits'
  rw [hput, hput'] at h
  cases h
  exact ⟨page'.bytes, ⟨_, hbytes.symm⟩, ⟨_, hbytes'.symm⟩⟩

/-- Answers that leave the same page have the same status. -/
theorem PageReply.status_eq {page : Page} {r r' : PageReply}
    (hfits : r.encode.length ≤ MAX_SHARED_OVMF_MEM)
    (h : page.put r.encode = page.put r'.encode) : r.status = r'.status := by
  obtain ⟨l, hl, hl'⟩ := Page.put_inj hfits h
  exact serializeResult_inj (r.status_front.trans hl) (r'.status_front.trans hl')

theorem PageReply.result_fits (status : EfiStatus) :
    (PageReply.result status).encode.length ≤ MAX_SHARED_OVMF_MEM := by
  rw [PageReply.encode, serializeResult, length_leBytes]
  decide

section
variable {v v' : Variable} {page : Page}

/-- The bytes that stand in the page, where there is an answer. -/
def Page.putReply (page : Page) (reply : Option PageReply) : Option Page :=
  reply.bind (fun reply => page.put reply.encode)

theorem Page.putReply_some (r : PageReply) : page.putReply (some r) = page.put r.encode := rfl

/-- A variable that was found is not answered like one that was not. -/
theorem nextReply_ne_notFound (bufferSize : Nat) :
    page.putReply (nextReply bufferSize v) ≠ page.putReply (some (.result .notFound)) := by
  intro h
  obtain ⟨page', hput, _⟩ := Page.put_eq page (PageReply.result_fits .notFound)
  cases hr : nextReply bufferSize v with
  | none =>
      rw [hr] at h
      exact nomatch h.trans hput
  | some r =>
      rw [hr] at h
      have hst := PageReply.status_eq (PageReply.result_fits .notFound) h.symm
      unfold nextReply at hr
      split at hr
      · cases hr
        cases hst
      · obtain ⟨name, _, hr⟩ := Option.bind_eq_some_iff.mp hr
        cases hr
        cases hst

/-- The size behind `EFI_BUFFER_TOO_SMALL`, as the client reads it. -/
def sizeResponse : Reader EfiStatus Nat := do
  let _ ← Reader.bytes 8
  Reader.num 8

theorem sizeResponse_reads {needed : Nat} (h : needed < 2 ^ 64) :
    Reads sizeResponse (PageReply.tooSmall needed).encode needed :=
  (Reads.bytes (length_leBytes 8 _)).bind (Reads.num h)

/-- The name and the GUID behind `EFI_SUCCESS`, as the client reads them. -/
def nextResponse : Reader EfiStatus (List UInt8 × List UInt8) := do
  let _ ← Reader.bytes 8
  let n ← Reader.num 8
  let name ← Reader.bytes n
  let guid ← Reader.bytes 16
  return (name, guid)

theorem nextResponse_reads (h : v.namesz ≤ MAX_VARIABLE_NAME_SIZE) :
    Reads nextResponse (PageReply.next (leBytes 8 v.namesz ++ v.keyBytes) v.guid).encode
      (v.keyBytes, v.guid.bytes) := by
  have hn : v.namesz ≤ 256 := h
  rw [PageReply.encode, List.append_assoc]
  refine (Reads.bytes (length_leBytes 8 _)).bind ?_
  refine (Reads.num (by omega)).bind ?_
  refine (Reads.bytes (Variable.length_keyBytes h)).bind ?_
  exact (Reads.bytes v.guid.length_eq).map

theorem length_nextReply (h : v.namesz ≤ MAX_VARIABLE_NAME_SIZE) :
    (PageReply.next (leBytes 8 v.namesz ++ v.keyBytes) v.guid).encode.length ≤
      MAX_SHARED_OVMF_MEM := by
  have hn : v.namesz ≤ 256 := h
  have hmem : MAX_SHARED_OVMF_MEM = 65536 := rfl
  simp only [PageReply.encode, serializeResult, List.length_append, length_leBytes,
    Block.length_eq, Variable.length_keyBytes h, hmem]
  omega

theorem length_tooSmall (needed : Nat) :
    (PageReply.tooSmall needed).encode.length ≤ MAX_SHARED_OVMF_MEM := by
  simp only [PageReply.encode, serializeResult, List.length_append, length_leBytes]
  decide

theorem add64_pos_of_fits (h : v.namesz ≤ MAX_VARIABLE_NAME_SIZE) : 0 < add64 v.namesz 2 := by
  have hn : v.namesz ≤ 256 := h
  rw [add64_of_lt (by omega)]
  omega

/-- No buffer at all: the size is answered, or the name cannot be read. -/
theorem nextReply_zero (v : Variable) :
    nextReply 0 v = if 0 < add64 v.namesz 2 then some (.tooSmall (add64 v.namesz 2)) else none := by
  unfold nextReply
  split
  · rfl
  · rename_i h0
    rw [serializeName, if_neg (fun hfits => h0 (add64_pos_of_fits hfits))]
    rfl

/-- The largest buffer: the name is answered, or it cannot be read. -/
theorem nextReply_max (v : Variable) : nextReply (2 ^ 64 - 1) v =
    if v.namesz ≤ MAX_VARIABLE_NAME_SIZE then
      some (.next (leBytes 8 v.namesz ++ v.keyBytes) v.guid) else none := by
  have hlt : ¬ 2 ^ 64 - 1 < add64 v.namesz 2 := by
    have := add64_lt v.namesz 2
    omega
  unfold nextReply
  rw [if_neg hlt, serializeName]
  split <;> rfl

/-- The sizes show. -/
theorem size_of_nextReply (h : page.putReply (nextReply 0 v) = page.putReply (nextReply 0 v'))
    (hpos : 0 < add64 v.namesz 2) : add64 v.namesz 2 = add64 v'.namesz 2 := by
  rw [nextReply_zero, nextReply_zero, if_pos hpos, Page.putReply_some] at h
  obtain ⟨page', hput, _⟩ := Page.put_eq page (length_tooSmall (add64 v.namesz 2))
  split at h
  · rw [Page.putReply_some] at h
    obtain ⟨l, hl, hl'⟩ := Page.put_inj (length_tooSmall _) h
    exact (sizeResponse_reads (add64_lt ..)).unique (sizeResponse_reads (add64_lt ..)) hl hl'
  · exact nomatch hput.symm.trans h

/-- The name and the GUID show. -/
theorem name_of_nextReply
    (h : page.putReply (nextReply (2 ^ 64 - 1) v) = page.putReply (nextReply (2 ^ 64 - 1) v'))
    (hfits : v.namesz ≤ MAX_VARIABLE_NAME_SIZE) :
    serializeName v = serializeName v' ∧ v.guid = v'.guid := by
  rw [nextReply_max, nextReply_max, if_pos hfits, Page.putReply_some] at h
  obtain ⟨page', hput, _⟩ := Page.put_eq page (length_nextReply hfits)
  split at h
  · rename_i hfits'
    rw [Page.putReply_some] at h
    obtain ⟨l, hl, hl'⟩ := Page.put_inj (length_nextReply hfits) h
    have hboth := (nextResponse_reads hfits).unique (nextResponse_reads hfits') hl hl'
    obtain ⟨hkey, hguid⟩ := Prod.mk.inj hboth
    have hsz : v.namesz = v'.namesz := by
      rw [← Variable.length_keyBytes hfits, ← Variable.length_keyBytes hfits', hkey]
    refine ⟨?_, Block.eq_of_bytes_eq hguid⟩
    rw [serializeName, serializeName, if_pos hfits, if_pos hfits', hsz, hkey]
  · exact nomatch hput.symm.trans h

end

theorem Variable.sentAlike_of_pages {v v' : Variable} (h : ∀ bufferSize < 2 ^ 64, ∃ page : Page,
      page.putReply (nextReply bufferSize v) = page.putReply (nextReply bufferSize v')) :
    v.SentAlike v' := by
  obtain ⟨page, hzero⟩ := h 0 (by decide)
  obtain ⟨page', hmax⟩ := h (2 ^ 64 - 1) (by decide)
  refine ⟨?_, ?_, fun hfits => (name_of_nextReply hmax hfits).2⟩
  · by_cases hpos : 0 < add64 v.namesz 2
    · exact size_of_nextReply hzero hpos
    · by_cases hpos' : 0 < add64 v'.namesz 2
      · exact (size_of_nextReply hzero.symm hpos').symm
      · omega
  · by_cases hfits : v.namesz ≤ MAX_VARIABLE_NAME_SIZE
    · exact (name_of_nextReply hmax hfits).1
    · by_cases hfits' : v'.namesz ≤ MAX_VARIABLE_NAME_SIZE
      · exact (name_of_nextReply hmax.symm hfits').1.symm
      · rw [serializeName, serializeName, if_neg hfits, if_neg hfits']

/-! ## The requests -/

section
variable {P X : Type}

/-- The page after the request in it was handled. -/
def respond (out : Outside P X) (m : Machine) (page : Page) : Option Page :=
  (xenVariableServerHandleRequest out m page).map Prod.fst

/-- A GetVariable or GetNextVariableName request with the runtime flag set. -/
def AsksAtRuntime (page : Page) : Prop :=
  page.version = 1 ∧
    ((page.command = COMMAND_GET_VARIABLE ∧ ∃ req rest,
        unserializeGetRequest.read page.bytes = some (.ok (req, rest)) ∧ req.atRuntime = true) ∨
      (page.command = COMMAND_GET_NEXT_VARIABLE ∧ ∃ req rest,
        unserializeGetNextRequest.read page.bytes = some (.ok (req, rest)) ∧
          req.atRuntime = true))

/-- Every such request is answered with the same bytes in both states. -/
def SameAtRuntime (out out' : Outside P X) (m m' : Machine) : Prop :=
  ∀ page, AsksAtRuntime page → respond out m page = respond out' m' page

variable {out out' : Outside P X} {m m' : Machine} {page : Page}

theorem respond_of_answer {m₁ : Machine} {reply : Option PageReply}
    (h : answer out m page = reply.map (fun reply => (some reply, m₁))) :
    respond out m page = page.putReply reply := by
  unfold respond xenVariableServerHandleRequest
  rw [h]
  cases reply with
  | none => rfl
  | some reply =>
      show (Option.map Prod.fst ((page.put reply.encode).bind fun page => some (page, m₁))) =
        page.put reply.encode
      cases page.put reply.encode <;> rfl

theorem respond_get (out : Outside P X) (m : Machine) {req : ReadRequest} {rest : List UInt8}
    (hv : page.version = 1) (hc : page.command = COMMAND_GET_VARIABLE)
    (h : unserializeGetRequest.read page.bytes = some (.ok (req, rest))) :
    respond out m page = page.putReply (some (getVariable m.storage req)) :=
  respond_of_answer (answer_get out m hv hc h)

theorem respond_getNext (out : Outside P X) (m : Machine) {req : ReadRequest} {rest : List UInt8}
    (hv : page.version = 1) (hc : page.command = COMMAND_GET_NEXT_VARIABLE)
    (h : unserializeGetNextRequest.read page.bytes = some (.ok (req, rest))) :
    respond out m page = page.putReply (getNextVariable m.storage req) :=
  respond_of_answer (answer_getNext out m hv hc h)

theorem sameAtRuntime_of_covers (h : SameRuntimePart m.storage m'.storage)
    (hc : Covers m.storage m'.storage) (hc' : Covers m'.storage m.storage) :
    SameAtRuntime out out' m m' := by
  rintro page ⟨hv, ⟨hcmd, req, rest, hread, hrt⟩ | ⟨hcmd, req, rest, hread, hrt⟩⟩
  · rw [respond_get out m hv hcmd hread, respond_get out' m' hv hcmd hread,
      getVariable_alike h hc hc' hrt]
  · rw [respond_getNext out m hv hcmd hread, respond_getNext out' m' hv hcmd hread,
      getNextVariable_alike h hc hc' hrt]

/-! ## Requests that tell the states apart -/

theorem Page.exists_front (bs : List UInt8) (h : bs.length ≤ MAX_SHARED_OVMF_MEM) :
    ∃ page : Page, bs <+: page.bytes := by
  refine ⟨Block.ofList _ bs, ?_⟩
  rw [Block.ofList_bytes h]
  exact List.prefix_append ..

/-- The answers to one GetVariable request at runtime. -/
theorem SameAtRuntime.get (h : SameAtRuntime out out' m m') {name : List UInt8} (guid : Guid)
    {dataSize : Nat} (hname : name.length ≤ MAX_VARIABLE_NAME_SIZE) (hsize : dataSize < 2 ^ 64) :
    ∃ page : Page,
      page.putReply (some (getVariable m.storage
        ⟨COMMAND_GET_VARIABLE, name, guid, dataSize, true, hname⟩)) =
      page.putReply (some (getVariable m'.storage
        ⟨COMMAND_GET_VARIABLE, name, guid, dataSize, true, hname⟩)) := by
  have hn : name.length ≤ 256 := hname
  have hmem : MAX_SHARED_OVMF_MEM = 65536 := rfl
  obtain ⟨page, hpage⟩ := Page.exists_front (xenGetVariable name guid dataSize true) (by
    simp only [xenGetVariable, List.length_append, length_leBytes, Block.length_eq, hmem]
    omega)
  obtain ⟨hv, hc, rest, hread⟩ := read_xenGetVariable hname hsize hpage
  have hsame := h page ⟨hv, .inl ⟨hc, _, rest, hread, rfl⟩⟩
  rw [respond_get out m hv hc hread, respond_get out' m' hv hc hread] at hsame
  exact ⟨page, hsame⟩

/-- The answers to one GetNextVariableName request at runtime. -/
theorem SameAtRuntime.getNext (h : SameAtRuntime out out' m m') {name : List UInt8} (guid : Guid)
    {nameSize : Nat} (hname : name.length ≤ MAX_VARIABLE_NAME_SIZE) (hsize : nameSize < 2 ^ 64) :
    ∃ page : Page,
      page.putReply (getNextVariable m.storage
        ⟨COMMAND_GET_NEXT_VARIABLE, name, guid, nameSize, true, hname⟩) =
      page.putReply (getNextVariable m'.storage
        ⟨COMMAND_GET_NEXT_VARIABLE, name, guid, nameSize, true, hname⟩) := by
  have hn : name.length ≤ 256 := hname
  have hmem : MAX_SHARED_OVMF_MEM = 65536 := rfl
  obtain ⟨page, hpage⟩ := Page.exists_front (xenGetNextVariableName nameSize name guid true)
    (by
      simp only [xenGetNextVariableName, List.length_append, length_leBytes, Block.length_eq, hmem]
      omega)
  obtain ⟨hv, hc, rest, hread⟩ := read_xenGetNextVariableName hname hsize hpage
  have hsame := h page ⟨hv, .inr ⟨hc, _, rest, hread, rfl⟩⟩
  rw [respond_getNext out m hv hc hread, respond_getNext out' m' hv hc hread] at hsame
  exact ⟨page, hsame⟩

/-- A hidden variable that hides a visible one, in one of the states only. -/
theorem SameAtRuntime.shadow (h : SameAtRuntime out out' m m')
    (hpart : SameRuntimePart m.storage m'.storage) {k : Key} (hk : k.Nameable)
    {j : Fin MAX_VAR_COUNT} (hseen : ¬ (m.storage.vars j).BootOnly)
    (hmatch : (m.storage.vars j).isMatch k = true)
    (hfront : Slots.InFront m.storage.vars (Variable.isMatch k) j) :
    Slots.InFront m'.storage.vars (Variable.isMatch k) j := by
  by_contra hno
  have heq : m'.storage.vars j = m.storage.vars j := hpart.eq_of_not hseen
  obtain ⟨name, guid, hname, hfits, rfl⟩ := hk
  -- in the second state the variable is the first of its name
  have hj' : m'.storage.findSlot (Key.of name guid) = some j :=
    Slots.first_eq_some_iff.mpr ⟨by rwa [heq], fun i hi => Bool.eq_false_of_not_eq_true
      (fun hi' => hno ⟨i, hi, hi'⟩)⟩
  -- in the first state the first of the name is in front of it, and hidden
  have hhidden : ∀ i, m.storage.findSlot (Key.of name guid) = some i →
      (m.storage.vars i).BootOnly := by
    intro i hi
    by_contra hseen'
    obtain ⟨hmatch', hmin⟩ := Slots.first_eq_some_iff.mp hi
    obtain ⟨i', hi'j, hi'⟩ := hfront
    have hle : i ≤ i' := by
      by_contra hgt
      rw [hmin i' (not_le.mp hgt)] at hi'
      cases hi'
    exact hno ⟨i, lt_of_le_of_lt hle hi'j, by rwa [hpart.eq_of_not hseen']⟩
  obtain ⟨page, hsame⟩ := h.get guid hfits (show 0 < 2 ^ 64 by decide)
  rw [getVariable_hidden rfl hname rfl hhidden,
    getVariable_visible rfl hname hj' (by rwa [heq])] at hsame
  have hst := PageReply.status_eq (PageReply.result_fits .notFound) hsame
  split at hst
  · cases hst
  · cases hst

theorem getNextVariable_eq {s : Storage} {name : List UInt8} {guid : Guid}
    {j : Fin MAX_VAR_COUNT} (hj : storageNextVariable s true (Key.of name guid) = some j)
    (nameSize : Nat) (hname : name.length ≤ MAX_VARIABLE_NAME_SIZE) :
    getNextVariable s ⟨COMMAND_GET_NEXT_VARIABLE, name, guid, nameSize, true, hname⟩ =
      nextReply nameSize (s.vars j) := by
  unfold getNextVariable ReadRequest.key
  dsimp only
  rw [if_neg (not_not.mpr rfl), hj]

theorem getNextVariable_eq_notFound {s : Storage} {name : List UInt8} {guid : Guid}
    (hj : storageNextVariable s true (Key.of name guid) = none) (nameSize : Nat)
    (hname : name.length ≤ MAX_VARIABLE_NAME_SIZE) :
    getNextVariable s ⟨COMMAND_GET_NEXT_VARIABLE, name, guid, nameSize, true, hname⟩ =
      some (.result .notFound) := by
  unfold getNextVariable ReadRequest.key
  dsimp only
  rw [if_neg (not_not.mpr rfl), hj]

/-- A name behind which the states have different variables. -/
theorem SameAtRuntime.nextVariable (h : SameAtRuntime out out' m m') {name : List UInt8}
    {guid : Guid} (hfits : name.length ≤ MAX_VARIABLE_NAME_SIZE) {j : Fin MAX_VAR_COUNT}
    (hj : storageNextVariable m.storage true (Key.of name guid) = some j) :
    ∃ j', storageNextVariable m'.storage true (Key.of name guid) = some j' ∧
      (m.storage.vars j).SentAlike (m'.storage.vars j') := by
  cases hj' : storageNextVariable m'.storage true (Key.of name guid) with
  | none =>
      obtain ⟨page, hsame⟩ := h.getNext guid hfits (show 0 < 2 ^ 64 by decide)
      rw [getNextVariable_eq hj, getNextVariable_eq_notFound hj'] at hsame
      exact absurd hsame (nextReply_ne_notFound 0)
  | some j' =>
      refine ⟨j', rfl, Variable.sentAlike_of_pages (fun bufferSize hsize => ?_)⟩
      obtain ⟨page, hsame⟩ := h.getNext guid hfits hsize
      rw [getNextVariable_eq hj, getNextVariable_eq hj'] at hsame
      exact ⟨page, hsame⟩

theorem SameAtRuntime.covers (h : SameAtRuntime out out' m m')
    (hpart : SameRuntimePart m.storage m'.storage) : Covers m.storage m'.storage := by
  refine ⟨fun k hk j hseen hmatch hfront => h.shadow hpart hk hseen hmatch hfront, ?_, ?_⟩
  · intro k hk h0 i _ hmatch
    have hsz := hk.namesz_ne
    obtain ⟨name, guid, hname, hfits, rfl⟩ := hk
    refine Classical.or_iff_not_imp_left.mpr (fun hno => ?_)
    push Not at hno
    obtain ⟨j, hij, hlisted, hfront⟩ := hno
    -- the name stands in front of `j` in the first state only; ask for what follows it
    obtain ⟨l, hle, hl⟩ := Slots.exists_firstBehind (p := Variable.isListed true) hlisted
      ⟨i, hij, hmatch⟩
    obtain ⟨l', hl', hsent⟩ := h.nextVariable hfits ((storageNextVariable_iff h0 hsz).mpr hl)
    have hl' := (storageNextVariable_iff h0 hsz).mp hl'
    refine ⟨l, l', ?_, hl, hl', hsent⟩
    rintro rfl
    exact hfront (hl'.behind.mono hle)
  · rintro ⟨j, hj⟩ htotal htotal'
    -- the empty name asks for the first variable
    obtain ⟨i, hi⟩ := Option.isSome_iff_exists.mp (Slots.first_isSome_of hj)
    have hnext : storageNextVariable m.storage true (Key.of [] gEfiGlobalVariableGuid) =
        some i := by
      unfold storageNextVariable storageGetFirst
      rw [if_pos (.inr rfl), if_neg htotal, hi]
    obtain ⟨j', hj', _⟩ := h.nextVariable (Nat.zero_le _) hnext
    unfold storageNextVariable storageGetFirst at hj'
    rw [if_pos (.inr rfl), if_pos htotal'] at hj'
    cases hj'

theorem sameAtRuntime_iff (hpart : SameRuntimePart m.storage m'.storage) :
    SameAtRuntime out out' m m' ↔ Covers m.storage m'.storage ∧ Covers m'.storage m.storage := by
  constructor
  · intro h
    have h' : SameAtRuntime out' out m' m := fun page hpage => (h page hpage).symm
    exact ⟨h.covers hpart, h'.covers hpart.symm⟩
  · rintro ⟨hc, hc'⟩
    exact sameAtRuntime_of_covers hpart hc hc'

end

/-! ## A boot-only variable behind and in front of a visible one -/

/-- Where the only visible variable is in the first slot, no name is in front of it. -/
theorem covers_of_first {s s' : Storage} (h : ∀ j, ¬ (s.vars j).BootOnly → j = 0)
    (htotal : s'.total ≠ 0) : Covers s s' := by
  have hfront : ∀ {q : Variable → Bool} {j}, ¬ (s.vars j).BootOnly →
      ¬ Slots.InFront s.vars q j := by
    rintro q j hj ⟨i, hi, _⟩
    rw [h j hj] at hi
    exact absurd hi (Fin.not_lt_zero i)
  refine ⟨fun _ _ j hj _ hi => absurd hi (hfront hj), ?_, fun _ _ => htotal⟩
  intro k _ _ i _ hmatch
  refine .inl (fun j hij hlisted => ?_)
  exact absurd ⟨i, hij, hmatch⟩ (hfront (q := Variable.isMatch k)
    (Variable.not_bootOnly_of_isListed hlisted))

/-- A variable of boot services alone. -/
def bootVariable : Variable := .ofKey keyA [1] EFI_VARIABLE_BOOTSERVICE_ACCESS

/-- A variable that may be seen at runtime. -/
def runtimeVariable : Variable :=
  .ofKey (Key.of (wide ['B']) gEfiGlobalVariableGuid) [2] RT_BS_ATTRS

theorem sameRuntimePart_remove {s : Storage} {i : Fin MAX_VAR_COUNT} (h : (s.vars i).BootOnly) :
    SameRuntimePart s (s.remove i) :=
  Slots.AgreeOff.update h (show Variable.zero.BootOnly by unfold Variable.BootOnly; decide)

/-- The two variables, the visible one first. -/
def visibleFirst : Storage := .ofList [runtimeVariable, bootVariable]

theorem sameAtRuntime_visibleFirst :
    SameRuntimePart visibleFirst (visibleFirst.remove 1) ∧
      SameAtRuntime quietOutside quietOutside (.ofStorage visibleFirst .setup)
        (.ofStorage (visibleFirst.remove 1) .setup) := by
  have hboot : (visibleFirst.vars 1).BootOnly := by unfold Variable.BootOnly; decide +kernel
  have hpart : SameRuntimePart visibleFirst (visibleFirst.remove 1) := sameRuntimePart_remove hboot
  have honly : ∀ j, ¬ (visibleFirst.vars j).BootOnly → j = 0 := by
    unfold Variable.BootOnly
    decide +kernel
  have honly' : ∀ j, ¬ ((visibleFirst.remove 1).vars j).BootOnly → j = 0 := by
    unfold Variable.BootOnly
    decide +kernel
  refine ⟨hpart, (sameAtRuntime_iff hpart).mpr ⟨?_, ?_⟩⟩
  · exact covers_of_first honly (by decide +kernel)
  · exact covers_of_first honly' (by decide +kernel)

/-- The two variables, the boot-only one first. -/
def hiddenFirst : Storage := .ofList [bootVariable, runtimeVariable]

/-- A guest that asks for the variable behind `"A"` learns whether `"A"` is there. -/
theorem sameAtRuntime_previousName :
    SameRuntimePart hiddenFirst (hiddenFirst.remove 0) ∧
      ¬ SameAtRuntime quietOutside quietOutside (.ofStorage hiddenFirst .setup)
        (.ofStorage (hiddenFirst.remove 0) .setup) := by
  have hboot : (hiddenFirst.vars 0).BootOnly := by unfold Variable.BootOnly; decide +kernel
  refine ⟨sameRuntimePart_remove hboot, fun h => ?_⟩
  have hnext : storageNextVariable hiddenFirst true keyA = some 1 := by decide +kernel
  have hnone : storageNextVariable (hiddenFirst.remove 0) true keyA = none := by decide +kernel
  obtain ⟨j', hj', _⟩ := h.nextVariable (show (wide ['A']).length ≤ _ by decide) hnext
  exact nomatch hnone.symm.trans hj'

end Uefistored
