/-
# `Uefistored.Persist` — the saved copy and the store

`backend_set` replaces the saved copy by the non-volatile variables of the
store.  `handle_set_variable` calls it behind a success if the *request* has
`EFI_VARIABLE_NON_VOLATILE`; what has changed in the store depends on the
*stored* attributes.  The two go together except for deletions, for which the
attributes need not be those of the variable.

    success, non-volatile request    the copy is made anew
    success, volatile request        no non-volatile variable has changed
                                     (`handleSetVariable_volatile`), unless one was dropped
    failure                          nothing has changed, unless behind a write (`LeavesTrace`)

So copy and store hold the same non-volatile variables all the time
(`persistent_eq_stored`), as long as no request drops one (`Drops`) and none fails
behind a write.
-/
import Uefistored.Atomic

namespace Uefistored

open Lib

/-! ## What is saved of a slot -/

theorem nonVolatileVariables_congr {s s' : Storage}
    (h : ∀ i, (s'.vars i).saved = (s.vars i).saved) :
    nonVolatileVariables s' = nonVolatileVariables s :=
  List.filterMap_congr (fun i _ => h i)

theorem Variable.saved_of_volatile {v : Variable} (h : v.attrs.nonVolatile = false) :
    v.saved = none := by
  rw [Variable.saved, h, Bool.and_false]
  rfl

theorem Variable.saved_of_isFree {v : Variable} (h : v.isFree = true) : v.saved = none := by
  have hunit : unitAt v.name.bytes 0 = 0 := beq_iff_eq.mp h
  rw [Variable.saved, Variable.isValid, hunit]
  rfl

theorem Attrs.nonVolatile_withoutAppend (a : Attrs) :
    a.withoutAppend.nonVolatile = a.nonVolatile :=
  has_withoutAppend a (by decide)

example : (RT_BS_ATTRS ||| EFI_VARIABLE_APPEND_WRITE).withoutAppend = RT_BS_ATTRS := by
  decide +kernel

section
variable {s s' : Storage} {k : Key} {attrs : Attrs}

/-- A volatile write of such a key changes nothing that is saved, if what it removes is not. -/
theorem storageSet_saved (hk : k.Clean) (hnv : attrs.nonVolatile = false)
    (data : Option (List UInt8))
    (hrem : asksRemoval data attrs = true → ∀ i, s.findSlot k = some i →
      (s.vars i).attrs.nonVolatile = false) (i : Fin MAX_VAR_COUNT) :
    ((storageSet s k data attrs).2.vars i).saved = (s.vars i).saved := by
  have hr := storageSet_slot (s := s) hk data attrs i
  generalize (storageSet s k data attrs).2.vars i = v at hr ⊢
  cases hr with
  | kept => rfl
  | removed hasks hi =>
      rw [Variable.saved_of_isFree Variable.isFree_zero,
        Variable.saved_of_volatile (hrem hasks i hi)]
  | replaced _ _ _ _ hattrs =>
      have hold : (s.vars i).attrs.nonVolatile = false := by
        rw [hattrs, Attrs.nonVolatile_withoutAppend, hnv]
      rw [Variable.saved_of_volatile hold]
      exact Variable.saved_of_volatile hold
  | created _ _ _ _ hfree =>
      rw [Variable.saved_of_isFree (Slots.first_pred hfree)]
      exact Variable.saved_of_volatile ((Attrs.nonVolatile_withoutAppend attrs).trans hnv)

/-- A slot of the store is rewritten, with the same to be saved. -/
theorem setSlot_saved {i : Fin MAX_VAR_COUNT} {v : Variable} (h : v.saved = (s.vars i).saved)
    (j : Fin MAX_VAR_COUNT) : ((s.setSlot i v).vars j).saved = (s.vars j).saved :=
  Slots.forall_update (Q := fun j (v : Variable) => v.saved = (s.vars j).saved) (fun _ => rfl) h j

/-- The same for a verified update: where the attributes are not the stored ones, only the
time stamp is new. -/
theorem Wrote.saved (hnv : attrs.nonVolatile = false) {time : EfiTime} {i : Fin MAX_VAR_COUNT}
    (h : Wrote s k attrs time i s') (j : Fin MAX_VAR_COUNT) :
    (s'.vars j).saved = (s.vars j).saved := by
  have hwithout := (Attrs.nonVolatile_withoutAppend attrs).trans hnv
  cases h with
  | nothingNew => rfl
  | stamped hi hd =>
      refine setSlot_saved ?_ j
      rcases hd with rfl | hattrs
      · rfl
      · have hold : (s.vars i).attrs.nonVolatile = false := by rw [hattrs, hwithout]
        rw [Variable.saved_of_volatile hold]
        exact Variable.saved_of_volatile hold
  | created _ hfree =>
      show ((s.setSlot i _).vars j).saved = (s.vars j).saved
      refine setSlot_saved ?_ j
      rw [Variable.saved_of_isFree (Slots.first_pred hfree)]
      exact Variable.saved_of_volatile hwithout

end

/-! ## Requests that drop a variable -/

/-- The size of what is behind the descriptor. -/
def SetRequest.payloadSize (req : SetRequest) : Option Nat :=
  (sigDataSize req.buffer).map (sub64 (sub64 req.data.length OFFSET_OF_AUTHINFO2_CERT_DATA) ·)

/-- The request is one to delete: no attributes, or nothing to store and no append. -/
def SetRequest.asksDeletion (req : SetRequest) : Bool :=
  req.attrs == 0 || (!req.attrs.append &&
    (if req.attrs.timeBased then req.payloadSize == some 0 else req.data.length == 0))

/-- A volatile request to delete a non-volatile variable, other than the secure boot
variables. -/
def SetRequest.Drops (s : Storage) (req : SetRequest) : Prop :=
  req.attrs.nonVolatile = false ∧ variableClass req.key = .other ∧ req.asksDeletion = true ∧
    (storageFindVariable s req.key).any (·.attrs.nonVolatile) = true

instance (s : Storage) (req : SetRequest) : Decidable (req.Drops s) :=
  inferInstanceAs (Decidable (_ ∧ _ ∧ _ ∧ _))

theorem SetRequest.volatile_of_not_drops {s : Storage} {req : SetRequest} (h : ¬ req.Drops s)
    (hnv : req.attrs.nonVolatile = false) (hc : variableClass req.key = .other)
    (hasks : req.asksDeletion = true) {i : Fin MAX_VAR_COUNT}
    (hi : s.findSlot req.key = some i) : (s.vars i).attrs.nonVolatile = false := by
  by_contra hstored
  rw [Bool.not_eq_false] at hstored
  refine h ⟨hnv, hc, hasks, ?_⟩
  rw [storageFindVariable_eq hi]
  exact hstored

section
variable {P X : Type} {ssl : Phase → OpenSsl P X} {m : Machine} {req : SetRequest}

/-- A request that is not stored under a secure boot variable's name. -/
theorem SetRequest.class_of_not_secureBoot (hname : NulFree req.name)
    (h : isSecureBootVariable req.key = false) : variableClass req.key = .other := by
  by_contra hc
  rw [secureBootKeys_dispatched _ (SetRequest.key_mem_of_class hname hc)] at h
  cases h

/-- The secure boot variables are not written by volatile requests. -/
theorem PkResult.wrong_of_volatile {o : Outcome} {isPk : Bool} {k : Key} {data : Buffer}
    {dataSize : Nat} {attrs : Attrs} (hnv : attrs.nonVolatile = false)
    (h : PkResult ssl m k data dataSize attrs isPk o) : o.status ≠ .success := by
  cases h with
  | wrongAttrs => simp
  | setup _ _ _ h => rw [hnv] at h; cases h
  | enrol _ _ _ h => rw [hnv] at h; cases h
  | user _ _ _ h => rw [hnv] at h; cases h

theorem KekResult.wrong_of_volatile {o : Outcome} {k : Key} {data : Buffer} {dataSize : Nat}
    {attrs : Attrs} (hnv : attrs.nonVolatile = false)
    (h : KekResult ssl m k data dataSize attrs o) : o.status ≠ .success := by
  cases h with
  | wrongAttrs => simp
  | setup _ _ _ h => rw [hnv] at h; cases h
  | user _ _ _ h => rw [hnv] at h; cases h

/-! ## Volatile requests that succeed -/

/-- Without a descriptor, what is there to store are the data. -/
theorem SetRequest.asksDeletion_plain (htb : req.attrs.timeBased = false) {l : List UInt8}
    (hl : l.length = req.data.length) :
    req.asksDeletion = asksRemoval (some l) req.attrs := by
  unfold SetRequest.asksDeletion asksRemoval
  rw [htb, if_neg (by simp), show dataSize (some l) = l.length from rfl, hl, Bool.or_comm,
    Bool.and_comm]

/-- With a descriptor, a deletion has nothing behind it. -/
theorem SetRequest.asksDeletion_of_accepted {s : Storage} {kind : AuthVarType} {off : Nat}
    {msg : List UInt8} {time : EfiTime} (htb : req.attrs.timeBased = true)
    (happ : req.attrs.append = false)
    (hacc : Accepted (ssl .verify) s req.key req.buffer req.data.length req.attrs kind off 0 msg
      time) : req.asksDeletion = true := by
  have hsize : req.payloadSize = some 0 := hacc.described.size_eq
  rw [SetRequest.asksDeletion, htb, happ, if_pos rfl, hsize]
  exact Bool.or_true _

theorem VarResult.saved {o : Outcome} (hk : req.key.Clean) (hc : variableClass req.key = .other)
    (hnv : req.attrs.nonVolatile = false) (hdrops : ¬ req.Drops m.storage)
    (h : VarResult ssl (m.opened req) req.key req.buffer req.data.length req.attrs o)
    (hok : o.status = .success) (i : Fin MAX_VAR_COUNT) :
    (o.machine.storage.vars i).saved = (m.storage.vars i).saved := by
  cases h with
  | descriptorOnly hv hdel =>
      -- the attributes of the request are the stored ones
      refine storageSet_saved hk (by decide) none ?_ i
      intro _ j hj
      rw [storageFindVariable_eq hj] at hv
      obtain rfl := Option.some.inj hv
      unfold isDeleteAuthVariable at hdel
      split at hdel
      · rename_i hcond
        rw [Bool.and_eq_true, beq_iff_eq] at hcond
        rw [← hcond.1]
        exact hnv
      · cases hdel
  | unsupported => cases hok
  | plain htb hp =>
      refine storageSet_saved hk hnv _ ?_ i
      intro hrem j hj
      rw [← SetRequest.asksDeletion_plain htb (Buffer.length_slice hp)] at hrem
      exact SetRequest.volatile_of_not_drops hdrops hnv hc hrem hj
  | verified htb hu _ =>
      cases hu.settled hk htb with
      | unchanged hfail => exact absurd hok hfail
      | undigested _ _ hfail => exact absurd hok hfail
      | deleted hacc happ hj _ hst _ =>
          rw [hst]
          show ((m.storage.setSlot _ Variable.zero).vars i).saved = (m.storage.vars i).saved
          refine setSlot_saved ?_ i
          rw [Variable.saved_of_isFree Variable.isFree_zero, Variable.saved_of_volatile]
          exact SetRequest.volatile_of_not_drops hdrops hnv hc
            (SetRequest.asksDeletion_of_accepted htb happ hacc) hj
      | recorded _ hw _ _ _ hst =>
          rw [hst]
          refine Eq.trans (setSlot_saved ?_ i) (hw.saved hnv i)
          rfl

/-- A volatile request that succeeds, and drops nothing, changes nothing that is saved. -/
theorem handleSetVariable_volatile {m' : Machine} (hname : NulFree req.name)
    (hnv : req.attrs.nonVolatile = false) (hdrops : ¬ req.Drops m.storage)
    (h : handleSetVariable ssl m req = some (.success, m')) (i : Fin MAX_VAR_COUNT) :
    (m'.storage.vars i).saved = (m.storage.vars i).saved := by
  have hk := SetRequest.key_clean hname
  have hcases := handleSetVariable_cases h
  generalize hst : EfiStatus.success = status at hcases
  cases hcases with
  | refused hr => exact absurd hst.symm (refusal_ne_success hr)
  | plain _ htb hsb =>
      rw [Machine.saved_storage]
      refine storageSet_saved hk hnv _ ?_ i
      intro hrem j hj
      rw [← SetRequest.asksDeletion_plain htb rfl] at hrem
      exact SetRequest.volatile_of_not_drops hdrops hnv
        (SetRequest.class_of_not_secureBoot hname hsb) hrem hj
  | authenticated _ _ hl =>
      rw [Machine.saved_storage]
      cases hl with
      | pk _ hp => exact absurd hst.symm (hp.wrong_of_volatile hnv)
      | kek _ hp => exact absurd hst.symm (hp.wrong_of_volatile hnv)
      | db _ hp _ => exact absurd hst.symm (hp.wrong_of_volatile hnv)
      | dbRetry _ _ _ hkek => exact absurd hst.symm (hkek.wrong_of_volatile hnv)
      | other hc hv => exact hv.saved hk hc hnv hdrops hst.symm i

/-! ## Runs -/

/-- The saved copy is what it was, or was made behind the request. -/
theorem handleSetVariable_persistent {m' : Machine} {status : EfiStatus}
    (h : handleSetVariable ssl m req = some (status, m')) :
    m'.persistent = if status == .success && req.attrs.nonVolatile then
      nonVolatileVariables m'.storage else m.persistent := by
  have hsaved : ∀ (m₁ : Machine) (st : EfiStatus), m₁.persistent = m.persistent →
      (m₁.saved st req.attrs).persistent = if st == .success && req.attrs.nonVolatile then
        nonVolatileVariables (m₁.saved st req.attrs).storage else m.persistent := by
    intro m₁ st hm₁
    rw [Machine.saved_storage, Machine.saved]
    split
    · rfl
    · exact hm₁
  cases handleSetVariable_cases h with
  | refused hr =>
      rw [beq_eq_false_iff_ne.mpr (refusal_ne_success hr), Bool.false_and]
      rfl
  | plain => exact hsaved _ _ rfl
  | authenticated _ _ hl => exact hsaved _ _ hl.persistent

end

/-- The saved copy holds the non-volatile variables of the store, and nothing else. -/
def Machine.InStep (m : Machine) : Prop :=
  ∀ x, x ∈ m.persistent ↔ x ∈ nonVolatileVariables m.storage

section
variable {P X : Type}

/-- One request with a NUL-free name that drops no non-volatile variable and comes to no exit
behind a write. -/
structure SavingStep (m : Machine) (r : Request P X) (m' : Machine) : Prop where
  step : Step m r m'
  name : NulFree r.set.name
  keeps : ¬ r.set.Drops m.storage
  clean : ¬ LeavesTrace r.ssl m r.set

theorem SavingStep.inStep {m m' : Machine} {r : Request P X} (h : SavingStep m r m')
    (hm : m.InStep) : m'.InStep := by
  obtain ⟨status, hstep⟩ := h.step
  have hpers := handleSetVariable_persistent hstep
  by_cases hok : status = .success
  · subst hok
    cases hnv : r.set.attrs.nonVolatile with
    | true =>
        rw [hnv] at hpers
        intro x
        rw [hpers.trans (if_pos rfl)]
    | false =>
        rw [hnv, Bool.and_false] at hpers
        intro x
        rw [hpers.trans (if_neg Bool.false_ne_true), nonVolatileVariables_congr
          (handleSetVariable_volatile h.name hnv h.keeps hstep)]
        exact hm x
  · rw [beq_eq_false_iff_ne.mpr hok, Bool.false_and] at hpers
    intro x
    rw [hpers.trans (if_neg Bool.false_ne_true),
      (handleSetVariable_clean h.name h.clean status m' hstep hok).1]
    exact hm x

/-- Where the saved copy and the store agree at first, they agree after every request of a run
of such requests. -/
theorem persistent_eq_stored {m m' : Machine} {rs : List (Request P X)} (hm : m.InStep)
    (hrun : Run SavingStep m rs m') :
    ∀ x, x ∈ m'.persistent ↔ x ∈ nonVolatileVariables m'.storage :=
  hrun.invariant (I := Machine.InStep) (fun _ _ _ h => h.inStep) hm

end

/-- The request to set `A` as a non-volatile variable. -/
def setNonVolatileA : Request Unit Unit :=
  let r := volatileRequest (wide ['A']) [1] (by decide)
  { r with set := { r.set with attrs := EFI_VARIABLE_NON_VOLATILE ||| RT_BS_ATTRS } }

theorem freshMachine_inStep : freshMachine.InStep := by
  have hnone : nonVolatileVariables freshMachine.storage = [] := by decide +kernel
  intro x
  rw [hnone]
  exact Iff.rfl

theorem persistent_eq_stored_A : ∃ m', Run SavingStep freshMachine [setNonVolatileA] m' ∧
    m'.persistent.length = 1 ∧ ∀ x, x ∈ m'.persistent ↔ x ∈ nonVolatileVariables m'.storage := by
  have hrun : (handleSetVariable setNonVolatileA.ssl freshMachine setNonVolatileA.set).map
      (fun r => r.2.persistent.length) = some 1 := by
    decide +kernel
  obtain ⟨⟨status, m'⟩, hm', hlen⟩ := Option.map_eq_some_iff.mp hrun
  have hplain : setNonVolatileA.set.attrs.timeBased = false := by decide +kernel
  have hstep : SavingStep freshMachine setNonVolatileA m' := by
    refine ⟨⟨status, hm'⟩, by decide +kernel, by decide +kernel, ?_⟩
    intro htrace
    rw [htrace.timeBased] at hplain
    cases hplain
  have hrun := Run.cons hstep (.nil m')
  exact ⟨m', hrun, hlen, persistent_eq_stored freshMachine_inStep hrun⟩

/-- `A` is stored as a non-volatile variable and deleted by a request with the volatile
attributes: both are answered with success, and `A` is still in the saved copy. -/
theorem deleted_stays_saved : ∃ m₁ m₂, freshMachine.InStep ∧
    handleSetVariable setNonVolatileA.ssl freshMachine setNonVolatileA.set =
      some (.success, m₁) ∧
    handleSetVariable (fun _ => OpenSsl.accepting) m₁
      (volatileRequest (wide ['A']) [] (by decide)).set = some (.success, m₂) ∧
    nonVolatileVariables m₂.storage = [] ∧ m₂.persistent.length = 1 := by
  have hrun : ((handleSetVariable setNonVolatileA.ssl freshMachine setNonVolatileA.set).bind
      (fun r => (handleSetVariable (fun _ => OpenSsl.accepting) r.2
        (volatileRequest (wide ['A']) [] (by decide)).set).map (fun r' =>
          (r.1, r'.1, nonVolatileVariables r'.2.storage, r'.2.persistent.length)))) =
      some (.success, .success, [], 1) := by
    decide +kernel
  obtain ⟨⟨_, m₁⟩, h₁, hrun⟩ := Option.bind_eq_some_iff.mp hrun
  obtain ⟨⟨_, m₂⟩, h₂, hr⟩ := Option.map_eq_some_iff.mp hrun
  simp only [Prod.mk.injEq] at hr
  obtain ⟨rfl, rfl, hnone, hlen⟩ := hr
  exact ⟨m₁, m₂, freshMachine_inStep, h₁, h₂, hnone, hlen⟩

end Uefistored
