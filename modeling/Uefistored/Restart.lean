/-
# `Uefistored.Restart` — what a save and a load keep of an authenticated variable

The time stamp and the signer's digest of a variable are what later requests
for it are judged by.  On the way through a save file they pass from the slot to
`variable_copy`, the byte format, the decoded array and
`storage_set_with_timestamp`.

The byte format keeps them (`Uefistored.Serializer`).  `variable_copy` does not
copy them, though: what is saved has neither, and so has every slot of a store
that was loaded (`xapiInit_unsigned`), for every store and either kind of save.
`reload_keeps_iff` says for which variables nothing is lost by that.
-/
import Uefistored.Private
import Uefistored.Xapi

namespace Uefistored

open Lib

/-- Neither a time stamp nor a signer. -/
structure Variable.Unsigned (v : Variable) : Prop where
  timestamp : v.timestamp = EfiTime.zero
  cert : v.cert = Block.zero _

theorem Variable.unsigned_zero : Variable.zero.Unsigned := ⟨rfl, rfl⟩

/-! ## Saving -/

/-- An entry of the array that is saved. -/
structure Variable.Copied (v : Variable) : Prop where
  unsigned : v.Unsigned
  fits : v.datasz ≤ MAX_VARIABLE_DATA_SIZE

theorem Variable.copied_zero : Variable.zero.Copied := ⟨unsigned_zero, Nat.zero_le _⟩

/-- `variable_copy` leaves time stamp and cert of the target, also where it fails. -/
theorem variableCopy_copied (below : UInt16) {dst : Variable} (src : Variable) (h : dst.Copied) :
    (variableCopy below dst src).2.Copied := by
  have hts := h.unsigned.timestamp
  have hcert := h.unsigned.cert
  rcases variableCopy_cases below dst src with heq | heq | ⟨hmax, heq⟩
  · rw [heq]
    exact h
  · rw [heq]
    exact ⟨⟨hts, hcert⟩, h.fits⟩
  · rw [heq]
    exact ⟨⟨hts, hcert⟩, hmax⟩

theorem iterSlots_copied (below : UInt16) (s : Storage) {var : Variable} (h : var.Copied) :
    ∀ l : List (Fin MAX_VAR_COUNT), (iterSlots below s var l).2.2.Copied
  | [] => h
  | i :: rest => by
      unfold iterSlots
      split
      · exact variableCopy_copied below (s.vars i) h
      · exact iterSlots_copied below s h rest

theorem storageIter_copied (below : UInt16) (s : Storage) (index : Nat) {var : Variable}
    (h : var.Copied) : (storageIter below s index var).2.2.Copied := by
  have hcopied := iterSlots_copied below s h ((List.finRange MAX_VAR_COUNT).drop index)
  unfold storageIter
  dsimp only
  split
  · exact hcopied
  · split
    · exact hcopied
    · exact hcopied

theorem retrieveNonvolatileVars_copied {f : Fronts} {s : Storage} {n : Nat} :
    ∀ (fuel index : Nat) (tmp : Variable) (vars : List Variable) (out : Retrieved), tmp.Copied →
      (∀ v ∈ vars, v.Copied) → retrieveNonvolatileVars f s n fuel index tmp vars = some out →
      ∀ v ∈ out.vars, v.Copied
  | 0, _, _, _, _, _, _, h => nomatch h
  | fuel + 1, index, tmp, vars, out, htmp, hvars, h => by
      unfold retrieveNonvolatileVars at h
      split at h
      · cases h
        exact hvars
      · have hiter := storageIter_copied (f.tmp index) s index htmp
        split at h
        · rename_i index' tmp' heq
          rw [heq] at hiter
          split at h
          · exact retrieveNonvolatileVars_copied fuel index' _ _ out Variable.copied_zero
              (List.forall_mem_append.mpr ⟨hvars, List.forall_mem_singleton.mpr
                (variableCopy_copied _ tmp' Variable.copied_zero)⟩) h
          · exact retrieveNonvolatileVars_copied fuel index' tmp' vars out hiter hvars h
        · cases h
          exact hvars

theorem retrieveVars_copied {f : Fronts} {s : Storage} {n : Nat} :
    ∀ (fuel index : Nat) (vars : List Variable) (out : Retrieved), (∀ v ∈ vars, v.Copied) →
      retrieveVars f s n fuel index vars = some out → ∀ v ∈ out.vars, v.Copied
  | 0, _, _, _, _, h => nomatch h
  | fuel + 1, index, vars, out, hvars, h => by
      unfold retrieveVars at h
      split at h
      · cases h
        exact hvars
      · have hiter := storageIter_copied (f.next vars) s index Variable.copied_zero
        split at h
        · rename_i index' next heq
          rw [heq] at hiter
          exact retrieveVars_copied fuel index' _ out
            (List.forall_mem_append.mpr ⟨hvars, List.forall_mem_singleton.mpr hiter⟩) h
        · rename_i index' next heq
          rw [heq] at hiter
          cases h
          intro v hv
          rcases List.mem_append.mp (List.mem_of_mem_take hv) with hv | hv
          · exact hvars v hv
          · rcases List.mem_cons.mp hv with rfl | hv
            · exact hiter
            · rw [List.eq_of_mem_replicate hv]
              exact Variable.copied_zero
        · cases h
          exact hvars

theorem retrieve_copied {f : Fronts} {s : Storage} {nonvolatile : Bool} {vars : List Variable}
    (h : retrieve f s nonvolatile = some vars) : ∀ v ∈ vars, v.Copied := by
  have hnil : ∀ v ∈ ([] : List Variable), v.Copied := fun _ hv => nomatch hv
  unfold retrieve at h
  obtain ⟨out, hwalk, rfl⟩ := Option.map_eq_some_iff.mp h
  unfold walk at hwalk
  split at hwalk
  · exact retrieveNonvolatileVars_copied _ _ _ _ _ Variable.copied_zero hnil hwalk
  · exact retrieveVars_copied _ _ _ _ hnil hwalk

/-! ## Reading the bytes -/

/-- What is read from the bytes of an unsigned variable is unsigned. -/
theorem unserializeVarCached_unsigned {v w : Variable} {bytes rest rest' : List UInt8}
    {below : UInt16} (hv : v.Copied) (hd : v.data ≠ []) (hser : serializeVar v = some bytes)
    (h : (unserializeVarCached below).read (bytes ++ rest) = some (.ok (w, rest'))) :
    w.Unsigned ∧ rest' = rest := by
  by_cases h0 : v.namesz = 0
  · -- a size of zero is refused
    obtain ⟨name, hname, hbytes⟩ := Option.bind_eq_some_iff.mp hser
    unfold serializeName at hname
    rw [if_pos (by rw [h0]; exact Nat.zero_le _), h0] at hname
    cases hname
    cases hbytes
    have hnum : Reads (Reader.num 8 : Reader Int _) (leBytes 8 0) 0 := Reads.num (by decide)
    unfold unserializeVarCached at h
    rw [List.append_assoc, List.append_assoc, hnum.read_bind, if_pos (.inl rfl)] at h
    cases h
  · rw [reads_serializeVar below hser h0 hd hv.fits rest] at h
    cases h
    exact ⟨⟨hv.unsigned.timestamp, hv.unsigned.cert⟩, rfl⟩

/-- However many entries the loop wrote, reading gives up or runs out behind them. -/
theorem times_unsigned {sz : Nat} {q : Nat → UInt16} : ∀ {vars : List Variable}
    {i sum ret : Nat} {bytes : List UInt8}, (∀ v ∈ vars, v.Copied) →
    serializeVars sz i sum vars = some (ret, bytes) → ∀ {j n : Nat} {out : List Variable}
    {rest : List UInt8}, (Reader.times (fun i => unserializeVarCached (q i)) j n).read bytes =
      some (.ok (out, rest)) → ∀ w ∈ out, w.Unsigned := by
  intro vars
  have hnil : ∀ {j n : Nat} {out : List Variable} {rest : List UInt8},
      (Reader.times (fun i => unserializeVarCached (q i)) j n).read [] =
        some (.ok (out, rest)) → ∀ w ∈ out, w.Unsigned := by
    intro j n out rest h
    cases n with
    | zero =>
        cases h
        exact fun _ hw => nomatch hw
    | succ n => cases h
  induction vars with
  | nil =>
      intro i sum ret bytes _ hser
      cases hser
      exact hnil
  | cons v vars ih =>
      intro i sum ret bytes hvars hser j n out rest h
      unfold serializeVars at hser
      dsimp only at hser
      split at hser
      · cases hser
        exact hnil h
      split at hser
      · cases hser
        exact hnil h
      rename_i hd
      obtain ⟨b, hb, hser⟩ := Option.bind_eq_some_iff.mp hser
      obtain ⟨⟨ret', bs⟩, hbs, hser⟩ := Option.bind_eq_some_iff.mp hser
      cases hser
      cases n with
      | zero =>
          cases h
          exact fun _ hw => nomatch hw
      | succ n =>
          obtain ⟨w, l, hw, h⟩ := Reader.read_bind_ok h
          obtain ⟨ws, l', hws, h⟩ := Reader.read_bind_ok h
          cases h
          obtain ⟨hunsigned, rfl⟩ :=
            unserializeVarCached_unsigned (hvars v List.mem_cons_self) hd hb hw
          intro w' hw'
          rcases List.mem_cons.mp hw' with rfl | hw'
          · exact hunsigned
          · exact ih (fun x hx => hvars x (List.mem_cons_of_mem _ hx)) hbs hws w' hw'

/-- The entries behind the header are read with the loop. -/
theorem unserializeVars_header {vars : List Variable} {front : UInt16} {n : Nat}
    {body rest : List UInt8} {out : List Variable}
    (h : (unserializeVars front n).read (serializeVariableListHeader vars ++ body) =
      some (.ok (out, rest))) :
    ∃ count, (Reader.times (fun i => unserializeVarCached (if i = 0 then front else 0)) 0
      count).read body = some (.ok (out, rest)) := by
  unfold unserializeVars serializeVariableListHeader at h
  simp only [List.append_assoc] at h
  have hmagic : VARS.length = 4 := rfl
  rw [(Reads.num_bytes hmagic).read_bind,
    (Reads.num_bytes (length_leBytes 4 1)).read_bind,
    (Reads.num_bytes (length_leBytes 8 vars.length)).read_bind,
    (Reads.num_bytes (length_leBytes 8 (payloadSize vars))).read_bind] at h
  split at h
  · cases h
  · exact ⟨_, h⟩

theorem fromBytesToVars_unsigned {f : Fronts} {s : Storage} {nonvolatile : Bool}
    {bytes : List UInt8} {front : UInt16} {n : Nat} {out : List Variable}
    (hsave : variableListBytes f s nonvolatile = some bytes)
    (h : fromBytesToVars front n bytes = some (.ok out)) : ∀ w ∈ out, w.Unsigned := by
  unfold variableListBytes at hsave
  obtain ⟨vars, hvars, hsave⟩ := Option.bind_eq_some_iff.mp hsave
  split at hsave
  · cases hsave
  obtain ⟨⟨ret, b⟩, hser, hsave⟩ := Option.bind_eq_some_iff.mp hsave
  dsimp only at hsave
  split at hsave
  · cases hsave
    unfold serializeVariableList at hser
    obtain ⟨⟨ret', body⟩, hbody, hser⟩ := Option.bind_eq_some_iff.mp hser
    cases hser
    obtain ⟨count, hread⟩ := unserializeVars_header (fromBytesToVars_ok_iff.mp h).1
    exact times_unsigned (retrieve_copied hvars) hbody hread
  · cases hsave

/-! ## Storing again -/

def Storage.Unsigned (s : Storage) : Prop := ∀ i, (s.vars i).Unsigned

theorem Storage.Unsigned.update {s : Storage} (h : s.Unsigned) (i : Fin MAX_VAR_COUNT)
    {v : Variable} (hv : v.Unsigned) (j : Fin MAX_VAR_COUNT) :
    (Function.update s.vars i v j).Unsigned :=
  Slots.forall_update (Q := fun _ (v : Variable) => v.Unsigned) h hv j

/-- `storage_set` writes neither field of a slot. -/
theorem storageSet_unsigned {s : Storage} (h : s.Unsigned) (k : Key)
    (data : Option (List UInt8)) (attrs : Attrs) : (storageSet s k data attrs).2.Unsigned := by
  have hc := storageSet_cases s k data attrs
  generalize storageSet s k data attrs = r at hc
  obtain ⟨st, s'⟩ := r
  intro j
  cases hc with
  | refused => exact h j
  | @removed i =>
      show (Function.update s.vars i Variable.zero j).Unsigned
      exact h.update i Variable.unsigned_zero j
  | @replaced i =>
      show (Function.update s.vars i _ j).Unsigned
      refine h.update i ?_ j
      exact ⟨(h i).timestamp, (h i).cert⟩
  | @renamed i =>
      show (Function.update s.vars i _ j).Unsigned
      refine h.update i ?_ j
      exact ⟨(h i).timestamp, (h i).cert⟩
  | @created i =>
      show (Function.update s.vars i _ j).Unsigned
      refine h.update i ?_ j
      exact ⟨(h i).timestamp, (h i).cert⟩

theorem restoreVariable_unsigned {s : Storage} (h : s.Unsigned) {v : Variable}
    (hv : v.Unsigned) : (restoreVariable s v).2.Unsigned := by
  have hset := storageSet_unsigned h v.key (some v.data) v.attrs
  unfold restoreVariable
  split
  · rcases storageSetWithTimestamp_cases s v.key v.data v.attrs v.timestamp with
      ⟨_, heq⟩ | ⟨_, ⟨_, heq⟩ | ⟨i, _, heq⟩⟩
    · rw [heq]
      exact hset
    · rw [heq]
      exact hset
    · intro j
      rw [heq, Storage.setSlot_vars]
      refine hset.update i ?_ j
      exact ⟨hv.timestamp, (hset i).cert⟩
  · exact hset

theorem restoreVariables_unsigned : ∀ {vars : List Variable} {s s' : Storage}, s.Unsigned →
    (∀ v ∈ vars, v.Unsigned) → restoreVariables s vars = some s' → s'.Unsigned
  | [], _, _, h, _, hs => by
      cases hs
      exact h
  | v :: vars, s, s', h, hvars, hs => by
      have hstep := restoreVariable_unsigned h (hvars v List.mem_cons_self)
      unfold restoreVariables at hs
      split at hs
      · rename_i s₁ heq
        rw [heq] at hstep
        exact restoreVariables_unsigned hstep (fun w hw => hvars w (List.mem_cons_of_mem _ hw)) hs
      · cases hs

/-- No slot of a store that was saved and loaded has a time stamp or a signer. -/
theorem xapiInit_unsigned {f : Fronts} {s s₀ s' : Storage} {nonvolatile : Bool}
    {bytes : List UInt8} {front : UInt16} {ret : Int} (h₀ : s₀.Unsigned)
    (hsave : variableListBytes f s nonvolatile = some bytes)
    (hload : xapiInit front s₀ bytes = some (ret, s')) : s'.Unsigned := by
  unfold xapiInit at hload
  obtain ⟨r, hr, hload⟩ := Option.bind_eq_some_iff.mp hload
  cases r with
  | error e =>
      cases hload
      exact h₀
  | ok vars =>
      obtain ⟨s₁, hs₁, hload⟩ := Option.bind_eq_some_iff.mp hload
      cases hload
      exact restoreVariables_unsigned h₀ (fromBytesToVars_unsigned hsave hr) hs₁

/-! ## What is judged by them -/

section
variable {P X : Type}

/-- Time stamp and signer of the variable `v` under `k` are still those of `v'`, so that every
descriptor gets the same verdict, and every signature the same answer. -/
structure KeepsAuth (P X : Type) (s s' : Storage) (k : Key) (v v' : Variable) : Prop where
  timestamp : v'.timestamp = v.timestamp
  cert : v'.cert = v.cert
  checked : ∀ (data : Buffer) (size : Nat) (attrs : Attrs),
    checkDescriptor k data size attrs (some v'.timestamp) =
      checkDescriptor k data size attrs (some v.timestamp)
  verified : ∀ (ssl : OpenSsl P X) (auth : Buffer) (msg : List UInt8),
    verifyPriv ssl s' k auth msg = verifyPriv ssl s k auth msg

/-- `verify_priv` looks at the cert of the variable and at nothing else in the store. -/
theorem verifyPriv_congr {s s' : Storage} {k : Key} {v v' : Variable}
    (hv : storageFindVariable s k = some v) (hv' : storageFindVariable s' k = some v')
    (hcert : v'.cert = v.cert) (ssl : OpenSsl P X) (auth : Buffer) (msg : List UInt8) :
    verifyPriv ssl s' k auth msg = verifyPriv ssl s k auth msg := by
  unfold verifyPriv
  simp only [hv, hv', Option.any_some, hcert]

/-- A save, with or without the filter, and a load into an empty store keep what a variable is
judged by exactly when it has no time stamp and no signer. -/
theorem reload_keeps_iff {f : Fronts} {s s' : Storage} {nonvolatile : Bool}
    {bytes : List UInt8} {front u : UInt16} {k : Key} {v v' : Variable}
    (hsave : variableListBytes f s nonvolatile = some bytes)
    (hload : xapiInit front (.empty u) bytes = some (0, s'))
    (hv : storageFindVariable s k = some v) (hv' : storageFindVariable s' k = some v') :
    KeepsAuth P X s s' k v v' ↔ v.timestamp = EfiTime.zero ∧ v.cert = Block.zero _ := by
  have hempty : (Storage.empty u).Unsigned := fun _ => Variable.unsigned_zero
  have hunsigned : v'.Unsigned := by
    obtain ⟨i, _, rfl⟩ := Option.map_eq_some_iff.mp hv'
    exact xapiInit_unsigned hempty hsave hload i
  constructor
  · intro hkeeps
    exact ⟨hkeeps.timestamp.symm.trans hunsigned.timestamp,
      hkeeps.cert.symm.trans hunsigned.cert⟩
  · rintro ⟨hts, hcert⟩
    have hts' : v'.timestamp = v.timestamp := hunsigned.timestamp.trans hts.symm
    have hcert' : v'.cert = v.cert := hunsigned.cert.trans hcert.symm
    refine ⟨hts', hcert', ?_, verifyPriv_congr hv hv' hcert'⟩
    intro data size attrs
    rw [hts']

end

/-- Every signature is good, and the digest of its signer is `digest`. -/
def OpenSsl.signing (digest : Digest) : OpenSsl Unit Unit :=
  { OpenSsl.accepting with sha256 := fun _ => some digest }

/-- A save of everything keeps `"A"`, which was signed at no time by nobody. -/
theorem reload_keeps_unsigned : ∃ m bytes s' v v',
    handleAll freshMachine [requestA (.signing (Block.zero _)) 0 [1] (by decide)] = some m ∧
    variableListBytes .zero m.storage false = some bytes ∧
    xapiInit 0 (.empty 0) bytes = some (0, s') ∧
    storageFindVariable m.storage keyA = some v ∧ storageFindVariable s' keyA = some v' ∧
    KeepsAuth Unit Unit m.storage s' keyA v v' := by
  have hall : (handleAll freshMachine
      [requestA (.signing (Block.zero _)) 0 [1] (by decide)]).bind (fun m =>
        (variableListBytes .zero m.storage false).bind (fun bytes =>
          (xapiInit 0 (.empty 0) bytes).bind (fun r =>
            (storageFindVariable m.storage keyA).bind (fun v =>
              (storageFindVariable r.2 keyA).map (fun _ =>
                (r.1, decide (v.timestamp = EfiTime.zero ∧ v.cert = Block.zero _))))))) =
      some (0, true) := by
    decide +kernel
  obtain ⟨m, hm, hall⟩ := Option.bind_eq_some_iff.mp hall
  obtain ⟨bytes, hbytes, hall⟩ := Option.bind_eq_some_iff.mp hall
  obtain ⟨⟨ret, s'⟩, hs', hall⟩ := Option.bind_eq_some_iff.mp hall
  obtain ⟨v, hv, hall⟩ := Option.bind_eq_some_iff.mp hall
  obtain ⟨v', hv', hall⟩ := Option.map_eq_some_iff.mp hall
  obtain ⟨rfl, hzero⟩ := Prod.mk.inj hall
  exact ⟨m, bytes, s', v, v', hm, hbytes, hs', hv, hv',
    (reload_keeps_iff hbytes hs' hv hv').mpr (of_decide_eq_true hzero)⟩

/-- `"A"` with an owner, saved and loaded: the owner's next update is refused, and was
accepted before. -/
theorem reload_locks_owner_out : ∃ m bytes s' v v',
    Run NamedStep freshMachine [requestA (.signing (Block.ofList _ [1])) 2021 [1] (by decide)] m ∧
    variableListBytes .zero m.storage true = some bytes ∧
    xapiInit 0 (.empty 0) bytes = some (0, s') ∧
    storageFindVariable m.storage keyA = some v ∧ storageFindVariable s' keyA = some v' ∧
    v'.attrs.timeBased = true ∧ v'.timestamp ≠ v.timestamp ∧ v'.cert ≠ v.cert ∧
    (handleSetVariable (fun _ => .signing (Block.ofList _ [1])) m
      (requestA .accepting 2022 [2] (by decide)).set).map Prod.fst = some .success ∧
    (handleSetVariable (fun _ => .signing (Block.ofList _ [1])) { m with storage := s' }
      (requestA .accepting 2022 [2] (by decide)).set).map Prod.fst =
        some .securityViolation := by
  have hall : (handleAll freshMachine
      [requestA (.signing (Block.ofList _ [1])) 2021 [1] (by decide)]).bind (fun m =>
        (variableListBytes .zero m.storage true).bind (fun bytes =>
          (xapiInit 0 (.empty 0) bytes).bind (fun r =>
            (storageFindVariable m.storage keyA).bind (fun v =>
              (storageFindVariable r.2 keyA).map (fun v' =>
                (r.1, decide (v'.attrs.timeBased = true ∧ v'.timestamp ≠ v.timestamp ∧
                  v'.cert ≠ v.cert),
                (handleSetVariable (fun _ => .signing (Block.ofList _ [1])) m
                  (requestA .accepting 2022 [2] (by decide)).set).map Prod.fst,
                (handleSetVariable (fun _ => .signing (Block.ofList _ [1]))
                  { m with storage := r.2 }
                  (requestA .accepting 2022 [2] (by decide)).set).map Prod.fst)))))) =
      some (0, true, some .success, some .securityViolation) := by
    decide +kernel
  obtain ⟨m, hm, hall⟩ := Option.bind_eq_some_iff.mp hall
  obtain ⟨bytes, hbytes, hall⟩ := Option.bind_eq_some_iff.mp hall
  obtain ⟨⟨ret, s'⟩, hs', hall⟩ := Option.bind_eq_some_iff.mp hall
  obtain ⟨v, hv, hall⟩ := Option.bind_eq_some_iff.mp hall
  obtain ⟨v', hv', hall⟩ := Option.map_eq_some_iff.mp hall
  simp only [Prod.mk.injEq, decide_eq_true_eq] at hall
  obtain ⟨rfl, ⟨htb, hts, hcert⟩, hbefore, hafter⟩ := hall
  have hA : NulFree (wide ['A']) := by decide
  have hrun : Run NamedStep freshMachine
      [requestA (.signing (Block.ofList _ [1])) 2021 [1] (by decide)] m :=
    (run_iff_handleAll.mpr hm).restrict (C := fun r => NulFree r.set.name) (by
      intro r hr
      rw [List.mem_singleton] at hr
      rw [hr]
      exact hA) |>.mono (fun _ _ _ h => ⟨h.1, h.2⟩)
  exact ⟨m, bytes, s', v, v', hrun, hbytes, hs', hv, hv', htb, hts, hcert, hbefore, hafter⟩

end Uefistored
