/-
# `Uefistored.Retry` — when `auth_lib_process_variable` comes back

For PK, KEK and private variables there is one attempt, and what it reads is said
in `Uefistored.Attempt`.  For db, dbx and dbt there are two.  The second one reads
the store and the request as the first has left them, and those are not in the
hands of the guest alone: `Leftover` says, in terms of the store and the request
in front of both, which lists the second attempt filters against and what is left
of the request.

    the second attempt                           (`retry_isSome_iff`)
    nothing is left behind a success             (`no_leftover`)
    `auth_lib_process_variable` as a whole       (`authLibProcessVariable_isSome_iff`)
    `handle_set_variable`                        (`handleSetVariable_isSome_iff`)
-/
import Uefistored.Attempt

namespace Uefistored

open Lib SigList

section
variable {P X : Type}

/-! ## The second attempt -/

/-- The signer cannot be digested. -/
def Undigested (ssl : OpenSsl P X) (b : Buffer) : Prop :=
  ∃ status, sha256FromAuth ssl b = some (.error status)

/-- What the attempt with PK leaves for the attempt with KEK, where it has not succeeded: the
lists that the payload is filtered against, and the request.  A request that is no append and was
written is refused for its time stamp, and leaves nothing. -/
inductive Leftover (ssl : Phase → OpenSsl P X) (s : Storage) (k : Key) (b : Buffer) (n : Nat)
    (attrs : Attrs) : Option (List UInt8) → Buffer → Prop
  /-- PK does not accept the request. -/
  | refused : (∀ off size msg time,
        ¬ Accepted (ssl .verify) s k b n attrs .pk off size msg time) →
      Leftover ssl s k b n attrs (filteredAgainst s k attrs) b
  /-- The store does not keep the payload. -/
  | notKept {off size : Nat} {msg payload : List UInt8} {time : EfiTime} :
      Accepted (ssl .verify) s k b n attrs .pk off size msg time →
      filteredAgainst s k attrs = none → b.slice off size = some payload →
      ¬ s.Keeps k payload attrs → Leftover ssl s k b n attrs none b
  /-- The payload is appended as it came; for KEK and the databases the variable is then there. -/
  | appended {off size : Nat} {msg payload : List UInt8} {time : EfiTime} :
      Accepted (ssl .verify) s k b n attrs .pk off size msg time → attrs.append = true →
      filteredAgainst s k attrs = none → b.slice off size = some payload → payload ≠ [] →
      s.Keeps k payload attrs → Undigested (ssl .digest) b →
      Leftover ssl s k b n attrs (if k ∈ sigListKeys then some payload else none) b
  /-- What is new in the payload is appended. -/
  | filtered {off size : Nat} {msg old d : List UInt8} {time : EfiTime} {b' : Buffer}
      {i : Fin MAX_VAR_COUNT} :
      Accepted (ssl .verify) s k b n attrs .pk off size msg time →
      filteredAgainst s k attrs = some old → offered s k b off size attrs = some (d, b') →
      s.findSlot k = some i → Undigested (ssl .digest) b' →
      Leftover ssl s k b n attrs (some (appendedData s i k d attrs)) b'

section
variable {ssl : OpenSsl P X} {s s' : Storage} {k : Key} {b : Buffer} {n : Nat} {attrs : Attrs}
  {kind : AuthVarType} {org org' : Option EfiTime} {old : Option (List UInt8)}

theorem AttemptInside.of_front (h : FrontRefused b attrs org) :
    AttemptInside ssl s k b n attrs kind org old :=
  ⟨⟨.inl h, fun _ _ _ hp => absurd h hp.front⟩, fun _ _ _ _ hp => absurd h hp.front⟩

/-- The stored time stamp has no part in an append. -/
theorem frontRefused_append (happ : attrs.append = true) :
    FrontRefused b attrs org ↔ FrontRefused b attrs org' := by
  unfold FrontRefused
  simp only [happ, Bool.not_true, Bool.and_false, Bool.false_eq_true, false_or]

/-- A request that is not stale is not refused where nothing is stored. -/
theorem frontRefused_none (h : ¬ FrontRefused b attrs org) : ¬ FrontRefused b attrs none := by
  rintro ⟨stamp, hstamp, hform | hstale | hcert⟩
  · exact h ⟨stamp, hstamp, .inl hform⟩
  · cases hstale
  · exact h ⟨stamp, hstamp, .inr (.inr hcert)⟩

theorem descriptorPasses_congr (hfront : FrontRefused b attrs org' ↔ FrontRefused b attrs org)
    {sig : Nat} {stamp payload : List UInt8} : DescriptorPasses k b n attrs org' sig stamp payload ↔
      DescriptorPasses k b n attrs org sig stamp payload :=
  ⟨fun h => ⟨h.toSignatureInside, mt hfront.mpr h.front, h.certificate, h.digest, h.message,
      h.stamp_eq, h.payload_eq⟩,
    fun h => ⟨h.toSignatureInside, mt hfront.mp h.front, h.certificate, h.digest, h.message,
      h.stamp_eq, h.payload_eq⟩⟩

/-- The attempt with KEK depends on the store through KEK alone. -/
theorem attemptInside_congr (hkek : storageFindVariable s' kekKey = storageFindVariable s kekKey)
    (hfront : FrontRefused b attrs org' ↔ FrontRefused b attrs org) :
    AttemptInside ssl s' k b n attrs .kek org' old ↔
      AttemptInside ssl s k b n attrs .kek org old := by
  simp only [AttemptInside, VerificationInside, DescriptorInside, descriptorPasses_congr hfront,
    hfront, VerifierInside, verifyBy, verifyKek, hkek]

/-- A write under a name of the class of db leaves KEK alone. -/
theorem spares_kekKey (hclass : variableClass k = .db) : k.Spares kekKey := by
  have hguid : k.guid = gEfiImageSecurityDatabaseGuid := by
    unfold variableClass at hclass
    split at hclass
    · cases hclass
    split at hclass
    · cases hclass
    split at hclass
    · rename_i h
      rw [Bool.and_eq_true, beq_iff_eq] at h
      exact h.1
    · cases hclass
  rintro v (hfree | hit)
  · exact Variable.not_isMatch_of_isFree (secureBootKeys_clean kekKey (by decide +kernel)) hfree
  · by_contra hm
    rw [Bool.not_eq_false] at hm
    have hother := (Variable.isMatch_iff.mp hm).2.2
    rw [hit.1, hguid] at hother
    exact absurd hother (by decide +kernel)

end

section
variable {ssl : Phase → OpenSsl P X} {m : Machine} {l : List UInt8} {g : Guid} {b : Buffer}
  {n : Nat} {attrs : Attrs} {o : Outcome} {del : Bool}

theorem Accepted.unique {ssl : OpenSsl P X} {s : Storage} {k : Key} {kind kind' : AuthVarType}
    {off size off' size' : Nat} {msg msg' : List UInt8} {time time' : EfiTime}
    (h : Accepted ssl s k b n attrs kind off size msg time)
    (h' : Accepted ssl s k b n attrs kind' off' size' msg' time') :
    off' = off ∧ size' = size ∧ time' = time := by
  have heq := Except.ok.inj (Option.some.inj (h'.checked.symm.trans h.checked))
  exact ⟨(Prod.mk.inj heq).1, (Prod.mk.inj (Prod.mk.inj heq).2).1,
    Option.some.inj (h'.described.time_eq.symm.trans h.described.time_eq)⟩

/-- The attempt with PK leaves one thing. -/
theorem Leftover.unique {s : Storage} {k : Key} {old old' : Option (List UInt8)} {b₁ b₂ : Buffer}
    (h : Leftover ssl s k b n attrs old b₁) (h' : Leftover ssl s k b n attrs old' b₂) :
    old' = old ∧ b₂ = b₁ := by
  cases h with
  | refused hno =>
      cases h' with
      | refused => exact ⟨rfl, rfl⟩
      | notKept hacc => exact absurd hacc (hno _ _ _ _)
      | appended hacc => exact absurd hacc (hno _ _ _ _)
      | filtered hacc => exact absurd hacc (hno _ _ _ _)
  | notKept hacc hnone hp hkeeps =>
      cases h' with
      | refused hno => exact absurd hacc (hno _ _ _ _)
      | notKept => exact ⟨rfl, rfl⟩
      | appended hacc' _ _ hp' _ hkeeps' =>
          obtain ⟨rfl, rfl, _⟩ := hacc.unique hacc'
          cases hp.symm.trans hp'
          exact absurd hkeeps' hkeeps
      | filtered _ hold => cases hnone.symm.trans hold
  | appended hacc _ hnone hp _ hkeeps =>
      cases h' with
      | refused hno => exact absurd hacc (hno _ _ _ _)
      | notKept hacc' _ hp' hkeeps' =>
          obtain ⟨rfl, rfl, _⟩ := hacc.unique hacc'
          cases hp.symm.trans hp'
          exact absurd hkeeps hkeeps'
      | appended hacc' _ _ hp' =>
          obtain ⟨rfl, rfl, _⟩ := hacc.unique hacc'
          cases hp.symm.trans hp'
          exact ⟨rfl, rfl⟩
      | filtered _ hold => cases hnone.symm.trans hold
  | filtered hacc hold hoffer hi =>
      cases h' with
      | refused hno => exact absurd hacc (hno _ _ _ _)
      | notKept _ hnone => cases hnone.symm.trans hold
      | appended _ _ hnone => cases hnone.symm.trans hold
      | filtered hacc' _ hoffer' hi' =>
          obtain ⟨rfl, rfl, _⟩ := hacc.unique hacc'
          cases hoffer.symm.trans hoffer'
          cases hi.symm.trans hi'
          exact ⟨rfl, rfl⟩

theorem Leftover.forall_iff {s : Storage} {k : Key} {old : Option (List UInt8)} {b₁ : Buffer}
    (h : Leftover ssl s k b n attrs old b₁) {Q : Option (List UInt8) → Buffer → Prop} :
    (∀ old' b₂, Leftover ssl s k b n attrs old' b₂ → Q old' b₂) ↔ Q old b₁ := by
  constructor
  · intro hall
    exact hall _ _ h
  · intro hq old' b₂ h'
    obtain ⟨rfl, rfl⟩ := h.unique h'
    exact hq

theorem Leftover.size_eq {s : Storage} {k : Key} {old : Option (List UInt8)} {b₁ : Buffer}
    (h : Leftover ssl s k b n attrs old b₁) : b₁.size = b.size := by
  cases h with
  | refused => rfl
  | notKept => rfl
  | appended => rfl
  | filtered _ _ hoffer => exact (offered_agrees hoffer).2

theorem formatKind_of_filtered {s : Storage} (hl : l.length ≤ MAX_VARIABLE_NAME_SIZE)
    {old : List UInt8} (h : filteredAgainst s (Key.of l g) attrs = some old) :
    formatKind (Key.of l g).name (Key.of l g).guid = some false :=
  sigListKeys_formatKind _ (mem_sigListKeys_of_filtered hl h)

/-- A payload that was written as it came is what an append is filtered against, if it is one
that is filtered. -/
theorem filteredAgainst_appended {s : Storage} {payload : List UInt8} {time : EfiTime}
    (hl : l.length ≤ MAX_VARIABLE_NAME_SIZE) (happ : attrs.append = true)
    (hnone : filteredAgainst s (Key.of l g) attrs = none)
    (hok : (storageSetWithTimestamp s (Key.of l g) (some payload) attrs time).1 = .success) :
    filteredAgainst (storageSetWithTimestamp s (Key.of l g) (some payload) attrs time).2
      (Key.of l g) attrs = if Key.of l g ∈ sigListKeys then some payload else none := by
  split
  · rename_i hmem
    have hclean := secureBootKeys_clean _ (sigListKeys_secureBoot _ hmem)
    have hnew : s.findSlot (Key.of l g) = none := by
      cases hi : s.findSlot (Key.of l g) with
      | none => rfl
      | some i =>
          have hsig := isSigListVariable_of_isMatch hmem (Storage.findSlot_isMatch hi)
          cases hnone.symm.trans (filteredAgainst_eq_some_iff.mpr
            ⟨happ, s.vars i, storageFindVariable_eq hi, hsig, rfl⟩)
    generalize hr : storageSetWithTimestamp s (Key.of l g) (some payload) attrs time = r at hok ⊢
    rcases storageSetWithTimestamp_new hclean hnew happ hr with ⟨hfail, _⟩ | ⟨_, i, hi, hdata⟩
    · exact absurd hok hfail
    · exact filteredAgainst_eq_some_iff.mpr ⟨happ, _, storageFindVariable_eq hi,
        isSigListVariable_of_isMatch hmem (Storage.findSlot_isMatch hi), hdata⟩
  · rename_i hmem
    cases hold : filteredAgainst (storageSetWithTimestamp s (Key.of l g) (some payload)
      attrs time).2 (Key.of l g) attrs with
    | none => rfl
    | some old => exact absurd (mem_sigListKeys_of_filtered hl hold) hmem

/-- A stamped request that is no append is stale from then on. -/
theorem frontRefused_again {time : EfiTime} (htime : authTimeStamp b = some time)
    (happ : attrs.append = false) : FrontRefused b attrs (some time) := by
  obtain ⟨stamp, hstamp, rfl⟩ := Option.map_eq_some_iff.mp htime
  refine ⟨stamp, hstamp, .inr (.inl ?_)⟩
  rw [Option.any_some, happ]
  exact Bool.and_eq_true_iff.mpr ⟨EfiTime.notLater_refl _, rfl⟩

/-- Where the payload is not filtered, the update is the call of the store. -/
theorem update_unfiltered {s : Storage} {k : Key} {off size : Nat} {payload : List UInt8}
    {time : EfiTime} (hnone : filteredAgainst s k attrs = none)
    (hp : b.slice off size = some payload) :
    authInternalUpdateVariableWithTimestamp s k b off size attrs time =
      some ((storageSetWithTimestamp s k (some payload) attrs time).1,
        (storageSetWithTimestamp s k (some payload) attrs time).2, b) := by
  rw [authInternalUpdate_eq (Buffer.slice_le hp), offered, hnone]
  dsimp only
  rw [hp]
  rfl

/-- What is filtered is behind the stored lists from then on. -/
theorem update_filtered {s s' : Storage} {b' : Buffer} {off size : Nat} {old : List UInt8}
    {time : EfiTime} (hl : l.length ≤ MAX_VARIABLE_NAME_SIZE) (hin : off + size ≤ b.size)
    (hold : filteredAgainst s (Key.of l g) attrs = some old)
    (h : authInternalUpdateVariableWithTimestamp s (Key.of l g) b off size attrs time =
      some (.success, s', b')) :
    ∃ d i, offered s (Key.of l g) b off size attrs = some (d, b') ∧
      s.findSlot (Key.of l g) = some i ∧
      filteredAgainst s' (Key.of l g) attrs = some (appendedData s i (Key.of l g) d attrs) ∧
      s'.findSlot (Key.of l g) = some i := by
  have hmem := mem_sigListKeys_of_filtered hl hold
  obtain ⟨happ, v, hv, hsig, hdata⟩ := filteredAgainst_eq_some_iff.mp hold
  rw [authInternalUpdate_eq hin] at h
  obtain ⟨⟨d, b₁⟩, hoffer, h⟩ := Option.map_eq_some_iff.mp h
  rw [hold] at h
  by_cases hd : d = []
  · rw [if_pos ⟨rfl, hd⟩] at h
    cases h
    obtain ⟨i, hi, rfl⟩ := Option.map_eq_some_iff.mp hv
    have hsame : appendedData s i (Key.of l g) d attrs = old := by
      rw [hd, ← hdata, appendedData]
      split
      · exact List.append_nil _
      · rfl
    exact ⟨d, i, hoffer, hi, hsame ▸ hold, hi⟩
  · obtain ⟨i, hi, _, hset⟩ := filtered_success hl hold hd time
    rw [if_neg (fun hc => hd hc.2)] at h
    dsimp only at h
    rw [hset] at h
    cases h
    have hfind : (s.setSlot i { s.vars i with
        data := appendedData s i (Key.of l g) d attrs, timestamp := time }).findSlot
          (Key.of l g) = some i := Slots.first_update_self hi (Storage.findSlot_isMatch hi)
    refine ⟨d, i, hoffer, hi, ?_, hfind⟩
    refine filteredAgainst_eq_some_iff.mpr ⟨happ, _, storageFindVariable_eq hfind, ?_, ?_⟩
    · exact isSigListVariable_of_isMatch hmem (Storage.findSlot_isMatch hfind)
    · rw [Storage.setSlot_vars, Function.update_self]

/-- What a successful update that deletes nothing leaves: what is new behind the stored lists,
or the payload under the new time stamp. -/
theorem update_kept {s s' : Storage} {b' : Buffer} {off size : Nat} {time : EfiTime} (h0 : l ≠ [])
    (hl : l.length ≤ MAX_VARIABLE_NAME_SIZE) (htb : attrs.timeBased = true)
    (hin : off + size ≤ b.size)
    (h : authInternalUpdateVariableWithTimestamp s (Key.of l g) b off size attrs time =
      some (.success, s', b')) (hdel : isDel s (Key.of l g) size attrs = false) :
    (∃ old d i, filteredAgainst s (Key.of l g) attrs = some old ∧
        offered s (Key.of l g) b off size attrs = some (d, b') ∧ s.findSlot (Key.of l g) = some i ∧
        filteredAgainst s' (Key.of l g) attrs = some (appendedData s i (Key.of l g) d attrs) ∧
        s'.findSlot (Key.of l g) = some i) ∨
      filteredAgainst s (Key.of l g) attrs = none ∧ b' = b ∧ ∃ payload,
        b.slice off size = some payload ∧ payload ≠ [] ∧ s.Keeps (Key.of l g) payload attrs ∧
        s' = (storageSetWithTimestamp s (Key.of l g) (some payload) attrs time).2 := by
  have hsz := Key.of_namesz_ne_zero h0 g
  have hattrs := Attrs.ne_zero_of_timeBased htb
  cases hold : filteredAgainst s (Key.of l g) attrs with
  | some old =>
      obtain ⟨d, i, hoffer, hi, hnext, hfind⟩ := update_filtered hl hin hold h
      exact .inl ⟨old, d, i, rfl, hoffer, hi, hnext, hfind⟩
  | none =>
      obtain ⟨payload, hp⟩ := Buffer.slice_isSome hin
      rw [update_unfiltered hold hp] at h
      obtain ⟨hok, h⟩ := Prod.mk.inj (Option.some.inj h)
      obtain ⟨rfl, rfl⟩ := Prod.mk.inj h
      have hkeeps := (storageSetWithTimestamp_success_iff hsz hattrs time).mp hok
      refine .inr ⟨rfl, rfl, payload, hp, ?_, hkeeps, rfl⟩
      rintro rfl
      -- without data the success was a deletion
      rw [storageSetWithTimestamp_isDelete rfl, storageSet_nil_success_iff hattrs] at hok
      obtain ⟨i, hi⟩ := Option.isSome_iff_exists.mp hok.1
      have hlen : size = 0 := (Buffer.length_slice hp).symm
      have hfound := Option.isSome_of_eq_some (storageFindVariable_eq hi)
      rw [isDel_iff.mpr ⟨hfound, hlen, hok.2.1⟩] at hdel
      cases hdel

/-- What the store does not keep leaves the time stamp that decides as it was. -/
theorem frontRefused_notKept {s : Storage} {k : Key} {payload : List UInt8} (time : EfiTime)
    (hsz : k.namesz ≠ 0) (hattrs : attrs ≠ 0) (hkeeps : ¬ s.Keeps k payload attrs)
    (hfront : ¬ FrontRefused b attrs ((storageFindVariable s k).map (·.timestamp))) :
    FrontRefused b attrs ((storageFindVariable
        (storageSetWithTimestamp s k (some payload) attrs time).2 k).map (·.timestamp)) ↔
      FrontRefused b attrs ((storageFindVariable s k).map (·.timestamp)) := by
  cases happ : attrs.append with
  | true => exact frontRefused_append happ
  | false =>
      refine iff_of_false ?_ hfront
      rcases storageSetWithTimestamp_notKept hsz hattrs happ hkeeps time with hgone | hsame
      · rw [storageFindVariable_eq_none.mpr hgone]
        exact frontRefused_none hfront
      · rw [hsame]
        exact hfront

/-- An attempt with PK that fails has left something, and but for the lists it filters against the
attempt with KEK reads the store as it was; or it wrote and stamped the variable, and the request
is stale. -/
theorem UpdateResult.leftover (h0 : l ≠ []) (hl : l.length ≤ MAX_VARIABLE_NAME_SIZE)
    (htb : attrs.timeBased = true) (h : UpdateResult ssl m (Key.of l g) b n attrs .pk o del)
    (hfail : o.status ≠ .success) :
    (Leftover ssl m.storage (Key.of l g) b n attrs
          (filteredAgainst o.machine.storage (Key.of l g) attrs) o.data ∧
        (FrontRefused o.data attrs
            ((storageFindVariable o.machine.storage (Key.of l g)).map (·.timestamp)) ↔
          FrontRefused o.data attrs
            ((storageFindVariable m.storage (Key.of l g)).map (·.timestamp)))) ∨
      o.data = b ∧ FrontRefused b attrs
          ((storageFindVariable o.machine.storage (Key.of l g)).map (·.timestamp)) ∧
        ∀ old b', ¬ Leftover ssl m.storage (Key.of l g) b n attrs old b' := by
  have hsz := Key.of_namesz_ne_zero h0 g
  have hattrs := Attrs.ne_zero_of_timeBased htb
  cases h with
  | rejected _ hv =>
      refine .inl ⟨.refused ?_, Iff.rfl⟩
      intro off size msg time hacc
      cases hacc.eq.symm.trans hv
  | @failed off size msg time status s' b' hacc hup _ =>
      obtain ⟨hnone, hnext, rfl, payload, hp, hkeeps, rfl⟩ :=
        update_failed h0 hl htb hacc.inside hup hfail
      obtain ⟨_, _, _, hpass, _⟩ := hacc.passes
      refine .inl ⟨?_, frontRefused_notKept time hsz hattrs hkeeps hpass.front⟩
      exact hnext ▸ .notKept hacc hnone hp hkeeps
  | deleted => exact absurd rfl hfail
  | @lost off size msg time s' b' hacc hup hdel hlost =>
      rcases update_kept h0 hl htb hacc.inside hup hdel with
        ⟨_, _, i, _, _, _, _, hi⟩ | ⟨_, _, payload, _, hd, hkeeps, rfl⟩
      · cases hlost.symm.trans hi
      · obtain ⟨v, hv, _⟩ := storageSetWithTimestamp_kept hsz hattrs hd hkeeps time
        cases hv.symm.trans (storageFindVariable_eq_none.mpr hlost)
  | @undigested off size msg time s' b' j status hacc hup hdel hj hdigest =>
      rcases update_kept h0 hl htb hacc.inside hup hdel with
        ⟨old, d, i, hold, hoffer, hi, hnext, _⟩ | ⟨hnone, rfl, payload, hp, hd, hkeeps, rfl⟩
      · obtain ⟨happ, _⟩ := filteredAgainst_eq_some_iff.mp hold
        refine .inl ⟨?_, frontRefused_append happ⟩
        exact hnext ▸ .filtered hacc hold hoffer hi ⟨_, hdigest⟩
      · cases happ : attrs.append with
        | true =>
            have hok := (storageSetWithTimestamp_success_iff hsz hattrs time).mpr hkeeps
            refine .inl ⟨?_, frontRefused_append happ⟩
            exact filteredAgainst_appended hl happ hnone hok ▸
              .appended hacc happ hnone hp hd hkeeps ⟨_, hdigest⟩
        | false =>
            obtain ⟨v, hv, htime⟩ := storageSetWithTimestamp_kept hsz hattrs hd hkeeps time
            refine .inr ⟨rfl, ?_, ?_⟩
            · show FrontRefused b' attrs ((storageFindVariable
                (storageSetWithTimestamp m.storage (Key.of l g) (some payload) attrs time).2
                  _).map _)
              rw [hv, Option.map_some, htime]
              exact frontRefused_again hacc.described.time_eq happ
            · intro old b₁ hleft
              cases hleft with
              | refused hno => exact hno _ _ _ _ hacc
              | notKept hacc' _ hp' hkeeps' =>
                  obtain ⟨rfl, rfl, _⟩ := hacc.unique hacc'
                  cases hp.symm.trans hp'
                  exact hkeeps' hkeeps
              | appended _ happ' => cases happ.symm.trans happ'
              | filtered _ hold => cases hnone.symm.trans hold
  | recorded => exact absurd rfl hfail

/-- **The attempt with KEK comes back exactly if what it reads of the leftovers is there.** -/
theorem retry_isSome_iff (h0 : l ≠ []) (hl : l.length ≤ MAX_VARIABLE_NAME_SIZE)
    (hclass : variableClass (Key.of l g) = .db) (htb : attrs.timeBased = true)
    (hb : b.size < 2 ^ 63) (h : UpdateResult ssl m (Key.of l g) b n attrs .pk o del)
    (hfail : o.status ≠ .success) :
    (verifyTimeBasedPayloadAndUpdate ssl o.machine (Key.of l g) o.data n attrs .kek).isSome ↔
      ∀ old b', Leftover ssl m.storage (Key.of l g) b n attrs old b' →
        AttemptInside (ssl .verify) m.storage (Key.of l g) b' n attrs .kek
          ((storageFindVariable m.storage (Key.of l g)).map (·.timestamp)) old := by
  have hkek : storageFindVariable o.machine.storage kekKey = storageFindVariable m.storage kekKey :=
    h.effect.writes.find_eq (fun _ hk => hk ▸ spares_kekKey hclass)
  rcases h.leftover h0 hl htb hfail with ⟨hleft, hfront⟩ | ⟨hdata, hstale, hnone⟩
  · rw [attempt_isSome_iff (hleft.size_eq ▸ hb) (fun _ hold => formatKind_of_filtered hl hold),
      attemptInside_congr hkek hfront, hleft.forall_iff]
  · rw [hdata]
    refine iff_of_true ?_ (fun old b' hleft => absurd hleft (hnone old b'))
    exact (attempt_isSome_iff hb (fun _ hold => formatKind_of_filtered hl hold)).mpr
      (.of_front hstale)

end

/-! ## `auth_lib_process_variable` -/

/-- What `auth_lib_process_variable` reads is there, by the class of the variable and the mode. -/
def WriteInside (ssl : Phase → OpenSsl P X) (s : Storage) (k : Key) (b : Buffer) (n : Nat)
    (attrs : Attrs) : PlatformMode → VariableClass → Prop
  | .setup, .pk => AttemptInside (ssl .verify) s k b n attrs .payload
      ((storageFindVariable s k).map (·.timestamp)) (filteredAgainst s k attrs)
  | .setup, .kek => SetupInside (ssl .verify) s k b n attrs
  | .setup, .db => SetupInside (ssl .verify) s k b n attrs
  | .user, .db => AttemptInside (ssl .verify) s k b n attrs .pk
        ((storageFindVariable s k).map (·.timestamp)) (filteredAgainst s k attrs) ∧
      ∀ old b', Leftover ssl s k b n attrs old b' → AttemptInside (ssl .verify) s k b' n attrs .kek
        ((storageFindVariable s k).map (·.timestamp)) old
  | .user, .pk => AttemptInside (ssl .verify) s k b n attrs .pk
      ((storageFindVariable s k).map (·.timestamp)) (filteredAgainst s k attrs)
  | .user, .kek => AttemptInside (ssl .verify) s k b n attrs .pk
      ((storageFindVariable s k).map (·.timestamp)) (filteredAgainst s k attrs)
  | _, .other => attrs.has EFI_VARIABLE_AUTHENTICATED_WRITE_ACCESS = false →
      deletesByDescriptor s k b n attrs ≠ some true →
      AttemptInside (ssl .verify) s k b n attrs .priv
        ((storageFindVariable s k).map (·.timestamp)) (filteredAgainst s k attrs)

section
variable {ssl : Phase → OpenSsl P X} {m : Machine} {l : List UInt8} {g : Guid} {b : Buffer}
  {n : Nat} {attrs : Attrs} {o : Outcome} {del : Bool}

/-- An attempt that succeeds leaves nothing to a second one. -/
theorem no_leftover (h0 : l ≠ []) (htb : attrs.timeBased = true)
    (h : UpdateResult ssl m (Key.of l g) b n attrs .pk o del) (hok : o.status = .success)
    {old : Option (List UInt8)} {b' : Buffer} :
    ¬ Leftover ssl m.storage (Key.of l g) b n attrs old b' := by
  have hsz := Key.of_namesz_ne_zero h0 g
  have hattrs := Attrs.ne_zero_of_timeBased htb
  -- whatever came behind it, the payload was accepted and the update succeeded
  obtain ⟨off, size, msg, time, s', b₁, hacc, hup, hend⟩ : ∃ off size msg time s' b₁,
      Accepted (ssl .verify) m.storage (Key.of l g) b n attrs .pk off size msg time ∧
        authInternalUpdateVariableWithTimestamp m.storage (Key.of l g) b off size attrs time =
          some (.success, s', b₁) ∧
        (isDel m.storage (Key.of l g) size attrs = true ∨ ¬ Undigested (ssl .digest) b₁) := by
    cases h with
    | rejected hs => exact absurd hok hs
    | failed _ _ hs => exact absurd hok hs
    | deleted hacc hup hdel => exact ⟨_, _, _, _, _, _, hacc, hup, .inl hdel⟩
    | lost => cases hok
    | undigested _ _ _ _ hd =>
        rw [sha256FromAuth_error hd] at hok
        cases hok
    | recorded hacc hup _ _ hd =>
        refine ⟨_, _, _, _, _, _, hacc, hup, .inr ?_⟩
        rintro ⟨status, hd'⟩
        cases hd.symm.trans hd'
  intro hleft
  cases hleft with
  | refused hno => exact hno _ _ _ _ hacc
  | notKept hacc' hnone hp hkeeps =>
      obtain ⟨rfl, rfl, _⟩ := hacc.unique hacc'
      rw [update_unfiltered hnone hp] at hup
      exact hkeeps ((storageSetWithTimestamp_success_iff hsz hattrs time).mp
        (Prod.mk.inj (Option.some.inj hup)).1)
  | appended hacc' happ hnone hp hne _ hundigested =>
      obtain ⟨rfl, rfl, _⟩ := hacc.unique hacc'
      rw [update_unfiltered hnone hp] at hup
      obtain ⟨_, hup⟩ := Prod.mk.inj (Option.some.inj hup)
      obtain ⟨_, rfl⟩ := Prod.mk.inj hup
      rcases hend with hd | hd
      · cases happ.symm.trans (isDel_iff.mp hd).2.2
      · exact hd hundigested
  | filtered hacc' hold hoffer _ hundigested =>
      obtain ⟨rfl, rfl, _⟩ := hacc.unique hacc'
      obtain ⟨happ, _⟩ := filteredAgainst_eq_some_iff.mp hold
      rcases hend with hd | hd
      · cases happ.symm.trans (isDel_iff.mp hd).2.2
      · obtain ⟨d', hoffer'⟩ := offered_of_update hacc.inside hup
        cases hoffer.symm.trans hoffer'
        exact hd hundigested

end

section
variable {ssl : Phase → OpenSsl P X} {m : Machine} {k : Key} {l : List UInt8} {g : Guid}
  {b : Buffer} {n : Nat} {attrs : Attrs}

theorem formatKind_of_class (h : variableClass k = .kek ∨ variableClass k = .db) :
    formatKind k.name k.guid = some false := by
  unfold variableClass at h
  unfold formatKind
  split
  · rename_i hpk
    rw [if_pos hpk] at h
    rcases h with h | h
    · cases h
    · cases h
  · rename_i hpk
    rw [if_neg hpk] at h
    rw [if_pos]
    split at h
    · rename_i hkek
      rw [hkek]
      rfl
    · split at h
      · rename_i hdb
        rw [hdb, Bool.or_true]
      · rcases h with h | h
        · cases h
        · cases h

theorem deletesByDescriptor_isSome {s : Storage} (h20 : 20 ≤ b.size) :
    ∃ del, deletesByDescriptor s k b n attrs = some del := by
  obtain ⟨dw, hdw⟩ : ∃ dw, dwLength b = some dw := Buffer.num_isSome h20
  unfold deletesByDescriptor isDeleteAuthVariable authInfo2Size
  rw [hdw]
  split
  · split
    · split
      · exact ⟨_, rfl⟩
      · exact ⟨_, rfl⟩
    · exact ⟨_, rfl⟩
  · exact ⟨_, rfl⟩

theorem processVariable_isSome_iff (hl : l.length ≤ MAX_VARIABLE_NAME_SIZE) (hn : n ≤ b.size)
    (h20 : 20 ≤ b.size) (hb : b.size < 2 ^ 63) :
    (processVariable ssl m (Key.of l g) b n attrs).isSome ↔ (attrs.timeBased = true →
      WriteInside ssl m.storage (Key.of l g) b n attrs m.setupMode .other) := by
  obtain ⟨del, hdel⟩ : ∃ del, deletesByDescriptor m.storage (Key.of l g) b n attrs = some del :=
    deletesByDescriptor_isSome h20
  obtain ⟨payload, hp⟩ := Buffer.slice_isSome (show 0 + n ≤ b.size by omega)
  have hwrite : WriteInside ssl m.storage (Key.of l g) b n attrs m.setupMode .other ↔
      (attrs.has EFI_VARIABLE_AUTHENTICATED_WRITE_ACCESS = false →
        deletesByDescriptor m.storage (Key.of l g) b n attrs ≠ some true →
        (verifyTimeBasedPayloadAndUpdate ssl m (Key.of l g) b n attrs .priv).isSome) := by
    rw [attempt_isSome_iff hb (fun _ hold => formatKind_of_filtered hl hold)]
    cases m.setupMode with
    | user => exact Iff.rfl
    | setup => exact Iff.rfl
  rw [hwrite]
  unfold processVariable
  rw [hdel, hp, Option.bind_eq_bind, Option.bind_some]
  cases del with
  | true => exact iff_of_true rfl (fun _ _ h => absurd rfl h)
  | false =>
      rw [if_neg Bool.false_ne_true]
      cases attrs.has EFI_VARIABLE_AUTHENTICATED_WRITE_ACCESS with
      | true => exact iff_of_true rfl nofun
      | false =>
          rw [if_neg Bool.false_ne_true]
          cases attrs.timeBased with
          | false => exact iff_of_true rfl nofun
          | true =>
              rw [if_pos rfl]
              cases verifyTimeBasedPayloadAndUpdate ssl m (Key.of l g) b n attrs .priv with
              | none => exact iff_of_false nofun (fun h => nomatch h rfl rfl nofun)
              | some r => exact iff_of_true rfl (fun _ _ _ => rfl)

/-- PK in setup mode: the attempt with its own payload, and the mode behind it. -/
theorem processVarWithPk_enrolMode (hnv : attrs.nonVolatile = true) (htb : attrs.timeBased = true)
    (hmode : m.setupMode = .setup) : processVarWithPk ssl m k b n attrs true =
      (verifyTimeBasedPayloadAndUpdate ssl m k b n attrs .payload).map
        fun r => followPk r.1 r.2 := by
  unfold processVarWithPk
  rw [hnv, htb, if_neg (by decide), hmode]
  cases verifyTimeBasedPayloadAndUpdate ssl m k b n attrs .payload with
  | none => rfl
  | some r => rfl

theorem processVarWithPk_userMode {isPk : Bool} (hnv : attrs.nonVolatile = true)
    (htb : attrs.timeBased = true) (hmode : m.setupMode = .user) :
    processVarWithPk ssl m k b n attrs isPk =
      (verifyTimeBasedPayloadAndUpdate ssl m k b n attrs .pk).map
        fun r => if isPk then followPk r.1 r.2 else r.1 := by
  unfold processVarWithPk
  rw [hnv, htb, if_neg (by decide), hmode]
  cases verifyTimeBasedPayloadAndUpdate ssl m k b n attrs .pk with
  | none => rfl
  | some r => rfl

theorem processVarWithKek_userMode (hnv : attrs.nonVolatile = true) (htb : attrs.timeBased = true)
    (hmode : m.setupMode = .user) : processVarWithKek ssl m k b n attrs =
      (verifyTimeBasedPayloadAndUpdate ssl m k b n attrs .kek).map (·.1) := by
  unfold processVarWithKek
  rw [hnv, htb, if_neg (by decide), hmode]
  cases verifyTimeBasedPayloadAndUpdate ssl m k b n attrs .kek with
  | none => rfl
  | some r => rfl

theorem processVarWithPk_setupMode (hnv : attrs.nonVolatile = true) (htb : attrs.timeBased = true)
    (hmode : m.setupMode = .setup) : processVarWithPk ssl m k b n attrs false =
      updateInSetupMode (ssl .verify) m k b n attrs := by
  unfold processVarWithPk
  rw [hnv, htb, if_neg (by decide), hmode]

theorem processVarWithKek_setupMode (hnv : attrs.nonVolatile = true) (htb : attrs.timeBased = true)
    (hmode : m.setupMode = .setup) : processVarWithKek ssl m k b n attrs =
      updateInSetupMode (ssl .verify) m k b n attrs := by
  unfold processVarWithKek
  rw [hnv, htb, if_neg (by decide), hmode]

/-- The first attempt at KEK or a database. -/
theorem processVarWithPk_isSome_iff (hl : l.length ≤ MAX_VARIABLE_NAME_SIZE) (hn : n ≤ b.size)
    (hb : b.size < 2 ^ 63)
    (hclass : variableClass (Key.of l g) = .kek ∨ variableClass (Key.of l g) = .db)
    (hnv : attrs.nonVolatile = true) (htb : attrs.timeBased = true) :
    (processVarWithPk ssl m (Key.of l g) b n attrs false).isSome ↔
      WriteInside ssl m.storage (Key.of l g) b n attrs m.setupMode .kek := by
  cases hmode : m.setupMode with
  | setup =>
      rw [processVarWithPk_setupMode hnv htb hmode]
      exact updateInSetupMode_isSome_iff (formatKind_of_class hclass) hn hb
  | user =>
      rw [processVarWithPk_userMode hnv htb hmode, Option.isSome_map]
      exact attempt_isSome_iff hb (fun _ hold => formatKind_of_filtered hl hold)

/-- The secure boot variables are non-volatile and time-based. -/
theorem wrongAttrs (h : ¬ (attrs.timeBased = true ∧ attrs.nonVolatile = true)) :
    (!attrs.nonVolatile || !attrs.timeBased) = true := by
  rw [Bool.or_eq_true, Bool.not_eq_true', Bool.not_eq_true']
  by_cases hnv : attrs.nonVolatile = true
  · exact .inr (Bool.of_not_eq_true fun htb => h ⟨htb, hnv⟩)
  · exact .inl (Bool.of_not_eq_true hnv)

theorem processVarWithPk_wrongAttrs {isPk : Bool}
    (h : ¬ (attrs.timeBased = true ∧ attrs.nonVolatile = true)) :
    processVarWithPk ssl m k b n attrs isPk = some ⟨.invalidParameter, m, b⟩ := by
  unfold processVarWithPk
  exact if_pos (wrongAttrs h)

theorem processVarWithKek_wrongAttrs (h : ¬ (attrs.timeBased = true ∧ attrs.nonVolatile = true)) :
    processVarWithKek ssl m k b n attrs = some ⟨.invalidParameter, m, b⟩ := by
  unfold processVarWithKek
  exact if_pos (wrongAttrs h)

/-- The one attempt at PK. -/
theorem platformKey_isSome_iff (hl : l.length ≤ MAX_VARIABLE_NAME_SIZE) (hb : b.size < 2 ^ 63)
    (hnv : attrs.nonVolatile = true) (htb : attrs.timeBased = true) :
    (processVarWithPk ssl m (Key.of l g) b n attrs true).isSome ↔
      WriteInside ssl m.storage (Key.of l g) b n attrs m.setupMode .pk := by
  cases hmode : m.setupMode with
  | setup =>
      rw [processVarWithPk_enrolMode hnv htb hmode, Option.isSome_map]
      exact attempt_isSome_iff hb (fun _ hold => formatKind_of_filtered hl hold)
  | user =>
      rw [processVarWithPk_userMode hnv htb hmode, Option.isSome_map]
      exact attempt_isSome_iff hb (fun _ hold => formatKind_of_filtered hl hold)

/-- Two attempts at a database, one after the other. -/
theorem authLibProcessVariable_db (hclass : variableClass k = .db) :
    authLibProcessVariable ssl m k b n attrs =
      (processVarWithPk ssl m k b n attrs false).bind fun o =>
        if o.status ≠ .success then processVarWithKek ssl o.machine k o.data n attrs
        else some o := by
  unfold authLibProcessVariable
  rw [hclass]
  rfl

/-- The two attempts at a database. -/
theorem database_isSome_iff (h0 : l ≠ []) (hl : l.length ≤ MAX_VARIABLE_NAME_SIZE) (hn : n ≤ b.size)
    (hb : b.size < 2 ^ 63) (hclass : variableClass (Key.of l g) = .db)
    (hnv : attrs.nonVolatile = true) (htb : attrs.timeBased = true) :
    (authLibProcessVariable ssl m (Key.of l g) b n attrs).isSome ↔
      WriteInside ssl m.storage (Key.of l g) b n attrs m.setupMode .db := by
  have hkind := formatKind_of_class (.inr hclass)
  rw [authLibProcessVariable_db hclass]
  cases hmode : m.setupMode with
  | setup =>
      rw [processVarWithPk_setupMode hnv htb hmode]
      refine Iff.trans ?_ (updateInSetupMode_isSome_iff hkind hn hb)
      cases hup : updateInSetupMode (ssl .verify) m (Key.of l g) b n attrs with
      | none => exact Iff.rfl
      | some o =>
          refine iff_of_true ?_ rfl
          rw [Option.bind_some]
          split
          · rename_i hfail
            rw [processVarWithKek_setupMode hnv htb
              ((updateInSetupMode_fed hup).setupMode.trans hmode)]
            exact updateInSetupMode_again h0 hl htb hkind hn hb hup hfail
          · rfl
  | user =>
      rw [processVarWithPk_userMode hnv htb hmode]
      show _ ↔ AttemptInside _ _ _ _ _ _ _ _ _ ∧ _
      rw [← attempt_isSome_iff hb (fun _ hold => formatKind_of_filtered hl hold)]
      cases hup : verifyTimeBasedPayloadAndUpdate ssl m (Key.of l g) b n attrs .pk with
      | none => exact iff_of_false nofun (fun h => nomatch h.1)
      | some r =>
          obtain ⟨o, del⟩ := r
          have hresult := verifyTimeBasedPayloadAndUpdate_cases hup
          rw [Option.map_some, Option.bind_some, if_neg Bool.false_ne_true,
            and_iff_right (show (some (o, del)).isSome from rfl)]
          split
          · rename_i hfail
            rw [← retry_isSome_iff h0 hl hclass htb hb hresult hfail,
              processVarWithKek_userMode hnv htb (hresult.effect.setupMode.trans hmode),
              Option.isSome_map]
          · rename_i hok
            exact iff_of_true rfl
              (fun old b' hleft => absurd hleft (no_leftover h0 htb hresult (not_not.mp hok)))

/-- **`auth_lib_process_variable` comes back exactly if what it reads is there.** -/
theorem authLibProcessVariable_isSome_iff (h0 : l ≠ []) (hl : l.length ≤ MAX_VARIABLE_NAME_SIZE)
    (hn : n ≤ b.size) (h20 : 20 ≤ b.size) (hb : b.size < 2 ^ 63) :
    (authLibProcessVariable ssl m (Key.of l g) b n attrs).isSome ↔ (attrs.timeBased = true →
      attrs.nonVolatile = true ∨ variableClass (Key.of l g) = .other →
      WriteInside ssl m.storage (Key.of l g) b n attrs m.setupMode
        (variableClass (Key.of l g))) := by
  have hwrong : ∀ {c : VariableClass} {Q : Prop},
      ¬ (attrs.timeBased = true ∧ attrs.nonVolatile = true) →
      c ≠ .other → attrs.timeBased = true → attrs.nonVolatile = true ∨ c = .other → Q := by
    rintro c Q hattrs hc htb (hnv | hother)
    · exact absurd ⟨htb, hnv⟩ hattrs
    · exact absurd hother hc
  cases hclass : variableClass (Key.of l g) with
  | other =>
      have hlib : authLibProcessVariable ssl m (Key.of l g) b n attrs =
          processVariable ssl m (Key.of l g) b n attrs := by
        unfold authLibProcessVariable
        rw [hclass]
      rw [hlib, processVariable_isSome_iff hl hn h20 hb]
      exact ⟨fun h htb _ => h htb, fun h htb => h htb (.inr rfl)⟩
  | db =>
      by_cases hattrs : attrs.timeBased = true ∧ attrs.nonVolatile = true
      · rw [database_isSome_iff h0 hl hn hb hclass hattrs.2 hattrs.1, forall_prop_of_true hattrs.1,
          forall_prop_of_true (.inl hattrs.2)]
      · refine iff_of_true ?_ (hwrong hattrs nofun)
        rw [authLibProcessVariable_db hclass, processVarWithPk_wrongAttrs hattrs, Option.bind_some]
        dsimp only
        rw [if_pos (by decide), processVarWithKek_wrongAttrs hattrs]
        rfl
  | kek =>
      have hlib : authLibProcessVariable ssl m (Key.of l g) b n attrs =
          processVarWithPk ssl m (Key.of l g) b n attrs false := by
        unfold authLibProcessVariable
        rw [hclass]
      rw [hlib]
      by_cases hattrs : attrs.timeBased = true ∧ attrs.nonVolatile = true
      · rw [processVarWithPk_isSome_iff hl hn hb (.inl hclass) hattrs.2 hattrs.1,
          forall_prop_of_true hattrs.1, forall_prop_of_true (Or.inl hattrs.2)]
      · refine iff_of_true ?_ (hwrong hattrs nofun)
        rw [processVarWithPk_wrongAttrs hattrs]
        rfl
  | pk =>
      have hlib : authLibProcessVariable ssl m (Key.of l g) b n attrs =
          processVarWithPk ssl m (Key.of l g) b n attrs true := by
        unfold authLibProcessVariable
        rw [hclass]
      rw [hlib]
      by_cases hattrs : attrs.timeBased = true ∧ attrs.nonVolatile = true
      · rw [platformKey_isSome_iff hl hb hattrs.2 hattrs.1, forall_prop_of_true hattrs.1,
          forall_prop_of_true (Or.inl hattrs.2)]
      · refine iff_of_true ?_ (hwrong hattrs nofun)
        rw [processVarWithPk_wrongAttrs hattrs]
        rfl

end

/-! ## `handle_set_variable` -/

/-- What `handle_set_variable` reads for the request is there.  Only a request that passes the
checks in front, is time-based, and is non-volatile if it names a secure boot variable, reads
lengths at all. -/
def SetRequest.Inside (ssl : Phase → OpenSsl P X) (m : Machine) (req : SetRequest) : Prop :=
  refusal req = none → req.attrs.timeBased = true →
    req.attrs.nonVolatile = true ∨ variableClass req.key = .other →
    WriteInside ssl m.storage req.key req.buffer req.data.length req.attrs m.setupMode
      (variableClass req.key)

section
variable {ssl : Phase → OpenSsl P X} {m : Machine} {req : SetRequest}

theorem name_ne_nil_of_refusal (h : refusal req = none) : req.name ≠ [] := by
  intro hnil
  unfold refusal at h
  rw [hnil] at h
  split at h
  · cases h
  · cases h

/-- **`handle_set_variable` answers exactly if what it reads is there.** -/
theorem handleSetVariable_isSome_iff :
    (handleSetVariable ssl m req).isSome ↔ req.Inside ssl m := by
  unfold handleSetVariable SetRequest.Inside
  cases hr : refusal req with
  | some status => exact iff_of_true rfl nofun
  | none =>
      have hlib : (authLibProcessVariable ssl (m.opened req) req.key req.buffer req.data.length
          req.attrs).isSome ↔ _ :=
        authLibProcessVariable_isSome_iff (name_ne_nil_of_refusal hr) req.name_fits req.data_fits
          (show 20 ≤ 32768 by decide) (show 32768 < 2 ^ 63 by decide)
      dsimp only
      rw [forall_prop_of_true rfl]
      refine Iff.trans ?_ hlib
      unfold dispatch
      cases hauth : req.attrs.timeBased || isSecureBootVariable req.key with
      | false =>
          refine iff_of_true rfl (hlib.mpr ?_)
          intro htb
          rw [htb] at hauth
          cases hauth
      | true =>
          rw [if_pos rfl]
          show _ ↔ (authLibProcessVariable ssl (m.opened req) req.key req.buffer req.data.length
            req.attrs).isSome
          cases authLibProcessVariable ssl (m.opened req) req.key req.buffer req.data.length
            req.attrs with
          | none => exact Iff.rfl
          | some o => exact iff_of_true rfl rfl

end

end

end Uefistored
