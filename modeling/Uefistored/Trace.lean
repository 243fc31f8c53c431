/-
# `Uefistored.Trace` — what an attempt leaves in the store

A verified write can fail behind the store: the digest of the signer comes last.
`Marking` says, by the request and the store in front of it, that a verifier
accepts the write and that it shows; an attempt that fails has changed the store
exactly if it is such a write and the signer has no digest.

    an attempt that fails and changes the store   (`UpdateResult.marking`)
    an attempt at a write that is kept            (`UpdateResult.of_kept`)
    the first of two, which changes nothing       (`UpdateResult.handed`, `Handed.attempt`)
    the second, which takes nothing back          (`UpdateResult.retry_changed`)
-/
import Uefistored.Retry
import Uefistored.Signer

namespace Uefistored

open Lib

/-! ## What shows in the store -/

/-- The update that offers `d` to the store writes it, and that shows: there are data, they are
kept, and a variable that was there has an older time stamp or takes them behind its own. -/
structure Storage.Marks (s : Storage) (k : Key) (d : List UInt8) (attrs : Attrs) (time : EfiTime) :
    Prop where
  data : d ≠ []
  kept : s.Keeps k d attrs
  seen : ∀ i, s.findSlot k = some i →
    (s.vars i).timestamp ≠ time ∨ attrs.append = true ∧ Takes s i k d attrs

section
variable {s s' : Storage} {k : Key} {i : Fin MAX_VAR_COUNT} {d : List UInt8} {attrs : Attrs}
  {time : EfiTime} {b b' : Buffer} {off size : Nat}

theorem Storage.setSlot_eq_self_iff {v : Variable} : s.setSlot i v = s ↔ v = s.vars i := by
  constructor
  · intro h
    have hslot := congrFun (congrArg Storage.vars h) i
    rwa [Storage.setSlot_vars, Function.update_self] at hslot
  · rintro rfl
    exact Storage.setSlot_self s i

theorem Variable.rewritten_eq_iff {v : Variable} {data : List UInt8} :
    { v with data := data, timestamp := time } = v ↔ data = v.data ∧ time = v.timestamp := by
  constructor
  · intro h
    exact ⟨congrArg Variable.data h, congrArg Variable.timestamp h⟩
  · rintro ⟨rfl, rfl⟩
    rfl

theorem appendedData_eq_iff (hd : d ≠ []) :
    appendedData s i k d attrs = (s.vars i).data ↔ ¬ Takes s i k d attrs := by
  unfold appendedData
  split
  · rename_i ht
    refine iff_of_false ?_ (not_not.mpr ht)
    intro h
    exact hd (List.append_right_eq_self.mp h)
  · rename_i ht
    exact iff_of_true rfl ht

theorem length_appendedData : (s.vars i).data.length ≤ (appendedData s i k d attrs).length := by
  unfold appendedData
  split
  · rw [List.length_append]
    exact Nat.le_add_right _ _
  · exact le_rfl

/-- A write that is kept shows, unless it stamps a variable with the time it has and appends
nothing. -/
theorem storageSetWithTimestamp_ne_iff (hk : k.Clean) (htb : attrs.timeBased = true) (hd : d ≠ [])
    (hkept : s.Keeps k d attrs)
    (hfresh : attrs.append = false → ∀ i, s.findSlot k = some i → (s.vars i).timestamp ≠ time) :
    (storageSetWithTimestamp s k (some d) attrs time).2 ≠ s ↔ ∀ i, s.findSlot k = some i →
      (s.vars i).timestamp ≠ time ∨ attrs.append = true ∧ Takes s i k d attrs := by
  obtain ⟨v, hv, htime⟩ := storageSetWithTimestamp_kept hk.named.size
    (Attrs.ne_zero_of_timeBased htb) hd hkept time
  cases hi : s.findSlot k with
  | none =>
      refine iff_of_true ?_ nofun
      intro hsame
      rw [hsame, storageFindVariable_eq_none.mpr hi] at hv
      cases hv
  | some i =>
      simp only [Option.some.injEq, forall_eq']
      cases happ : attrs.append with
      | false =>
          have hold := hfresh happ i hi
          refine iff_of_true ?_ (.inl hold)
          intro hsame
          rw [hsame, storageFindVariable_eq hi] at hv
          exact hold (Option.some.inj hv ▸ htime)
      | true =>
          rw [storageSetWithTimestamp_append hk hi happ hd, and_iff_right rfl, ne_eq,
            Storage.setSlot_eq_self_iff, Variable.rewritten_eq_iff, appendedData_eq_iff hd,
            not_and_or, not_not, or_comm]
          exact or_congr_left (not_congr eq_comm)

/-- Without a payload nothing is offered. -/
theorem offered_nil (h : offered s k b off 0 attrs = some (d, b')) : d = [] := by
  unfold offered at h
  split at h
  · obtain ⟨payload, hp, h⟩ := Option.map_eq_some_iff.mp h
    cases h
    exact List.eq_nil_of_length_eq_zero (Buffer.length_slice hp)
  · obtain ⟨⟨b₁, size₁⟩, hfilter, h⟩ := Option.bind_eq_some_iff.mp h
    obtain ⟨d', hd, h⟩ := Option.map_eq_some_iff.mp h
    cases h
    have hzero := (size_filterSignatureList hfilter).2
    exact List.eq_nil_of_length_eq_zero ((Buffer.length_slice hd).trans (Nat.le_zero.mp hzero))

/-- Nor at a deletion, which leaves the data as they came. -/
theorem offered_of_isDel (hdel : isDel s k size attrs = true)
    (h : offered s k b off size attrs = some (d, b')) : d = [] ∧ b' = b := by
  obtain ⟨_, rfl, happ⟩ := isDel_iff.mp hdel
  refine ⟨offered_nil h, ?_⟩
  have hnone : filteredAgainst s k attrs = none := by
    cases hold : filteredAgainst s k attrs with
    | none => rfl
    | some old => cases happ.symm.trans (filteredAgainst_eq_some_iff.mp hold).1
  rw [offered_unfiltered hnone] at h
  obtain ⟨payload, _, hpair⟩ := Option.map_eq_some_iff.mp h
  exact (Prod.mk.inj hpair).2.symm

/-- What is offered and not empty goes to the store. -/
theorem update_of_offered (hin : off + size ≤ b.size) (hd : d ≠ [])
    (h : offered s k b off size attrs = some (d, b')) :
    authInternalUpdateVariableWithTimestamp s k b off size attrs time =
      some ((storageSetWithTimestamp s k (some d) attrs time).1,
        (storageSetWithTimestamp s k (some d) attrs time).2, b') := by
  rw [authInternalUpdate_eq hin, h, Option.map_some, if_neg (fun hc => hd hc.2)]

end

section
variable {P X : Type}

/-! ## One attempt -/

/-- A verifier accepts the request, and the write behind it shows.  `b'` is what the write leaves
of the data. -/
def Marking (ssl : OpenSsl P X) (s : Storage) (k : Key) (b : Buffer) (n : Nat) (attrs : Attrs)
    (kind : AuthVarType) (b' : Buffer) : Prop :=
  ∃ off size msg time d, Accepted ssl s k b n attrs kind off size msg time ∧
    offered s k b off size attrs = some (d, b') ∧ s.Marks k d attrs time

section
variable {ssl : OpenSsl P X} {s s' : Storage} {k : Key} {l : List UInt8} {g : Guid} {b b' : Buffer}
  {n : Nat} {attrs : Attrs} {kind : AuthVarType} {off size : Nat} {msg d : List UInt8}
  {time : EfiTime}

/-- What is accepted and no append is newer than the variable. -/
theorem Accepted.fresh (h : Accepted ssl s k b n attrs kind off size msg time)
    (happ : attrs.append = false) (i : Fin MAX_VAR_COUNT) (hi : s.findSlot k = some i) :
    (s.vars i).timestamp ≠ time := by
  rintro rfl
  obtain ⟨sig, stamp, payload, hp, _⟩ := h.passes
  refine hp.front ?_
  rw [storageFindVariable_eq hi]
  exact frontRefused_again h.described.time_eq happ

/-- What is kept is a success of the update, and no deletion. -/
theorem update_of_kept (hk : k.Clean) (htb : attrs.timeBased = true) (hd : d ≠ [])
    (hkept : s.Keeps k d attrs) (hacc : Accepted ssl s k b n attrs kind off size msg time)
    (hoffer : offered s k b off size attrs = some (d, b')) :
    authInternalUpdateVariableWithTimestamp s k b off size attrs time =
        some (.success, (storageSetWithTimestamp s k (some d) attrs time).2, b') ∧
      isDel s k size attrs = false := by
  have hattrs := Attrs.ne_zero_of_timeBased htb
  refine ⟨?_, ?_⟩
  · rw [update_of_offered hacc.inside hd hoffer,
      (storageSetWithTimestamp_success_iff hk.named.size hattrs time).mpr hkept]
  · have hsize : size ≠ 0 := by
      rintro rfl
      exact hd (offered_nil hoffer)
    rw [isDel, beq_false_of_ne hsize, Bool.and_false, Bool.false_and]

/-- A write that shows changes the store. -/
theorem Storage.Marks.changes (hk : k.Clean) (htb : attrs.timeBased = true)
    (h : s.Marks k d attrs time) (hacc : Accepted ssl s k b n attrs kind off size msg time) :
    (storageSetWithTimestamp s k (some d) attrs time).2 ≠ s :=
  (storageSetWithTimestamp_ne_iff hk htb h.data h.kept hacc.fresh).mpr h.seen

/-- And a success of the update that changes the store and deletes nothing is one that shows. -/
theorem marks_of_update (hname : NulFree l) (hl : l.length ≤ MAX_VARIABLE_NAME_SIZE)
    (htb : attrs.timeBased = true)
    (hacc : Accepted ssl s (Key.of l g) b n attrs kind off size msg time)
    (hoffer : offered s (Key.of l g) b off size attrs = some (d, b'))
    (hup : authInternalUpdateVariableWithTimestamp s (Key.of l g) b off size attrs time =
      some (.success, s', b')) (hdel : isDel s (Key.of l g) size attrs = false) (hne : s' ≠ s) :
    s.Marks (Key.of l g) d attrs time ∧
      s' = (storageSetWithTimestamp s (Key.of l g) (some d) attrs time).2 := by
  have hk := Key.clean_of_nulFree hname hl g
  have hattrs := Attrs.ne_zero_of_timeBased htb
  have hd : d ≠ [] := by
    rcases update_kept hname.1 hl htb hacc.inside hup hdel with
      ⟨old, d', i, hold, hoffer', _⟩ | ⟨hnone, _, payload, hp, hpayload, _⟩
    · rintro rfl
      rw [authInternalUpdate_eq hacc.inside, hoffer, Option.map_some, hold, if_pos ⟨rfl, rfl⟩]
        at hup
      cases hup
      exact hne rfl
    · rw [offered_unfiltered hnone, hp] at hoffer
      cases hoffer
      exact hpayload
  rw [update_of_offered hacc.inside hd hoffer] at hup
  obtain ⟨hok, hstore⟩ := Prod.mk.inj (Option.some.inj hup)
  obtain ⟨rfl, _⟩ := Prod.mk.inj hstore
  have hkept := (storageSetWithTimestamp_success_iff hk.named.size hattrs time).mp hok
  exact ⟨⟨hd, hkept, (storageSetWithTimestamp_ne_iff hk htb hd hkept hacc.fresh).mp hne⟩, rfl⟩

end

section
variable {ssl : Phase → OpenSsl P X} {m : Machine} {l : List UInt8} {g : Guid} {b b' : Buffer}
  {n : Nat} {attrs : Attrs} {kind : AuthVarType} {o : Outcome} {del : Bool}

/-- What an attempt leaves of the data: they are as they came where it is not accepted, and
otherwise what its payload leaves. -/
theorem UpdateResult.data_cases {k : Key} (h : UpdateResult ssl m k b n attrs kind o del) :
    o.data = b ∧ (∀ off size msg time,
        ¬ Accepted (ssl .verify) m.storage k b n attrs kind off size msg time) ∨
      ∃ off size msg time d,
        Accepted (ssl .verify) m.storage k b n attrs kind off size msg time ∧
        offered m.storage k b off size attrs = some (d, o.data) := by
  have hupdate : ∀ {off size msg time status s' b'},
      Accepted (ssl .verify) m.storage k b n attrs kind off size msg time →
      authInternalUpdateVariableWithTimestamp m.storage k b off size attrs time =
        some (status, s', b') → ∃ off size msg time d,
      Accepted (ssl .verify) m.storage k b n attrs kind off size msg time ∧
        offered m.storage k b off size attrs = some (d, b') := by
    intro off size msg time status s' b' hacc hup
    obtain ⟨d, hoffer⟩ := offered_of_update hacc.inside hup
    exact ⟨off, size, msg, time, d, hacc, hoffer⟩
  cases h with
  | rejected _ hv =>
      refine .inl ⟨rfl, ?_⟩
      intro off size msg time hacc
      cases hacc.eq.symm.trans hv
  | failed hacc hup => exact .inr (hupdate hacc hup)
  | deleted hacc hup => exact .inr (hupdate hacc hup)
  | lost hacc hup => exact .inr (hupdate hacc hup)
  | undigested hacc hup => exact .inr (hupdate hacc hup)
  | recorded hacc hup => exact .inr (hupdate hacc hup)

/-- The digest is that of the data as they came. -/
theorem UpdateResult.digest_eq (hl : l.length ≤ MAX_VARIABLE_NAME_SIZE)
    (h : UpdateResult ssl m (Key.of l g) b n attrs kind o del) (ssl' : OpenSsl P X) :
    sha256FromAuth ssl' o.data = sha256FromAuth ssl' b := by
  rcases h.data_cases with ⟨heq, _⟩ | ⟨_, _, _, _, _, hacc, hoffer⟩
  · rw [heq]
  · exact offered_digest hl hacc hoffer ssl'

theorem UpdateResult.data_eq {k : Key} {off size : Nat} {msg d : List UInt8} {time : EfiTime}
    (h : UpdateResult ssl m k b n attrs kind o del)
    (hacc : Accepted (ssl .verify) m.storage k b n attrs kind off size msg time)
    (hoffer : offered m.storage k b off size attrs = some (d, b')) : o.data = b' := by
  rcases h.data_cases with ⟨_, hno⟩ | ⟨_, _, _, _, _, hacc', hoffer'⟩
  · exact absurd hacc (hno _ _ _ _)
  · obtain ⟨rfl, rfl, rfl⟩ := hacc.unique hacc'
    exact (Prod.mk.inj (Option.some.inj (hoffer'.symm.trans hoffer))).2

/-- An attempt whose payload is accepted and offered comes back. -/
theorem Accepted.attempt {k : Key} {off size : Nat} {msg d : List UInt8} {time : EfiTime}
    (h : Accepted (ssl .verify) m.storage k b n attrs kind off size msg time)
    (hoffer : offered m.storage k b off size attrs = some (d, b')) :
    ∃ o del, verifyTimeBasedPayloadAndUpdate ssl m k b n attrs kind = some (o, del) ∧
      UpdateResult ssl m k b n attrs kind o del := by
  obtain ⟨⟨o, del⟩, hrun⟩ := Option.isSome_iff_exists.mp
    (h.isSome_iff.mpr (Option.isSome_of_eq_some hoffer))
  exact ⟨o, del, hrun, verifyTimeBasedPayloadAndUpdate_cases hrun⟩

/-- Without a digest of the signer only a deletion succeeds. -/
theorem UpdateResult.fails_of_undigested (hl : l.length ≤ MAX_VARIABLE_NAME_SIZE)
    (h : UpdateResult ssl m (Key.of l g) b n attrs kind o del)
    (hd : Undigested (ssl .digest) b) (hdel : del = false) : o.status ≠ .success := by
  have hdigest := h.digest_eq hl (ssl .digest)
  intro hok
  cases h with
  | rejected hs => exact hs hok
  | failed _ _ hs => exact hs hok
  | deleted => cases hdel
  | lost => cases hok
  | undigested _ _ _ _ hd' =>
      rw [sha256FromAuth_error hd'] at hok
      cases hok
  | recorded _ _ _ _ hd' =>
      obtain ⟨status, hd⟩ := hd
      cases hd.symm.trans (hdigest.symm.trans hd')

/-- An attempt that fails and changes the store has made a write that shows, and the signer has no
digest. -/
theorem UpdateResult.marking (hname : NulFree l) (hl : l.length ≤ MAX_VARIABLE_NAME_SIZE)
    (htb : attrs.timeBased = true) (h : UpdateResult ssl m (Key.of l g) b n attrs kind o del)
    (hfail : o.status ≠ .success) (hne : o.machine.storage ≠ m.storage) :
    Marking (ssl .verify) m.storage (Key.of l g) b n attrs kind o.data ∧
      Undigested (ssl .digest) b := by
  have hk := Key.clean_of_nulFree hname hl g
  have hdigest := h.digest_eq hl (ssl .digest)
  cases h with
  | rejected => exact absurd rfl hne
  | failed hacc hup hs =>
      rcases (authInternalUpdate_cases hup).wrote hk htb with ⟨rfl, _⟩ | ⟨rfl, _⟩ | ⟨rfl, _⟩
      · exact absurd rfl hne
      · exact absurd rfl hs
      · exact absurd rfl hs
  | deleted => exact absurd rfl hfail
  | lost _ hup hdel hnone =>
      exact absurd hnone ((authInternalUpdate_cases hup).findSlot_ne_none hk htb hdel)
  | undigested hacc hup hdel _ hd =>
      obtain ⟨d, hoffer⟩ := offered_of_update hacc.inside hup
      obtain ⟨hmarks, _⟩ := marks_of_update hname hl htb hacc hoffer hup hdel hne
      exact ⟨⟨_, _, _, _, d, hacc, hoffer, hmarks⟩, _, hdigest ▸ hd⟩
  | recorded => exact absurd rfl hfail

/-- An attempt at a write that is kept fails only for the digest of the signer. -/
theorem UpdateResult.of_kept (hname : NulFree l) (hl : l.length ≤ MAX_VARIABLE_NAME_SIZE)
    (htb : attrs.timeBased = true) (h : UpdateResult ssl m (Key.of l g) b n attrs kind o del)
    {off size : Nat} {msg d : List UInt8} {time : EfiTime}
    (hacc : Accepted (ssl .verify) m.storage (Key.of l g) b n attrs kind off size msg time)
    (hoffer : offered m.storage (Key.of l g) b off size attrs = some (d, b')) (hd : d ≠ [])
    (hkept : m.storage.Keeps (Key.of l g) d attrs) :
    del = false ∧ o.data = b' ∧
      (Undigested (ssl .digest) b ∧ o.status ≠ .success ∧ o.machine.storage =
          (storageSetWithTimestamp m.storage (Key.of l g) (some d) attrs time).2 ∨
        ¬ Undigested (ssl .digest) b ∧ o.status = .success) := by
  have hk := Key.clean_of_nulFree hname hl g
  obtain ⟨hup, hdel⟩ := update_of_kept hk htb hd hkept hacc hoffer
  have hdigest := h.digest_eq hl (ssl .digest)
  cases h with
  | rejected _ hv => cases hacc.eq.symm.trans hv
  | failed hacc' hup' hs =>
      obtain ⟨rfl, rfl, rfl⟩ := hacc.unique hacc'
      cases hup.symm.trans hup'
      exact absurd rfl hs
  | deleted hacc' _ hdel' =>
      obtain ⟨rfl, rfl, rfl⟩ := hacc.unique hacc'
      cases hdel.symm.trans hdel'
  | lost hacc' hup' hdel' hnone =>
      exact absurd hnone ((authInternalUpdate_cases hup').findSlot_ne_none hk htb hdel')
  | undigested hacc' hup' _ _ hd' =>
      obtain ⟨rfl, rfl, rfl⟩ := hacc.unique hacc'
      cases hup.symm.trans hup'
      refine ⟨rfl, rfl, .inl ⟨⟨_, hdigest ▸ hd'⟩, ?_, rfl⟩⟩
      rw [sha256FromAuth_error hd']
      exact nofun
  | recorded hacc' hup' _ _ hd' =>
      obtain ⟨rfl, rfl, rfl⟩ := hacc.unique hacc'
      cases hup.symm.trans hup'
      refine ⟨rfl, rfl, .inr ⟨?_, rfl⟩⟩
      rintro ⟨status, hd⟩
      cases hd.symm.trans (hdigest.symm.trans hd')

end

/-! ## Two attempts -/

/-- What the attempt with PK hands to the attempt with KEK, where it leaves the store as it was. -/
inductive Handed (ssl : OpenSsl P X) (s : Storage) (k : Key) (b : Buffer) (n : Nat)
    (attrs : Attrs) : Buffer → Prop
  /-- PK does not accept the request. -/
  | refused :
      VerificationInside ssl s k b n attrs .pk ((storageFindVariable s k).map (·.timestamp)) →
      (∀ off size msg time, ¬ Accepted ssl s k b n attrs .pk off size msg time) →
      Handed ssl s k b n attrs b
  /-- PK accepts it, and the write does not show. -/
  | unseen {off size : Nat} {msg d : List UInt8} {time : EfiTime} {b' : Buffer} :
      Accepted ssl s k b n attrs .pk off size msg time →
      offered s k b off size attrs = some (d, b') → ¬ s.Marks k d attrs time →
      Handed ssl s k b n attrs b'

/-- An append that shows makes the variable longer, or stamps it. -/
theorem Storage.Marks.grows {s : Storage} {k : Key} {d : List UInt8} {attrs : Attrs}
    {time : EfiTime} (hk : k.Clean) (htb : attrs.timeBased = true) (happ : attrs.append = true)
    (h : s.Marks k d attrs time) :
    ∃ v, storageFindVariable (storageSetWithTimestamp s k (some d) attrs time).2 k = some v ∧
      v.timestamp = time ∧ ∀ w, storageFindVariable s k = some w →
        w.data.length ≤ v.data.length ∧ (w.timestamp = time → w.data.length < v.data.length) := by
  cases hi : s.findSlot k with
  | none =>
      obtain ⟨v, hv, htime⟩ := storageSetWithTimestamp_kept hk.named.size
        (Attrs.ne_zero_of_timeBased htb) h.data h.kept time
      refine ⟨v, hv, htime, ?_⟩
      intro w hw
      cases (storageFindVariable_eq_none.mpr hi).symm.trans hw
  | some i =>
      have hfind : (s.setSlot i { s.vars i with
          data := appendedData s i k d attrs, timestamp := time }).findSlot k = some i :=
        Slots.first_update_self hi (Storage.findSlot_isMatch hi)
      rw [storageSetWithTimestamp_append hk hi happ h.data, storageFindVariable_eq hfind,
        Storage.setSlot_vars, Function.update_self]
      refine ⟨_, rfl, rfl, ?_⟩
      intro w hw
      obtain rfl := Option.some.inj ((storageFindVariable_eq hi).symm.trans hw)
      refine ⟨length_appendedData, fun htime => ?_⟩
      rcases h.seen i hi with hold | ⟨_, htakes⟩
      · exact absurd htime hold
      · show _ < (appendedData s i k d attrs).length
        rw [appendedData_of_takes htakes, List.length_append]
        exact Nat.lt_add_of_pos_right (List.length_pos_of_ne_nil h.data)

section
variable {ssl : Phase → OpenSsl P X} {m : Machine} {l : List UInt8} {g : Guid} {b b₁ b₂ : Buffer}
  {n : Nat} {attrs : Attrs} {o : Outcome} {del : Bool}

theorem UpdateResult.handed (hname : NulFree l) (hl : l.length ≤ MAX_VARIABLE_NAME_SIZE)
    (htb : attrs.timeBased = true) (h : UpdateResult ssl m (Key.of l g) b n attrs .pk o del)
    (hfail : o.status ≠ .success) (hsame : o.machine.storage = m.storage) :
    Handed (ssl .verify) m.storage (Key.of l g) b n attrs o.data := by
  have hk := Key.clean_of_nulFree hname hl g
  cases h with
  | rejected _ hv =>
      refine .refused (verifyTimeBasedPayload_isSome_iff.mp (Option.isSome_of_eq_some hv)) ?_
      intro off size msg time hacc
      cases hacc.eq.symm.trans hv
  | failed hacc hup hs =>
      obtain ⟨d, hoffer⟩ := offered_of_update hacc.inside hup
      refine .unseen hacc hoffer ?_
      intro hmarks
      cases (update_of_kept hk htb hmarks.data hmarks.kept hacc hoffer).1.symm.trans hup
      exact hs rfl
  | deleted => exact absurd rfl hfail
  | lost _ hup hdel hnone =>
      exact absurd hnone ((authInternalUpdate_cases hup).findSlot_ne_none hk htb hdel)
  | undigested hacc hup =>
      obtain ⟨d, hoffer⟩ := offered_of_update hacc.inside hup
      refine .unseen hacc hoffer ?_
      intro hmarks
      cases (update_of_kept hk htb hmarks.data hmarks.kept hacc hoffer).1.symm.trans hup
      exact hmarks.changes hk htb hacc hsame
  | recorded => exact absurd rfl hfail

/-- What is handed on is handed on by an attempt that fails. -/
theorem Handed.attempt (hname : NulFree l) (hl : l.length ≤ MAX_VARIABLE_NAME_SIZE)
    (htb : attrs.timeBased = true)
    (h : Handed (ssl .verify) m.storage (Key.of l g) b n attrs b₁)
    (hnext : Marking (ssl .verify) m.storage (Key.of l g) b₁ n attrs .kek b₂)
    (hd : Undigested (ssl .digest) b) :
    ∃ o del, verifyTimeBasedPayloadAndUpdate ssl m (Key.of l g) b n attrs .pk = some (o, del) ∧
      o.status ≠ .success ∧ o.machine.storage = m.storage ∧ o.data = b₁ := by
  have hk := Key.clean_of_nulFree hname hl g
  cases h with
  | refused hin hno =>
      obtain ⟨r, hv⟩ := Option.isSome_iff_exists.mp (verifyTimeBasedPayload_isSome_iff.mpr hin)
      rcases verifyTimeBasedPayload_cases hv with
          ⟨calls, status, rfl, hs⟩ | ⟨off, size, msg, time, _, hacc⟩
      · exact ⟨⟨status, { m with calls := m.calls ++ calls }, b⟩, false,
          Option.bind_eq_some_iff.mpr ⟨_, hv, rfl⟩, hs, rfl, rfl⟩
      · exact absurd hacc (hno _ _ _ _)
  | @unseen off size msg d time _ hacc hoffer hunseen =>
      obtain ⟨o, del, hrun, hresult⟩ := hacc.attempt hoffer
      have hdel : del = false := by
        rw [Bool.eq_false_iff]
        rintro rfl
        cases hresult with
        | deleted hacc' _ hdel =>
            -- then there is no payload, and the second attempt has nothing to write either
            obtain ⟨rfl, rfl, rfl⟩ := hacc.unique hacc'
            obtain ⟨_, rfl⟩ := offered_of_isDel hdel hoffer
            obtain ⟨_, _, _, _, _, hacc₂, hoffer₂, hmarks⟩ := hnext
            obtain ⟨rfl, rfl, rfl⟩ := hacc.unique hacc₂
            exact hmarks.data (offered_of_isDel hdel hoffer₂).1
      have hfail := hresult.fails_of_undigested hl hd hdel
      refine ⟨o, del, hrun, hfail, ?_, ?_⟩
      · by_contra hne
        obtain ⟨⟨_, _, _, _, _, hacc', hoffer', hmarks⟩, _⟩ :=
          hresult.marking hname hl htb hfail hne
        obtain ⟨rfl, rfl, rfl⟩ := hacc.unique hacc'
        cases hoffer.symm.trans hoffer'
        exact hunseen hmarks
      · exact hresult.data_eq hacc hoffer

/-- Behind a write that shows and a signer without a digest, the attempt with KEK fails as well,
and does not take the write back. -/
theorem UpdateResult.retry_changed {s : Storage} {off size : Nat} {msg d : List UInt8}
    {time : EfiTime} (hname : NulFree l) (hl : l.length ≤ MAX_VARIABLE_NAME_SIZE)
    (htb : attrs.timeBased = true)
    (hacc : Accepted (ssl .verify) s (Key.of l g) b n attrs .pk off size msg time)
    (hoffer : offered s (Key.of l g) b off size attrs = some (d, b₁))
    (hmarks : s.Marks (Key.of l g) d attrs time) (hd : Undigested (ssl .digest) b)
    (hs : m.storage = (storageSetWithTimestamp s (Key.of l g) (some d) attrs time).2)
    (h : UpdateResult ssl m (Key.of l g) b₁ n attrs .kek o del) :
    o.status ≠ .success ∧ o.machine.storage ≠ s := by
  have hk := Key.clean_of_nulFree hname hl g
  have hattrs := Attrs.ne_zero_of_timeBased htb
  have hdigest : sha256FromAuth (ssl .digest) b₁ = sha256FromAuth (ssl .digest) b :=
    offered_digest hl hacc hoffer _
  have htime : authTimeStamp b₁ = some time := by
    obtain ⟨sig, _, _, _, rfl, _⟩ := hacc.passes
    rw [← hacc.described.time_eq, authTimeStamp, authTimeStamp,
      (offered_agrees hoffer).1 0 16 (by show 0 + 16 ≤ 40 + sig; omega)]
  -- what is no append is stale by now
  have hstale : ∀ {off' size' msg' time'}, Accepted (ssl .verify) m.storage (Key.of l g) b₁ n attrs
      .kek off' size' msg' time' → attrs.append = true := by
    intro off' size' msg' time' hacc'
    by_contra happ
    rw [Bool.not_eq_true] at happ
    obtain ⟨v, hv, hstamp⟩ := storageSetWithTimestamp_kept hk.named.size hattrs hmarks.data
      hmarks.kept time
    obtain ⟨_, _, _, hp, _⟩ := hacc'.passes
    refine hp.front ?_
    rw [hs, hv, Option.map_some, hstamp]
    exact frontRefused_again htime happ
  have hfail : o.status ≠ .success := by
    refine h.fails_of_undigested hl ?_ ?_
    · rwa [Undigested, hdigest]
    · rw [Bool.eq_false_iff]
      rintro rfl
      cases h with
      | deleted hacc' _ hdel => cases (hstale hacc').symm.trans (isDel_iff.mp hdel).2.2
  refine ⟨hfail, ?_⟩
  intro hback
  by_cases hsame : o.machine.storage = m.storage
  · exact hmarks.changes hk htb hacc (hs.symm.trans (hsame.symm.trans hback))
  · obtain ⟨⟨off', size', msg', time', d', hacc', hoffer', hmarks'⟩, hd'⟩ :=
      h.marking hname hl htb hfail hsame
    obtain rfl := Option.some.inj (htime.symm.trans hacc'.described.time_eq)
    obtain ⟨_, _, ⟨_, _, hstore⟩ | ⟨hno, _⟩⟩ :=
      h.of_kept hname hl htb hacc' hoffer' hmarks'.data hmarks'.kept
    swap
    · exact hno hd'
    have happ := hstale hacc'
    obtain ⟨v, hv, hstamp, hle⟩ := hmarks.grows hk htb happ
    obtain ⟨v', hv', _, hlt⟩ := hmarks'.grows hk htb happ
    rw [← hs] at hv
    rw [← hstore, hback] at hv'
    exact absurd (hle v' hv').1 (Nat.not_le.mpr ((hlt v hv).2 hstamp))

end

end

end Uefistored
