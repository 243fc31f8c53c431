/-
# `Uefistored.Ownership` — the owner of a private variable never changes

The digest of the signer is computed twice: by `verify_priv` before the write,
to be compared with `cert`, and by `sha256_from_auth` after it, to be put into
`cert`.  Where the two agree on the request's own blob, an update leaves `cert`
as it was, so the digest recorded when the variable was created decides about
every later update (`ownership_kept`).

The variable is followed by its slot, from the request that filled the empty
slot for as long as the slot stays in use.
-/
import Uefistored.Private

namespace Uefistored

open Lib

/-! ## Creation -/

/-- Without the time-based attribute no private variable comes into being. -/
theorem storageSet_not_private {s : Storage} {k : Key} (hk : k.Clean) {i : Fin MAX_VAR_COUNT}
    (hv : ¬ (s.vars i).Private) {data : Option (List UInt8)} {attrs : Attrs}
    (htb : attrs.timeBased = false) : ¬ ((storageSet s k data attrs).2.vars i).Private := by
  have h := storageSet_slot (s := s) hk data attrs i
  generalize (storageSet s k data attrs).2.vars i = v at h ⊢
  intro hp
  cases h with
  | kept => exact hv hp
  | removed =>
      have hused := hp.used
      rw [Variable.isFree_zero] at hused
      cases hused
  | replaced => exact hv ⟨hp.used, hp.timeBased, hp.other⟩
  | created =>
      have hstored := hp.timeBased
      rw [Attrs.timeBased_withoutAppend, htb] at hstored
      cases hstored

theorem setModeVariables_not_private {i : Fin MAX_VAR_COUNT} : ∀ (s : Storage)
    (l : List (Key × UInt8)), (∀ k ∈ l.map Prod.fst, k.Clean) → ¬ (s.vars i).Private →
    ¬ ((setModeVariables s l).2.vars i).Private
  | _, [], _, hv => hv
  | s, (k, value) :: rest, hl, hv => by
      have hset : ¬ ((storageSet s k (some [value]) RT_BS_ATTRS).2.vars i).Private :=
        storageSet_not_private (hl k (by simp)) hv (by decide)
      unfold setModeVariables
      split
      · rename_i s₁ hs
        rw [hs] at hset
        exact setModeVariables_not_private s₁ rest
          (fun k' hk' => hl k' (List.mem_cons_of_mem _ hk')) hset
      · rename_i hs
        rw [hs] at hset
        exact hset

theorem Variable.not_private_of_isFree {v : Variable} (h : v.isFree = true) : ¬ v.Private := by
  intro hv
  rw [hv.used] at h
  cases h

section
variable {P X : Type} {ssl : Phase → OpenSsl P X} {m m' : Machine} {req : SetRequest}
  {i : Fin MAX_VAR_COUNT}

/-- Nor does one in an empty slot, by a request for a secure boot variable. -/
theorem handleSetVariable_secureBoot_free {status : EfiStatus} (hk : req.key ∈ secureBootKeys)
    (h : handleSetVariable ssl m req = some (status, m'))
    (hfree : (m.storage.vars i).isFree = true) : ¬ (m'.storage.vars i).Private := by
  obtain ⟨mid, hmid, hm⟩ := handleSetVariable_effect h
  have hmidvar : ¬ (mid.storage.vars i).Private := by
    have hframe := hmid.writes.frame (Q := Variable.Touched req.key) (by
      rintro _ rfl v ht
      exact ht)
    rcases hframe i with heq | ⟨_, hfree' | hhit⟩
    · rw [heq]
      exact Variable.not_private_of_isFree hfree
    · exact Variable.not_private_of_isFree hfree'
    · intro hv
      have hmatch := hhit.isMatch (secureBootKeys_clean _ hk)
      rw [hv.other _ hk] at hmatch
      cases hmatch
  rcases hm with ⟨hst, _⟩ | ⟨_, mode, hst, _⟩
  · rw [hst]
    exact hmidvar
  · rw [hst]
    refine setModeVariables_not_private mid.storage _ ?_ hmidvar
    rw [modeVariables_keys]
    exact modeKeys_clean

/-- A private variable that was created carries the digest of the request's signer. -/
theorem UpdateResult.created_cert {o : Outcome} {del : Bool} (hk : req.key.Clean)
    (htb : req.attrs.timeBased = true) (hok : o.status = .success)
    (hfree : (m.storage.vars i).isFree = true) (hv : (o.machine.storage.vars i).Private)
    (h : UpdateResult ssl (m.opened req) req.key req.buffer req.data.length req.attrs .priv o del) :
    sha256FromAuth (ssl .digest) req.buffer = some (.ok (o.machine.storage.vars i).cert) := by
  have hsame : o.machine.storage.vars i ≠ m.storage.vars i := by
    intro heq
    rw [heq] at hv
    exact Variable.not_private_of_isFree hfree hv
  cases h.settled hk htb with
  | unchanged hfail => exact absurd hok hfail
  | undigested _ _ hfail => exact absurd hok hfail
  | @deleted j _ _ _ _ _ hj _ hrem _ =>
      rw [hrem] at hsame hv
      by_cases hij : i = j
      · subst hij
        have hused : (Function.update m.storage.vars i Variable.zero i).isFree = false := hv.used
        rw [Function.update_self, Variable.isFree_zero] at hused
        cases hused
      · exact absurd (Function.update_of_ne hij _ _) hsame
  | @recorded j _ _ _ _ s₁ digest _ hw _ hkept hsha hrec =>
      rw [hrec, Storage.setSlot_vars] at hsame ⊢
      by_cases hij : i = j
      · subst hij
        rw [Function.update_self]
        have hnone : m.storage.findSlot req.key = none := by
          cases hw with
          | created hnone _ => exact hnone
          | nothingNew _ hi _ =>
              have hmatch : (m.storage.vars i).isMatch req.key = true := Storage.findSlot_isMatch hi
              rw [Variable.not_isMatch_of_isFree hk hfree] at hmatch
              cases hmatch
          | stamped hi _ =>
              have hmatch : (m.storage.vars i).isMatch req.key = true := Storage.findSlot_isMatch hi
              rw [Variable.not_isMatch_of_isFree hk hfree] at hmatch
              cases hmatch
        rcases hkept with hdata | ⟨v, hfind, _⟩
        · rw [hdata] at hsha
          exact hsha
        · rw [show storageFindVariable (m.opened req).storage req.key = none from
            storageFindVariable_eq_none.mpr hnone] at hfind
          cases hfind
      · rw [Function.update_of_ne hij, hw.other hij] at hsame
        exact absurd rfl hsame

theorem VarResult.created_cert {o : Outcome} (hk : req.key.Clean) (hok : o.status = .success)
    (hfree : (m.storage.vars i).isFree = true) (hv : (o.machine.storage.vars i).Private)
    (h : VarResult ssl (m.opened req) req.key req.buffer req.data.length req.attrs o) :
    sha256FromAuth (ssl .digest) req.buffer = some (.ok (o.machine.storage.vars i).cert) := by
  have hnot := Variable.not_private_of_isFree hfree
  cases h with
  | descriptorOnly => exact absurd hv (storageSet_not_private hk hnot (by decide))
  | unsupported => cases hok
  | verified htb hu _ => exact hu.created_cert hk htb hok hfree hv
  | plain htb _ => exact absurd hv (storageSet_not_private hk hnot htb)

/-- The same for a request that succeeds. -/
theorem handleSetVariable_created_cert (hname : NulFree req.name)
    (h : handleSetVariable ssl m req = some (.success, m'))
    (hfree : (m.storage.vars i).isFree = true) (hv : (m'.storage.vars i).Private) :
    sha256FromAuth (ssl .digest) req.buffer = some (.ok (m'.storage.vars i).cert) := by
  have hk := SetRequest.key_clean hname
  have hnot := Variable.not_private_of_isFree hfree
  by_cases hc : variableClass req.key = .other
  · generalize hstatus : EfiStatus.success = status at h
    cases handleSetVariable_cases h with
    | refused => exact absurd hv hnot
    | plain _ htb _ =>
        rw [Machine.saved_storage] at hv
        exact absurd hv (storageSet_not_private hk hnot htb)
    | authenticated _ _ hl =>
        rw [Machine.saved_storage] at hv ⊢
        exact (hl.of_other hc).created_cert hk hstatus.symm hfree hv
  · exact absurd hv
      (handleSetVariable_secureBoot_free (SetRequest.key_mem_of_class hname hc) h hfree)

/-! ## From creation on -/

/-- One request with a NUL-free name, for which the digest of the signer is the same when
`sha256_from_auth` computes it as when `verify_priv` did; slot `i` is in use after it. -/
structure OwnedStep (i : Fin MAX_VAR_COUNT) (m : Machine) (r : Request P X) (m' : Machine) :
    Prop where
  step : Step m r m'
  name : NulFree r.set.name
  digest : ∀ d d', sha256FromAuth (r.ssl .verify) r.set.buffer = some (.ok d) →
    sha256FromAuth (r.ssl .digest) r.set.buffer = some (.ok d') → d' = d
  used : (m'.storage.vars i).isFree = false

/-- The variable stays private, its `cert` stays, and its data changes for its owner only. -/
theorem OwnedStep.owned {r : Request P X} (h : OwnedStep i m r m')
    (hv : (m.storage.vars i).Private) :
    (m'.storage.vars i).Private ∧ (m'.storage.vars i).cert = (m.storage.vars i).cert ∧
      ((m'.storage.vars i).data ≠ (m.storage.vars i).data →
        r.set.SignedBy (r.ssl .verify) m.storage m' (m.storage.vars i).cert) := by
  obtain ⟨⟨status, hstep⟩, hname, hdigest, hused⟩ := h
  have hgone : (m'.storage.vars i).isFree ≠ true := by
    rw [hused]
    simp
  cases handleSetVariable_private hname hstep hv with
  | kept hsame =>
      rw [hsame]
      exact ⟨hv, rfl, fun hne => absurd rfl hne⟩
  | dropped _ _ hfree => exact absurd hfree hgone
  | byDescriptor _ hfree => exact absurd hfree hgone
  | released _ hfree => exact absurd hfree hgone
  | updated _ hsigned heq hcert =>
      have hc := hcert.elim id (fun hsha => hdigest _ _ hsigned.sha256 hsha)
      rw [heq]
      exact ⟨⟨hv.used, hv.timeBased, hv.other⟩, hc, fun _ => hsigned⟩

end

section
variable {P X : Type} {m₁ m₂ m₃ m₄ : Machine} {i : Fin MAX_VAR_COUNT}

theorem owned_of_run {rs : List (Request P X)} (h : Run (OwnedStep i) m₂ rs m₃)
    (hv : (m₂.storage.vars i).Private) :
    (m₃.storage.vars i).Private ∧ (m₃.storage.vars i).cert = (m₂.storage.vars i).cert := by
  refine h.invariant (I := fun m => (m.storage.vars i).Private ∧
    (m.storage.vars i).cert = (m₂.storage.vars i).cert) ?_ ⟨hv, rfl⟩
  intro m r m' hstep hm
  obtain ⟨hp, hc, _⟩ := hstep.owned hm.1
  exact ⟨hp, hc.trans hm.2⟩

/-- A request fills the empty slot `i` with a private variable, and then any requests are
handled that leave the slot in use.  The request that created the variable, if it succeeded,
recorded its signer's digest; `cert` is that digest at every later time, and a request that
changes the data is one that `verify_priv` accepted with signers of that digest. -/
theorem ownership_kept {ssl : Phase → OpenSsl P X} {req : SetRequest} {status : EfiStatus}
    {rs : List (Request P X)} {r : Request P X} (hname : NulFree req.name)
    (hcreate : handleSetVariable ssl m₁ req = some (status, m₂))
    (hfree : (m₁.storage.vars i).isFree = true) (hv : (m₂.storage.vars i).Private)
    (hrun : Run (OwnedStep i) m₂ rs m₃) (hstep : OwnedStep i m₃ r m₄) :
    (status = .success →
      sha256FromAuth (ssl .digest) req.buffer = some (.ok (m₂.storage.vars i).cert)) ∧
    (m₄.storage.vars i).cert = (m₂.storage.vars i).cert ∧
    ((m₄.storage.vars i).data ≠ (m₃.storage.vars i).data →
      r.set.SignedBy (r.ssl .verify) m₃.storage m₄ (m₂.storage.vars i).cert) := by
  obtain ⟨hv₃, hcert⟩ := owned_of_run hrun hv
  obtain ⟨_, hc, hdata⟩ := hstep.owned hv₃
  refine ⟨?_, hc.trans hcert, ?_⟩
  · rintro rfl
    exact handleSetVariable_created_cert hname hcreate hfree hv
  · rw [hcert] at hdata
    exact hdata

end

theorem ownership_kept_A : ∃ m₁ m₂,
    handleSetVariable (fun _ => OpenSsl.accepting) emptyUserMode
      (requestA .accepting 2021 [1] (by decide)).set = some (.success, m₁) ∧
    OwnedStep 0 m₁ (requestA .accepting 2022 [2] (by decide)) m₂ ∧
    (m₂.storage.vars 0).data = [2] ∧
    (requestA .accepting 2022 [2] (by decide)).set.SignedBy OpenSsl.accepting m₁.storage m₂
      (m₁.storage.vars 0).cert := by
  have hall : ((handleSetVariable (fun _ => OpenSsl.accepting) emptyUserMode
      (requestA .accepting 2021 [1] (by decide)).set).bind (fun r =>
        (handleSetVariable (fun _ => OpenSsl.accepting) r.2
          (requestA .accepting 2022 [2] (by decide)).set).map (fun r' =>
            (r.1, decide (r.2.storage.vars 0).Private, (r.2.storage.vars 0).data,
              (r'.2.storage.vars 0).isFree, (r'.2.storage.vars 0).data)))) =
      some (.success, true, [1], false, [2]) := by
    decide +kernel
  have hA : NulFree (wide ['A']) := by decide
  obtain ⟨⟨_, m₁⟩, hcreate, hstep⟩ := Option.bind_eq_some_iff.mp hall
  obtain ⟨⟨status, m₂⟩, hupdate, hr⟩ := Option.map_eq_some_iff.mp hstep
  simp only [Prod.mk.injEq] at hr
  obtain ⟨rfl, hv, hdata₁, hused₂, hdata₂⟩ := hr
  have howned : OwnedStep 0 m₁ (requestA .accepting 2022 [2] (by decide)) m₂ := by
    refine ⟨⟨status, hupdate⟩, hA, ?_, hused₂⟩
    intro d d' hd hd'
    exact Except.ok.inj (Option.some.inj (hd'.symm.trans hd))
  have hkept := ownership_kept hA hcreate (i := 0) Variable.isFree_zero (of_decide_eq_true hv)
    (.nil m₁) howned
  refine ⟨m₁, m₂, hcreate, howned, hdata₂, hkept.2.2 ?_⟩
  rw [hdata₁, hdata₂]
  decide

end Uefistored
