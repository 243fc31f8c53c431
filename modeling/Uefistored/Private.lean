/-
# `Uefistored.Private` — variables that belong to their signer

A variable with time-based authentication that is none of the secure boot
variables belongs to whoever signed it first: `cert` holds the digest of that
signer, and `verify_priv` compares it.

`PrivateStep` says what one request can do to such a variable.  It is left
alone, or the request names it and

    carries no time-based attribute, and deletes it      (`dropped`)
    is the descriptor alone, and deletes it              (`byDescriptor`)
    is signed by the owner, and deletes or updates it    (`released`, `updated`)

`deletions_guarded` reads the deletions off, over a run; the first of them is
no more than what `storage_set` does, since nothing on the way there looks at
the stored attributes.
-/
import Uefistored.SecureBoot
import Uefistored.Written

namespace Uefistored

open Lib

/-- A variable with time-based authentication other than PK, KEK, db, dbx and dbt. -/
structure Variable.Private (v : Variable) : Prop where
  used : v.isFree = false
  timeBased : v.attrs.timeBased = true
  other : ∀ K ∈ secureBootKeys, v.isMatch K = false

instance (v : Variable) : Decidable v.Private :=
  decidable_of_iff (v.isFree = false ∧ v.attrs.timeBased = true ∧
      ∀ K ∈ secureBootKeys, v.isMatch K = false)
    ⟨fun h => ⟨h.1, h.2.1, h.2.2⟩, fun h => ⟨h.used, h.timeBased, h.other⟩⟩

theorem Variable.isMatch_of_isVar {v : Variable} {w : List UInt8} {g : Guid}
    (hw : w.length ≤ MAX_VARIABLE_NAME_SIZE) (hg : v.guid = g) (h : isVar v w = true) :
    v.isMatch (Key.of w g) = true := by
  simp only [isVar, Bool.and_eq_true, beq_iff_eq] at h
  exact Variable.isMatch_iff.mpr ⟨h.1, by rw [Key.bytes_of hw]; exact h.2, hg⟩

/-- The variables whose appends are filtered are secure boot variables. -/
theorem Variable.Private.not_isSigList {v : Variable} (hv : v.Private) :
    isSigListVariable v = false := by
  by_contra hsig
  rw [Bool.not_eq_false] at hsig
  have hno : ∀ {w g}, w.length ≤ MAX_VARIABLE_NAME_SIZE → Key.of w g ∈ secureBootKeys →
      v.guid = g → isVar v w ≠ true := by
    intro w g hw hmem hg hvar
    have hmatch := Variable.isMatch_of_isVar hw hg hvar
    rw [hv.other _ hmem] at hmatch
    cases hmatch
  simp only [isSigListVariable, Bool.or_eq_true, Bool.and_eq_true, beq_iff_eq] at hsig
  rcases hsig with ⟨hg, (h | h) | h⟩ | ⟨hg, h⟩
  · exact hno (by decide) (by simp [secureBootKeys, databaseKeys, dbKey]) hg h
  · exact hno (by decide) (by simp [secureBootKeys, databaseKeys, dbxKey]) hg h
  · exact hno (by decide) (by simp [secureBootKeys, databaseKeys, dbtKey]) hg h
  · exact hno (by decide) (by simp [secureBootKeys, kekKey]) hg h

/-! ## Writes without authentication -/

/-- A `storage_set` without the time-based attribute cannot change such a variable, only
delete it: the attributes are not the stored ones. -/
theorem storageSet_private {s : Storage} {k : Key} (hk : k.Clean) {i : Fin MAX_VAR_COUNT}
    (hv : (s.vars i).Private) {data : Option (List UInt8)} {attrs : Attrs}
    (htb : attrs.timeBased = false) :
    (storageSet s k data attrs).2.vars i = s.vars i ∨
      asksRemoval data attrs = true ∧ s.findSlot k = some i ∧
        ((storageSet s k data attrs).2.vars i).isFree = true := by
  have h := storageSet_slot (s := s) hk data attrs i
  generalize (storageSet s k data attrs).2.vars i = v at h ⊢
  cases h with
  | kept => exact .inl rfl
  | removed hrem hi => exact .inr ⟨hrem, hi, Variable.isFree_zero⟩
  | replaced _ _ _ _ hattrs =>
      have hstored := hv.timeBased
      rw [hattrs, Attrs.timeBased_withoutAppend, htb] at hstored
      cases hstored
  | created _ _ _ _ hj => exact absurd rfl (freeSlot_ne hv.used hj)

theorem setModeVariables_private {i : Fin MAX_VAR_COUNT} : ∀ (s : Storage)
    (l : List (Key × UInt8)), (∀ k ∈ l.map Prod.fst, k.Clean) → (s.vars i).Private →
    (setModeVariables s l).2.vars i = s.vars i
  | _, [], _, _ => rfl
  | s, (k, value) :: rest, hl, hv => by
      have hset : (storageSet s k (some [value]) RT_BS_ATTRS).2.vars i = s.vars i := by
        have hrem : asksRemoval (some [value]) RT_BS_ATTRS = false := rfl
        have htb : RT_BS_ATTRS.timeBased = false := by decide
        rcases storageSet_private (hl k (by simp)) hv htb with h | ⟨h, _⟩
        · exact h
        · rw [hrem] at h
          cases h
      unfold setModeVariables
      split
      · rename_i s₁ hs
        rw [hs] at hset
        rw [setModeVariables_private s₁ rest (fun k' hk' => hl k' (List.mem_cons_of_mem _ hk'))
          (by rw [hset]; exact hv), hset]
      · rename_i hs
        rw [hs] at hset
        exact hset

section
variable {P X : Type} {ssl : Phase → OpenSsl P X} {m m' : Machine} {req : SetRequest}
  {i : Fin MAX_VAR_COUNT}

/-- A request for a secure boot variable, with the mode change behind it. -/
theorem handleSetVariable_secureBoot {status : EfiStatus} (hk : req.key ∈ secureBootKeys)
    (h : handleSetVariable ssl m req = some (status, m')) (hv : (m.storage.vars i).Private) :
    m'.storage.vars i = m.storage.vars i := by
  obtain ⟨mid, hmid, hm⟩ := handleSetVariable_effect h
  have hmidvar : mid.storage.vars i = m.storage.vars i := by
    refine (hmid.writes.frame (Q := Variable.Touched req.key) ?_).eq_of_not ?_
    · rintro _ rfl v ht
      exact ht
    · rintro (hfree | hhit)
      · rw [hv.used] at hfree
        cases hfree
      · have hmatch := hhit.isMatch (secureBootKeys_clean _ hk)
        rw [hv.other _ hk] at hmatch
        cases hmatch
  rcases hm with ⟨hst, _⟩ | ⟨_, mode, hst, _⟩
  · rw [hst, hmidvar]
  · rw [hst, ← hmidvar]
    refine setModeVariables_private mid.storage _ ?_ (by rw [hmidvar]; exact hv)
    rw [modeVariables_keys]
    exact modeKeys_clean

/-! ## Signed requests -/

/-- What `verify_priv` checked when it returned true. -/
theorem verifyPriv_true {ssl : OpenSsl P X} {s : Storage} {k : Key} {auth : Buffer}
    {msg : List UInt8} (h : verifyPriv ssl s k auth msg = some true) :
    ∃ pkcs7 top digest, pkcs7FromAuth ssl auth = some (some pkcs7) ∧
      signerDigest ssl pkcs7 = some (top, digest) ∧ pkcs7Verify ssl pkcs7 top msg = true ∧
      ∀ v, storageFindVariable s k = some v → v.cert = digest := by
  unfold verifyPriv at h
  obtain ⟨p, hp, h⟩ := Option.bind_eq_some_iff.mp h
  cases p with
  | none => cases h
  | some pkcs7 =>
      dsimp only at h
      split at h
      · cases h
      · rename_i top digest hd
        split at h
        · cases h
        · rename_i hcert
          refine ⟨pkcs7, top, digest, hp, hd, Option.some.inj h, ?_⟩
          intro v hv
          rw [hv] at hcert
          simpa using hcert

/-- `verify_priv` returned true for the request, on its message and with signers of the
given digest, and the call is on record. -/
def SetRequest.SignedBy (req : SetRequest) (ssl : OpenSsl P X) (s : Storage) (m' : Machine)
    (digest : Digest) : Prop :=
  ∃ msg pkcs7 top, requestMessage req = some msg ∧
    verifyPriv ssl s req.key req.buffer msg = some true ∧
    pkcs7FromAuth ssl req.buffer = some (some pkcs7) ∧
    signerDigest ssl pkcs7 = some (top, digest) ∧ pkcs7Verify ssl pkcs7 top msg = true ∧
    ⟨.priv, msg, true⟩ ∈ m'.calls

/-- The digest is the one `sha256_from_auth` computes from the same blob. -/
theorem SetRequest.SignedBy.sha256 {ssl : OpenSsl P X} {s : Storage} {digest : Digest}
    (h : req.SignedBy ssl s m' digest) : sha256FromAuth ssl req.buffer = some (.ok digest) := by
  obtain ⟨_, pkcs7, top, _, _, hp, hd, _⟩ := h
  refine Option.bind_eq_some_iff.mpr ⟨_, hp, ?_⟩
  dsimp only
  rw [hd]
  rfl

/-- An accepted request for a stored variable is signed by its owner. -/
theorem Accepted.signedBy {ssl : OpenSsl P X} {s : Storage} {off size : Nat} {msg : List UInt8}
    {time : EfiTime} (hacc : Accepted ssl s req.key req.buffer req.data.length req.attrs .priv
      off size msg time) (hi : s.findSlot req.key = some i)
    (hc : ⟨.priv, msg, true⟩ ∈ m'.calls) : req.SignedBy ssl s m' (s.vars i).cert := by
  have hv : verifyPriv ssl s req.key req.buffer msg = some true := hacc.verified
  obtain ⟨pkcs7, top, digest, hp, hd, hver, hcert⟩ := verifyPriv_true hv
  rw [hcert _ (storageFindVariable_eq hi)]
  exact ⟨msg, pkcs7, top, hacc.described.requestMessage_eq, hv, hp, hd, hver, hc⟩

/-! ## One request -/

/-- What a request can do to the private variable in slot `i`. -/
inductive PrivateStep (ssl : Phase → OpenSsl P X) (m : Machine) (req : SetRequest)
    (m' : Machine) (i : Fin MAX_VAR_COUNT) : Prop
  | kept : m'.storage.vars i = m.storage.vars i → PrivateStep ssl m req m' i
  /-- Deleted by a request without the time-based attribute. -/
  | dropped : req.attrs.timeBased = false → m.storage.findSlot req.key = some i →
      (m'.storage.vars i).isFree = true → PrivateStep ssl m req m' i
  /-- Deleted by a descriptor with nothing behind it, under the stored attributes. -/
  | byDescriptor : m.storage.findSlot req.key = some i →
      (m'.storage.vars i).isFree = true → req.attrs = (m.storage.vars i).attrs →
      authInfo2Size req.buffer = some req.data.length → PrivateStep ssl m req m' i
  /-- Deleted by its owner. -/
  | released : m.storage.findSlot req.key = some i → (m'.storage.vars i).isFree = true →
      req.SignedBy (ssl .verify) m.storage m' (m.storage.vars i).cert →
      PrivateStep ssl m req m' i
  /-- Updated by its owner. -/
  | updated {d : List UInt8} {time : EfiTime} {cert : Digest} :
      m.storage.findSlot req.key = some i →
      req.SignedBy (ssl .verify) m.storage m' (m.storage.vars i).cert →
      m'.storage.vars i =
        { m.storage.vars i with data := d, timestamp := time, cert := cert } →
      (cert = (m.storage.vars i).cert ∨
        sha256FromAuth (ssl .digest) req.buffer = some (.ok cert)) →
      PrivateStep ssl m req m' i

/-- A verified write goes to the variable it names. -/
theorem Wrote.private {s s' : Storage} {k : Key} {attrs : Attrs} {time : EfiTime}
    {j : Fin MAX_VAR_COUNT} (hv : (s.vars i).Private) (h : Wrote s k attrs time j s') :
    s'.vars i = s.vars i ∧ j ≠ i ∨ j = i ∧ s.findSlot k = some i ∧
      ∃ d, s'.vars i = { s.vars i with data := d, timestamp := time } := by
  by_cases hij : j = i
  · subst hij
    cases h with
    | nothingNew _ _ hsig =>
        rw [hv.not_isSigList] at hsig
        cases hsig
    | @stamped d hj _ =>
        refine .inr ⟨rfl, hj, d, ?_⟩
        rw [Storage.setSlot_vars, Function.update_self]
    | created _ hfree => exact absurd rfl (freeSlot_ne hv.used hfree)
  · exact .inl ⟨h.other (Ne.symm hij), hij⟩

/-- The request that `is_delete_auth_variable` accepts. -/
theorem isDeleteAuthVariable_true {orgAttrs : Attrs} (htb : orgAttrs.timeBased = true)
    (h : isDeleteAuthVariable orgAttrs req.buffer req.data.length req.attrs = some true) :
    req.attrs = orgAttrs ∧ authInfo2Size req.buffer = some req.data.length := by
  unfold isDeleteAuthVariable at h
  split at h
  · rename_i hcond
    simp only [Bool.and_eq_true, beq_iff_eq] at hcond
    rw [hcond.1, if_pos htb] at h
    obtain ⟨off, hoff, h⟩ := Option.bind_eq_some_iff.mp h
    refine ⟨hcond.1, ?_⟩
    have hzero : sub64 req.data.length off = 0 := by simpa using h
    have hlen : req.data.length < 2 ^ 64 :=
      lt_of_le_of_lt req.data_fits (by decide)
    have hofflt : off < 2 ^ 64 := by
      obtain ⟨n, hn, rfl⟩ := Option.map_eq_some_iff.mp hoff
      have := Buffer.num_lt hn
      omega
    rw [hoff, (sub64_eq_zero_iff hlen hofflt).mp hzero]
  · cases h

/-- A deletion or a written slot, behind `verify_priv`. -/
theorem UpdateResult.private {o : Outcome} {del : Bool} (hk : req.key.Clean)
    (htb : req.attrs.timeBased = true) (hv : (m.storage.vars i).Private)
    (hst : m'.storage = o.machine.storage) (hcalls : m'.calls = o.machine.calls)
    (h : UpdateResult ssl (m.opened req) req.key req.buffer req.data.length req.attrs .priv o del) :
    PrivateStep ssl m req m' i := by
  rcases h.unchanged_or_accepted with ⟨hsame, _⟩ | ⟨off, size, msg, time, hacc, hc⟩
  · exact .kept (by rw [hst, hsame]; rfl)
  have hsigned : m.storage.findSlot req.key = some i →
      req.SignedBy (ssl .verify) m.storage m' (m.storage.vars i).cert :=
    fun hi => hacc.signedBy hi (by rw [hcalls]; exact hc)
  -- the digest is taken from the request's own data
  have hdata : ∀ {data' : Buffer}, m.storage.findSlot req.key = some i →
      DataKept m.storage req.key req.buffer data' → data' = req.buffer := by
    rintro data' hi (hkept | ⟨v, hfind, hsig⟩)
    · exact hkept
    · rw [storageFindVariable_eq hi] at hfind
      obtain rfl := Option.some.inj hfind
      rw [hv.not_isSigList] at hsig
      cases hsig
  cases h.settled hk htb with
  | unchanged _ hsame _ => exact .kept (by rw [hst, hsame]; rfl)
  | @deleted j _ _ _ _ _ hj _ hrem _ =>
      by_cases hij : i = j
      · subst hij
        refine .released hj ?_ (hsigned hj)
        rw [hst, hrem]
        show (Function.update m.storage.vars i Variable.zero i).isFree = true
        rw [Function.update_self]
        exact Variable.isFree_zero
      · refine .kept ?_
        rw [hst, hrem]
        exact Function.update_of_ne hij _ _
  | undigested _ hw =>
      rcases hw.private hv with ⟨hsame, _⟩ | ⟨_, hj, d, hd⟩
      · exact .kept (by rw [hst, hsame])
      · exact .updated hj (hsigned hj) (by rw [hst, hd]) (.inl rfl)
  | @recorded j _ _ _ _ _ _ _ hw _ hkept hsha hrec =>
      rcases hw.private hv with ⟨hsame, hij⟩ | ⟨rfl, hj, d, hd⟩
      · refine .kept ?_
        rw [hst, hrec, Storage.setSlot_vars, Function.update_of_ne (Ne.symm hij), hsame]
      · rw [hdata hj hkept] at hsha
        have heq := congrFun (congrArg Storage.vars (hst.trans hrec)) j
        rw [Storage.setSlot_vars, Function.update_self, hd] at heq
        exact .updated hj (hsigned hj) heq (.inr hsha)

theorem VarResult.private {o : Outcome} (hk : req.key.Clean)
    (hv : (m.storage.vars i).Private) (hst : m'.storage = o.machine.storage)
    (hcalls : m'.calls = o.machine.calls)
    (h : VarResult ssl (m.opened req) req.key req.buffer req.data.length req.attrs o) :
    PrivateStep ssl m req m' i := by
  cases h with
  | descriptorOnly hfind hdel =>
      have hzero : (0 : Attrs).timeBased = false := by decide
      rcases storageSet_private hk hv hzero with hsame | ⟨_, hi, hfree⟩
      · exact .kept (by rw [hst]; exact hsame)
      · rw [show storageFindVariable (m.opened req).storage req.key = some (m.storage.vars i) from
          storageFindVariable_eq hi] at hfind
        obtain rfl := Option.some.inj hfind
        obtain ⟨hattrs, hsize⟩ := isDeleteAuthVariable_true hv.timeBased hdel
        exact .byDescriptor hi (by rw [hst]; exact hfree) hattrs hsize
  | unsupported => exact .kept (by rw [hst]; rfl)
  | verified htb hu _ => exact hu.private hk htb hv hst hcalls
  | plain htb _ =>
      rcases storageSet_private hk hv htb with hsame | ⟨_, hi, hfree⟩
      · exact .kept (by rw [hst]; exact hsame)
      · exact .dropped htb hi (by rw [hst]; exact hfree)

/-- What a request with a NUL-free name does to a private variable, whatever the state. -/
theorem handleSetVariable_private {status : EfiStatus} (hname : NulFree req.name)
    (h : handleSetVariable ssl m req = some (status, m')) (hv : (m.storage.vars i).Private) :
    PrivateStep ssl m req m' i := by
  by_cases hc : variableClass req.key = .other
  · have hk := SetRequest.key_clean hname
    cases handleSetVariable_cases h with
    | refused => exact .kept rfl
    | plain _ htb _ =>
        rcases storageSet_private hk hv htb with hsame | ⟨_, hi, hfree⟩
        · exact .kept (by rw [Machine.saved_storage]; exact hsame)
        · exact .dropped htb hi (by rw [Machine.saved_storage]; exact hfree)
    | authenticated _ _ hl =>
        exact (hl.of_other hc).private hk hv (Machine.saved_storage ..) (Machine.saved_calls ..)
  · exact .kept (handleSetVariable_secureBoot (SetRequest.key_mem_of_class hname hc) h hv)

/-! ## Deletions -/

/-- One request with a NUL-free name. -/
structure NamedStep (m : Machine) (r : Request P X) (m' : Machine) : Prop where
  step : Step m r m'
  name : NulFree r.set.name

/-- A request with the time-based attribute deletes a private variable only if it names it
and is signed by its owner, or is the descriptor alone under the stored attributes. -/
def GuardedDeletion (m : Machine) (r : Request P X) (m' : Machine) : Prop :=
  ∀ i, (m.storage.vars i).Private → (m'.storage.vars i).isFree = true →
    r.set.attrs.timeBased = true →
    m.storage.findSlot r.set.key = some i ∧
      (r.set.SignedBy (r.ssl .verify) m.storage m' (m.storage.vars i).cert ∨
        r.set.attrs = (m.storage.vars i).attrs ∧
          authInfo2Size r.set.buffer = some r.set.data.length)

theorem NamedStep.guarded {r : Request P X} (h : NamedStep m r m') : GuardedDeletion m r m' := by
  obtain ⟨⟨status, hstep⟩, hname⟩ := h
  intro i hv hfree htb
  cases handleSetVariable_private hname hstep hv with
  | kept hsame =>
      rw [hsame, hv.used] at hfree
      cases hfree
  | dropped hplain =>
      rw [htb] at hplain
      cases hplain
  | byDescriptor hi _ hattrs hsize => exact ⟨hi, .inr ⟨hattrs, hsize⟩⟩
  | released hi _ hsigned => exact ⟨hi, .inl hsigned⟩
  | updated _ _ heq =>
      rw [heq] at hfree
      exact absurd (hv.used.symm.trans hfree) (by simp)

/-- Every request of every run deletes private variables only so. -/
theorem deletions_guarded {rs : List (Request P X)} (hrun : Run NamedStep m rs m') :
    Run (fun m r m' => NamedStep m r m' ∧ GuardedDeletion m r m') m rs m' :=
  hrun.mono (fun _ _ _ hstep => ⟨hstep, hstep.guarded⟩)

end

/-- A request for the private variable `"A"`, with what OpenSSL answers. -/
def requestA (ssl : OpenSsl Unit Unit) (year : UInt16) (payload : List UInt8)
    (h : payload.length + 41 ≤ MAX_VARIABLE_DATA_SIZE) : Request Unit Unit where
  ssl := fun _ => ssl
  set := authRequest (wide ['A']) gEfiGlobalVariableGuid year AT_ATTRS payload ⟨by decide, h⟩

/-- `"A"` is created and then deleted by its descriptor. -/
def createThenDelete (ssl : OpenSsl Unit Unit) : List (Request Unit Unit) :=
  [requestA .accepting 2021 [1] (by decide), requestA ssl 2020 [] (by decide)]

theorem createThenDelete_named (ssl : OpenSsl Unit Unit) :
    ∀ r ∈ createThenDelete ssl, NulFree r.set.name := by
  have hA : NulFree (wide ['A']) := by decide
  intro r hr
  simp only [createThenDelete, List.mem_cons, List.not_mem_nil, or_false] at hr
  rcases hr with rfl | rfl
  · exact hA
  · exact hA

theorem deletions_guarded_A : ∃ m',
    Run (fun m r m' => NamedStep m r m' ∧ GuardedDeletion m r m') emptyUserMode
      (createThenDelete .accepting) m' ∧ (m'.storage.vars 0).isFree = true := by
  have hall : (handleAll emptyUserMode (createThenDelete .accepting)).map
      (fun m => (m.storage.vars 0).isFree) = some true := by
    decide +kernel
  obtain ⟨m', hm', hfree⟩ := Option.map_eq_some_iff.mp hall
  have hrun : Run NamedStep emptyUserMode (createThenDelete .accepting) m' :=
    ((run_iff_handleAll.mpr hm').restrict (createThenDelete_named _)).mono
      (fun _ _ _ h => ⟨h.1, h.2⟩)
  exact ⟨m', deletions_guarded hrun, hfree⟩

/-- A descriptor that nobody signed, older than the variable, deletes it: `verify_priv` is
not called, and would not have accepted it. -/
theorem deleted_without_signature : ∃ m m',
    Run NamedStep emptyUserMode [requestA .accepting 2021 [1] (by decide)] m ∧
    (m.storage.vars 0).Private ∧
    NamedStep m (requestA .rejecting 2020 [] (by decide)) m' ∧
    (m'.storage.vars 0).isFree = true ∧ m'.calls = [] ∧
    ∀ msg, verifyPriv OpenSsl.rejecting m.storage (requestA .rejecting 2020 [] (by decide)).set.key
      (requestA .rejecting 2020 [] (by decide)).set.buffer msg ≠ some true := by
  have hall : ((handleAll emptyUserMode [requestA .accepting 2021 [1] (by decide)]).bind (fun m =>
      (handleSetVariable (fun _ => OpenSsl.rejecting) m
        (requestA .rejecting 2020 [] (by decide)).set).map (fun r =>
          (decide (m.storage.vars 0).Private, (r.2.storage.vars 0).isFree, r.2.calls)))) =
      some (true, true, []) := by
    decide +kernel
  have hA : NulFree (wide ['A']) := by decide
  obtain ⟨m, hm, hstep⟩ := Option.bind_eq_some_iff.mp hall
  obtain ⟨⟨status, m'⟩, hm', hr⟩ := Option.map_eq_some_iff.mp hstep
  simp only [Prod.mk.injEq] at hr
  obtain ⟨hv, hfree, hcalls⟩ := hr
  have hrun : Run NamedStep emptyUserMode [requestA .accepting 2021 [1] (by decide)] m := by
    refine ((run_iff_handleAll.mpr hm).restrict (C := fun r => NulFree r.set.name) ?_).mono
      (fun _ _ _ h => ⟨h.1, h.2⟩)
    intro r hr
    rw [List.mem_singleton] at hr
    subst hr
    exact hA
  refine ⟨m, m', hrun, of_decide_eq_true hv, ⟨⟨status, hm'⟩, hA⟩, hfree, hcalls, ?_⟩
  intro msg hpriv
  obtain ⟨_, _, _, _, _, hver, _⟩ := verifyPriv_true hpriv
  simp [pkcs7Verify, OpenSsl.rejecting] at hver

end Uefistored
