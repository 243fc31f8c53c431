/-
# `Uefistored.SigStored` — the stored signature lists stay well formed

PK, KEK, db, dbx and dbt are sequences of well-formed `EFI_SIGNATURE_LIST`s if
they are anything.  Every request keeps that, in either mode:

    what is handed to `storage_set` for such a key is well formed   (`Offers.sigLists`)
    a replacement is that, an append puts it behind what is stored  (`Storage.Holds.set`)
    every request                                                   (`Step.sigStored`)
    every run, and the walks over what is stored                    (`sigLists_preserved`)
-/
import Uefistored.SecureBoot
import Uefistored.SigFormat

namespace Uefistored

open Lib

/-! ## A property of the data under a key -/

namespace Storage

/-- Whatever is found under the key `K` has data with `D`. -/
def Holds (D : List UInt8 → Prop) (K : Key) (s : Storage) : Prop :=
  ∀ i, (s.vars i).isMatch K = true → D (s.vars i).data

variable {D : List UInt8 → Prop} {k K : Key} {s : Storage}

/-- A write keeps it if new data have it, alone and behind those to which they are appended. -/
theorem Holds.set (h : s.Holds D K) (hk : k.Clean) (hK : K.Clean) {data : Option (List UInt8)}
    {attrs : Attrs} (hnew : k.Same K → ∀ d, data = some d → d ≠ [] → D d)
    (happend : k.Same K → ∀ d i, data = some d → attrs.append = true → s.findSlot k = some i →
      D ((s.vars i).data ++ d)) : (storageSet s k data attrs).2.Holds D K := by
  intro i hm
  have hr := storageSet_slot (s := s) hk data attrs i
  generalize (storageSet s k data attrs).2.vars i = v at hr hm ⊢
  cases hr with
  | kept => exact h i hm
  | removed =>
      rw [Variable.not_isMatch_of_isFree hK Variable.isFree_zero] at hm
      cases hm
  | replaced _ hd hne hi _ =>
      have hsame : k.Same K := Variable.same_of_isMatch (Storage.findSlot_isMatch hi) hm
      dsimp only
      split
      · rename_i happ
        exact happend hsame _ i hd happ hi
      · exact hnew hsame _ hd hne
  | @created d _ hd hne _ _ =>
      have hcreated := Variable.isMatch_created hk (s.vars i) (s.below i) d attrs.withoutAppend
      exact hnew (Variable.same_of_isMatch hcreated hm) _ hd hne

theorem Holds.mark (h : s.Holds D K) (i : Fin MAX_VAR_COUNT) (time : EfiTime) (cert : Digest) :
    (s.setSlot i { s.vars i with timestamp := time, cert := cert }).Holds D K :=
  Slots.forall_update (Q := fun _ (v : Variable) => v.isMatch K = true → D v.data) h (h i)

theorem Holds.of_mode (h : s.Holds D K) {k : Key} (hk : k ∈ modeKeys) (hK : K ∈ secureBootKeys)
    (value : UInt8) : (storageSet s k (some [value]) RT_BS_ATTRS).2.Holds D K :=
  h.set (modeKeys_clean k hk) (secureBootKeys_clean K hK)
    (fun hsame => absurd hsame (modeKeys_not_secureBoot k hk K hK))
    (fun hsame => absurd hsame (modeKeys_not_secureBoot k hk K hK))

/-- Each of PK, KEK, db, dbx and dbt is absent or a sequence of well-formed lists. -/
def SigStored (s : Storage) : Prop := ∀ K ∈ secureBootKeys, s.Holds SigLists K

end Storage

/-! ## Requests -/

theorem secureBootKeys_formatKind : ∀ K ∈ secureBootKeys,
    (formatKind K.name K.guid).isSome = true := by
  decide +kernel

example : formatKind (nameArray EFI_IMAGE_SECURITY_DATABASE) gEfiGlobalVariableGuid = none := by
  decide +kernel

theorem SetRequest.buffer_isWhole (req : SetRequest) : req.buffer.IsWhole req.data.length :=
  ⟨rfl, req.data_fits.trans_lt (by decide)⟩

section
variable {P X : Type}

theorem Checked.sigLists {ssl : OpenSsl P X} {k : Key} {req : SetRequest} {b : Buffer}
    {off size : Nat} (hder : ssl.DerOnly) (hk : k ∈ secureBootKeys)
    (h : Checked ssl k req.buffer req.data.length b off size) :
    size = 0 ∨ off + size = b.bytes.length ∧ size ≤ MAX_VARIABLE_DATA_SIZE ∧
      SigLists (b.bytes.drop off) := by
  obtain ⟨isPk, hkind⟩ := Option.isSome_iff_exists.mp (secureBootKeys_formatKind k hk)
  have hwhole := h.whole req.buffer_isWhole
  have hformat := h.format
  rw [h.size_eq] at hformat ⊢
  rcases checkSignatureListFormat_sigLists hder hkind hwhole req.data_fits hformat with
    h0 | ⟨hend, hlists⟩
  · exact .inl h0
  · have hfits := req.data_fits
    exact .inr ⟨hend.trans hwhole.1.symm, by omega, hlists⟩

/-- What a request hands over for one of the secure boot variables is well formed. -/
theorem Offers.sigLists {ssl : OpenSsl P X} {k : Key} {req : SetRequest} {attrs a : Attrs}
    {s : Storage} {d : List UInt8} (hder : ssl.DerOnly) (hk : k ∈ secureBootKeys)
    (h : Offers ssl k req.buffer req.data.length attrs s (some d) a) : SigLists d := by
  cases h with
  | plain _ hother =>
      rcases hother with hc | hsb
      · rcases secureBootKeys_class k hk with ⟨hc', _⟩ | ⟨hc', _⟩ | ⟨hc', _⟩ <;>
          · rw [hc] at hc'
            cases hc'
      · rw [secureBootKeys_dispatched k hk] at hsb
        cases hsb
  | payload hc hl =>
      rcases hc.sigLists hder hk with rfl | ⟨hend, _, hlists⟩
      · rw [List.eq_nil_of_length_eq_zero (Buffer.length_slice hl)]
        exact .nil
      · rw [Buffer.slice_of_le hend.le, List.take_of_length_le (by rw [List.length_drop]; omega)]
          at hl
        exact Option.some.inj hl ▸ hlists
  | filtered hc _ _ _ hf hl _ =>
      rcases hc.sigLists hder hk with rfl | ⟨hend, hsize, hlists⟩
      · cases hf
        rw [List.eq_nil_of_length_eq_zero (Buffer.length_slice hl)]
        exact .nil
      · exact filterSignatureList_sigLists hend (hsize.trans_lt (by decide)) hlists hf hl

theorem Step.sigStored {m m' : Machine} {r : Request P X} (h : Step m r m')
    (hname : NulFree r.set.name) (hder : (r.ssl .verify).DerOnly) (hm : m.storage.SigStored) :
    m'.storage.SigStored := by
  obtain ⟨status, h⟩ := h
  refine handleSetVariable_invariant h ?_ ?_ ?_ hm
  · intro _ s data attrs hd hs K hK
    have hlists : r.set.key.Same K → ∀ d, data = some d → SigLists d := by
      rintro hsame d rfl
      have hkey : r.set.key = K := key_eq_of_same hK hsame
      exact hd.sigLists hder (hkey ▸ hK)
    refine (hs K hK).set (SetRequest.key_clean hname) (secureBootKeys_clean K hK)
      (fun hsame d hdata _ => hlists hsame d hdata) ?_
    intro hsame d i hdata _ hi
    have hmatch : (s.vars i).isMatch K = true := by
      rw [← key_eq_of_same hK hsame]
      exact Storage.findSlot_isMatch hi
    exact (hs K hK i hmatch).append (hlists hsame d hdata)
  · intro _ s i time cert _ hs K hK
    exact (hs K hK).mark i time cert
  · intro _ s k value hk hs K hK
    exact (hs K hK).of_mode hk hK value

/-- From any store in which PK, KEK, db, dbx and dbt are well formed, through any requests
with names without NUL: they are well formed at the end, and the loops of
`FilterSignatureList` and of `verify_kek` over what is found come to their end. -/
theorem sigLists_preserved {m m' : Machine} {rs : List (Request P X)}
    (hm : m.storage.SigStored) (hrun : Run Step m rs m')
    (hnames : ∀ r ∈ rs, NulFree r.set.name) (hder : ∀ r ∈ rs, (r.ssl .verify).DerOnly) :
    m'.storage.SigStored ∧ ∀ K ∈ secureBootKeys, ∀ v, storageFindVariable m'.storage K = some v →
      (∀ ty entry, (entryKnown (Buffer.ofList v.data) ty entry (v.data.length + 1) 0
        v.data.length).isSome) ∧
      ∀ (ssl : OpenSsl P X) (pkcs7 : P) (msg : List UInt8),
        (kekLists ssl (Buffer.ofList v.data) pkcs7 msg (v.data.length + 1) 0
          v.data.length).isSome := by
  have hend : m'.storage.SigStored :=
    ((hrun.restrict hnames).restrict hder).invariant (I := fun m => m.storage.SigStored)
      (fun _ _ _ hstep hm => hstep.1.1.sigStored hstep.1.2 hstep.2 hm) hm
  refine ⟨hend, ?_⟩
  intro K hK v hv
  obtain ⟨i, hi, rfl⟩ := Option.map_eq_some_iff.mp hv
  have hlists : SigLists (m'.storage.vars i).data :=
    hend K hK i (Storage.findSlot_isMatch hi)
  exact ⟨hlists.entryKnown_isSome, hlists.kekLists_isSome⟩

end

/-- An oracle that takes for a certificate what begins as one. -/
def OpenSsl.derParsing : OpenSsl Unit Unit :=
  { OpenSsl.accepting with
    d2iX509 := fun bytes _ =>
      match bytes with
      | first :: second :: _ =>
          if first = 0x30 ∧ 0x80 ≤ second.toNat then some () else none
      | _ => none }

theorem OpenSsl.derParsing_derOnly : OpenSsl.derParsing.DerOnly := by
  intro bytes n x h
  match bytes with
  | [] => cases h
  | [_] => cases h
  | first :: second :: rest =>
      obtain ⟨hcond, _⟩ := Option.ite_none_right_eq_some.mp h
      exact ⟨second, rest, by rw [hcond.1], hcond.2⟩

/-- A signature list with one X.509 entry, of which the certificate has only its tag and the
first byte of its length. -/
def derCertList : List UInt8 :=
  gEfiCertX509Guid.bytes ++ leBytes 4 (ESL_SIZE + GUID_SIZE + 2) ++ leBytes 4 0 ++
    leBytes 4 (GUID_SIZE + 2) ++ List.replicate GUID_SIZE 0 ++ [0x30, 0x82]

/-- The request to enrol it as KEK. -/
def enrolDerKek : Request Unit Unit where
  ssl := fun _ => .derParsing
  set := authRequest EFI_KEY_EXCHANGE_KEY_NAME gEfiGlobalVariableGuid 2021 AT_ATTRS derCertList
    (by decide)

theorem sigLists_preserved_enrolDerKek : ∃ m' v, Run Step freshMachine [enrolDerKek] m' ∧
    storageFindVariable m'.storage kekKey = some v ∧ v.data = derCertList ∧
    m'.storage.SigStored ∧
    (kekLists OpenSsl.derParsing (Buffer.ofList v.data) () [] (v.data.length + 1) 0
      v.data.length).isSome := by
  have hrun : (handleAll freshMachine [enrolDerKek]).bind (fun m =>
      (storageFindVariable m.storage kekKey).map Variable.data) = some derCertList := by
    decide +kernel
  obtain ⟨m', hm', hfind⟩ := Option.bind_eq_some_iff.mp hrun
  obtain ⟨v, hv, hdata⟩ := Option.map_eq_some_iff.mp hfind
  have hstart : freshMachine.storage.SigStored := by
    intro K hK i hi
    rw [show (freshMachine.storage.vars i).isMatch K = false from
      Variable.not_isMatch_of_isFree (secureBootKeys_clean K hK) Variable.isFree_zero] at hi
    cases hi
  have hrun := run_iff_handleAll.mpr hm'
  have hder : ∀ r ∈ [enrolDerKek], (r.ssl .verify).DerOnly := by
    intro r hr
    rw [List.mem_singleton.mp hr]
    exact OpenSsl.derParsing_derOnly
  obtain ⟨hend, hwalks⟩ := sigLists_preserved hstart hrun (by decide +kernel) hder
  exact ⟨m', v, hrun, hv, hdata, hend,
    (hwalks kekKey (by simp [secureBootKeys]) v hv).2 .derParsing () []⟩

end Uefistored
