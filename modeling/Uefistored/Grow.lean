/-
# `Uefistored.Grow` — what is stored for secure boot stays, until it is replaced

PK, KEK, db, dbx and dbt can be written in two ways: with
`EFI_VARIABLE_APPEND_WRITE`, which adds to what is stored, and without, which replaces
or deletes it.  A list of revoked images is worth something only if the first way
cannot take anything back.

`secureBootData_grows`: in a run of requests, what was stored under such a key is still
the front of what is stored there, with the same attributes; or the run has a request
that names the key and has no `EFI_VARIABLE_APPEND_WRITE`.  The lemma it turns on is
`Storage.Begins.append`: an append leaves the data alone or puts something behind them, whether
the filter dropped known signatures, the space was too small, or the attempt with PK
failed and the one with KEK followed.
-/
import Uefistored.Append

namespace Uefistored

open Lib

/-- Under `K` there are data that begin with `d`, with the attributes `a`. -/
def Storage.Begins (K : Key) (a : Attrs) (d : List UInt8) (s : Storage) : Prop :=
  ∃ v, storageFindVariable s K = some v ∧ v.attrs = a ∧ d <+: v.data

theorem Storage.begins_iff {K : Key} {a : Attrs} {d : List UInt8} {s : Storage} :
    s.Begins K a d ↔ ∃ d', view s K = some (a, d') ∧ d <+: d' := by
  constructor
  · rintro ⟨v, hv, rfl, hd⟩
    exact ⟨v.data, by rw [view, hv]; rfl, hd⟩
  · rintro ⟨d', hview, hd⟩
    obtain ⟨v, hv, heq⟩ := Option.map_eq_some_iff.mp hview
    cases heq
    exact ⟨v, hv, rfl, hd⟩

namespace Storage.Begins

variable {K : Key} {a : Attrs} {d : List UInt8} {s s' : Storage}

theorem of_find (h : s.Begins K a d) (hfind : storageFindVariable s' K = storageFindVariable s K) :
    s'.Begins K a d := by
  obtain ⟨v, hv, ha, hd⟩ := h
  exact ⟨v, hfind.trans hv, ha, hd⟩

/-- The slot of the variable is changed, but not its attributes and not the front of its data. -/
theorem setSlot {i : Fin MAX_VAR_COUNT} {v : Variable} (h : s.Begins K a d)
    (hi : s.findSlot K = some i) (hmatch : v.isMatch K = true) (hattrs : v.attrs = (s.vars i).attrs)
    (hdata : (s.vars i).data <+: v.data) : (s.setSlot i v).Begins K a d := by
  obtain ⟨w, hw, rfl, hd⟩ := h
  rw [storageFindVariable_eq hi] at hw
  obtain rfl := Option.some.inj hw
  have hfind : (s.setSlot i v).findSlot K = some i := Slots.first_update_self hi hmatch
  refine ⟨v, ?_, hattrs, hd.trans hdata⟩
  rw [storageFindVariable_eq hfind, Storage.setSlot_vars, Function.update_self]

/-- An append leaves the data alone, or puts something behind them. -/
theorem append (h : s.Begins K a d) (hK : K.Clean) {l : List UInt8} {attrs : Attrs}
    (happ : attrs.append = true) : (storageSet s K (some l) attrs).2.Begins K a d := by
  by_cases hl : l = []
  · subst hl
    rcases storageSet_nil (s := s) hK (Attrs.ne_zero_of_append happ) with ⟨-, hsame⟩ | ⟨hno, -⟩
    · rw [hsame]
      exact h
    · rw [happ] at hno
      cases hno
  · obtain ⟨i, hi⟩ : ∃ i, s.findSlot K = some i := by
      obtain ⟨v, hv, -⟩ := h
      cases hfind : s.findSlot K with
      | none =>
          rw [storageFindVariable_eq_none.mpr hfind] at hv
          cases hv
      | some i => exact ⟨i, rfl⟩
    rw [storageSet_append hK hi happ hl]
    refine h.setSlot hi (Storage.findSlot_isMatch hi) rfl ?_
    unfold appendedData
    split
    · exact List.prefix_append ..
    · exact List.prefix_rfl

theorem mark (h : s.Begins K a d) {i : Fin MAX_VAR_COUNT} (hi : s.findSlot K = some i)
    (time : EfiTime) (cert : Digest) :
    (s.setSlot i { s.vars i with timestamp := time, cert := cert }).Begins K a d :=
  h.setSlot hi (Storage.findSlot_isMatch hi) rfl List.prefix_rfl

end Storage.Begins

section
variable {P X : Type} {K : Key} {a : Attrs} {d : List UInt8} {m m' : Machine}

/-- A request that appends, or that is for another variable. -/
theorem Step.begins {r : Request P X} (hK : K ∈ secureBootKeys) (hstep : Step m r m')
    (hname : NulFree r.set.name) (happ : r.set.key = K → r.set.attrs.append = true)
    (hm : m.storage.Begins K a d) : m'.storage.Begins K a d := by
  obtain ⟨status, h⟩ := hstep
  have hclean := secureBootKeys_clean K hK
  by_cases hkey : r.set.key = K
  · obtain ⟨hdispatch, hclass⟩ := secureBootKeys_dispatch K hK
    have hother : variableClass r.set.key ≠ .other := by
      rw [hkey]
      rcases hclass with ⟨hc, -⟩ | ⟨hc, -⟩ | ⟨hc, -⟩ <;> simp [hc]
    have happ := happ hkey
    refine handleSetVariable_invariant h (I := Storage.Begins K a d) ?_ ?_ ?_ hm
    · intro _ s data attrs hoffer hs
      rw [hkey]
      cases hoffer with
      | plain _ hwhich =>
          rw [hkey, hdispatch] at hwhich
          rcases hwhich with hwhich | hwhich
          · exact absurd (hkey ▸ hwhich) hother
          · cases hwhich
      | nothing hwhich => exact absurd hwhich hother
      | payload => exact hs.append hclean happ
      | filtered => exact hs.append hclean happ
    · intro _ s i time cert hi hs
      exact hs.mark (hkey ▸ hi) time cert
    · intro _ s K' value hK' hs
      have hwrite : Writes (· = K') s (storageSet s K' (some [value]) RT_BS_ATTRS).2 :=
        .single (k := K') rfl (.set _ _)
      refine hs.of_find (hwrite.find_eq ?_)
      rintro k rfl
      exact (modeKeys_clean k hK').spares hclean (modeKeys_not_secureBoot k hK' K hK)
  · refine hm.of_find (view_eq_of_other hname h hK ?_)
    exact fun hsame => hkey (key_eq_of_same hK hsame)

/-- In every run of requests with NUL-free names, the data of a secure boot variable are still
the front of what is stored, with the same attributes; or there was a request for it without
`EFI_VARIABLE_APPEND_WRITE`, and this request changed it. -/
theorem secureBootData_grows {rs : List (Request P X)} (hK : K ∈ secureBootKeys)
    (hview : view m.storage K = some (a, d)) (hrun : Run Step m rs m')
    (hnames : ∀ r ∈ rs, NulFree r.set.name) :
    (∃ d', view m'.storage K = some (a, d') ∧ d <+: d') ∨
      ∃ rs₁ r rs₂ m₁ m₂, rs = rs₁ ++ r :: rs₂ ∧ Run Step m rs₁ m₁ ∧ Step m₁ r m₂ ∧
        Run Step m₂ rs₂ m' ∧ r.set.key = K ∧ r.set.attrs.append = false ∧
        view m₂.storage K ≠ view m₁.storage K := by
  have hbegins : m.storage.Begins K a d := Storage.begins_iff.mpr ⟨d, hview, List.prefix_rfl⟩
  have hstep : ∀ (m₁ : Machine) (r : Request P X) (m₂ : Machine),
      Step m₁ r m₂ ∧ NulFree r.set.name → m₁.storage.Begins K a d →
      m₂.storage.Begins K a d ∨ (r.set.key = K ∧ r.set.attrs.append = false ∧
        view m₂.storage K ≠ view m₁.storage K) := by
    rintro m₁ r m₂ ⟨hx, hname⟩ h₁
    by_cases happ : r.set.key = K → r.set.attrs.append = true
    · exact .inl (hx.begins hK hname happ h₁)
    · rw [Classical.not_imp, Bool.not_eq_true] at happ
      by_cases hsame : view m₂.storage K = view m₁.storage K
      · left
        rw [Storage.begins_iff, hsame]
        exact Storage.begins_iff.mp h₁
      · exact .inr ⟨happ.1, happ.2, hsame⟩
  rcases (hrun.restrict hnames).holds_or_breaks hstep hbegins with
    hend | ⟨rs₁, r, rs₂, m₁, m₂, hsplit, hfront, hx, hback, -, hbreak⟩
  · exact .inl (Storage.begins_iff.mp hend)
  · exact .inr ⟨rs₁, r, rs₂, m₁, m₂, hsplit, hfront.mono (fun _ _ _ h => h.1), hx.1,
      hback.mono (fun _ _ _ h => h.1), hbreak⟩

end

/-- A request that appends the digest 3 to dbx, signed in the year. -/
def appendDigest (year : UInt16) : Request Unit Unit where
  ssl := fun _ => .accepting
  set := authRequest EFI_IMAGE_SECURITY_DATABASE1 gEfiImageSecurityDatabaseGuid year
    (AT_ATTRS ||| EFI_VARIABLE_APPEND_WRITE) (encodeAll [digestEsl [3] (by decide)])
    ⟨by decide, by decide +kernel⟩

/-- It is applied to a dbx with the digests 1 and 2, twice. -/
theorem secureBootData_grows_digests : ∃ m' d',
    Run Step (.ofStorage digestStore .setup) [appendDigest 2021, appendDigest 2022] m' ∧
      view m'.storage dbxKey = some (AT_ATTRS, d') ∧
      encodeAll [digestEsl [1, 2] (by decide)] <+: d' := by
  have hrun : ((handleAll (.ofStorage digestStore .setup)
      [appendDigest 2021, appendDigest 2022]).map (fun _ => ())) = some () := by
    decide +kernel
  obtain ⟨m', hm', -⟩ := Option.map_eq_some_iff.mp hrun
  have hrun := run_iff_handleAll.mpr hm'
  have hview : view (Machine.ofStorage digestStore .setup).storage dbxKey =
      some (AT_ATTRS, encodeAll [digestEsl [1, 2] (by decide)]) := by
    decide +kernel
  rcases secureBootData_grows (by decide +kernel) hview hrun (by decide +kernel) with
    ⟨d', hd', hfront⟩ | ⟨rs₁, r, rs₂, m₁, m₂, hsplit, -, -, -, -, hno, -⟩
  · exact ⟨m', d', hrun, hd', hfront⟩
  · -- both requests append
    have hmem : r ∈ [appendDigest 2021, appendDigest 2022] := hsplit ▸ by simp
    have hall : ∀ r ∈ [appendDigest 2021, appendDigest 2022], r.set.attrs.append = true := by
      intro r hr
      simp only [List.mem_cons, List.not_mem_nil, or_false] at hr
      rcases hr with rfl | rfl <;> decide
    rw [hall r hmem] at hno
    cases hno

end Uefistored
