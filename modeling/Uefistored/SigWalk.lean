/-
# `Uefistored.SigWalk` — the loop of `check_signature_list_format`, step by step

`formatWalk` has one answer, `none`, for everything C gives no meaning to or
never returns from.  Here the loop is taken apart: `formatStep` is one test of
its condition and one run of its body, and says which of these it came to.
`WalkStep` is the step relation of the loop, and a run of it is a run of the
loop.

    the function is the iteration of the step              (`formatWalk_eq`)
    no step divides by zero                                (`formatStep_dividesByZero`)
    a step that goes on at the same list                   (`formatStep_zero_iff`)

The loop takes a list of size zero for one of `2 ^ 64 - 28` bytes of entries.
Of the types with a fixed size none divides that; a certificate of the right
size does, and the loop stays at the list for ever (`walkContract_iff`).
-/
import Uefistored.Auth
import Uefistored.SigFormat
import Uefistored.Lib.Run

namespace Uefistored

open Lib SigList

section
variable {P X : Type}

/-! ## One step -/

/-- What one turn of the loop comes to. -/
inductive FormatStep
  /-- The condition of the loop does not hold. -/
  | done
  /-- The function returns `EFI_INVALID_PARAMETER`. -/
  | refused
  /-- A field or a certificate is read outside the object. -/
  | outside
  /-- `SignatureSize` is zero where it divides. -/
  | dividesByZero
  /-- The list is stepped over: its size, and the number of its entries. -/
  | next (listSize entries : Nat)
  deriving DecidableEq, Repr

/-- The body of the loop once type and sizes of the list are read. -/
def formatBody (ssl : OpenSsl P X) (b : Buffer) (pos lsz : Nat) (ty : Guid) (hsz ssz : Nat) :
    FormatStep :=
  match certChecked ssl b pos ty hsz ssz with
  | none => .outside
  | some false => .refused
  | some true =>
    if ssz = 0 then .dividesByZero
    else if bodySize lsz hsz % ssz ≠ 0 then .refused
    else .next lsz (bodySize lsz hsz / ssz)

theorem formatBody_of_cert {ssl : OpenSsl P X} {b : Buffer} {pos lsz : Nat} {ty : Guid}
    {hsz ssz : Nat} (h : certChecked ssl b pos ty hsz ssz = some true) :
    formatBody ssl b pos lsz ty hsz ssz =
      if ssz = 0 then .dividesByZero
      else if bodySize lsz hsz % ssz ≠ 0 then .refused
      else .next lsz (bodySize lsz hsz / ssz) := by
  unfold formatBody
  rw [h]

/-- One turn of the loop, with `left` bytes from `pos` on. -/
def formatStep (ssl : OpenSsl P X) (b : Buffer) (pos left : Nat) : FormatStep :=
  if left = 0 then .done
  else
    match signatureListSize b pos with
    | none => .outside
    | some lsz =>
      if left < lsz then .done
      else
        match signatureType b pos with
        | none => .outside
        | some ty =>
          match supportedSig b pos ty with
          | none => .outside
          | some false => .refused
          | some true =>
            match headerSize b pos, signatureSize b pos with
            | some hsz, some ssz => formatBody ssl b pos lsz ty hsz ssz
            | _, _ => .outside

/-- What the function does with the outcome of a body. -/
theorem formatBody_walk (ssl : OpenSsl P X) (b : Buffer) (fuel pos left count lsz : Nat) (ty : Guid)
    (hsz ssz : Nat) :
    ((certChecked ssl b pos ty hsz ssz).bind fun certOk =>
      if (!certOk) = true then some (.error .invalidParameter)
      else (entryCount lsz hsz ssz).bind fun entries =>
        if bodySize lsz hsz % ssz ≠ 0 then some (.error .invalidParameter)
        else if lsz = 0 then none
        else formatWalk ssl b fuel (pos + lsz) (left - lsz) ((count + entries) % 2 ^ 32)) =
      match formatBody ssl b pos lsz ty hsz ssz with
      | .done => some (.ok (pos, count))
      | .refused => some (.error .invalidParameter)
      | .outside => none
      | .dividesByZero => none
      | .next lsz entries =>
        if lsz = 0 then none
        else formatWalk ssl b fuel (pos + lsz) (left - lsz) ((count + entries) % 2 ^ 32) := by
  unfold formatBody entryCount
  cases certChecked ssl b pos ty hsz ssz with
  | none => rfl
  | some certOk =>
      cases certOk with
      | false => rfl
      | true =>
          rw [Option.bind_some, if_neg (show ¬ (!true) = true by decide)]
          dsimp only
          by_cases h0 : ssz = 0
          · rw [if_pos h0, if_pos h0]
            rfl
          · rw [if_neg h0, if_neg h0, Option.bind_some]
            generalize bodySize lsz hsz = body
            by_cases hrem : body % ssz ≠ 0
            · rw [if_pos hrem, if_pos hrem]
            · rw [if_neg hrem, if_neg hrem]

/-- The function does one step after the other.  On a list of size zero it has no answer. -/
theorem formatWalk_eq (ssl : OpenSsl P X) (b : Buffer) (fuel pos left count : Nat) :
    formatWalk ssl b (fuel + 1) pos left count =
      match formatStep ssl b pos left with
      | .done => some (.ok (pos, count))
      | .refused => some (.error .invalidParameter)
      | .outside => none
      | .dividesByZero => none
      | .next lsz entries =>
        if lsz = 0 then none
        else formatWalk ssl b fuel (pos + lsz) (left - lsz) ((count + entries) % 2 ^ 32) := by
  rw [formatWalk]
  unfold formatStep
  split
  · rfl
  cases hlsz : signatureListSize b pos with
  | none => rfl
  | some lsz =>
      simp only [Option.bind_eq_bind, Option.bind_some]
      split
      · rfl
      cases hty : signatureType b pos with
      | none => rfl
      | some ty =>
          simp only [Option.bind_some]
          cases hsup : supportedSig b pos ty with
          | none => rfl
          | some supported =>
              cases supported with
              | false => rfl
              | true =>
                  cases hhsz : headerSize b pos with
                  | none => rfl
                  | some hsz =>
                      cases hssz : signatureSize b pos with
                      | none => rfl
                      | some ssz =>
                          simp only [Option.bind_some, Option.pure_def, Bool.not_true,
                            Bool.false_eq_true, if_false]
                          rw [← formatBody_walk]

/-! ## What a step can come to -/

section
variable {ssl : OpenSsl P X} {b : Buffer} {pos left lsz entries : Nat}

/-- A step that comes to the division has checked the list. -/
theorem formatBody_vetted {ty : Guid} {hsz ssz : Nat} {r : FormatStep}
    (hlsz : signatureListSize b pos = some lsz) (hty : signatureType b pos = some ty)
    (hsup : supportedSig b pos ty = some true) (hhsz : headerSize b pos = some hsz)
    (hssz : signatureSize b pos = some ssz) (h : formatBody ssl b pos lsz ty hsz ssz = r)
    (hr : r ≠ .refused) (hout : r ≠ .outside) : Vetted ssl b pos ty lsz ssz ∧
      (r = .dividesByZero ∧ ssz = 0 ∨ ssz ≠ 0 ∧ sub64 lsz ESL_SIZE % ssz = 0 ∧
        r = .next lsz (sub64 lsz ESL_SIZE / ssz)) := by
  obtain ⟨hhsz', item, hmem, htype, hdata⟩ := supportedSig_spec hsup
  obtain rfl := Option.some.inj (hhsz.symm.trans hhsz')
  unfold formatBody at h
  split at h
  · exact absurd h.symm hout
  · exact absurd h.symm hr
  rename_i hcert
  have hvetted : Vetted ssl b pos ty lsz ssz := by
    refine ⟨⟨hty, hlsz, hhsz, hssz⟩, ⟨item, hmem, htype, ?_⟩, ?_⟩
    · intro hne
      obtain ⟨ssz', hssz', heq⟩ := hdata hne
      obtain rfl := Option.some.inj (hssz.symm.trans hssz')
      exact heq
    · rintro rfl
      unfold certChecked at hcert
      rwa [if_pos (beq_self_eq_true _)] at hcert
  refine ⟨hvetted, ?_⟩
  rw [show bodySize lsz 0 = sub64 lsz ESL_SIZE from sub64_sub64 lsz ESL_SIZE 0] at h
  split at h
  · rename_i h0
    exact .inl ⟨h.symm, h0⟩
  rename_i h0
  split at h
  · exact absurd h.symm hr
  · rename_i hrem
    exact .inr ⟨h0, not_not.mp hrem, h.symm⟩

/-- Everything a step can come to, with what it has checked by then. -/
theorem formatStep_cases (r : FormatStep) (h : formatStep ssl b pos left = r) :
    r = .done ∨ r = .refused ∨ r = .outside ∨ left ≠ 0 ∧ ∃ ty lsz ssz, lsz ≤ left ∧
      Vetted ssl b pos ty lsz ssz ∧
      (r = .dividesByZero ∧ ssz = 0 ∨ ssz ≠ 0 ∧ sub64 lsz ESL_SIZE % ssz = 0 ∧
        r = .next lsz (sub64 lsz ESL_SIZE / ssz)) := by
  by_cases hr : r = .refused
  · exact .inr (.inl hr)
  by_cases hout : r = .outside
  · exact .inr (.inr (.inl hout))
  unfold formatStep at h
  split at h
  · exact .inl h.symm
  rename_i hleft
  split at h
  · exact .inr (.inr (.inl h.symm))
  rename_i lsz hlsz
  split at h
  · exact .inl h.symm
  rename_i hle
  split at h
  · exact .inr (.inr (.inl h.symm))
  rename_i ty hty
  split at h
  · exact .inr (.inr (.inl h.symm))
  · exact absurd h.symm hr
  rename_i hsup
  split at h
  · rename_i hsz ssz hhsz hssz
    obtain ⟨hvetted, hcase⟩ := formatBody_vetted hlsz hty hsup hhsz hssz h hr hout
    exact .inr (.inr (.inr ⟨hleft, ty, lsz, ssz, Nat.not_lt.mp hle, hvetted, hcase⟩))
  · exact .inr (.inr (.inl h.symm))

/-- A list that is stepped over: not more than there is, and checked. -/
theorem formatStep_next (h : formatStep ssl b pos left = .next lsz entries) :
    left ≠ 0 ∧ lsz ≤ left ∧ ∃ ty ssz, Vetted ssl b pos ty lsz ssz ∧
      sub64 lsz ESL_SIZE % ssz = 0 := by
  rcases formatStep_cases _ h with h | h | h | ⟨hleft, ty, _, ssz, hle, hv, ⟨h, _⟩ | ⟨_, hrem, h⟩⟩
  · cases h
  · cases h
  · cases h
  · cases h
  · obtain ⟨rfl, _⟩ := FormatStep.next.inj h
    exact ⟨hleft, hle, ty, ssz, hv, hrem⟩

/-- **No division by zero.** -/
theorem formatStep_dividesByZero (ssl : OpenSsl P X) (b : Buffer) (pos left : Nat) :
    formatStep ssl b pos left ≠ .dividesByZero := by
  intro h
  rcases formatStep_cases _ h with h | h | h | ⟨_, _, _, ssz, _, hv, ⟨_, h0⟩ | ⟨_, _, h⟩⟩
  · cases h
  · cases h
  · cases h
  · have hge := hv.signatureSize_ge
    rw [h0] at hge
    exact absurd hge (by decide)
  · cases h

/-- A list that the loop does not get past: certificates, of a size that divides `2 ^ 64 - 28`,
in a list that says it has no bytes. -/
def StuckAt (ssl : OpenSsl P X) (b : Buffer) (pos : Nat) : Prop :=
  ∃ ssz, HeaderAt b pos gEfiCertX509Guid 0 ssz ∧ ssz ∣ 2 ^ 64 - ESL_SIZE ∧
    rsaGetPubKeyFromX509 ssl b (pos + ESL_SIZE + GUID_SIZE) (sub64 ssz GUID_SIZE) = some true

/-- No fixed size divides what a list of size zero is taken to hold. -/
theorem zero_x509 : ∀ item ∈ supportedSigs, item.sigDataSize ≠ ANY_SIZE →
    (2 ^ 64 - ESL_SIZE) % (item.sigDataSize + GUID_SIZE) ≠ 0 := by
  decide +kernel

theorem any_of_x509 : ∀ item ∈ supportedSigs, item.sigType = gEfiCertX509Guid →
    item.sigDataSize = ANY_SIZE := by
  decide +kernel

theorem x509_supported : ∃ item ∈ supportedSigs, item.sigType = gEfiCertX509Guid :=
  ⟨⟨gEfiCertX509Guid, 0, ANY_SIZE⟩, by simp [supportedSigs], rfl⟩

/-- Of a list of certificates the table asks for no size but that of the header. -/
theorem supportedSig_x509 (h : headerSize b pos = some 0) :
    supportedSig b pos gEfiCertX509Guid = some true := by
  unfold supportedSig
  split
  · rename_i hnone
    obtain ⟨item, hitem, hty⟩ := x509_supported
    have hno := List.find?_eq_none.mp hnone item hitem
    rw [hty] at hno
    exact absurd (beq_self_eq_true _) hno
  · rename_i item hfind
    have hitem := List.mem_of_find?_eq_some hfind
    have hbeq := List.find?_some hfind
    have hany := any_of_x509 item hitem (eq_of_beq hbeq)
    have h0 := supportedSigs_headerSize item hitem
    unfold sigItemOk
    rw [if_pos hany, h, h0, hany]
    rfl

theorem formatStep_zero_iff :
    (∃ entries, formatStep ssl b pos left = .next 0 entries) ↔ left ≠ 0 ∧ StuckAt ssl b pos := by
  have hwrap : sub64 0 ESL_SIZE = 2 ^ 64 - ESL_SIZE := sub64_of_lt (by decide) (by decide)
  constructor
  · rintro ⟨entries, h⟩
    obtain ⟨hleft, _, ty, ssz, hv, hrem⟩ := formatStep_next h
    rw [hwrap] at hrem
    refine ⟨hleft, ?_⟩
    rcases hv.x509_or_size with rfl | ⟨item, hitem, hany, _, hssz⟩
    · exact ⟨ssz, hv.toHeaderAt, Nat.dvd_of_mod_eq_zero hrem, hv.cert rfl⟩
    · rw [hssz] at hrem
      exact absurd hrem (zero_x509 item hitem hany)
  · rintro ⟨hleft, ssz, hh, hdvd, hcert⟩
    have h0 : ssz ≠ 0 := by
      rintro rfl
      exact absurd (Nat.eq_zero_of_zero_dvd hdvd) (by decide)
    have hrem : sub64 0 ESL_SIZE % ssz = 0 := by
      rw [hwrap]
      exact Nat.mod_eq_zero_of_dvd hdvd
    have hcert' : certChecked ssl b pos gEfiCertX509Guid 0 ssz = some true := by
      unfold certChecked
      rw [if_pos (beq_self_eq_true _), Nat.add_zero]
      exact hcert
    refine ⟨sub64 0 ESL_SIZE / ssz, ?_⟩
    unfold formatStep
    rw [if_neg hleft, hh.listSize_eq]
    dsimp only
    rw [if_neg (Nat.not_lt_zero left), hh.type_eq]
    dsimp only
    rw [supportedSig_x509 hh.headerSize_eq, hh.headerSize_eq, hh.signatureSize_eq]
    dsimp only
    have hbody : bodySize 0 0 = sub64 0 ESL_SIZE := sub64_sub64 0 ESL_SIZE 0
    rw [formatBody_of_cert hcert', hbody, if_neg h0, if_neg (not_not.mpr hrem)]

end

/-! ## Runs of the loop -/

/-- The state of the loop: where it is, and how many bytes there are from there on. -/
structure WalkState where
  pos : Nat
  left : Nat

/-- A turn of the loop that steps over a list of `lsz` bytes. -/
def WalkStep (ssl : OpenSsl P X) (b : Buffer) (s : WalkState) (lsz : Nat) (s' : WalkState) : Prop :=
  (∃ entries, formatStep ssl b s.pos s.left = .next lsz entries) ∧
    s' = ⟨s.pos + lsz, s.left - lsz⟩

/-- What is to hold of every run of the loop over `size` bytes at `off`: their number of turns
is bounded, no turn leaves as many bytes as there were, none divides by zero, and where no
turn reads outside the object the function returns. -/
structure WalkContract (ssl : OpenSsl P X) (b : Buffer) (off size : Nat) : Prop where
  terminates : ∃ n, ∀ lszs s, Run (WalkStep ssl b) ⟨off, size⟩ lszs s → lszs.length ≤ n
  consumes : ∀ lszs s lsz s', Run (WalkStep ssl b) ⟨off, size⟩ lszs s → WalkStep ssl b s lsz s' →
    s'.left < s.left
  divides : ∀ lszs s, Run (WalkStep ssl b) ⟨off, size⟩ lszs s →
    formatStep ssl b s.pos s.left ≠ .dividesByZero
  returns : (∀ lszs s, Run (WalkStep ssl b) ⟨off, size⟩ lszs s →
      formatStep ssl b s.pos s.left ≠ .outside) →
    ∀ name guid, (checkSignatureListFormat ssl name guid b off size).isSome

/-- At a list it does not get past the loop turns as often as one likes. -/
theorem StuckAt.endless {ssl : OpenSsl P X} {b : Buffer} {pos left : Nat}
    (h : StuckAt ssl b pos) (hleft : left ≠ 0) :
    ∀ n, Run (WalkStep ssl b) ⟨pos, left⟩ (List.replicate n 0) ⟨pos, left⟩
  | 0 => .nil _
  | n + 1 => .cons ⟨formatStep_zero_iff.mpr ⟨hleft, h⟩, rfl⟩ (StuckAt.endless h hleft n)

/-- So the function does not return. -/
theorem StuckAt.checkSignatureListFormat {ssl : OpenSsl P X} {b : Buffer} {off size : Nat}
    {name : NameArray} {guid : Guid} {isPk : Bool} (h : StuckAt ssl b off)
    (hkind : formatKind name guid = some isPk) (hsize : size ≠ 0) :
    checkSignatureListFormat ssl name guid b off size = none := by
  obtain ⟨entries, hstep⟩ := formatStep_zero_iff.mpr ⟨hsize, h⟩
  have hwalk : formatWalk ssl b (size + 1) off size 0 = none := by
    rw [formatWalk_eq, hstep]
    exact if_pos rfl
  unfold Uefistored.checkSignatureListFormat
  rw [if_neg hsize, hkind]
  dsimp only
  rw [hwalk]
  rfl

/-- Where the loop does not read outside and comes to no such list, it gets to an answer. -/
theorem formatWalk_isSome {ssl : OpenSsl P X} {b : Buffer} {s₀ : WalkState}
    (hin : ∀ lszs s, Run (WalkStep ssl b) s₀ lszs s → formatStep ssl b s.pos s.left ≠ .outside)
    (hfree : ∀ lszs s, Run (WalkStep ssl b) s₀ lszs s → s.left ≠ 0 → ¬ StuckAt ssl b s.pos) :
    ∀ (fuel count : Nat) {lszs : List Nat} {s : WalkState}, Run (WalkStep ssl b) s₀ lszs s →
      s.left < fuel → (formatWalk ssl b fuel s.pos s.left count).isSome
  | 0, _, _, _, _, hlt => absurd hlt (Nat.not_lt_zero _)
  | fuel + 1, count, lszs, s, hrun, hlt => by
      rw [formatWalk_eq]
      cases hstep : formatStep ssl b s.pos s.left with
      | done => rfl
      | refused => rfl
      | outside => exact absurd hstep (hin lszs s hrun)
      | dividesByZero => exact absurd hstep (formatStep_dividesByZero ssl b s.pos s.left)
      | next lsz entries =>
          have hlsz : lsz ≠ 0 := by
            rintro rfl
            obtain ⟨hleft, hstuck⟩ := formatStep_zero_iff.mp ⟨entries, hstep⟩
            exact hfree lszs s hrun hleft hstuck
          have hle : lsz ≤ s.left := (formatStep_next hstep).2.1
          dsimp only
          rw [if_neg hlsz]
          have hnext : WalkStep ssl b s lsz ⟨s.pos + lsz, s.left - lsz⟩ := ⟨⟨entries, hstep⟩, rfl⟩
          refine formatWalk_isSome hin hfree fuel _ (hrun.snoc hnext) ?_
          show s.left - lsz < fuel
          omega

/-- **The loop ends, consumes a byte in each turn and does not divide by zero, exactly if it
comes to no list of size zero with a certificate whose entry divides `2 ^ 64 - 28`.** -/
theorem walkContract_iff (ssl : OpenSsl P X) (b : Buffer) (off size : Nat) :
    WalkContract ssl b off size ↔
      ∀ lszs s, Run (WalkStep ssl b) ⟨off, size⟩ lszs s → s.left ≠ 0 → ¬ StuckAt ssl b s.pos := by
  constructor
  · intro hc lszs s hrun hleft hstuck
    have hless := hc.consumes lszs s 0 ⟨s.pos + 0, s.left - 0⟩ hrun
      ⟨formatStep_zero_iff.mpr ⟨hleft, hstuck⟩, rfl⟩
    exact lt_irrefl _ hless
  · intro hfree
    have hdown : ∀ lszs s lsz s', Run (WalkStep ssl b) ⟨off, size⟩ lszs s →
        WalkStep ssl b s lsz s' → s'.left < s.left := by
      rintro lszs s lsz _ hrun ⟨⟨entries, hstep⟩, rfl⟩
      have hle := (formatStep_next hstep).2.1
      have hlsz : lsz ≠ 0 := by
        rintro rfl
        obtain ⟨hleft, hstuck⟩ := formatStep_zero_iff.mp ⟨entries, hstep⟩
        exact hfree lszs s hrun hleft hstuck
      show s.left - lsz < s.left
      omega
    refine ⟨⟨size, ?_⟩, hdown, fun _ s _ => formatStep_dividesByZero ssl b s.pos s.left, ?_⟩
    · intro lszs s hrun
      refine hrun.length_le (I := fun s => ∃ lszs, Run (WalkStep ssl b) ⟨off, size⟩ lszs s)
        (μ := WalkState.left) ?_ ?_ ⟨[], .nil _⟩
      · rintro s lsz s' hstep ⟨lszs, hrun⟩
        exact ⟨_, hrun.snoc hstep⟩
      · rintro s lsz s' hstep ⟨lszs, hrun⟩
        exact hdown lszs s lsz s' hrun hstep
    · intro hin name guid
      have hwalk := formatWalk_isSome hin hfree (size + 1) 0 (.nil _) (Nat.lt_succ_self size)
      obtain ⟨r, hr⟩ := Option.isSome_iff_exists.mp hwalk
      unfold checkSignatureListFormat
      split
      · rfl
      · split
        · rfl
        · rw [hr]
          cases r with
          | error status => rfl
          | ok stop =>
              show (if _ then some _ else if _ then some _ else some _ : Option EfiStatus).isSome
              split
              · rfl
              · split
                · rfl
                · rfl

end

/-- A list of certificates that says it has no bytes; an entry of 3491 bytes, a certificate of
3475. -/
def stuckList : List UInt8 :=
  gEfiCertX509Guid.bytes ++ leBytes 4 0 ++ leBytes 4 0 ++ leBytes 4 3491 ++ List.replicate 3491 0

/-- With a parser that takes the certificate, the loop does not end. -/
theorem walkContract_stuckList :
    stuckList.length = 28 + 3491 ∧
    (∀ n, Run (WalkStep OpenSsl.accepting (Buffer.ofList stuckList)) ⟨0, 28 + 3491⟩
      (List.replicate n 0) ⟨0, 28 + 3491⟩) ∧
    checkSignatureListFormat OpenSsl.accepting kekKey.name kekKey.guid (Buffer.ofList stuckList) 0
      (28 + 3491) = none ∧
    ¬ WalkContract OpenSsl.accepting (Buffer.ofList stuckList) 0 (28 + 3491) := by
  have hheader := (Buffer.holds_append.mp (Buffer.holds_ofList stuckList)).1
  have hlen : stuckList.length = 28 + 3491 := by
    simp only [stuckList, List.length_append, length_leBytes, List.length_replicate,
      gEfiCertX509Guid.length_eq]
  have hin : 3475 ≤ ((Buffer.ofList stuckList).upTo 44 3475).length := by
    have hsize : (Buffer.ofList stuckList).size = 28 + 3491 := hlen
    rw [Buffer.length_upTo, hsize]
    omega
  have hcert : rsaGetPubKeyFromX509 OpenSsl.accepting (Buffer.ofList stuckList) 44 3475 =
      some true := by
    unfold rsaGetPubKeyFromX509
    rw [if_neg (by decide), d2iX509At_of_le hin]
    rfl
  have hstuck : StuckAt OpenSsl.accepting (Buffer.ofList stuckList) 0 :=
    ⟨3491, .of_holds (by decide) (by decide) hheader, Nat.dvd_of_mod_eq_zero (by decide),
      by rw [sub64_of_le (by decide) (by decide)]; exact hcert⟩
  refine ⟨hlen, hstuck.endless (by decide), hstuck.checkSignatureListFormat rfl (by decide), ?_⟩
  intro hc
  obtain ⟨n, hn⟩ := hc.terminates
  have hturns := hn _ _ (hstuck.endless (by decide) (n + 1))
  rw [List.length_replicate] at hturns
  exact absurd hturns (Nat.not_succ_le_self n)

end Uefistored
