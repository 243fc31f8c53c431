/-
# `Uefistored.Offers` — what a request hands to `storage_set`

`WriteOf W k` is one write with the key `k` in which `storage_set` is handed
data and attributes that `W` allows.  `Offers` is the `W` of a request: where
the data come from, and what has been checked about them.

    the data as they are          variables that are not authenticated
    nothing, with attributes 0    a deletion by the descriptor alone
    the payload                   behind the descriptor, and `check_signature_list_format`
                                  accepted it
    a filtered payload            the same for an append, less what is stored already

A request that tries twice hands the second attempt the buffer that the first
one may have filtered in place; the buffer keeps its size (`Fed.whole`), so the
second payload ends where the data end as well.
-/
import Mathlib.Logic.Relation
import Uefistored.AuthLib
import Uefistored.Filter
import Uefistored.Update

namespace Uefistored

open Lib

/-! ## Writes of what is allowed -/

/-- One write with the key `k`, in which `storage_set` is handed what `W` allows. -/
inductive WriteOf (W : Storage → Option (List UInt8) → Attrs → Prop) (k : Key) (s : Storage) :
    Storage → Prop
  | set {data : Option (List UInt8)} {attrs : Attrs} : W s data attrs →
      WriteOf W k s (storageSet s k data attrs).2
  | mark {i : Fin MAX_VAR_COUNT} (time : EfiTime) (cert : Digest) : s.findSlot k = some i →
      WriteOf W k s (s.setSlot i { s.vars i with timestamp := time, cert := cert })

/-- Any number of them. -/
def WritesOf (W : Storage → Option (List UInt8) → Attrs → Prop) (k : Key) :
    Storage → Storage → Prop :=
  Relation.ReflTransGen (WriteOf W k)

namespace WritesOf

variable {W W' : Storage → Option (List UInt8) → Attrs → Prop} {k : Key} {s s' s'' : Storage}

theorem refl (s : Storage) : WritesOf W k s s := Relation.ReflTransGen.refl

theorem trans (h : WritesOf W k s s') (h' : WritesOf W k s' s'') : WritesOf W k s s'' :=
  Relation.ReflTransGen.trans h h'

theorem single (h : WriteOf W k s s') : WritesOf W k s s' := Relation.ReflTransGen.single h

theorem mono (hW : ∀ s data attrs, W s data attrs → W' s data attrs) (h : WritesOf W k s s') :
    WritesOf W' k s s' := by
  refine Relation.ReflTransGen.mono ?_ _ _ h
  intro s s' hw
  cases hw with
  | set hd => exact .set (hW _ _ _ hd)
  | mark time cert hi => exact .mark time cert hi

/-- What every single write preserves, any number of them preserves. -/
theorem invariant {I : Storage → Prop} (hstep : ∀ s s', WriteOf W k s s' → I s → I s')
    (h : WritesOf W k s s') (hs : I s) : I s' := by
  induction h with
  | refl => exact hs
  | tail _ hw ih => exact hstep _ _ hw ih

end WritesOf

theorem storageSetWithTimestamp_writesOf {W : Storage → Option (List UInt8) → Attrs → Prop}
    {s : Storage} {data : Option (List UInt8)} {attrs : Attrs} (h : W s data attrs) (k : Key)
    (time : EfiTime) : WritesOf W k s (storageSetWithTimestamp s k data attrs time).2 := by
  have hset : WritesOf W k s (storageSet s k data attrs).2 := .single (.set h)
  unfold storageSetWithTimestamp
  split
  · exact .refl s
  · dsimp only
    split
    · exact hset
    · split
      · exact hset
      · rename_i i hi
        exact hset.trans (.single (.mark time _ hi))

/-! ## What is handed over -/

section
variable {P X : Type}

/-- The payload of a buffer `b` that passed the format check.  It begins at `off` and is as
long as the data behind it, in `uint64_t`. -/
structure Checked (ssl : OpenSsl P X) (k : Key) (data : Buffer) (dataSize : Nat) (b : Buffer)
    (off size : Nat) : Prop where
  /-- The buffer ends where the data of the caller end. -/
  whole : data.IsWhole dataSize → b.IsWhole dataSize
  size_eq : size = sub64 dataSize off
  format : checkSignatureListFormat ssl k.name k.guid b off size = some .success

/-- What a request for the key `k` with these data may hand to `storage_set`. -/
inductive Offers (ssl : OpenSsl P X) (k : Key) (data : Buffer) (dataSize : Nat) (attrs : Attrs)
    (s : Storage) : Option (List UInt8) → Attrs → Prop
  | plain {l : List UInt8} : attrs.timeBased = false →
      variableClass k = .other ∨ isSecureBootVariable k = false →
      Offers ssl k data dataSize attrs s (some l) attrs
  | nothing : variableClass k = .other → Offers ssl k data dataSize attrs s none 0
  | payload {b : Buffer} {off size : Nat} {l : List UInt8} :
      Checked ssl k data dataSize b off size → b.slice off size = some l →
      Offers ssl k data dataSize attrs s (some l) attrs
  | filtered {b b' : Buffer} {off size size' : Nat} {l : List UInt8} {v : Variable} :
      Checked ssl k data dataSize b off size → attrs.append = true →
      storageFindVariable s k = some v → isSigListVariable v = true →
      filterSignatureList v.data b off size = some (b', size') → b'.slice off size' = some l →
      l ≠ [] → Offers ssl k data dataSize attrs s (some l) attrs

/-- A second attempt, with the buffer of the first. -/
theorem Offers.of_whole {ssl : OpenSsl P X} {k : Key} {data data' : Buffer} {dataSize : Nat}
    {attrs : Attrs} (hwhole : data.IsWhole dataSize → data'.IsWhole dataSize) {s : Storage}
    {d : Option (List UInt8)} {a : Attrs} (h : Offers ssl k data' dataSize attrs s d a) :
    Offers ssl k data dataSize attrs s d a := by
  have hchecked : ∀ {b off size}, Checked ssl k data' dataSize b off size →
      Checked ssl k data dataSize b off size :=
    fun hc => ⟨fun hw => hc.whole (hwhole hw), hc.size_eq, hc.format⟩
  cases h with
  | plain htb hk => exact .plain htb hk
  | nothing hk => exact .nothing hk
  | payload hc hl => exact .payload (hchecked hc) hl
  | filtered hc happ hv hsig hf hl hne => exact .filtered (hchecked hc) happ hv hsig hf hl hne

/-- The effect of a request on the store, with what it handed over, in an unchanged mode. -/
structure Fed (ssl : OpenSsl P X) (k : Key) (data : Buffer) (dataSize : Nat) (attrs : Attrs)
    (m : Machine) (o : Outcome) : Prop where
  writes : WritesOf (Offers ssl k data dataSize attrs) k m.storage o.machine.storage
  setupMode : o.machine.setupMode = m.setupMode
  secureBootEnabled : o.machine.secureBootEnabled = m.secureBootEnabled
  persistent : o.machine.persistent = m.persistent
  whole : data.IsWhole dataSize → o.data.IsWhole dataSize

namespace Fed

variable {ssl : OpenSsl P X} {k : Key} {data : Buffer} {dataSize : Nat} {attrs : Attrs}
  {m : Machine} {o o' : Outcome}

/-- Nothing written, and the buffer untouched. -/
theorem unchanged (status : EfiStatus) (calls : List VerifyCall) :
    Fed ssl k data dataSize attrs m ⟨status, { m with calls := calls }, data⟩ :=
  ⟨.refl _, rfl, rfl, rfl, id⟩

theorem trans (h : Fed ssl k data dataSize attrs m o)
    (h' : Fed ssl k o.data dataSize attrs o.machine o') : Fed ssl k data dataSize attrs m o' :=
  ⟨h.writes.trans (h'.writes.mono (fun _ _ _ => Offers.of_whole h.whole)),
    h'.setupMode.trans h.setupMode, h'.secureBootEnabled.trans h.secureBootEnabled,
    h'.persistent.trans h.persistent, fun hw => h'.whole (h.whole hw)⟩

end Fed

/-! ## The update behind an accepted payload -/

theorem authInternalUpdate_offers {ssl : OpenSsl P X} {s s' : Storage} {k : Key}
    {data data' : Buffer} {dataSize off size : Nat} {attrs : Attrs} {time : EfiTime}
    {status : EfiStatus} (hc : Checked ssl k data dataSize data off size)
    (h : authInternalUpdateVariableWithTimestamp s k data off size attrs time =
      some (status, s', data')) :
    WritesOf (Offers ssl k data dataSize attrs) k s s' ∧
      (data.IsWhole dataSize → data'.IsWhole dataSize) := by
  unfold authInternalUpdateVariableWithTimestamp at h
  split at h
  · obtain ⟨payload, hp, h⟩ := Option.bind_eq_some_iff.mp h
    cases h
    exact ⟨storageSetWithTimestamp_writesOf (.payload hc hp) k time, id⟩
  · rename_i v hv
    obtain ⟨hfind, hcond⟩ := Option.filter_eq_some_iff.mp hv
    rw [Bool.and_eq_true] at hcond
    obtain ⟨⟨data₁, size₁⟩, hfilter, h⟩ := Option.bind_eq_some_iff.mp h
    have hwhole : data.IsWhole dataSize → data₁.IsWhole dataSize := by
      rintro ⟨rfl, hlt⟩
      rw [hc.size_eq] at hfilter
      exact ⟨length_filterSignatureList hfilter hlt, hlt⟩
    dsimp only at h
    split at h
    · cases h
      exact ⟨.refl _, hwhole⟩
    · rename_i hsize
      obtain ⟨payload, hp, h⟩ := Option.bind_eq_some_iff.mp h
      cases h
      have hne : payload ≠ [] := by
        rintro rfl
        exact hsize (by simpa using (Buffer.length_slice hp).symm)
      exact ⟨storageSetWithTimestamp_writesOf
        (.filtered hc hcond.1 hfind hcond.2 hfilter hp hne) k time, hwhole⟩

theorem Accepted.checked_payload {ssl : OpenSsl P X} {s : Storage} {k : Key} {data : Buffer}
    {dataSize : Nat} {attrs : Attrs} {kind : AuthVarType} {off size : Nat} {msg : List UInt8}
    {time : EfiTime}
    (h : Accepted ssl s k data dataSize attrs kind off size msg time) :
    Checked ssl k data dataSize data off size := by
  refine ⟨id, ?_, h.format⟩
  obtain ⟨sig, hsig, hoff⟩ := Option.map_eq_some_iff.mp h.described.off_eq
  obtain ⟨sig', hsig', hsize⟩ := Option.map_eq_some_iff.mp h.described.size_eq
  obtain rfl := Option.some.inj (hsig.symm.trans hsig')
  rw [← hsize, sub64_sub64, hoff]

theorem UpdateResult.fed {ssl : Phase → OpenSsl P X} {m : Machine} {k : Key} {data : Buffer}
    {dataSize : Nat} {attrs : Attrs} {kind : AuthVarType} {o : Outcome}
    {del : Bool} (h : UpdateResult ssl m k data dataSize attrs kind o del) :
    Fed (ssl .verify) k data dataSize attrs m o := by
  have hfed : ∀ {off size : Nat} {msg : List UInt8} {time : EfiTime} {st st' : EfiStatus}
      {s : Storage} {data' : Buffer},
      Accepted (ssl .verify) m.storage k data dataSize attrs kind off size msg time →
      authInternalUpdateVariableWithTimestamp m.storage k data off size attrs time =
        some (st, s, data') →
      Fed (ssl .verify) k data dataSize attrs m ⟨st', m.updated kind msg s, data'⟩ := by
    intro off size msg time st st' s data' hacc hs
    obtain ⟨hw, hwhole⟩ := authInternalUpdate_offers hacc.checked_payload hs
    exact ⟨hw, rfl, rfl, rfl, hwhole⟩
  cases h with
  | rejected => exact .unchanged _ _
  | failed hacc hs _ => exact hfed hacc hs
  | deleted hacc hs _ => exact hfed hacc hs
  | lost hacc hs _ _ => exact hfed hacc hs
  | undigested hacc hs _ _ _ => exact hfed hacc hs
  | recorded hacc hs _ hi _ =>
      obtain ⟨hw, hwhole⟩ := authInternalUpdate_offers hacc.checked_payload hs
      exact ⟨hw.trans (.single (.mark _ _ hi)), rfl, rfl, rfl, hwhole⟩

theorem updateInSetupMode_fed {ssl : OpenSsl P X} {m : Machine} {k : Key} {data : Buffer}
    {dataSize : Nat} {attrs : Attrs} {o : Outcome}
    (h : updateInSetupMode ssl m k data dataSize attrs = some o) :
    Fed ssl k data dataSize attrs m o := by
  unfold updateInSetupMode at h
  obtain ⟨off, _, h⟩ := Option.bind_eq_some_iff.mp h
  obtain ⟨status, hformat, h⟩ := Option.bind_eq_some_iff.mp h
  split at h
  · cases h
    exact .unchanged _ _
  · rename_i hok
    rw [not_not.mp hok] at hformat
    obtain ⟨time, _, h⟩ := Option.bind_eq_some_iff.mp h
    obtain ⟨⟨status', s, data'⟩, hup, h⟩ := Option.bind_eq_some_iff.mp h
    cases h
    obtain ⟨hw, hwhole⟩ := authInternalUpdate_offers ⟨id, rfl, hformat⟩ hup
    exact ⟨hw, rfl, rfl, rfl, hwhole⟩

end

end Uefistored
