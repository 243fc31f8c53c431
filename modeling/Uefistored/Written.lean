/-
# `Uefistored.Written` — the slot an update writes

For a name that is stored as it came, a verified update has four ends: the
store is as before and the status an error; the variable is gone; its slot was
written and the signer could not be digested; its slot was written and the
digest is in `cert`.  The refused, failed and lost ends of `UpdateResult` are
the first of the four (`UpdateResult.settled`).

`Wrote s k attrs time i s'` says what "written" is: slot `i`, the first match of
`k` or for a new variable the first empty slot, has the new time stamp.  The
data is new as well if `storage_set` took it; `storage_set_with_timestamp` does
not look at that, and stamps the slot all the same.
-/
import Uefistored.Update

namespace Uefistored

open Lib

/-- What a verified update without a deletion does to the store. -/
inductive Wrote (s : Storage) (k : Key) (attrs : Attrs) (time : EfiTime)
    (i : Fin MAX_VAR_COUNT) : Storage → Prop
  /-- An append of signatures that are all there already. -/
  | nothingNew : attrs.append = true → s.findSlot k = some i →
      isSigListVariable (s.vars i) = true → Wrote s k attrs time i s
  /-- The variable has a new time stamp, and new data if the attributes are the stored ones. -/
  | stamped {d : List UInt8} : s.findSlot k = some i →
      (d = (s.vars i).data ∨ (s.vars i).attrs = attrs.withoutAppend) →
      Wrote s k attrs time i (s.setSlot i { s.vars i with data := d, timestamp := time })
  /-- A new variable, in the first empty slot. -/
  | created {d : List UInt8} : s.findSlot k = none → s.freeSlot = some i →
      Wrote s k attrs time i
        { s.setSlot i { (s.vars i).named (s.below i) k with
            data := d, guid := k.guid, attrs := attrs.withoutAppend, timestamp := time } with
          total := add64 s.total 1
          used := add64 s.used (MAX_VARIABLE_NAME_SIZE + MAX_VARIABLE_DATA_SIZE) }

/-- The slot that was written is the one a look-up finds. -/
theorem Wrote.findSlot {s s' : Storage} {k : Key} {attrs : Attrs} {time : EfiTime}
    {i : Fin MAX_VAR_COUNT} (hk : k.Clean) (h : Wrote s k attrs time i s') :
    s'.findSlot k = some i := by
  cases h with
  | nothingNew _ hi _ => exact hi
  | stamped hi _ =>
      exact Slots.first_update_self hi (Storage.findSlot_isMatch hi)
  | @created d hnone _ =>
      exact Slots.first_update_of_none hnone
        (Variable.isMatch_created hk (s.vars i) (s.below i) d attrs.withoutAppend)

/-- Every other slot that is in use is left alone. -/
theorem Wrote.other {s s' : Storage} {k : Key} {attrs : Attrs} {time : EfiTime}
    {i j : Fin MAX_VAR_COUNT} (h : Wrote s k attrs time i s') (hj : j ≠ i) :
    s'.vars j = s.vars j := by
  cases h with
  | nothingNew => rfl
  | stamped => exact Function.update_of_ne hj _ _
  | created => exact Function.update_of_ne hj _ _

/-! ## The two storage functions -/

/-- `storage_set` on a variable that is there, when it is no deletion: the slot has new data
under the stored attributes, or nothing changed. -/
theorem storageSet_found {s : Storage} {k : Key} (hk : k.Clean) {i : Fin MAX_VAR_COUNT}
    (hi : s.findSlot k = some i) {data : Option (List UInt8)} {attrs : Attrs}
    (hrem : asksRemoval data attrs = false) :
    ∃ d, (d = (s.vars i).data ∨ (s.vars i).attrs = attrs.withoutAppend) ∧
      (storageSet s k data attrs).2 = s.setSlot i { s.vars i with data := d } := by
  have hc := storageSet_cases s k data attrs
  generalize storageSet s k data attrs = r at hc
  obtain ⟨st, s'⟩ := r
  have hself : s = s.setSlot i { s.vars i with data := (s.vars i).data } :=
    (Storage.setSlot_self s i).symm
  cases hc with
  | refused => exact ⟨_, .inl rfl, hself⟩
  | removed h => rw [hrem] at h; cases h
  | replaced _ _ _ _ _ hj hattrs =>
      obtain rfl := Option.some.inj (hi.symm.trans hj)
      rw [Variable.named_self hk (Storage.findSlot_isMatch hi)]
      exact ⟨_, .inr hattrs, rfl⟩
  | renamed _ _ _ hj =>
      obtain rfl := Option.some.inj (hi.symm.trans hj)
      rw [Variable.named_self hk (Storage.findSlot_isMatch hi)]
      exact ⟨_, .inl rfl, rfl⟩
  | created _ _ _ _ _ hnone => rw [hi] at hnone; cases hnone

/-- `storage_set` on a new variable: nothing, or it is in the first empty slot. -/
theorem storageSet_new {s : Storage} {k : Key} (hnone : s.findSlot k = none)
    {data : Option (List UInt8)} {attrs : Attrs} :
    (storageSet s k data attrs).2 = s ∨ ∃ i d, data = some d ∧ s.freeSlot = some i ∧
      (storageSet s k data attrs).2 = { s.setSlot i { (s.vars i).named (s.below i) k with
          data := d, guid := k.guid, attrs := attrs.withoutAppend } with
        total := add64 s.total 1
        used := add64 s.used (MAX_VARIABLE_NAME_SIZE + MAX_VARIABLE_DATA_SIZE) } := by
  have hc := storageSet_cases s k data attrs
  generalize storageSet s k data attrs = r at hc
  obtain ⟨st, s'⟩ := r
  cases hc with
  | refused => exact .inl rfl
  | removed _ hi => rw [hnone] at hi; cases hi
  | replaced _ _ _ _ _ hi _ => rw [hnone] at hi; cases hi
  | renamed _ _ _ hi => rw [hnone] at hi; cases hi
  | created _ hd _ _ _ _ hi => exact .inr ⟨_, _, hd, hi, rfl⟩

/-- `storage_set_with_timestamp` when it is no deletion: refused, or written. -/
theorem storageSetWithTimestamp_wrote {s s' : Storage} {k : Key} (hk : k.Clean) {d : List UInt8}
    {attrs : Attrs} {time : EfiTime} {status : EfiStatus}
    (hdel : isDelete attrs d.length = false)
    (h : storageSetWithTimestamp s k (some d) attrs time = (status, s')) :
    (s' = s ∧ s.findSlot k = none ∧ status ≠ .success) ∨
      status = .success ∧ ∃ i, Wrote s k attrs time i s' := by
  have hrem := asksRemoval_of_isDelete hdel
  have hc := storageSetWithTimestamp_cases s k d attrs time
  rw [h] at hc
  cases hf : s.findSlot k with
  | some i =>
      have hfind := storageSet_findSlot hk hf hrem
      obtain ⟨d', hd', hset⟩ := storageSet_found hk hf hrem
      rcases hc with ⟨hc, _⟩ | ⟨_, ⟨hnone, _⟩ | ⟨j, hj, hr⟩⟩
      · rw [hdel] at hc; cases hc
      · rw [hfind] at hnone; cases hnone
      · obtain rfl := Option.some.inj (hfind.symm.trans hj)
        obtain ⟨rfl, rfl⟩ := Prod.mk.inj hr
        refine .inr ⟨rfl, i, ?_⟩
        rw [hset, Storage.setSlot_vars, Function.update_self, Storage.setSlot_setSlot]
        exact .stamped hf hd'
  | none =>
      rcases hc with ⟨hc, _⟩ | ⟨_, hc⟩
      · rw [hdel] at hc; cases hc
      rcases storageSet_new hf with hset | ⟨i, d', _, hfree, hset⟩
      · -- nothing was stored, and nothing is found
        rw [hset, hf] at hc
        rcases hc with ⟨_, hr⟩ | ⟨_, hj, _⟩
        · obtain ⟨rfl, rfl⟩ := Prod.mk.inj hr
          exact .inl ⟨rfl, rfl, by simp⟩
        · cases hj
      · have hfind : (storageSet s k (some d) attrs).2.findSlot k = some i := by
          rw [hset]
          exact Slots.first_update_of_none hf
            (Variable.isMatch_created hk (s.vars i) (s.below i) d' attrs.withoutAppend)
        rw [hfind, hset] at hc
        rcases hc with ⟨hnone, _⟩ | ⟨j, hj, hr⟩
        · cases hnone
        · obtain rfl := Option.some.inj hj
          obtain ⟨rfl, rfl⟩ := Prod.mk.inj hr
          refine .inr ⟨rfl, i, ?_⟩
          have hw : Wrote s k attrs time i _ := .created (d := d') hf hfree
          simpa [Storage.setSlot] using hw

/-- `storage_set` of no data under attributes that are not 0: nothing, or a deletion. -/
theorem storageSet_nil {s : Storage} {k : Key} (hk : k.Clean) {attrs : Attrs} (hne : attrs ≠ 0) :
    ((storageSet s k (some []) attrs).1 ≠ .success ∧ (storageSet s k (some []) attrs).2 = s) ∨
      attrs.append = false ∧ ∃ i, s.findSlot k = some i ∧
        storageSet s k (some []) attrs = (.success, s.remove i) := by
  by_cases hok : (storageSet s k (some []) attrs).1 = .success
  · have hc := storageSet_cases s k (some []) attrs
    generalize storageSet s k (some []) attrs = r at hc hok
    obtain ⟨st, s'⟩ := r
    cases hc with
    | refused h => exact absurd hok h
    | removed hrem hi =>
        have hattrs : (attrs == 0) = false := by simpa using hne
        refine .inr ⟨?_, _, hi, rfl⟩
        simpa only [asksRemoval, dataSize, hattrs, Option.getD_some, List.length_nil,
          beq_self_eq_true, Bool.true_and, Bool.or_false, Bool.not_eq_true'] using hrem
    | replaced _ hd hnil => exact absurd (Option.some.inj hd).symm hnil
    | renamed h => exact absurd hok h
    | created _ hd hnil => exact absurd (Option.some.inj hd).symm hnil
  · exact .inl ⟨hok, storageSet_failed hk hok⟩

/-! ## The verified update -/

/-- What `auth_internal_update_variable_with_timestamp` leaves: nothing, a deletion, or a
written slot. -/
theorem StoreResult.wrote {s s' : Storage} {k : Key} (hk : k.Clean) {data data' : Buffer}
    {off size : Nat} {attrs : Attrs} (htb : attrs.timeBased = true) {time : EfiTime}
    {status : EfiStatus} (h : StoreResult s k data off size attrs time status s' data') :
    (s' = s ∧ data' = data ∧ status ≠ .success) ∨
      (status = .success ∧ data' = data ∧ size = 0 ∧ attrs.append = false ∧
        ∃ i, s.findSlot k = some i ∧ s' = s.remove i) ∨
      status = .success ∧ (size ≠ 0 ∨ attrs.append = true) ∧ ∃ i, Wrote s k attrs time i s' := by
  have hne := Attrs.ne_zero_of_timeBased htb
  cases h with
  | nothingNew happ hv hsig _ =>
      obtain ⟨i, hi, rfl⟩ := Option.map_eq_some_iff.mp hv
      exact .inr (.inr ⟨rfl, .inr happ, i, .nothingNew happ hi hsig⟩)
  | @stored payload _ _ hp hr =>
      have hlen := Buffer.length_slice hp
      by_cases hnil : payload = []
      · subst hnil
        have hdel : isDelete attrs ([] : List UInt8).length = true := rfl
        rcases storageSetWithTimestamp_cases s k [] attrs time with ⟨_, hr'⟩ | ⟨hc, _⟩
        · rw [hr] at hr'
          rcases storageSet_nil hk hne with ⟨hfail, hs⟩ | ⟨happ, i, hi, hs⟩
          · rw [← hr'] at hfail hs
            exact .inl ⟨hs, rfl, hfail⟩
          · obtain ⟨rfl, rfl⟩ := Prod.mk.inj (hr'.trans hs)
            exact .inr (.inl ⟨rfl, rfl, hlen.symm, happ, i, hi, rfl⟩)
        · rw [hdel] at hc; cases hc
      · rcases storageSetWithTimestamp_wrote hk (isDelete_eq_false htb hnil) hr with
          ⟨hs, _, hfail⟩ | ⟨hok, hw⟩
        · exact .inl ⟨hs, rfl, hfail⟩
        · refine .inr (.inr ⟨hok, .inl ?_, hw⟩)
          rw [← hlen]
          exact fun h0 => hnil (List.eq_nil_of_length_eq_zero h0)
  | filtered happ hv hsig hnil hr _ =>
      obtain ⟨i, hi, rfl⟩ := Option.map_eq_some_iff.mp hv
      rcases storageSetWithTimestamp_wrote hk (isDelete_eq_false htb hnil) hr with
        ⟨_, hnone, _⟩ | ⟨hok, hw⟩
      · rw [show s.findSlot k = some i from hi] at hnone
        cases hnone
      · exact .inr (.inr ⟨hok, .inr happ, hw⟩)

section
variable {P X : Type}

/-- The caller's data is as it was, or the variable is one whose appends are filtered. -/
def DataKept (s : Storage) (k : Key) (data data' : Buffer) : Prop :=
  data' = data ∨ ∃ v, storageFindVariable s k = some v ∧ isSigListVariable v = true

/-- The four ends of a verified update of a name that is stored as it came. -/
inductive Settled (ssl : Phase → OpenSsl P X) (m : Machine) (k : Key) (data : Buffer)
    (dataSize : Nat) (attrs : Attrs) (kind : AuthVarType) (o : Outcome) : Bool → Prop
  | unchanged : o.status ≠ .success → o.machine.storage = m.storage → o.data = data →
      Settled ssl m k data dataSize attrs kind o false
  | deleted {i : Fin MAX_VAR_COUNT} {off : Nat} {msg : List UInt8} {time : EfiTime} :
      Accepted (ssl .verify) m.storage k data dataSize attrs kind off 0 msg time →
      attrs.append = false → m.storage.findSlot k = some i → o.status = .success →
      o.machine.storage = m.storage.remove i → o.data = data →
      Settled ssl m k data dataSize attrs kind o true
  | undigested {i : Fin MAX_VAR_COUNT} {off size : Nat} {msg : List UInt8} {time : EfiTime} :
      Accepted (ssl .verify) m.storage k data dataSize attrs kind off size msg time →
      Wrote m.storage k attrs time i o.machine.storage → o.status ≠ .success →
      Buffer.AgreeBelow off data o.data → DataKept m.storage k data o.data →
      sha256FromAuth (ssl .digest) o.data = some (.error o.status) →
      Settled ssl m k data dataSize attrs kind o false
  | recorded {i : Fin MAX_VAR_COUNT} {off size : Nat} {msg : List UInt8} {time : EfiTime}
      {s : Storage} {digest : Digest} :
      Accepted (ssl .verify) m.storage k data dataSize attrs kind off size msg time →
      Wrote m.storage k attrs time i s → o.status = .success →
      DataKept m.storage k data o.data →
      sha256FromAuth (ssl .digest) o.data = some (.ok digest) →
      o.machine.storage = s.setSlot i { s.vars i with cert := digest } →
      Settled ssl m k data dataSize attrs kind o false

/-- Not a deletion, and a status of success: the update wrote. -/
theorem StoreResult.wrote_of_not_isDel {s s' : Storage} {k : Key} (hk : k.Clean)
    {data data' : Buffer} {off size : Nat} {attrs : Attrs} (htb : attrs.timeBased = true)
    {time : EfiTime} (h : StoreResult s k data off size attrs time .success s' data')
    (hdel : isDel s k size attrs = false) : ∃ i, Wrote s k attrs time i s' := by
  rcases h.wrote hk htb with ⟨_, _, hs⟩ | ⟨_, _, rfl, happ, i, hi, _⟩ | ⟨_, _, hw⟩
  · exact absurd rfl hs
  · rw [isDel, storageFindVariable_eq hi, happ] at hdel
    cases hdel
  · exact hw

/-- And the variable is there. -/
theorem StoreResult.findSlot_ne_none {s s' : Storage} {k : Key} (hk : k.Clean)
    {data data' : Buffer} {off size : Nat} {attrs : Attrs} (htb : attrs.timeBased = true)
    {time : EfiTime} (h : StoreResult s k data off size attrs time .success s' data')
    (hdel : isDel s k size attrs = false) : s'.findSlot k ≠ none := by
  obtain ⟨i, hw⟩ := h.wrote_of_not_isDel hk htb hdel
  rw [hw.findSlot hk]
  exact Option.some_ne_none i

theorem UpdateResult.settled {ssl : Phase → OpenSsl P X} {m : Machine} {k : Key} {data : Buffer}
    {dataSize : Nat} {attrs : Attrs} {kind : AuthVarType} {o : Outcome} {del : Bool}
    (hk : k.Clean) (htb : attrs.timeBased = true)
    (h : UpdateResult ssl m k data dataSize attrs kind o del) :
    Settled ssl m k data dataSize attrs kind o del := by
  cases h with
  | rejected hs _ => exact .unchanged hs rfl rfl
  | failed _ hstore hs =>
      rcases (authInternalUpdate_cases hstore).wrote hk htb with ⟨rfl, rfl, _⟩ | ⟨rfl, _⟩ | ⟨rfl, _⟩
      · exact .unchanged hs rfl rfl
      · exact absurd rfl hs
      · exact absurd rfl hs
  | deleted hacc hstore hdel =>
      obtain ⟨_, rfl, happ⟩ := isDel_iff.mp hdel
      rcases (authInternalUpdate_cases hstore).wrote hk htb with
          ⟨_, _, hs⟩ | ⟨_, rfl, _, _, i, hi, rfl⟩ | ⟨_, h | h, _⟩
      · exact absurd rfl hs
      · exact .deleted hacc happ hi rfl rfl rfl
      · exact absurd rfl h
      · rw [happ] at h; cases h
  | lost _ hstore hdel hnone =>
      exact absurd hnone ((authInternalUpdate_cases hstore).findSlot_ne_none hk htb hdel)
  | undigested hacc hstore hdel _ hd =>
      obtain ⟨i, hw⟩ := (authInternalUpdate_cases hstore).wrote_of_not_isDel hk htb hdel
      exact .undigested hacc hw (by rw [sha256FromAuth_error hd]; simp)
        (authInternalUpdate_cases hstore).agreeBelow (authInternalUpdate_cases hstore).data_eq_or hd
  | recorded hacc hstore hdel hj hd =>
      obtain ⟨i, hw⟩ := (authInternalUpdate_cases hstore).wrote_of_not_isDel hk htb hdel
      obtain rfl := Option.some.inj ((hw.findSlot hk).symm.trans hj)
      exact .recorded hacc hw rfl (authInternalUpdate_cases hstore).data_eq_or hd rfl

end

end Uefistored
