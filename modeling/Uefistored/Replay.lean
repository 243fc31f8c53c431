/-
# `Uefistored.Replay` — time stamps only go forward

In user mode an update must be newer than the variable it replaces, and the
slot then takes the time stamp of the update.  An append skips the comparison
and stamps the slot all the same, so an append of an old blob sets the clock
back, and what was refused as a replay is accepted again (`append_backdates`).

Without such appends the time stamp of a variable never gets earlier while the
variable lives, and a blob that was not newer once is never newer
(`timestamps_advance`).  A variable is followed by its slot: `Follows i s s'`
says that slot `i` holds the same variable, not earlier stamped, and that
look-ups which ended at slot `i` still do.
-/
import Uefistored.Distinct
import Uefistored.ReadOnly
import Uefistored.Written

namespace Uefistored

open Lib

/-! ## Following a slot -/

/-- The same variable, with a time stamp that is not earlier. -/
structure Lives (v v' : Variable) : Prop where
  name : v'.name = v.name
  namesz : v'.namesz = v.namesz
  guid : v'.guid = v.guid
  later : v.timestamp.notLater v'.timestamp

namespace Lives

variable {v v' v'' : Variable}

theorem refl (v : Variable) : Lives v v := ⟨rfl, rfl, rfl, EfiTime.notLater_refl _⟩

theorem trans (h : Lives v v') (h' : Lives v' v'') : Lives v v'' :=
  ⟨h'.name.trans h.name, h'.namesz.trans h.namesz, h'.guid.trans h.guid,
    EfiTime.notLater_trans h.later h'.later⟩

theorem isMatch_eq (h : Lives v v') (K : Key) : v'.isMatch K = v.isMatch K := by
  simp only [Variable.isMatch, h.name, h.namesz, h.guid]

theorem isFree_eq (h : Lives v v') : v'.isFree = v.isFree := by
  simp only [Variable.isFree, h.name]

end Lives

/-- Slot `i` holds the same variable, and is still what look-ups of its name end at. -/
structure Follows (i : Fin MAX_VAR_COUNT) (s s' : Storage) : Prop where
  lives : Lives (s.vars i) (s'.vars i)
  found : ∀ K : Key, K.Clean → s.findSlot K = some i → s'.findSlot K = some i

namespace Follows

variable {i j : Fin MAX_VAR_COUNT} {s s' s'' : Storage} {v : Variable}

theorem refl (i : Fin MAX_VAR_COUNT) (s : Storage) : Follows i s s :=
  ⟨.refl _, fun _ _ h => h⟩

theorem trans (h : Follows i s s') (h' : Follows i s' s'') : Follows i s s'' :=
  ⟨h.lives.trans h'.lives, fun K hK hi => h'.found K hK (h.found K hK hi)⟩

/-- A write to the slot itself. -/
theorem update_self (hs : s'.vars = Function.update s.vars i v) (hv : Lives (s.vars i) v) :
    Follows i s s' := by
  refine ⟨by rwa [hs, Function.update_self], ?_⟩
  intro K _ hi
  unfold Storage.findSlot
  rw [hs]
  exact Slots.first_update_self hi ((hv.isMatch_eq K).trans (Storage.findSlot_isMatch hi))

/-- A write to another slot, of nothing that the look-ups would find there. -/
theorem update_other (hs : s'.vars = Function.update s.vars j v) (hj : j ≠ i)
    (hv : ∀ K : Key, K.Clean → s.findSlot K = some i → v.isMatch K = true →
      (s.vars j).isMatch K = true) : Follows i s s' := by
  refine ⟨?_, ?_⟩
  · rw [hs, Function.update_of_ne (Ne.symm hj)]
    exact .refl _
  · intro K hK hi
    unfold Storage.findSlot
    rw [hs]
    exact Slots.first_update_other hi hj (hv K hK hi)

/-- A new variable takes a slot that is not `i`; nothing with its name was found before. -/
theorem create {k : Key} (hs : s'.vars = Function.update s.vars j v) (hk : v.isMatch k = true)
    (hnone : s.findSlot k = none) (hj : j ≠ i) : Follows i s s' := by
  refine update_other hs hj ?_
  intro K _ hi hK
  obtain ⟨h1, h2, h3⟩ := Variable.same_of_isMatch hk hK
  have hm := Storage.findSlot_isMatch hi
  have hmk : (s.vars i).isMatch k = true := by
    rw [Variable.isMatch_iff] at hm ⊢
    rwa [h1, h2, h3]
  rw [Slots.first_eq_none_iff.mp hnone i] at hmk
  cases hmk

/-- Destroying another variable. -/
theorem remove (hj : j ≠ i) : Follows i s (s.remove j) := by
  refine update_other rfl hj ?_
  intro K hK _ hm
  rw [variableDestroyNoalloc, Variable.not_isMatch_of_isFree hK Variable.isFree_zero] at hm
  cases hm

/-- Rewriting any slot with its own variable. -/
theorem rewrite (hs : s'.vars = Function.update s.vars j v) (hv : Lives (s.vars j) v) :
    Follows i s s' := by
  by_cases hj : j = i
  · subst hj
    exact update_self hs hv
  · refine update_other hs hj ?_
    intro K _ _ hm
    rwa [hv.isMatch_eq] at hm

end Follows

/-! ## Single writes -/

/-- The variable of `k` was in the slot; now the slot is empty, or taken by a mode variable. -/
def Gone (k : Key) (i : Fin MAX_VAR_COUNT) (s s' : Storage) : Prop :=
  (s.vars i).isMatch k = true ∧
    ((s'.vars i).isFree = true ∨ ∃ k' ∈ modeKeys, (s'.vars i).isMatch k' = true)

theorem gone_remove {s : Storage} {k : Key} {i : Fin MAX_VAR_COUNT} (hi : s.findSlot k = some i) :
    Gone k i s (s.remove i) := by
  refine ⟨Storage.findSlot_isMatch hi, .inl ?_⟩
  show (Function.update s.vars i Variable.zero i).isFree = true
  rw [Function.update_self]
  exact Variable.isFree_zero

/-- Any `storage_set`: the variable is gone, or it is followed. -/
theorem storageSet_follows {s : Storage} {k : Key} (hk : k.Clean) {i : Fin MAX_VAR_COUNT}
    (hocc : (s.vars i).isFree = false) (data : Option (List UInt8)) (attrs : Attrs) :
    (asksRemoval data attrs = true ∧ Gone k i s (storageSet s k data attrs).2) ∨
      Follows i s (storageSet s k data attrs).2 := by
  have hc := storageSet_cases s k data attrs
  generalize storageSet s k data attrs = r at hc
  obtain ⟨st, s'⟩ := r
  cases hc with
  | refused => exact .inr (.refl i _)
  | @removed j hrem hi =>
      by_cases hj : j = i
      · subst hj
        exact .inl ⟨hrem, gone_remove hi⟩
      · exact .inr (.remove hj)
  | replaced _ _ _ _ _ hi _ =>
      rw [Variable.named_self hk (Storage.findSlot_isMatch hi)]
      exact .inr (.rewrite rfl ⟨rfl, rfl, rfl, EfiTime.notLater_refl _⟩)
  | renamed _ _ _ hi =>
      rw [Variable.named_self hk (Storage.findSlot_isMatch hi)]
      exact .inr (.rewrite rfl (.refl _))
  | created _ _ _ _ _ hnone hi =>
      exact .inr (.create rfl (Variable.isMatch_created hk _ _ _ _) hnone (freeSlot_ne hocc hi))

/-- A verified write whose time stamp is not before that of the variable it names. -/
theorem Wrote.follows {s s' : Storage} {k : Key} (hk : k.Clean) {attrs : Attrs} {time : EfiTime}
    {i j : Fin MAX_VAR_COUNT} (hocc : (s.vars i).isFree = false)
    (hlater : s.findSlot k = some i → (s.vars i).timestamp.notLater time)
    (h : Wrote s k attrs time j s') : Follows i s s' := by
  cases h with
  | nothingNew => exact .refl i s
  | stamped hi _ =>
      by_cases hj : j = i
      · subst hj
        exact .update_self rfl ⟨rfl, rfl, rfl, hlater hi⟩
      · exact .update_other rfl hj (fun _ _ _ hm => hm)
  | @created d hnone hi =>
      exact .create rfl
        (Variable.isMatch_created hk (s.vars j) (s.below j) d attrs.withoutAppend) hnone
        (freeSlot_ne hocc hi)

theorem Wrote.timestamp {s s' : Storage} {k : Key} {attrs : Attrs} {time : EfiTime}
    {i : Fin MAX_VAR_COUNT} (h : Wrote s k attrs time i s') :
    s' = s ∨ (s'.vars i).timestamp = time := by
  cases h with
  | nothingNew => exact .inl rfl
  | stamped => exact .inr (by simp only [Storage.setSlot_vars, Function.update_self])
  | created => exact .inr (by simp only [Storage.setSlot_vars, Function.update_self])

/-! ## The mode variables -/

theorem setModeVariables_follows {i : Fin MAX_VAR_COUNT} : ∀ (s : Storage)
    (l : List (Key × UInt8)), (∀ k ∈ l.map Prod.fst, k.Clean) → (s.vars i).isFree = false →
    Follows i s (setModeVariables s l).2
  | s, [], _, _ => .refl i s
  | s, (k, value) :: rest, hl, hocc => by
      have hset : Follows i s (storageSet s k (some [value]) RT_BS_ATTRS).2 := by
        rcases storageSet_follows (hl k (by simp)) hocc (some [value]) RT_BS_ATTRS with
          ⟨hrem, _⟩ | h
        · have hset : asksRemoval (some [value]) RT_BS_ATTRS = false := rfl
          rw [hset] at hrem
          cases hrem
        · exact h
      unfold setModeVariables
      split
      · rename_i s₁ hs
        rw [hs] at hset
        refine hset.trans (setModeVariables_follows s₁ rest ?_ ?_)
        · intro k' hk'
          exact hl k' (List.mem_cons_of_mem _ hk')
        · rw [hset.lives.isFree_eq]
          exact hocc
      · rename_i hs
        rw [hs] at hset
        exact hset

theorem updatePlatformMode_follows (m : Machine) (mode : PlatformMode) {i : Fin MAX_VAR_COUNT}
    (hocc : (m.storage.vars i).isFree = false) :
    Follows i m.storage (updatePlatformMode m mode).2.storage := by
  refine setModeVariables_follows m.storage _ ?_ hocc
  rw [modeVariables_keys]
  exact modeKeys_clean

/-- What an empty slot can become. -/
theorem updatePlatformMode_free (m : Machine) (mode : PlatformMode) {i : Fin MAX_VAR_COUNT}
    (hfree : (m.storage.vars i).isFree = true) :
    (((updatePlatformMode m mode).2.storage.vars i).isFree = true ∨
      ∃ k ∈ modeKeys, ((updatePlatformMode m mode).2.storage.vars i).isMatch k = true) := by
  have hframe := (updatePlatformMode_writes m mode).frame
    (Q := fun v => v.isFree = true ∨ ∃ k ∈ modeKeys, v.isMatch k = true) (by
      rintro k hk v (hv | hit)
      · exact .inl hv
      · exact .inr ⟨k, hk, hit.isMatch (modeKeys_clean k hk)⟩)
  rcases hframe i with h | ⟨_, h⟩
  · rw [h]
    exact .inl hfree
  · exact h

theorem Gone.updatePlatformMode {k : Key} {i : Fin MAX_VAR_COUNT} {s : Storage} {m : Machine}
    (mode : PlatformMode) (h : Gone k i s m.storage)
    (hfree : (m.storage.vars i).isFree = true) :
    Gone k i s (updatePlatformMode m mode).2.storage :=
  ⟨h.1, updatePlatformMode_free m mode hfree⟩

/-! ## Verified updates -/

section
variable {P X : Type}

/-- An append is not dated before the variable it goes to. -/
def Dated (s : Storage) (k : Key) (data : Buffer) (attrs : Attrs) : Prop :=
  attrs.append = true → ∀ time i, authTimeStamp data = some time → s.findSlot k = some i →
    (s.vars i).timestamp.notLater time

/-- An accepted update is not dated before the variable it goes to: an append by assumption,
any other because it was compared. -/
theorem Accepted.later {ssl : OpenSsl P X} {s : Storage} {k : Key} {data : Buffer}
    {dataSize : Nat} {attrs : Attrs} {kind : AuthVarType} {off size : Nat} {msg : List UInt8}
    {time : EfiTime} (h : Accepted ssl s k data dataSize attrs kind off size msg time)
    (hd : Dated s k data attrs) {i : Fin MAX_VAR_COUNT} (hi : s.findSlot k = some i) :
    (s.vars i).timestamp.notLater time := by
  cases happ : attrs.append with
  | true => exact hd happ time i h.described.time_eq hi
  | false =>
      refine EfiTime.notLater_of_not (h.described.newer happ _ ?_)
      rw [storageFindVariable_eq hi]
      rfl

theorem Settled.follows {ssl : Phase → OpenSsl P X} {m : Machine} {k : Key} {data : Buffer}
    {dataSize : Nat} {attrs : Attrs} {kind : AuthVarType} {o : Outcome} {del : Bool}
    (hk : k.Clean) (hd : Dated m.storage k data attrs) {i : Fin MAX_VAR_COUNT}
    (hocc : (m.storage.vars i).isFree = false)
    (h : Settled ssl m k data dataSize attrs kind o del) :
    (Gone k i m.storage o.machine.storage ∧ (o.machine.storage.vars i).isFree = true ∧
        o.status = .success) ∨ Follows i m.storage o.machine.storage := by
  cases h with
  | unchanged _ hs _ =>
      rw [hs]
      exact .inr (.refl i _)
  | @deleted j _ _ _ _ _ hj hok hs _ =>
      rw [hs]
      by_cases hij : j = i
      · subst hij
        have hgone := gone_remove hj
        refine .inl ⟨hgone, ?_, hok⟩
        show (Function.update m.storage.vars j Variable.zero j).isFree = true
        rw [Function.update_self]
        exact Variable.isFree_zero
      · exact .inr (.remove hij)
  | undigested hacc hw _ _ _ _ => exact .inr (hw.follows hk hocc (hacc.later hd))
  | recorded hacc hw _ _ _ hs =>
      rw [hs]
      exact .inr ((hw.follows hk hocc (hacc.later hd)).trans
        (.rewrite rfl ⟨rfl, rfl, rfl, EfiTime.notLater_refl _⟩))

/-- After a failed attempt the same request is still not dated before its variable. -/
theorem Settled.dated {ssl : Phase → OpenSsl P X} {m : Machine} {k : Key} {data : Buffer}
    {dataSize : Nat} {attrs : Attrs} {kind : AuthVarType} {o : Outcome} {del : Bool}
    (hk : k.Clean) (hd : Dated m.storage k data attrs) (hfail : o.status ≠ .success)
    (h : Settled ssl m k data dataSize attrs kind o del) :
    Dated o.machine.storage k o.data attrs := by
  cases h with
  | unchanged _ hs hdata => rwa [hs, hdata]
  | deleted _ _ _ hok => exact absurd hok hfail
  | recorded _ _ hok => exact absurd hok hfail
  | undigested hacc hw _ hagree _ _ =>
      intro happ time' j htime' hj
      obtain rfl := Option.some.inj ((hw.findSlot hk).symm.trans hj)
      -- the retry reads the time stamp that the first attempt wrote
      have htime := hacc.described.time_eq
      have hsame : authTimeStamp o.data = authTimeStamp data := by
        obtain ⟨_, _, hoff⟩ := Option.map_eq_some_iff.mp hacc.described.off_eq
        rw [authTimeStamp, authTimeStamp, hagree 0 16 (by
          rw [← hoff]; simp only [OFFSET_OF_AUTHINFO2_CERT_DATA]; omega)]
      rw [hsame, htime] at htime'
      obtain rfl := Option.some.inj htime'
      rcases hw.timestamp with hs | ht
      · rw [hs] at hj ⊢
        exact hd happ _ _ htime hj
      · rw [ht]
        exact EfiTime.notLater_refl _

/-! ## Requests -/

section
variable {ssl : Phase → OpenSsl P X} {m : Machine} {k : Key} {data : Buffer} {dataSize : Nat}
  {attrs : Attrs} {o : Outcome} {i : Fin MAX_VAR_COUNT}

theorem PkResult.follows {isPk : Bool} (hk : k.Clean) (hmode : m.setupMode = .user)
    (hd : attrs.timeBased = true → Dated m.storage k data attrs)
    (hocc : (m.storage.vars i).isFree = false)
    (h : PkResult ssl m k data dataSize attrs isPk o) :
    Gone k i m.storage o.machine.storage ∨ Follows i m.storage o.machine.storage := by
  cases h with
  | wrongAttrs => exact .inr (.refl i _)
  | setup hs => rw [hmode] at hs; cases hs
  | enrol hs => rw [hmode] at hs; cases hs
  | @user o' del _ _ htb hu =>
      have hset := (hu.settled hk htb).follows hk (hd htb) hocc
      cases isPk with
      | false => exact hset.imp And.left id
      | true =>
          simp only [if_true]
          rcases followPk_cases o' del with ho | ⟨_, mode, _, ho⟩
          · rw [ho]
            exact hset.imp And.left id
          · rw [ho]
            rcases hset with ⟨hgone, hfree, _⟩ | hf
            · exact .inl (hgone.updatePlatformMode mode hfree)
            · refine .inr (hf.trans (updatePlatformMode_follows _ mode ?_))
              rw [hf.lives.isFree_eq]
              exact hocc

/-- The attempt with PK before the second chance: the variable is still there, and the
request as it is handed on is still not dated before it. -/
theorem PkResult.follows_failed (hk : k.Clean) (hmode : m.setupMode = .user)
    (hd : attrs.timeBased = true → Dated m.storage k data attrs)
    (hocc : (m.storage.vars i).isFree = false) (hfail : o.status ≠ .success)
    (h : PkResult ssl m k data dataSize attrs false o) :
    Follows i m.storage o.machine.storage ∧
      (attrs.timeBased = true → Dated o.machine.storage k o.data attrs) := by
  cases h with
  | wrongAttrs => exact ⟨.refl i _, hd⟩
  | setup hs => rw [hmode] at hs; cases hs
  | user _ htb hu =>
      have hset := hu.settled hk htb
      refine ⟨?_, fun _ => hset.dated hk (hd htb) hfail⟩
      rcases hset.follows hk (hd htb) hocc with ⟨_, _, hok⟩ | hf
      · exact absurd hok hfail
      · exact hf

theorem KekResult.follows (hk : k.Clean) (hmode : m.setupMode = .user)
    (hd : attrs.timeBased = true → Dated m.storage k data attrs)
    (hocc : (m.storage.vars i).isFree = false)
    (h : KekResult ssl m k data dataSize attrs o) :
    Gone k i m.storage o.machine.storage ∨ Follows i m.storage o.machine.storage := by
  cases h with
  | wrongAttrs => exact .inr (.refl i _)
  | setup hs => rw [hmode] at hs; cases hs
  | user _ htb hu => exact ((hu.settled hk htb).follows hk (hd htb) hocc).imp And.left id

theorem VarResult.follows (hk : k.Clean)
    (hd : attrs.timeBased = true → Dated m.storage k data attrs)
    (hocc : (m.storage.vars i).isFree = false)
    (h : VarResult ssl m k data dataSize attrs o) :
    Gone k i m.storage o.machine.storage ∨ Follows i m.storage o.machine.storage := by
  cases h with
  | descriptorOnly => exact (storageSet_follows hk hocc none 0).imp And.right id
  | unsupported => exact .inr (.refl i _)
  | verified htb hu => exact ((hu.settled hk htb).follows hk (hd htb) hocc).imp And.left id
  | plain => exact (storageSet_follows hk hocc _ _).imp And.right id

theorem LibResult.follows (hk : k.Clean) (hmode : m.setupMode = .user)
    (hd : attrs.timeBased = true → Dated m.storage k data attrs)
    (hocc : (m.storage.vars i).isFree = false)
    (h : LibResult ssl m k data dataSize attrs o) :
    Gone k i m.storage o.machine.storage ∨ Follows i m.storage o.machine.storage := by
  cases h with
  | pk _ hp => exact hp.follows hk hmode hd hocc
  | kek _ hp => exact hp.follows hk hmode hd hocc
  | db _ hp _ => exact hp.follows hk hmode hd hocc
  | other _ hv => exact hv.follows hk hd hocc
  | dbRetry _ hp hfail hkek =>
      obtain ⟨hf, hd'⟩ := hp.follows_failed hk hmode hd hocc hfail
      have hmode' := hp.effect_false.setupMode.trans hmode
      rcases hkek.follows hk hmode' hd' (by rw [hf.lives.isFree_eq]; exact hocc) with hgone | hf'
      · exact .inl ⟨(hf.lives.isMatch_eq k).symm.trans hgone.1, hgone.2⟩
      · exact .inr (hf.trans hf')

end

/-- The slot holds the same variable before and after. -/
def SameVariable (v v' : Variable) : Prop :=
  v'.isFree = false ∧ v'.keyBytes = v.keyBytes ∧ v'.guid = v.guid

instance (v v' : Variable) : Decidable (SameVariable v v') := inferInstanceAs (Decidable (_ ∧ _))

/-- A variable that is gone is not in its slot any more: a mode variable that took the slot
has another name, since `is_ro` refuses requests for those. -/
theorem Gone.not_same {req : SetRequest} (hr : refusal req = none)
    {i : Fin MAX_VAR_COUNT} {s s' : Storage} (h : Gone req.key i s s') :
    ¬ SameVariable (s.vars i) (s'.vars i) := by
  rintro ⟨hocc, hbytes, hguid⟩
  obtain ⟨hm, hfree | ⟨k, hmem, hm'⟩⟩ := h
  · rw [hocc] at hfree
    cases hfree
  obtain ⟨_, hb, hg⟩ := Variable.isMatch_iff.mp hm
  obtain ⟨_, hb', hg'⟩ := Variable.isMatch_iff.mp hm'
  obtain ⟨l, hl, rfl⟩ := modeKeys_of k hmem
  have hlb : (Key.of l gEfiGlobalVariableGuid).bytes = req.key.bytes :=
    hb'.symm.trans (hbytes.trans hb)
  rw [Key.bytes_of hl, SetRequest.key, Key.bytes_of req.name_fits] at hlb
  have hkey : req.key = Key.of l gEfiGlobalVariableGuid := by
    rw [SetRequest.key, hlb]
    exact congrArg (Key.of req.name) (hg.symm.trans (hguid.symm.trans hg'))
  have hro := isRo_of_refusal hr
  rw [hkey, modeKeys_isRo _ hmem] at hro
  cases hro

/-- One request in user mode: its name has a unit and does not end in NUL, if it is an append it
is not dated before the variable it names, and the variable in slot `i` survives it. -/
structure LiveStep (i : Fin MAX_VAR_COUNT) (m : Machine) (r : Request P X) (m' : Machine) :
    Prop where
  step : Step m r m'
  user : m.setupMode = .user
  name : r.set.NoTrailingNul
  dated : r.set.attrs.timeBased = true → Dated m.storage r.set.key r.set.buffer r.set.attrs
  survives : SameVariable (m.storage.vars i) (m'.storage.vars i)

theorem LiveStep.follows {i : Fin MAX_VAR_COUNT} {m m' : Machine} {r : Request P X}
    (h : LiveStep i m r m') (hocc : (m.storage.vars i).isFree = false) :
    Follows i m.storage m'.storage := by
  obtain ⟨⟨status, hstep⟩, huser, hname, hdated, hsame⟩ := h
  cases handleSetVariable_cases hstep with
  | refused => exact .refl i _
  | authenticated hr _ hl =>
      have hk := hname.key_clean hr
      rw [Machine.saved_storage] at hsame ⊢
      rcases hl.follows (m := m.opened r.set) hk huser hdated hocc with hgone | hf
      · exact absurd hsame (hgone.not_same hr)
      · exact hf
  | plain hr _ _ =>
      have hk := hname.key_clean hr
      rw [Machine.saved_storage] at hsame ⊢
      rcases storageSet_follows hk hocc (some r.set.data) r.set.attrs with ⟨_, hgone⟩ | hf
      · exact absurd hsame (hgone.not_same hr)
      · exact hf

/-! ## Runs -/

/-- The run lemma: a variable that survives every request is followed from end to end. -/
theorem follows_of_run {i : Fin MAX_VAR_COUNT} {m m' : Machine} {rs : List (Request P X)}
    (hrun : Run (LiveStep i) m rs m') (hocc : (m.storage.vars i).isFree = false) :
    Follows i m.storage m'.storage := by
  refine hrun.related (I := fun m => (m.storage.vars i).isFree = false)
    (Q := fun m m' => Follows i m.storage m'.storage) ?_ ?_ ?_ ?_ hocc
  · intro m₁
    exact .refl i m₁.storage
  · intro m₁ m₂ m₃ h h'
    exact h.trans h'
  · intro m₁ r m₂ h hm
    rw [(h.follows hm).lives.isFree_eq]
    exact hm
  · intro m₁ r m₂ h hm
    exact h.follows hm

/-- In user mode, along requests whose names do not end in NUL and whose appends are not
dated before their variables, the time stamp of a variable that lives never gets earlier.
So a blob that was refused as not newer is refused as long as the variable lives. -/
theorem timestamps_advance {i : Fin MAX_VAR_COUNT} {m m' : Machine} {rs : List (Request P X)}
    (hrun : Run (LiveStep i) m rs m') (hocc : (m.storage.vars i).isFree = false) :
    (m.storage.vars i).timestamp.notLater (m'.storage.vars i).timestamp ∧
      ∀ (req : SetRequest) (time : EfiTime), req.key.Clean → req.attrs.append = false →
        m.storage.findSlot req.key = some i → authTimeStamp req.buffer = some time →
        time.notLater (m.storage.vars i).timestamp →
        ∀ (ssl : Phase → OpenSsl P X) (kind : AuthVarType),
          verifyTimeBasedPayloadAndUpdate ssl m' req.key req.buffer req.data.length req.attrs
            kind = some (⟨.securityViolation, m', req.buffer⟩, false) := by
  have hf := follows_of_run hrun hocc
  refine ⟨hf.lives.later, ?_⟩
  intro req time hk happ hi htime hstale ssl kind
  have hi' := hf.found req.key hk hi
  have hcheck : checkDescriptor req.key req.buffer req.data.length req.attrs
      ((storageFindVariable m'.storage req.key).map (·.timestamp)) =
        some (.error .securityViolation) := by
    rw [storageFindVariable_eq hi']
    exact checkDescriptor_stale htime happ (EfiTime.notLater_trans hstale hf.lives.later)
  exact verifyTimeBasedPayloadAndUpdate_error hcheck

end

/-- A store in user mode with one authenticated variable, stamped with the year 2021. -/
def stampedMachine : Machine :=
  .ofStorage (.ofList [{ Variable.ofKey (.of (wide ['A']) gEfiGlobalVariableGuid) [1] AT_ATTRS with
    timestamp := { EfiTime.zero with year := 2021 } }]) .user

/-- A signed request for that variable. -/
def yearRequest (year : UInt16) (attrs : Attrs) : Request Unit Unit where
  ssl := fun _ => .accepting
  set := authRequest (wide ['A']) gEfiGlobalVariableGuid year attrs [2] (by decide)

theorem timestamps_advance_A : ∃ m',
    Run (LiveStep 0) stampedMachine [yearRequest 2022 AT_ATTRS] m' ∧
    (stampedMachine.storage.vars 0).timestamp.notLater (m'.storage.vars 0).timestamp ∧
    verifyTimeBasedPayloadAndUpdate (fun _ => OpenSsl.accepting) m'
        (yearRequest 2021 AT_ATTRS).set.key (yearRequest 2021 AT_ATTRS).set.buffer
        (yearRequest 2021 AT_ATTRS).set.data.length AT_ATTRS .priv =
      some (⟨.securityViolation, m', (yearRequest 2021 AT_ATTRS).set.buffer⟩, false) := by
  have hrun : (handleSetVariable (fun _ => OpenSsl.accepting) stampedMachine
      (yearRequest 2022 AT_ATTRS).set).map (fun r =>
        decide (SameVariable (stampedMachine.storage.vars 0) (r.2.storage.vars 0))) =
      some true := by
    decide +kernel
  obtain ⟨⟨status, m'⟩, hstep, hsame⟩ := Option.map_eq_some_iff.mp hrun
  have hlive : LiveStep 0 stampedMachine (yearRequest 2022 AT_ATTRS) m' :=
    ⟨⟨status, hstep⟩, rfl, by decide +kernel, fun _ happ => absurd happ (by decide),
      of_decide_eq_true hsame⟩
  have hrun := Run.cons hlive (.nil m')
  obtain ⟨hlater, hreject⟩ := timestamps_advance hrun (by decide +kernel)
  exact ⟨m', hrun, hlater, hreject (yearRequest 2021 AT_ATTRS).set
    { EfiTime.zero with year := 2021 } (by decide +kernel) (by decide) (by decide +kernel)
    (by decide +kernel) (by decide +kernel) _ .priv⟩

/-- An append of 2020 goes to the variable of 2021 and sets its time stamp back; the blob of
2021 was refused before and is accepted afterwards. -/
theorem append_backdates : ∃ m₀ m₁ m₂,
    handleSetVariable (fun _ => OpenSsl.accepting) stampedMachine (yearRequest 2021 AT_ATTRS).set =
      some (.securityViolation, m₀) ∧
    Step stampedMachine (yearRequest 2020 (AT_ATTRS ||| EFI_VARIABLE_APPEND_WRITE)) m₁ ∧
    SameVariable (stampedMachine.storage.vars 0) (m₁.storage.vars 0) ∧
    ¬ (stampedMachine.storage.vars 0).timestamp.notLater (m₁.storage.vars 0).timestamp ∧
    handleSetVariable (fun _ => OpenSsl.accepting) m₁ (yearRequest 2021 AT_ATTRS).set =
      some (.success, m₂) := by
  have hrefused : (handleSetVariable (fun _ => OpenSsl.accepting) stampedMachine
      (yearRequest 2021 AT_ATTRS).set).map Prod.fst = some .securityViolation := by
    decide +kernel
  have hrun : ((handleSetVariable (fun _ => OpenSsl.accepting) stampedMachine
      (yearRequest 2020 (AT_ATTRS ||| EFI_VARIABLE_APPEND_WRITE)).set).bind (fun r =>
        (handleSetVariable (fun _ => OpenSsl.accepting) r.2
          (yearRequest 2021 AT_ATTRS).set).map (fun r₂ =>
            (decide (SameVariable (stampedMachine.storage.vars 0) (r.2.storage.vars 0)),
              (stampedMachine.storage.vars 0).timestamp.compareTimestamp
                (r.2.storage.vars 0).timestamp, r₂.1)))) = some (true, false, .success) := by
    decide +kernel
  obtain ⟨⟨_, m₀⟩, h₀, rfl⟩ := Option.map_eq_some_iff.mp hrefused
  obtain ⟨⟨status, m₁⟩, h₁, hrun⟩ := Option.bind_eq_some_iff.mp hrun
  obtain ⟨⟨_, m₂⟩, h₂, hfacts⟩ := Option.map_eq_some_iff.mp hrun
  simp only [Prod.mk.injEq] at hfacts
  obtain ⟨hsame, hearlier, rfl⟩ := hfacts
  refine ⟨m₀, m₁, m₂, h₀, ⟨status, h₁⟩, of_decide_eq_true hsame, ?_, h₂⟩
  intro hlater
  rw [EfiTime.notLater, hearlier] at hlater
  cases hlater

end Uefistored
