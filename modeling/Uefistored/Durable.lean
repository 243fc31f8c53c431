/-
# `Uefistored.Durable` — a variable across restarts

The program keeps its variables in memory and sends all non-volatile ones to XAPI
when one of them is written; a machine that is started again reads them back, and
one that is resumed reads the file that was saved.  On the way they are copied,
serialized, encoded, put into an HTTP request, taken out of an XML answer,
decoded and replayed.

`Life` is the program with the text that XAPI has for the machine; it goes on by
requests, restarts and resumptions, and what is sent may get lost.
`nonVolatile_durable`: a non-volatile variable that XAPI has, and that no request
is for, is found with the same attributes and data after any of them.

The conditions are those under which a list of variables is sent whole: the walk
does not reach the last slot, and a message has `MSG_SIZE` bytes, a resume file
`MAX_RESUME_FILE_SIZE`.
-/
import Uefistored.Persist
import Uefistored.Startup

namespace Uefistored

open Lib

/-! ## The text in a request -/

/-- The request that sends a text. -/
def setRequest (text : List UInt8) : List UInt8 :=
  headerText (bodyText text).length ++ bodyText text ++ [0]

theorem isText_headerText (bodyLen : Nat) : IsText (headerText bodyLen) := by
  have hfront : IsText httpFront := by decide +kernel
  have hback : IsText (literal "\r\n" ++ literal "\r\n") := by decide +kernel
  rw [headerText_eq]
  exact hfront.append ((isText_decimal bodyLen).append hback)

theorem length_decimal_mono {m n : Nat} (h : m ≤ n) :
    (decimal m).length ≤ (decimal n).length := by
  have hpos : 0 < (decimal n).length := by
    rw [decimal, List.length_map]
    exact Nat.length_toDigits_pos
  rw [length_decimal_le_iff hpos]
  exact h.trans_lt ((length_decimal_le_iff hpos).mp le_rfl)

/-- One buffer holds the request for one text. -/
theorem text_eq_of_holds {b : Buffer} {text text' : List UInt8} (htext : IsText text)
    (htext' : IsText text') (h : b.Holds 0 (setRequest text)) (h' : b.Holds 0 (setRequest text')) :
    text = text' := by
  wlog hle : (setRequest text).length ≤ (setRequest text').length generalizing text text'
  · exact (this htext' htext h' h (Nat.le_of_not_le hle)).symm
  -- the shorter one is the front of the other, and both end at their first NUL
  obtain ⟨rest, hrest⟩ := h.front h' hle
  have hstring : ∀ {t : List UInt8} (l : List UInt8), IsText t → cstr (setRequest t ++ l) =
      headerText (bodyText t).length ++ bodyText t := by
    intro t l ht
    rw [setRequest, List.append_assoc, List.singleton_append]
    exact cstr_text ((isText_headerText _).append (isText_bodyText ht)) l
  have hmessage : headerText (bodyText text).length ++ bodyText text =
      headerText (bodyText text').length ++ bodyText text' := by
    rw [← hstring rest htext, ← hrest, ← hstring [] htext', List.append_nil]
  have hlen := congrArg List.length hmessage
  simp only [List.length_append, length_headerText, length_bodyText] at hlen
  have hsame : text.length = text'.length := by
    rcases Nat.lt_trichotomy text.length text'.length with hlt | heq | hgt
    · have hmono := length_decimal_mono (Nat.add_le_add_left hlt.le 274)
      omega
    · exact heq
    · have hmono := length_decimal_mono (Nat.add_le_add_left hgt.le 274)
      omega
  have hlens : (headerText (bodyText text).length).length =
      (headerText (bodyText text').length).length := by
    rw [length_bodyText, length_bodyText, hsame]
  have hbody := (List.append_inj hmessage hlens).2
  rw [bodyText_eq, bodyText_eq, List.append_cancel_left_eq] at hbody
  exact (List.append_inj hbody hsame).1

/-! ## Sending -/

/-- One `xapi_set`, seen from the text that XAPI has: nothing is sent or what was sent gets
lost, or the text in the message takes its place. -/
inductive Sent (bio : Bio) (s : Storage) (text : List UInt8) : List UInt8 → Prop
  | lost {f : Fronts} {r : Int × Buffer} :
      buildSetEfiVarsMessage bio f s messageBuffer MSG_SIZE = some r → Sent bio s text text
  | taken {f : Fronts} {buffer : Buffer} {text' : List UInt8} :
      buildSetEfiVarsMessage bio f s messageBuffer MSG_SIZE = some (0, buffer) → IsText text' →
      buffer.Holds 0 (setRequest text') → Sent bio s text text'

/-- All non-volatile variables of the store go into a message. -/
structure Storage.Whole (s : Storage) : Prop where
  last : ((s.vars lastSlot).isValid && asked true (s.vars lastSlot)) = false
  size : savedSize s true ≤ 196275

/-- The text is the one that is sent for the store. -/
def TextOf (bio : Bio) (s : Storage) (text : List UInt8) : Prop :=
  ∃ f bytes, variableListBlob f s true = some (some ⟨bytes.length, bytes⟩) ∧
    text = bio.write bytes

section
variable {bio : Bio} {s : Storage} {nonvolatile : Bool}

/-- There is something to write. -/
theorem Storage.Tidy.saved_ne_nil (h : s.Tidy) {f : Fronts} {blob : Blob}
    (hblob : variableListBlob f s nonvolatile = some (some blob)) : saved f s nonvolatile ≠ [] := by
  intro hnil
  have hwalk : walk f s nonvolatile = some ⟨saved f s nonvolatile, 0, false⟩ :=
    walk_of_copyable (h.savable nonvolatile).1
  rw [blob_of_nil hwalk hnil] at hblob
  cases hblob

theorem Storage.Tidy.length_blob (h : s.Tidy) {f : Fronts} {bytes : List UInt8}
    (hblob : variableListBlob f s nonvolatile = some (some ⟨bytes.length, bytes⟩)) :
    bytes.length = savedSize s nonvolatile := by
  obtain ⟨bytes', -, hblob', hsize, -⟩ :=
    (h.savable nonvolatile).blob f 0 (h.saved_ne_nil hblob)
  obtain ⟨-, rfl⟩ := Blob.mk.inj (Option.some.inj (Option.some.inj (hblob.symm.trans hblob')))
  exact hsize.trans (h.listSize_saved f nonvolatile)

/-- What is taken is the text for the store. -/
theorem Sent.textOf {text text' : List UInt8} (hsent : Sent bio s text text') :
    text' = text ∨ TextOf bio s text' := by
  cases hsent with
  | lost => exact .inl rfl
  | @taken f buffer _ hbuild htext hholds =>
      right
      by_cases hnil : outgoing f s = []
      · rw [build_nil hnil] at hbuild
        cases hbuild
      obtain ⟨-, bytes, hblob, -, hmessage⟩ := message_of_build rfl hbuild hnil
      exact ⟨f, bytes, hblob, text_eq_of_holds htext (bio.isText_write bytes) hholds hmessage⟩

end

/-! ## Reading back -/

/-- No slot in use has the append attribute. -/
def Storage.Unappended (s : Storage) : Prop :=
  ∀ i, (s.vars i).isFree = false → (s.vars i).attrs.append = false

theorem Write.unappended {k : Key} (hk : k.Clean) {s s' : Storage} (h : Write k s s')
    (hs : s.Unappended) : s'.Unappended := by
  cases h with
  | set data attrs =>
      intro i
      have hslot := storageSet_slot (s := s) hk data attrs i
      generalize (storageSet s k data attrs).2.vars i = v at hslot ⊢
      cases hslot with
      | kept => exact hs i
      | removed =>
          intro hused
          rw [Variable.isFree_zero] at hused
          cases hused
      | replaced => exact hs i
      | created => exact fun _ => Attrs.append_withoutAppend attrs
  | @mark i time cert hi =>
      exact Slots.forall_update (Q := fun _ (v : Variable) => v.isFree = false →
        v.attrs.append = false) hs (hs i)

theorem Storage.Reachable.unappended {s : Storage} (h : s.Reachable) : s.Unappended := by
  obtain ⟨front, hwrites⟩ := h
  refine hwrites.invariant (I := Storage.Unappended) ?_ ?_
  · rintro _ t t' ⟨K, rfl⟩ hw ht
    exact hw.unappended K.clean ht
  · intro i hused
    rw [show ((Storage.empty front).vars i).isFree = true from Variable.isFree_zero] at hused
    cases hused

theorem Storage.Reachable.trans {s s' : Storage} (h : s.Reachable)
    (hw : Writes Key.IsVarKey s s') : s'.Reachable := by
  obtain ⟨front, hwrites⟩ := h
  exact ⟨front, hwrites.trans hw⟩

section
variable {v w : Variable}

theorem Variable.SameContents.isMatch_eq (h : v.SameContents w) (k : Key) :
    w.isMatch k = v.isMatch k := by
  have hiff : w.isMatch k = true ↔ v.isMatch k = true := by
    rw [Variable.isMatch_iff, Variable.isMatch_iff, h.namesz, h.name, h.guid]
  exact Bool.eq_iff_iff.mpr hiff

theorem Variable.SameContents.value_eq (h : v.SameContents w) : w.value = v.value := by
  rw [Variable.value, Variable.value, h.attrs, h.data]

theorem Variable.SameContents.storable (h : v.SameContents w) (hv : v.Storable) : w.Storable := by
  obtain ⟨K, hK⟩ := hv.named
  refine ⟨⟨K, (h.isMatch_eq K.key).trans hK⟩, ⟨?_, ?_⟩, ?_, ?_⟩
  · rw [h.namesz]
    exact hv.sized.name
  · rw [Variable.datasz, h.data]
    exact hv.sized.data
  · rw [h.attrs]
    exact hv.attrs
  · rw [h.attrs]
    exact hv.noAppend

end

/-- The list can be replayed into an empty store. -/
structure Replayable (vs : List Variable) : Prop where
  storable : ∀ v ∈ vs, v.Storable
  apart : vs.Pairwise Variable.Apart
  length : vs.length ≤ MAX_VAR_COUNT

theorem Replayable.tail {v : Variable} {vs : List Variable} (h : Replayable (v :: vs)) :
    Replayable vs :=
  ⟨fun w hw => h.storable w (List.mem_cons_of_mem _ hw), (List.pairwise_cons.mp h.apart).2,
    (Nat.le_succ _).trans h.length⟩

theorem apart_same {v v' : Variable} (hv : v.SameContents v') {vs ws : List Variable}
    (h : List.Forall₂ Variable.SameContents vs ws) (hapart : ∀ w ∈ vs, v.Apart w) :
    ∀ w ∈ ws, v'.Apart w := by
  induction h with
  | nil => exact List.forall_mem_nil _
  | cons hw _ ih =>
      rw [List.forall_mem_cons] at hapart ⊢
      refine ⟨fun K hK => ?_, ih hapart.2⟩
      rw [hw.isMatch_eq]
      exact hapart.1 K ((hv.isMatch_eq K.key).symm.trans hK)

theorem Replayable.same {vs ws : List Variable} (h : List.Forall₂ Variable.SameContents vs ws)
    (hvs : Replayable vs) : Replayable ws := by
  refine ⟨?_, ?_, h.length_eq ▸ hvs.length⟩
  · induction h with
    | nil => exact List.forall_mem_nil _
    | cons hv _ ih =>
        exact List.forall_mem_cons.mpr
          ⟨hv.storable (hvs.storable _ List.mem_cons_self), ih hvs.tail⟩
  · induction h with
    | nil => exact .nil
    | cons hv hrest ih =>
        exact .cons (apart_same hv hrest (List.pairwise_cons.mp hvs.apart).1) (ih hvs.tail)

theorem find_same {vs ws : List Variable} (h : List.Forall₂ Variable.SameContents vs ws)
    (k : Key) : (ws.find? (Variable.isMatch k)).map Variable.value =
      (vs.find? (Variable.isMatch k)).map Variable.value := by
  induction h with
  | nil => rfl
  | cons hv _ ih =>
      rw [List.find?_cons, List.find?_cons, hv.isMatch_eq k]
      split
      · rw [Option.map_some, Option.map_some, hv.value_eq]
      · exact ih

/-- The variables that are asked for, in a store that requests lead to. -/
theorem Storage.Reachable.replayable {s : Storage} (h : s.Reachable) {nonvolatile : Bool}
    (hattrs : ∀ v ∈ s.variables.filter (asked nonvolatile), v.attrs ≠ 0) :
    Replayable (s.variables.filter (asked nonvolatile)) := by
  refine ⟨?_, h.tidy.apart.filter _, ?_⟩
  · intro v hv
    obtain ⟨i, hi, rfl⟩ := List.mem_map.mp (List.mem_filter.mp hv).1
    have hused := Variable.isFree_of_isValid (Slots.mem_indices.mp hi)
    exact ⟨h.tidy.named i hused, h.tidy.sized i hused, hattrs _ hv, h.unappended i hused⟩
  · refine (List.length_filter_le _ _).trans ?_
    rw [Storage.variables, List.length_map, Slots.indices]
    exact (List.length_filter_le _ _).trans (List.length_finRange).le

theorem find?_filter_of_find? {α : Type} {p q : α → Bool} {l : List α} {a : α}
    (h : l.find? q = some a) (hp : p a = true) : (l.filter p).find? q = some a := by
  obtain ⟨hq, front, back, rfl, hfront⟩ := List.find?_eq_some_iff_append.mp h
  rw [List.find?_filter]
  refine List.find?_eq_some_iff_append.mpr ⟨by simp [hp, hq], front, back, rfl, ?_⟩
  intro b hb
  have hno := hfront b hb
  simp only [Bool.not_eq_true'] at hno
  simp [hno]

/-- What is written of a store is read with the contents of the variables that were asked for. -/
theorem Storage.Tidy.reads_blob {s : Storage} (h : s.Tidy) {nonvolatile : Bool} {f : Fronts}
    {bytes : List UInt8}
    (hblob : variableListBlob f s nonvolatile = some (some ⟨bytes.length, bytes⟩))
    (hlast : ((s.vars lastSlot).isValid && asked nonvolatile (s.vars lastSlot)) = false)
    (front : UInt16) : ∃ vars, fromBytesToVars front MAX_VAR_COUNT bytes = some (.ok vars) ∧
      List.Forall₂ Variable.SameContents (s.variables.filter (asked nonvolatile)) vars := by
  obtain ⟨bytes', vars, hblob', -, hread, -, hsame⟩ :=
    (h.savable nonvolatile).blob f front (h.saved_ne_nil hblob)
  obtain ⟨-, rfl⟩ := Blob.mk.inj (Option.some.inj (Option.some.inj (hblob.symm.trans hblob')))
  refine ⟨vars, hread, (forall₂_variables_iff ?_).mpr hlast⟩
  exact Variable.SameContents.trans_all (h.saved_same f nonvolatile)
    (hsame.imp fun _ _ hvw => hvw.contents)

/-- Where the variables of a store have been replayed, a variable that was asked for is found
as it was. -/
theorem Storage.Reachable.view_replayed {s t : Storage} (h : s.Reachable) {nonvolatile : Bool}
    {vars : List Variable} {below : UInt16}
    (hsame : List.Forall₂ Variable.SameContents (s.variables.filter (asked nonvolatile)) vars)
    (hattrs : ∀ v ∈ s.variables.filter (asked nonvolatile), v.attrs ≠ 0)
    (ht : restoreVariables (.empty below) vars = some t) {K : VarKey} {value : Attrs × List UInt8}
    (hview : view s K.key = some value) (hasked : (!nonvolatile || value.1.nonVolatile) = true) :
    view t K.key = some value := by
  have hrep := (h.replayable hattrs).same hsame
  obtain ⟨t', M, ht', hbuilt⟩ := restoreVariables_rebuilt vars [] (.empty below) hrep.storable
    hrep.apart hrep.length
  obtain rfl := Option.some.inj (ht.symm.trans ht')
  have hvalues := hbuilt.values K
  obtain ⟨v, hv, rfl⟩ := Option.map_eq_some_iff.mp hview
  have hfind : s.variables.find? (Variable.isMatch K.key) = some v :=
    (Slots.find?_indices (fun _ hm => Variable.isValid_of_isMatch K.clean.named hm)).trans hv
  rw [hbuilt.represents.lookup K, Option.map_map, List.nil_append, find_same hsame,
    find?_filter_of_find? hfind hasked] at hvalues
  exact hvalues

/-! ## Start-up leaves what is there -/

/-- Not one of the read-only variables. -/
def VarKey.Guest (K : VarKey) : Prop := ∀ k ∈ roKeys, k ≠ K.key

instance (K : VarKey) : Decidable K.Guest := inferInstanceAs (Decidable (∀ k ∈ roKeys, k ≠ K.key))

/-- Writes under other keys are not seen. -/
theorem Writes.view_eq {S : Key → Prop} {s s' : Storage} (h : Writes S s s') {K : VarKey}
    (hS : ∀ k, S k → k.IsVarKey ∧ k ≠ K.key) : view s' K.key = view s K.key := by
  rw [view, view, h.find_eq (fun k hk => (hS k hk).1.spares (hS k hk).2)]

theorem storageExists_of_view {s : Storage} {k : Key} {value : Attrs × List UInt8}
    (h : view s k = some value) : storageExists s k = true := by
  obtain ⟨v, hv, -⟩ := Option.map_eq_some_iff.mp h
  rw [storageExists_eq, hv]
  rfl

theorem VarKey.Guest.not_mode {K : VarKey} (h : K.Guest) : ∀ k ∈ modeKeys, k.IsVarKey ∧ k ≠ K.key :=
  fun k hk => ⟨modeKeys_isVarKey k hk,
    h k ((by decide +kernel : ∀ k ∈ modeKeys, k ∈ roKeys) k hk)⟩

section
variable {P X : Type} {K : VarKey} {value : Attrs × List UInt8}

/-- A key file is not enrolled over a variable that is there. -/
theorem loadAuthFiles_view {ssl : Phase → OpenSsl P X} (hK : K.Guest) : ∀ {auths : List AuthData}
    {m m' : Machine} {status : EfiStatus}, (∀ a ∈ auths, a.key.IsVarKey) →
    loadAuthFiles ssl m auths = some (status, m') → view m.storage K.key = some value →
    view m'.storage K.key = some value
  | [], _, _, _, _, h, hview => by
      cases h
      exact hview
  | auth :: rest, m, m', status, hkeys, h, hview => by
      have hrest : ∀ a ∈ rest, a.key.IsVarKey := fun a ha => hkeys a (List.mem_cons_of_mem _ ha)
      unfold loadAuthFiles at h
      split at h
      · exact loadAuthFiles_view hK hrest h hview
      · rename_i hskip
        have hne : auth.key ≠ K.key := by
          intro heq
          rw [heq, storageExists_of_view hview, Bool.true_or] at hskip
          exact hskip rfl
        obtain ⟨o, ho, h⟩ := Option.bind_eq_some_iff.mp h
        have ho' : view o.machine.storage K.key = some value := by
          rw [(authLibProcessVariable_cases ho).effect.writes.view_eq, hview]
          rintro k (rfl | hk)
          · exact ⟨hkeys auth List.mem_cons_self, hne⟩
          · exact hK.not_mode k hk
        split at h
        · cases h
          exact ho'
        · exact loadAuthFiles_view hK hrest h ho'

theorem authLibInitialize_view {ssl : Phase → OpenSsl P X} (hK : K.Guest) {m m' : Machine}
    {db dbx kek pk : List UInt8}
    (h : authLibInitialize ssl m (authFiles db dbx kek pk) = some (.success, m'))
    (hview : view m.storage K.key = some value) : view m'.storage K.key = some value := by
  have hkeys := startKeys_isVarKey db dbx kek pk
  have hset : ∀ {k : Key} (s : Storage) (d : List UInt8), k ∈ roKeys → k.IsVarKey →
      view (storageSet s k (some d) RT_BS_ATTRS).2 K.key = view s K.key := by
    intro k s d hro hk
    refine (Writes.single (K := (· = k)) rfl (.set (some d) RT_BS_ATTRS)).view_eq ?_
    rintro _ rfl
    exact ⟨hk, hK _ hro⟩
  have hmode : ∀ (m₁ : Machine) (mode : PlatformMode),
      view (updatePlatformMode m₁ mode).2.storage K.key = view m₁.storage K.key :=
    fun m₁ mode => (updatePlatformMode_writes m₁ mode).view_eq hK.not_mode
  obtain ⟨m₁, m₂, hsetup, hload, -, rfl⟩ := authLibInitialize_success h
  obtain rfl := congrArg Prod.snd hsetup
  have h₁ : view (updatePlatformMode { m with storage := (storageSet m.storage signatureSupportKey
      (some signatureSupport) RT_BS_ATTRS).2 } .setup).2.storage K.key = some value :=
    (hmode _ _).trans ((hset m.storage _ (by decide +kernel) (hkeys _ (by simp [startKeys]))).trans
      hview)
  have h₂ : view m₂.storage K.key = some value := by
    refine loadAuthFiles_view hK (fun a ha => hkeys a.key ?_) hload h₁
    exact List.mem_cons_of_mem _ (List.mem_cons_of_mem _
      (List.mem_append_left _ (List.mem_map_of_mem ha)))
  have h₃ : view (userModeIfPk m₂).2.storage K.key = some value := by
    unfold userModeIfPk
    split
    · exact (hmode m₂ .user).trans h₂
    · exact h₂
  exact (hset _ _ (by decide +kernel) (hkeys _ (by simp [startKeys]))).trans h₃

end

/-! ## The program and what XAPI has for it -/

/-- The state of the program, and the text in the database. -/
structure Life where
  machine : Machine
  database : List UInt8

/-- What happens: a request; a restart, at any time between two requests; a suspension by a
signal and the resumption from the file it leaves. -/
inductive Happening (P X : Type)
  | request (r : Request P X)
  | restart (b : Boot P X)
  | resume (b : Boot P X)

section
variable {P X : Type}

/-- One of them, where the program goes on. -/
inductive LifeStep (bio : Bio) : Life → Happening P X → Life → Prop
  | request {m m' : Machine} {text text' : List UInt8} {r : Request P X} {status : EfiStatus} :
      handleSetVariable r.ssl m r.set = some (status, m') →
      (if status == .success && r.set.attrs.nonVolatile then Sent bio m'.storage text text'
        else text' = text) →
      LifeStep bio ⟨m, text⟩ (.request r) ⟨m', text'⟩
  | restart {m m' : Machine} {text text' : List UInt8} {b : Boot P X} {below : UInt16} :
      b.source = .xapi (.nvram text) → startUp bio b below m.persistent = some (true, m') →
      Sent bio m'.storage text text' → b.pid = true →
      LifeStep bio ⟨m, text⟩ (.restart b) ⟨m', text'⟩
  -- the handler of the signal sends the variables once more before it saves them
  | resume {m m' : Machine} {text text₁ text' : List UInt8} {b : Boot P X} {below : UInt16}
      {f : Fronts} {file : List UInt8} : Sent bio m.storage text text₁ →
      xapiSave f m.storage = some (0, file) → b.source = .file (some file) →
      startUp bio b below m.persistent = some (true, m') → Sent bio m'.storage text₁ text' →
      b.pid = true → LifeStep bio ⟨m, text⟩ (.resume b) ⟨m', text'⟩

/-- The file of a suspended machine takes all its variables, and they can be written again. -/
structure Storage.Suspendable (s : Storage) : Prop where
  last : (s.vars lastSlot).isValid = false
  size : savedSize s false ≤ MAX_RESUME_FILE_SIZE
  attrs : ∀ v ∈ s.variables, v.attrs ≠ 0

/-- A step for another variable, with everything sent and saved whole. -/
structure OtherStep (bio : Bio) (K : VarKey) (ℓ : Life) (h : Happening P X) (ℓ' : Life) : Prop where
  step : LifeStep bio ℓ h ℓ'
  whole : ℓ'.machine.storage.Whole
  request : ∀ r, h = .request r → NulFree r.set.name ∧ r.set.key ≠ K.key
  resume : ∀ b, h = .resume b → ℓ.machine.storage.Suspendable ∧ ℓ.machine.storage.Whole

/-- XAPI has the variable: the text was sent for a store that has it. -/
def Archived (bio : Bio) (K : VarKey) (value : Attrs × List UInt8) (text : List UInt8) : Prop :=
  ∃ s : Storage, s.Reachable ∧ s.Whole ∧ TextOf bio s text ∧ view s K.key = some value

/-- The variable is in memory and in the database. -/
structure Life.Keeps (bio : Bio) (K : VarKey) (value : Attrs × List UInt8) (ℓ : Life) : Prop where
  reachable : ℓ.machine.storage.Reachable
  found : view ℓ.machine.storage K.key = some value
  archived : Archived bio K value ℓ.database

section
variable {bio : Bio} {K : VarKey} {value : Attrs × List UInt8}

theorem Archived.sent {s : Storage} (h : s.Reachable) (hwhole : s.Whole)
    (hview : view s K.key = some value) {text text' : List UInt8} (hsent : Sent bio s text text')
    (hrec : Archived bio K value text) : Archived bio K value text' := by
  rcases hsent.textOf with rfl | htext
  · exact hrec
  · exact ⟨s, h, hwhole, htext, hview⟩

theorem asked_attrs_ne {s : Storage} : ∀ v ∈ s.variables.filter (asked true), v.attrs ≠ 0 := by
  intro v hv hzero
  have hasked := (List.mem_filter.mp hv).2
  rw [asked, hzero] at hasked
  exact absurd hasked (by decide)

/-- The text that XAPI has is read as what was sent. -/
theorem TextOf.variables_eq {s : Storage} (h : s.Tidy) (hwhole : s.Whole) {text : List UInt8}
    (htext : TextOf bio s text) (front : UInt16) :
    ∃ vars, (Source.xapi (.nvram text)).variables bio front = some (.ok vars) ∧
      List.Forall₂ Variable.SameContents (s.variables.filter (asked true)) vars := by
  obtain ⟨f, bytes, hblob, rfl⟩ := htext
  obtain ⟨vars, hread, hsame⟩ := h.reads_blob hblob hwhole.last front
  refine ⟨vars, ?_, hsame⟩
  have hlen := h.length_blob hblob
  have hmsg : MSG_SIZE = 262144 := rfl
  have hsize := hwhole.size
  have hshort : ¬ (cstr (bio.write bytes)).length ≥ MSG_SIZE := by
    rw [cstr_of_isText (bio.isText_write bytes), bio.length_write, hmsg]
    omega
  have hpos : 0 < bytes.length := by
    rw [hlen, savedSize]
    omega
  have hbytes : base64ToBytes bio (bio.write bytes) = .ok bytes := by
    unfold base64ToBytes
    rw [if_neg (by rw [bio.length_write]; omega), bio.read_write]
    cases bytes with
    | nil => cases hpos
    | cons c l => rfl
  show xapiVariablesRequest bio front MAX_VAR_COUNT (.nvram (bio.write bytes)) = _
  rw [xapiVariablesRequest, if_neg hshort, cstr_of_isText (bio.isText_write bytes), hbytes]
  exact hread

/-- A file that was saved is read as what was saved. -/
theorem variables_of_xapiSave {s : Storage} (h : s.Tidy) (hsus : s.Suspendable) {f : Fronts}
    {file : List UInt8} (hsave : xapiSave f s = some (0, file)) (bio : Bio) (front : UInt16) :
    ∃ vars, (Source.file (some file)).variables bio front = some (.ok vars) ∧
      List.Forall₂ Variable.SameContents (s.variables.filter (asked false)) vars := by
  unfold xapiSave at hsave
  obtain ⟨out, hblob, hsave⟩ := Option.bind_eq_some_iff.mp hsave
  cases out with
  | none => cases hsave
  | some blob =>
      obtain ⟨size, written⟩ := blob
      dsimp only at hsave
      split at hsave
      · rename_i hfull
        cases hsave
        subst hfull
        obtain ⟨vars, hread, hsame⟩ :=
          h.reads_blob hblob (by rw [hsus.last, Bool.false_and]) front
        have hsmall : ¬ file.length > MAX_RESUME_FILE_SIZE := by
          rw [h.length_blob hblob]
          exact Nat.not_lt.mpr hsus.size
        refine ⟨vars, ?_, hsame⟩
        show xapiVariablesReadFile front MAX_VAR_COUNT file = _
        rw [xapiVariablesReadFile, if_neg hsmall]
        exact hread
      · cases hsave

/-- A start from the variables of a store: it leads to a store that requests lead to, and the
variables that were asked for are found in it. -/
theorem start_keeps (hK : K.Guest) {s : Storage} (h : s.Reachable) {nonvolatile : Bool}
    {b : Boot P X} {below : UInt16} {saved : List Saved} {m : Machine} {vars : List Variable}
    (hvars : b.source.variables bio b.front = some (.ok vars))
    (hsame : List.Forall₂ Variable.SameContents (s.variables.filter (asked nonvolatile)) vars)
    (hattrs : ∀ v ∈ s.variables.filter (asked nonvolatile), v.attrs ≠ 0)
    (hstart : startUp bio b below saved = some (true, m)) (hview : view s K.key = some value)
    (hasked : (!nonvolatile || value.1.nonVolatile) = true) :
    m.storage.Reachable ∧ view m.storage K.key = some value := by
  obtain ⟨vars', t, hst⟩ := startUp_ready hstart
  obtain rfl := Except.ok.inj (Option.some.inj (hvars.symm.trans hst.read))
  obtain ⟨db, dbx, kek, pk, hinit⟩ := hst.initialized
  have hnamed : ∀ v ∈ vars, v.Named :=
    fun v hv => (((h.replayable hattrs).same hsame).storable v hv).named
  have ht : t.Reachable := ⟨below, restoreVariables_writes hnamed hst.restored⟩
  refine ⟨ht.trans ((authLibInitialize_writes hinit).mono (startKeys_isVarKey db dbx kek pk)), ?_⟩
  exact authLibInitialize_view hK hinit
    (h.view_replayed hsame hattrs hst.restored hview hasked)

/-- One step for another variable. -/
theorem OtherStep.keeps (hK : K.Guest) (hnv : value.1.nonVolatile = true) {ℓ ℓ' : Life}
    {h : Happening P X} (hstep : OtherStep bio K ℓ h ℓ') (hℓ : ℓ.Keeps bio K value) :
    ℓ'.Keeps bio K value := by
  obtain ⟨hlife, hwhole, hreq, hres⟩ := hstep
  obtain ⟨hreach, hfound, hrec⟩ := hℓ
  cases hlife with
  | @request m m' text text' r status hset hsent =>
      obtain ⟨hname, hne⟩ := hreq r rfl
      have hwrites := handleSetVariable_writes hset
      have hkeys : ∀ k, k = r.set.key ∧ refusal r.set = none ∨ k ∈ modeKeys →
          k.IsVarKey ∧ k ≠ K.key := by
        rintro k (⟨rfl, -⟩ | hk)
        · exact ⟨⟨r.set.varKey hname, rfl⟩, hne⟩
        · exact hK.not_mode k hk
      have hreach' : m'.storage.Reachable := hreach.trans (hwrites.mono fun k hk => (hkeys k hk).1)
      have hfound' : view m'.storage K.key = some value := (hwrites.view_eq hkeys).trans hfound
      refine ⟨hreach', hfound', ?_⟩
      split at hsent
      · exact hrec.sent hreach' hwhole hfound' hsent
      · rw [show text' = text from hsent]
        exact hrec
  | @restart m m' text text' b below hsrc hstart hsent _ =>
      obtain ⟨s, hs, hswhole, htext, hview⟩ := hrec
      obtain ⟨vars, hvars, hsame⟩ := htext.variables_eq hs.tidy hswhole b.front
      obtain ⟨hreach', hfound'⟩ := start_keeps hK hs (hsrc ▸ hvars) hsame asked_attrs_ne hstart
        hview (by rw [hnv, Bool.or_true])
      exact ⟨hreach', hfound', Archived.sent hreach' hwhole hfound' hsent
        ⟨s, hs, hswhole, htext, hview⟩⟩
  | @resume m m' text text₁ text' b below f file hsent₁ hsave hsrc hstart hsent _ =>
      obtain ⟨hsus, hwhole₀⟩ := hres b rfl
      obtain ⟨vars, hvars, hsame⟩ := variables_of_xapiSave hreach.tidy hsus hsave bio b.front
      have hattrs : ∀ v ∈ m.storage.variables.filter (asked false), v.attrs ≠ 0 :=
        fun v hv => hsus.attrs v (List.mem_filter.mp hv).1
      obtain ⟨hreach', hfound'⟩ := start_keeps hK hreach (hsrc ▸ hvars) hsame hattrs hstart
        hfound rfl
      exact ⟨hreach', hfound', Archived.sent hreach' hwhole hfound' hsent
        (hrec.sent hreach hwhole₀ hfound hsent₁)⟩

/-- A non-volatile variable that was found when the variables were last sent, and whose sending
reached XAPI, is found with the same attributes and data after any requests for other variables,
restarts and resumptions, and XAPI still has it. -/
theorem nonVolatile_durable {m : Machine} {text : List UInt8} {hs : List (Happening P X)} {ℓ : Life}
    (hK : K.Guest) (hreach : m.storage.Reachable) (hwhole : m.storage.Whole)
    (hview : view m.storage K.key = some value) (hnv : value.1.nonVolatile = true)
    (htext : TextOf bio m.storage text) (hrun : Run (OtherStep bio K) ⟨m, text⟩ hs ℓ) :
    view ℓ.machine.storage K.key = some value ∧ Archived bio K value ℓ.database := by
  have hstart : Life.Keeps bio K value ⟨m, text⟩ :=
    ⟨hreach, hview, ⟨m.storage, hreach, hwhole, htext, hview⟩⟩
  have hend : ℓ.Keeps bio K value := hrun.invariant (fun _ _ _ hstep => hstep.keeps hK hnv) hstart
  exact ⟨hend.found, hend.archived⟩

end
end

/-- The start of a machine for which XAPI has the text, without key files. -/
def textBoot (text : List UInt8) : Boot Unit Unit :=
  { certBoot with
    secureBoot := none, db := .missing, kek := .missing, pk := .missing,
    source := .xapi (.nvram text) }

theorem nameA_nulFree : NulFree setNonVolatileA.set.name := by decide +kernel

/-- The key of the variable `"A"`. -/
def varKeyA : VarKey := setNonVolatileA.set.varKey nameA_nulFree

/-- `"A"` is written, and the program is started again; what it sends then gets lost. -/
theorem nonVolatile_durable_A : ∃ m text ℓ,
    handleAll freshMachine [setNonVolatileA] = some m ∧ TextOf .strict m.storage text ∧
    Run (OtherStep .strict varKeyA) ⟨m, text⟩ [.restart (textBoot text)] ℓ ∧
    view ℓ.machine.storage varKeyA.key = some (setNonVolatileA.set.attrs, [1]) := by
  have hrun : ((handleAll freshMachine [setNonVolatileA]).bind (fun m =>
      (variableListBlob .zero m.storage true).bind (fun out => out.bind (fun blob =>
        (startUp .strict (textBoot (base64 blob.written)) 0 m.persistent).map (fun r =>
          (r.1, decide (blob.size = blob.written.length ∧
            ((m.storage.vars lastSlot).isValid = false ∧ savedSize m.storage true ≤ 196275) ∧
            ((r.2.storage.vars lastSlot).isValid = false ∧ savedSize r.2.storage true ≤ 196275) ∧
            view m.storage varKeyA.key = some (setNonVolatileA.set.attrs, [1])))))))) =
      some (true, true) := by
    decide +kernel
  obtain ⟨m, hm, hrun⟩ := Option.bind_eq_some_iff.mp hrun
  obtain ⟨out, hblob, hrun⟩ := Option.bind_eq_some_iff.mp hrun
  obtain ⟨⟨size, bytes⟩, rfl, hrun⟩ := Option.bind_eq_some_iff.mp hrun
  obtain ⟨⟨ready, m'⟩, hup, hr⟩ := Option.map_eq_some_iff.mp hrun
  obtain ⟨rfl, hr⟩ := Prod.mk.inj hr
  obtain ⟨hsize, ⟨hlast, hsmall⟩, ⟨hlast', hsmall'⟩, hview⟩ := of_decide_eq_true hr
  have hreach : m.storage.Reachable := by
    cases run_iff_handleAll.mpr hm with
    | cons hstep hnil =>
        cases hnil
        obtain ⟨status, hset⟩ := hstep
        refine ⟨0, (handleSetVariable_writes hset).mono ?_⟩
        rintro k (⟨rfl, -⟩ | hk)
        · exact ⟨varKeyA, rfl⟩
        · exact modeKeys_isVarKey k hk
  have hwhole : m.storage.Whole := ⟨by rw [hlast, Bool.false_and], hsmall⟩
  have hwhole' : m'.storage.Whole := ⟨by rw [hlast', Bool.false_and], hsmall'⟩
  have htext : TextOf .strict m.storage (base64 bytes) :=
    ⟨.zero, bytes, (show size = bytes.length from hsize) ▸ hblob, rfl⟩
  -- the message of the restart is built
  obtain ⟨vars, hvars, hsame⟩ := htext.variables_eq hreach.tidy hwhole 0
  obtain ⟨hreach', -⟩ := start_keeps (by decide +kernel) hreach hvars hsame asked_attrs_ne hup
    hview (by decide +kernel)
  have hfits : MessageFits .strict .zero m'.storage :=
    (hreach'.tidy.complete hwhole'.last).messageFits hwhole'.size
  obtain ⟨ret, buffer, hbuild, -⟩ := hfits messageBuffer rfl
  have hstep : OtherStep .strict varKeyA ⟨m, base64 bytes⟩ (.restart (textBoot (base64 bytes)))
      ⟨m', base64 bytes⟩ := by
    refine ⟨.restart rfl hup (.lost hbuild) rfl, hwhole', ?_, ?_⟩
    · intro _ h
      cases h
    · intro _ h
      cases h
  have hrun := Run.cons hstep (.nil _)
  exact ⟨m, _, _, hm, htext, hrun, (nonVolatile_durable (by decide +kernel) hreach hwhole hview
    (by decide +kernel) htext hrun).1⟩

end Uefistored
