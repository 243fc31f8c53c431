/-
# `Uefistored.Service` — the server as its clients see it

A map of variables, and one request at a time: that is what the vCPUs may take the
server for, whatever they do at once and whatever the guest writes to its memory
between two calls of `handle_ioreq`.

`Page.asked` is what a page asks for, and `Replies` says what the service may answer
and what the map is then:

    GetVariable           what the map has under the key
    GetNextVariableName   a variable of the map that the caller may see
    QueryVariableInfo     what is left of the store, by the number of keys
    SetVariable           refused by the checks in front; `VarMap.set`; or, where the
                          write is authenticated, something under this key only (and
                          the mode variables, if it is PK)

Names with NUL units are outside of this: they are not told apart as byte strings.  A
read of such a name may be answered anyhow, and after a write to one the map is `none`,
and nothing is promised any more.

`loop_refines_service`: every run of the event loop is a run of the mailbox
(`Lib.Mailbox`) over this service.
-/
import Uefistored.Answered
import Uefistored.IoLoop
import Uefistored.VarMap

namespace Uefistored

open Lib

/-! ## What a page asks for -/

/-- The request in a page.  `refused` is a page that is answered with a status before it is
clear what it asks for. -/
inductive Asked
  | refused (status : EfiStatus)
  | get (req : ReadRequest)
  | set (req : SetRequest)
  | getNext (req : ReadRequest)
  | query (attrs : Attrs)
  | notify
  | unknown

/-- A request as a decoder leaves it. -/
def Asked.decoded {α : Type} (f : α → Asked) : Except EfiStatus (α × List UInt8) → Asked
  | .error status => .refused status
  | .ok (req, _) => f req

def Page.asked (page : Page) : Option Asked :=
  if page.version ≠ 1 then some (.refused .deviceError)
  else if page.command = COMMAND_GET_VARIABLE then
    (unserializeGetRequest.read page.bytes).map (Asked.decoded .get)
  else if page.command = COMMAND_SET_VARIABLE then
    (unserializeSetRequest.read page.bytes).map (Asked.decoded .set)
  else if page.command = COMMAND_GET_NEXT_VARIABLE then
    (unserializeGetNextRequest.read page.bytes).map (Asked.decoded .getNext)
  else if page.command = COMMAND_QUERY_VARIABLE_INFO then
    some (.query (BitVec.ofNat 32 (leNat ((page.bytes.drop 8).take 4))))
  else if page.command = COMMAND_NOTIFY_SB_FAILURE then some .notify
  else some .unknown

/-- The page behind an answer; without one it stays as it is. -/
def Page.answered (page : Page) : Option PageReply → Option Page
  | none => some page
  | some reply => page.put reply.encode

/-! ## What the service answers -/

/-- The key of a request whose name has no NUL units. -/
def ReadRequest.varKey (req : ReadRequest) (h : NulFree req.name) : VarKey :=
  ⟨req.name, req.guid, h, req.name_fits⟩

/-- GetVariable on the map. -/
def VarMap.reply (M : VarMap) (K : VarKey) (bufferSize : Nat) (atRuntime : Bool) : PageReply :=
  match M.lookup K with
  | none => .result .notFound
  | some e =>
    if rtDenyAccess atRuntime e.attrs then .result .notFound
    else if bufferSize < e.data.length then .tooSmall e.data.length
    else .found e.attrs e.data

/-- GetNextVariableName on the map: there is no further variable; or there is one, and the
guest's buffer is too small for its name and the NUL behind it, or takes them. -/
inductive VarMap.Lists (M : VarMap) (bufferSize : Nat) (atRuntime : Bool) : PageReply → Prop
  | notFound : VarMap.Lists M bufferSize atRuntime (.result .notFound)
  | tooSmall {K : VarKey} {e : Entry} : M.lookup K = some e →
      rtDenyAccess atRuntime e.attrs = false → bufferSize < K.name.length + 2 →
      VarMap.Lists M bufferSize atRuntime (.tooSmall (K.name.length + 2))
  | next {K : VarKey} {e : Entry} : M.lookup K = some e → rtDenyAccess atRuntime e.attrs = false →
      K.name.length + 2 ≤ bufferSize →
      VarMap.Lists M bufferSize atRuntime (.next (leBytes 8 K.name.length ++ K.name) K.guid)

/-- QueryVariableInfo on the map. -/
def VarMap.info (M : VarMap) (attrs : Attrs) : PageReply :=
  if attrs == 0 || (attrs.has EFI_VARIABLE_RUNTIME_ACCESS &&
      !attrs.has EFI_VARIABLE_BOOTSERVICE_ACCESS) then .result .invalidParameter
  else .info MAX_STORAGE_SIZE (MAX_STORAGE_SIZE - M.keys.card * MAX_VARIABLE_SIZE) MAX_VARIABLE_SIZE

/-- The maps differ under `K` only, and under the mode variables if `K` is PK. -/
def VarMap.AgreeOff (K : VarKey) (M M' : VarMap) : Prop :=
  ∀ K' : VarKey, K' ≠ K → (variableClass K.key = .pk → K'.key ∉ modeKeys) →
    M'.lookup K' = M.lookup K'

/-- What the service may answer, and the map it leaves. -/
inductive Replies (M : VarMap) : Asked → Option PageReply → Option VarMap → Prop
  | refused (status : EfiStatus) : Replies M (.refused status) (some (.result status)) (some M)
  | unknown : Replies M .unknown none (some M)
  | get {req : ReadRequest} (h : NulFree req.name) :
      Replies M (.get req) (some (M.reply (req.varKey h) req.bufferSize req.atRuntime)) (some M)
  | getUnnamed {req : ReadRequest} (reply : PageReply) : ¬ NulFree req.name →
      Replies M (.get req) (some reply) (some M)
  | getNext {req : ReadRequest} {reply : PageReply} :
      M.Lists req.bufferSize req.atRuntime reply → Replies M (.getNext req) (some reply) (some M)
  | query (attrs : Attrs) : Replies M (.query attrs) (some (M.info attrs)) (some M)
  | notify {status : EfiStatus} : status = .success ∨ status = .deviceError →
      Replies M .notify (some (.result status)) (some M)
  | setRefused {req : SetRequest} {status : EfiStatus} : refusal req = some status →
      Replies M (.set req) (some (.result status)) (some M)
  | set {req : SetRequest} {status : EfiStatus} (h : NulFree req.name) : refusal req = none →
      req.attrs.timeBased = false → isSecureBootVariable req.key = false →
      (status == .success) = (M.set (req.varKey h) req.data req.attrs).isSome →
      Replies M (.set req) (some (.result status))
        (some ((M.set (req.varKey h) req.data req.attrs).getD M))
  | setAuthenticated {req : SetRequest} {M' : VarMap} (status : EfiStatus) (h : NulFree req.name) :
      refusal req = none → (req.attrs.timeBased || isSecureBootVariable req.key) = true →
      M.AgreeOff (req.varKey h) M' →
      Replies M (.set req) (some (.result status)) (some M')
  | setUnnamed {req : SetRequest} (status : EfiStatus) : ¬ NulFree req.name → refusal req = none →
      Replies M (.set req) (some (.result status)) none

/-! ## The map behind a request -/

namespace Represents

variable {s s' : Storage} {M : VarMap}

/-- Writes lead from a store that stands for a map to one that stands for a map. -/
theorem writes (h : Represents s M) (hw : Writes Key.IsVarKey s s') : ∃ M', Represents s' M' := by
  refine hw.invariant (I := fun t => ∃ M', Represents t M') ?_ ⟨M, h⟩
  rintro _ s₁ s₂ ⟨K, rfl⟩ hw ⟨M₁, h₁⟩
  cases hfind : storageFindVariable s₂ K.key with
  | none =>
      refine ⟨M₁.erase K, h₁.of_write hw ?_ (fun K' hK' => Finmap.lookup_erase_ne hK')⟩
      rw [Finmap.lookup_erase, hfind]
      rfl
  | some v =>
      refine ⟨M₁.insert K v.entry, h₁.of_write hw ?_
        (fun K' hK' => Finmap.lookup_insert_of_ne _ hK')⟩
      rw [Finmap.lookup_insert, hfind]
      rfl

/-- Where no write was under `K`, the maps have the same there. -/
theorem lookup_eq {M' : VarMap} {S : Key → Prop} (h : Represents s M) (h' : Represents s' M')
    (hw : Writes S s s') {K : VarKey} (hS : ∀ k, S k → k.IsVarKey ∧ k ≠ K.key) :
    M'.lookup K = M.lookup K := by
  rw [h.lookup, h'.lookup, hw.find_eq (fun k hk => (hS k hk).1.spares (hS k hk).2)]

/-- What a look-up finds stands in the map under the key it has. -/
theorem lookup_of_used (h : Represents s M) {i : Fin MAX_VAR_COUNT}
    (hi : (s.vars i).isValid = true) : ∃ K : VarKey, M.lookup K = some (s.vars i).entry ∧
      (s.vars i).namesz = K.name.length ∧ (s.vars i).keyBytes = K.name ∧
      (s.vars i).guid = K.guid := by
  obtain ⟨K, hmatch⟩ := h.tidy.named i (Variable.isFree_of_isValid hi)
  obtain ⟨hsize, hbytes, hguid⟩ := Variable.isMatch_iff.mp hmatch
  exact ⟨K, h.lookup_some (h.tidy.keyed.findSlot_eq K.clean hmatch), hsize,
    hbytes.trans K.key_bytes, hguid⟩

/-- What is used is one `MAX_VARIABLE_SIZE` for every key, and never all there is. -/
theorem remaining_eq (h : Represents s M) :
    sub64 MAX_STORAGE_SIZE s.used = MAX_STORAGE_SIZE - M.keys.card * MAX_VARIABLE_SIZE := by
  have hused : s.used = M.keys.card * MAX_VARIABLE_SIZE := by
    rw [h.card_keys, ← h.tidy.counted.total]
    exact h.tidy.counted.used
  have hcard : M.keys.card ≤ 128 := h.card_le
  have hmax : MAX_STORAGE_SIZE = 1073741824 := by decide
  have hsize : MAX_VARIABLE_SIZE = 33024 := by decide
  have hle : s.used ≤ MAX_STORAGE_SIZE := by
    rw [hused, hmax, hsize]
    omega
  rw [sub64_of_le hle (by rw [hmax]; omega), hused]

end Represents

/-! ## Request by request -/

/-- The map of the service is the one that the store stands for, as long as there is one. -/
def Stands (m : Machine) (M : Option VarMap) : Prop :=
  ∀ M', M = some M' → Represents m.storage M'

theorem Represents.stands {m : Machine} {M : VarMap} (h : Represents m.storage M) :
    Stands m (some M) := by
  rintro _ ⟨⟩
  exact h

theorem stands_none (m : Machine) : Stands m none := by
  rintro _ ⟨⟩

/-- The request is answered as the service does. -/
def AnsweredBy (M : VarMap) (asked : Option Asked) (reply : Option PageReply)
    (m' : Machine) : Prop :=
  ∃ a M', asked = some a ∧ Replies M a reply M' ∧ Stands m' M'

namespace Represents

section
variable {s : Storage} {M : VarMap}

theorem getVariable_eq (h : Represents s M) {req : ReadRequest} (hname : NulFree req.name)
    (hc : req.command = COMMAND_GET_VARIABLE) :
    getVariable s req = M.reply (req.varKey hname) req.bufferSize req.atRuntime := by
  have hne : req.name ≠ [] := by
    intro hnil
    have htwo := hname.two_le
    simp [hnil] at htwo
  have hkey : (req.varKey hname).key = req.key := rfl
  unfold getVariable VarMap.reply
  rw [if_neg (not_not.mpr hc), if_neg hne, h.lookup, hkey]
  cases storageFindVariable s req.key <;> rfl

/-- Only what the caller may see is listed. -/
theorem storageNextVariable_listed {efiAtRuntime : Bool} {k : Key} {i : Fin MAX_VAR_COUNT}
    (h : storageNextVariable s efiAtRuntime k = some i) :
    (s.vars i).isListed efiAtRuntime = true := by
  unfold storageNextVariable at h
  split at h
  · unfold storageGetFirst at h
    split at h
    · cases h
    · exact Slots.first_pred h
  · split at h
    · cases h
    · exact (Slots.firstFrom_eq_some_iff.mp h).1

theorem getNextVariable_lists (h : Represents s M) {req : ReadRequest} {reply : PageReply}
    (hr : getNextVariable s req = some reply) : M.Lists req.bufferSize req.atRuntime reply := by
  unfold getNextVariable at hr
  split at hr
  · cases hr
  split at hr
  · cases hr
    exact .notFound
  · rename_i i hi
    have hlisted := storageNextVariable_listed hi
    rw [Variable.isListed, Bool.and_eq_true, Bool.not_eq_true'] at hlisted
    obtain ⟨hvalid, hseen⟩ := hlisted
    obtain ⟨K, hlookup, hsize, hbytes, hguid⟩ := h.lookup_of_used hvalid
    have hfits : K.name.length ≤ 256 := K.fits
    have hroom : add64 (s.vars i).namesz 2 = K.name.length + 2 := by
      rw [hsize, add64_of_lt (by omega)]
    unfold nextReply at hr
    rw [hroom] at hr
    split at hr
    · rename_i hsmall
      cases hr
      exact .tooSmall hlookup hseen hsmall
    · rename_i hlarge
      obtain ⟨name, hname, hr⟩ := Option.bind_eq_some_iff.mp hr
      cases hr
      rw [serializeName, if_pos (hsize ▸ K.fits), hsize, hbytes] at hname
      cases hname
      rw [hguid]
      exact .next hlookup hseen (Nat.not_lt.mp hlarge)

end

section
variable {P X : Type} {m m' : Machine} {M : VarMap} {page : Page}

/-- A write that is authenticated: under other keys the map is as it was. -/
theorem handleSetVariable_agreeOff (h : Represents m.storage M) {ssl : Phase → OpenSsl P X}
    {req : SetRequest} {status : EfiStatus} (hname : NulFree req.name)
    (hset : handleSetVariable ssl m req = some (status, m')) :
    ∃ M', Represents m'.storage M' ∧ M.AgreeOff (req.varKey hname) M' := by
  have hself : req.key.IsVarKey := ⟨req.varKey hname, rfl⟩
  have hwrites : Writes (fun k => k = req.key ∨ variableClass req.key = .pk ∧ k ∈ modeKeys)
      m.storage m'.storage := by
    obtain ⟨mid, hmid, ⟨hstorage, -⟩ | ⟨hpk, mode, hstorage, -⟩⟩ := handleSetVariable_effect hset
    · rw [hstorage]
      exact hmid.writes.mono (fun _ => .inl)
    · rw [hstorage]
      exact (hmid.writes.mono (fun _ => .inl)).trans
        ((updatePlatformMode_writes mid mode).mono (fun _ hk => .inr ⟨hpk, hk⟩))
  obtain ⟨M', hM'⟩ := h.writes (hwrites.mono (by
    rintro k (rfl | ⟨-, hk⟩)
    · exact hself
    · exact modeKeys_isVarKey k hk))
  refine ⟨M', hM', fun K hK hmode => h.lookup_eq hM' hwrites ?_⟩
  rintro k (rfl | ⟨hpk, hk⟩)
  · refine ⟨hself, fun heq => hK ?_⟩
    exact (VarKey.eq_of_same (K := req.varKey hname) (heq ▸ ⟨rfl, rfl, rfl⟩)).symm
  · exact ⟨modeKeys_isVarKey k hk, fun heq => hmode hpk (heq ▸ hk)⟩

theorem handleSetVariable_replies (h : Represents m.storage M) {ssl : Phase → OpenSsl P X}
    {req : SetRequest} {status : EfiStatus}
    (hset : handleSetVariable ssl m req = some (status, m')) :
    AnsweredBy M (some (.set req)) (some (.result status)) m' := by
  by_cases hname : NulFree req.name
  · cases handleSetVariable_cases hset with
    | refused hr => exact ⟨_, _, rfl, .setRefused hr, h.stands⟩
    | authenticated hr hauth =>
        obtain ⟨M', hM', hoff⟩ := h.handleSetVariable_agreeOff hname hset
        exact ⟨_, _, rfl, .setAuthenticated _ hname hr hauth hoff, hM'.stands⟩
    | plain hr htb hsb =>
        have hagrees := h.set (req.varKey hname) req.data req.attrs
        refine ⟨_, _, rfl, .set hname hr htb hsb hagrees.ok, ?_⟩
        rintro _ ⟨⟩
        rw [Machine.saved_storage]
        exact hagrees.represents
  · cases hr : refusal req with
    | none => exact ⟨_, _, rfl, .setUnnamed status hname hr, stands_none m'⟩
    | some status' =>
        rw [handleSetVariable_refused ssl m hr] at hset
        cases hset
        exact ⟨_, _, rfl, .setRefused hr, h.stands⟩

/-! ## The page -/

variable {reply : PageReply}

theorem handleGetVariable_replies (h : Represents m.storage M) (hv : page.version = 1)
    (hc : page.command = COMMAND_GET_VARIABLE)
    (ha : handleGetVariable m page = some (reply, m')) :
    AnsweredBy M ((unserializeGetRequest.read page.bytes).map (Asked.decoded .get)) (some reply)
      m' := by
  unfold handleGetVariable at ha
  rw [unserializeGetRequest_front hv] at ha ⊢
  rcases page.decodes (getFields_decodes page.command) (by decide) with
    herr | ⟨req, rest, hok, hreq⟩
  · rw [herr] at ha ⊢
    cases ha
    exact ⟨_, _, rfl, .refused _, h.stands⟩
  · rw [hok] at ha ⊢
    cases ha
    by_cases hname : NulFree req.name
    · rw [h.getVariable_eq hname (hreq.trans hc)]
      exact ⟨_, _, rfl, .get hname, h.stands⟩
    · exact ⟨_, _, rfl, .getUnnamed _ hname, h.stands⟩

theorem handleGetNextVariable_replies (h : Represents m.storage M) (hv : page.version = 1)
    (ha : handleGetNextVariable m page = some (reply, m')) :
    AnsweredBy M ((unserializeGetNextRequest.read page.bytes).map (Asked.decoded .getNext))
      (some reply) m' := by
  unfold handleGetNextVariable at ha
  rw [unserializeGetNextRequest_front hv] at ha ⊢
  rcases page.decodes (getNextFields_decodes page.command) (by decide) with
    herr | ⟨req, rest, hok, -⟩
  · rw [herr] at ha ⊢
    cases ha
    exact ⟨_, _, rfl, .refused _, h.stands⟩
  · rw [hok] at ha ⊢
    dsimp only [Option.bind_eq_bind, Option.bind_some] at ha
    obtain ⟨reply', hreply, ha⟩ := Option.bind_eq_some_iff.mp ha
    cases ha
    exact ⟨_, _, rfl, .getNext (h.getNextVariable_lists hreply), h.stands⟩

theorem handleSetRequest_replies (h : Represents m.storage M) {ssl : Phase → OpenSsl P X}
    (hv : page.version = 1) (ha : handleSetRequest ssl m page = some (reply, m')) :
    AnsweredBy M ((unserializeSetRequest.read page.bytes).map (Asked.decoded .set)) (some reply)
      m' := by
  unfold handleSetRequest at ha
  rw [unserializeSetRequest_front hv] at ha ⊢
  rcases page.decodes (setFields_decodes page.command) (by decide) with
    herr | ⟨req, rest, hok, -⟩
  · rw [herr] at ha ⊢
    cases ha
    exact ⟨_, _, rfl, .refused _, h.stands⟩
  · rw [hok] at ha ⊢
    dsimp only [Option.bind_eq_bind, Option.bind_some] at ha
    obtain ⟨⟨status, m₁⟩, hset, ha⟩ := Option.bind_eq_some_iff.mp ha
    cases ha
    exact h.handleSetVariable_replies hset

theorem queryVariableInfo_replies (h : Represents m.storage M) (hv : page.version = 1)
    (hc : page.command = COMMAND_QUERY_VARIABLE_INFO)
    (ha : queryVariableInfo m page = some (reply, m')) :
    AnsweredBy M (some (.query (BitVec.ofNat 32 (leNat ((page.bytes.drop 8).take 4)))))
      (some reply) m' := by
  have hversion : page.version = UEFISTORED_VERSION := hv
  unfold queryVariableInfo handleQueryVariableInfo at ha
  rw [if_neg (not_not.mpr hversion), if_neg (not_not.mpr hc), h.remaining_eq] at ha
  generalize BitVec.ofNat 32 (leNat ((page.bytes.drop 8).take 4)) = attrs at ha ⊢
  have hinfo : reply = M.info attrs ∧ m' = m := by
    unfold VarMap.info
    split at ha
    · rename_i status hbad
      cases ha
      split at hbad
      · rename_i hcond
        cases hbad
        exact ⟨(if_pos hcond).symm, rfl⟩
      · cases hbad
    · rename_i hgood
      cases ha
      split at hgood
      · cases hgood
      · rename_i hcond
        cases hgood
        exact ⟨(if_neg hcond).symm, rfl⟩
  obtain ⟨rfl, rfl⟩ := hinfo
  exact ⟨_, _, rfl, .query attrs, h.stands⟩

/-- Whatever is in the page, it is answered as the service does. -/
theorem answer_replies (h : Represents m.storage M) {out : Outside P X}
    {reply : Option PageReply} (ha : answer out m page = some (reply, m')) :
    AnsweredBy M page.asked reply m' := by
  unfold answer at ha
  unfold Page.asked
  split at ha
  · rename_i hv
    rw [if_pos hv]
    cases ha
    exact ⟨_, _, rfl, .refused _, h.stands⟩
  rename_i hv
  rw [if_neg hv]
  rw [not_not] at hv
  split at ha
  · -- no case of the switch
    rename_i hnone
    cases ha
    unfold handler at hnone
    split_ifs at hnone with hget hset hnext hquery hnotify
    rw [if_neg hget, if_neg hset, if_neg hnext, if_neg hquery, if_neg hnotify]
    exact ⟨_, _, rfl, .unknown, h.stands⟩
  · rename_i handle hhandle
    obtain ⟨⟨reply', m₁⟩, ha, hr⟩ := Option.bind_eq_some_iff.mp ha
    cases hr
    unfold handler at hhandle
    split_ifs at hhandle with hget hset hnext hquery hnotify
    · cases hhandle
      rw [if_pos hget]
      exact h.handleGetVariable_replies hv hget ha
    · cases hhandle
      rw [if_neg hget, if_pos hset]
      exact h.handleSetRequest_replies hv ha
    · cases hhandle
      rw [if_neg hget, if_neg hset, if_pos hnext]
      exact h.handleGetNextVariable_replies hv ha
    · cases hhandle
      rw [if_neg hget, if_neg hset, if_neg hnext, if_pos hquery]
      exact h.queryVariableInfo_replies hv hquery ha
    · cases hhandle
      rw [if_neg hget, if_neg hset, if_neg hnext, if_neg hquery, if_pos hnotify]
      cases ha
      refine ⟨_, _, rfl, .notify ?_, h.stands⟩
      split
      · exact .inr rfl
      · exact .inl rfl

end

end Represents

/-! ## The service and the memory -/

/-- The guest's memory and the map. -/
structure Service extends GuestMemory where
  store : Option VarMap

/-- One request, in one piece: it is none for the server, or its window is not mapped; or the
page in the window is answered from the map; or there is no map any more. -/
inductive Service.Handles (io : PortIo) (v : Service) (c : IoCall) : Service → Prop
  | ignored : ¬ c.Addressed io ∨ mapGuestMemory v.toGuestMemory c.data = none →
      Service.Handles io v c v
  | answered {page page' : Page} {M : VarMap} {asked : Asked} {reply : Option PageReply}
      {M' : Option VarMap} : c.Addressed io →
      mapGuestMemory v.toGuestMemory c.data = some page → v.store = some M →
      page.asked = some asked → Replies M asked reply M' → page.answered reply = some page' →
      Service.Handles io v c ⟨v.share c.data page', M'⟩
  | unpromised {page : Page} (page' : Page) : c.Addressed io →
      mapGuestMemory v.toGuestMemory c.data = some page → v.store = none →
      Service.Handles io v c ⟨v.share c.data page', none⟩

/-- The guest's own changes. -/
def Service.Changes (v : Service) (e : GuestChange) (v' : Service) : Prop :=
  v' = ⟨v.change e, v.store⟩

/-- The world shows the service: the memory is the same, and the store stands for the map. -/
structure World.Shows (w : World) (v : Service) : Prop where
  memory : w.toGuestMemory = v.toGuestMemory
  store : Stands w.machine v.store

section
variable {P X : Type}

theorem handleRequest_answered {out : Outside P X} {m m' : Machine} {page page' : Page}
    (h : xenVariableServerHandleRequest out m page = some (page', m')) :
    ∃ reply, answer out m page = some (reply, m') ∧ page.answered reply = some page' := by
  unfold xenVariableServerHandleRequest at h
  obtain ⟨⟨reply, m₁⟩, ha, h⟩ := Option.bind_eq_some_iff.mp h
  cases reply with
  | none =>
      cases h
      exact ⟨none, ha, rfl⟩
  | some reply =>
      obtain ⟨page₁, hput, h⟩ := Option.bind_eq_some_iff.mp h
      cases h
      exact ⟨some reply, ha, hput⟩

/-- A request that is handled is one that the service handles. -/
theorem World.Shows.handles {out : Outside P X} {io : PortIo} {w w' : World} {v : Service}
    {c : IoCall} (hw : w.Shows v) (h : handleIoreq out io w c = some w') :
    ∃ v', v.Handles io c v' ∧ w'.Shows v' := by
  obtain ⟨hmemory, hstore⟩ := hw
  obtain ⟨hnone, rfl⟩ | ⟨haddr, page, page', m, hmap, hhandle, rfl⟩ := handleIoreq_cases h
  · rw [hmemory] at hnone
    exact ⟨v, .ignored hnone, hmemory, hstore⟩
  · have hshare : w.share c.data page' = v.share c.data page' :=
      congrArg (fun g => g.share c.data page') hmemory
    rw [hmemory] at hmap
    cases hv : v.store with
    | none => exact ⟨_, .unpromised page' haddr hmap hv, hshare, stands_none m⟩
    | some M =>
        obtain ⟨reply, ha, hpage⟩ := handleRequest_answered hhandle
        obtain ⟨asked, M', hasked, hreplies, hM'⟩ := (hstore M hv).answer_replies ha
        exact ⟨_, .answered haddr hmap hv hasked hreplies hpage, hshare, hM'⟩

theorem World.Shows.changes {w w' : World} {v : Service} {e : GuestChange} (hw : w.Shows v)
    (h : Changes w e w') : ∃ v', v.Changes e v' ∧ w'.Shows v' := by
  cases h
  exact ⟨_, rfl, congrArg (fun g => g.change e) hw.memory, hw.store⟩

open Mailbox (servesOf othersOf)

/-- **The loop is a service on a map**: in every run from a store that stands for a map, in which
the guest writes to its memory between the calls of `handle_ioreq` only, the requests that the
vCPUs posted are handled by the service, each in one piece, once and in the order of its vCPU but
for one that waits; the guest's memory is at every time what the service made of it; and the
store stands for the map. -/
theorem loop_refines_service {n : Nat} {io : PortIo} {ports : Fin n → Nat} {s s' : IoLoop n}
    {ls : List (IoLabel n P X)} {M : VarMap} (hs : s.Fresh)
    (hM : Represents s.world.machine.storage M) (h : Run (IoStep io ports) s ls s') :
    ∃ es v, Run (Mailbox.Step (Service.Handles io) Service.Changes)
        ⟨⟨s.world.toGuestMemory, some M⟩, fun _ => .empty⟩ es ⟨v, s'.cell⟩ ∧ s'.world.Shows v ∧
      (∀ i, postsOf i ls = servesOf i es ++ (s'.cell i).calls) ∧ changesOf ls = othersOf es := by
  obtain ⟨es, hes⟩ := (hs.sound ports).explained h
  have hcell : s.cell = fun _ => .empty := by
    funext i
    simp [IoLoop.cell, hs.slots i]
  have hshows : s.mail.world.Shows ⟨s.world.toGuestMemory, some M⟩ := ⟨rfl, hM.stands⟩
  have hserve : ∀ (w : World) (v : Service) (c : IoCall) (w' : World), w.Shows v →
      Serves P X io w c w' → ∃ v', v.Handles io c v' ∧ w'.Shows v' := by
    rintro w v c w' hw ⟨_, hout⟩
    exact hw.handles hout
  have hother : ∀ (w : World) (v : Service) (e : GuestChange) (w' : World), w.Shows v →
      Changes w e w' → ∃ v', v.Changes e v' ∧ w'.Shows v' :=
    fun _ _ _ _ hw he => hw.changes he
  obtain ⟨v, hrun, hv⟩ := Mailbox.run_simulation hserve hother hes.run hshows
  refine ⟨es, v, ?_, hv, fun i => ?_, hes.changes.symm⟩
  · rw [← hcell]
    exact hrun
  · have hcalls := Mailbox.run_calls hes.run i
    rw [hes.calls i] at hcalls
    simpa [IoLoop.mail, hcell, Mailbox.Cell.calls] using hcalls

end

/-- The request to set the variable `"A"` to one byte, in the first frame of the guest. -/
def setLoop : IoLoop 1 :=
  { zeroLoop with world :=
      ⟨⟨Function.update (fun _ => Block.zero _) 0 (Block.ofList PAGE_SIZE
        (xenSetVariable (wide ['A']) gEfiGlobalVariableGuid RT_BS_ATTRS [1] false)),
        fun _ => true⟩, freshMachine⟩ }

/-- A window begins with its first frame. -/
theorem GuestMemory.window_front (w : GuestMemory) (start : UInt64) :
    (w.frames start).bytes <+: (w.window start).bytes := by
  have hlen : ((shmem start).flatMap (fun g => (w.frames g).bytes)).length =
      MAX_SHARED_OVMF_MEM := by
    simp only [List.length_flatMap, Block.length_eq, shmem, List.map_map, Function.comp_def]
    simp only [List.map_const', List.length_range, List.sum_replicate]
    rfl
  have hfirst : shmem start = start :: (shmem start).tail := by
    simp [shmem, SHMEM_PAGES, List.range_succ_eq_map]
  rw [GuestMemory.window, Block.ofList_bytes_of_length hlen, hfirst, List.flatMap_cons]
  exact List.prefix_append ..

/-- The request is handled: `"A"` is stored. -/
theorem setLoop_handled : ∃ w, handleIoreq quietOutside (setupPortio .off 0).2 setLoop.world
    zeroCall = some w ∧ view w.machine.storage keyA = some (RT_BS_ATTRS, [1]) := by
  have haddr : zeroCall.Addressed (setupPortio .off 0).2 := ⟨rfl, by decide, rfl, rfl⟩
  have hmap : mapGuestMemory setLoop.world.toGuestMemory zeroCall.data =
      some (setLoop.world.window 0) := rfl
  have hfront : xenSetVariable (wide ['A']) gEfiGlobalVariableGuid RT_BS_ATTRS [1] false <+:
      (setLoop.world.frames 0).bytes := by
    have hsmall : (xenSetVariable (wide ['A']) gEfiGlobalVariableGuid RT_BS_ATTRS [1]
        false).length ≤ PAGE_SIZE := by decide +kernel
    exact ⟨_, (Block.ofList_bytes hsmall).symm⟩
  obtain ⟨hv, hc, rest, hread⟩ := read_xenSetVariable (by decide) (by decide)
    (hfront.trans (setLoop.world.window_front 0))
  have hset : (handleSetVariable quietOutside.ssl freshMachine
      (volatileRequest (wide ['A']) [1] ⟨by decide, by decide⟩).set).map
        (fun r => view r.2.storage keyA) = some (some (RT_BS_ATTRS, [1])) := by
    decide +kernel
  obtain ⟨⟨status, m⟩, hset, hview⟩ := Option.map_eq_some_iff.mp hset
  have hanswer : answer quietOutside freshMachine (setLoop.world.window 0) =
      some (some (.result status), m) :=
    (answer_set quietOutside freshMachine hv hc hread).trans (congrArg (Option.map _) hset)
  obtain ⟨page, hpage, -⟩ := handleRequest_of_answer quietOutside freshMachine hanswer (by
    rw [PageReply.encode, serializeResult, length_leBytes]
    decide)
  rw [handleIoreq_of_mapped haddr hmap]
  exact ⟨_, congrArg (Option.map _) hpage, hview⟩

/-- One vCPU sets `"A"`: so does the service. -/
theorem loop_refines_service_setA : ∃ (s' : IoLoop 1) (es : _) (v : Service),
    Run (IoStep (setupPortio .off 0).2 (fun _ => 7)) setLoop zeroLabels s' ∧
      view s'.world.machine.storage keyA = some (RT_BS_ATTRS, [1]) ∧ s'.world.Shows v ∧
      Run (Mailbox.Step (Service.Handles (setupPortio .off 0).2) Service.Changes)
        ⟨⟨setLoop.world.toGuestMemory, some ∅⟩, fun _ => .empty⟩ es ⟨v, s'.cell⟩ := by
  obtain ⟨w, hw, hview⟩ := setLoop_handled
  have hrun : Run (IoStep (setupPortio .off 0).2 (fun _ => 7)) setLoop zeroLabels _ :=
    .cons (.post zeroCall rfl) (.cons (.kick (by decide)) (.cons (.take rfl (by decide))
      (.cons (.step rfl) (.cons (.step (IoLoop.next_serving rfl hw)) (.nil _)))))
  have hfresh : setLoop.Fresh := ⟨fun _ => rfl, rfl, rfl, rfl⟩
  obtain ⟨es, v, hserved, hshows, -⟩ := loop_refines_service hfresh (.empty 0) hrun
  exact ⟨_, es, v, hrun, hview, hshows, hserved⟩

end Uefistored
