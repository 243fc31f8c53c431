/-
# `Uefistored.IoLoop` — the event loop and the vCPUs

`handler_loop` and `handle_shared_iopage` of `src/uefistored.c`, against the hypervisor
that posts the requests of the guest's vCPUs.

Each vCPU has a slot in the shared I/O page.  The hypervisor writes a request there and
marks it ready (`post`), raises the vCPU's event (`kick`), and takes the answer once the
slot says so (`ack`).  The server takes a pending event (`take`), goes through all slots
with that event's port, and for a ready one sets the slot to "in process", handles the
request, sets it to "answered" and notifies.  Each of these is a step of its own, so between
any two of them vCPUs may post, events may come, also without a request, and the guest may
write to its memory.  An event that comes while the same one is pending adds nothing.

A call of `handle_ioreq` is one step.  The source reads the request from the guest's memory
itself, field by field; what the guest writes there while the call runs is outside the model,
and the results are about runs in which the guest writes between the calls only.

Three results over all runs:

* `calls_served_in_order`: the loop is a mailbox (`Lib.Mailbox`): every vCPU's requests are
  handled once each, in its order;
* `server_drains`: no request is forgotten, so that the server, left alone, has handled all
  of them after a bounded number of steps;
* `other_memory_kept`: the guest's memory outside the windows of the requests is left alone.
-/
import Mathlib.Data.Finset.Card
import Uefistored.Ioreq
import Uefistored.Lib.Mailbox

namespace Uefistored

open Lib

/-- `STATE_IOREQ_NONE`, `STATE_IOREQ_READY`, `STATE_IOREQ_INPROCESS`, `STATE_IORESP_READY`. -/
inductive IoState
  | none
  | ready
  | inProcess
  | respReady
  deriving DecidableEq

/-- A slot of the shared I/O page. -/
structure Ioreq where
  call : IoCall
  state : IoState
  deriving DecidableEq

/-- Where the server is: it waits in `poll`; it looks at slot `i` for the event `port`; the slot
is in process and not handled yet; it is handled; the answer is there and not notified yet. -/
inductive Pc (n : Nat)
  | idle
  | scan (port i : Nat)
  | serving (port : Nat) (i : Fin n)
  | answered (port : Nat) (i : Fin n)
  | notifying (port : Nat) (i : Fin n)

/-- The server and what it shares with the hypervisor.  `owed` are the vCPUs that have posted
and whose event is still to be raised, `sent` the ports that were notified. -/
structure IoLoop (n : Nat) where
  world : World
  slots : Fin n → Ioreq
  pending : Finset Nat
  owed : Finset (Fin n)
  sent : List Nat
  pc : Pc n

/-- What a guest does to its memory. -/
inductive GuestChange
  | write (g : UInt64) (frame : GuestFrame)
  | remap (mappable : UInt64 → Bool)

def GuestMemory.change (w : GuestMemory) : GuestChange → GuestMemory
  | .write g frame => { w with frames := Function.update w.frames g frame }
  | .remap mappable => { w with mappable := mappable }

inductive IoLabel (n : Nat) (P X : Type)
  | post (i : Fin n) (c : IoCall)
  | kick (i : Fin n)
  | event (port : Nat)
  | ack (i : Fin n)
  | guest (e : GuestChange)
  | take (port : Nat)
  | step (out : Outside P X)

/-- The steps of the server. -/
def IoLabel.Server {n : Nat} {P X : Type} : IoLabel n P X → Prop
  | .take _ | .step _ => True
  | _ => False

variable {n : Nat} {P X : Type}

def IoLoop.setState (s : IoLoop n) (i : Fin n) (state : IoState) : IoLoop n :=
  { s with slots := Function.update s.slots i ⟨(s.slots i).call, state⟩ }

section
variable (io : PortIo) (ports : Fin n → Nat)

/-- The server's next step once it has an event: the body of the `for` loop of `handler_loop`
with `handle_shared_iopage` in it.  A call of `handle_ioreq` is one step, during which the guest
does not write. -/
def IoLoop.next (out : Outside P X) (s : IoLoop n) : Option (IoLoop n) :=
  match s.pc with
  | .idle => none
  | .scan port i =>
    if h : i < n then
      if ports ⟨i, h⟩ = port ∧ (s.slots ⟨i, h⟩).state = .ready then
        some { s.setState ⟨i, h⟩ .inProcess with pc := .serving port ⟨i, h⟩ }
      else some { s with pc := .scan port (i + 1) }
    else some { s with pc := .idle }
  | .serving port i => do
    let w ← handleIoreq out io s.world (s.slots i).call
    return { s with world := w, pc := .answered port i }
  | .answered port i => some { s.setState i .respReady with pc := .notifying port i }
  | .notifying port i => some { s with sent := s.sent ++ [port], pc := .scan port (i + 1) }

/-- One step of the hypervisor, the guest or the server. -/
inductive IoStep : IoLoop n → IoLabel n P X → IoLoop n → Prop
  | post {s : IoLoop n} {i : Fin n} (c : IoCall) : (s.slots i).state = .none →
      IoStep s (.post i c)
        { s with slots := Function.update s.slots i ⟨c, .ready⟩, owed := insert i s.owed }
  | kick {s : IoLoop n} {i : Fin n} : i ∈ s.owed →
      IoStep s (.kick i)
        { s with owed := s.owed.erase i, pending := insert (ports i) s.pending }
  | event {s : IoLoop n} (port : Nat) :
      IoStep s (.event port) { s with pending := insert port s.pending }
  | ack {s : IoLoop n} {i : Fin n} : (s.slots i).state = .respReady →
      IoStep s (.ack i) (s.setState i .none)
  | guest {s : IoLoop n} (e : GuestChange) :
      IoStep s (.guest e) { s with world := ⟨s.world.change e, s.world.machine⟩ }
  | take {s : IoLoop n} {port : Nat} : s.pc = .idle → port ∈ s.pending →
      IoStep s (.take port) { s with pending := s.pending.erase port, pc := .scan port 0 }
  | step {s s' : IoLoop n} {out : Outside P X} : s.next io ports out = some s' →
      IoStep s (.step out) s'

/-- What a step of the server can do. -/
inductive Moves (out : Outside P X) (s : IoLoop n) : IoLoop n → Prop
  | pass {port : Nat} (i : Fin n) : s.pc = .scan port i →
      ¬ (ports i = port ∧ (s.slots i).state = .ready) →
      Moves out s { s with pc := .scan port (i + 1) }
  | done {port i : Nat} : s.pc = .scan port i → n ≤ i → Moves out s { s with pc := .idle }
  | start {i : Fin n} : s.pc = .scan (ports i) i → (s.slots i).state = .ready →
      Moves out s { s.setState i .inProcess with pc := .serving (ports i) i }
  | handle {port : Nat} {i : Fin n} {w : World} : s.pc = .serving port i →
      handleIoreq out io s.world (s.slots i).call = some w →
      Moves out s { s with world := w, pc := .answered port i }
  | respond {port : Nat} {i : Fin n} : s.pc = .answered port i →
      Moves out s { s.setState i .respReady with pc := .notifying port i }
  | notify {port : Nat} {i : Fin n} : s.pc = .notifying port i →
      Moves out s { s with sent := s.sent ++ [port], pc := .scan port (i + 1) }

end

section
variable {io : PortIo} {ports : Fin n → Nat} {s s' : IoLoop n}

theorem IoLoop.next_moves {out : Outside P X} (h : s.next io ports out = some s') :
    Moves io ports out s s' := by
  unfold IoLoop.next at h
  split at h
  next => cases h
  next port i hpc =>
    split at h
    next hi =>
      split at h
      next hready =>
        obtain ⟨rfl, hready⟩ := hready
        cases h
        exact .start (i := ⟨i, hi⟩) hpc hready
      next hother =>
        cases h
        exact .pass ⟨i, hi⟩ hpc hother
    next hi =>
      cases h
      exact .done hpc (Nat.not_lt.mp hi)
  next port i hpc =>
    obtain ⟨w, hw, hs⟩ := Option.bind_eq_some_iff.mp h
    cases hs
    exact .handle hpc hw
  next port i hpc =>
    cases h
    exact .respond hpc
  next port i hpc =>
    cases h
    exact .notify hpc

theorem IoLoop.next_serving {out : Outside P X} {port : Nat} {i : Fin n} {w : World}
    (hpc : s.pc = .serving port i) (hw : handleIoreq out io s.world (s.slots i).call = some w) :
    s.next io ports out = some { s with world := w, pc := .answered port i } := by
  simp [IoLoop.next, hpc, hw]

@[simp] theorem IoLoop.setState_self (s : IoLoop n) (i : Fin n) (state : IoState) :
    (s.setState i state).slots i = ⟨(s.slots i).call, state⟩ :=
  Function.update_self ..

theorem IoLoop.setState_of_ne (s : IoLoop n) {i j : Fin n} (state : IoState) (h : j ≠ i) :
    (s.setState i state).slots j = s.slots j :=
  Function.update_of_ne h ..

/-! ## Where a request can be -/

/-- The server is at slot `i`, and the slot is in process. -/
def Pc.Busy (i : Fin n) : Pc n → Prop
  | .serving _ j | .answered _ j => j = i
  | _ => False

/-- The server has still to look at slot `i` for the event `port`. -/
def Pc.Ahead (port : Nat) (i : Fin n) : Pc n → Prop
  | .scan p j => p = port ∧ j ≤ i.val
  | .serving p j | .answered p j | .notifying p j => p = port ∧ j.val < i.val
  | .idle => False

/-- The event the server is at is the one of the slot it is at. -/
def Pc.Aimed (ports : Fin n → Nat) : Pc n → Prop
  | .serving p i | .answered p i | .notifying p i => ports i = p
  | _ => True

/-- Only the slot the server is at is in process; and of a ready slot the event is still to be
raised, or pending, or the server is on its way to the slot. -/
structure IoLoop.Sound (ports : Fin n → Nat) (s : IoLoop n) : Prop where
  busy : ∀ i, (s.slots i).state = .inProcess ↔ s.pc.Busy i
  aimed : s.pc.Aimed ports
  heard : ∀ i, (s.slots i).state = .ready →
    i ∈ s.owed ∨ ports i ∈ s.pending ∨ s.pc.Ahead (ports i) i

/-- All slots are empty, and no event is about. -/
structure IoLoop.Fresh (s : IoLoop n) : Prop where
  slots : ∀ i, (s.slots i).state = .none
  owed : s.owed = ∅
  sent : s.sent = []
  pc : s.pc = .idle

theorem IoLoop.Fresh.sound (h : s.Fresh) (ports : Fin n → Nat) : s.Sound ports where
  busy i := by simp [h.slots i, h.pc, Pc.Busy]
  aimed := by simp [h.pc, Pc.Aimed]
  heard i hi := by simp [h.slots i] at hi

/-- A ready slot is heard of at another place of the server, if it is where the server was on
its way to it. -/
theorem IoLoop.Sound.heard_at {j : Fin n} {pc : Pc n} (hs : s.Sound ports)
    (hj : (s.slots j).state = .ready) (h : s.pc.Ahead (ports j) j → pc.Ahead (ports j) j) :
    j ∈ s.owed ∨ ports j ∈ s.pending ∨ pc.Ahead (ports j) j :=
  (hs.heard j hj).imp_right (Or.imp_right h)

/-- A slot that is ready once another state is stored was ready, and is another slot. -/
theorem IoLoop.ready_of_setState {i j : Fin n} {state : IoState} (hstate : state ≠ .ready)
    (hj : ((s.setState i state).slots j).state = .ready) :
    j ≠ i ∧ (s.slots j).state = .ready := by
  have hji : j ≠ i := by
    rintro rfl
    rw [IoLoop.setState_self] at hj
    exact hstate hj
  rw [IoLoop.setState_of_ne s _ hji] at hj
  exact ⟨hji, hj⟩

/-- Storing a state at the slot the server is at. -/
theorem IoLoop.Sound.busy_setState {i : Fin n} {state : IoState} {pc : Pc n} (hs : s.Sound ports)
    (hi : state = .inProcess ↔ pc.Busy i) (hother : ∀ j, j ≠ i → (s.pc.Busy j ↔ pc.Busy j))
    (j : Fin n) : ((s.setState i state).slots j).state = .inProcess ↔ pc.Busy j := by
  by_cases hji : j = i
  · subst hji
    rw [IoLoop.setState_self]
    exact hi
  · rw [IoLoop.setState_of_ne s _ hji]
    exact (hs.busy j).trans (hother j hji)

theorem Moves.sound {out : Outside P X} (h : Moves io ports out s s') (hs : s.Sound ports) :
    s'.Sound ports := by
  cases h with
  | @pass port i hpc hother =>
      refine ⟨fun j => ?_, trivial, fun j hj => hs.heard_at hj ?_⟩
      · have hbusy := hs.busy j
        simpa [hpc, Pc.Busy] using hbusy
      · -- the slot that is passed is not the one that is ready
        rw [hpc]
        rintro ⟨hport, hle⟩
        have hne : i ≠ j := by
          rintro rfl
          exact hother ⟨hport.symm, hj⟩
        have hval : i.val ≠ j.val := fun hval => hne (Fin.ext hval)
        refine ⟨hport, ?_⟩
        omega
  | @done port i hpc hi =>
      refine ⟨fun j => ?_, trivial, fun j hj => hs.heard_at hj ?_⟩
      · have hbusy := hs.busy j
        simpa [hpc, Pc.Busy] using hbusy
      · rw [hpc]
        rintro ⟨-, hle⟩
        have hlt := j.isLt
        omega
  | @start i hpc hready =>
      refine ⟨hs.busy_setState (by simp [Pc.Busy]) ?_, rfl, fun j hj => ?_⟩
      · intro j hji
        simp [hpc, Pc.Busy, Ne.symm hji]
      · obtain ⟨hji, hj⟩ := IoLoop.ready_of_setState (by decide) hj
        refine hs.heard_at hj ?_
        rw [hpc]
        rintro ⟨hport, hle⟩
        have hval : j.val ≠ i.val := fun hval => hji (Fin.ext hval)
        refine ⟨hport, ?_⟩
        omega
  | @handle port i w hpc hw =>
      have haimed := hs.aimed
      rw [hpc] at haimed
      refine ⟨fun j => ?_, haimed, fun j hj => hs.heard_at hj ?_⟩
      · have hbusy := hs.busy j
        simpa [hpc, Pc.Busy] using hbusy
      · rw [hpc]
        exact id
  | @respond port i hpc =>
      have haimed := hs.aimed
      rw [hpc] at haimed
      refine ⟨hs.busy_setState (by simp [Pc.Busy]) ?_, haimed, fun j hj => ?_⟩
      · intro j hji
        simp [hpc, Pc.Busy, Ne.symm hji]
      · obtain ⟨-, hj⟩ := IoLoop.ready_of_setState (by decide) hj
        refine hs.heard_at hj ?_
        rw [hpc]
        exact id
  | @notify port i hpc =>
      refine ⟨fun j => ?_, trivial, fun j hj => hs.heard_at hj ?_⟩
      · have hbusy := hs.busy j
        simpa [hpc, Pc.Busy] using hbusy
      · rw [hpc]
        exact id

theorem IoStep.sound {l : IoLabel n P X} (h : IoStep io ports s l s') (hs : s.Sound ports) :
    s'.Sound ports := by
  cases h with
  | @post i c hnone =>
      refine ⟨fun j => ?_, hs.aimed, fun j hj => ?_⟩
      · by_cases hji : j = i
        · subst hji
          have hbusy := hs.busy j
          simpa [hnone] using hbusy
        · simpa [Function.update_of_ne hji] using hs.busy j
      · by_cases hji : j = i
        · subst hji
          exact .inl (Finset.mem_insert_self ..)
        · have hheard := hs.heard j (by simpa [Function.update_of_ne hji] using hj)
          exact hheard.imp (Finset.mem_insert_of_mem) id
  | @kick i howed =>
      refine ⟨hs.busy, hs.aimed, fun j hj => ?_⟩
      by_cases hji : j = i
      · subst hji
        exact .inr (.inl (Finset.mem_insert_self ..))
      · exact (hs.heard j hj).imp (fun h => Finset.mem_erase.mpr ⟨hji, h⟩)
          (Or.imp Finset.mem_insert_of_mem id)
  | event port =>
      refine ⟨hs.busy, hs.aimed, fun j hj => ?_⟩
      exact (hs.heard j hj).imp id (Or.imp Finset.mem_insert_of_mem id)
  | @ack i hresp =>
      refine ⟨hs.busy_setState ?_ (fun _ _ => .rfl), hs.aimed, fun j hj => ?_⟩
      · have hbusy := hs.busy i
        simpa [hresp, IoLoop.setState] using hbusy
      · exact hs.heard j (IoLoop.ready_of_setState (by decide) hj).2
  | guest e => exact ⟨hs.busy, hs.aimed, hs.heard⟩
  | @take port hpc hport =>
      refine ⟨fun j => ?_, trivial, fun j hj => ?_⟩
      · have hbusy := hs.busy j
        simpa [hpc, Pc.Busy] using hbusy
      · obtain howed | hpend | hahead := hs.heard j hj
        · exact .inl howed
        · by_cases heq : ports j = port
          · exact .inr (.inr ⟨heq.symm, Nat.zero_le _⟩)
          · exact .inr (.inl (Finset.mem_erase.mpr ⟨heq, hpend⟩))
        · simp [hpc, Pc.Ahead] at hahead
  | step hnext => exact (IoLoop.next_moves hnext).sound hs

/-- Every state of a run from a fresh one is sound. -/
theorem IoLoop.Sound.run {ls : List (IoLabel n P X)} (hs : s.Sound ports)
    (h : Run (IoStep io ports) s ls s') : s'.Sound ports :=
  h.invariant (fun _ _ _ hstep => hstep.sound) hs

end

/-! ## The loop as a mailbox -/

open Mailbox (Cell Event callsOf servesOf returnsOf othersOf served)

/-- What a slot is for its vCPU.  A slot in process is served once `handle_ioreq` returned. -/
def IoLoop.cell (s : IoLoop n) (i : Fin n) : Cell IoCall :=
  match (s.slots i).state with
  | .none => .empty
  | .ready => .waiting (s.slots i).call
  | .inProcess =>
    match s.pc with
    | .answered _ _ => .served
    | _ => .waiting (s.slots i).call
  | .respReady => .served

def IoLoop.mail (s : IoLoop n) : Mailbox.State (Fin n) IoCall World := ⟨s.world, s.cell⟩

/-- Handling a request in one piece. -/
def Serves (P X : Type) (io : PortIo) (w : World) (c : IoCall) (w' : World) : Prop :=
  ∃ out : Outside P X, handleIoreq out io w c = some w'

/-- The guest's own changes. -/
def Changes (w : World) (e : GuestChange) (w' : World) : Prop := w' = ⟨w.change e, w.machine⟩

/-- The requests that vCPU `i` posted, in order. -/
def postsOf (i : Fin n) (ls : List (IoLabel n P X)) : List IoCall :=
  ls.filterMap fun
    | .post j c => if j = i then some c else none
    | _ => none

/-- How many answers vCPU `i` took. -/
def acksOf (i : Fin n) (ls : List (IoLabel n P X)) : Nat :=
  ls.countP fun
    | .ack j => j = i
    | _ => false

/-- What the guest did to its memory, in order. -/
def changesOf (ls : List (IoLabel n P X)) : List GuestChange :=
  ls.filterMap fun
    | .guest e => some e
    | _ => none

/-- The port of an answer that is not notified yet. -/
def Pc.unsent : Pc n → List Nat
  | .answered port _ | .notifying port _ => [port]
  | _ => []

/-- The events `es` of the mailbox account for the steps `ls` of the loop. -/
structure Explains (io : PortIo) (ports : Fin n → Nat) (s : IoLoop n) (ls : List (IoLabel n P X))
    (es : List (Event (Fin n) IoCall GuestChange)) (s' : IoLoop n) : Prop where
  run : Run (Mailbox.Step (Serves P X io) Changes) s.mail es s'.mail
  calls : ∀ i, callsOf i es = postsOf i ls
  returns : ∀ i, returnsOf i es = acksOf i ls
  changes : othersOf es = changesOf ls
  sent : s.sent ++ s.pc.unsent ++ (served es).map (fun e => ports e.1) = s'.sent ++ s'.pc.unsent

section
variable {io : PortIo} {ports : Fin n → Nat} {s s₁ s' : IoLoop n}

theorem Explains.append {ls ls' : List (IoLabel n P X)}
    {es es' : List (Event (Fin n) IoCall GuestChange)} (h : Explains io ports s ls es s₁)
    (h' : Explains io ports s₁ ls' es' s') : Explains io ports s (ls ++ ls') (es ++ es') s' where
  run := h.run.append h'.run
  calls i := by
    rw [Mailbox.callsOf_append, h.calls, h'.calls]
    exact List.filterMap_append.symm
  returns i := by
    rw [Mailbox.returnsOf_append, h.returns, h'.returns]
    exact List.countP_append.symm
  changes := by
    have hothers : othersOf (es ++ es') = othersOf es ++ othersOf es' := List.filterMap_append
    rw [hothers, h.changes, h'.changes]
    exact List.filterMap_append.symm
  sent := by
    have hserved : served (es ++ es') = served es ++ served es' := List.filterMap_append
    rw [hserved, List.map_append, ← List.append_assoc, h.sent, h'.sent]

/-- A step the mailbox does not see. -/
theorem Explains.silent {l : IoLabel n P X} (hmail : s'.mail = s.mail)
    (hpost : ∀ i, postsOf i [l] = []) (hack : ∀ i, acksOf i [l] = 0) (hchange : changesOf [l] = [])
    (hsent : s'.sent ++ s'.pc.unsent = s.sent ++ s.pc.unsent) :
    Explains io ports s [l] [] s' where
  run := hmail ▸ .nil _
  calls i := (hpost i).symm
  returns i := (hack i).symm
  changes := hchange.symm
  sent := by rw [hsent]; exact List.append_nil _

/-- The mailbox after a step at slot `i`. -/
theorem IoLoop.mail_update (s s' : IoLoop n) (i : Fin n) {cell : Cell IoCall}
    (hi : s'.cell i = cell) (hother : ∀ j, j ≠ i → s'.cell j = s.cell j) :
    s'.mail = ⟨s'.world, Function.update s.mail.cell i cell⟩ := by
  refine congrArg (Mailbox.State.mk s'.world) (funext fun j => ?_)
  by_cases hji : j = i
  · subst hji
    rw [Function.update_self, hi]
  · rw [Function.update_of_ne hji, hother j hji]
    rfl

/-- A slot that is not in process is the same wherever the server is. -/
theorem IoLoop.cell_congr {i : Fin n} (hslot : s'.slots i = s.slots i)
    (hidle : (s.slots i).state ≠ .inProcess) : s'.cell i = s.cell i := by
  unfold IoLoop.cell
  rw [hslot]
  cases hstate : (s.slots i).state with
  | inProcess => exact absurd hstate hidle
  | none => rfl
  | ready => rfl
  | respReady => rfl

/-- The slot in process is the one the server is at. -/
theorem IoLoop.Sound.cell_congr (hs : s.Sound ports) {j : Fin n} (hslot : s'.slots j = s.slots j)
    (hj : ¬ s.pc.Busy j) : s'.cell j = s.cell j :=
  IoLoop.cell_congr hslot (fun h => hj ((hs.busy j).mp h))

/-- Where no slot is in process, a step of the server alone does not show. -/
theorem IoLoop.Sound.mail_congr (hs : s.Sound ports) (hfree : ∀ j, ¬ s.pc.Busy j)
    (hworld : s'.world = s.world) (hslots : s'.slots = s.slots) : s'.mail = s.mail := by
  have hcell : s'.cell = s.cell := funext fun j => hs.cell_congr (congrFun hslots j) (hfree j)
  rw [IoLoop.mail, hworld, hcell]
  rfl

theorem Moves.explained {out : Outside P X} (h : Moves io ports out s s') (hs : s.Sound ports) :
    ∃ es, Explains io ports s [IoLabel.step out] es s' := by
  have hpost : ∀ i, postsOf i [(.step out : IoLabel n P X)] = [] := fun i => rfl
  have hack : ∀ i, acksOf i [(.step out : IoLabel n P X)] = 0 := fun i => rfl
  cases h with
  | @pass port i hpc hother =>
      have hfree : ∀ j, ¬ s.pc.Busy j := by simp [hpc, Pc.Busy]
      exact ⟨[], .silent (hs.mail_congr hfree rfl rfl) hpost hack rfl (by simp [hpc, Pc.unsent])⟩
  | @done port i hpc hi =>
      have hfree : ∀ j, ¬ s.pc.Busy j := by simp [hpc, Pc.Busy]
      exact ⟨[], .silent (hs.mail_congr hfree rfl rfl) hpost hack rfl (by simp [hpc, Pc.unsent])⟩
  | @start i hpc hready =>
      refine ⟨[], .silent ?_ hpost hack rfl (by simp [hpc, Pc.unsent, IoLoop.setState])⟩
      refine congrArg (Mailbox.State.mk s.world) (funext fun j => ?_)
      by_cases hji : j = i
      · -- ready before, in process and not handled now: it waits in both
        subst hji
        simp [IoLoop.cell, hready]
      · exact hs.cell_congr (IoLoop.setState_of_ne s _ hji) (by simp [hpc, Pc.Busy])
  | @handle port i w hpc hw =>
      have hproc : (s.slots i).state = .inProcess := (hs.busy i).mpr (by simp [hpc, Pc.Busy])
      have hport : ports i = port := by
        have haimed := hs.aimed
        rwa [hpc] at haimed
      have hwaits : s.mail.cell i = .waiting (s.slots i).call := by
        simp [IoLoop.mail, IoLoop.cell, hproc, hpc]
      have hserved : IoLoop.cell { s with world := w, pc := .answered port i } i = .served := by
        simp [IoLoop.cell, hproc]
      have hmail := IoLoop.mail_update s _ i hserved
        (fun j hji => hs.cell_congr rfl (by simpa [hpc, Pc.Busy] using Ne.symm hji))
      refine ⟨[.serve i (s.slots i).call], ⟨?_, fun _ => rfl, fun _ => rfl, rfl, ?_⟩⟩
      · rw [hmail]
        exact .cons (.serve hwaits ⟨out, hw⟩) (.nil _)
      · simp [served, hpc, Pc.unsent, hport]
  | @respond port i hpc =>
      have hproc : (s.slots i).state = .inProcess := (hs.busy i).mpr (by simp [hpc, Pc.Busy])
      refine ⟨[], .silent ?_ hpost hack rfl (by simp [hpc, Pc.unsent, IoLoop.setState])⟩
      refine congrArg (Mailbox.State.mk s.world) (funext fun j => ?_)
      by_cases hji : j = i
      · subst hji
        simp [IoLoop.cell, hproc, hpc]
      · exact hs.cell_congr (IoLoop.setState_of_ne s _ hji)
          (by simpa [hpc, Pc.Busy] using Ne.symm hji)
  | @notify port i hpc =>
      have hfree : ∀ j, ¬ s.pc.Busy j := by simp [hpc, Pc.Busy]
      exact ⟨[], .silent (hs.mail_congr hfree rfl rfl) hpost hack rfl (by simp [hpc, Pc.unsent])⟩

theorem IoStep.explained {l : IoLabel n P X} (h : IoStep io ports s l s') (hs : s.Sound ports) :
    ∃ es, Explains io ports s [l] es s' := by
  cases h with
  | @post i c hnone =>
      have hempty : s.mail.cell i = .empty := by simp [IoLoop.mail, IoLoop.cell, hnone]
      have hwaits : IoLoop.cell
          { s with slots := Function.update s.slots i ⟨c, .ready⟩, owed := insert i s.owed } i =
            .waiting c := by
        simp [IoLoop.cell]
      have hmail := IoLoop.mail_update s _ i hwaits
        (fun j hji => by simp [IoLoop.cell, Function.update_of_ne hji])
      refine ⟨[.call i c], ⟨?_, fun _ => rfl, fun _ => rfl, rfl, List.append_nil _⟩⟩
      rw [hmail]
      exact .cons (.call c hempty) (.nil _)
  | kick howed => exact ⟨[], .silent rfl (fun _ => rfl) (fun _ => rfl) rfl rfl⟩
  | event port => exact ⟨[], .silent rfl (fun _ => rfl) (fun _ => rfl) rfl rfl⟩
  | @ack i hresp =>
      have hserved : s.mail.cell i = .served := by simp [IoLoop.mail, IoLoop.cell, hresp]
      have hempty : (s.setState i .none).cell i = .empty := by simp [IoLoop.cell]
      have hmail := IoLoop.mail_update s _ i hempty
        (fun j hji => by
          rw [IoLoop.cell, IoLoop.cell, IoLoop.setState_of_ne s _ hji]
          rfl)
      refine ⟨[.ret i], ⟨?_, fun _ => rfl, fun _ => rfl, rfl, List.append_nil _⟩⟩
      rw [hmail]
      exact .cons (.ret hserved) (.nil _)
  | guest e =>
      exact ⟨[.other e], ⟨.cons (.other rfl) (.nil _), fun _ => rfl, fun _ => rfl, rfl,
        List.append_nil _⟩⟩
  | @take port hpc hport =>
      have hfree : ∀ j, ¬ s.pc.Busy j := by simp [hpc, Pc.Busy]
      exact ⟨[], .silent (hs.mail_congr hfree rfl rfl) (fun _ => rfl) (fun _ => rfl) rfl
        (by simp [hpc, Pc.unsent])⟩
  | step hnext => exact (IoLoop.next_moves hnext).explained hs

/-- Every run of the loop is a run of the mailbox. -/
theorem IoLoop.Sound.explained {ls : List (IoLabel n P X)} (hs : s.Sound ports)
    (h : Run (IoStep io ports) s ls s') : ∃ es, Explains io ports s ls es s' := by
  induction h with
  | nil s => exact ⟨[], ⟨.nil _, fun _ => rfl, fun _ => rfl, rfl, List.append_nil _⟩⟩
  | cons hx _ ih =>
      obtain ⟨es, hes⟩ := hx.explained hs
      obtain ⟨es', hes'⟩ := ih (hx.sound hs)
      exact ⟨es ++ es', hes.append hes'⟩

/-- Whatever the vCPUs, the guest and the events do between the calls of `handle_ioreq`: the
requests are handled one at a time and each in one piece; those of a vCPU once each and in its
order, but for one that waits; it takes an answer for each one handled, but for one that is still
there; and for each one its own port is notified, but for one that is about to be. -/
theorem calls_served_in_order {ls : List (IoLabel n P X)} (hs : s.Fresh)
    (h : Run (IoStep io ports) s ls s') :
    ∃ es, Run (Mailbox.Step (Serves P X io) Changes) s.mail es s'.mail ∧
      (∀ i, postsOf i ls = servesOf i es ++ (s'.cell i).calls) ∧
      (∀ i, (servesOf i es).length = acksOf i ls + (s'.cell i).answers) ∧
      (served es).map (fun e => ports e.1) = s'.sent ++ s'.pc.unsent := by
  obtain ⟨es, hes⟩ := (hs.sound ports).explained h
  have hcell : ∀ i, s.cell i = .empty := fun i => by simp [IoLoop.cell, hs.slots i]
  refine ⟨es, hes.run, fun i => ?_, fun i => ?_, ?_⟩
  · have hcalls := Mailbox.run_calls hes.run i
    rw [hes.calls i] at hcalls
    simpa [IoLoop.mail, hcell, Cell.calls] using hcalls
  · have hreturns := Mailbox.run_returns hes.run i
    rw [hes.returns i] at hreturns
    simpa [IoLoop.mail, hcell, Cell.answers] using hreturns
  · have hsent := hes.sent
    simpa [hs.sent, hs.pc, Pc.unsent] using hsent

/-- One vCPU, whose event is port 7, and a guest whose memory is zero. -/
def zeroLoop : IoLoop 1 :=
  ⟨⟨⟨fun _ => Block.zero _, fun _ => true⟩, freshMachine⟩, fun _ => ⟨⟨0, 0, 0, 0⟩, .none⟩, ∅, ∅, [],
    .idle⟩

theorem zeroLoop_fresh : zeroLoop.Fresh := ⟨fun _ => rfl, rfl, rfl, rfl⟩

/-- A request for the page at frame 0. -/
def zeroCall : IoCall := ⟨0x100, 0, 4, 0⟩

/-- The steps of a request: it is posted, its event is raised and taken, and it is handled. -/
def zeroLabels : List (IoLabel 1 Unit Unit) :=
  [.post 0 zeroCall, .kick 0, .take 7, .step quietOutside, .step quietOutside]

theorem zeroWorld_handled : ∃ w, handleIoreq quietOutside (setupPortio .off 0).2 zeroLoop.world
    zeroCall = some w := by
  have haddr : zeroCall.Addressed (setupPortio .off 0).2 :=
    ⟨rfl, by decide, rfl, rfl⟩
  have hmap : mapGuestMemory zeroLoop.world.toGuestMemory zeroCall.data =
      some (zeroLoop.world.window 0) := rfl
  have hversion : (zeroLoop.world.window 0).version ≠ 1 := by decide +kernel
  have hanswer : answer quietOutside freshMachine (zeroLoop.world.window 0) =
      some (some (.result .deviceError), freshMachine) := if_pos hversion
  obtain ⟨page, hpage, -⟩ := handleRequest_of_answer quietOutside freshMachine hanswer
    (by decide)
  rw [handleIoreq_of_mapped haddr hmap]
  exact ⟨_, congrArg (Option.map _) hpage⟩

theorem zeroLoop_run :
    ∃ s', Run (IoStep (setupPortio .off 0).2 (fun _ => 7)) zeroLoop zeroLabels s' := by
  obtain ⟨w, hw⟩ := zeroWorld_handled
  exact ⟨_, .cons (.post zeroCall rfl) (.cons (.kick (by decide)) (.cons (.take rfl (by decide))
    (.cons (.step rfl) (.cons (.step (IoLoop.next_serving rfl hw)) (.nil _)))))⟩

theorem zeroCall_served_in_order : ∃ (s' : IoLoop 1) (es : _),
    Run (Mailbox.Step (Serves Unit Unit (setupPortio .off 0).2) Changes) zeroLoop.mail es s'.mail ∧
      ∀ i, postsOf i zeroLabels = servesOf i es ++ (s'.cell i).calls := by
  obtain ⟨s', hrun⟩ := zeroLoop_run
  obtain ⟨es, hes, hcalls, -⟩ := calls_served_in_order zeroLoop_fresh hrun
  exact ⟨s', es, hes, hcalls⟩

/-! ## The guest's other memory -/

theorem mem_postsOf {i : Fin n} {c : IoCall} {ls : List (IoLabel n P X)} (h : c ∈ postsOf i ls) :
    .post i c ∈ ls := by
  obtain ⟨l, hl, heq⟩ := List.mem_filterMap.mp h
  cases l with
  | post j c' =>
      obtain ⟨rfl, hc⟩ := Option.ite_none_right_eq_some.mp heq
      cases hc
      exact hl
  | kick | event | ack | guest | take | step => cases heq

theorem mem_changesOf {e : GuestChange} {ls : List (IoLabel n P X)} (h : e ∈ changesOf ls) :
    .guest e ∈ ls := by
  obtain ⟨l, hl, heq⟩ := List.mem_filterMap.mp h
  cases l with
  | guest e' =>
      cases heq
      exact hl
  | kick | event | ack | post | take | step => cases heq

theorem GuestMemory.change_frames (w : GuestMemory) {e : GuestChange} {g : UInt64}
    (h : ∀ frame, e ≠ .write g frame) : (w.change e).frames g = w.frames g := by
  cases e with
  | write g' frame =>
      refine Function.update_of_ne ?_ ..
      rintro rfl
      exact h frame rfl
  | remap => rfl

/-- A frame that the guest does not write, and that is in no window of a request for the server,
keeps its bytes, however the requests come. -/
theorem other_memory_kept {ls : List (IoLabel n P X)} {g : UInt64} (hs : s.Fresh)
    (h : Run (IoStep io ports) s ls s') (hguest : ∀ frame, .guest (.write g frame) ∉ ls)
    (hcalls : ∀ i c, .post i c ∈ ls → c.Addressed io → ¬ InWindow c.data g) :
    s'.world.frames g = s.world.frames g := by
  obtain ⟨es, hes⟩ := (hs.sound ports).explained h
  -- what was served was posted, and the other changes are the guest's
  have hserved : ∀ i, ∀ c ∈ servesOf i es, .post i c ∈ ls := by
    intro i c hc
    have hcell : s.cell i = .empty := by simp [IoLoop.cell, hs.slots i]
    have hall := Mailbox.run_calls hes.run i
    rw [hes.calls i, show s.mail.cell i = .empty from hcell] at hall
    have hposts : postsOf i ls = servesOf i es ++ (s'.mail.cell i).calls := hall
    exact mem_postsOf (hposts ▸ List.mem_append_left _ hc)
  have hworld := Mailbox.run_world hes.run
  refine (hworld.restrict (C := fun e => e ∈ Mailbox.worldEvents es) (fun _ he => he)).invariant
    (I := fun w => w.frames g = s.world.frames g) ?_ rfl
  rintro w e w' ⟨hstep, he⟩ hw
  cases e with
  | inl e =>
      obtain ⟨i, c⟩ := e
      obtain ⟨out, hout⟩ := hstep
      have hpost := hserved i c (Mailbox.mem_worldEvents_serve he)
      exact (handleIoreq_frames hout (hcalls i c hpost)).trans hw
  | inr e =>
      have hmem := mem_changesOf (hes.changes ▸ Mailbox.mem_worldEvents_other he)
      have hother : ∀ frame, e ≠ .write g frame := by
        rintro frame rfl
        exact hguest frame hmem
      rw [show w' = ⟨w.change e, w.machine⟩ from hstep, w.change_frames hother, hw]

theorem other_memory_kept_sixteen : ∃ s',
    Run (IoStep (setupPortio .off 0).2 (fun _ => 7)) zeroLoop zeroLabels s' ∧
      s'.world.frames 16 = zeroLoop.world.frames 16 := by
  obtain ⟨s', hrun⟩ := zeroLoop_run
  refine ⟨s', hrun, other_memory_kept zeroLoop_fresh hrun (fun frame => by simp [zeroLabels]) ?_⟩
  intro i c hc _
  simp only [zeroLabels, List.mem_cons, IoLabel.post.injEq, List.not_mem_nil, or_false,
    reduceCtorEq] at hc
  obtain ⟨-, rfl⟩ := hc
  decide

/-! ## No request is forgotten -/

/-- How many steps the server has in front of it at most, until it waits again. -/
def Pc.work : Pc n → Nat
  | .idle => 0
  | .scan _ i => 4 * (n - i) + 1
  | .serving _ i => 4 * (n - i)
  | .answered _ i => 4 * (n - i) - 1
  | .notifying _ i => 4 * (n - i) - 2

/-- And until no event is pending. -/
def IoLoop.work (s : IoLoop n) : Nat := s.pending.card * (4 * n + 2) + s.pc.work

theorem Moves.work_lt {out : Outside P X} (h : Moves io ports out s s') : s'.work < s.work := by
  unfold IoLoop.work
  cases h with
  | pass i hpc =>
      have hlt := i.isLt
      simp only [hpc, Pc.work]
      omega
  | done hpc hi =>
      simp only [hpc, Pc.work]
      omega
  | @start i hpc =>
      have hlt := i.isLt
      simp only [hpc, Pc.work, IoLoop.setState]
      omega
  | @handle port i w hpc =>
      have hlt := i.isLt
      simp only [hpc, Pc.work]
      omega
  | @respond port i hpc =>
      have hlt := i.isLt
      simp only [hpc, Pc.work, IoLoop.setState]
      omega
  | @notify port i hpc =>
      have hlt := i.isLt
      simp only [hpc, Pc.work]
      omega

theorem IoStep.work_lt {l : IoLabel n P X} (h : IoStep io ports s l s') (hl : l.Server) :
    s'.work < s.work := by
  cases h with
  | @take port hpc hport =>
      have hcard := Finset.card_erase_add_one hport
      have hmul : s.pending.card * (4 * n + 2) =
          (s.pending.erase port).card * (4 * n + 2) + (4 * n + 2) := by
        rw [← hcard, Nat.succ_mul]
      simp only [IoLoop.work, hpc, Pc.work]
      omega
  | step hnext => exact (IoLoop.next_moves hnext).work_lt
  | post | kick | event | ack | guest => exact hl.elim

theorem Moves.owed_eq {out : Outside P X} (h : Moves io ports out s s') : s'.owed = s.owed := by
  cases h <;> rfl

theorem IoStep.owed_eq {l : IoLabel n P X} (h : IoStep io ports s l s') (hl : l.Server) :
    s'.owed = s.owed := by
  cases h with
  | take => rfl
  | step hnext => exact (IoLoop.next_moves hnext).owed_eq
  | post | kick | event | ack | guest => exact hl.elim

/-- The server stops only in `poll`, or where `handle_ioreq` has no result. -/
theorem IoLoop.next_stuck {out : Outside P X} (h : s.next io ports out = none) :
    s.pc = .idle ∨ ∃ port i, s.pc = .serving port i ∧
      handleIoreq out io s.world (s.slots i).call = none := by
  unfold IoLoop.next at h
  split at h
  next hpc => exact .inl hpc
  next port i hpc =>
    split at h
    · split at h <;> cases h
    · cases h
  next port i hpc =>
    refine .inr ⟨port, i, hpc, ?_⟩
    cases hw : handleIoreq out io s.world (s.slots i).call with
    | none => rfl
    | some w =>
        rw [hw] at h
        cases h
  next => cases h
  next => cases h

/-- From any state the loop can be in, the server takes a bounded number of steps on its own;
and when it can take none, and no vCPU is between posting and its event, no request waits: or
`handle_ioreq` has no result for the one it is at. -/
theorem server_drains (out : Outside P X) {s₀ : IoLoop n} {ls₀ ls : List (IoLabel n P X)}
    (hs : s₀.Fresh) (h₀ : Run (IoStep io ports) s₀ ls₀ s) (h : Run (IoStep io ports) s ls s')
    (hserver : ∀ l ∈ ls, l.Server) :
    ls.length ≤ s.work ∧
      ((∀ port s'', ¬ IoStep io ports s' (.take port : IoLabel n P X) s'') →
        (∀ s'', ¬ IoStep io ports s' (.step out) s'') → s.owed = ∅ →
        (∀ i, (s'.slots i).state = .none ∨ (s'.slots i).state = .respReady) ∨
          ∃ port i, s'.pc = .serving port i ∧
            handleIoreq out io s'.world (s'.slots i).call = none) := by
  have halone := h.restrict hserver
  refine ⟨halone.length_le (I := fun _ => True) (fun _ _ _ _ _ => trivial)
    (fun _ _ _ hx _ => hx.1.work_lt hx.2) trivial, ?_⟩
  intro htake hstep howed
  have hsound : s'.Sound ports := ((hs.sound ports).run h₀).run h
  have howed' : s'.owed = ∅ :=
    halone.invariant (I := fun t => t.owed = ∅) (fun _ _ _ hx ht => (hx.1.owed_eq hx.2).trans ht)
      howed
  have hstuck : s'.next io ports out = none := by
    cases hnext : s'.next io ports out with
    | none => rfl
    | some s'' => exact absurd (.step hnext) (hstep s'')
  obtain hidle | hundefined := IoLoop.next_stuck hstuck
  · refine .inl fun i => ?_
    cases hstate : (s'.slots i).state with
    | none => exact .inl rfl
    | respReady => exact .inr rfl
    | inProcess =>
        have hbusy := (hsound.busy i).mp hstate
        simp [hidle, Pc.Busy] at hbusy
    | ready =>
        -- its event would be pending, and the server could take it
        obtain hin | hpend | hahead := hsound.heard i hstate
        · simp [howed'] at hin
        · exact absurd (.take hidle hpend) (htake (ports i) _)
        · simp [hidle, Pc.Ahead] at hahead
  · exact .inr hundefined

/-- The request is posted, and its event raised. -/
def postedLoop : IoLoop 1 :=
  { zeroLoop with
    slots := Function.update zeroLoop.slots 0 ⟨zeroCall, .ready⟩
    owed := Finset.erase (insert 0 ∅) 0
    pending := insert 7 ∅ }

/-- The server's steps for one event with one request. -/
def drainLabels : List (IoLabel 1 Unit Unit) := .take 7 :: List.replicate 5 (.step quietOutside)

/-- The server answers it, and waits again. -/
theorem zeroLoop_drains :
    Run (IoStep (setupPortio .off 0).2 (fun _ => 7)) zeroLoop (zeroLabels.take 2) postedLoop ∧
      ∃ s', Run (IoStep (setupPortio .off 0).2 (fun _ => 7)) postedLoop drainLabels s' ∧
        drainLabels.length ≤ postedLoop.work ∧ s'.pc = .idle ∧
        ∀ i, (s'.slots i).state = .none ∨ (s'.slots i).state = .respReady := by
  obtain ⟨w, hw⟩ := zeroWorld_handled
  have hfront : Run (IoStep (setupPortio .off 0).2 (fun _ => 7)) zeroLoop (zeroLabels.take 2)
      postedLoop :=
    .cons (.post zeroCall rfl) (.cons (.kick (by decide)) (.nil _))
  have hserver : Run (IoStep (setupPortio .off 0).2 (fun _ => 7)) postedLoop drainLabels _ :=
    .cons (.take rfl (by decide)) (.cons (.step rfl) (.cons (.step (IoLoop.next_serving rfl hw))
      (.cons (.step rfl) (.cons (.step rfl) (.cons (.step rfl) (.nil _))))))
  have hlabels : ∀ l ∈ drainLabels, l.Server := by
    intro l hl
    rcases List.mem_cons.mp hl with rfl | hl
    · trivial
    · cases List.eq_of_mem_replicate hl
      trivial
  obtain ⟨hbound, hdrained⟩ := server_drains quietOutside zeroLoop_fresh hfront hserver hlabels
  refine ⟨hfront, _, hserver, hbound, rfl, (hdrained ?_ ?_ rfl).resolve_right ?_⟩
  · -- no event is pending
    intro port s'' hstep
    cases hstep with
    | take _ hport => exact absurd (show port ∈ Finset.erase (insert 7 ∅) 7 from hport) (by simp)
  · intro s'' hstep
    cases hstep with
    | step hnext => cases hnext
  · rintro ⟨port, i, hpc, -⟩
    cases hpc

end

end Uefistored
