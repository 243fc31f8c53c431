/-
# `Uefistored.Ioreq` — one I/O request of the guest

`handle_ioreq` of `src/uefistored.c`: a vCPU that writes to the I/O port names a guest
frame, the server maps the sixteen frames from there on as the shared page, and
`xen_variable_server_handle_request` answers in place.

The guest's memory is a function from frame numbers to frames.  Frame numbers are
`xen_pfn_t`, so the window `start, start + 1, …` wraps around at 2 ^ 64.  The mapping is
shared memory: what the server leaves in the page stands in the frames
(`GuestMemory.window_share`), and in no others (`GuestMemory.share_frames`).  The page is read and
answered in one piece; what a guest does that writes to it meanwhile is not modelled.
-/
import Uefistored.Page
import Uefistored.SaveFile

namespace Uefistored

open Lib

def SHMEM_PAGES : Nat := 16

def IOREQ_TYPE_PIO : UInt8 := 0

/-- The fields of `struct ioreq` that `handle_ioreq` reads. -/
structure IoCall where
  addr : UInt64
  data : UInt64
  size : UInt32
  type : UInt8
  deriving DecidableEq

/-- `io_port_enabled`, `io_port_size` and `io_port_addr`. -/
structure PortIo where
  enabled : Bool
  size : UInt64
  addr : UInt64
  deriving DecidableEq

/-- The port before `setup_portio`. -/
def PortIo.off : PortIo := ⟨false, 0, 0⟩

/-- `setup_portio`, where `ret` is what `xendevicemodel_map_io_range_to_ioreq_server` returns:
its value, and the port it leaves. -/
def setupPortio (io : PortIo) (ret : Int) : Int × PortIo :=
  if io.enabled then (-1, io)
  -- the port counts as enabled even where the range could not be mapped
  else (if ret < 0 then ret else 0, ⟨true, 4, 0x100⟩)

/-! ## The guest's memory -/

abbrev GuestFrame := Block PAGE_SIZE

/-- The memory of the guest: its frames, and which of them `xenforeignmemory_map` maps. -/
structure GuestMemory where
  frames : UInt64 → GuestFrame
  mappable : UInt64 → Bool

/-- The memory of the guest, and the server's state. -/
structure World extends GuestMemory where
  machine : Machine

/-- The array `shmem` of `map_guest_memory`. -/
def shmem (start : UInt64) : List UInt64 :=
  (List.range SHMEM_PAGES).map (fun i => start + UInt64.ofNat i)

/-- The frame is one of `shmem start`. -/
def InWindow (start g : UInt64) : Prop := (g - start).toNat < SHMEM_PAGES

instance (start g : UInt64) : Decidable (InWindow start g) :=
  inferInstanceAs (Decidable (_ < _))

/-- The sixteen frames from `start` on, one behind the other. -/
def GuestMemory.window (w : GuestMemory) (start : UInt64) : Page :=
  Block.ofList MAX_SHARED_OVMF_MEM ((shmem start).flatMap (fun g => (w.frames g).bytes))

/-- `map_guest_memory`: one frame that cannot be mapped is enough for `NULL`. -/
def mapGuestMemory (w : GuestMemory) (start : UInt64) : Option Page :=
  if (shmem start).all w.mappable then some (w.window start) else none

/-- The `i`-th frame of the shared page. -/
def Page.frame (page : Page) (i : Nat) : GuestFrame :=
  Block.ofList PAGE_SIZE ((page.bytes.drop (PAGE_SIZE * i)).take PAGE_SIZE)

/-- The guest's memory with `page` in the window. -/
def GuestMemory.share (w : GuestMemory) (start : UInt64) (page : Page) : GuestMemory :=
  { w with frames := fun g =>
      if InWindow start g then page.frame (g - start).toNat else w.frames g }

theorem toNat_window (start : UInt64) {i : Nat} (hi : i < SHMEM_PAGES) :
    (start + UInt64.ofNat i - start).toNat = i := by
  have hback : start + UInt64.ofNat i - start = UInt64.ofNat i := by
    rw [UInt64.add_comm, UInt64.add_sub_cancel]
  have hsmall : i < 2 ^ 64 := lt_trans hi (by decide)
  rw [hback, UInt64.toNat_ofNat', Nat.mod_eq_of_lt hsmall]

theorem GuestMemory.share_frames (w : GuestMemory) {start g : UInt64} (page : Page)
    (h : ¬ InWindow start g) : (w.share start page).frames g = w.frames g :=
  if_neg h

theorem Page.frame_bytes (page : Page) {i : Nat} (hi : i < SHMEM_PAGES) :
    (page.frame i).bytes = (page.bytes.drop (PAGE_SIZE * i)).take PAGE_SIZE := by
  refine Block.ofList_bytes_of_length ?_
  have hlen : page.bytes.length = 16 * 4096 := page.length_eq
  have hi' : i < 16 := hi
  simp only [List.length_take, List.length_drop, hlen, PAGE_SIZE]
  omega

/-- A list cut into pieces of `k`, put together again. -/
theorem flatMap_pieces (l : List UInt8) (k : Nat) : ∀ n : Nat,
    (List.range n).flatMap (fun i => (l.drop (k * i)).take k) = l.take (k * n)
  | 0 => by simp
  | n + 1 => by
      rw [List.range_succ, List.flatMap_append, flatMap_pieces l k n, Nat.mul_succ, List.take_add]
      simp

/-- What the server leaves in the mapped page is what the guest, and the next mapping, finds. -/
theorem GuestMemory.window_share (w : GuestMemory) (start : UInt64) (page : Page) :
    (w.share start page).window start = page := by
  have hframes : ∀ i ∈ List.range SHMEM_PAGES,
      ((w.share start page).frames (start + UInt64.ofNat i)).bytes =
        (page.bytes.drop (PAGE_SIZE * i)).take PAGE_SIZE := by
    intro i hi
    have hlt := List.mem_range.mp hi
    have hto := toNat_window start hlt
    have hin : InWindow start (start + UInt64.ofNat i) := lt_of_eq_of_lt hto hlt
    have hframe : (w.share start page).frames (start + UInt64.ofNat i) = page.frame i :=
      (if_pos hin).trans (congrArg page.frame hto)
    rw [hframe, page.frame_bytes hlt]
  have hwhole : (shmem start).flatMap (fun g => ((w.share start page).frames g).bytes) =
      page.bytes := by
    rw [shmem, List.flatMap_map, List.flatMap_congr hframes, flatMap_pieces]
    exact List.take_of_length_le page.length_eq.le
  rw [GuestMemory.window, hwhole, Block.ofList_bytes_self]

/-! ## The request -/

section
variable {P X : Type}

/-- `handle_ioreq`. -/
def handleIoreq (out : Outside P X) (io : PortIo) (w : World) (c : IoCall) : Option World :=
  if !io.enabled then some w
  else if ¬ (io.addr ≤ c.addr ∧ c.addr < io.addr + io.size) then some w
  else if c.size ≠ 4 then some w
  else if c.type ≠ IOREQ_TYPE_PIO then some w
  else
    match mapGuestMemory w.toGuestMemory c.data with
    | none => some w
    | some page => do
      let (page, m) ← xenVariableServerHandleRequest out w.machine page
      return ⟨w.share c.data page, m⟩

/-- The request is one for the server. -/
structure IoCall.Addressed (io : PortIo) (c : IoCall) : Prop where
  enabled : io.enabled = true
  port : io.addr ≤ c.addr ∧ c.addr < io.addr + io.size
  size : c.size = 4
  type : c.type = IOREQ_TYPE_PIO

/-- A request either is none for the server, or its window is not mapped, and it changes nothing;
or the page in the window is answered. -/
theorem handleIoreq_cases {out : Outside P X} {io : PortIo} {w w' : World} {c : IoCall}
    (h : handleIoreq out io w c = some w') :
    (¬ c.Addressed io ∨ mapGuestMemory w.toGuestMemory c.data = none) ∧ w' = w ∨
      (c.Addressed io ∧ ∃ page page' m, mapGuestMemory w.toGuestMemory c.data = some page ∧
        xenVariableServerHandleRequest out w.machine page = some (page', m) ∧
        w' = ⟨w.share c.data page', m⟩) := by
  unfold handleIoreq at h
  split at h
  next hoff =>
    refine .inl ⟨.inl fun haddr => ?_, (Option.some.inj h).symm⟩
    simp [haddr.enabled] at hoff
  next henabled =>
  split at h
  next hport => exact .inl ⟨.inl fun haddr => hport haddr.port, (Option.some.inj h).symm⟩
  next hport =>
  split at h
  next hsize => exact .inl ⟨.inl fun haddr => hsize haddr.size, (Option.some.inj h).symm⟩
  next hsize =>
  split at h
  next htype => exact .inl ⟨.inl fun haddr => htype haddr.type, (Option.some.inj h).symm⟩
  next htype =>
  cases hmap : mapGuestMemory w.toGuestMemory c.data with
  | none =>
      rw [hmap] at h
      exact .inl ⟨.inr rfl, (Option.some.inj h).symm⟩
  | some page =>
      rw [hmap] at h
      obtain ⟨⟨page', m⟩, hhandle, hw⟩ := Option.bind_eq_some_iff.mp h
      have haddr : c.Addressed io :=
        ⟨by simpa using henabled, not_not.mp hport, not_not.mp hsize, not_not.mp htype⟩
      exact .inr ⟨haddr, page, page', m, rfl, hhandle, (Option.some.inj hw).symm⟩

/-- An addressed request whose window is mapped is answered as the page is. -/
theorem handleIoreq_of_mapped {out : Outside P X} {io : PortIo} {w : World} {c : IoCall}
    {page : Page} (h : c.Addressed io) (hmap : mapGuestMemory w.toGuestMemory c.data = some page) :
    handleIoreq out io w c = (xenVariableServerHandleRequest out w.machine page).map
      (fun r => ⟨w.share c.data r.1, r.2⟩) := by
  unfold handleIoreq
  rw [h.enabled, if_neg (by decide), if_neg (not_not.mpr h.port), if_neg (not_not.mpr h.size),
    if_neg (not_not.mpr h.type), hmap]
  dsimp only
  cases xenVariableServerHandleRequest out w.machine page <;> rfl

/-- Outside of the window of a request for the server nothing changes; and for another request
nothing changes at all. -/
theorem handleIoreq_frames {out : Outside P X} {io : PortIo} {w w' : World} {c : IoCall}
    (h : handleIoreq out io w c = some w') {g : UInt64}
    (hg : c.Addressed io → ¬ InWindow c.data g) : w'.frames g = w.frames g := by
  obtain ⟨-, rfl⟩ | ⟨haddr, page, page', m, -, -, rfl⟩ := handleIoreq_cases h
  · rfl
  · exact w.share_frames page' (hg haddr)

end

end Uefistored
