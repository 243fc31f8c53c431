/-
# `Uefistored.Socket` — reading a reply and pacing the requests

Two loops at the socket to XAPI.

`read_socket` fills a buffer from `read`, at most `BUFSIZ` bytes a time, until
the peer closes or the buffer is full, and then writes a NUL behind what it
read.  The NUL is counted nowhere: a peer that sends `size` bytes or more has it
written at `buf[size]`.  `readsWithin_iff` says that this is the only way out of
the buffer, over every sequence of results of `read`, endless ones included.

`throttle` is a token bucket of 100 sends that gets two back a second.  The
credit is unsigned and the clock may be set back: a credit that would go below
zero wraps to a number near `2^32` and is then cut to a full bucket.
`paced_of_steady` bounds the sends of any window of a series of calls none of
which meets that case, and says of one call exactly when it does.
-/
import Uefistored.Lib.Layout
import Uefistored.Lib.Bucket

namespace Uefistored

open Lib

/-! ## `read_socket` -/

def BUFSIZ : Nat := 8192

/-- What one `read` gives: bytes, none of them at the end of the file, an
interruption by a signal, or another error. -/
inductive ReadResult
  | got (bytes : List UInt8)
  | eintr
  | error

namespace ReadResult

def bytes : ReadResult → List UInt8
  | got l => l
  | eintr => []
  | error => []

/-- The loop reads once more after this result. -/
def GoesOn : ReadResult → Prop
  | got l => l ≠ []
  | eintr => True
  | error => False

end ReadResult

/-- The bytes of the first `k` results. -/
def received (result : Nat → ReadResult) : Nat → List UInt8
  | 0 => []
  | k + 1 => received result k ++ (result k).bytes

/-- The loop has not ended before read number `k`. -/
def GoesOnUntil (result : Nat → ReadResult) (k : Nat) : Prop := ∀ i < k, (result i).GoesOn

/-- The results of the reads into a buffer of `size` bytes.  A read that is asked for
`n` bytes gives at most `n`. -/
structure ReadResults (size : Nat) where
  result : Nat → ReadResult
  atMost : ∀ k, GoesOnUntil result k → (received result k).length < size →
    (result k).bytes.length ≤
      if size - (received result k).length > BUFSIZ then BUFSIZ
      else size - (received result k).length

/-- `*buf = '\0'; return 0;` -/
def terminate (buf : Buffer) (pos : Nat) : Option (Option (Int × Buffer)) :=
  (buf.write pos [0]).map fun buf' => some (0, buf')

/-- `read_socket`, from read number `k` on, with `buf` at `pos` and `size` bytes left.
`none`: a write outside the buffer.  `some none`: still in the loop when the fuel is out. -/
def readSocket (result : Nat → ReadResult) :
    Nat → Nat → Buffer → Nat → Nat → Option (Option (Int × Buffer))
  | _, _, buf, pos, 0 => terminate buf pos
  | 0, _, _, _, _ + 1 => some none
  | fuel + 1, k, buf, pos, size + 1 =>
      match result k with
      | .eintr => readSocket result fuel (k + 1) buf pos (size + 1)
      | .error => some (some (-1, buf))
      | .got [] => terminate buf pos
      | .got (b :: l) => do
          let buf' ← buf.write pos (b :: l)
          readSocket result fuel (k + 1) buf' (pos + (b :: l).length)
            (size + 1 - (b :: l).length)

section Loop

variable {size : Nat} (rs : ReadResults size)

/-- Where the loop stands before read number `k`: the bytes so far are in the buffer,
and no more than fit. -/
structure Reading (k : Nat) (buf : Buffer) : Prop where
  goesOn : GoesOnUntil rs.result k
  fits : (received rs.result k).length ≤ size
  object : buf.size = size
  holds : buf.Holds 0 (received rs.result k)

/-- The loop from where it stands before read number `k`. -/
def resume (fuel k : Nat) (buf : Buffer) : Option (Option (Int × Buffer)) :=
  readSocket rs.result fuel k buf (received rs.result k).length
    (size - (received rs.result k).length)

variable {rs}

theorem Reading.start {buf : Buffer} (h : buf.size = size) : Reading rs 0 buf where
  goesOn := fun _ hi => absurd hi (Nat.not_lt_zero _)
  fits := Nat.zero_le _
  object := h
  holds := .nil buf

/-- A full buffer is terminated behind its end. -/
theorem Reading.full {k : Nat} {buf : Buffer} (h : Reading rs k buf)
    (hfull : size ≤ (received rs.result k).length) (fuel : Nat) : resume rs fuel k buf = none := by
  have hzero : size - (received rs.result k).length = 0 := Nat.sub_eq_zero_of_le hfull
  have hpast : buf.write (received rs.result k).length [0] = none :=
    Buffer.write_past (by rw [h.object, List.length_singleton]; omega)
  unfold resume
  rw [hzero]
  simp only [readSocket, terminate, hpast, Option.map_none]

/-- One result that is neither the end nor an error: the loop goes round. -/
theorem Reading.step {k : Nat} {buf : Buffer} (h : Reading rs k buf)
    (hroom : (received rs.result k).length < size) (hon : (rs.result k).GoesOn) :
    ∃ buf', Reading rs (k + 1) buf' ∧
      ∀ fuel, resume rs (fuel + 1) k buf = resume rs fuel (k + 1) buf' := by
  have hgoes : GoesOnUntil rs.result (k + 1) := by
    intro i hi
    rcases Nat.lt_succ_iff_lt_or_eq.mp hi with hlt | rfl
    · exact h.goesOn i hlt
    · exact hon
  have hat := rs.atMost k h.goesOn hroom
  have hrec : received rs.result (k + 1) = received rs.result k ++ (rs.result k).bytes := rfl
  obtain ⟨m, hm⟩ : ∃ m, size - (received rs.result k).length = m + 1 :=
    ⟨size - (received rs.result k).length - 1, by omega⟩
  cases hres : rs.result k with
  | got l =>
      rw [hres] at hat hrec hon
      cases l with
      | nil => exact absurd rfl hon
      | cons b l =>
          have hlen : (b :: l).length ≤ size - (received rs.result k).length := by
            simp only [ReadResult.bytes] at hat
            split at hat <;> omega
          have hin : (received rs.result k).length + (b :: l).length ≤ buf.size := by
            rw [h.object]
            omega
          obtain ⟨buf', hw⟩ := Buffer.write_isSome hin
          have hlen' : (received rs.result (k + 1)).length
              = (received rs.result k).length + (b :: l).length := by
            rw [hrec]
            exact List.length_append
          refine ⟨buf', ⟨hgoes, by omega, (Buffer.size_write hw).trans h.object, ?_⟩, ?_⟩
          · rw [hrec]
            exact h.holds.write hw
          · intro fuel
            have hleft : m + 1 - (b :: l).length = size - (received rs.result (k + 1)).length := by
              omega
            unfold resume
            rw [hm]
            simp only [readSocket, hres, hw, Option.bind_eq_bind, Option.bind_some]
            rw [hleft, ← hlen']
  | eintr =>
      rw [hres] at hrec
      have hsame : received rs.result (k + 1) = received rs.result k :=
        hrec.trans (List.append_nil _)
      refine ⟨buf, ⟨hgoes, ?_, h.object, ?_⟩, ?_⟩
      · rw [hsame]
        exact h.fits
      · rw [hsame]
        exact h.holds
      · intro fuel
        unfold resume
        rw [hsame, hm]
        simp only [readSocket, hres]
  | error =>
      rw [hres] at hon
      exact hon.elim

/-- What is written is inside `buf`, and a return of 0 leaves the bytes received until the
end of the file, with a NUL behind them. -/
def ReturnsWell (result : Nat → ReadResult) (out : Option (Option (Int × Buffer))) : Prop :=
  ∃ r, out = some r ∧ ∀ buf', r = some (0, buf') →
    ∃ k, GoesOnUntil result k ∧ result k = .got [] ∧ buf'.Holds 0 (received result k ++ [0])

/-- The end of the file, with room for the NUL. -/
theorem Reading.eof {k : Nat} {buf : Buffer} (h : Reading rs k buf)
    (hroom : (received rs.result k).length < size) (hend : rs.result k = .got []) :
    ReturnsWell rs.result (terminate buf (received rs.result k).length) := by
  have hin : (received rs.result k).length + [(0 : UInt8)].length ≤ buf.size := by
    rw [h.object, List.length_singleton]
    omega
  obtain ⟨buf', hw⟩ := Buffer.write_isSome hin
  refine ⟨some (0, buf'), ?_, ?_⟩
  · unfold terminate
    rw [hw]
    rfl
  · intro buf'' heq
    cases heq
    exact ⟨k, h.goesOn, hend, h.holds.write hw⟩

/-- As long as there is room left, whatever the results, the loop stays inside. -/
theorem Reading.within
    (hroom : ∀ k, GoesOnUntil rs.result k → (received rs.result k).length < size) :
    ∀ (fuel : Nat) {k : Nat} {buf : Buffer}, Reading rs k buf →
      ReturnsWell rs.result (resume rs fuel k buf)
  | 0, k, buf, h => by
      obtain ⟨m, hm⟩ : ∃ m, size - (received rs.result k).length = m + 1 :=
        ⟨size - (received rs.result k).length - 1, by have := hroom k h.goesOn; omega⟩
      refine ⟨none, ?_, fun _ heq => nomatch heq⟩
      unfold resume
      rw [hm]
      rfl
  | fuel + 1, k, buf, h => by
      have hlt := hroom k h.goesOn
      by_cases hon : (rs.result k).GoesOn
      · obtain ⟨buf', h', hstep⟩ := h.step hlt hon
        rw [hstep fuel]
        exact Reading.within hroom fuel h'
      · obtain ⟨m, hm⟩ : ∃ m, size - (received rs.result k).length = m + 1 :=
          ⟨size - (received rs.result k).length - 1, by omega⟩
        unfold resume
        rw [hm]
        cases hres : rs.result k with
        | got l =>
            cases l with
            | nil =>
                simp only [readSocket, hres]
                exact h.eof hlt hres
            | cons b l => exact absurd (by rw [hres]; exact List.cons_ne_nil _ _) hon
        | eintr => exact absurd (by rw [hres]; exact trivial) hon
        | error =>
            simp only [readSocket, hres]
            exact ⟨some (-1, buf), rfl, fun _ heq => by simp at heq⟩

/-- The buffer is full after `k + d` results: the loop gets there and writes behind it. -/
theorem Reading.outside : ∀ (d : Nat) {k : Nat} {buf : Buffer}, Reading rs k buf →
    GoesOnUntil rs.result (k + d) → size ≤ (received rs.result (k + d)).length →
    resume rs d k buf = none
  | 0, _, _, h, _, hfull => h.full hfull 0
  | d + 1, k, buf, h, hgoes, hfull => by
      by_cases hroom : (received rs.result k).length < size
      · obtain ⟨buf', h', hstep⟩ := h.step hroom (hgoes k (by omega))
        rw [hstep d]
        rw [show k + (d + 1) = k + 1 + d by omega] at hgoes hfull
        exact Reading.outside d h' hgoes hfull
      · exact h.full (Nat.not_lt.mp hroom) (d + 1)

end Loop

/-- `read_socket` on a buffer of `size` bytes writes inside it only, however long it
runs, and leaves the bytes received, NUL-terminated, when it returns 0. -/
def ReadsWithin {size : Nat} (rs : ReadResults size) : Prop :=
  ∀ buf : Buffer, buf.size = size → ∀ fuel,
    ReturnsWell rs.result (readSocket rs.result fuel 0 buf 0 size)

/-- It does so exactly when fewer than `size` bytes arrive before the file ends or an
error comes. -/
theorem readsWithin_iff {size : Nat} (rs : ReadResults size) :
    ReadsWithin rs ↔ ∀ k, GoesOnUntil rs.result k → (received rs.result k).length < size := by
  constructor
  · intro h k hgoes
    by_contra hfull
    have hfull := Nat.not_lt.mp hfull
    let buf : Buffer := ⟨[], size, Nat.zero_le _⟩
    obtain ⟨r, hr, _⟩ := h buf rfl k
    have hout : resume rs k 0 buf = none := Reading.outside k (Reading.start rfl)
      (by rwa [Nat.zero_add]) (by rwa [Nat.zero_add])
    exact absurd (hr.symm.trans hout) (Option.some_ne_none _)
  · intro hroom buf hsize fuel
    exact Reading.within hroom fuel (Reading.start hsize)

/-- A peer that sends two bytes into a buffer of two bytes: the
NUL goes to `buf[2]`. -/
theorem not_readsWithin_fullBuffer : ∃ rs : ReadResults 2, received rs.result 2 = [79, 75] ∧
    ¬ ReadsWithin rs := by
  let result : Nat → ReadResult := fun k => if k = 0 then .got [79, 75] else .eintr
  have hat : ∀ k, GoesOnUntil result k → (received result k).length < 2 →
      (result k).bytes.length ≤ if 2 - (received result k).length > BUFSIZ then BUFSIZ
        else 2 - (received result k).length := by
    intro k _ _
    cases k with
    | zero => decide
    | succ k => exact Nat.zero_le _
  refine ⟨⟨result, hat⟩, rfl, fun h => ?_⟩
  have hnone : readSocket result 1 0 ⟨[], 2, Nat.zero_le _⟩ 0 2 = none := by decide +kernel
  obtain ⟨r, hr, _⟩ := h ⟨[], 2, Nat.zero_le _⟩ rfl 1
  exact absurd (hr.symm.trans hnone) (Option.some_ne_none _)

/-! ## `throttle` -/

def MAX_CREDIT : Nat := 100
def CREDIT_PER_SECOND : Nat := 2

/-- The static variables of `throttle`. -/
structure Throttle where
  lastTime : Int
  sendCredit : Nat

/-- Their values before the first call. -/
def Throttle.start : Throttle := ⟨0, MAX_CREDIT⟩

/-- What `time` gives in one call: on entry, and after `nanosleep` if the call sleeps. -/
structure Readings where
  now : Int
  woken : Int

/-- The value of a signed 64-bit operation; `none` where it overflows. -/
def signed64 (x : Int) : Option Int := if -2 ^ 63 ≤ x ∧ x < 2 ^ 63 then some x else none

/-- `throttle`, with whether it slept. -/
def throttle (s : Throttle) (r : Readings) : Option (Bool × Throttle) := do
  let diffTime ← signed64 (r.now - s.lastTime)
  let gained ← signed64 (diffTime * CREDIT_PER_SECOND)
  -- the sum is taken in `time_t` and cut to `unsigned int`
  let sum ← signed64 (s.sendCredit + gained)
  let credit := (sum % 2 ^ 32).toNat
  let credit := if credit > MAX_CREDIT then MAX_CREDIT else credit
  if credit > 0 then some (false, ⟨r.now, credit - 1⟩)
  else some (true, ⟨r.woken, credit⟩)

/-- The seconds the clock has gone forward since the last reading. -/
def Throttle.advance (s : Throttle) (r : Readings) : Nat := (r.now - s.lastTime).toNat

/-- What is seen of one call: whether it slept, how far the clock had gone forward, and the
credit it leaves. -/
structure ThrottleCall where
  slept : Bool
  advance : Nat
  credit : Nat

/-- The call as a use of the bucket. -/
def ThrottleCall.use (c : ThrottleCall) : Use :=
  ⟨if c.slept then 0 else 1, c.credit, CREDIT_PER_SECOND * c.advance⟩

/-- Calls of `throttle`, one for each reading. -/
def throttles : Throttle → List Readings → Option (List ThrottleCall)
  | _, [] => some []
  | s, r :: rs => do
      let (slept, s') ← throttle s r
      let calls ← throttles s' rs
      some (⟨slept, s.advance r, s'.sendCredit⟩ :: calls)

/-- The calls that return without sleeping. -/
def fastSends (calls : List ThrottleCall) : Nat := calls.countP fun c => !c.slept

/-- The seconds the clock goes forward between the readings of a run of calls. -/
def advances (calls : List ThrottleCall) : Nat := (calls.tail.map ThrottleCall.advance).sum

/-- The credit stays in its range, and no run of consecutive calls sends faster than the
bucket allows. -/
def Paced (rs : List Readings) : Prop :=
  ∃ calls, throttles Throttle.start rs = some calls ∧ (∀ c ∈ calls, c.credit ≤ MAX_CREDIT) ∧
    ∀ before run after, calls = before ++ run ++ after →
      fastSends run ≤ MAX_CREDIT + CREDIT_PER_SECOND * advances run

/-- The clock makes no signed operation overflow, and it is not set back, or the bucket is
full, or what the step back takes away leaves no more credit than there was. -/
def Throttle.Steady (s : Throttle) (r : Readings) : Prop :=
  (-2 ^ 63 ≤ CREDIT_PER_SECOND * (r.now - s.lastTime) ∧
    s.sendCredit + CREDIT_PER_SECOND * (r.now - s.lastTime) < 2 ^ 63) ∧
  (s.lastTime ≤ r.now ∨ s.sendCredit = MAX_CREDIT ∨
    (s.sendCredit + CREDIT_PER_SECOND * (r.now - s.lastTime)) % 2 ^ 32 ≤ s.sendCredit)

instance (s : Throttle) (r : Readings) : Decidable (s.Steady r) :=
  inferInstanceAs (Decidable (_ ∧ _))

/-- Every call of a series is such a call. -/
def AllSteady : Throttle → List Readings → Prop
  | _, [] => True
  | s, r :: rs => s.Steady r ∧ ∀ slept s', throttle s r = some (slept, s') → AllSteady s' rs

/-- One call gives out no more than was left and what the time passed is worth, and no more
than a full bucket. -/
def Throttle.Honest (s : Throttle) (r : Readings) : Prop :=
  ∃ slept s', throttle s r = some (slept, s') ∧
    (if slept then 0 else 1) + s'.sendCredit ≤ MAX_CREDIT ∧
    (if slept then 0 else 1) + s'.sendCredit ≤ s.sendCredit + CREDIT_PER_SECOND * s.advance r

section Call

variable {s : Throttle} {r : Readings}

/-- What is in the bucket when the call looks: the sum, cut to 32 bits and to a full bucket. -/
def Throttle.level (s : Throttle) (r : Readings) : Nat :=
  min MAX_CREDIT ((s.sendCredit + CREDIT_PER_SECOND * (r.now - s.lastTime)) % 2 ^ 32).toNat

/-- The call takes one send out of the bucket, or sleeps where there is none. -/
theorem throttle_eq (hlow : -2 ^ 63 ≤ CREDIT_PER_SECOND * (r.now - s.lastTime))
    (hhigh : s.sendCredit + CREDIT_PER_SECOND * (r.now - s.lastTime) < 2 ^ 63) :
    ∃ slept s', throttle s r = some (slept, s') ∧
      (if slept then 0 else 1) + s'.sendCredit = s.level r := by
  have hcps : (CREDIT_PER_SECOND : Int) = 2 := rfl
  rw [hcps] at hlow hhigh
  have hdiff : signed64 (r.now - s.lastTime) = some (r.now - s.lastTime) :=
    if_pos (by constructor <;> omega)
  have hgain : signed64 ((r.now - s.lastTime) * CREDIT_PER_SECOND)
      = some (2 * (r.now - s.lastTime)) := by
    rw [hcps, Int.mul_comm]
    exact if_pos (by constructor <;> omega)
  have hsum : signed64 (s.sendCredit + 2 * (r.now - s.lastTime))
      = some (s.sendCredit + 2 * (r.now - s.lastTime)) := if_pos (by constructor <;> omega)
  have hlevel : (if ((s.sendCredit + 2 * (r.now - s.lastTime)) % 2 ^ 32).toNat > MAX_CREDIT
      then MAX_CREDIT else ((s.sendCredit + 2 * (r.now - s.lastTime)) % 2 ^ 32).toNat)
      = s.level r := by
    unfold Throttle.level
    rw [hcps]
    split <;> omega
  unfold throttle
  simp only [hdiff, hgain, hsum, Option.bind_eq_bind, Option.bind_some, hlevel]
  by_cases hpos : s.level r > 0
  · refine ⟨false, ⟨r.now, s.level r - 1⟩, if_pos hpos, ?_⟩
    show 1 + (s.level r - 1) = s.level r
    omega
  · refine ⟨true, ⟨r.woken, s.level r⟩, if_neg hpos, ?_⟩
    exact Nat.zero_add _

/-- A call that comes to its end has made no operation overflow. -/
theorem throttle_inRange {slept : Bool} {s' : Throttle} (h : throttle s r = some (slept, s')) :
    -2 ^ 63 ≤ CREDIT_PER_SECOND * (r.now - s.lastTime) ∧
      s.sendCredit + CREDIT_PER_SECOND * (r.now - s.lastTime) < 2 ^ 63 := by
  have hsigned : ∀ {x y : Int}, signed64 x = some y → y = x ∧ -2 ^ 63 ≤ x ∧ x < 2 ^ 63 := by
    intro x y hx
    unfold signed64 at hx
    split at hx
    · rename_i hin
      exact ⟨(Option.some.inj hx).symm, hin⟩
    · cases hx
  unfold throttle at h
  obtain ⟨diff, hdiff, h⟩ := Option.bind_eq_some_iff.mp h
  obtain ⟨gain, hgain, h⟩ := Option.bind_eq_some_iff.mp h
  obtain ⟨sum, hsum, _⟩ := Option.bind_eq_some_iff.mp h
  obtain ⟨rfl, -⟩ := hsigned hdiff
  obtain ⟨rfl, hlow, -⟩ := hsigned hgain
  obtain ⟨rfl, -, hhigh⟩ := hsigned hsum
  rw [Int.mul_comm] at hlow hhigh
  exact ⟨hlow, hhigh⟩

/-- Where the bucket is no fuller than it may be. -/
theorem level_le_iff (hs : s.sendCredit ≤ MAX_CREDIT) :
    s.level r ≤ s.sendCredit + CREDIT_PER_SECOND * s.advance r ↔
      s.lastTime ≤ r.now ∨ s.sendCredit = MAX_CREDIT ∨
      (s.sendCredit + CREDIT_PER_SECOND * (r.now - s.lastTime)) % 2 ^ 32 ≤ s.sendCredit := by
  have hcps : CREDIT_PER_SECOND = 2 := rfl
  unfold Throttle.level Throttle.advance
  rw [hcps]
  omega

theorem honest_iff (hs : s.sendCredit ≤ MAX_CREDIT) : s.Honest r ↔ s.Steady r := by
  constructor
  · rintro ⟨slept, s', h, -, hle⟩
    obtain ⟨hlow, hhigh⟩ := throttle_inRange h
    obtain ⟨slept₁, s₁, h₁, hlevel⟩ := throttle_eq hlow hhigh
    obtain ⟨rfl, rfl⟩ := Prod.mk.inj (Option.some.inj (h.symm.trans h₁))
    rw [hlevel] at hle
    exact ⟨⟨hlow, hhigh⟩, (level_le_iff hs).mp hle⟩
  · rintro ⟨⟨hlow, hhigh⟩, hclock⟩
    obtain ⟨slept, s', h, hlevel⟩ := throttle_eq hlow hhigh
    refine ⟨slept, s', h, ?_, ?_⟩
    · rw [hlevel]
      exact Nat.min_le_left _ _
    · rw [hlevel]
      exact (level_le_iff hs).mpr hclock

end Call

/-- A series of honest calls is a series of uses of the bucket. -/
theorem throttles_drains : ∀ (rs : List Readings) {s : Throttle}, s.sendCredit ≤ MAX_CREDIT →
    AllSteady s rs → ∃ calls, throttles s rs = some calls ∧
      (∀ c ∈ calls, c.credit ≤ MAX_CREDIT) ∧
      Drains MAX_CREDIT s.sendCredit (calls.map ThrottleCall.use)
  | [], _, _, _ => ⟨[], rfl, fun _ hc => absurd hc List.not_mem_nil, trivial⟩
  | r :: rs, s, hs, ⟨hsteady, hrest⟩ => by
      obtain ⟨slept, s', h, hcap, hle⟩ := (honest_iff hs).mpr hsteady
      have hs' : s'.sendCredit ≤ MAX_CREDIT := by omega
      obtain ⟨calls, hcalls, hall, hdrains⟩ := throttles_drains rs hs' (hrest slept s' h)
      refine ⟨⟨slept, s.advance r, s'.sendCredit⟩ :: calls, ?_, ?_, hcap, hle, hdrains⟩
      · simp only [throttles, h, hcalls, Option.bind_eq_bind, Option.bind_some]
      · intro c hc
        rcases List.mem_cons.mp hc with rfl | hc
        · exact hs'
        · exact hall c hc

theorem taken_use : ∀ calls : List ThrottleCall,
    taken (calls.map ThrottleCall.use) = fastSends calls
  | [] => rfl
  | ⟨slept, _, _⟩ :: calls => by
      have ih := taken_use calls
      unfold fastSends at ih ⊢
      rw [List.map_cons, taken_cons, ih, List.countP_cons, Nat.add_comm]
      cases slept <;> rfl

theorem refilled_use : ∀ calls : List ThrottleCall,
    refilled (calls.map ThrottleCall.use)
      = CREDIT_PER_SECOND * (calls.map ThrottleCall.advance).sum
  | [] => rfl
  | c :: calls => by
      rw [List.map_cons, refilled_cons, refilled_use calls, List.map_cons, List.sum_cons,
        Nat.mul_add]
      rfl

/-- A series of calls that all find a steady clock keeps the credit in its range and the rate
of every run of calls in it; and a call that finds another clock is the one that overflows,
or that gives out more than was there. -/
theorem paced_of_steady (rs : List Readings) (s : Throttle) (r : Readings) :
    (AllSteady Throttle.start rs → Paced rs) ∧
    (s.sendCredit ≤ MAX_CREDIT → (s.Honest r ↔ s.Steady r)) := by
  refine ⟨fun hsteady => ?_, fun hs => honest_iff hs⟩
  obtain ⟨calls, hcalls, hall, hdrains⟩ := throttles_drains rs (le_refl _) hsteady
  refine ⟨calls, hcalls, hall, ?_⟩
  rintro before run after rfl
  rw [List.map_append, List.map_append] at hdrains
  have hwindow := hdrains.window
  rw [taken_use, ← List.map_tail, refilled_use] at hwindow
  exact hwindow

/-- Two sends a second apart. -/
theorem paced_twoSends : Paced [⟨1700000000, 0⟩, ⟨1700000001, 0⟩] := by
  refine (paced_of_steady _ .start ⟨0, 0⟩).1 ⟨by decide, fun slept s' h => ?_⟩
  cases h
  exact ⟨by decide, fun _ _ _ => trivial⟩

/-- A hundred sends in one second empty the bucket; the clock is set back by a second, and the
next send finds it full. -/
theorem not_paced_setBack :
    ¬ Paced (List.replicate 100 ⟨1700000000, 0⟩ ++ [⟨1699999999, 0⟩]) := by
  rintro ⟨calls, hcalls, -, hrate⟩
  have hfast : (throttles Throttle.start
      (List.replicate 100 ⟨1700000000, 0⟩ ++ [⟨1699999999, 0⟩])).map
      (fun calls => (fastSends calls, advances calls)) = some (101, 0) := by decide +kernel
  rw [hcalls] at hfast
  obtain ⟨hsends, hadvance⟩ := Prod.mk.inj (Option.some.inj hfast)
  have hle := hrate [] calls [] (List.append_nil _).symm
  rw [hsends, hadvance] at hle
  exact absurd hle (by decide)

end Uefistored
