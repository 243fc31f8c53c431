/-
# `Uefistored.Lib.Wire` — reading a byte format

A `Reader ε α` takes an `α` off the front of a list of bytes, or gives up with
an error; it is undefined where the bytes run out.  `Reads p bs a` says that `p`
reads `a` from exactly the bytes `bs`, whatever follows them.  The rules
compose: a sequence of readers reads the concatenation (`Reads.bind`), and a
reader that is run once for every entry of a list reads the concatenation of
the entries (`Reads.times`).  `Decodes p n e Q` says what `p` makes of bytes of
which nothing is known but that there are `n` of them: it comes to a result with
`Q`, or gives up with `e`.  It composes in the same way.
-/
import Uefistored.Lib.Bytes

namespace Uefistored.Lib

/-- A partial function on the unread bytes that may give up. -/
abbrev Reader (ε α : Type) := StateT (List UInt8) (ExceptT ε Option) α

namespace Reader

variable {ε α : Type}

/-- What the reader makes of all the bytes there are. -/
def read (p : Reader ε α) (l : List UInt8) : Option (Except ε (α × List UInt8)) := p l

/-- The next `n` bytes. -/
def bytes (n : Nat) : Reader ε (List UInt8) :=
  fun l => if n ≤ l.length then some (.ok (l.take n, l.drop n)) else none

/-- The next `n` bytes as a little-endian number. -/
def num (n : Nat) : Reader ε Nat := do
  let l ← bytes n
  return leNat l

/-- An assertion: where it fails the reader is undefined. -/
def require (c : Prop) [Decidable c] : Reader ε Unit :=
  fun l => if c then some (.ok ((), l)) else none

/-- Run `p i`, `p (i + 1)`, …, `n` of them. -/
def times (p : Nat → Reader ε α) : Nat → Nat → Reader ε (List α)
  | _, 0 => return []
  | i, n + 1 => do
    let a ← p i
    let as ← times p (i + 1) n
    return a :: as

/-- Of two readers in a row, both came through. -/
theorem read_bind_ok {β : Type} {p : Reader ε α} {f : α → Reader ε β} {l r : List UInt8} {b : β}
    (h : (p >>= f).read l = some (.ok (b, r))) :
    ∃ a l', p.read l = some (.ok (a, l')) ∧ (f a).read l' = some (.ok (b, r)) := by
  have hstep : (p >>= f).read l =
      (p.read l).bind (ExceptT.bindCont (fun r => f r.1 r.2)) := rfl
  rw [hstep] at h
  obtain ⟨x, hx, h⟩ := Option.bind_eq_some_iff.mp h
  cases x with
  | error e => cases h
  | ok r => exact ⟨r.1, r.2, hx, h⟩

theorem read_bytes_bind {β : Type} (n : Nat) (f : List UInt8 → Reader ε β) (l : List UInt8) :
    (bytes n >>= f).read l = if n ≤ l.length then (f (l.take n)).read (l.drop n) else none := by
  have hstep : (bytes n >>= f).read l =
      ((bytes n).read l).bind (ExceptT.bindCont (fun r => f r.1 r.2)) := rfl
  have hbytes : (bytes n : Reader ε _).read l =
      if n ≤ l.length then some (.ok (l.take n, l.drop n)) else none := rfl
  rw [hstep, hbytes]
  split <;> rfl

theorem read_num_bind {β : Type} (n : Nat) (f : Nat → Reader ε β) (l : List UInt8) :
    (num n >>= f).read l =
      if n ≤ l.length then (f (leNat (l.take n))).read (l.drop n) else none := by
  unfold num
  rw [bind_assoc, read_bytes_bind]
  simp only [pure_bind]

end Reader

/-- The reader takes exactly `bs` and returns `a`. -/
def Reads {ε α : Type} (p : Reader ε α) (bs : List UInt8) (a : α) : Prop :=
  ∀ rest, p.read (bs ++ rest) = some (.ok (a, rest))

namespace Reads

variable {ε α β : Type} {p : Reader ε α} {bs cs : List UInt8} {a : α}

theorem pure (a : α) : Reads (Pure.pure a : Reader ε α) [] a := fun _ => rfl

/-- Of one list, a reader makes one value. -/
theorem unique {l cs : List UInt8} {b : α} (h : Reads p bs a) (h' : Reads p cs b) (hl : bs <+: l)
    (hl' : cs <+: l) : a = b := by
  obtain ⟨rest, hrest⟩ := hl
  obtain ⟨rest', rfl⟩ := hl'
  have hread := h rest
  rw [hrest, h' rest'] at hread
  cases hread
  rfl

theorem read_of_front {l : List UInt8} (h : Reads p bs a) (hl : bs <+: l) :
    ∃ rest, p.read l = some (.ok (a, rest)) := by
  obtain ⟨rest, rfl⟩ := hl
  exact ⟨rest, h rest⟩

/-- What comes after `p` goes on behind the bytes of `p`. -/
theorem read_bind {f : α → Reader ε β} (hp : Reads p bs a) (rest : List UInt8) :
    (p >>= f).read (bs ++ rest) = (f a).read rest := by
  have hstep : (p >>= f).read (bs ++ rest) =
      (p.read (bs ++ rest)).bind (ExceptT.bindCont (fun r => f r.1 r.2)) := rfl
  rw [hstep, hp]
  rfl

theorem bind {f : α → Reader ε β} {b : β} (hp : Reads p bs a) (hf : Reads (f a) cs b) :
    Reads (p >>= f) (bs ++ cs) b := by
  intro rest
  rw [List.append_assoc, hp.read_bind]
  exact hf rest

theorem require {c : Prop} [Decidable c] (hc : c) :
    Reads (Reader.require c : Reader ε Unit) [] () := fun _ => if_pos hc

theorem map {f : α → β} (hp : Reads p bs a) : Reads (do let a ← p; return f a) bs (f a) := by
  have h := hp.bind (f := fun a => (Pure.pure (f a) : Reader ε β)) (Reads.pure (f a))
  rwa [List.append_nil] at h

theorem bytes {n : Nat} (h : bs.length = n) : Reads (Reader.bytes n : Reader ε _) bs bs := by
  intro rest
  subst h
  simp [Reader.read, Reader.bytes]

theorem num_bytes {n : Nat} (h : bs.length = n) :
    Reads (Reader.num n : Reader ε _) bs (leNat bs) :=
  (Reads.bytes h).map

theorem num {n v : Nat} (h : v < 256 ^ n) : Reads (Reader.num n : Reader ε _) (leBytes n v) v := by
  have hread := Reads.num_bytes (ε := ε) (length_leBytes n v)
  rwa [leNat_leBytes_of_lt h] at hread

/-- A number in front of what is read next. -/
theorem read_num_bind {n : Nat} {l : List UInt8} (h : n ≤ l.length) (f : Nat → Reader ε β) :
    (Reader.num n >>= f).read l = (f (leNat (l.take n))).read (l.drop n) := by
  have hread := (Reads.num_bytes (ε := ε) (List.length_take_of_le h)).read_bind (f := f) (l.drop n)
  rwa [List.take_append_drop] at hread

/-- One entry after the other. -/
theorem times {enc : α → List UInt8} {dec : α → β → Prop} {q : Nat → Reader ε β} {as : List α}
    (hq : ∀ i, ∀ a ∈ as, ∃ b, dec a b ∧ Reads (q i) (enc a) b) (i : Nat) :
    ∃ bs, List.Forall₂ dec as bs ∧
      Reads (Reader.times q i as.length) (as.flatMap enc) bs := by
  induction as generalizing i with
  | nil => exact ⟨[], .nil, Reads.pure []⟩
  | cons a as ih =>
      obtain ⟨b, hb, hread⟩ := hq i a List.mem_cons_self
      obtain ⟨bs, hbs, hreads⟩ := ih (fun i a' ha' => hq i a' (List.mem_cons_of_mem _ ha')) (i + 1)
      exact ⟨b :: bs, .cons hb hbs, hread.bind (hreads.map (f := (b :: ·)))⟩

end Reads

/-- Out of `n` bytes or more the reader makes an `a` with `Q a`, for which it takes no more than
`n`, or it gives up with `e`. -/
def Decodes {ε α : Type} (p : Reader ε α) (n : Nat) (e : ε) (Q : α → Prop) : Prop :=
  ∀ l : List UInt8, n ≤ l.length → p.read l = some (.error e) ∨
    ∃ a rest, p.read l = some (.ok (a, rest)) ∧ Q a ∧ l.length ≤ rest.length + n

namespace Decodes

variable {ε α β : Type} {p : Reader ε α} {n k : Nat} {e : ε} {Q : α → Prop} {R : β → Prop}

theorem pure {a : α} (h : Q a) : Decodes (Pure.pure a : Reader ε α) 0 e Q :=
  fun l _ => .inr ⟨a, l, rfl, h, Nat.le_refl _⟩

theorem throw : Decodes (throw e : Reader ε α) n e Q := fun _ _ => .inl rfl

theorem mono (h : Decodes p n e Q) (hnk : n ≤ k) : Decodes p k e Q := by
  intro l hl
  rcases h l (hnk.trans hl) with herr | ⟨a, rest, hok, ha, hrest⟩
  · exact .inl herr
  · exact .inr ⟨a, rest, hok, ha, by omega⟩

theorem bind {f : α → Reader ε β} (hp : Decodes p n e Q) (hf : ∀ a, Q a → Decodes (f a) k e R) :
    Decodes (p >>= f) (n + k) e R := by
  intro l hl
  have hstep : (p >>= f).read l =
      (p.read l).bind (ExceptT.bindCont (fun r => f r.1 r.2)) := rfl
  rw [hstep]
  rcases hp l (by omega) with herr | ⟨a, rest, hok, ha, hrest⟩
  · exact .inl (by rw [herr]; rfl)
  · rw [hok]
    rcases hf a ha rest (by omega) with herr' | ⟨b, rest', hok', hb, hrest'⟩
    · exact .inl herr'
    · exact .inr ⟨b, rest', hok', hb, by omega⟩

theorem bytes (n : Nat) : Decodes (Reader.bytes n : Reader ε _) n e (fun _ => True) := by
  intro l hl
  refine .inr ⟨l.take n, l.drop n, if_pos hl, trivial, ?_⟩
  rw [List.length_drop]
  omega

theorem num (n : Nat) : Decodes (Reader.num n : Reader ε _) n e (fun _ => True) :=
  (Decodes.bytes n).bind (fun _ _ => Decodes.pure trivial)

end Decodes

end Uefistored.Lib
