import Mathlib.Data.List.Basic
import Pytusk.Lib.LittleEndian

/-!
# Readers of byte strings

A reader consumes a leading part of its input and returns a value with what is left,
or fails. `Reads r bytes a` is the one fact needed of it: on input that
starts with `bytes` it returns `a` and leaves the rest alone. It composes
along `bind`, so a decoder written as a `do` block is proved right field by
field.

The second half has the variable-length parts: ULEB128 numbers and vectors
prefixed by their element count.
-/

namespace Pytusk.Lib.Wire

abbrev Reader := StateT (List UInt8) Option

/-- Whatever follows them, `r` consumes exactly `bytes` and returns `a`. -/
def Reads {α : Type} (r : Reader α) (bytes : List UInt8) (a : α) : Prop :=
  ∀ rest, r.run (bytes ++ rest) = some (a, rest)

variable {α β : Type}

theorem Reads.pure (a : α) : Reads (pure a) [] a := fun _ => rfl

theorem Reads.bind {r : Reader α} {f : α → Reader β} {bs cs : List UInt8}
    {a : α} {b : β} (hr : Reads r bs a) (hf : Reads (f a) cs b) :
    Reads (r >>= f) (bs ++ cs) b := by
  intro rest
  rw [List.append_assoc, StateT.run_bind, hr]
  exact hf rest

theorem Reads.map {r : Reader α} {bs : List UInt8} {a : α} (hr : Reads r bs a)
    (f : α → β) : Reads (f <$> r) bs (f a) := by
  intro rest
  rw [StateT.run_map, hr]
  rfl

/-- The last field of a record, or a check that reads nothing. -/
theorem Reads.bind_nil {r : Reader α} {f : α → Reader β} {bs : List UInt8}
    {a : α} {b : β} (hr : Reads r bs a) (hf : Reads (f a) [] b) :
    Reads (r >>= f) bs b := by
  have := hr.bind hf
  rwa [List.append_nil] at this

/-! ## Fixed-width fields -/

/-- Fail unless the condition holds; reads nothing. -/
def expect (p : Prop) [Decidable p] : Reader Unit :=
  fun bs => if p then some ((), bs) else none

theorem reads_expect {p : Prop} [Decidable p] (h : p) : Reads (expect p) [] () := by
  intro rest
  show (if p then _ else _) = _
  rw [if_pos h]
  rfl

def take (n : Nat) : Reader (List UInt8) :=
  fun bs => if n ≤ bs.length then some (bs.take n, bs.drop n) else none

theorem reads_take (bytes : List UInt8) : Reads (take bytes.length) bytes bytes := by
  intro rest
  show (if _ then _ else _) = _
  rw [if_pos (by simp), List.take_left, List.drop_left]

/-- A little-endian number of `width` bytes. -/
def fixed (width : Nat) : Reader Nat := LittleEndian.decode <$> take width

theorem reads_fixed {width n : Nat} (h : n < 256 ^ width) :
    Reads (fixed width) (LittleEndian.encode width n) n := by
  have hbytes := reads_take (LittleEndian.encode width n)
  rw [LittleEndian.length_encode] at hbytes
  have := hbytes.map LittleEndian.decode
  rwa [LittleEndian.decode_encode_of_lt h] at this

/-- One byte. -/
def byte : Reader UInt8
  | [] => none
  | b :: rest => some (b, rest)

theorem reads_byte (b : UInt8) : Reads byte [b] b := fun _ => rfl

/-- A value computed from what has been read, if there is one. -/
def lift (answer : Option α) : Reader α := fun bs => answer.map (·, bs)

theorem reads_lift {answer : Option α} {a : α} (h : answer = some a) :
    Reads (lift answer) [] a := by
  intro rest
  rw [h]
  rfl

/-- What all of `bytes` reads as; `none` when a part is left over. -/
def readAll (r : Reader α) (bytes : List UInt8) : Option α :=
  match r.run bytes with
  | some (a, []) => some a
  | _ => none

theorem Reads.readAll {r : Reader α} {bytes : List UInt8} {a : α}
    (h : Reads r bytes a) : readAll r bytes = some a := by
  have := h []
  rw [List.append_nil] at this
  rw [Wire.readAll, this]

/-! ## ULEB128 and vectors -/

/-- Seven bits a byte, lowest first, with the high bit on every byte but the
last. `fuel` bounds the number of bytes; `n` itself is always enough. -/
def ulebLoop : (fuel n : Nat) → List UInt8
  | 0, n => [UInt8.ofNat n]
  | fuel + 1, n =>
      if n < 128 then [UInt8.ofNat n]
      else UInt8.ofNat (n % 128 + 128) :: ulebLoop fuel (n / 128)

def uleb (n : Nat) : List UInt8 := ulebLoop n n

/-- The number at the head of the input. -/
def readUleb : Reader Nat
  | [] => none
  | b :: rest =>
      if b.toNat < 128 then some (b.toNat, rest)
      else (readUleb rest).map fun (m, left) => (b.toNat - 128 + 128 * m, left)

private theorem reads_ulebLoop (fuel n : Nat) (h : n < 128 ∨ n ≤ fuel) :
    Reads readUleb (ulebLoop fuel n) n := by
  have small : ∀ k, k < 128 → Reads readUleb [UInt8.ofNat k] k := by
    intro k hk rest
    have hbyte : (UInt8.ofNat k).toNat = k := by simp; omega
    show readUleb (UInt8.ofNat k :: rest) = _
    rw [readUleb, hbyte, if_pos hk]
  induction fuel generalizing n with
  | zero => exact small n (by omega)
  | succ fuel ih =>
    rw [ulebLoop]
    split
    · exact small n ‹_›
    · rename_i hbig
      intro rest
      have hbyte : (UInt8.ofNat (n % 128 + 128)).toNat = n % 128 + 128 := by
        simp; omega
      have hrest : readUleb (ulebLoop fuel (n / 128) ++ rest) = some (n / 128, rest) :=
        ih (n / 128) (by omega) rest
      show readUleb (_ :: (_ ++ rest)) = _
      rw [readUleb, hbyte, if_neg (by omega), hrest]
      simp only [Option.map_some, Option.some.injEq, Prod.mk.injEq, and_true]
      omega

theorem reads_uleb (n : Nat) : Reads readUleb (uleb n) n :=
  reads_ulebLoop n n (by omega)

/-- A sequence of `n` items. -/
def readMany (item : Reader α) : Nat → Reader (List α)
  | 0 => pure []
  | n + 1 => do
      let x ← item
      let xs ← readMany item n
      pure (x :: xs)

/-- A vector: the element count, then the elements. -/
def readVec (item : Reader α) : Reader (List α) := do
  let n ← readUleb
  readMany item n

/-- Items written one after another are read back. -/
theorem reads_many {item : Reader α} {bytes : List (List UInt8)} {xs : List α}
    (h : List.Forall₂ (Reads item) bytes xs) :
    Reads (readMany item xs.length) bytes.flatten xs := by
  induction h with
  | nil => exact Reads.pure []
  | @cons b x bytes' xs' hx hrest ih =>
    exact hx.bind (ih.bind_nil (Reads.pure _))

theorem reads_vec {item : Reader α} {bytes : List (List UInt8)} {xs : List α}
    (h : List.Forall₂ (Reads item) bytes xs) :
    Reads (readVec item) (uleb xs.length ++ bytes.flatten) xs :=
  (reads_uleb xs.length).bind (reads_many h)

end Pytusk.Lib.Wire
