import Mathlib.Data.Nat.Bitwise
import Mathlib.Data.List.Basic
import Mathlib.Data.List.Range

/-!
# Bitmaps over bytes, least significant bit first

Bit `p` is bit `p % 8` of byte `p / 8`. Setting bits and reading them back
is all there is: after a list of writes exactly the written bits, and those
set before, read as one.
-/

namespace Pytusk.Lib.Bitmap

/-- `1 << k` as a byte. -/
def mask (k : Nat) : UInt8 := 1 <<< UInt8.ofNat k

/-- `byte & (1 << k)`, as a truth value. -/
def bit (b : UInt8) (k : Nat) : Bool := b &&& mask k != 0

theorem mask_toNat {k : Nat} (hk : k < 8) : (mask k).toNat = 2 ^ k := by
  have : ∀ k : Fin 8, (mask k).toNat = 2 ^ k.val := by decide
  exact this ⟨k, hk⟩

theorem bit_eq_testBit (b : UInt8) {k : Nat} (hk : k < 8) :
    bit b k = b.toNat.testBit k := by
  have hand : (b &&& mask k).toNat = (b.toNat.testBit k).toNat * 2 ^ k := by
    rw [UInt8.toNat_and, mask_toNat hk, Nat.and_two_pow]
  cases hbit : b.toNat.testBit k with
  | false =>
    rw [hbit] at hand
    have hzero : b &&& mask k = 0 := UInt8.toNat_inj.mp (by simpa using hand)
    simp [bit, hzero]
  | true =>
    rw [hbit] at hand
    have hne : b &&& mask k ≠ 0 := by
      intro hzero
      rw [hzero] at hand
      have hpos := Nat.two_pow_pos k
      simp only [UInt8.toNat_zero, Bool.toNat_true, Nat.one_mul] at hand
      omega
    simp [bit, hne]

theorem bit_or_mask (b : UInt8) {k m : Nat} (hk : k < 8) (hm : m < 8) :
    bit (b ||| mask k) m = (decide (m = k) || bit b m) := by
  rw [bit_eq_testBit _ hm, bit_eq_testBit _ hm, UInt8.toNat_or, mask_toNat hk,
    Nat.testBit_or, Nat.testBit_two_pow, Bool.or_comm]
  simp only [eq_comm]

/-- A byte is its eight bits. -/
theorem eq_of_bit_eq {b c : UInt8} (h : ∀ k < 8, bit b k = bit c k) : b = c := by
  have hhigh : ∀ (d : UInt8) {k : Nat}, 8 ≤ k → d.toNat.testBit k = false := by
    intro d k hk
    apply Nat.testBit_lt_two_pow
    calc d.toNat < 2 ^ 8 := d.toNat_lt
      _ ≤ 2 ^ k := Nat.pow_le_pow_right (by decide) hk
  apply UInt8.toNat_inj.mp
  apply Nat.eq_of_testBit_eq
  intro k
  by_cases hk : k < 8
  · rw [← bit_eq_testBit b hk, ← bit_eq_testBit c hk]
    exact h k hk
  · rw [hhigh b (by omega), hhigh c (by omega)]

/-! ## Writing and reading -/

/-- `bitmap[p // 8] |= 1 << (p % 8)` -/
def setBit (bs : List UInt8) (p : Nat) : List UInt8 :=
  bs.modify (p / 8) (· ||| mask (p % 8))

/-- `bitmap[p // 8] & (1 << (p % 8))`, as a truth value. -/
def getBit (bs : List UInt8) (p : Nat) : Bool := bit (bs.getD (p / 8) 0) (p % 8)

@[simp] theorem length_setBit (bs : List UInt8) (p : Nat) :
    (setBit bs p).length = bs.length := by
  simp [setBit]

theorem getBit_setBit {bs : List UInt8} {p : Nat} (hp : p / 8 < bs.length) (q : Nat) :
    getBit (setBit bs p) q = (decide (q = p) || getBit bs q) := by
  have hp8 : p % 8 < 8 := Nat.mod_lt _ (by omega)
  have hq8 : q % 8 < 8 := Nat.mod_lt _ (by omega)
  by_cases hbyte : p / 8 = q / 8
  · have hqlt : q / 8 < bs.length := hbyte ▸ hp
    have hiff : (q % 8 = p % 8) ↔ q = p := by omega
    simp only [getBit, setBit, List.getD_eq_getElem?_getD, List.getElem?_modify, hbyte,
      List.getElem?_eq_getElem hqlt, if_true, Option.map_eq_map, Option.map_some,
      Option.getD_some, bit_or_mask _ hp8 hq8, hiff]
  · have hne : ¬ q = p := by
      rintro rfl
      exact hbyte rfl
    simp [getBit, setBit, List.getD_eq_getElem?_getD, hbyte, hne]

theorem getBit_replicate (n q : Nat) : getBit (List.replicate n 0) q = false := by
  have hzero : (List.replicate n (0 : UInt8)).getD (q / 8) 0 = 0 := by
    rw [List.getD_eq_getElem?_getD, List.getElem?_replicate]
    split <;> rfl
  rw [getBit, hzero, bit_eq_testBit _ (Nat.mod_lt _ (by omega))]
  simp

/-- After a list of writes in range, exactly the written bits were added. -/
theorem getBit_foldl_setBit {ps : List Nat} {bs : List UInt8}
    (h : ∀ p ∈ ps, p / 8 < bs.length) (q : Nat) :
    getBit (ps.foldl setBit bs) q = (decide (q ∈ ps) || getBit bs q) := by
  induction ps generalizing bs with
  | nil => simp
  | cons p ps ih =>
    have hp : p / 8 < bs.length := h p (by simp)
    rw [List.foldl_cons, ih (fun r hr => by simpa using h r (by simp [hr])),
      getBit_setBit hp]
    by_cases hqp : q = p <;> simp [hqp]

theorem length_foldl_setBit (ps : List Nat) (bs : List UInt8) :
    (ps.foldl setBit bs).length = bs.length := by
  induction ps generalizing bs with
  | nil => rfl
  | cons p ps ih => rw [List.foldl_cons, ih, length_setBit]

/-- The set bits below `n`, in ascending order. -/
def positions (bs : List UInt8) (n : Nat) : List Nat :=
  (List.range n).filter (getBit bs)

theorem byte_lt_of_lt {ps : List Nat} {n : Nat} (h : ∀ p ∈ ps, p < n) :
    ∀ p ∈ ps, p / 8 < (List.replicate ((n + 7) / 8) (0 : UInt8)).length := by
  intro p hp
  have := h p hp
  rw [List.length_replicate]
  omega

/-- The bits of an empty bitmap after a list of writes. -/
theorem getBit_foldl_replicate {ps : List Nat} {n : Nat} (h : ∀ p ∈ ps, p < n) (q : Nat) :
    getBit (ps.foldl setBit (List.replicate ((n + 7) / 8) 0)) q = decide (q ∈ ps) := by
  rw [getBit_foldl_setBit (byte_lt_of_lt h), getBit_replicate, Bool.or_false]

/-- Bits written into an empty bitmap are the ones read back. -/
theorem positions_foldl_setBit {ps : List Nat} {n : Nat} (h : ∀ p ∈ ps, p < n) :
    positions (ps.foldl setBit (List.replicate ((n + 7) / 8) 0)) n =
      (List.range n).filter (· ∈ ps) := by
  apply List.filter_congr
  intro q _
  exact getBit_foldl_replicate h q

/-! ## A bitmap and its positions -/

/-- A bitmap is its bits. -/
theorem ext_getBit {bs cs : List UInt8} (hlen : bs.length = cs.length)
    (h : ∀ q < 8 * bs.length, getBit bs q = getBit cs q) : bs = cs := by
  apply List.ext_getElem hlen
  intro i hi hi'
  apply eq_of_bit_eq
  intro k hk
  have hbyte : (8 * i + k) / 8 = i := by omega
  have hbit : (8 * i + k) % 8 = k := by omega
  have hq := h (8 * i + k) (by omega)
  simpa only [getBit, hbyte, hbit, List.getD_eq_getElem _ _ hi, List.getD_eq_getElem _ _ hi']
    using hq

/-- A bitmap of `n` positions: as many bytes as they take, and no bit set in
what is left of the last one. -/
structure OfSize (n : Nat) (bs : List UInt8) : Prop where
  length : bs.length = (n + 7) / 8
  padding : ∀ q, n ≤ q → q < 8 * bs.length → getBit bs q = false

theorem ofSize_foldl_setBit {ps : List Nat} {n : Nat} (h : ∀ p ∈ ps, p < n) :
    OfSize n (ps.foldl setBit (List.replicate ((n + 7) / 8) 0)) where
  length := by rw [length_foldl_setBit, List.length_replicate]
  padding q hq _ := by
    rw [getBit_foldl_replicate h, decide_eq_false_iff_not]
    intro hmem
    have := h q hmem
    omega

theorem mem_positions {bs : List UInt8} {n q : Nat} :
    q ∈ positions bs n ↔ q < n ∧ getBit bs q = true := by
  rw [positions, List.mem_filter, List.mem_range]

/-- The positions of a bitmap, written into an empty one, give it back. -/
theorem OfSize.foldl_setBit_positions {bs : List UInt8} {n : Nat} (h : OfSize n bs) :
    (positions bs n).foldl setBit (List.replicate ((n + 7) / 8) 0) = bs := by
  have hbelow : ∀ p ∈ positions bs n, p < n := fun p hp => (mem_positions.mp hp).1
  have hlen := (ofSize_foldl_setBit hbelow).length.trans h.length.symm
  apply ext_getBit hlen
  intro q hq
  rw [getBit_foldl_replicate hbelow]
  simp only [mem_positions]
  by_cases hqn : q < n
  · simp [hqn]
  · have hzero := h.padding q (by omega) (hlen ▸ hq)
    simp [hzero]

end Pytusk.Lib.Bitmap
