import Mathlib.Algebra.Order.Ring.Nat
import Mathlib.Data.UInt
import Mathlib.Tactic.Ring

/-!
# Little-endian numbers

`encode width n` is what `n.to_bytes(width, "little")` gives for a number
that fits, and `decode` is `int.from_bytes(.., "little")`.
-/

namespace Pytusk.Lib.LittleEndian

/-- The `width` low bytes of `n`, least significant first. -/
def encode : (width n : Nat) → List UInt8
  | 0, _ => []
  | w + 1, n => UInt8.ofNat n :: encode w (n / 256)

/-- The number whose bytes these are, least significant first. -/
def decode : List UInt8 → Nat
  | [] => 0
  | b :: rest => b.toNat + 256 * decode rest

@[simp] theorem length_encode (w n : Nat) : (encode w n).length = w := by
  induction w generalizing n with
  | zero => rfl
  | succ w ih => simp [encode, ih]

theorem decode_encode (w n : Nat) : decode (encode w n) = n % 256 ^ w := by
  induction w generalizing n with
  | zero => simp [encode, decode, Nat.mod_one]
  | succ w ih =>
    have hbyte : (UInt8.ofNat n).toNat = n % 256 := by simp
    rw [encode, decode, hbyte, ih, Nat.pow_succ', Nat.mod_mul]

/-- A number that fits is read back. -/
theorem decode_encode_of_lt {w n : Nat} (h : n < 256 ^ w) :
    decode (encode w n) = n := by
  rw [decode_encode, Nat.mod_eq_of_lt h]

/-- Bytes are the encoding of the number they stand for. -/
theorem encode_decode (bytes : List UInt8) : encode bytes.length (decode bytes) = bytes := by
  induction bytes with
  | nil => rfl
  | cons b rest ih =>
    have hbyte : UInt8.ofNat (b.toNat + 256 * decode rest) = b := by
      rw [UInt8.ofNat_add, UInt8.ofNat_mul]
      simp
    have hrest : (b.toNat + 256 * decode rest) / 256 = decode rest := by
      have hlt := b.toNat_lt
      omega
    rw [List.length_cons, decode, encode, hbyte, hrest, ih]

theorem encode_eq_iff {w n : Nat} (h : n < 256 ^ w) {bytes : List UInt8} :
    encode w n = bytes ↔ bytes.length = w ∧ decode bytes = n := by
  constructor
  · rintro rfl
    exact ⟨length_encode w n, decode_encode_of_lt h⟩
  · rintro ⟨rfl, rfl⟩
    exact encode_decode bytes

end Pytusk.Lib.LittleEndian
