import Pytusk.Lib.Wire

/-!
# ULEB128 as a relation

The bytes that a number may be written with. A number has many such runs,
since zero bits may be padded, but a run is never the start of another: what
follows it is determined.
-/

namespace Pytusk.Lib

/-- Seven bits a byte, lowest first, the high bit set on every byte but the
last. -/
inductive Uleb : List UInt8 → Nat → Prop
  | last {b : UInt8} (h : b.toNat < 128) : Uleb [b] b.toNat
  | more {b : UInt8} {bytes : List UInt8} {n : Nat} (h : 128 ≤ b.toNat)
      (hrest : Uleb bytes n) : Uleb (b :: bytes) (b.toNat - 128 + 128 * n)

namespace Uleb

theorem append_inj {a b s t : List UInt8} {n m : Nat} (ha : Uleb a n) (hb : Uleb b m)
    (h : a ++ s = b ++ t) : a = b ∧ n = m ∧ s = t := by
  induction ha generalizing b m with
  | last hlow =>
    cases hb with
    | last _ =>
      cases h
      exact ⟨rfl, rfl, rfl⟩
    | more hhigh _ =>
      cases h
      omega
  | more hhigh _ ih =>
    cases hb with
    | last hlow =>
      cases h
      omega
    | more _ hrest =>
      obtain ⟨rfl, hbehind⟩ := List.cons_eq_cons.mp h
      obtain ⟨rfl, rfl, rfl⟩ := ih hrest hbehind
      exact ⟨rfl, rfl, rfl⟩

private theorem of_ulebLoop {fuel n : Nat} (h : n < 128 ∨ n ≤ fuel) :
    Uleb (Wire.ulebLoop fuel n) n := by
  have hlast : ∀ k, k < 128 → Uleb [UInt8.ofNat k] k := by
    intro k hk
    have hbyte : (UInt8.ofNat k).toNat = k := by simp; omega
    have := Uleb.last (b := UInt8.ofNat k) (by omega)
    rwa [hbyte] at this
  induction fuel generalizing n with
  | zero => exact hlast n (by omega)
  | succ fuel ih =>
    rw [Wire.ulebLoop]
    split
    · exact hlast n ‹_›
    · have hbyte : (UInt8.ofNat (n % 128 + 128)).toNat = n % 128 + 128 := by
        simp; omega
      have := Uleb.more (b := UInt8.ofNat (n % 128 + 128)) (by omega)
        (ih (n := n / 128) (by omega))
      rw [hbyte] at this
      convert this using 1
      omega

/-- The shortest run. -/
theorem uleb (n : Nat) : Uleb (Wire.uleb n) n := of_ulebLoop (.inr (Nat.le_refl n))

end Uleb

theorem length_ulebLoop_le_of_lt {fuel n k : Nat} (h : n < 128 ^ (k + 1)) :
    (Wire.ulebLoop fuel n).length ≤ k + 1 := by
  induction fuel generalizing n k with
  | zero => exact Nat.succ_le_succ (Nat.zero_le k)
  | succ fuel ih =>
    rw [Wire.ulebLoop]
    split
    · exact Nat.succ_le_succ (Nat.zero_le k)
    · cases k with
      | zero => omega
      | succ k =>
        rw [List.length_cons]
        refine Nat.succ_le_succ (ih ?_)
        rw [Nat.pow_succ] at h
        exact Nat.div_lt_of_lt_mul (by rwa [Nat.mul_comm])

/-- A number of `7 * k` bits takes `k` bytes. -/
theorem length_uleb_le {n k : Nat} (h : n < 128 ^ (k + 1)) : (Wire.uleb n).length ≤ k + 1 :=
  length_ulebLoop_le_of_lt h

end Pytusk.Lib
