import Mathlib.Algebra.Order.Field.Power
import Mathlib.Data.Rat.Cast.Order
import Mathlib.Tactic.Positivity
import Pytusk.Lib.Binary64

/-!
# Rounding keeps the order

A larger divisor has no larger rounded quotient, also where the two quotients
are rounded at different exponents.
-/

namespace Pytusk.Lib.Binary64

/-! ## Scaling by a power of two -/

theorem scale_le_iff (p q : Nat) (e : Int) :
    p * 2 ^ (-e).toNat ≤ q * 2 ^ e.toNat ↔ (p : ℚ) ≤ q * 2 ^ e := by
  obtain ⟨n, rfl | rfl⟩ := e.eq_nat_or_neg
  · have hneg : (-(n : Int)).toNat = 0 := by omega
    rw [hneg, Int.toNat_natCast, Nat.pow_zero, Nat.mul_one, zpow_natCast]
    exact_mod_cast Iff.rfl
  · have hneg : (-(n : Int)).toNat = 0 := by omega
    rw [hneg, Int.neg_neg, Int.toNat_natCast, Nat.pow_zero, Nat.mul_one, zpow_neg,
      zpow_natCast, ← div_eq_mul_inv, le_div_iff₀ (by positivity)]
    exact_mod_cast Iff.rfl

theorem le_scale_iff (p q : Nat) (e : Int) :
    q * 2 ^ e.toNat ≤ p * 2 ^ (-e).toNat ↔ (q : ℚ) * 2 ^ e ≤ p := by
  obtain ⟨n, rfl | rfl⟩ := e.eq_nat_or_neg
  · have hneg : (-(n : Int)).toNat = 0 := by omega
    rw [hneg, Int.toNat_natCast, Nat.pow_zero, Nat.mul_one, zpow_natCast]
    exact_mod_cast Iff.rfl
  · have hneg : (-(n : Int)).toNat = 0 := by omega
    rw [hneg, Int.neg_neg, Int.toNat_natCast, Nat.pow_zero, Nat.mul_one, zpow_neg,
      zpow_natCast, ← div_eq_mul_inv, div_le_iff₀ (by positivity)]
    exact_mod_cast Iff.rfl

/-- `math.ceil` of a value is the least integer that is not below it. -/
theorem ceil_le_iff {x : Value} {n : Nat} : x.ceil ≤ n ↔ (x.m : ℚ) * 2 ^ x.e ≤ n := by
  rw [Value.ceil, ceilDiv_le_iff_le_mul (Nat.two_pow_pos _), Nat.mul_comm (2 ^ _),
    le_scale_iff]

/-! ## The exponent -/

/-- The quotient is below the next power. -/
theorem lt_quotientLog_succ {a b : Nat} (hb : 0 < b) :
    (a : ℚ) < b * 2 ^ (quotientLog a b + 1) := by
  simp only [quotientLog]
  split
  · have hhigh : a < 2 ^ (Nat.log2 a + 1) := Nat.lt_log2_self
    have hlow : 2 ^ Nat.log2 b ≤ b := Nat.log2_self_le (by omega)
    calc (a : ℚ) < 2 ^ (Nat.log2 a + 1) := by exact_mod_cast hhigh
      _ = 2 ^ Nat.log2 b * 2 ^ ((Nat.log2 a : Int) - Nat.log2 b + 1) := by
          rw [← zpow_natCast, ← zpow_natCast, ← zpow_add₀ two_ne_zero]
          congr 1
          omega
      _ ≤ b * 2 ^ ((Nat.log2 a : Int) - Nat.log2 b + 1) := by
          gcongr
          exact_mod_cast hlow
  · rename_i hnot
    rw [le_scale_iff, not_le] at hnot
    rwa [Int.sub_add_cancel]

theorem quotientLog_anti {a b b' : Nat} (ha : 0 < a) (hb : 0 < b) (h : b ≤ b') :
    quotientLog a b' ≤ quotientLog a b := by
  have hb' : (0 : ℚ) < b' := by
    have : 0 < b' := by omega
    exact_mod_cast this
  have hpow : (2 : ℚ) ^ quotientLog a b' < 2 ^ (quotientLog a b + 1) := by
    apply lt_of_mul_lt_mul_left _ hb'.le
    calc (b' : ℚ) * 2 ^ quotientLog a b' ≤ a := (le_scale_iff _ _ _).mp (quotientLog_le ha)
      _ < b * 2 ^ (quotientLog a b + 1) := lt_quotientLog_succ hb
      _ ≤ b' * 2 ^ (quotientLog a b + 1) := by gcongr
  have := (zpow_lt_zpow_iff_right₀ one_lt_two).mp hpow
  omega

/-! ## The significand -/

theorem le_roundHalfEven {p q n : Nat} (hq : 0 < q) (h : n * q ≤ p) :
    n ≤ roundHalfEven p q := by
  have hle : n ≤ p / q := (Nat.le_div_iff_mul_le hq).mpr h
  simp only [roundHalfEven]
  split
  · exact hle
  · split <;> omega

/-- Of two fractions the smaller one is not rounded to more. -/
theorem roundHalfEven_anti {p q q' : Nat} (hq : 0 < q) (h : q ≤ q') :
    roundHalfEven p q' ≤ roundHalfEven p q := by
  have hdm := Nat.div_add_mod p q
  have hdm' := Nat.div_add_mod p q'
  have hrem := Nat.mod_lt p hq
  have hle : p / q' ≤ p / q := Nat.div_le_div_left h hq
  rcases Nat.lt_or_eq_of_le hle with hlt | heq
  · calc roundHalfEven p q' ≤ p / q' + 1 := by
          simp only [roundHalfEven]
          split
          · omega
          · split <;> omega
      _ ≤ p / q := hlt
      _ ≤ roundHalfEven p q := le_roundHalfEven hq (Nat.div_mul_le_self p q)
  · -- the same integer part leaves the larger divisor the smaller remainder
    have hmul : q * (p / q) ≤ q' * (p / q) := Nat.mul_le_mul_right _ h
    rw [heq] at hdm'
    simp only [roundHalfEven, heq]
    split_ifs <;> omega

/-! ## The quotient -/

/-- **A larger divisor has no larger ceiling.** -/
theorem ceil_trueDiv_anti {a b b' : Nat} (hb : 0 < b) (h : b ≤ b') :
    (trueDiv a b').ceil ≤ (trueDiv a b).ceil := by
  have hb' : 0 < b' := by omega
  rw [ceil_le_iff]
  refine le_trans ?_ (ceil_le_iff.mp (le_refl (trueDiv a b).ceil))
  obtain ⟨e, he⟩ : ∃ e, max (quotientLog a b - 52) (-1074) = e := ⟨_, rfl⟩
  obtain ⟨e', he'⟩ : ∃ e', max (quotientLog a b' - 52) (-1074) = e' := ⟨_, rfl⟩
  simp only [trueDiv, he, he']
  rcases Nat.eq_zero_or_pos a with rfl | ha
  · have hzero : roundHalfEven (0 * 2 ^ (-e').toNat) (b' * 2 ^ e'.toNat) ≤ 0 :=
      roundHalfEven_le (Nat.mul_pos hb' (Nat.two_pow_pos _)) (by simp)
    rw [Nat.le_zero.mp hzero, Nat.cast_zero, zero_mul]
    positivity
  have hlog := quotientLog_anti ha hb h
  rcases lt_or_eq_of_le (show e' ≤ e by omega) with hlt | rfl
  · -- at a smaller exponent at most `2 ^ 53`, at the larger one at least `2 ^ 52`
    have hsmall : roundHalfEven (a * 2 ^ (-e').toNat) (b' * 2 ^ e'.toNat) ≤ 2 ^ 53 := by
      apply roundHalfEven_le (Nat.mul_pos hb' (Nat.two_pow_pos _))
      rw [← Nat.mul_assoc, scale_le_iff]
      calc (a : ℚ) ≤ b' * 2 ^ (quotientLog a b' + 1) := (lt_quotientLog_succ hb').le
        _ ≤ b' * 2 ^ (53 + e') := by
            have hexp : quotientLog a b' + 1 ≤ 53 + e' := by omega
            have hpow := zpow_le_zpow_right₀ (one_le_two (α := ℚ)) hexp
            gcongr
        _ = ((2 ^ 53 * b' : Nat) : ℚ) * 2 ^ e' := by
            rw [zpow_add₀ two_ne_zero]
            push_cast
            ring
    have hlarge : 2 ^ 52 ≤ roundHalfEven (a * 2 ^ (-e).toNat) (b * 2 ^ e.toNat) := by
      apply le_roundHalfEven (Nat.mul_pos hb (Nat.two_pow_pos _))
      rw [← Nat.mul_assoc, le_scale_iff]
      calc ((2 ^ 52 * b : Nat) : ℚ) * 2 ^ e = b * 2 ^ (52 + e) := by
            rw [zpow_add₀ two_ne_zero]
            push_cast
            ring
        _ = b * 2 ^ quotientLog a b := by
            congr 2
            omega
        _ ≤ a := (le_scale_iff _ _ _).mp (quotientLog_le ha)
    calc (roundHalfEven (a * 2 ^ (-e').toNat) (b' * 2 ^ e'.toNat) : ℚ) * 2 ^ e'
        ≤ (2 : ℚ) ^ 53 * 2 ^ e' := by
          gcongr
          exact_mod_cast hsmall
      _ = (2 : ℚ) ^ (53 + e') := by
          rw [zpow_add₀ two_ne_zero]
          norm_num
      _ ≤ (2 : ℚ) ^ (52 + e) := zpow_le_zpow_right₀ one_le_two (by omega)
      _ = (2 : ℚ) ^ 52 * 2 ^ e := by
          rw [zpow_add₀ two_ne_zero]
          norm_num
      _ ≤ roundHalfEven (a * 2 ^ (-e).toNat) (b * 2 ^ e.toNat) * 2 ^ e := by
          gcongr
          exact_mod_cast hlarge
  · gcongr
    exact roundHalfEven_anti (Nat.mul_pos hb (Nat.two_pow_pos _)) (Nat.mul_le_mul_right _ h)

end Pytusk.Lib.Binary64
