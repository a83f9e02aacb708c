import Mathlib.Algebra.Order.Floor.Div
import Mathlib.GroupTheory.GroupAction.Ring
import Mathlib.Data.Nat.Log
import Mathlib.Tactic.Ring
import Mathlib.Tactic.Linarith

/-!
# Rounding up through a binary64 quotient

True division of two integers in Python is the correctly rounded binary64
quotient: the exact rational rounded to 53 significant bits, or to a multiple
of `2 ^ -1074` where that is coarser, ties to even. `math.ceil(a / b)` can
therefore differ from the integer ceiling when `a` needs more than 53 bits, or
when the quotient vanishes. Short of both the two agree (`ceil_trueDiv`).

Quotients above the largest number, for which Python raises `OverflowError`,
are not modelled: no numerator is that large.
-/

namespace Pytusk.Lib.Binary64

/-- The integer nearest to `p / q`, the even one on a tie. -/
def roundHalfEven (p q : Nat) : Nat :=
  let d := p / q
  let r := p % q
  if 2 * r < q then d else if q < 2 * r then d + 1 else d + d % 2

theorem roundHalfEven_le {p q n : Nat} (hq : 0 < q) (h : p ≤ n * q) :
    roundHalfEven p q ≤ n := by
  have hdm := Nat.div_add_mod p q
  have hle : p / q ≤ n := Nat.div_le_of_le_mul (by rwa [Nat.mul_comm])
  simp only [roundHalfEven]
  rcases Nat.lt_or_eq_of_le hle with hlt | heq
  · -- strictly below `n` there is room for the one that rounding adds
    split
    · omega
    · split <;> omega
  · -- at `n` the division leaves nothing, so nothing is added
    have hzero : p % q = 0 := by
      rw [heq, Nat.mul_comm] at hdm
      omega
    rw [hzero, if_pos (by omega), heq]

theorem lt_roundHalfEven {p q n : Nat} (hq : 0 < q)
    (h : 2 * (n * q) + q < 2 * p) : n < roundHalfEven p q := by
  have hdm := Nat.div_add_mod p q
  have hle : n ≤ p / q := (Nat.le_div_iff_mul_le hq).mpr (by omega)
  simp only [roundHalfEven]
  rcases Nat.lt_or_eq_of_le hle with hlt | heq
  · split
    · omega
    · split <;> omega
  · -- the remainder is more than half of the divisor, so it rounds up
    have hrem : q < 2 * (p % q) := by
      rw [← heq, Nat.mul_comm] at hdm
      omega
    rw [if_neg (by omega), if_pos hrem]
    omega

/-! ## The quotient -/

/-- `m * 2 ^ e` -/
structure Value where
  m : Nat
  e : Int
  deriving DecidableEq, Repr

/-- The `e` with `2 ^ e ≤ a / b < 2 ^ (e + 1)`. -/
def quotientLog (a b : Nat) : Int :=
  let e := (Nat.log2 a : Int) - Nat.log2 b
  if b * 2 ^ e.toNat ≤ a * 2 ^ (-e).toNat then e else e - 1

/-- `a / b`: the exponent puts 53 bits before the point, unless it is already
the least one. -/
def trueDiv (a b : Nat) : Value :=
  let e := max (quotientLog a b - 52) (-1074)
  ⟨roundHalfEven (a * 2 ^ (-e).toNat) (b * 2 ^ e.toNat), e⟩

/-- `math.ceil` -/
def Value.ceil (x : Value) : Nat := (x.m * 2 ^ x.e.toNat) ⌈/⌉ 2 ^ (-x.e).toNat

/-! ### Its exponent -/

/-- The logarithm is not above the quotient. -/
theorem quotientLog_le {a b : Nat} (ha : 0 < a) :
    b * 2 ^ (quotientLog a b).toNat ≤ a * 2 ^ (-quotientLog a b).toNat := by
  have hlow : 2 ^ Nat.log2 a ≤ a := Nat.log2_self_le (by omega)
  have hhigh : b < 2 ^ (Nat.log2 b + 1) := Nat.lt_log2_self
  simp only [quotientLog]
  split
  · assumption
  · rcases Int.lt_or_le 0 ((Nat.log2 a : Int) - Nat.log2 b) with hpos | hneg
    · -- `b * 2 ^ (log a - log b - 1)` is below `2 ^ log a`
      have hexp : (Nat.log2 b + 1) + ((Nat.log2 a : Int) - Nat.log2 b - 1).toNat =
          Nat.log2 a := by omega
      have hzero : (-((Nat.log2 a : Int) - Nat.log2 b - 1)).toNat = 0 := by omega
      rw [hzero, Nat.pow_zero, Nat.mul_one]
      calc b * 2 ^ ((Nat.log2 a : Int) - Nat.log2 b - 1).toNat
          ≤ 2 ^ (Nat.log2 b + 1) * 2 ^ ((Nat.log2 a : Int) - Nat.log2 b - 1).toNat :=
            Nat.mul_le_mul_right _ (Nat.le_of_lt hhigh)
        _ = 2 ^ Nat.log2 a := by rw [← Nat.pow_add, hexp]
        _ ≤ a := hlow
    · have hexp : Nat.log2 b + 1 =
          Nat.log2 a + (-((Nat.log2 a : Int) - Nat.log2 b - 1)).toNat := by omega
      have hzero : ((Nat.log2 a : Int) - Nat.log2 b - 1).toNat = 0 := by omega
      rw [hzero, Nat.pow_zero, Nat.mul_one]
      calc b ≤ 2 ^ (Nat.log2 b + 1) := Nat.le_of_lt hhigh
        _ = 2 ^ Nat.log2 a * 2 ^ (-((Nat.log2 a : Int) - Nat.log2 b - 1)).toNat := by
            rw [hexp, Nat.pow_add]
        _ ≤ a * 2 ^ (-((Nat.log2 a : Int) - Nat.log2 b - 1)).toNat :=
            Nat.mul_le_mul_right _ hlow

/-- A quotient below `2 ^ 53` has no bits to lose before the point. -/
theorem quotientLog_le_52 {a b : Nat} (h : a < 2 ^ 53 * b) : quotientLog a b ≤ 52 := by
  by_contra hgt
  have hpos : 0 < a := by
    by_contra hzero
    simp only [quotientLog, show a = 0 by omega] at hgt
    split at hgt <;> simp at hgt
  have hlog := quotientLog_le (b := b) hpos
  have hpow : 2 ^ 53 ≤ 2 ^ (quotientLog a b).toNat :=
    Nat.pow_le_pow_right (by omega) (by omega)
  have hzero : (-quotientLog a b).toNat = 0 := by omega
  have hscale := Nat.mul_le_mul_left b hpow
  rw [hzero, Nat.pow_zero, Nat.mul_one] at hlog
  omega

/-- A divisor of fewer bits leaves a normal number. -/
theorem neg_1022_le_quotientLog {a b : Nat} (hb : 0 < b) (h : b < 2 ^ 1022) :
    -1022 ≤ quotientLog a b := by
  have hbits : ∀ n, b < 2 ^ n → Nat.log2 b < n :=
    fun n => (Nat.log2_lt (Nat.pos_iff_ne_zero.mp hb)).mpr
  have hlog := hbits 1022 h
  clear h
  simp only [quotientLog]
  split <;> omega

/-! ### Rounding up -/

/-- **A ceiling is not passed**: an integer above the quotient is above the
rounded one. -/
theorem ceil_trueDiv_le {a b n : Nat} (hb : 0 < b) (hsmall : a < 2 ^ 53 * b)
    (h : a ≤ n * b) : (trueDiv a b).ceil ≤ n := by
  have hlog := quotientLog_le_52 hsmall
  obtain ⟨k, hk⟩ : ∃ k : Nat, max (quotientLog a b - 52) (-1074) = -k :=
    ⟨(-max (quotientLog a b - 52) (-1074)).toNat, by omega⟩
  have hzero : (-(k : Int)).toNat = 0 := by omega
  simp only [trueDiv, Value.ceil, hk, hzero, Int.neg_neg, Int.toNat_natCast, Nat.pow_zero,
    Nat.mul_one]
  rw [ceilDiv_le_iff_le_mul (Nat.two_pow_pos k)]
  apply roundHalfEven_le hb
  calc a * 2 ^ k ≤ n * b * 2 ^ k := Nat.mul_le_mul_right _ h
    _ = 2 ^ k * n * b := by ring

/-- For a numerator of at most 53 bits the divisor is small against the scale
`2 ^ k` that the numerator is multiplied by. -/
private theorem divisor_lt {a b k : Nat} (ha : 0 < a) (ha' : a < 2 ^ 53)
    (hk : quotientLog a b = 52 - k) :
    b < 2 * (a * 2 ^ k) ∧ (b ≤ a → b < 2 * 2 ^ k) := by
  have hlog := quotientLog_le (b := b) ha
  rw [hk] at hlog
  rcases Nat.lt_or_ge 52 k with hbig | hsmall
  · have hzero : ((52 : Int) - k).toNat = 0 := by omega
    have hpow : 2 ^ (-((52 : Int) - k)).toNat ≤ 2 ^ k :=
      Nat.pow_le_pow_right (by omega) (by omega)
    have hscale := Nat.mul_le_mul_left a hpow
    have hk53 : 2 ^ 53 ≤ 2 ^ k := Nat.pow_le_pow_right (by omega) hbig
    have hge := Nat.le_mul_of_pos_left (2 ^ k) ha
    rw [hzero, Nat.pow_zero, Nat.mul_one] at hlog
    omega
  · obtain ⟨e, he⟩ : ∃ e, e + k = 52 := ⟨52 - k, by omega⟩
    have hexp : ((52 : Int) - k).toNat = e := by omega
    have hzero : (-((52 : Int) - k)).toNat = 0 := by omega
    have hsplit : 2 ^ 53 = 2 * 2 ^ k * 2 ^ e := by
      rw [show 53 = (1 + k) + e by omega, Nat.pow_add, Nat.pow_add]
    rw [hexp, hzero, Nat.pow_zero, Nat.mul_one] at hlog
    have hlt : b < 2 * 2 ^ k := by
      apply Nat.lt_of_mul_lt_mul_right (a := 2 ^ e)
      omega
    have := Nat.le_mul_of_pos_left (2 ^ k) ha
    omega

/-- **Rounding up is exact below 53 bits.** Half a unit in the last place of
a quotient of such an `a` is less than `1 / b`, so the rounded quotient stays
on the same side of every integer. -/
theorem ceil_trueDiv {a b : Nat} (ha : a < 2 ^ 53) (hb : 0 < b) (hb' : b < 2 ^ 1022) :
    (trueDiv a b).ceil = a ⌈/⌉ b := by
  have hsmall : a < 2 ^ 53 * b := Nat.lt_of_lt_of_le ha (Nat.le_mul_of_pos_right _ hb)
  apply le_antisymm
  · apply ceil_trueDiv_le hb hsmall
    rw [Nat.mul_comm]
    exact le_smul_ceilDiv hb
  -- an integer below the quotient is below the rounded one
  rcases Nat.eq_zero_or_pos a with rfl | hpos
  · rw [zero_ceilDiv]
    exact Nat.zero_le _
  have hlow := neg_1022_le_quotientLog (a := a) hb hb'
  have hhigh := quotientLog_le_52 hsmall
  obtain ⟨k, hk⟩ : ∃ k : Nat, quotientLog a b = 52 - k :=
    ⟨(52 - quotientLog a b).toNat, by omega⟩
  obtain ⟨hfraction, hdivisor⟩ := divisor_lt hpos ha hk
  have hmax : max (quotientLog a b - 52) (-1074) = -(k : Int) := by omega
  have hzero : (-(k : Int)).toNat = 0 := by omega
  simp only [trueDiv, Value.ceil, hmax, hzero, Int.neg_neg, Int.toNat_natCast, Nat.pow_zero,
    Nat.mul_one]
  have hk0 : 0 < 2 ^ k := Nat.two_pow_pos k
  rw [ceilDiv_le_iff_le_mul hb]
  by_contra hlt
  have hround := (ceilDiv_le_iff_le_mul hk0).mp
    (le_refl (roundHalfEven (a * 2 ^ k) b ⌈/⌉ 2 ^ k))
  generalize roundHalfEven (a * 2 ^ k) b ⌈/⌉ 2 ^ k = c at hlt hround
  have hhalf : 2 * (2 ^ k * c * b) + b < 2 * (a * 2 ^ k) := by
    rcases Nat.lt_or_ge a b with hlt' | hge
    · have hc : c = 0 := by
        by_contra hc
        have := Nat.le_mul_of_pos_right b (Nat.pos_of_ne_zero hc)
        omega
      rw [hc, Nat.mul_zero, Nat.zero_mul]
      omega
    · have hscale : (b * c + 1) * 2 ^ k ≤ a * 2 ^ k :=
        Nat.mul_le_mul_right _ (by omega)
      have hexpand : (b * c + 1) * 2 ^ k = 2 ^ k * c * b + 2 ^ k := by ring
      have := hdivisor hge
      omega
  have := lt_roundHalfEven hb hhalf
  omega

end Pytusk.Lib.Binary64
