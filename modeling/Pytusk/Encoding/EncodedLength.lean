import Pytusk.RelayUpload.Tip
import Mathlib.Order.Bounds.Basic
import Mathlib.Order.Monotone.Defs

/-!
# The encoded length is exact

`symbol_size` rounds a floating-point quotient up where the chain divides
integers. Over every shard count a `u16` carries and every blob that fits, the
largest numerator has 48 bits, so both give the same symbol size, and with it
the same encoded length and the same linear tip.
-/

namespace Pytusk.Redstuff

open Pytusk.Lib

/-! ## The counts -/

/-- `primary * secondary` -/
def sourceSymbols (nShards : Nat) : Nat :=
  let (primary, secondary) := sourceSymbolCounts nShards
  (primary * secondary).toNat

theorem sourceSymbolCounts_pos {nShards : Int} (h : 1 ≤ nShards) :
    0 < (sourceSymbolCounts nShards).1 ∧ 0 < (sourceSymbolCounts nShards).2 ∧
      (sourceSymbolCounts nShards).1 ≤ nShards ∧ (sourceSymbolCounts nShards).2 ≤ nShards := by
  simp only [sourceSymbolCounts, minNCorrect, maxNFaulty]
  omega

theorem sourceSymbols_pos {nShards : Nat} (h : 1 ≤ nShards) : 0 < sourceSymbols nShards := by
  obtain ⟨hprimary, hsecondary, -, -⟩ :=
    sourceSymbolCounts_pos (show (1 : Int) ≤ nShards by omega)
  have := Int.mul_pos hprimary hsecondary
  simp only [sourceSymbols]
  omega

theorem sourceSymbols_le {nShards : Nat} (h : 1 ≤ nShards) :
    sourceSymbols nShards ≤ nShards * nShards := by
  obtain ⟨hprimary, hsecondary, hle, hle'⟩ :=
    sourceSymbolCounts_pos (show (1 : Int) ≤ nShards by omega)
  have hmul := Int.mul_le_mul hle hle' (by omega) (by omega)
  simp only [sourceSymbols]
  have hcast : ((nShards * nShards : Nat) : Int) = (nShards : Int) * nShards := Int.natCast_mul _ _
  omega

/-- `max_blob_size`, as the natural number it is. -/
theorem maxBlobSize_eq {nShards : Nat} (h : 1 ≤ nShards) :
    maxBlobSize nShards = (sourceSymbols nShards * rs2MaxSymbolSize : Nat) := by
  obtain ⟨hprimary, hsecondary, -, -⟩ :=
    sourceSymbolCounts_pos (show (1 : Int) ≤ nShards by omega)
  have hpos := Int.mul_pos hprimary hsecondary
  simp only [maxBlobSize, sourceSymbols, Int.natCast_mul]
  rw [Int.toNat_of_nonneg (by omega)]

/-- A blob that fits has a length of less than 53 bits. -/
theorem length_lt_of_le_maxBlobSize {blobLength nShards : Nat} (h : 1 ≤ nShards)
    (hu16 : nShards < 2 ^ 16) (hfit : (blobLength : Int) ≤ maxBlobSize nShards) :
    blobLength < 2 ^ 53 := by
  have hsymbols := sourceSymbols_le h
  have hsquare : nShards * nShards ≤ 2 ^ 16 * 2 ^ 16 := Nat.mul_le_mul (by omega) (by omega)
  rw [maxBlobSize_eq h, rs2MaxSymbolSize] at hfit
  omega

/-! ## The symbol size -/

/-- The even symbol sizes that a blob of this length fits into. -/
def symbolSizes (blobLength nShards : Nat) : Set Nat :=
  {s | 2 ≤ s ∧ Even s ∧ max blobLength 1 ≤ s * sourceSymbols nShards}

/-- The floating-point quotient is rounded up to the integer ceiling. -/
theorem ceil_trueDiv_sourceSymbols {length nShards : Nat} (h : 1 ≤ nShards)
    (hu16 : nShards < 2 ^ 16) (hlt : length < 2 ^ 53) :
    (Binary64.trueDiv length (sourceSymbols nShards)).ceil =
      length ⌈/⌉ sourceSymbols nShards := by
  have hle := sourceSymbols_le h
  have hsquare : nShards * nShards < 2 ^ 16 * 2 ^ 16 :=
    Nat.mul_lt_mul_of_lt_of_lt hu16 hu16
  have hnormal : ∀ n, 32 ≤ n → sourceSymbols nShards < 2 ^ n := by
    intro n hn
    exact Nat.lt_of_lt_of_le (Nat.lt_of_le_of_lt hle hsquare)
      (Nat.pow_le_pow_right Nat.two_pos hn)
  exact Binary64.ceil_trueDiv hlt (sourceSymbols_pos h) (hnormal _ (by decide))

theorem isLeast_symbolSize {blobLength nShards : Nat} (h : 1 ≤ nShards)
    (hu16 : nShards < 2 ^ 16) (hfit : (blobLength : Int) ≤ maxBlobSize nShards) :
    IsLeast (symbolSizes blobLength nShards) (symbolSize blobLength nShards) := by
  have hlt := length_lt_of_le_maxBlobSize h hu16 hfit
  have hpos := sourceSymbols_pos h
  obtain ⟨raw, hraw⟩ : ∃ raw, max blobLength 1 ⌈/⌉ sourceSymbols nShards = raw := ⟨_, rfl⟩
  have hsize : symbolSize blobLength nShards = raw + raw % 2 := by
    have hceil : (Binary64.trueDiv (max blobLength 1) (sourceSymbols nShards)).ceil = raw := by
      rw [ceil_trueDiv_sourceSymbols h hu16 (by omega), hraw]
    show (if (Binary64.trueDiv _ (sourceSymbols nShards)).ceil % 2 ≠ 0 then
      (Binary64.trueDiv _ (sourceSymbols nShards)).ceil +
        (2 - (Binary64.trueDiv _ (sourceSymbols nShards)).ceil % 2) else
      (Binary64.trueDiv _ (sourceSymbols nShards)).ceil) = _
    rw [hceil]
    split <;> omega
  -- `raw` is the least number of bytes a symbol, even or not
  have hleast : ∀ s, max blobLength 1 ≤ s * sourceSymbols nShards ↔ raw ≤ s := by
    intro s
    rw [← hraw, ceilDiv_le_iff_le_mul hpos, Nat.mul_comm]
  have hraw0 : raw ≠ 0 := by
    intro hzero
    have := (hleast 0).mpr (by omega)
    omega
  rw [hsize]
  constructor
  · refine ⟨by omega, ?_, (hleast _).mpr (by omega)⟩
    rw [Nat.even_iff]
    omega
  · rintro s ⟨-, heven, hs⟩
    have hle := (hleast s).mp hs
    rw [Nat.even_iff] at heven
    omega

theorem symbolSize_le {blobLength nShards : Nat} (h : 1 ≤ nShards) (hu16 : nShards < 2 ^ 16)
    (hfit : (blobLength : Int) ≤ maxBlobSize nShards) :
    symbolSize blobLength nShards ≤ rs2MaxSymbolSize := by
  have hpos := sourceSymbols_pos h
  rw [maxBlobSize_eq h] at hfit
  apply (isLeast_symbolSize h hu16 (by rw [maxBlobSize_eq h]; exact hfit)).2
  refine ⟨by decide, by decide, ?_⟩
  rw [Nat.mul_comm, rs2MaxSymbolSize] at *
  omega

/-- A longer blob has no smaller symbols. -/
theorem symbolSize_mono {a b nShards : Nat} (h : 1 ≤ nShards) (hu16 : nShards < 2 ^ 16)
    (hab : a ≤ b) (hfit : (b : Int) ≤ maxBlobSize nShards) :
    symbolSize a nShards ≤ symbolSize b nShards := by
  obtain ⟨htwo, heven, hb⟩ := (isLeast_symbolSize h hu16 hfit).1
  apply (isLeast_symbolSize h hu16 (by omega)).2
  exact ⟨htwo, heven, by omega⟩

/-! ## The encoded length -/

/-- The chain's formula, from the symbol size. -/
def onChainEncodedLength (nShards symbolSize : Nat) : Nat :=
  let (primary, secondary) := sourceSymbolCounts nShards
  nShards * ((primary + secondary).toNat * symbolSize + (nShards * 32 * 2 + 32))

theorem encodedBlobLength_eq (unencodedLength nShards : Nat) :
    encodedBlobLength unencodedLength nShards =
      onChainEncodedLength nShards (symbolSize unencodedLength nShards) := rfl

theorem onChainEncodedLength_mono (nShards : Nat) : Monotone (onChainEncodedLength nShards) := by
  intro s s' hs
  exact Nat.mul_le_mul_left _ (Nat.add_le_add_right (Nat.mul_le_mul_left _ hs) _)

/-- **Encoded-length arithmetic is exact.** -/
theorem encodedLength_exact (nShards : Nat) (hpos : 1 ≤ nShards) (hu16 : nShards < 2 ^ 16) :
    (∀ blobLength : Nat, (blobLength : Int) ≤ maxBlobSize nShards →
      ∃ s, IsLeast {s | 2 ≤ s ∧ Even s ∧ max blobLength 1 ≤ s * sourceSymbols nShards} s ∧
        symbolSize blobLength nShards = s ∧ s ≤ rs2MaxSymbolSize ∧
        encodedBlobLength blobLength nShards = onChainEncodedLength nShards s ∧
        ∀ base multiplier,
          RelayUpload.computeTip (.linearTip base multiplier) blobLength nShards =
            base + multiplier * (onChainEncodedLength nShards s ⌈/⌉ 1024)) ∧
    ∀ a b : Nat, a ≤ b → (b : Int) ≤ maxBlobSize nShards →
      symbolSize a nShards ≤ symbolSize b nShards ∧
      encodedBlobLength a nShards ≤ encodedBlobLength b nShards := by
  constructor
  · intro blobLength hfit
    refine ⟨_, isLeast_symbolSize hpos hu16 hfit, rfl, symbolSize_le hpos hu16 hfit,
      encodedBlobLength_eq _ _, ?_⟩
    intro base multiplier
    show base + (encodedBlobLength blobLength nShards + 1023) / 1024 * multiplier = _
    rw [Nat.mul_comm, encodedBlobLength_eq]
    rfl
  · intro a b hab hfit
    have hsize := symbolSize_mono hpos hu16 hab hfit
    exact ⟨hsize, onChainEncodedLength_mono nShards hsize⟩

/-- A mebibyte on a committee of a thousand shards. -/
theorem encodedLength_exact_mebibyte :
    RelayUpload.computeTip (.linearTip 5 2) (2 ^ 20) 1000 =
      5 + 2 * (encodedBlobLength (2 ^ 20) 1000 ⌈/⌉ 1024) := by
  obtain ⟨s, -, -, -, hlength, htip⟩ :=
    (encodedLength_exact 1000 (by decide) (by decide)).1 (2 ^ 20) (by decide)
  rw [hlength]
  exact htip 5 2

end Pytusk.Redstuff
