import Pytusk.Encoding.QuiltLayout
import Pytusk.Lib.Binary64Order
import Mathlib.Algebra.Order.BigOperators.Group.List
import Mathlib.Order.Bounds.Basic

/-!
# The optimal symbol size

`compute_symbol_size` narrows an interval whose ends come from three ceilings
and a truncated division, tests each size by a sum of rounded quotients and
rounds what it finds up to the alignment. The result is the least even size
under which the blobs pack into whole columns (`computeSymbolSize_optimal`):
its lower end is below every such size, its upper end is one, and a size that
packs stays one when it grows.
-/

namespace Pytusk.Quilt

open Pytusk.Lib

/-! ## The search -/

/-- What the `while min_val < max_val` loop ends with, however many turns it
takes. -/
inductive SearchEnds (fits : Nat → Bool) : (minVal maxVal found : Nat) → Prop
  | done {minVal maxVal : Nat} (h : ¬ minVal < maxVal) : SearchEnds fits minVal maxVal minVal
  | lower {minVal maxVal found : Nat} (h : minVal < maxVal)
      (hfits : fits ((minVal + maxVal) / 2) = true)
      (hrest : SearchEnds fits minVal ((minVal + maxVal) / 2) found) :
      SearchEnds fits minVal maxVal found
  | upper {minVal maxVal found : Nat} (h : minVal < maxVal)
      (hfits : fits ((minVal + maxVal) / 2) = false)
      (hrest : SearchEnds fits ((minVal + maxVal) / 2 + 1) maxVal found) :
      SearchEnds fits minVal maxVal found

/-- The loop terminates, within as many turns as the interval is long. -/
theorem searchEnds_searchSymbolSize (fits : Nat → Bool) {turns minVal maxVal : Nat}
    (hturns : maxVal - minVal ≤ turns) :
    SearchEnds fits minVal maxVal (searchSymbolSize fits turns minVal maxVal) := by
  induction turns generalizing minVal maxVal with
  | zero => exact .done (by omega)
  | succ turns ih =>
    rw [searchSymbolSize]
    by_cases hlt : minVal < maxVal
    · rw [if_pos hlt]
      by_cases hfits : fits ((minVal + maxVal) / 2) = true
      · rw [if_pos hfits]
        exact .lower hlt hfits (ih (by omega))
      · rw [if_neg hfits]
        exact .upper hlt (Bool.eq_false_iff.mpr hfits) (ih (by omega))
    · rw [if_neg hlt]
      exact .done hlt

theorem SearchEnds.le {fits : Nat → Bool} {minVal maxVal found : Nat}
    (h : SearchEnds fits minVal maxVal found) : minVal ≤ found := by
  induction h with
  | done _ => exact Nat.le_refl _
  | lower _ _ _ ih => exact ih
  | upper _ _ _ ih => omega

/-- Where a size that fits stays one when it grows, and the upper end fits,
the loop ends at the least size that does. -/
theorem SearchEnds.isLeast {fits : Nat → Bool} {minVal maxVal found : Nat}
    (h : SearchEnds fits minVal maxVal found)
    (hmono : ∀ {s s'}, s ≤ s' → fits s = true → fits s' = true)
    (hmax : fits (max minVal maxVal) = true) :
    IsLeast {s | minVal ≤ s ∧ fits s = true} found := by
  induction h with
  | done hge =>
    rw [Nat.max_eq_left (by omega)] at hmax
    exact ⟨⟨Nat.le_refl _, hmax⟩, fun s hs => hs.1⟩
  | lower hlt hfits _ ih =>
    apply ih
    rwa [Nat.max_eq_right (by omega)]
  | @upper minVal maxVal found hlt hfits _ ih =>
    obtain ⟨⟨hmin, hfound⟩, hleast⟩ := ih (by
      rw [Nat.max_eq_right (by omega)] at hmax ⊢
      exact hmax)
    refine ⟨⟨by omega, hfound⟩, ?_⟩
    rintro s ⟨_, hs⟩
    apply hleast
    refine ⟨?_, hs⟩
    -- below the middle nothing fits, since the middle does not
    by_contra hbelow
    have := hmono (show s ≤ (minVal + maxVal) / 2 by omega) hs
    rw [hfits] at this
    cases this

/-! ## Which sizes fit -/

theorem divCeil_le_iff {numerator denominator n : Nat} (h : 0 < denominator) :
    divCeil numerator denominator ≤ n ↔ numerator ≤ denominator * n :=
  ceilDiv_le_iff_le_mul h

/-- Columns of at most one blob each. -/
theorem sum_ceilDiv_le_length {blobSizes : List Nat} {columnSize : Nat}
    (h : ∀ size ∈ blobSizes, size ≤ columnSize) :
    (blobSizes.map (· ⌈/⌉ columnSize)).sum ≤ blobSizes.length := by
  have hone : ∀ columns ∈ blobSizes.map (· ⌈/⌉ columnSize), columns ≤ 1 := by
    intro columns hcolumns
    obtain ⟨size, hsize, rfl⟩ := List.mem_map.mp hcolumns
    rcases Nat.eq_zero_or_pos columnSize with hzero | hpos
    · have hsize0 : size = 0 := by
        have := h size hsize
        omega
      rw [hsize0, zero_ceilDiv]
      exact Nat.zero_le _
    · rw [ceilDiv_le_iff_le_mul hpos, Nat.mul_one]
      exact h size hsize
  simpa using List.sum_le_card_nsmul _ _ hone

/-- A size that fits stays one when it grows. -/
theorem canBlobsFit_mono {blobSizes : List Nat} {nColumns a b : Nat} (hab : a ≤ b)
    (h : canBlobsFit blobSizes nColumns a = true) : canBlobsFit blobSizes nColumns b = true := by
  rw [canBlobsFit_iff] at h ⊢
  obtain ⟨hpos, hsum⟩ := h
  refine ⟨by omega, Nat.le_trans (List.sum_le_sum fun size _ => ?_) hsum⟩
  exact Binary64.ceil_trueDiv_anti hpos hab

/-- Rounding takes no more columns than the integers do. -/
theorem canBlobsFit_of_ceilDiv {blobSizes : List Nat} {nColumns columnSize : Nat}
    (hpos : 0 < columnSize) (hquot : ∀ size ∈ blobSizes, size < 2 ^ 53 * columnSize)
    (hsum : (blobSizes.map (· ⌈/⌉ columnSize)).sum ≤ nColumns) :
    canBlobsFit blobSizes nColumns columnSize = true := by
  rw [canBlobsFit_iff]
  refine ⟨hpos, Nat.le_trans (List.sum_le_sum fun size hsize => ?_) hsum⟩
  apply Binary64.ceil_trueDiv_le hpos (hquot size hsize)
  rw [Nat.mul_comm]
  exact le_smul_ceilDiv hpos

/-- **The test is exact**: a column so long that its quotients vanish holds
every blob on its own. -/
theorem canBlobsFit_iff_ceilDiv {blobSizes : List Nat} {nColumns columnSize : Nat}
    (hsizes : ∀ size ∈ blobSizes, size < 2 ^ 53) (hlen : blobSizes.length ≤ nColumns) :
    canBlobsFit blobSizes nColumns columnSize = true ↔
      0 < columnSize ∧ (blobSizes.map (· ⌈/⌉ columnSize)).sum ≤ nColumns := by
  have hquot : ∀ pos : 0 < columnSize, ∀ size ∈ blobSizes, size < 2 ^ 53 * columnSize :=
    fun pos size hsize =>
      Nat.lt_of_lt_of_le (hsizes size hsize) (Nat.le_mul_of_pos_right _ pos)
  refine ⟨fun h => ?_, fun ⟨hpos, hsum⟩ => canBlobsFit_of_ceilDiv hpos (hquot hpos) hsum⟩
  obtain ⟨hpos, hsum⟩ := canBlobsFit_iff.mp h
  refine ⟨hpos, ?_⟩
  rcases Nat.lt_or_ge columnSize (2 ^ 63) with hlt | hge
  · have hsame : blobSizes.map (mathCeil · columnSize) = blobSizes.map (· ⌈/⌉ columnSize) :=
      List.map_congr_left fun size hsize => mathCeil_eq_ceilDiv (hsizes size hsize) hpos hlt
    rwa [hsame] at hsum
  · refine Nat.le_trans (sum_ceilDiv_le_length fun size hsize => ?_) hlen
    have := hsizes size hsize
    omega

/-- The columns hold what is in them. -/
theorem sum_le_mul_sum_ceilDiv {blobSizes : List Nat} {columnSize : Nat}
    (hpos : 0 < columnSize) :
    blobSizes.sum ≤ columnSize * (blobSizes.map (· ⌈/⌉ columnSize)).sum := by
  induction blobSizes with
  | nil => exact Nat.zero_le _
  | cons size rest ih =>
    have hsize : size ≤ columnSize * (size ⌈/⌉ columnSize) := le_smul_ceilDiv hpos
    rw [List.sum_cons, List.map_cons, List.sum_cons, Nat.mul_add]
    omega

/-- An equal share of the columns, each share holding the longest blob. -/
theorem sum_ceilDiv_le_of_share {blobSizes : List Nat} {nColumns columnSize : Nat}
    (hpos : 0 < columnSize)
    (h : ∀ size ∈ blobSizes, size ≤ columnSize * (nColumns / blobSizes.length)) :
    (blobSizes.map (· ⌈/⌉ columnSize)).sum ≤ nColumns := by
  have hshare : ∀ columns ∈ blobSizes.map (· ⌈/⌉ columnSize),
      columns ≤ nColumns / blobSizes.length := by
    intro columns hcolumns
    obtain ⟨size, hsize, rfl⟩ := List.mem_map.mp hcolumns
    exact (ceilDiv_le_iff_le_mul hpos).mpr (h size hsize)
  have hsum := List.sum_le_card_nsmul _ _ hshare
  rw [List.length_map, smul_eq_mul] at hsum
  exact Nat.le_trans hsum (Nat.mul_div_le nColumns blobSizes.length)

theorem le_foldl_max {blobSizes : List Nat} {size : Nat} (h : size ∈ blobSizes) :
    size ≤ blobSizes.foldl max 0 := by
  have hne : blobSizes ≠ [] := List.ne_nil_of_mem h
  rw [List.foldl_max_eq_max hne]
  exact Nat.le_trans (List.le_max_of_mem h) (Nat.le_max_right _ _)

/-! ## The least even size -/

/-- The even symbol sizes under which the blobs pack into whole columns, the
first of them into `maxIndexColumns`, where a column also holds the index
prefix. -/
def packingSizes (blobSizes : List Nat) (nColumns nRows maxIndexColumns : Nat) : Set Nat :=
  {s | 0 < s ∧ Even s ∧ (blobSizes.map (· ⌈/⌉ (s * nRows))).sum ≤ nColumns ∧
    (∀ indexSize ∈ blobSizes.head?, indexSize ⌈/⌉ (s * nRows) ≤ maxIndexColumns) ∧
    quiltIndexPrefixSize ≤ s * nRows}

/-- `min_val` -/
def minSymbolSize (indexSize : Nat) (rest : List Nat) (nColumns nRows maxIndexColumns : Nat) :
    Nat :=
  max (max
    (divCeil (indexSize :: rest).sum (nColumns * nRows))
    (divCeil indexSize (nRows * maxIndexColumns)))
    (divCeil quiltIndexPrefixSize nRows)

/-- `max_val` -/
def maxSymbolSize (blobSizes : List Nat) (nColumns nRows : Nat) : Nat :=
  divCeil (blobSizes.foldl max 0) (nColumns / blobSizes.length * nRows)

/-- The three ceilings, read as what they bound. -/
theorem minSymbolSize_le_iff {indexSize : Nat} {rest : List Nat}
    {nColumns nRows maxIndexColumns s : Nat} (hcolumns : 0 < nColumns) (hrows : 0 < nRows)
    (hindex : 0 < maxIndexColumns) :
    minSymbolSize indexSize rest nColumns nRows maxIndexColumns ≤ s ↔
      (indexSize :: rest).sum ≤ nColumns * nRows * s ∧
      indexSize ≤ nRows * maxIndexColumns * s ∧ quiltIndexPrefixSize ≤ nRows * s := by
  rw [minSymbolSize, Nat.max_le, Nat.max_le, divCeil_le_iff (Nat.mul_pos hcolumns hrows),
    divCeil_le_iff (Nat.mul_pos hrows hindex), divCeil_le_iff hrows, and_assoc]

section Packing

variable {indexSize : Nat} {rest : List Nat} {nColumns nRows maxIndexColumns : Nat}

theorem mem_packingSizes_iff (hrows : 0 < nRows) (hindex : 0 < maxIndexColumns)
    (hlen : (indexSize :: rest).length ≤ nColumns) {s : Nat} :
    s ∈ packingSizes (indexSize :: rest) nColumns nRows maxIndexColumns ↔
      Even s ∧ minSymbolSize indexSize rest nColumns nRows maxIndexColumns ≤ s ∧
      ((indexSize :: rest).map (· ⌈/⌉ (s * nRows))).sum ≤ nColumns := by
  have hcolumns : 0 < nColumns := by
    rw [List.length_cons] at hlen
    omega
  rw [minSymbolSize_le_iff hcolumns hrows hindex]
  constructor
  · rintro ⟨hpos, heven, hsum, hfirst, hprefix⟩
    have hcolumn : 0 < s * nRows := Nat.mul_pos hpos hrows
    have hfirst := (ceilDiv_le_iff_le_mul hcolumn).mp (hfirst indexSize rfl)
    refine ⟨heven, ⟨?_, ?_, ?_⟩, hsum⟩
    · calc (indexSize :: rest).sum
          ≤ s * nRows * ((indexSize :: rest).map (· ⌈/⌉ (s * nRows))).sum :=
            sum_le_mul_sum_ceilDiv hcolumn
        _ ≤ s * nRows * nColumns := Nat.mul_le_mul_left _ hsum
        _ = nColumns * nRows * s := by ring
    · calc indexSize ≤ s * nRows * maxIndexColumns := hfirst
        _ = nRows * maxIndexColumns * s := by ring
    · rwa [Nat.mul_comm]
  · rintro ⟨heven, ⟨-, hfirst, hprefix⟩, hsum⟩
    have hpos : 0 < s := by
      by_contra hzero
      rw [Nat.eq_zero_of_not_pos hzero, Nat.mul_zero] at hprefix
      exact absurd hprefix (by decide)
    refine ⟨hpos, heven, hsum, ?_, by rwa [Nat.mul_comm]⟩
    intro size hsize
    cases hsize
    rw [ceilDiv_le_iff_le_mul (Nat.mul_pos hpos hrows)]
    calc indexSize ≤ nRows * maxIndexColumns * s := hfirst
      _ = s * nRows * maxIndexColumns := by ring

/-- The even symbol sizes that the code itself accepts: above its three lower
bounds, and passing its test. -/
def acceptedSizes (indexSize : Nat) (rest : List Nat) (nColumns nRows maxIndexColumns : Nat) :
    Set Nat :=
  {s | Even s ∧ minSymbolSize indexSize rest nColumns nRows maxIndexColumns ≤ s ∧
    canBlobsFit (indexSize :: rest) nColumns (s * nRows) = true}

/-- Short of 53 bits they are the sizes under which the blobs pack. -/
theorem acceptedSizes_eq (hsizes : ∀ size ∈ indexSize :: rest, size < 2 ^ 53)
    (hrows : 0 < nRows) (hindex : 0 < maxIndexColumns)
    (hlen : (indexSize :: rest).length ≤ nColumns) :
    acceptedSizes indexSize rest nColumns nRows maxIndexColumns =
      packingSizes (indexSize :: rest) nColumns nRows maxIndexColumns := by
  ext s
  rw [mem_packingSizes_iff hrows hindex hlen]
  refine and_congr_right fun _ => and_congr_right fun hmin => ?_
  rw [canBlobsFit_iff_ceilDiv hsizes hlen]
  refine and_iff_right ?_
  have hprefix := (minSymbolSize_le_iff (by rw [List.length_cons] at hlen; omega) hrows
    hindex).mp hmin
  rw [Nat.mul_comm]
  exact Nat.lt_of_lt_of_le (by decide) hprefix.2.2

theorem minSymbolSize_pos (indexSize : Nat) (rest : List Nat) (hcolumns : 0 < nColumns)
    (hrows : 0 < nRows) (hindex : 0 < maxIndexColumns) :
    0 < minSymbolSize indexSize rest nColumns nRows maxIndexColumns := by
  have hprefix := ((minSymbolSize_le_iff hcolumns hrows hindex).mp (Nat.le_refl
    (minSymbolSize indexSize rest nColumns nRows maxIndexColumns))).2.2
  by_contra hzero
  rw [Nat.eq_zero_of_not_pos hzero, Nat.mul_zero] at hprefix
  exact absurd hprefix (by decide)

/-- What the loop ends with, before the alignment. -/
theorem isLeast_searchSymbolSize (hrows : 0 < nRows) (hindex : 0 < maxIndexColumns)
    (hlen : (indexSize :: rest).length ≤ nColumns)
    (hquot : ∀ size ∈ indexSize :: rest,
      size < 2 ^ 53 * (minSymbolSize indexSize rest nColumns nRows maxIndexColumns * nRows))
    {turns : Nat} (hturns : maxSymbolSize (indexSize :: rest) nColumns nRows -
      minSymbolSize indexSize rest nColumns nRows maxIndexColumns ≤ turns) :
    IsLeast {s | minSymbolSize indexSize rest nColumns nRows maxIndexColumns ≤ s ∧
        canBlobsFit (indexSize :: rest) nColumns (s * nRows) = true}
      (searchSymbolSize (fun mid => canBlobsFit (indexSize :: rest) nColumns (mid * nRows))
        turns (minSymbolSize indexSize rest nColumns nRows maxIndexColumns)
        (maxSymbolSize (indexSize :: rest) nColumns nRows)) := by
  have hcolumns : 0 < nColumns := by
    rw [List.length_cons] at hlen
    omega
  have hlow0 := minSymbolSize_pos indexSize rest hcolumns hrows hindex
  obtain ⟨low, hlow⟩ : ∃ low, minSymbolSize indexSize rest nColumns nRows maxIndexColumns = low :=
    ⟨_, rfl⟩
  obtain ⟨high, hhigh⟩ : ∃ high, maxSymbolSize (indexSize :: rest) nColumns nRows = high :=
    ⟨_, rfl⟩
  rw [hlow] at hlow0 hquot
  rw [hlow, hhigh] at hturns ⊢
  -- the upper end gives every blob an equal share of the columns
  have hmax : canBlobsFit (indexSize :: rest) nColumns (max low high * nRows) = true := by
    have hpos : 0 < max low high * nRows := Nat.mul_pos (by omega) hrows
    refine canBlobsFit_of_ceilDiv hpos ?_ (sum_ceilDiv_le_of_share hpos ?_)
    · intro size hsize
      have hcolumn := Nat.mul_le_mul_right nRows (Nat.le_max_left low high)
      exact Nat.lt_of_lt_of_le (hquot size hsize) (Nat.mul_le_mul_left _ hcolumn)
    · intro size hsize
      have hshare : 0 < nColumns / (indexSize :: rest).length :=
        Nat.div_pos hlen (Nat.succ_pos _)
      have hle := (divCeil_le_iff (Nat.mul_pos hshare hrows)).mp (Nat.le_of_eq hhigh)
      calc size ≤ (indexSize :: rest).foldl max 0 := le_foldl_max hsize
        _ ≤ nColumns / (indexSize :: rest).length * nRows * high := hle
        _ ≤ nColumns / (indexSize :: rest).length * nRows * max low high :=
            Nat.mul_le_mul_left _ (Nat.le_max_right _ _)
        _ = max low high * nRows * (nColumns / (indexSize :: rest).length) := by ring
  exact (searchEnds_searchSymbolSize _ hturns).isLeast
    (fun hle => canBlobsFit_mono (Nat.mul_le_mul_right nRows hle)) hmax

end Packing

/-- Rounding up to the alignment, on an even alignment of two. -/
theorem divCeil_mul_alignment (found : Nat) :
    divCeil found Redstuff.rs2RequiredAlignment * Redstuff.rs2RequiredAlignment =
      found + found % 2 := by
  simp only [divCeil, Redstuff.rs2RequiredAlignment]
  omega

/-- Whatever the sizes are, the result is not below the lower end. -/
theorem minSymbolSize_le_of_ok {indexSize : Nat} {rest : List Nat} {nColumns nRows : Int}
    {maxIndexColumns symbolSize : Nat}
    (h : computeSymbolSize (indexSize :: rest) nColumns nRows maxIndexColumns =
      .ok symbolSize) :
    minSymbolSize indexSize rest nColumns.toNat nRows.toNat maxIndexColumns ≤ symbolSize := by
  unfold computeSymbolSize at h
  simp only [divCeil_mul_alignment] at h
  split at h
  · cases h
  · split at h
    · cases h
    · split at h
      · cases h
      · cases h
        exact Nat.le_trans
          (searchEnds_searchSymbolSize _ (Nat.le_refl _)).le (Nat.le_add_right _ _)

theorem computeSymbolSize_tooMany {indexSize : Nat} {rest : List Nat} {nColumns : Int}
    (h : nColumns < (indexSize :: rest).length) (nRows : Int) (maxIndexColumns : Nat) :
    computeSymbolSize (indexSize :: rest) nColumns nRows maxIndexColumns =
      .error (.tooManyBlobs (indexSize :: rest).length nColumns) := by
  show (if nColumns < (indexSize :: rest : List Nat).length then _ else _) = _
  rw [if_pos h]

/-- The search and the tests after it. -/
theorem computeSymbolSize_of_le {indexSize : Nat} {rest : List Nat} {nColumns nRows : Int}
    {maxIndexColumns : Nat} (hrows : 1 ≤ nRows) (hindex : 1 ≤ maxIndexColumns)
    (hlen : ((indexSize :: rest).length : Int) ≤ nColumns)
    (hquot : ∀ size ∈ indexSize :: rest, size < 2 ^ 53 * (minSymbolSize indexSize rest
      nColumns.toNat nRows.toNat maxIndexColumns * nRows.toNat)) :
    ∃ s, IsLeast (acceptedSizes indexSize rest nColumns.toNat nRows.toNat maxIndexColumns) s ∧
      computeSymbolSize (indexSize :: rest) nColumns nRows maxIndexColumns =
        if s ≤ Redstuff.rs2MaxSymbolSize then .ok s else .error (.symbolSizeExceeded s) := by
  have hrows' : 0 < nRows.toNat := by omega
  have hlen' : (indexSize :: rest).length ≤ nColumns.toNat := by omega
  obtain ⟨found, hfound⟩ : ∃ found, searchSymbolSize
      (fun mid => canBlobsFit (indexSize :: rest) nColumns.toNat (mid * nRows.toNat))
      (maxSymbolSize (indexSize :: rest) nColumns.toNat nRows.toNat -
        minSymbolSize indexSize rest nColumns.toNat nRows.toNat maxIndexColumns)
      (minSymbolSize indexSize rest nColumns.toNat nRows.toNat maxIndexColumns)
      (maxSymbolSize (indexSize :: rest) nColumns.toNat nRows.toNat) = found := ⟨_, rfl⟩
  have hleast := isLeast_searchSymbolSize hrows' hindex hlen' hquot (Nat.le_refl _)
  rw [hfound] at hleast
  obtain ⟨⟨hmin, hfits⟩, hleast⟩ := hleast
  -- the aligned size is accepted, and nothing even below it is
  have hfits : canBlobsFit (indexSize :: rest) nColumns.toNat
      ((found + found % 2) * nRows.toNat) = true :=
    canBlobsFit_mono (Nat.mul_le_mul_right _ (Nat.le_add_right _ _)) hfits
  refine ⟨found + found % 2, ⟨⟨?_, by omega, hfits⟩, ?_⟩, ?_⟩
  · rw [Nat.even_iff]
    omega
  · rintro s ⟨heven, hs⟩
    have hle := hleast hs
    rw [Nat.even_iff] at heven
    omega
  · have hrun : computeSymbolSize (indexSize :: rest) nColumns nRows maxIndexColumns =
        if nColumns < (indexSize :: rest).length then
          .error (.tooManyBlobs (indexSize :: rest).length nColumns)
        else if !canBlobsFit (indexSize :: rest) nColumns.toNat
            (divCeil found Redstuff.rs2RequiredAlignment * Redstuff.rs2RequiredAlignment *
              nRows.toNat) then .error (.cannotPack nColumns)
        else if divCeil found Redstuff.rs2RequiredAlignment * Redstuff.rs2RequiredAlignment >
            Redstuff.rs2MaxSymbolSize then
          .error (.symbolSizeExceeded
            (divCeil found Redstuff.rs2RequiredAlignment * Redstuff.rs2RequiredAlignment))
        else .ok (divCeil found Redstuff.rs2RequiredAlignment *
          Redstuff.rs2RequiredAlignment) := by
      rw [← hfound]
      rfl
    rw [hrun, if_neg (by omega), divCeil_mul_alignment, hfits, Bool.not_true,
      if_neg Bool.false_ne_true]
    by_cases hbig : found + found % 2 > Redstuff.rs2MaxSymbolSize
    · rw [if_pos hbig, if_neg (by omega)]
    · rw [if_neg hbig, if_pos (by omega)]

/-- **The symbol size is optimal.** -/
theorem computeSymbolSize_optimal (nRows : Int) (hrows : 1 ≤ nRows) (maxIndexColumns : Nat)
    (hindex : 1 ≤ maxIndexColumns) :
    (∀ nColumns, computeSymbolSize [] nColumns nRows maxIndexColumns = .error .noBlobSizes) ∧
    (∀ indexSize rest, ∀ nColumns : Int, nColumns < (indexSize :: rest : List Nat).length →
      computeSymbolSize (indexSize :: rest) nColumns nRows maxIndexColumns =
        .error (.tooManyBlobs (indexSize :: rest).length nColumns)) ∧
    (∀ indexSize rest, (∀ size ∈ indexSize :: rest, size < 2 ^ 53) →
      ∀ nColumns : Int, ((indexSize :: rest).length : Int) ≤ nColumns →
      ∃ s, IsLeast
          (packingSizes (indexSize :: rest) nColumns.toNat nRows.toNat maxIndexColumns) s ∧
        computeSymbolSize (indexSize :: rest) nColumns nRows maxIndexColumns =
          (if s ≤ 65534 then .ok s else .error (.symbolSizeExceeded s)) ∧
        ∀ n, computeSymbolSize (indexSize :: rest) nColumns nRows maxIndexColumns ≠
          .error (.cannotPack n)) ∧
    ∀ fits minVal maxVal, SearchEnds fits minVal maxVal
      (searchSymbolSize fits (maxVal - minVal) minVal maxVal) := by
  refine ⟨fun _ => rfl, ?_, ?_, ?_⟩
  · exact fun _ _ _ hlt => computeSymbolSize_tooMany hlt nRows maxIndexColumns
  · intro indexSize rest hsizes nColumns hlen
    have hrows' : 0 < nRows.toNat := by omega
    have hlen' : (indexSize :: rest).length ≤ nColumns.toNat := by omega
    have hlow := minSymbolSize_pos indexSize rest
      (Nat.lt_of_lt_of_le (Nat.succ_pos _) hlen') hrows' hindex
    obtain ⟨s, hleast, hrun⟩ := computeSymbolSize_of_le hrows hindex hlen (by
      intro size hsize
      exact Nat.lt_of_lt_of_le (hsizes size hsize)
        (Nat.le_mul_of_pos_right _ (Nat.mul_pos hlow hrows')))
    rw [acceptedSizes_eq hsizes hrows' hindex hlen'] at hleast
    refine ⟨s, hleast, hrun, ?_⟩
    intro n hpack
    rw [hrun] at hpack
    split at hpack <;> cases hpack
  · intro fits minVal maxVal
    exact searchEnds_searchSymbolSize fits (Nat.le_refl _)

/-- An index and two blobs in five columns of three rows. -/
theorem computeSymbolSize_optimal_threeBlobs :
    ∃ s, IsLeast (packingSizes [12, 40, 7] 5 3 10) s ∧
      computeSymbolSize [12, 40, 7] 5 3 10 = .ok s := by
  obtain ⟨s, hleast, hrun, -⟩ := (computeSymbolSize_optimal 3 (by decide) 10 (by decide)).2.2.1
    12 [40, 7] (by decide) 5 (by decide)
  refine ⟨s, hleast, ?_⟩
  have hmem : (6 : Nat) ∈ packingSizes [12, 40, 7] 5 3 10 := by
    refine ⟨by decide, by decide, by decide, ?_, by decide⟩
    rintro size ⟨⟩
    decide
  have hle : s ≤ 6 := hleast.2 hmem
  rw [hrun, if_pos (by omega)]

end Pytusk.Quilt
