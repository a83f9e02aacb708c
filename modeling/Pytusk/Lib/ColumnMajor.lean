import Mathlib.Data.List.Range
import Mathlib.Tactic.Ring
import Pytusk.Lib.PySeq

/-!
# Column-major reading of a row-major matrix

A matrix of symbols is stored row after row, and a symbol is a run of
elements. Reading it column after column permutes the elements: the one at
place `k` of the columns is stored at `cell k`. Within a symbol neighbours
stay neighbours, so a write that stays inside one symbol of the stored
matrix is a write to a run of the columns (`columns_setSlice`).
-/

namespace Pytusk.Lib.ColumnMajor

variable {α : Type*}

structure Shape where
  symbolSize : Nat
  nRows : Nat
  nColumns : Nat
  deriving DecidableEq, Repr

namespace Shape

variable (g : Shape)

def rowSize : Nat := g.symbolSize * g.nColumns

def columnSize : Nat := g.symbolSize * g.nRows

def size : Nat := g.rowSize * g.nRows

/-- Where the element at place `k` of the columns is stored. -/
def cell (k : Nat) : Nat :=
  k / g.symbolSize % g.nRows * g.rowSize + k / g.columnSize * g.symbolSize +
    k % g.symbolSize

/-- The matrix column after column: column `c` is symbols `(0, c)`, `(1, c)`, ... -/
def columns (m : List α) : List α :=
  (List.range g.nColumns).flatMap fun c =>
    (List.range g.nRows).flatMap fun r =>
      (m.drop (r * g.rowSize + c * g.symbolSize)).take g.symbolSize

variable {g}

theorem size_eq : g.size = g.nColumns * g.columnSize := by
  simp only [size, rowSize, columnSize]
  ring

/-- The place is inside some column, so all three counts are positive. -/
theorem counts_pos {k : Nat} (hk : k < g.size) :
    0 < g.symbolSize ∧ 0 < g.nRows ∧ 0 < g.nColumns := by
  refine ⟨?_, ?_, ?_⟩ <;> apply Nat.pos_of_ne_zero <;> intro h <;>
    simp [size, rowSize, h] at hk

/-- A symbol inside the matrix is stored inside it. -/
theorem symbol_le {r c : Nat} (hr : r < g.nRows) (hc : c < g.nColumns) :
    r * g.rowSize + c * g.symbolSize + g.symbolSize ≤ g.size := by
  have hcol : c * g.symbolSize + g.symbolSize ≤ g.rowSize := by
    have := Nat.mul_le_mul_right g.symbolSize (Nat.succ_le_of_lt hc)
    rw [Nat.succ_mul, Nat.mul_comm g.nColumns] at this
    exact this
  have hrow : r * g.rowSize + g.rowSize ≤ g.size := by
    have := Nat.mul_le_mul_right g.rowSize (Nat.succ_le_of_lt hr)
    rw [Nat.succ_mul, Nat.mul_comm g.nRows] at this
    exact this
  omega

theorem div_columnSize_lt {k : Nat} (hk : k < g.size) :
    k / g.columnSize < g.nColumns := by
  apply Nat.div_lt_of_lt_mul
  rw [Nat.mul_comm, ← size_eq]
  exact hk

theorem cell_lt {k : Nat} (hk : k < g.size) : g.cell k < g.size := by
  obtain ⟨hs, hr, _⟩ := counts_pos hk
  have := symbol_le (Nat.mod_lt (k / g.symbolSize) hr) (div_columnSize_lt hk)
  have := Nat.mod_lt k hs
  simp only [cell]
  omega

/-- The place is recovered from where it is stored. -/
theorem cell_inj {k j : Nat} (hk : k < g.size) (hj : j < g.size)
    (h : g.cell k = g.cell j) : k = j := by
  obtain ⟨hs, hr, hn⟩ := counts_pos hk
  have decompose : ∀ {i}, i < g.size → g.cell i % g.symbolSize = i % g.symbolSize ∧
      g.cell i / g.symbolSize % g.nColumns = i / g.columnSize ∧
      g.cell i / g.rowSize = i / g.symbolSize % g.nRows := by
    intro i hi
    have hrow : 0 < g.rowSize := Nat.mul_pos hs hn
    have hwithin := Nat.mod_lt i hs
    have hcol := div_columnSize_lt hi
    have hsymbol : g.cell i =
        (i / g.symbolSize % g.nRows * g.nColumns + i / g.columnSize) * g.symbolSize +
          i % g.symbolSize := by
      simp only [cell, rowSize]
      ring
    have hdiv : g.cell i / g.symbolSize =
        i / g.symbolSize % g.nRows * g.nColumns + i / g.columnSize := by
      rw [hsymbol, Nat.mul_comm, Nat.mul_add_div hs, Nat.div_eq_of_lt hwithin,
        Nat.add_zero]
    refine ⟨?_, ?_, ?_⟩
    · rw [hsymbol, Nat.mul_comm, Nat.mul_add_mod, Nat.mod_mod]
    · rw [hdiv, Nat.mul_comm, Nat.mul_add_mod, Nat.mod_eq_of_lt hcol]
    · rw [rowSize, ← Nat.div_div_eq_div_mul, hdiv, Nat.mul_comm, Nat.mul_add_div hn,
        Nat.div_eq_of_lt hcol, Nat.add_zero]
  obtain ⟨hk1, hk2, hk3⟩ := decompose hk
  obtain ⟨hj1, hj2, hj3⟩ := decompose hj
  have hwithin : k % g.symbolSize = j % g.symbolSize := by rw [← hk1, ← hj1, h]
  have hcol : k / g.columnSize = j / g.columnSize := by rw [← hk2, ← hj2, h]
  have hrow : k / g.symbolSize % g.nRows = j / g.symbolSize % g.nRows := by
    rw [← hk3, ← hj3, h]
  rw [columnSize, ← Nat.div_div_eq_div_mul, ← Nat.div_div_eq_div_mul] at hcol
  rw [← Nat.div_add_mod k g.symbolSize, ← Nat.div_add_mod j g.symbolSize, hwithin,
    ← Nat.div_add_mod (k / g.symbolSize) g.nRows,
    ← Nat.div_add_mod (j / g.symbolSize) g.nRows, hcol, hrow]

/-- Within a symbol the storage order is the column order. -/
theorem cell_add {k t : Nat} (h : k % g.symbolSize + t < g.symbolSize) :
    g.cell (k + t) = g.cell k + t := by
  have hs : 0 < g.symbolSize := by omega
  have hdm := Nat.div_add_mod k g.symbolSize
  have hdiv : (k + t) / g.symbolSize = k / g.symbolSize := by
    rw [← hdm, Nat.add_assoc, Nat.mul_add_div hs, Nat.mul_add_div hs,
      Nat.div_eq_of_lt h, Nat.div_eq_of_lt (Nat.mod_lt k hs)]
  have hmod : (k + t) % g.symbolSize = k % g.symbolSize + t := by
    rw [← hdm, Nat.add_assoc, Nat.mul_add_mod, Nat.mul_add_mod, Nat.mod_mod,
      Nat.mod_eq_of_lt h]
  have hcol : (k + t) / g.columnSize = k / g.columnSize := by
    rw [columnSize, ← Nat.div_div_eq_div_mul, hdiv, Nat.div_div_eq_div_mul]
  simp only [cell, hdiv, hmod, hcol]
  omega

/-! ## Reading -/

/-- Blocks of one length `m` take `n * m` places. -/
private theorem length_flatMap_range {f : Nat → List α} {n m : Nat}
    (hlen : ∀ i < n, (f i).length = m) :
    ((List.range n).flatMap f).length = n * m := by
  induction n with
  | zero => simp
  | succ n ih =>
    rw [List.range_succ, List.flatMap_append, List.length_append,
      ih (fun i hi => hlen i (by omega)), List.flatMap_singleton, hlen n (by omega),
      Nat.succ_mul]

/-- Place `k` is place `k % m` of block `k / m`. -/
private theorem getElem?_flatMap_range {f : Nat → List α} {n m k : Nat}
    (hlen : ∀ i < n, (f i).length = m) (hk : k < n * m) :
    ((List.range n).flatMap f)[k]? = (f (k / m))[k % m]? := by
  induction n with
  | zero => omega
  | succ n ih =>
    have hprev := length_flatMap_range (fun i hi => hlen i (Nat.lt_succ_of_lt hi))
    rw [List.range_succ, List.flatMap_append, List.getElem?_append, hprev,
      List.flatMap_singleton]
    split
    · exact ih (fun i hi => hlen i (by omega)) ‹_›
    · -- the last block
      rename_i hge
      rw [Nat.succ_mul] at hk
      have hm : 0 < m := by omega
      have hkeq : k = m * n + (k - n * m) := by rw [Nat.mul_comm m n]; omega
      have hdiv : k / m = n := by
        rw [hkeq, Nat.mul_add_div hm, Nat.div_eq_of_lt (by omega), Nat.add_zero]
      have hmod : k % m = k - n * m := by
        rw [hkeq, Nat.mul_add_mod, Nat.mod_eq_of_lt (by omega)]
        rw [Nat.mul_comm m n]
        omega
      rw [hdiv, hmod]

variable {m : List α}

private theorem length_symbol (hm : m.length = g.size) {r c : Nat} (hr : r < g.nRows)
    (hc : c < g.nColumns) :
    ((m.drop (r * g.rowSize + c * g.symbolSize)).take g.symbolSize).length =
      g.symbolSize := by
  have := symbol_le hr hc
  rw [List.length_take, List.length_drop]
  omega

private theorem length_column (hm : m.length = g.size) {c : Nat} (hc : c < g.nColumns) :
    ((List.range g.nRows).flatMap fun r =>
      (m.drop (r * g.rowSize + c * g.symbolSize)).take g.symbolSize).length =
        g.columnSize := by
  rw [length_flatMap_range fun r hr => length_symbol hm hr hc, columnSize, Nat.mul_comm]

theorem length_columns (hm : m.length = g.size) : (g.columns m).length = g.size := by
  rw [columns, length_flatMap_range fun c hc => length_column hm hc, size_eq]

/-- The element at place `k` of the columns is the one stored at `cell k`. -/
theorem getElem?_columns (hm : m.length = g.size) {k : Nat} (hk : k < g.size) :
    (g.columns m)[k]? = m[g.cell k]? := by
  obtain ⟨hs, hr, _⟩ := counts_pos hk
  have hcol := div_columnSize_lt hk
  have hrest : k % g.columnSize < g.nRows * g.symbolSize := by
    rw [Nat.mul_comm]
    exact Nat.mod_lt k (Nat.mul_pos hs hr)
  rw [columns, getElem?_flatMap_range (fun c hc => length_column hm hc)
    (by rwa [← size_eq]), getElem?_flatMap_range
    (fun r hr => length_symbol hm hr hcol) hrest]
  have hrow : k % g.columnSize / g.symbolSize = k / g.symbolSize % g.nRows :=
    Nat.mod_mul_right_div_self ..
  have hwithin : k % g.columnSize % g.symbolSize = k % g.symbolSize :=
    Nat.mod_mul_right_mod ..
  rw [hrow, hwithin, List.getElem?_take_of_lt (Nat.mod_lt k hs), List.getElem?_drop, cell]

/-- A matrix of one value reads as that value throughout. -/
theorem columns_replicate (x : α) :
    g.columns (List.replicate g.size x) = List.replicate g.size x := by
  have hm : (List.replicate g.size x).length = g.size := List.length_replicate
  apply List.ext_getElem?
  intro k
  rcases Nat.lt_or_ge k g.size with hk | hk
  · rw [getElem?_columns hm hk, List.getElem?_replicate, List.getElem?_replicate,
      if_pos hk, if_pos (cell_lt hk)]
  · rw [List.getElem?_eq_none (by rw [length_columns hm]; exact hk),
      List.getElem?_eq_none (by rw [hm]; exact hk)]

/-- A run of the columns within one symbol is stored inside the matrix. -/
theorem cell_add_le {k n : Nat} (hsymbol : k % g.symbolSize + n ≤ g.symbolSize)
    (hend : k + n ≤ g.size) (hn : 0 < n) : g.cell k + n ≤ g.size := by
  have hlast := cell_lt (show k + (n - 1) < g.size by omega)
  rw [cell_add (by omega)] at hlast
  omega

/-- A write within one stored symbol writes the same run of the columns. -/
theorem columns_setSlice (hm : m.length = g.size) {k : Nat} {ys : List α}
    (hsymbol : k % g.symbolSize + ys.length ≤ g.symbolSize)
    (hend : k + ys.length ≤ g.size) :
    g.columns (setSlice m (g.cell k) ys) = setSlice (g.columns m) k ys := by
  rcases ys with _ | ⟨y, ys⟩
  · simp
  generalize hys : y :: ys = zs at hsymbol hend ⊢
  have hpos : 0 < zs.length := by rw [← hys]; exact Nat.succ_pos _
  -- the cells of the run are consecutive
  have hrun : ∀ t < zs.length, g.cell (k + t) = g.cell k + t :=
    fun t ht => cell_add (by omega)
  have hfit : g.cell k + zs.length ≤ m.length := by
    rw [hm]
    exact cell_add_le hsymbol hend hpos
  have hm' : (setSlice m (g.cell k) zs).length = g.size := by
    rw [length_setSlice hfit, hm]
  have hcolumns : k + zs.length ≤ (g.columns m).length := by
    rw [length_columns hm]
    exact hend
  apply List.ext_getElem?
  intro j
  rcases Nat.lt_or_ge j g.size with hj | hj
  · rw [getElem?_columns hm' hj, getElem?_setSlice hfit, getElem?_setSlice hcolumns,
      getElem?_columns hm hj]
    by_cases hin : k ≤ j ∧ j < k + zs.length
    · have hcell : g.cell j = g.cell k + (j - k) := by
        rw [← hrun (j - k) (by omega)]
        congr 1
        omega
      rw [if_pos hin, if_pos (by omega), hcell, Nat.add_sub_cancel_left]
    · have hout : ¬ (g.cell k ≤ g.cell j ∧ g.cell j < g.cell k + zs.length) := by
        intro hcell
        have heq := cell_inj (show k + (g.cell j - g.cell k) < g.size by omega) hj
          (by rw [hrun _ (by omega)]; omega)
        omega
      rw [if_neg hin, if_neg hout]
  · rw [List.getElem?_eq_none (by rw [length_columns hm']; exact hj),
      List.getElem?_eq_none (by rw [length_setSlice hcolumns, length_columns hm]; exact hj)]

/-! ## Moving on -/

/-- From the end of a symbol the next place is in the row below. -/
theorem next_row {k k' : Nat} (h : k' / g.symbolSize = k / g.symbolSize + 1) :
    k' / g.symbolSize % g.nRows = (k / g.symbolSize % g.nRows + 1) % g.nRows := by
  rw [h, Nat.mod_add_mod]

/-- ... or, below the last row, at the top of the next column. -/
theorem next_column {k k' : Nat} (h : k' / g.symbolSize = k / g.symbolSize + 1) :
    k' / g.columnSize =
      if (k / g.symbolSize % g.nRows + 1) % g.nRows = 0 then k / g.columnSize + 1
      else k / g.columnSize := by
  have hdvd : g.nRows ∣ k / g.symbolSize + 1 ↔
      (k / g.symbolSize % g.nRows + 1) % g.nRows = 0 := by
    rw [Nat.mod_add_mod, Nat.dvd_iff_mod_eq_zero]
  rw [columnSize, ← Nat.div_div_eq_div_mul, ← Nat.div_div_eq_div_mul, h, Nat.succ_div]
  simp only [hdvd]
  split <;> omega

end Shape

end Pytusk.Lib.ColumnMajor
