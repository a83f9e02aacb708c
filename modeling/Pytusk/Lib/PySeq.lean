import Mathlib.Data.List.Basic
import Mathlib.Data.List.TakeDrop

/-!
# Sequences: indexing and slice assignment

`seq[i]` for an integer `i`: a negative index counts from the end, and an
index outside `[-len, len)` has no value. `setSlice` overwrites a part of a
sequence in place, keeping its length.
-/

namespace Pytusk.Lib

variable {α : Type*}

/-- `seq[i]`, or `none` where it raises `IndexError`. -/
def pyGet? (seq : List α) (i : Int) : Option α :=
  if 0 ≤ i then seq[i.toNat]?
  else if 0 ≤ seq.length + i then seq[(seq.length + i).toNat]?
  else none

@[simp] theorem pyGet?_natCast (seq : List α) (n : Nat) :
    pyGet? seq (n : Int) = seq[n]? := by
  simp [pyGet?]

/-! ## Slice assignment -/

/-- `seq[i : i + len(ys)] = ys` -/
def setSlice (seq : List α) (i : Nat) (ys : List α) : List α :=
  seq.take i ++ ys ++ seq.drop (i + ys.length)

theorem length_setSlice {seq ys : List α} {i : Nat} (h : i + ys.length ≤ seq.length) :
    (setSlice seq i ys).length = seq.length := by
  simp only [setSlice, List.length_append, List.length_take, List.length_drop]
  omega

theorem getElem?_setSlice {seq ys : List α} {i : Nat}
    (h : i + ys.length ≤ seq.length) (j : Nat) :
    (setSlice seq i ys)[j]? =
      if i ≤ j ∧ j < i + ys.length then ys[j - i]? else seq[j]? := by
  have hlen : (seq.take i).length = i := by rw [List.length_take]; omega
  rw [setSlice, List.append_assoc, List.getElem?_append, hlen]
  split
  · rw [if_neg (by omega), List.getElem?_take_of_lt (by omega)]
  · rw [List.getElem?_append]
    split
    · rw [if_pos (by omega)]
    · rw [if_neg (by omega), List.getElem?_drop]
      congr 1
      omega

@[simp] theorem setSlice_nil (seq : List α) (i : Nat) : setSlice seq i [] = seq := by
  simp [setSlice]

/-- Two adjacent writes are one. -/
theorem setSlice_setSlice {seq xs ys : List α} {i : Nat}
    (h : i + xs.length + ys.length ≤ seq.length) :
    setSlice (setSlice seq i xs) (i + xs.length) ys = setSlice seq i (xs ++ ys) := by
  apply List.ext_getElem?
  intro j
  have hfirst : i + xs.length ≤ seq.length := by omega
  have hsecond : i + xs.length + ys.length ≤ (setSlice seq i xs).length := by
    rw [length_setSlice hfirst]
    exact h
  rw [getElem?_setSlice hsecond, getElem?_setSlice hfirst, getElem?_setSlice
    (by rw [List.length_append]; omega), List.length_append, List.getElem?_append]
  by_cases hj : i ≤ j
  · rcases Nat.lt_or_ge j (i + xs.length) with hlt | hge
    · rw [if_neg (by omega), if_pos ⟨hj, hlt⟩, if_pos (by omega), if_pos (by omega)]
    · by_cases hend : j < i + xs.length + ys.length
      · rw [if_pos ⟨hge, hend⟩, if_pos (by omega), if_neg (by omega)]
        congr 1
        omega
      · rw [if_neg (by omega), if_neg (by omega), if_neg (by omega)]
  · rw [if_neg (by omega), if_neg (by omega), if_neg (by omega)]

/-- A write at the start of a run of fill values. -/
theorem setSlice_append_replicate (pre ys : List α) {n : Nat} (fill : α)
    (h : ys.length ≤ n) (suffix : List α) :
    setSlice (pre ++ List.replicate n fill ++ suffix) pre.length ys =
      pre ++ (ys ++ List.replicate (n - ys.length) fill) ++ suffix := by
  have hdrop : (pre ++ List.replicate n fill ++ suffix).drop (pre.length + ys.length) =
      List.replicate (n - ys.length) fill ++ suffix := by
    rw [List.append_assoc, List.drop_append, List.drop_of_length_le (by omega),
      List.nil_append, Nat.add_sub_cancel_left, List.drop_append, List.drop_replicate,
      List.length_replicate, Nat.sub_eq_zero_of_le h, List.drop_zero]
  rw [setSlice, hdrop, List.append_assoc pre, List.take_left]
  simp only [List.append_assoc]

end Pytusk.Lib
