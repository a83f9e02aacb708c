import Mathlib.Algebra.BigOperators.Group.Finset.Basic
import Mathlib.Order.Defs.LinearOrder
import Mathlib.Tactic.Abel

/-!
# Amounts over ranges

An amount that holds from one point up to another. Such slabs can be cut at a
point and joined where they touch, or taken apart and stacked by their
amounts; what there is of them at a point does not change by it.
-/

namespace Pytusk.Lib

structure Slab (T M : Type*) where
  lo : T
  hi : T
  amount : M

namespace Slab

variable {T M : Type*} [LinearOrder T] [AddCommGroup M]

/-- The amount at a point. -/
def height (slab : Slab T M) (t : T) : M :=
  if slab.lo ≤ t ∧ t < slab.hi then slab.amount else 0

/-- A range that is cut. -/
theorem height_cut {lo mid hi : T} (hlo : lo ≤ mid) (hhi : mid ≤ hi) (amount : M) (t : T) :
    height ⟨lo, mid, amount⟩ t + height ⟨mid, hi, amount⟩ t = height ⟨lo, hi, amount⟩ t := by
  unfold height
  dsimp only
  by_cases hmid : t < mid
  · have hright : ¬ (mid ≤ t ∧ t < hi) := fun h => absurd hmid (not_lt.mpr h.1)
    have hwhole : (lo ≤ t ∧ t < hi) ↔ (lo ≤ t ∧ t < mid) :=
      and_congr_right fun _ => iff_of_true (hmid.trans_le hhi) hmid
    rw [if_neg hright, add_zero, if_congr hwhole rfl rfl]
  · have hleft : ¬ (lo ≤ t ∧ t < mid) := fun h => hmid h.2
    have hwhole : (lo ≤ t ∧ t < hi) ↔ (mid ≤ t ∧ t < hi) :=
      and_congr_left fun _ => iff_of_true (hlo.trans (not_lt.mp hmid)) (not_lt.mp hmid)
    rw [if_neg hleft, zero_add, if_congr hwhole rfl rfl]

/-- Two amounts over one range. -/
theorem height_add (lo hi : T) (a b : M) (t : T) :
    height ⟨lo, hi, a⟩ t + height ⟨lo, hi, b⟩ t = height ⟨lo, hi, a + b⟩ t := by
  unfold height
  dsimp only
  split
  · rfl
  · exact add_zero 0

/-! ## Slabs under keys -/

variable {κ : Type*} [DecidableEq κ]

/-- The amount at a point of what may be there. -/
def heightOf (slab : Option (Slab T M)) (t : T) : M := slab.elim 0 (height · t)

/-- What the slabs under some keys amount to at a point. -/
def held (keys : Finset κ) (slabs : κ → Option (Slab T M)) (t : T) : M :=
  ∑ key ∈ keys, heightOf (slabs key) t

/-- One slab is replaced. -/
theorem held_update {keys : Finset κ} {key : κ} (hkey : key ∈ keys)
    (slabs : κ → Option (Slab T M)) (slab : Option (Slab T M)) (t : T) :
    held keys (Function.update slabs key slab) t =
      held keys slabs t - heightOf (slabs key) t + heightOf slab t := by
  have hrest : ∑ other ∈ keys.erase key, heightOf (Function.update slabs key slab other) t =
      ∑ other ∈ keys.erase key, heightOf (slabs other) t := by
    refine Finset.sum_congr rfl fun other hother => ?_
    rw [Function.update_of_ne (Finset.ne_of_mem_erase hother)]
  unfold held
  rw [← Finset.add_sum_erase keys _ hkey, ← Finset.add_sum_erase keys _ hkey, hrest,
    Function.update_self]
  abel

/-- Two slabs are replaced by two of the same heights. -/
theorem held_update₂ {keys : Finset κ} {a b : κ} (ha : a ∈ keys) (hb : b ∈ keys) (hne : a ≠ b)
    (slabs : κ → Option (Slab T M)) (x y : Option (Slab T M)) (t : T)
    (h : heightOf x t + heightOf y t = heightOf (slabs a) t + heightOf (slabs b) t) :
    held keys (Function.update (Function.update slabs b y) a x) t = held keys slabs t := by
  rw [held_update ha, held_update hb, Function.update_of_ne hne]
  have hx : heightOf x t = heightOf (slabs a) t + heightOf (slabs b) t - heightOf y t :=
    eq_sub_of_add_eq h
  rw [hx]
  abel

end Slab

end Pytusk.Lib
