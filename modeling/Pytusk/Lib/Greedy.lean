import Mathlib.Algebra.BigOperators.Group.List.Basic
import Mathlib.Data.List.Perm.Subperm
import Mathlib.Algebra.GroupWithZero.Nat

/-!
# Largest first

Weighted items are taken in falling order of their weights until what is asked
for is reached. No fewer items could reach it.
-/

namespace Pytusk.Lib.Greedy

variable {α : Type*} (weight : α → Nat)

/-- The weight of all. -/
def total (items : List α) : Nat := (items.map weight).sum

/-- Take items until `amount` is reached. -/
def gather (amount : Nat) : (running : Nat) → List α → List α
  | _, [] => []
  | running, item :: items =>
      if running ≥ amount then []
      else item :: gather amount (running + weight item) items

variable {weight} {amount running : Nat} {items taken chosen sorted : List α}

@[simp] theorem total_nil : total weight [] = 0 := rfl

@[simp] theorem total_cons (item : α) (items : List α) :
    total weight (item :: items) = weight item + total weight items := by
  simp [total]

theorem total_append (xs ys : List α) :
    total weight (xs ++ ys) = total weight xs + total weight ys := by
  simp [total]

theorem total_perm (h : items.Perm chosen) : total weight items = total weight chosen :=
  (h.map weight).sum_eq

theorem total_le_of_prefix (h : taken <+: items) : total weight taken ≤ total weight items := by
  obtain ⟨rest, rfl⟩ := h
  rw [total_append]
  exact Nat.le_add_right ..

theorem gather_isPrefix (amount running : Nat) (items : List α) :
    gather weight amount running items <+: items := by
  induction items generalizing running with
  | nil => exact List.prefix_rfl
  | cons item items ih =>
    rw [gather]
    split
    · exact List.nil_prefix
    · exact List.cons_prefix_cons.mpr ⟨rfl, ih _⟩

/-- What is taken is enough, if all would be. -/
theorem le_gather (h : amount ≤ running + total weight items) :
    amount ≤ running + total weight (gather weight amount running items) := by
  induction items generalizing running with
  | nil => exact h
  | cons item items ih =>
    rw [gather]
    split
    · omega
    · rw [total_cons] at h ⊢
      have := @ih (running + weight item) (by omega)
      omega

/-- Without the last item it was not enough. -/
theorem lt_of_prefix_gather (hinit : taken <+: gather weight amount running items)
    (hne : taken ≠ gather weight amount running items) :
    running + total weight taken < amount := by
  induction items generalizing running taken with
  | nil => exact absurd (List.prefix_nil.mp hinit) hne
  | cons item items ih =>
    rw [gather] at hinit hne
    split at hinit
    · rename_i henough
      rw [if_pos henough] at hne
      exact absurd (List.prefix_nil.mp hinit) hne
    · rename_i hless
      rw [if_neg hless] at hne
      cases taken with
      | nil => simpa using hless
      | cons first rest =>
        obtain ⟨rfl, hrest⟩ := List.cons_prefix_cons.mp hinit
        have := ih hrest fun heq => hne (by rw [heq])
        rw [total_cons]
        omega

/-- As many of the first, when one at least as heavy as all comes before them. -/
theorem total_take_le_cons {first : α} (hfirst : ∀ item ∈ items, weight item ≤ weight first)
    (n : Nat) : total weight (items.take n) ≤ total weight ((first :: items).take n) := by
  cases n with
  | zero => simp
  | succ n =>
    rw [List.take_succ_cons, List.take_add_one, total_append, total_cons, Nat.add_comm]
    refine Nat.add_le_add_right ?_ _
    cases hitem : items[n]? with
    | none => simp
    | some item => simpa using hfirst item (List.mem_of_getElem? hitem)

/-- No items of a falling list are heavier than as many of the first. -/
theorem total_le_take_of_sublist (hsub : chosen.Sublist sorted)
    (hsorted : sorted.Pairwise fun a b => weight b ≤ weight a) :
    total weight chosen ≤ total weight (sorted.take chosen.length) := by
  induction hsub with
  | slnil => exact Nat.le_refl _
  | cons first hsub ih =>
    obtain ⟨hfirst, hrest⟩ := List.pairwise_cons.mp hsorted
    exact Nat.le_trans (ih hrest) (total_take_le_cons hfirst _)
  | cons_cons first hsub ih =>
    rw [List.length_cons, List.take_succ_cons, total_cons, total_cons]
    exact Nat.add_le_add_left (ih hsorted.of_cons) _

theorem take_of_prefix (h : taken <+: items) {n : Nat} (hn : n ≤ taken.length) :
    items.take n = taken.take n := by
  obtain ⟨rest, rfl⟩ := h
  exact List.take_append_of_le_length hn

/-- **Largest first is fewest.** What is gathered after the first item of a
falling list, with that item, is no more than any items that reach the amount. -/
theorem length_gather_le {first : α}
    (hsorted : (first :: items).Pairwise fun a b => weight b ≤ weight a)
    (hsub : chosen.Subperm (first :: items)) (hchosen : amount ≤ total weight chosen)
    (hne : chosen ≠ []) :
    (gather weight amount (weight first) items).length + 1 ≤ chosen.length := by
  obtain ⟨sublist, hperm, hsublist⟩ := hsub
  have hreach := total_le_take_of_sublist hsublist hsorted
  rw [total_perm hperm, hperm.length_eq] at hreach
  by_contra hmore
  obtain ⟨n, hn⟩ : ∃ n, chosen.length = n + 1 := List.exists_cons_of_ne_nil hne |>.elim
    fun item ⟨rest, heq⟩ => ⟨rest.length, by rw [heq, List.length_cons]⟩
  rw [hn, List.take_succ_cons, total_cons] at hreach
  have htake : items.take n = (gather weight amount (weight first) items).take n :=
    take_of_prefix (gather_isPrefix ..) (by omega)
  have hless := lt_of_prefix_gather (List.take_prefix n (gather weight amount (weight first) items))
    fun heq => by
      have := congrArg List.length heq
      rw [List.length_take] at this
      omega
  rw [htake] at hreach
  omega

end Pytusk.Lib.Greedy
