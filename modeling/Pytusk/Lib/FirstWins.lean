import Mathlib.Data.List.Nodup
import Mathlib.Data.Finset.Card

/-!
# The first of each kind

A list of keyed items in which each key is kept once, with the first value it
came with: items are added one after the other, and one whose key is already
there is passed over.
-/

namespace Pytusk.Lib.FirstWins

variable {α β : Type*} [DecidableEq α]

/-- The keys present. -/
def keys (kept : List (α × β)) : List α := kept.map Prod.fst

def add (kept : List (α × β)) (item : α × β) : List (α × β) :=
  if item.1 ∈ keys kept then kept else kept ++ [item]

def addAll (kept items : List (α × β)) : List (α × β) := items.foldl add kept

omit [DecidableEq α] in
@[simp] theorem keys_append (xs ys : List (α × β)) : keys (xs ++ ys) = keys xs ++ keys ys :=
  List.map_append

@[simp] theorem addAll_nil (kept : List (α × β)) : addAll kept [] = kept := rfl

@[simp] theorem addAll_cons (kept items : List (α × β)) (item : α × β) :
    addAll kept (item :: items) = addAll (add kept item) items := rfl

theorem addAll_append (kept xs ys : List (α × β)) :
    addAll kept (xs ++ ys) = addAll (addAll kept xs) ys :=
  List.foldl_append

theorem nodup_add {kept : List (α × β)} (h : (keys kept).Nodup) (item : α × β) :
    (keys (add kept item)).Nodup := by
  unfold add
  split
  · exact h
  · rename_i hnew
    rw [keys_append]
    refine List.nodup_append.mpr ⟨h, by simp [keys], ?_⟩
    intro a ha b hb hab
    obtain rfl : b = item.1 := by simpa [keys] using hb
    exact hnew (hab ▸ ha)

/-- No key is kept twice. -/
theorem nodup_addAll {kept : List (α × β)} (h : (keys kept).Nodup) (items : List (α × β)) :
    (keys (addAll kept items)).Nodup := by
  induction items generalizing kept with
  | nil => exact h
  | cons item items ih => exact ih (nodup_add h item)

theorem mem_keys_add {kept : List (α × β)} {item : α × β} {a : α} :
    a ∈ keys (add kept item) ↔ a ∈ keys kept ∨ a = item.1 := by
  unfold add
  split
  · rename_i hold
    constructor
    · exact .inl
    · rintro (h | rfl)
      · exact h
      · exact hold
  · simp [keys]

/-- The keys kept are the keys added. -/
theorem mem_keys_addAll {kept items : List (α × β)} {a : α} :
    a ∈ keys (addAll kept items) ↔ a ∈ keys kept ∨ a ∈ keys items := by
  induction items generalizing kept with
  | nil => simp [keys]
  | cons item items ih =>
    rw [addAll_cons, ih, mem_keys_add, or_assoc]
    simp [keys]

/-- Which items are kept: those of new keys that come first. -/
theorem mem_addAll {kept items : List (α × β)} {a : α} {b : β} :
    (a, b) ∈ addAll kept items ↔
      (a, b) ∈ kept ∨ a ∉ keys kept ∧ items.find? (·.1 = a) = some (a, b) := by
  induction items generalizing kept with
  | nil => simp
  | cons item items ih =>
    rw [addAll_cons, ih, mem_keys_add]
    by_cases hkey : item.1 = a
    · subst hkey
      by_cases hold : item.1 ∈ keys kept
      · simp [add, hold]
      · have hnot : (item.1, b) ∉ kept := fun h => hold (List.mem_map.mpr ⟨_, h, rfl⟩)
        simp [add, hold, hnot, Prod.ext_iff, eq_comm]
    · have hne : a ≠ item.1 := Ne.symm hkey
      have hmem : (a, b) ∈ add kept item ↔ (a, b) ∈ kept := by
        unfold add
        split
        · rfl
        · simp only [List.mem_append, List.mem_singleton, Prod.ext_iff, hne, false_and, or_false]
      simp [hmem, hkey, hne]

/-- Nothing kept was not there or added. -/
theorem mem_of_mem_addAll {kept items : List (α × β)} {item : α × β}
    (h : item ∈ addAll kept items) : item ∈ kept ∨ item ∈ items := by
  rcases mem_addAll.mp h with hold | ⟨-, hfind⟩
  · exact .inl hold
  · exact .inr (List.mem_of_find?_eq_some hfind)

/-- As many items are kept as there are keys. -/
theorem length_eq_card {kept : List (α × β)} (h : (keys kept).Nodup) :
    kept.length = (keys kept).toFinset.card := by
  rw [List.toFinset_card_of_nodup h, keys, List.length_map]

/-- Everything offered is kept, or was already. -/
theorem length_le_addAll {kept items : List (α × β)} (hkept : (keys kept).Nodup)
    (hitems : (keys items).Nodup) : items.length ≤ (addAll kept items).length := by
  have hsub : (keys items).toFinset ⊆ (keys (addAll kept items)).toFinset := by
    intro a ha
    rw [List.mem_toFinset] at ha ⊢
    exact mem_keys_addAll.mpr (.inr ha)
  have hcard := Finset.card_le_card hsub
  rwa [← length_eq_card hitems, ← length_eq_card (nodup_addAll hkept items)] at hcard

end Pytusk.Lib.FirstWins
