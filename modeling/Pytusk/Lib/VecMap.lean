import Pytusk.Lib.Dict
import Pytusk.Lib.Lts
import Mathlib.Data.List.Nodup

/-!
# Move's `VecMap`

A map is the list of its entries, no two of which have one key. Removing a
key that is not there aborts. A run of removals succeeds exactly if the keys
are distinct and all there, and then it leaves the other entries.
-/

namespace Pytusk.Lib

structure VecMap (κ ν : Type*) where
  contents : List (κ × ν)
  nodup : (contents.map Prod.fst).Nodup

namespace VecMap

variable {κ ν : Type*}

/-- Two maps with the same entries are one. -/
@[ext] theorem ext {m m' : VecMap κ ν} (h : m.contents = m'.contents) : m = m' := by
  cases m
  cases m'
  cases h
  rfl

def keys (m : VecMap κ ν) : List κ := m.contents.map Prod.fst

variable [DecidableEq κ]

/-- The entries under other keys. -/
def without (m : VecMap κ ν) (ks : List κ) : VecMap κ ν where
  contents := m.contents.filter fun entry => entry.1 ∉ ks
  nodup := m.nodup.sublist (List.filter_sublist.map Prod.fst)

/-- `vec_map::remove` -/
def remove (m : VecMap κ ν) (k : κ) : Option (VecMap κ ν) :=
  if k ∈ m.keys then some (m.without [k]) else none

variable {m m' : VecMap κ ν} {k : κ} {ks : List κ}

theorem mem_keys_without : k ∈ (m.without ks).keys ↔ k ∈ m.keys ∧ k ∉ ks := by
  simp only [keys, without, List.mem_map, List.mem_filter, decide_eq_true_eq]
  constructor
  · rintro ⟨entry, ⟨hmem, hout⟩, rfl⟩
    exact ⟨⟨entry, hmem, rfl⟩, hout⟩
  · rintro ⟨⟨entry, hmem, rfl⟩, hout⟩
    exact ⟨entry, ⟨hmem, hout⟩, rfl⟩

@[simp] theorem without_nil : m.without [] = m := by
  ext1
  simp [without]

/-- Leaving keys out one after another is leaving them out. -/
theorem without_without (k : κ) (ks : List κ) :
    (m.without [k]).without ks = m.without (k :: ks) := by
  ext1
  simp only [without, List.filter_filter]
  refine List.filter_congr fun entry _ => ?_
  by_cases hkey : entry.1 = k <;> simp [hkey]

theorem remove_eq_some : m.remove k = some m' ↔ k ∈ m.keys ∧ m' = m.without [k] := by
  unfold remove
  split
  · rename_i hmem
    simp [hmem, eq_comm]
  · rename_i hmem
    simp [hmem]

/-- **A run of removals.** -/
theorem run_remove : Lts.run remove m ks = some m' ↔
    ks.Nodup ∧ (∀ k ∈ ks, k ∈ m.keys) ∧ m' = m.without ks := by
  induction ks generalizing m with
  | nil => simp [eq_comm]
  | cons k ks ih =>
    rw [Lts.run_cons, Option.bind_eq_some_iff]
    constructor
    · rintro ⟨next, hstep, hrest⟩
      obtain ⟨hmem, rfl⟩ := remove_eq_some.mp hstep
      obtain ⟨hnodup, hkeys, rfl⟩ := ih.mp hrest
      -- what was removed is not found again
      have hnew : k ∉ ks := fun hk => (mem_keys_without.mp (hkeys k hk)).2 (by simp)
      refine ⟨List.nodup_cons.mpr ⟨hnew, hnodup⟩, List.forall_mem_cons.mpr ⟨hmem, ?_⟩,
        without_without k ks⟩
      exact fun k' hk' => (mem_keys_without.mp (hkeys k' hk')).1
    · rintro ⟨hnodup, hkeys, rfl⟩
      obtain ⟨hnew, hrest⟩ := List.nodup_cons.mp hnodup
      obtain ⟨hmem, hothers⟩ := List.forall_mem_cons.mp hkeys
      refine ⟨m.without [k], remove_eq_some.mpr ⟨hmem, rfl⟩,
        ih.mpr ⟨hrest, fun k' hk' => ?_, (without_without k ks).symm⟩⟩
      have hne : k' ≠ k := fun heq => hnew (heq ▸ hk')
      exact mem_keys_without.mpr ⟨hothers k' hk', by simpa using hne⟩

/-- Whether it succeeds. -/
theorem exists_run_remove : (∃ m', Lts.run remove m ks = some m') ↔
    ks.Nodup ∧ ∀ k ∈ ks, k ∈ m.keys := by
  simp only [run_remove, exists_and_left, exists_eq, and_true]

/-! ## Looking up -/

/-- What is under a key. -/
def lookup (m : VecMap κ ν) (k : κ) : Option ν := Dict.get? m.contents k

/-- A map without entries. -/
def empty : VecMap κ ν := ⟨[], List.nodup_nil⟩

/-- Write an entry, in its place if there is one. -/
def set (m : VecMap κ ν) (k : κ) (v : ν) : VecMap κ ν where
  contents := Dict.set m.contents k v
  nodup := Dict.nodup_keys_alter m.nodup k fun _ => v

variable {v : ν}

theorem lookup_eq_none : m.lookup k = none ↔ k ∉ m.keys := Dict.get?_eq_none_iff

theorem mem_contents_iff : (k, v) ∈ m.contents ↔ m.lookup k = some v :=
  Dict.mem_iff_get? m.nodup

@[simp] theorem lookup_empty : (empty : VecMap κ ν).lookup k = none := rfl

theorem lookup_set (m : VecMap κ ν) (k : κ) (v : ν) :
    (m.set k v).lookup = Dict.write m.lookup k v :=
  funext fun k' => Dict.get?_alter m.contents k k' fun _ => v

theorem lookup_without :
    (m.without ks).lookup k = if k ∈ ks then none else m.lookup k := by
  split
  · rename_i hk
    exact lookup_eq_none.mpr fun hmem => (mem_keys_without.mp hmem).2 hk
  · rename_i hk
    refine Option.ext fun v => ?_
    rw [← mem_contents_iff, ← mem_contents_iff]
    simp [without, hk]

end VecMap

end Pytusk.Lib
