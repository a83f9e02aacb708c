import Pytusk.Lib.Dict

/-!
# The newest version under each key

A listing gathered page by page while its source moved on can hold several
versions of one thing, in any order. `newest` keeps the greatest version under
each key, the first of equal ones. If a version is one item, what it keeps
depends only on which items were listed.
-/

namespace Pytusk.Lib.Newest

variable {κ α : Type*} [DecidableEq κ] (key : α → κ) (version : α → Nat)

/-- One item: it replaces what is kept under its key if that is older. -/
def keep (d : Dict κ α) (x : α) : Dict κ α :=
  match Dict.get? d (key x) with
  | none => Dict.set d (key x) x
  | some y => if version y < version x then Dict.set d (key x) x else d

def newest (xs : List α) : Dict κ α := xs.foldl (keep key version) []

/-- Listed under the key, and nothing listed under it is newer. -/
structure IsNewest (xs : List α) (k : κ) (x : α) : Prop where
  mem : x ∈ xs
  key_eq : key x = k
  newest : ∀ y ∈ xs, key y = k → version y ≤ version x

/-- No two items are the same version of the same thing. -/
def Versioned (xs : List α) : Prop :=
  ∀ x ∈ xs, ∀ y ∈ xs, key x = key y → version x = version y → x = y

variable {key version}

theorem newest_snoc (xs : List α) (x : α) :
    newest key version (xs ++ [x]) = keep key version (newest key version xs) x := by
  simp [newest, List.foldl_append]

theorem get?_keep (d : Dict κ α) (x : α) (k : κ) :
    Dict.get? (keep key version d x) k =
      if key x = k ∧ (∀ y, Dict.get? d k = some y → version y < version x) then some x
      else Dict.get? d k := by
  unfold keep
  by_cases hk : key x = k
  · subst hk
    cases hget : Dict.get? d (key x) with
    | none => simp [Dict.set, Dict.get?_alter]
    | some y =>
      by_cases hlt : version y < version x
      · simp [Dict.set, Dict.get?_alter, hlt]
      · simp [hget, hlt]
  · have hset : Dict.get? (Dict.set d (key x) x) k = Dict.get? d k := by
      simp [Dict.set, Dict.get?_alter, hk]
    split
    · simp [hset, hk]
    · split <;> simp [hset, hk]

theorem keys_keep (d : Dict κ α) (x : α) :
    Dict.keys (keep key version d x) =
      if key x ∈ Dict.keys d then Dict.keys d else Dict.keys d ++ [key x] := by
  unfold keep
  split
  · rw [Dict.set, Dict.keys_alter]
  · rename_i y hget
    have hmem : key x ∈ Dict.keys d := by
      by_contra hnot
      rw [Dict.get?_eq_none_iff.mpr hnot] at hget
      cases hget
    rw [if_pos hmem]
    split
    · rw [Dict.set, Dict.keys_alter, if_pos hmem]
    · rfl

theorem nodup_keys_keep {d : Dict κ α} (h : (Dict.keys d).Nodup) (x : α) :
    (Dict.keys (keep key version d x)).Nodup := by
  rw [keys_keep]
  split
  · exact h
  · rename_i hx
    exact List.concat_eq_append ▸ h.concat hx

theorem nodup_keys_newest (xs : List α) : (Dict.keys (newest key version xs)).Nodup := by
  induction xs using List.reverseRecOn with
  | nil => exact List.nodup_nil
  | append_singleton xs x ih =>
    rw [newest_snoc]
    exact nodup_keys_keep ih x

theorem mem_keys_newest {xs : List α} {k : κ} :
    k ∈ Dict.keys (newest key version xs) ↔ k ∈ xs.map key := by
  induction xs using List.reverseRecOn with
  | nil => simp [newest, Dict.keys]
  | append_singleton xs x ih =>
    rw [newest_snoc, keys_keep, List.map_append, List.mem_append]
    split
    · rename_i hx
      constructor
      · exact fun h => .inl (ih.mp h)
      · rintro (h | h)
        · exact ih.mpr h
        · rw [List.map_singleton, List.mem_singleton] at h
          exact h ▸ hx
    · rw [List.mem_append, ih, List.map_singleton]

/-- **What is kept is the newest.** -/
theorem isNewest_of_get? {xs : List α} {k : κ} {x : α}
    (h : Dict.get? (newest key version xs) k = some x) : IsNewest key version xs k x := by
  induction xs using List.reverseRecOn generalizing x with
  | nil => cases h
  | append_singleton xs last ih =>
    rw [newest_snoc, get?_keep] at h
    split at h
    · rename_i hlast
      cases h
      refine ⟨by simp, hlast.1, fun y hy hkey => ?_⟩
      rcases List.mem_append.mp hy with hy | hy
      · obtain ⟨kept, hkept⟩ : ∃ kept, Dict.get? (newest key version xs) k = some kept := by
          cases hget : Dict.get? (newest key version xs) k with
          | some kept => exact ⟨kept, rfl⟩
          | none =>
            refine absurd ?_ (Dict.get?_eq_none_iff.mp hget)
            exact mem_keys_newest.mpr (List.mem_map.mpr ⟨y, hy, hkey⟩)
        exact Nat.le_trans ((ih hkept).newest y hy hkey)
          (Nat.le_of_lt (hlast.2 kept hkept))
      · exact Nat.le_of_eq (congrArg version (List.mem_singleton.mp hy))
    · rename_i hlast
      obtain ⟨hmem, hkey, hnewest⟩ := ih h
      refine ⟨List.mem_append_left _ hmem, hkey, fun y hy hy' => ?_⟩
      rcases List.mem_append.mp hy with hy | hy
      · exact hnewest y hy hy'
      · obtain rfl := List.mem_singleton.mp hy
        by_contra hlt
        refine hlast ⟨hy', fun kept hkept => ?_⟩
        obtain rfl := Option.some.inj (h.symm.trans hkept)
        omega

theorem exists_get?_newest {xs : List α} {x : α} (hx : x ∈ xs) :
    ∃ y, Dict.get? (newest key version xs) (key x) = some y := by
  cases hget : Dict.get? (newest key version xs) (key x) with
  | some y => exact ⟨y, rfl⟩
  | none =>
    refine absurd ?_ (Dict.get?_eq_none_iff.mp hget)
    exact mem_keys_newest.mpr (List.mem_map.mpr ⟨x, hx, rfl⟩)

theorem get?_newest_eq_some {xs : List α} (hversioned : Versioned key version xs) {k : κ} {x : α} :
    Dict.get? (newest key version xs) k = some x ↔ IsNewest key version xs k x := by
  refine ⟨isNewest_of_get?, fun h => ?_⟩
  obtain ⟨hmem, rfl, hnewest⟩ := h
  obtain ⟨y, hy⟩ : ∃ y, Dict.get? (newest key version xs) (key x) = some y :=
    exists_get?_newest hmem
  obtain ⟨hmem', hkey, hnewest'⟩ := isNewest_of_get? hy
  have hsame := hversioned y hmem' x hmem hkey
    (Nat.le_antisymm (hnewest y hmem' hkey) (hnewest' x hmem rfl))
  rw [hy, hsame]

/-- **Only the items count**, not their order nor how often they are listed. -/
theorem get?_newest_congr {xs ys : List α} (hversioned : Versioned key version xs)
    (h : ∀ x, x ∈ xs ↔ x ∈ ys) (k : κ) :
    Dict.get? (newest key version xs) k = Dict.get? (newest key version ys) k := by
  have hversioned' : Versioned key version ys := fun x hx y hy =>
    hversioned x ((h x).mpr hx) y ((h y).mpr hy)
  apply Option.ext
  intro x
  rw [get?_newest_eq_some hversioned, get?_newest_eq_some hversioned']
  constructor
  · rintro ⟨hmem, hkey, hnewest⟩
    exact ⟨(h x).mp hmem, hkey, fun y hy => hnewest y ((h y).mpr hy)⟩
  · rintro ⟨hmem, hkey, hnewest⟩
    exact ⟨(h x).mpr hmem, hkey, fun y hy => hnewest y ((h y).mp hy)⟩

end Pytusk.Lib.Newest
