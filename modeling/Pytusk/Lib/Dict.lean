import Mathlib.Data.List.Induction
import Mathlib.Data.List.Perm.Basic
import Mathlib.Data.List.Nodup

/-!
# Insertion-ordered dictionaries

A dictionary is the list of its items in insertion order, as iteration
yields them: writing a present key keeps its place, a new key goes last.
`alter` is the one primitive update; `groupFold` is the common loop that
accumulates a value under each key it meets.
-/

namespace Pytusk.Lib

/-- The items of a dictionary, in insertion order. -/
abbrev Dict (κ ν : Type*) := List (κ × ν)

namespace Dict

variable {κ ν α : Type*}

/-- The keys, in insertion order. -/
def keys (d : Dict κ ν) : List κ := d.map Prod.fst

section Lookup

variable [DecidableEq κ]

/-- `d.get(k)` -/
def get? : Dict κ ν → κ → Option ν
  | [], _ => none
  | (k', v) :: rest, k => if k' = k then some v else get? rest k

/-- `d[k] = f(d.get(k))` -/
def alter (k : κ) (f : Option ν → ν) : Dict κ ν → Dict κ ν
  | [] => [(k, f none)]
  | (k', v) :: rest =>
      if k' = k then (k', f (some v)) :: rest else (k', v) :: alter k f rest

/-- `d[k] = v` -/
def set (d : Dict κ ν) (k : κ) (v : ν) : Dict κ ν := alter k (fun _ => v) d

theorem get?_alter (d : Dict κ ν) (k k' : κ) (f : Option ν → ν) :
    get? (alter k f d) k' = if k = k' then some (f (get? d k)) else get? d k' := by
  induction d with
  | nil => by_cases h : k = k' <;> simp [alter, get?, h]
  | cons item rest ih =>
    obtain ⟨key, v⟩ := item
    by_cases hk : key = k
    · subst hk
      by_cases h : key = k' <;> simp [alter, get?, h]
    · simp only [alter, hk, if_false, get?, ih]
      by_cases h : key = k'
      · have hne : ¬ k = k' := fun e => hk (h.trans e.symm)
        simp [h, hne]
      · simp [h]

theorem keys_alter (d : Dict κ ν) (k : κ) (f : Option ν → ν) :
    keys (alter k f d) = if k ∈ keys d then keys d else keys d ++ [k] := by
  induction d with
  | nil => simp [alter, keys]
  | cons item rest ih =>
    obtain ⟨key, v⟩ := item
    simp only [keys] at ih
    by_cases hk : key = k
    · simp [alter, keys, hk]
    · have hne : ¬ k = key := fun e => hk e.symm
      simp only [alter, hk, if_false, keys, List.map_cons, List.mem_cons, hne,
        false_or, ih]
      by_cases hmem : k ∈ rest.map Prod.fst <;> simp [hmem]

theorem nodup_keys_alter {d : Dict κ ν} (h : (keys d).Nodup) (k : κ)
    (f : Option ν → ν) : (keys (alter k f d)).Nodup := by
  rw [keys_alter]
  split
  · exact h
  · rename_i hk
    rw [← List.concat_eq_append]
    exact h.concat hk

theorem get?_eq_none_iff {d : Dict κ ν} {k : κ} : get? d k = none ↔ k ∉ keys d := by
  induction d with
  | nil => simp [get?, keys]
  | cons item rest ih =>
    obtain ⟨key, v⟩ := item
    by_cases hk : key = k
    · simp [get?, keys, hk]
    · have hne : ¬ k = key := fun e => hk e.symm
      simp only [keys] at ih
      simp [get?, keys, hk, hne, ih]

theorem mem_of_get? {d : Dict κ ν} {k : κ} {v : ν} (h : get? d k = some v) :
    (k, v) ∈ d := by
  induction d with
  | nil => simp [get?] at h
  | cons item rest ih =>
    obtain ⟨key, w⟩ := item
    by_cases hk : key = k
    · simp only [get?, hk, if_true, Option.some.injEq] at h
      simp [hk, h]
    · simp only [get?, hk, if_false] at h
      exact List.mem_cons_of_mem _ (ih h)

/-- With distinct keys, looking a key up and finding its item agree. -/
theorem mem_iff_get? {d : Dict κ ν} (hnodup : (keys d).Nodup) {k : κ} {v : ν} :
    (k, v) ∈ d ↔ get? d k = some v := by
  refine ⟨fun h => ?_, mem_of_get?⟩
  induction d with
  | nil => simp at h
  | cons item rest ih =>
    obtain ⟨key, w⟩ := item
    obtain ⟨hkey, hrest⟩ := List.nodup_cons.mp hnodup
    rcases List.mem_cons.mp h with heq | hmem
    · obtain ⟨rfl, rfl⟩ := Prod.mk.inj heq
      simp [get?]
    · have hne : key ≠ k := by
        rintro rfl
        exact hkey (List.mem_map.mpr ⟨(key, v), hmem, rfl⟩)
      simp only [get?, hne, if_false]
      exact ih hrest hmem

/-- Dictionaries that look the same are of one size. -/
theorem length_eq_of_get? {d d' : Dict κ ν} (h : (keys d).Nodup) (h' : (keys d').Nodup)
    (hsame : ∀ k, get? d k = get? d' k) : d.length = d'.length := by
  have hkeys : ∀ k, k ∈ keys d ↔ k ∈ keys d' := by
    intro k
    rw [← not_iff_not, ← get?_eq_none_iff, ← get?_eq_none_iff, hsame]
  have hperm := (List.perm_ext_iff_of_nodup h h').mpr hkeys
  simpa [keys] using hperm.length_eq

end Lookup

/-! ## Indexing by a key -/

section FromItems

variable [DecidableEq κ] (key : α → κ) (value : α → ν)

/-- `{key(x): value(x) for x in xs}`: of two items under one key, the later
wins. -/
def fromItems (xs : List α) : Dict κ ν :=
  xs.foldl (fun d x => set d (key x) (value x)) []

variable {key value}

theorem fromItems_snoc (xs : List α) (x : α) :
    fromItems key value (xs ++ [x]) = set (fromItems key value xs) (key x) (value x) := by
  simp [fromItems, List.foldl_append]

/-- What is found under a key was put there by an item. -/
theorem exists_of_get?_fromItems {xs : List α} {k : κ} {v : ν}
    (h : get? (fromItems key value xs) k = some v) :
    ∃ x ∈ xs, key x = k ∧ value x = v := by
  induction xs using List.reverseRecOn with
  | nil => cases h
  | append_singleton xs last ih =>
    rw [fromItems_snoc, set, get?_alter] at h
    split at h
    · rename_i hkey
      cases h
      exact ⟨last, by simp, hkey, rfl⟩
    · obtain ⟨x, hx, hkey, hval⟩ := ih h
      exact ⟨x, List.mem_append_left _ hx, hkey, hval⟩

/-- Every item's key is found. -/
theorem exists_get?_fromItems {xs : List α} {x : α} (hx : x ∈ xs) :
    ∃ v, get? (fromItems key value xs) (key x) = some v := by
  induction xs using List.reverseRecOn with
  | nil => cases hx
  | append_singleton xs last ih =>
    rw [fromItems_snoc, set, get?_alter]
    split
    · exact ⟨_, rfl⟩
    · rename_i hne
      rcases List.mem_append.mp hx with h | h
      · exact ih h
      · rw [List.mem_singleton.mp h] at hne
        exact absurd rfl hne

/-- The keys are the items' keys, each once. -/
theorem nodup_keys_fromItems (xs : List α) : (keys (fromItems key value xs)).Nodup := by
  induction xs using List.reverseRecOn with
  | nil => exact List.nodup_nil
  | append_singleton xs last ih =>
    rw [fromItems_snoc]
    exact nodup_keys_alter ih _ _

theorem mem_keys_fromItems {xs : List α} {k : κ} :
    k ∈ keys (fromItems key value xs) ↔ k ∈ xs.map key := by
  constructor
  · intro h
    cases hget : get? (fromItems key value xs) k with
    | none => exact absurd h (get?_eq_none_iff.mp hget)
    | some v =>
      obtain ⟨x, hx, hkey, -⟩ := exists_of_get?_fromItems hget
      exact List.mem_map.mpr ⟨x, hx, hkey⟩
  · intro h
    obtain ⟨x, hx, rfl⟩ := List.mem_map.mp h
    obtain ⟨v, hv⟩ : ∃ v, get? (fromItems key value xs) (key x) = some v :=
      exists_get?_fromItems hx
    by_contra hnot
    exact nomatch hv.symm.trans (get?_eq_none_iff.mpr hnot)

end FromItems

/-! ## Writing into a partial map -/

section Writing

variable [DecidableEq κ] {key : α → κ} {value : α → ν}

/-- A partial map, written at one key. -/
def write (f : κ → Option ν) (k : κ) (v : ν) : κ → Option ν :=
  fun k' => if k = k' then some v else f k'

/-- What is found after writing the items of a dictionary. -/
theorem foldl_write_eq (f : κ → Option ν) {d : Dict κ ν} (h : (keys d).Nodup) (k : κ) :
    d.foldl (fun f item => write f item.1 item.2) f k = (get? d k).or (f k) := by
  induction d generalizing f with
  | nil => rfl
  | cons item rest ih =>
    obtain ⟨hfirst, hrest⟩ := List.nodup_cons.mp h
    rw [List.foldl_cons, ih _ hrest, get?, write]
    split
    · rename_i heq
      subst heq
      rw [get?_eq_none_iff.mpr hfirst]
      rfl
    · rfl

/-- Of the items of a list under one key, the last one is found. -/
theorem foldl_write_fromItems (f : κ → Option ν) (xs : List α) (k : κ) :
    xs.foldl (fun f x => write f (key x) (value x)) f k =
      (get? (fromItems key value xs) k).or (f k) := by
  induction xs using List.reverseRecOn with
  | nil => rfl
  | append_singleton xs x ih =>
    rw [List.foldl_append, List.foldl_cons, List.foldl_nil, fromItems_snoc, set, get?_alter,
      write]
    split
    · rfl
    · exact ih

end Writing

/-! ## Accumulating under keys -/

section GroupFold

variable [DecidableEq κ] (g : ν → α → ν) (e : ν)

/-- The loop `for k, x in xs: d[k] = g(d.get(k, e), x)`. -/
def groupFold (xs : List (κ × α)) : Dict κ ν :=
  xs.foldl (fun d x => alter x.1 (fun o => g (o.getD e) x.2) d) []

/-- What was met under a key, in order. -/
def under (k : κ) (xs : List (κ × α)) : List α :=
  xs.filterMap fun x => if x.1 = k then some x.2 else none

variable {g e}

theorem groupFold_snoc (xs : List (κ × α)) (k : κ) (x : α) :
    groupFold g e (xs ++ [(k, x)]) =
      alter k (fun o => g (o.getD e) x) (groupFold g e xs) := by
  simp [groupFold, List.foldl_append]

theorem under_snoc (xs : List (κ × α)) (k k' : κ) (x : α) :
    under k (xs ++ [(k', x)]) = under k xs ++ if k' = k then [x] else [] := by
  simp only [under, List.filterMap_append, List.filterMap_cons, List.filterMap_nil]
  split <;> simp_all

/-- A key is present exactly when it was met, with the fold of what was met
under it. -/
theorem get?_groupFold (xs : List (κ × α)) (k : κ) :
    get? (groupFold g e xs) k =
      if k ∈ xs.map Prod.fst then some ((under k xs).foldl g e) else none := by
  induction xs using List.reverseRecOn with
  | nil => rfl
  | append_singleton xs x ih =>
    obtain ⟨key, a⟩ := x
    rw [groupFold_snoc, get?_alter, under_snoc]
    by_cases hk : key = k
    · subst hk
      by_cases hmem : key ∈ xs.map Prod.fst
      · simp [ih, hmem, List.foldl_append]
      · have hempty : under key xs = [] := by
          simp only [under, List.filterMap_eq_nil_iff]
          intro y hy
          have : y.1 ≠ key := fun e => hmem (e ▸ List.mem_map_of_mem hy)
          simp [this]
        simp [ih, hmem, hempty]
    · have hne : ¬ k = key := fun e => hk e.symm
      have hmem : k ∈ (xs ++ [(key, a)]).map Prod.fst ↔ k ∈ xs.map Prod.fst := by
        rw [List.map_append, List.mem_append]
        simp [hne]
      simp only [hk, if_false, List.append_nil, ih, hmem]

theorem mem_keys_groupFold {xs : List (κ × α)} {k : κ} :
    k ∈ keys (groupFold g e xs) ↔ k ∈ xs.map Prod.fst := by
  have hget := get?_groupFold (g := g) (e := e) xs k
  by_cases hk : k ∈ xs.map Prod.fst
  · rw [if_pos hk] at hget
    refine iff_of_true ?_ hk
    by_contra hnot
    rw [get?_eq_none_iff.mpr hnot] at hget
    cases hget
  · rw [if_neg hk] at hget
    exact iff_of_false (get?_eq_none_iff.mp hget) hk

/-- The keys stand in the order in which they were first met. -/
theorem exists_first_of_keys_groupFold {xs : List (κ × α)} {prior later : List κ} {k : κ}
    (h : keys (groupFold g e xs) = prior ++ k :: later) :
    ∃ before x after, xs = before ++ (k, x) :: after ∧ ∀ y ∈ before, y.1 ∈ prior := by
  induction xs using List.reverseRecOn generalizing later with
  | nil =>
    have hnil : [] = prior ++ k :: later := h
    simp at hnil
  | append_singleton xs last ih =>
    have hlonger : ∀ later', keys (groupFold g e xs) = prior ++ k :: later' →
        ∃ before x after, xs ++ [last] = before ++ (k, x) :: after ∧
          ∀ y ∈ before, y.1 ∈ prior := by
      intro later' h'
      obtain ⟨before, x, after, rfl, hbefore⟩ := ih h'
      exact ⟨before, x, after ++ [last], by simp, hbefore⟩
    rw [groupFold_snoc, keys_alter] at h
    split at h
    · exact hlonger later h
    · rcases List.eq_nil_or_concat later with rfl | ⟨later', key, rfl⟩
      · -- it is met for the first time
        obtain ⟨hkeys, hlast⟩ := List.append_inj' h rfl
        obtain rfl : last.1 = k := List.singleton_inj.mp hlast
        refine ⟨xs, last.2, [], rfl, fun y hy => ?_⟩
        rw [← hkeys, mem_keys_groupFold]
        exact List.mem_map_of_mem hy
      · rw [List.concat_eq_append, ← List.cons_append, ← List.append_assoc] at h
        exact hlonger later' (List.append_inj' h rfl).1

theorem nodup_keys_groupFold (xs : List (κ × α)) :
    (keys (groupFold g e xs)).Nodup := by
  induction xs using List.reverseRecOn with
  | nil => simp [groupFold, keys]
  | append_singleton xs x ih => rw [groupFold_snoc]; exact nodup_keys_alter ih _ _

end GroupFold

/-- Collecting lists under keys loses nothing and invents nothing. -/
theorem flatMap_alter_append [DecidableEq κ] (d : Dict κ (List α)) (k : κ) (x : α) :
    ((alter k (fun o => o.getD [] ++ [x]) d).flatMap Prod.snd).Perm
      (d.flatMap Prod.snd ++ [x]) := by
  induction d with
  | nil => simp [alter]
  | cons item rest ih =>
    obtain ⟨key, l⟩ := item
    by_cases hk : key = k
    · simp only [alter, hk, if_true, List.flatMap_cons, Option.getD_some,
        List.append_assoc]
      exact List.perm_append_comm.append_left l
    · simp only [alter, hk, if_false, List.flatMap_cons, List.append_assoc]
      exact ih.append_left l

theorem flatMap_groupFold_append [DecidableEq κ] (xs : List (κ × α)) :
    ((groupFold (fun l x => l ++ [x]) [] xs).flatMap Prod.snd).Perm
      (xs.map Prod.snd) := by
  induction xs using List.reverseRecOn with
  | nil => simp [groupFold]
  | append_singleton xs x ih =>
    obtain ⟨key, a⟩ := x
    rw [groupFold_snoc, List.map_append]
    exact (flatMap_alter_append _ _ _).trans (ih.append_right [a])

/-- What is collected is what is under one key and what is under the others. -/
theorem flatMap_split [DecidableEq κ] {d : Dict κ (List α)} (h : (keys d).Nodup)
    (k : κ) :
    (d.flatMap Prod.snd).Perm
      ((get? d k).getD [] ++ d.flatMap fun item => if item.1 = k then [] else item.2) := by
  induction d with
  | nil => simp [get?]
  | cons item rest ih =>
    obtain ⟨key, l⟩ := item
    obtain ⟨hkey, hrest⟩ := List.nodup_cons.mp h
    by_cases hk : key = k
    · subst hk
      have hothers : rest.flatMap (fun item => if item.1 = key then [] else item.2) =
          rest.flatMap Prod.snd := by
        apply List.flatMap_congr
        intro item hitem
        have hne : item.1 ≠ key := fun e => hkey (List.mem_map.mpr ⟨item, hitem, e⟩)
        simp [hne]
      simp [get?, hothers]
    · simp only [List.flatMap_cons, get?, hk, if_false]
      exact ((ih hrest).append_left l).trans (List.perm_append_comm_assoc _ _ _)

end Dict

end Pytusk.Lib
