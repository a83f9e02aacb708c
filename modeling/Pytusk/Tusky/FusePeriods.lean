import Pytusk.Ops.StorageLedger
import Pytusk.Tusky.StorageCommands
import Mathlib.Tactic.Ring

/-!
# Folding by periods

`Folds` is what holds between any two spokes of a chain: the calls emitted so
far run on the ledger, every one of them by periods, the survivor is what the
ledger then has under the hub's id, and capacity is neither lost nor gained.
One spoke preserves it, so a pass does and the whole loop.
-/

namespace Pytusk.Tusky

open Pytusk.Lib Pytusk.Ops Pytusk.StorageLedger

/-- What an object is worth: its size in each of its epochs. -/
def volume (storage : StorageObject) : Int :=
  storage.storageSize * (storage.endEpoch - storage.startEpoch)

def totalVolume (storages : List StorageObject) : Int := (storages.map volume).sum

/-- The spoke can be folded in by periods. -/
def Foldable (survivor spoke : StorageObject) : Prop :=
  survivor.startEpoch ≠ spoke.startEpoch ∧ fusePeriodsIncompatibility survivor spoke = none

/-! ## One fold -/

section Fold

variable {first second : StorageObject}

/-- Two ranges that touch, one before the other. -/
theorem Foldable.touches (h : Foldable first second) :
    first.storageSize = second.storageSize ∧
      (first.endEpoch = second.startEpoch ∨ first.startEpoch = second.endEpoch) :=
  fusePeriodsIncompatibility_eq_none.mp h.2

theorem fuseChainState_objectId (first second : StorageObject) :
    (fuseChainState first second).objectId = first.objectId := by
  unfold fuseChainState
  split <;> rfl

/-- The local state is what Move makes of the object. -/
theorem fusedByPeriods_eq (h : Foldable first second)
    (hfirst : first.startEpoch < first.endEpoch)
    (hsecond : second.startEpoch < second.endEpoch) :
    fusedByPeriods first second = some (fuseChainState first second) := by
  obtain ⟨hsize, hrange⟩ := h.touches
  rw [fusedByPeriods, route, if_neg h.1]
  dsimp only
  rw [fusePeriods, if_neg (not_not.mpr hsize), fuseChainState, if_neg h.1]
  by_cases hafter : first.endEpoch = second.startEpoch
  · rw [if_pos hafter, min_eq_left (by omega), max_eq_right (by omega)]
  · have hbefore := hrange.resolve_left hafter
    rw [if_neg hafter, if_pos hbefore, min_eq_right (by omega), max_eq_left (by omega)]

/-- Move refuses what cannot be folded in. -/
theorem fusedByPeriods_eq_none (h : ¬ Foldable first second) :
    fusedByPeriods first second = none := by
  rw [fusedByPeriods, route]
  by_cases hstart : first.startEpoch = second.startEpoch
  · rw [if_pos hstart]
  · rw [if_neg hstart]
    dsimp only
    by_cases hsize : first.storageSize = second.storageSize
    · have hrange : ¬ (first.endEpoch = second.startEpoch ∨
          first.startEpoch = second.endEpoch) := fun hrange =>
        h ⟨hstart, fusePeriodsIncompatibility_eq_none.mpr ⟨hsize, hrange⟩⟩
      obtain ⟨hafter, hbefore⟩ := not_or.mp hrange
      rw [fusePeriods, if_neg (not_not.mpr hsize), if_neg hafter, if_neg hbefore]
    · rw [fusePeriods, if_pos hsize]

theorem fuseChainState_range (second : StorageObject)
    (hfirst : first.startEpoch < first.endEpoch) :
    (fuseChainState first second).startEpoch < (fuseChainState first second).endEpoch := by
  unfold fuseChainState
  split
  · exact hfirst
  · exact lt_of_le_of_lt (min_le_left _ _) (lt_of_lt_of_le hfirst (le_max_left _ _))

/-- Joining two ranges of one size keeps what they are worth together. -/
theorem volume_fuseChainState (h : Foldable first second)
    (hfirst : first.startEpoch < first.endEpoch)
    (hsecond : second.startEpoch < second.endEpoch) :
    volume (fuseChainState first second) = volume first + volume second := by
  obtain ⟨hsize, hrange⟩ := h.touches
  rw [fuseChainState, if_neg h.1]
  unfold volume
  dsimp only
  rw [← hsize, ← mul_add]
  congr 1
  rcases hrange with hafter | hbefore
  · rw [min_eq_left (by omega), max_eq_right (by omega)]
    omega
  · rw [min_eq_right (by omega), max_eq_left (by omega)]
    omega

end Fold

/-! ## Between two spokes -/

variable (ledger : Ledger) (hub : StorageObject) (spokes : List StorageObject)

/-- The calls emitted so far, with the survivor and the spokes not folded in. -/
structure Folds (survivor : StorageObject) (pairs : List (String × String))
    (kept : List StorageObject) : Prop where
  runs : ∃ ledger', Lts.run fuseByPeriods ledger pairs = some ledger' ∧
    ledger' hub.objectId = some survivor ∧
    ∀ spoke ∈ kept, ledger' spoke.objectId = some spoke
  objectId : survivor.objectId = hub.objectId
  range : survivor.startEpoch < survivor.endEpoch
  into : ∀ pair ∈ pairs, pair.1 = hub.objectId
  shared : (pairs.map Prod.snd ++ kept.map (·.objectId)).Perm (spokes.map (·.objectId))
  sublist : kept.Sublist spokes
  worth : volume survivor + totalVolume kept = totalVolume (hub :: spokes)

variable {ledger hub spokes} {survivor : StorageObject} {pairs : List (String × String)}
  {before after : List StorageObject} {spoke : StorageObject}

theorem folds_start (hledger : ∀ s ∈ hub :: spokes, ledger s.objectId = some s)
    (hrange : hub.startEpoch < hub.endEpoch) : Folds ledger hub spokes hub [] spokes where
  runs := ⟨ledger, rfl, hledger hub List.mem_cons_self,
    fun spoke hspoke => hledger spoke (List.mem_cons_of_mem hub hspoke)⟩
  objectId := rfl
  range := hrange
  into := by simp
  shared := .refl _
  sublist := .refl _
  worth := rfl

/-- The step lemma: a spoke is folded in. -/
theorem Folds.fold (h : Folds ledger hub spokes survivor pairs (before ++ spoke :: after))
    (hnodup : ((hub :: spokes).map (·.objectId)).Nodup)
    (hranges : ∀ s ∈ spokes, s.startEpoch < s.endEpoch) (hfoldable : Foldable survivor spoke) :
    Folds ledger hub spokes (fuseChainState survivor spoke)
      (pairs ++ [(survivor.objectId, spoke.objectId)]) (before ++ after) := by
  have hsub : (before ++ after).Sublist (before ++ spoke :: after) :=
    (List.sublist_cons_self spoke after).append_left before
  have hmem : spoke ∈ spokes := h.sublist.subset (by simp)
  have hrange := hranges spoke hmem
  obtain ⟨hhub, hspokes⟩ := List.nodup_cons.mp hnodup
  have hhubs : ∀ s ∈ spokes, s.objectId ≠ hub.objectId := fun s hs heq =>
    hhub (List.mem_map.mpr ⟨s, hs, heq⟩)
  -- the ids of the other spokes are not this one's
  have hothers : ∀ s ∈ before ++ after, s.objectId ≠ spoke.objectId := by
    have hkept : ((before ++ spoke :: after).map (·.objectId)).Nodup :=
      hspokes.sublist (h.sublist.map _)
    rw [List.map_append, List.map_cons, List.nodup_middle, List.nodup_cons,
      ← List.map_append] at hkept
    exact fun s hs heq => hkept.1 (List.mem_map.mpr ⟨s, hs, heq⟩)
  obtain ⟨middle, hrun, hsurvivor, hremaining⟩ := h.runs
  constructor
  case runs =>
    refine ⟨_, Lts.run_snoc_eq_some.mpr ⟨middle, hrun, apply_eq_some.mpr ⟨?_, survivor, spoke,
      _, ?_, hremaining spoke (by simp), fusedByPeriods_eq hfoldable h.range hrange, rfl⟩⟩,
      ?_, ?_⟩
    · rw [h.objectId]
      exact (hhubs spoke hmem).symm
    · rw [h.objectId]
      exact hsurvivor
    · rw [h.objectId, Function.update_self]
    · intro s hs
      have hhubne : s.objectId ≠ survivor.objectId := by
        rw [h.objectId]
        exact hhubs s (h.sublist.subset (hsub.subset hs))
      rw [Function.update_of_ne hhubne, Function.update_of_ne (hothers s hs)]
      exact hremaining s (hsub.subset hs)
  case objectId => rw [fuseChainState_objectId, h.objectId]
  case range => exact fuseChainState_range spoke h.range
  case into =>
    intro pair hpair
    rcases List.mem_append.mp hpair with hold | hnew
    · exact h.into pair hold
    · rw [List.mem_singleton.mp hnew]
      exact h.objectId
  case shared =>
    refine List.Perm.trans ?_ h.shared
    simp only [List.map_append, List.map_cons, List.map_nil, List.append_assoc,
      List.singleton_append]
    exact List.perm_middle.symm.append_left _
  case sublist => exact hsub.trans h.sublist
  case worth =>
    rw [← h.worth, volume_fuseChainState hfoldable h.range hrange]
    unfold totalVolume
    simp only [List.map_append, List.map_cons, List.sum_append, List.sum_cons]
    ring

/-! ## A pass -/

section Pass

variable {c : Folding} {todo : List StorageObject}

theorem Folding.fold_of_foldable (h : Foldable c.survivor spoke) :
    c.fold spoke = { c with
      pairs := c.pairs ++ [(c.survivor.objectId, spoke.objectId)]
      survivor := fuseChainState c.survivor spoke
      progress := true } := by
  rw [Folding.fold, if_neg h.1, if_pos h.2]

theorem Folding.fold_of_not_foldable (h : ¬ Foldable c.survivor spoke) :
    c.fold spoke = { c with remaining := c.remaining ++ [spoke] } := by
  unfold Folding.fold
  split
  · rfl
  · rename_i hstart
    rw [if_neg fun hfuse => h ⟨hstart, hfuse⟩]

/-- Until the pass is over, what is left is what was kept and what is to come. -/
theorem Folds.foldl (h : Folds ledger hub spokes c.survivor c.pairs (c.remaining ++ todo))
    (hnodup : ((hub :: spokes).map (·.objectId)).Nodup)
    (hranges : ∀ s ∈ spokes, s.startEpoch < s.endEpoch) :
    Folds ledger hub spokes (todo.foldl Folding.fold c).survivor
      (todo.foldl Folding.fold c).pairs (todo.foldl Folding.fold c).remaining := by
  induction todo generalizing c with
  | nil => rwa [List.append_nil] at h
  | cons spoke todo ih =>
    rw [List.foldl_cons]
    refine ih ?_
    by_cases hfoldable : Foldable c.survivor spoke
    · rw [Folding.fold_of_foldable hfoldable]
      exact h.fold hnodup hranges hfoldable
    · rw [Folding.fold_of_not_foldable hfoldable]
      simpa using h

theorem Folds.pass (h : Folds ledger hub spokes c.survivor c.pairs c.remaining)
    (hnodup : ((hub :: spokes).map (·.objectId)).Nodup)
    (hranges : ∀ s ∈ spokes, s.startEpoch < s.endEpoch) :
    Folds ledger hub spokes c.pass.survivor c.pass.pairs c.pass.remaining :=
  Folds.foldl (c := { c with remaining := [], progress := false }) h hnodup hranges

/-- A pass in which nothing was folded in changed nothing, and it tried every
spoke. -/
theorem Folding.foldl_idle (h : (todo.foldl Folding.fold c).progress = false) :
    todo.foldl Folding.fold c = { c with remaining := c.remaining ++ todo } ∧
      ∀ spoke ∈ todo, ¬ Foldable c.survivor spoke := by
  induction todo using List.reverseRecOn with
  | nil => simp
  | append_singleton todo spoke ih =>
    rw [List.foldl_append, List.foldl_cons, List.foldl_nil] at h ⊢
    by_cases hfoldable : Foldable (todo.foldl Folding.fold c).survivor spoke
    · rw [Folding.fold_of_foldable hfoldable] at h
      cases h
    · rw [Folding.fold_of_not_foldable hfoldable] at h ⊢
      obtain ⟨hstate, hnone⟩ := ih h
      rw [hstate] at hfoldable ⊢
      refine ⟨by rw [List.append_assoc], fun s hs => ?_⟩
      rcases List.mem_append.mp hs with hold | hlast
      · exact hnone s hold
      · rw [List.mem_singleton.mp hlast]
        exact hfoldable

theorem Folding.pass_idle (h : c.pass.progress = false) :
    c.pass = { c with progress := false } ∧ ∀ spoke ∈ c.remaining, ¬ Foldable c.survivor spoke :=
  Folding.foldl_idle h

theorem Folding.length_foldl_le (c : Folding) (todo : List StorageObject) :
    (todo.foldl Folding.fold c).remaining.length + (todo.foldl Folding.fold c).progress.toNat ≤
      c.remaining.length + c.progress.toNat + todo.length := by
  induction todo generalizing c with
  | nil => simp
  | cons spoke todo ih =>
    rw [List.foldl_cons]
    refine (ih _).trans ?_
    by_cases hfoldable : Foldable c.survivor spoke
    · rw [Folding.fold_of_foldable hfoldable]
      simp only [List.length_cons, Bool.toNat_true]
      omega
    · rw [Folding.fold_of_not_foldable hfoldable]
      simp only [List.length_append, List.length_cons, List.length_nil]
      omega

end Pass

/-! ## The loop -/

section Loop

/-- What every pass lowers: a spoke is gone, or the last pass is over. -/
def Folding.left (c : Folding) : Nat := c.remaining.length + c.progress.toNat

theorem Folding.goesOn_iff {c : Folding} :
    c.goesOn = true ↔ c.remaining ≠ [] ∧ c.progress = true := by
  simp [Folding.goesOn]

theorem Folding.left_pass_lt {c : Folding} (h : c.goesOn = true) : c.pass.left < c.left := by
  have hle := Folding.length_foldl_le { c with remaining := [], progress := false } c.remaining
  have hprogress := (Folding.goesOn_iff.mp h).2
  unfold Folding.left
  rw [hprogress]
  simp only [List.length_nil, Bool.toNat_false, Bool.toNat_true] at hle ⊢
  exact Nat.lt_succ_of_le (hle.trans (by omega))

theorem whileEnds_foldAll (hub : StorageObject) (spokes : List StorageObject) :
    WhileEnds Folding.goesOn Folding.pass (Folding.start hub spokes) (foldAll hub spokes) :=
  whileEnds_whileRun Folding.left (fun _ h => Folding.left_pass_lt h) (by
    simp [Folding.left, Folding.start])

theorem folds_foldAll (hledger : ∀ s ∈ hub :: spokes, ledger s.objectId = some s)
    (hnodup : ((hub :: spokes).map (·.objectId)).Nodup)
    (hranges : ∀ s ∈ hub :: spokes, s.startEpoch < s.endEpoch) :
    Folds ledger hub spokes (foldAll hub spokes).survivor (foldAll hub spokes).pairs
      (foldAll hub spokes).remaining := by
  obtain ⟨hhub, hspokes⟩ := List.forall_mem_cons.mp hranges
  exact ((whileEnds_foldAll hub spokes).invariant
    (P := fun c => Folds ledger hub spokes c.survivor c.pairs c.remaining)
    (folds_start hledger hhub) fun c _ h => h.pass hnodup hspokes).2

/-- The loop stops where nothing more can be folded in. -/
theorem not_foldable_foldAll (hub : StorageObject) (spokes : List StorageObject) :
    ∀ spoke ∈ (foldAll hub spokes).remaining, ¬ Foldable (foldAll hub spokes).survivor spoke := by
  obtain ⟨hdone, hstuck⟩ := (whileEnds_foldAll hub spokes).invariant
    (P := fun c => c.progress = false → ∀ spoke ∈ c.remaining, ¬ Foldable c.survivor spoke)
    (fun h => nomatch h) (fun c _ _ h => by
      obtain ⟨hstate, hnone⟩ := Folding.pass_idle h
      rw [hstate]
      exact hnone)
  intro spoke hspoke
  refine hstuck ?_ spoke hspoke
  by_contra hprogress
  rw [Bool.not_eq_false] at hprogress
  exact nomatch hdone.symm.trans
    (Folding.goesOn_iff.mpr ⟨List.ne_nil_of_mem hspoke, hprogress⟩)

theorem Folding.foldl_of_pairs {c : Folding} {todo : List StorageObject}
    (h : (todo.foldl Folding.fold c).pairs = []) :
    todo.foldl Folding.fold c = { c with remaining := c.remaining ++ todo } := by
  induction todo generalizing c with
  | nil => simp
  | cons spoke todo ih =>
    rw [List.foldl_cons] at h ⊢
    have hstate := ih h
    by_cases hfoldable : Foldable c.survivor spoke
    · rw [hstate, Folding.fold_of_foldable hfoldable] at h
      simp at h
    · rw [hstate, Folding.fold_of_not_foldable hfoldable]
      simp

/-- A spoke that can be folded into the hub is reason for a call. -/
theorem pairs_ne_nil (hspoke : spoke ∈ spokes) (h : Foldable hub spoke) :
    (fusePeriodsChain hub spokes).1 ≠ [] := by
  intro hpairs
  obtain ⟨-, huntouched⟩ := (whileEnds_foldAll hub spokes).invariant
    (P := fun c => c.pairs = [] → c.survivor = hub ∧ c.remaining = spokes)
    (fun _ => ⟨rfl, rfl⟩) (fun c _ hc hnil => by
      have hstate := Folding.foldl_of_pairs hnil
      rw [Folding.pass, hstate] at hnil ⊢
      exact hc hnil)
  obtain ⟨hsurvivor, hremaining⟩ := huntouched hpairs
  refine not_foldable_foldAll hub spokes spoke ?_ ?_
  · rwa [hremaining]
  · rwa [hsurvivor]

end Loop

end Pytusk.Tusky
