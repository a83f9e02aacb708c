import Pytusk.Chain.Transaction
import Pytusk.Types.Receipts

/-!
# `ops/storage_compose.py`: Storage transactions and what may be fused

The two validators say why Move would abort, or nothing.
-/

namespace Pytusk.Ops

open Pytusk.Lib

/-! ## Which objects may be fused -/

/-- Why `fuse_periods` would abort on the pair. -/
def fusePeriodsIncompatibility (first second : StorageObject) : Option String :=
  if first.storageSize ≠ second.storageSize then
    some (s!"Storage sizes differ ({first.storageSize} vs " ++
      s!"{second.storageSize}); fusing across epoch periods requires " ++
      "equal sizes (Move abort: EIncompatibleAmount).")
  else if first.endEpoch ≠ second.startEpoch ∧ first.startEpoch ≠ second.endEpoch then
    some (s!"Storage ranges [{first.startEpoch}, {first.endEpoch}) and " ++
      s!"[{second.startEpoch}, {second.endEpoch}) are not adjacent; " ++
      "fusing by period requires one to begin exactly where the " ++
      "other ends (Move abort: EIncompatibleEpochs).")
  else none

/-- Why `fuse` would abort on the pair; it dispatches on the start epoch. -/
def fuseIncompatibility (first second : StorageObject) : Option String :=
  if first.objectId ≠ "" ∧ first.objectId = second.objectId then
    some (s!"Cannot fuse storage {first.objectId} with itself: " ++
      "two distinct Storage objects are required.")
  else if first.startEpoch = second.startEpoch then
    if first.endEpoch ≠ second.endEpoch then
      some ("Storage objects share start_epoch " ++
        s!"{first.startEpoch} but end at {first.endEpoch} and " ++
        s!"{second.endEpoch}; fusing by amount requires an " ++
        "identical epoch range (Move abort: EIncompatibleEpochs).")
    else none
  else fusePeriodsIncompatibility first second

variable {first second : StorageObject}

theorem fusePeriodsIncompatibility_eq_none :
    fusePeriodsIncompatibility first second = none ↔
      first.storageSize = second.storageSize ∧
        (first.endEpoch = second.startEpoch ∨ first.startEpoch = second.endEpoch) := by
  unfold fusePeriodsIncompatibility
  split
  · rename_i hsize
    simp [hsize]
  · rename_i hsize
    split
    · rename_i hrange
      simp [hrange]
    · rename_i hrange
      simp only [true_iff]
      exact ⟨not_not.mp hsize, by tauto⟩

theorem fuseIncompatibility_eq_none :
    fuseIncompatibility first second = none ↔
      ¬ (first.objectId ≠ "" ∧ first.objectId = second.objectId) ∧
        if first.startEpoch = second.startEpoch then first.endEpoch = second.endEpoch
        else fusePeriodsIncompatibility first second = none := by
  unfold fuseIncompatibility
  by_cases hself : first.objectId ≠ "" ∧ first.objectId = second.objectId
  · rw [if_pos hself]
    exact iff_of_false (Option.some_ne_none _) fun h => h.1 hself
  · rw [if_neg hself]
    by_cases hstart : first.startEpoch = second.startEpoch
    · rw [if_pos hstart, if_pos hstart]
      by_cases hend : first.endEpoch = second.endEpoch
      · rw [if_neg (not_not.mpr hend)]
        exact iff_of_true rfl ⟨hself, hend⟩
      · rw [if_pos hend]
        exact iff_of_false (Option.some_ne_none _) fun h => hend h.2
    · rw [if_neg hstart, if_neg hstart]
      exact ⟨fun h => ⟨hself, h⟩, fun h => h.2⟩

/-- Being compatible by periods goes both ways. -/
theorem fusePeriodsIncompatibility_comm :
    fusePeriodsIncompatibility first second = none ↔
      fusePeriodsIncompatibility second first = none := by
  rw [fusePeriodsIncompatibility_eq_none, fusePeriodsIncompatibility_eq_none]
  constructor
  · rintro ⟨hsize, hrange⟩
    exact ⟨hsize.symm, hrange.symm.imp Eq.symm Eq.symm⟩
  · rintro ⟨hsize, hrange⟩
    exact ⟨hsize.symm, hrange.symm.imp Eq.symm Eq.symm⟩

/-! ## Composing -/

/-- `add_split_by_epoch` -/
def splitByEpochCall (packageId storageObjectId : String) (splitEpoch : Int) : BuilderCall :=
  .moveCall (packageId ++ "::storage_resource::split_by_epoch")
    [.str storageObjectId, .int splitEpoch]

/-- `add_split_by_size` -/
def splitBySizeCall (packageId storageObjectId : String) (splitSize : Int) : BuilderCall :=
  .moveCall (packageId ++ "::storage_resource::split_by_size")
    [.str storageObjectId, .int splitSize]

/-- `add_fuse` -/
def fuseCall (packageId firstStorageId secondStorageId : String) : BuilderCall :=
  .moveCall (packageId ++ "::storage_resource::fuse")
    [.str firstStorageId, .str secondStorageId]

/-- `add_destroy_storage` -/
def destroyCall (packageId storageObjectId : String) : BuilderCall :=
  .moveCall (packageId ++ "::storage_resource::destroy") [.str storageObjectId]

end Pytusk.Ops
