import Pytusk.Tusky.ExtendBlob
import Pytusk.Tusky.FuseClusters
import Pytusk.Tusky.SplitStorage

/-!
# `list_storage`

With `--details` the objects are listed by what can be done with them. What is
listed for splitting and fusing is what the chain would split and fuse.
-/

namespace Pytusk.Tusky

open Pytusk.Lib Pytusk.Ops Pytusk.StorageLedger

/-- `_split_by_epoch_applicable` -/
def splitByEpochApplicable (storage : StorageObject) : Bool :=
  2 ≤ storage.endEpoch - storage.startEpoch

/-- `_split_by_size_applicable` -/
def splitBySizeApplicable (storage : StorageObject) : Bool := 2 ≤ storage.storageSize

structure ListArgs where
  status : String
  details : Bool
  deriving DecidableEq, Repr

def storageStatus (currentEpoch : Int) (storage : StorageObject) : String :=
  if storage.endEpoch ≤ currentEpoch then "expired" else "active"

def hasStatus (status : String) (currentEpoch : Int) (storage : StorageObject) : Bool :=
  status = "any" || storageStatus currentEpoch storage = status

/-- What the detailed listing says: the objects under each heading. -/
structure StorageDetails where
  byEpochSplittable : List StorageObject
  bySizeSplittable : List StorageObject
  amountGroups : List (List StorageObject)
  periodsPairs : List (StorageObject × StorageObject)
  extendable : List StorageObject
  deriving DecidableEq, Repr

def storageDetails (filtered : List StorageObject)
    (candidateBlobs : List (String × StorageObject)) : StorageDetails where
  byEpochSplittable := filtered.filter splitByEpochApplicable
  bySizeSplittable := filtered.filter splitBySizeApplicable
  amountGroups := fuseAmountGroups filtered
  periodsPairs := fusePeriodsPairs filtered
  extendable := filtered.filter (extendApplicable · candidateBlobs)

/-! ## The lines -/

/-- The lines of a list, or that there are none. -/
def orNone (indent : String) (lines : List String) : List String :=
  if lines.isEmpty then [indent ++ "(none)"] else lines

def plainLine (currentEpoch : Int) (storage : StorageObject) : String :=
  let status := storageStatus currentEpoch storage
  s!"{storage.objectId}  start_epoch={storage.startEpoch}  " ++
    s!"end_epoch={storage.endEpoch}  size={storage.storageSize}  status={status}"

def groupLines (group : List StorageObject) : List String :=
  match group with
  | [] => []
  | first :: _ =>
      s!"    epoch range [{first.startEpoch}, {first.endEpoch}):" ::
        group.map fun storage => s!"      {storage.objectId}"

/-- The headings, with what is listed under them. -/
def detailLines (filtered : List StorageObject) (details : StorageDetails) : List String :=
  let fourBlanks := fun storage : StorageObject => s!"    {storage.objectId}"
  "split_storage" ::
    (if details.byEpochSplittable.isEmpty && details.bySizeSplittable.isEmpty then ["  (none)"]
    else
      "  split_by_epoch (epoch range must span >= 2 epochs):" ::
        orNone "    " (details.byEpochSplittable.map fourBlanks) ++
        "  split_by_size (storage size must be >= 2 bytes):" ::
        orNone "    " (details.bySizeSplittable.map fourBlanks)) ++
  "fuse_storage" ::
    (if details.amountGroups.isEmpty && details.periodsPairs.isEmpty then ["  (none)"]
    else
      "  fuse_amount (single transaction fuses all listed together):" ::
        orNone "    " (details.amountGroups.flatMap groupLines) ++
        ("  fuse_periods (pairwise only -- fusing one pair can block " ++
          "others; not simultaneously mergeable as a set):") ::
        orNone "    " (details.periodsPairs.map fun pair =>
          s!"    {pair.1.objectId} <-> {pair.2.objectId}")) ++
  "reclaim_storage" :: (filtered.map fun storage => s!"  {storage.objectId}") ++
  "extend_blob_with_storage" ::
    orNone "  " (details.extendable.map fun storage => s!"  {storage.objectId}")

/-- The lines it prints. -/
def listStorage (w : World) (h : Holdings) (args : ListArgs) : Except CliExn (List String) := do
  let currentEpoch ← orExit PyExn.isRuntimeError
    (fun e => s!"Cannot get current Walrus epoch: {e.message}") h.walrusEpoch
  let _ ← walrusPackageId w
  let storages ← orExit PyExn.isRuntimeError
    (fun e => s!"Error listing Storage objects: {e.message}")
    (listStorageObjects w.parseInt h.production w.activeAddress h.ownedObjects)
  let filtered := storages.filter (hasStatus args.status currentEpoch)
  let candidateBlobs ←
    if args.details ∧ filtered ≠ [] then
      uncaught (extendCandidateBlobs w.parseInt h currentEpoch)
    else .ok []
  if filtered = [] then return ["No storage objects found matching the given filters."]
  else if args.details then return detailLines filtered (storageDetails filtered candidateBlobs)
  else return filtered.map (plainLine currentEpoch)

/-- What it prints under `--details`: the details of the objects that have the
status asked for. -/
theorem listStorage_details {w : World} {h : Holdings} {args : ListArgs} {lines : List String}
    (hdetails : args.details = true) (hprinted : listStorage w h args = .ok lines) :
    ∃ currentEpoch storages, h.walrusEpoch = .ok currentEpoch ∧
      listStorageObjects w.parseInt h.production w.activeAddress h.ownedObjects = .ok storages ∧
      let listed := storages.filter (hasStatus args.status currentEpoch)
      (listed = [] ∧ lines = ["No storage objects found matching the given filters."]) ∨
        listed ≠ [] ∧ ∃ candidateBlobs,
          extendCandidateBlobs w.parseInt h currentEpoch = .ok candidateBlobs ∧
          lines = detailLines listed (storageDetails listed candidateBlobs) := by
  obtain ⟨currentEpoch, hepoch, hprinted⟩ := bind_eq_ok.mp hprinted
  obtain ⟨_, -, hprinted⟩ := bind_eq_ok.mp hprinted
  obtain ⟨storages, hstorages, hprinted⟩ := bind_eq_ok.mp hprinted
  refine ⟨currentEpoch, storages, orExit_eq_ok.mp hepoch, orExit_eq_ok.mp hstorages, ?_⟩
  intro listed
  dsimp only at hprinted
  by_cases hnone : listed = []
  · rw [if_neg fun h => h.2 hnone, ok_bind, if_pos hnone] at hprinted
    exact .inl ⟨hnone, (Except.ok.inj hprinted).symm⟩
  · rw [if_pos ⟨hdetails, hnone⟩] at hprinted
    obtain ⟨candidateBlobs, hcandidates, hprinted⟩ := bind_eq_ok.mp hprinted
    rw [if_neg hnone, if_pos hdetails] at hprinted
    exact .inr ⟨hnone, candidateBlobs, mapError_eq_ok.mp hcandidates,
      (Except.ok.inj hprinted).symm⟩

/-! ## Splitting -/

section Splitting

variable {storage : StorageObject}

/-- There is an epoch to split at. -/
theorem splitByEpochApplicable_iff :
    splitByEpochApplicable storage = true ↔
      ∃ splitEpoch, (SplitPoint.byEpoch splitEpoch).Inside storage := by
  unfold splitByEpochApplicable SplitPoint.Inside
  rw [decide_eq_true_eq]
  constructor
  · exact fun h => ⟨storage.startEpoch + 1, by omega, by omega⟩
  · rintro ⟨splitEpoch, hstart, hend⟩
    omega

/-- There is a size to split off, and one to leave. -/
theorem splitBySizeApplicable_iff :
    splitBySizeApplicable storage = true ↔
      ∃ splitSize, (SplitPoint.bySize splitSize).Inside storage ∧
        0 < splitSize ∧ splitSize < storage.storageSize := by
  unfold splitBySizeApplicable SplitPoint.Inside
  rw [decide_eq_true_eq]
  constructor
  · exact fun h => ⟨1, ⟨by omega, by omega⟩, by omega, by omega⟩
  · rintro ⟨splitSize, -, hpos, hlt⟩
    omega

end Splitting

/-! ## Fusing by amount -/

section Amount

variable {storages group : List StorageObject} {first a b : StorageObject} {ledger : Ledger}

def sameRange (range : Int × Int) (storage : StorageObject) : Bool :=
  (storage.startEpoch, storage.endEpoch) = range

/-- A group is all objects of one range, if they are two or more. -/
theorem mem_fuseAmountGroups :
    group ∈ fuseAmountGroups storages ↔
      (∃ range, group = storages.filter (sameRange range)) ∧ 2 ≤ group.length := by
  have hunder : ∀ range, Dict.under range
      (storages.map fun storage => ((storage.startEpoch, storage.endEpoch), storage)) =
        storages.filter (sameRange range) := by
    intro range
    rw [Dict.under, List.filterMap_map, ← List.filterMap_eq_filter]
    refine List.filterMap_congr fun storage _ => ?_
    simp [sameRange, Option.guard]
  have hcollect : ∀ xs : List StorageObject,
      xs.foldl (fun group storage => group ++ [storage]) [] = xs := by
    intro xs
    induction xs using List.reverseRecOn with
    | nil => rfl
    | append_singleton xs x ih => rw [List.foldl_append, ih]; rfl
  unfold fuseAmountGroups
  dsimp only
  rw [List.mem_filter, List.mem_map, decide_eq_true_eq]
  refine and_congr_left fun hlength => ?_
  constructor
  · rintro ⟨⟨range, found⟩, hmem, rfl⟩
    have hget := (Dict.mem_iff_get? (Dict.nodup_keys_groupFold _)).mp hmem
    rw [Dict.get?_groupFold, hunder, hcollect] at hget
    split at hget
    · exact ⟨range, (Option.some.inj hget).symm⟩
    · cases hget
  · rintro ⟨range, rfl⟩
    refine ⟨(range, storages.filter (sameRange range)), ?_, rfl⟩
    refine (Dict.mem_iff_get? (Dict.nodup_keys_groupFold _)).mpr ?_
    rw [Dict.get?_groupFold, hunder, hcollect, if_pos]
    obtain ⟨storage, hstorage⟩ := List.exists_mem_of_length_pos (by omega :
      0 < (storages.filter (sameRange range)).length)
    obtain ⟨hmem, hrange⟩ := List.mem_filter.mp hstorage
    refine List.mem_map.mpr ⟨(range, storage), List.mem_map.mpr ⟨storage, hmem, ?_⟩, rfl⟩
    rw [← of_decide_eq_true hrange]

/-- Objects of one range fuse into the first of them, whose size is then that
of all. -/
theorem run_sameRange {rest : List StorageObject}
    (hfirst : ledger first.objectId = some first)
    (hrest : ∀ s ∈ rest, ledger s.objectId = some s ∧ s.startEpoch = first.startEpoch ∧
      s.endEpoch = first.endEpoch)
    (hids : ((first :: rest).map (·.objectId)).Nodup) :
    ∃ final, Lts.run fuse ledger (rest.map fun s => (first.objectId, s.objectId)) = some final ∧
      final first.objectId = some { first with
        storageSize := first.storageSize + (rest.map (·.storageSize)).sum } ∧
      (∀ s ∈ rest, final s.objectId = none) ∧
      ∀ id, id ∉ (first :: rest).map (·.objectId) → final id = ledger id := by
  induction rest generalizing first ledger with
  | nil => exact ⟨ledger, rfl, by simpa using hfirst, List.forall_mem_nil _, fun _ _ => rfl⟩
  | cons s rest ih =>
    obtain ⟨⟨hs, hstart, hend⟩, hothers⟩ := List.forall_mem_cons.mp hrest
    rw [List.map_cons, List.map_cons, List.nodup_cons, List.nodup_cons] at hids
    obtain ⟨hfirstNot, hsNot, hnodup⟩ := hids
    have hne : first.objectId ≠ s.objectId := fun h => hfirstNot (h ▸ List.mem_cons_self)
    let survivor : StorageObject :=
      { first with storageSize := first.storageSize + s.storageSize }
    have hfused : fused first s = some survivor := by
      simp [fused, route, fuseAmount, hstart, hend, survivor]
    have hcall : fuse ledger (first.objectId, s.objectId) = some _ :=
      apply_eq_some.mpr ⟨hne, first, s, survivor, hfirst, hs, hfused, rfl⟩
    have hkept : ∀ other ∈ rest, Function.update (Function.update ledger s.objectId none)
        first.objectId (some survivor) other.objectId = some other := by
      intro other hother
      have hmem : other.objectId ∈ rest.map (·.objectId) := List.mem_map_of_mem hother
      have hotherFirst : other.objectId ≠ first.objectId := fun h =>
        hfirstNot (h ▸ List.mem_cons_of_mem _ hmem)
      have hotherS : other.objectId ≠ s.objectId := fun h => hsNot (h ▸ hmem)
      rw [Function.update_of_ne hotherFirst, Function.update_of_ne hotherS]
      exact (hothers other hother).1
    have hheld : Function.update (Function.update ledger s.objectId none) first.objectId
        (some survivor) survivor.objectId = some survivor := Function.update_self ..
    obtain ⟨final, hrun, hsurvivor, hgone, hsame⟩ := ih hheld
      (fun other hother => ⟨hkept other hother, (hothers other hother).2⟩)
      (List.nodup_cons.mpr ⟨fun h => hfirstNot (List.mem_cons_of_mem _ h), hnodup⟩)
    refine ⟨final, ?_, ?_, ?_, ?_⟩
    · rw [List.map_cons, Lts.run_cons, hcall, Option.bind_some]
      exact hrun
    · rw [hsurvivor]
      simp [survivor, add_assoc]
    · refine List.forall_mem_cons.mpr ⟨?_, hgone⟩
      refine (hsame s.objectId ?_).trans ?_
      · exact fun h => (List.mem_cons.mp h).elim (fun heq => hne heq.symm) hsNot
      · rw [Function.update_of_ne hne.symm, Function.update_self]
    · intro id hid
      simp only [List.map_cons, List.mem_cons, not_or] at hid
      obtain ⟨hidFirst, hidS, hidRest⟩ := hid
      refine (hsame id ?_).trans ?_
      · exact fun h => (List.mem_cons.mp h).elim hidFirst hidRest
      · rw [Function.update_of_ne hidFirst, Function.update_of_ne hidS]

theorem two_le_length {α : Type} {xs : List α} {x y : α} (hx : x ∈ xs) (hy : y ∈ xs)
    (hne : x ≠ y) : 2 ≤ xs.length := by
  match xs with
  | [] => cases hx
  | [z] => exact absurd ((List.mem_singleton.mp hx).trans (List.mem_singleton.mp hy).symm) hne
  | _ :: _ :: _ => exact Nat.le_add_left 2 _

/-- Two objects are listed for fusing. -/
def StorageDetails.Together (details : StorageDetails) (a b : StorageObject) : Prop :=
  (∃ group ∈ details.amountGroups, a ∈ group ∧ b ∈ group) ∨
    (a, b) ∈ details.periodsPairs ∨ (b, a) ∈ details.periodsPairs

theorem exists_amountGroup_iff (ha : a ∈ storages) (hb : b ∈ storages) (hne : a ≠ b) :
    (∃ group ∈ fuseAmountGroups storages, a ∈ group ∧ b ∈ group) ↔
      a.startEpoch = b.startEpoch ∧ a.endEpoch = b.endEpoch := by
  constructor
  · rintro ⟨group, hgroup, hag, hbg⟩
    obtain ⟨⟨range, rfl⟩, -⟩ := mem_fuseAmountGroups.mp hgroup
    have hra := of_decide_eq_true (List.mem_filter.mp hag).2
    have hrb := of_decide_eq_true (List.mem_filter.mp hbg).2
    exact Prod.mk.inj (hra.trans hrb.symm)
  · rintro ⟨hstart, hend⟩
    have hag : a ∈ storages.filter (sameRange (a.startEpoch, a.endEpoch)) :=
      List.mem_filter.mpr ⟨ha, decide_eq_true rfl⟩
    have hbg : b ∈ storages.filter (sameRange (a.startEpoch, a.endEpoch)) :=
      List.mem_filter.mpr ⟨hb, decide_eq_true (by rw [hstart, hend])⟩
    exact ⟨_, mem_fuseAmountGroups.mpr ⟨⟨_, rfl⟩, two_le_length hag hbg hne⟩, hag, hbg⟩

/-- Two objects are listed together exactly if they pass as a pair. -/
theorem together_storageDetails_iff (ha : a ∈ storages) (hb : b ∈ storages)
    (hid : a.objectId ≠ b.objectId) {candidateBlobs : List (String × StorageObject)} :
    (storageDetails storages candidateBlobs).Together a b ↔ fuseIncompatibility a b = none := by
  have hne : a ≠ b := fun h => hid (congrArg _ h)
  unfold StorageDetails.Together storageDetails
  dsimp only
  rw [exists_amountGroup_iff ha hb hne, fuseIncompatibility_eq_none]
  have hself : ¬ (a.objectId ≠ "" ∧ a.objectId = b.objectId) := fun h => hid h.2
  have hpairs : ((a, b) ∈ fusePeriodsPairs storages ∨ (b, a) ∈ fusePeriodsPairs storages) ↔
      periodsCompatible a b = true :=
    ⟨fun h => h.elim (fun h => (of_mem_fusePeriodsPairs h).2.2)
      (fun h => periodsCompatible_symm (of_mem_fusePeriodsPairs h).2.2),
      mem_fusePeriodsPairs_of_mem ha hb⟩
  rw [hpairs, periodsCompatible_iff]
  unfold Foldable
  split
  · rename_i hstart
    tauto
  · rename_i hstart
    tauto

end Amount

/-! ## The listing and the chain -/

section Agree

variable {storages : List StorageObject} {chain : ChainState}

/-- The objects are on the chain, under ids of their own. -/
structure OnChain (storages : List StorageObject) (chain : ChainState) : Prop where
  held : ∀ storage ∈ storages, chain.ledger storage.objectId = some storage
  distinct : (storages.map (·.objectId)).Nodup
  proper : Proper chain.ledger

theorem OnChain.filter (h : OnChain storages chain) (p : StorageObject → Bool) :
    OnChain (storages.filter p) chain where
  held storage hmem := h.held storage (List.mem_filter.mp hmem).1
  distinct := h.distinct.sublist (List.filter_sublist.map _)
  proper := h.proper

/-- One transaction fuses a whole group. -/
theorem execute_group {first : StorageObject} {rest : List StorageObject}
    (h : OnChain storages chain) (hgroup : first :: rest ∈ fuseAmountGroups storages)
    (packageId sender : String) (sponsor : Option String) (fresh : Nat → String) :
    ∃ ledger, chain.execute packageId (⟨sender, sponsor, rest.map fun s =>
        fuseCall packageId first.objectId s.objectId⟩, fresh) = some { chain with ledger } ∧
      ledger first.objectId = some { first with
        storageSize := ((first :: rest).map (·.storageSize)).sum } ∧
      (∀ s ∈ rest, ledger s.objectId = none) ∧
      ∀ id, id ∉ (first :: rest).map (·.objectId) → ledger id = chain.ledger id := by
  obtain ⟨⟨range, hfilter⟩, -⟩ := mem_fuseAmountGroups.mp hgroup
  have hon : OnChain (first :: rest) chain := hfilter ▸ h.filter _
  have hrange : ∀ s ∈ first :: rest, (s.startEpoch, s.endEpoch) = range := by
    intro s hs
    rw [hfilter] at hs
    exact of_decide_eq_true (List.mem_filter.mp hs).2
  have hrest : ∀ s ∈ rest, chain.ledger s.objectId = some s ∧ s.startEpoch = first.startEpoch ∧
      s.endEpoch = first.endEpoch := by
    intro s hs
    have hsame := (hrange s (.tail _ hs)).trans (hrange first (.head _)).symm
    exact ⟨hon.held s (.tail _ hs), congrArg Prod.fst hsame, congrArg Prod.snd hsame⟩
  obtain ⟨final, hrun, hsurvivor, hgone, hsame⟩ :=
    run_sameRange (hon.held first (.head _)) hrest hon.distinct
  refine ⟨final, ?_, ?_, hgone, hsame⟩
  · have hcalls : (rest.map fun s => fuseCall packageId first.objectId s.objectId) =
        (rest.map fun s => (first.objectId, s.objectId)).map fun pair =>
          fuseCall packageId pair.1 pair.2 := by
      rw [List.map_map]
      rfl
    rw [hcalls]
    exact (execute_fuses _).mpr ⟨final, hrun, rfl⟩
  · rw [hsurvivor, List.map_cons, List.sum_cons]

theorem exists_execute_splitTxn_of_onChain (h : OnChain storages chain) {s : StorageObject}
    (hs : s ∈ storages) {packageId sender recipient : String} {sponsor : Option String}
    {fresh : Nat → String} (hfresh : chain.ledger (fresh 0) = none) (point : SplitPoint) :
    (∃ chain', chain.execute packageId (transferredTxn (point.call packageId s.objectId) sender
      sponsor recipient, fresh) = some chain') ↔ point.Inside s := by
  rw [exists_execute_splitTxn_iff point hfresh, h.held s hs]
  simp

/-- The chain fuses two objects exactly if they pass as a pair. -/
theorem exists_execute_fuse_iff (h : OnChain storages chain) {a b : StorageObject}
    (ha : a ∈ storages) (hb : b ∈ storages) (hid : a.objectId ≠ b.objectId)
    {packageId sender : String} {sponsor : Option String} {fresh : Nat → String} :
    (∃ chain', chain.execute packageId
      (⟨sender, sponsor, [fuseCall packageId a.objectId b.objectId]⟩, fresh) = some chain') ↔
      fuseIncompatibility a b = none := by
  have hexecute : (∃ chain', chain.execute packageId
      (⟨sender, sponsor, [fuseCall packageId a.objectId b.objectId]⟩, fresh) = some chain') ↔
        ∃ ledger, fuse chain.ledger (a.objectId, b.objectId) = some ledger := by
    constructor
    · rintro ⟨chain', hexecuted⟩
      obtain ⟨ledger, hrun, -⟩ := (execute_fuses [(a.objectId, b.objectId)]).mp hexecuted
      exact ⟨ledger, by simpa using hrun⟩
    · rintro ⟨ledger, hfuse⟩
      exact ⟨_, (execute_fuses [(a.objectId, b.objectId)]).mpr ⟨ledger, by simpa using hfuse, rfl⟩⟩
  rw [hexecute]
  constructor
  · rintro ⟨ledger, hfuse⟩
    obtain ⟨-, first, second, survivor, hfirst, hsecond, hfused, -⟩ := apply_eq_some.mp hfuse
    cases (h.held a ha).symm.trans hfirst
    cases (h.held b hb).symm.trans hsecond
    exact fuseIncompatibility_of_fused hid hfused
  · intro hpasses
    exact ⟨_, apply_eq_some.mpr ⟨hid, a, b, _, h.held a ha, h.held b hb, fused_eq hpasses
      (h.proper.range _ _ (h.held a ha)) (h.proper.range _ _ (h.held b hb)), rfl⟩⟩

/-- The details of a listing agree with what the chain executes. -/
structure DetailsAgree (chain : ChainState) (packageId sender recipient : String)
    (sponsor : Option String) (fresh : Nat → String) (listed : List StorageObject)
    (details : StorageDetails) : Prop where
  byEpoch : ∀ s ∈ listed, s ∈ details.byEpochSplittable ↔
    ∃ splitEpoch chain', chain.execute packageId (transferredTxn
      (splitByEpochCall packageId s.objectId splitEpoch) sender sponsor recipient, fresh) =
        some chain'
  /-- The split leaves something on both sides. -/
  bySize : ∀ s ∈ listed, s ∈ details.bySizeSplittable ↔
    ∃ splitSize chain', 0 < splitSize ∧ splitSize < s.storageSize ∧
      chain.execute packageId (transferredTxn
        (splitBySizeCall packageId s.objectId splitSize) sender sponsor recipient, fresh) =
          some chain'
  together : ∀ a ∈ listed, ∀ b ∈ listed, a.objectId ≠ b.objectId →
    (details.Together a b ↔ ∃ chain', chain.execute packageId
      (⟨sender, sponsor, [fuseCall packageId a.objectId b.objectId]⟩, fresh) = some chain')
  /-- One transaction fuses a group, and touches nothing else. -/
  groups : ∀ first rest, first :: rest ∈ details.amountGroups →
    ∃ ledger, chain.execute packageId (⟨sender, sponsor, rest.map fun s =>
        fuseCall packageId first.objectId s.objectId⟩, fresh) = some { chain with ledger } ∧
      ledger first.objectId = some { first with
        storageSize := ((first :: rest).map (·.storageSize)).sum } ∧
      (∀ s ∈ rest, ledger s.objectId = none) ∧
      ∀ id, id ∉ (first :: rest).map (·.objectId) → ledger id = chain.ledger id

theorem OnChain.detailsAgree (h : OnChain storages chain) {fresh : Nat → String}
    (hfresh : chain.ledger (fresh 0) = none) (candidateBlobs : List (String × StorageObject))
    (packageId sender recipient : String) (sponsor : Option String) :
    DetailsAgree chain packageId sender recipient sponsor fresh storages
      (storageDetails storages candidateBlobs) := by
  refine ⟨fun s hs => ?_, fun s hs => ?_, fun a ha b hb hid => ?_, fun first rest hgroup => ?_⟩
  · show s ∈ storages.filter splitByEpochApplicable ↔ _
    rw [List.mem_filter, and_iff_right hs, splitByEpochApplicable_iff]
    exact exists_congr fun splitEpoch =>
      (exists_execute_splitTxn_of_onChain h hs hfresh (.byEpoch splitEpoch)).symm
  · show s ∈ storages.filter splitBySizeApplicable ↔ _
    rw [List.mem_filter, and_iff_right hs, splitBySizeApplicable_iff]
    refine exists_congr fun splitSize => ?_
    rw [← exists_execute_splitTxn_of_onChain h hs hfresh (.bySize splitSize)]
    exact ⟨fun ⟨⟨chain', hok⟩, hpos, hlt⟩ => ⟨chain', hpos, hlt, hok⟩,
      fun ⟨chain', hpos, hlt, hok⟩ => ⟨⟨chain', hok⟩, hpos, hlt⟩⟩
  · rw [together_storageDetails_iff ha hb hid, exists_execute_fuse_iff h ha hb hid]
  · exact execute_group h hgroup packageId sender sponsor fresh

/-- **The listing and the chain agree.** What `--details` prints are the details
of the objects that have the status asked for: one of them is listed as one to
split exactly if there is a point at which the transaction of `split_storage`
goes through, for the size one that leaves something on both sides; two are
listed together for fusing exactly if the chain fuses them; and a group is
fused by one transaction, into an object of all their sizes. -/
theorem storageDetails_agree {w : World} {h : Holdings} {args : ListArgs} {lines : List String}
    {currentEpoch : Int} (hdetails : args.details = true)
    (hprinted : listStorage w h args = .ok lines) (hepoch : h.walrusEpoch = .ok currentEpoch)
    (hstorages : listStorageObjects w.parseInt h.production w.activeAddress h.ownedObjects =
      .ok storages)
    (hon : OnChain storages chain) (fresh : Nat → String) (hfresh : chain.ledger (fresh 0) = none)
    (packageId sender recipient : String) (sponsor : Option String) :
    let listed := storages.filter (hasStatus args.status currentEpoch)
    listed = [] ∧ lines = ["No storage objects found matching the given filters."] ∨
      listed ≠ [] ∧ ∃ details, lines = detailLines listed details ∧
        DetailsAgree chain packageId sender recipient sponsor fresh listed details := by
  obtain ⟨currentEpoch', storages', hepoch', hstorages', hlines⟩ :=
    listStorage_details hdetails hprinted
  cases hepoch.symm.trans hepoch'
  cases hstorages.symm.trans hstorages'
  rcases hlines with hnone | ⟨hsome, candidateBlobs, -, hlines⟩
  · exact .inl hnone
  · exact .inr ⟨hsome, _, hlines,
      (hon.filter _).detailsAgree hfresh candidateBlobs packageId sender recipient sponsor⟩

def twoListed : List StorageObject := [⟨"0xa", 0, 5, 1⟩, ⟨"0xb", 0, 5, 1⟩]

theorem onChain_twoListed : OnChain twoListed ⟨twoStoragesLedger, []⟩ where
  held storage hmem := by
    rcases List.mem_cons.mp hmem with rfl | hmem
    · rfl
    · rw [List.mem_singleton.mp hmem]
      rfl
  distinct := by decide
  proper := proper_twoStoragesLedger

/-- A group that is resolved is the one of the range that is given, or else the
only one. -/
theorem resolveAmountTargets_eq_ok {startEpoch endEpoch : Option Int}
    {group : List StorageObject}
    (h : resolveAmountTargets storages startEpoch endEpoch = .ok group) :
    group ∈ fuseAmountGroups storages ∧
      ((∃ a b, startEpoch = some a ∧ endEpoch = some b ∧ isRange a b group) ∨
        startEpoch = none ∧ endEpoch = none ∧ fuseAmountGroups storages = [group]) := by
  unfold resolveAmountTargets at h
  cases startEpoch with
  | none =>
    cases endEpoch with
    | none =>
      dsimp only at h
      split at h
      · cases h
      · rename_i only hgroups
        cases h
        exact ⟨hgroups ▸ List.mem_singleton_self _, .inr ⟨rfl, rfl, hgroups⟩⟩
      · cases h
    | some endEpoch => cases h
  | some startEpoch =>
    cases endEpoch with
    | none => cases h
    | some endEpoch =>
      dsimp only at h
      split at h
      · rename_i found hfound
        cases h
        exact ⟨List.mem_of_find?_eq_some hfound,
          .inl ⟨_, _, rfl, rfl, List.find?_some hfound⟩⟩
      · cases h

theorem eq_filter_of_mem_fuseAmountGroups {first : StorageObject} {rest : List StorageObject}
    (h : first :: rest ∈ fuseAmountGroups storages) :
    first :: rest = storages.filter (sameRange (first.startEpoch, first.endEpoch)) ∧ rest ≠ [] := by
  obtain ⟨⟨range, hgroup⟩, hlength⟩ := mem_fuseAmountGroups.mp h
  have hfirst : first ∈ storages.filter (sameRange range) := hgroup ▸ List.mem_cons_self
  have hrange : (first.startEpoch, first.endEpoch) = range :=
    of_decide_eq_true (List.mem_filter.mp hfirst).2
  refine ⟨hrange ▸ hgroup, fun hnil => ?_⟩
  rw [hnil] at hlength
  exact Nat.not_succ_le_self 1 hlength

/-- **`--fuse-amount` fuses a whole range.** What it submits goes through: all
objects of the range that is given, or of the only range that has several,
become one object of all their sizes, and every other stays as it is. -/
theorem fuseStorage_amount {w : World} {book : AddressBook} {h : Holdings} {order : SetOrder}
    {args : FuseArgs} {packageId sender : String} {sponsor : Option String} {txn : Txn}
    (hamount : args.fuseAmount = true) (hpkg : walrusPackageId w = .ok packageId)
    (hsigners : signersOrExit w book args.sender args.sponsor = .ok (sender, sponsor))
    (hlisted : listStorageObjects w.parseInt h.production sender h.ownedObjects = .ok storages)
    (hon : OnChain storages chain)
    (hsent : .submitted txn ∈ (fuseStorage h w book order args).log) (fresh : Nat → String) :
    ∃ first rest, first :: rest =
        storages.filter (sameRange (first.startEpoch, first.endEpoch)) ∧ rest ≠ [] ∧
      (args.startEpoch = some first.startEpoch ∧ args.endEpoch = some first.endEpoch ∨
        args.startEpoch = none ∧ args.endEpoch = none ∧
          ∀ range, 2 ≤ (storages.filter (sameRange range)).length →
            range = (first.startEpoch, first.endEpoch)) ∧
      ∃ ledger, chain.execute packageId (txn, fresh) = some { chain with ledger } ∧
        ledger first.objectId = some { first with
          storageSize := ((first :: rest).map (·.storageSize)).sum } ∧
        (∀ s ∈ rest, ledger s.objectId = none) ∧
        ∀ id, id ∉ (first :: rest).map (·.objectId) → ledger id = chain.ledger id := by
  obtain ⟨sender', sponsor', targets, hsigners', htargets, rfl⟩ := submitted_fuseStorage hpkg hsent
  cases hsigners.symm.trans hsigners'
  rw [fuseTargets, if_pos hamount] at htargets
  obtain ⟨group, hgroup, htargets⟩ := bind_eq_ok.mp htargets
  obtain ⟨listed, hlisted', hresolved⟩ := bind_eq_ok.mp (orExit_eq_ok.mp hgroup)
  cases hlisted.symm.trans hlisted'
  obtain ⟨hmem, hwhich⟩ := resolveAmountTargets_eq_ok hresolved
  cases group with
  | nil => cases htargets
  | cons first rest =>
    cases htargets
    have hcalls : ((rest.map fun storage => (first.objectId, storage.objectId)).map fun pair =>
        fuseCall packageId pair.1 pair.2) =
          rest.map fun s => fuseCall packageId first.objectId s.objectId := by
      rw [List.map_map]
      rfl
    obtain ⟨hgroup, hseveral⟩ := eq_filter_of_mem_fuseAmountGroups hmem
    refine ⟨first, rest, hgroup, hseveral, ?_, ?_⟩
    · rcases hwhich with ⟨a, b, hstart, hend, hrange⟩ | ⟨hstart, hend, honly⟩
      · obtain ⟨rfl, rfl⟩ : first.startEpoch = a ∧ first.endEpoch = b := by
          simpa [isRange] using hrange
        exact .inl ⟨hstart, hend⟩
      · refine .inr ⟨hstart, hend, fun range hlength => ?_⟩
        have hother := mem_fuseAmountGroups.mpr ⟨⟨range, rfl⟩, hlength⟩
        rw [honly, List.mem_singleton] at hother
        have hfirst : first ∈ storages.filter (sameRange range) :=
          hother ▸ List.mem_cons_self
        exact (of_decide_eq_true (List.mem_filter.mp hfirst).2).symm
    · dsimp only
      rw [hcalls]
      exact execute_group hon hmem packageId sender sponsor fresh

/-- Two owned objects of one range. -/
def amountHoldings : Holdings :=
  let view := fun objectId : String => ({
    objectId := some objectId
    objectType := some "0x1::storage_resource::Storage"
    ownerAddress := none
    balance := none
    json := some (.dict [(Json.key "storage_size", .int 1), (Json.key "start_epoch", .int 0),
      (Json.key "end_epoch", .int 5)]) } : ObjectView)
  { acceptingHoldings with ownedObjects := .ok (.ok (some [view "0xa", view "0xb"])) }

theorem storageDetails_agree_two :
    ∃ lines, listStorage World.small amountHoldings ⟨"any", true⟩ = .ok lines ∧
      ∃ details, lines = detailLines twoListed details ∧
        DetailsAgree ⟨twoStoragesLedger, []⟩ "0x1" "0xa" "0xa" none (fun _ => "0xc") twoListed
          details := by
  obtain ⟨lines, hprinted⟩ : ∃ lines, listStorage World.small amountHoldings ⟨"any", true⟩ =
      .ok lines := ⟨_, rfl⟩
  have hlisted : listStorageObjects World.small.parseInt false "0xa" amountHoldings.ownedObjects =
      .ok twoListed := by decide +kernel
  refine ⟨lines, hprinted, ?_⟩
  rcases storageDetails_agree rfl hprinted rfl hlisted onChain_twoListed (fun _ => "0xc")
    rfl "0x1" "0xa" "0xa" none with ⟨hnone, -⟩ | ⟨-, hagree⟩
  · exact absurd hnone (by decide)
  · exact hagree

theorem fuseStorage_amount_two :
    ∃ ledger, (⟨twoStoragesLedger, []⟩ : ChainState).execute "0x1"
        (⟨"0xa", none, [fuseCall "0x1" "0xa" "0xb"]⟩, fun _ => "0xc") =
      some { ledger := ledger, destroyed := [] } := by
  have hpkg : walrusPackageId World.small = .ok "0x1" := by decide
  have hsigners : signersOrExit World.small ⟨fun _ => .ok (), .ok⟩ none none =
      .ok ("0xa", none) := by decide
  have hlisted : listStorageObjects World.small.parseInt false "0xa" amountHoldings.ownedObjects =
      .ok twoListed := by decide +kernel
  have hsent : .submitted ⟨"0xa", none, [fuseCall "0x1" "0xa" "0xb"]⟩ ∈
      (fuseStorage amountHoldings World.small ⟨fun _ => .ok (), .ok⟩ listOrder
        ⟨none, [], true, false, none, none, none, none⟩).log := by decide +kernel
  obtain ⟨first, rest, -, -, -, ledger, hexecuted, -⟩ :=
    fuseStorage_amount rfl hpkg hsigners hlisted onChain_twoListed hsent fun _ => "0xc"
  exact ⟨ledger, hexecuted⟩

end Agree

end Pytusk.Tusky
