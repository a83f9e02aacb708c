import Pytusk.Tusky.FusePeriods

/-!
# `fuse_storage`

The command, in its three modes, and its explicit one against the ledger: each
pair is checked against the survivor as the pairs before it leave it, but not
whether its second object is still there.
-/

namespace Pytusk.Tusky

open Pytusk.Lib Pytusk.Ops Pytusk.StorageLedger

structure FuseArgs where
  fuseTo : Option String
  fuseFrom : List String
  fuseAmount : Bool
  fusePeriods : Bool
  startEpoch : Option Int
  endEpoch : Option Int
  sender : Option String
  sponsor : Option String
  deriving DecidableEq, Repr

/-- Is an argument given, and not empty? -/
def isGiven (arg : Option String) : Bool := (arg.filter (· ≠ "")).isSome

def checkFuseArgs (args : FuseArgs) : Except CliExn Unit :=
  if args.fuseAmount ∧ args.fuseFrom ≠ [] then
    .error (.systemExit "Error: --fuse-from is not used with --fuse-amount.")
  else if args.fusePeriods ∧ args.fuseFrom ≠ [] then
    .error (.systemExit "Error: --fuse-from is not used with --fuse-periods.")
  else if args.fuseAmount ∧ isGiven args.fuseTo then
    .error (.systemExit "Error: --fuse-to is not used with --fuse-amount.")
  else if ¬ args.fuseAmount ∧ ¬ args.fusePeriods ∧
      (¬ isGiven args.fuseTo ∨ args.fuseFrom = []) then
    .error (.systemExit <|
      "Error: --fuse-to and --fuse-from are required unless " ++
        "--fuse-amount or --fuse-periods is set.")
  else .ok ()

/-! ## The objects to fuse -/

variable (parseInt : PyStr → Option Int) (h : Holdings)

/-- `_fetch_storage_object` -/
def fetchStorageObject (label objectId : String) : Except CliExn StorageObject := do
  match ← uncaught (h.getObject objectId) with
  | .failed resultString =>
      .error (.systemExit s!"Error fetching {label} object {objectId}: {resultString}")
  | .ok none =>
      .error (.raised (.attributeError "'NoneType' object has no attribute 'object_type'"))
  | .ok (some obj) =>
      if storageTypeSuffix.toList <:+: (obj.objectType.getD "").toList then
        orExit PyExn.isValueError
          (fun e => s!"Error reading {label} {objectId}: {e.message}")
          (storageFromObject parseInt obj)
      else .error (.systemExit s!"{objectId} ({label}) is not a Walrus Storage object.")

/-- The loop over `--fuse-from`. -/
def foldFrom (survivor : StorageObject) : List String → Except CliExn (List (String × String))
  | [] => .ok []
  | objectId :: rest => do
      let spoke ← fetchStorageObject parseInt h "--fuse-from" objectId
      match fuseIncompatibility survivor spoke with
      | some reason => .error (.systemExit s!"Cannot fuse: {reason}")
      | none =>
          let pairs ← foldFrom (fuseChainState survivor spoke) rest
          return (survivor.objectId, spoke.objectId) :: pairs

/-- The survivor's id, the calls to make and the objects left over. -/
structure FuseTargets where
  survivorId : String
  pairs : List (String × String)
  skipped : List StorageObject
  deriving DecidableEq, Repr

/-- What both bulk modes catch. -/
def orFuseExit {α : Type} (r : Except PyExn α) : Except CliExn α :=
  orExit (fun e => e.isRuntimeError || e.isValueError)
    (fun e => s!"Error in fuse_storage: {e.message}") r

def amountTargets (args : FuseArgs) (sender : String) : Except CliExn FuseTargets := do
  let group ← orFuseExit do
    let storages ← listStorageObjects parseInt h.production sender h.ownedObjects
    resolveAmountTargets storages args.startEpoch args.endEpoch
  match group with
  | [] => .error (.raised (.indexError "list index out of range"))
  | first :: rest =>
      return ⟨first.objectId, rest.map fun storage => (first.objectId, storage.objectId), []⟩

def periodsTargets (order : SetOrder) (args : FuseArgs) (sender : String) :
    Except CliExn FuseTargets := do
  let (hub, spokes) ← orFuseExit do
    let storages ← listStorageObjects parseInt h.production sender h.ownedObjects
    resolvePeriodsTargets order storages args.fuseTo
  let (pairs, skipped) := fusePeriodsChain hub spokes
  if pairs.isEmpty then
    .error (.systemExit "No fuse_periods-compatible spokes could be folded in.")
  else return ⟨hub.objectId, pairs, skipped⟩

/-- The pre-flight of the explicit mode. -/
def explicitTargets (args : FuseArgs) : Except CliExn FuseTargets := do
  let fuseTo := args.fuseTo.getD ""
  let survivor ← fetchStorageObject parseInt h "--fuse-to" fuseTo
  let pairs ← foldFrom parseInt h survivor args.fuseFrom
  return ⟨fuseTo, pairs, []⟩

def fuseTargets (order : SetOrder) (args : FuseArgs) (sender : String) :
    Except CliExn FuseTargets :=
  if args.fuseAmount then amountTargets parseInt h args sender
  else if args.fusePeriods then periodsTargets parseInt h order args sender
  else explicitTargets parseInt h args

/-! ## The command -/

/-- The loop that composes the calls. -/
def addFuses (packageId : String) (pairs : List (String × String)) (builder : Builder)
    (txn : Txn) : Except PyExn Txn :=
  txn.addEach builder (fun pair => fuseCall packageId pair.1 pair.2) pairs

def fuseStorage (w : World) (book : AddressBook) (order : SetOrder) (args : FuseArgs) :
    Sending ExecutedTransaction := do
  checkFuseArgs args
  let (sender, sponsor) ← signersOrExit w book args.sender args.sponsor
  let walrusPkg ← walrusPackageId w
  let targets ← fuseTargets w.parseInt h order args sender
  match ← send (h.transaction 0) sender sponsor (addFuses walrusPkg targets.pairs) with
  | .failed resultString =>
      Logged.raise (.systemExit s!"Error in fuse_storage: {resultString}")
  | .ok data => do
      let count := targets.pairs.length
      Logged.emit (.reported s!"Fused {count} object(s) into {targets.survivorId}.")
      unless targets.skipped.isEmpty do
        Logged.emit (.reported <|
          "Could not fold in (fold order changed compatibility): " ++
            ", ".intercalate (targets.skipped.map (·.objectId)))
      printResult data

/-! ## What is composed -/

section Composed

variable {parseInt h}

/-- What the command submits are the calls of its targets. -/
theorem calls_of_submitted {w : World} {book : AddressBook} {order : SetOrder} {args : FuseArgs}
    {txn : Txn} (hsent : Sent.submitted txn ∈ (fuseStorage h w book order args).log) :
    ∃ sender packageId targets, fuseTargets w.parseInt h order args sender = .ok targets ∧
      txn.calls = targets.pairs.map fun pair => fuseCall packageId pair.1 pair.2 := by
  unfold fuseStorage at hsent
  simp only [Logged.monadLift_eq, Logged.mem_log_bind, Logged.log_lift, Logged.result_lift,
    List.not_mem_nil, false_or] at hsent
  obtain ⟨_, -, ⟨sender, sponsor⟩, -, packageId, -, targets, htargets, hsent⟩ := hsent
  refine ⟨sender, packageId, targets, htargets, ?_⟩
  rcases hsent with hsent | ⟨result, -, hafter⟩
  · rcases send_cases (h.transaction 0) sender sponsor (addFuses packageId targets.pairs) with
      ⟨_, hsend⟩ | ⟨_, _, -, hsend⟩ | ⟨composed, hcompose, hsend⟩
    · simp [hsend] at hsent
    · simp [hsend] at hsent
    · have hsame : txn = composed := by simpa [hsend] using hsent
      rw [hsame, Txn.addEach_eq_ok hcompose]
      rfl
  · -- after it was answered nothing is submitted
    cases result with
    | failed _ => simp at hafter
    | ok data =>
      simp only [Logged.mem_log_bind, Logged.log_emit, List.mem_singleton, reduceCtorEq,
        false_or] at hafter
      obtain ⟨_, -, hafter⟩ := hafter
      by_cases hskipped : targets.skipped.isEmpty = true
      · simp [hskipped] at hafter
      · simp [hskipped, Logged.mem_log_bind] at hafter

end Composed

/-! ## The explicit mode against the ledger -/

section Explicit

/-- The id of the object that an argument names. -/
def Holdings.objectNamed (h : Holdings) (objectId : String) : Option String :=
  match h.getObject objectId with
  | .ok (.ok (some obj)) => obj.objectId
  | _ => none

variable {parseInt h} {ledger : Ledger} {survivor spoke storage : StorageObject}
  {spokes : List StorageObject} {pairs : List (String × String)} {ids : List String}
  {label objectId : String}

theorem of_fetchStorageObject (hfetch : fetchStorageObject parseInt h label objectId =
      .ok storage) :
    ∃ obj, h.getObject objectId = .ok (.ok (some obj)) ∧
      storageFromObject parseInt obj = .ok storage := by
  obtain ⟨result, hresult, hfetch⟩ := bind_eq_ok.mp hfetch
  have hget : h.getObject objectId = .ok result := mapError_eq_ok.mp hresult
  split at hfetch
  · cases hfetch
  · cases hfetch
  · rename_i obj
    split at hfetch
    · exact ⟨obj, hget, orExit_eq_ok.mp hfetch⟩
    · cases hfetch

/-- The checks pass for one spoke after the other. -/
inductive Chain : StorageObject → List StorageObject → List (String × String) → Prop
  | nil (survivor : StorageObject) : Chain survivor [] []
  | cons {survivor spoke : StorageObject} {spokes : List StorageObject}
      {pairs : List (String × String)} (hcheck : fuseIncompatibility survivor spoke = none)
      (hrest : Chain (fuseChainState survivor spoke) spokes pairs) :
      Chain survivor (spoke :: spokes) ((survivor.objectId, spoke.objectId) :: pairs)

theorem chain_of_foldFrom (hfold : foldFrom parseInt h survivor ids = .ok pairs) :
    ∃ spokes, Chain survivor spokes pairs ∧
      ids.mapM (fetchStorageObject parseInt h "--fuse-from") = .ok spokes := by
  induction ids generalizing survivor pairs with
  | nil =>
    cases hfold
    exact ⟨[], .nil survivor, rfl⟩
  | cons id rest ih =>
    obtain ⟨spoke, hspoke, hfold⟩ := bind_eq_ok.mp hfold
    split at hfold
    · cases hfold
    · rename_i hcheck
      obtain ⟨pairs', hpairs, heq⟩ := bind_eq_ok.mp hfold
      cases heq
      obtain ⟨spokes, hchain, hspokes⟩ := ih hpairs
      exact ⟨spoke :: spokes, .cons hcheck hchain,
        mapM_eq_ok.mpr (.cons hspoke (mapM_eq_ok.mp hspokes))⟩

theorem Chain.consumed (hchain : Chain survivor spokes pairs) :
    pairs.map Prod.snd = spokes.map (·.objectId) := by
  induction hchain with
  | nil => rfl
  | cons _ _ ih => simp [ih]

theorem Chain.into (hchain : Chain survivor spokes pairs) :
    ∀ pair ∈ pairs, pair.1 = survivor.objectId := by
  induction hchain with
  | nil => simp
  | cons _ _ ih =>
    simpa [fuseChainState_objectId] using ih

/-- A check that passes is a call that Move accepts, and the local state is
what Move makes of the survivor. -/
theorem fused_eq (hcheck : fuseIncompatibility survivor spoke = none)
    (hsurvivor : survivor.startEpoch < survivor.endEpoch)
    (hspoke : spoke.startEpoch < spoke.endEpoch) :
    fused survivor spoke = some (fuseChainState survivor spoke) := by
  obtain ⟨-, hroute⟩ := fuseIncompatibility_eq_none.mp hcheck
  by_cases hstart : survivor.startEpoch = spoke.startEpoch
  · rw [if_pos hstart] at hroute
    simp [fused, route, fuseAmount, fuseChainState, hstart, hroute]
  · rw [if_neg hstart] at hroute
    have hfoldable : Foldable survivor spoke := ⟨hstart, hroute⟩
    rw [← fusedByPeriods_eq hfoldable hsurvivor hspoke, fused, fusedByPeriods, route,
      if_neg hstart]

/-- The survivor is never consumed. -/
theorem Chain.ne_survivor (hchain : Chain survivor spokes pairs) (hid : survivor.objectId ≠ "") :
    ∀ s ∈ spokes, s.objectId ≠ survivor.objectId := by
  induction hchain with
  | nil => simp
  | cons hcheck _ ih =>
    rw [fuseChainState_objectId] at ih
    intro s hs
    rcases List.mem_cons.mp hs with rfl | hrest
    · exact fun heq => (fuseIncompatibility_eq_none.mp hcheck).1 ⟨hid, heq.symm⟩
    · exact ih hid s hrest

/-- **The chain runs** from a ledger that holds its objects, each of them once. -/
theorem Chain.run (hchain : Chain survivor spokes pairs) (hid : survivor.objectId ≠ "")
    (hsurvivor : ledger survivor.objectId = some survivor)
    (hrange : survivor.startEpoch < survivor.endEpoch)
    (hspokes : ∀ s ∈ spokes, ledger s.objectId = some s)
    (hranges : ∀ s ∈ spokes, s.startEpoch < s.endEpoch)
    (hnodup : (spokes.map (·.objectId)).Nodup) :
    ∃ final, Lts.run fuse ledger pairs = some final := by
  induction hchain generalizing ledger with
  | nil => exact ⟨ledger, rfl⟩
  | @cons survivor spoke spokes pairs hcheck hrest ih =>
    have hothers := (Chain.cons hcheck hrest).ne_survivor hid
    obtain ⟨hfirst, hrestIds⟩ := List.nodup_cons.mp hnodup
    obtain ⟨hspokeRange, hrestRanges⟩ := List.forall_mem_cons.mp hranges
    have hcall : fuse ledger (survivor.objectId, spoke.objectId) = some _ :=
      apply_eq_some.mpr ⟨(hothers spoke List.mem_cons_self).symm, survivor, spoke, _, hsurvivor,
        hspokes spoke List.mem_cons_self, fused_eq hcheck hrange hspokeRange, rfl⟩
    rw [Lts.run_cons, hcall, Option.bind_some]
    refine ih ?_ ?_ (fuseChainState_range spoke hrange) ?_ hrestRanges hrestIds
    · rwa [fuseChainState_objectId]
    · rw [fuseChainState_objectId]
      exact Function.update_self _ _ _
    · intro s hs
      -- the others are neither the survivor nor what was just consumed
      have hspoke : s.objectId ≠ spoke.objectId := fun heq =>
        hfirst (List.mem_map.mpr ⟨s, hs, heq⟩)
      have hmem := List.mem_cons_of_mem spoke hs
      rw [Function.update_of_ne (hothers s hmem), Function.update_of_ne hspoke]
      exact hspokes s hmem

/-- What is fetched is what the ledger has. -/
def Faithful (parseInt : PyStr → Option Int) (h : Holdings) (ledger : Ledger)
    (objectId : String) : Prop :=
  ∀ obj storage, h.getObject objectId = .ok (.ok (some obj)) →
    storageFromObject parseInt obj = .ok storage → ledger storage.objectId = some storage

theorem objectNamed_eq (hempty : ledger "" = none) (hfaithful : Faithful parseInt h ledger objectId)
    (hfetch : fetchStorageObject parseInt h label objectId = .ok storage) :
    h.objectNamed objectId = some storage.objectId := by
  obtain ⟨obj, hget, hread⟩ := of_fetchStorageObject hfetch
  have hledger := hfaithful obj storage hget hread
  have hid := objectId_storageFromObject hread
  unfold Holdings.objectNamed
  rw [hget]
  cases hobj : obj.objectId with
  | none =>
    rw [hid, hobj, Option.getD_none, hempty] at hledger
    cases hledger
  | some named => simp [hid, hobj]

theorem map_objectNamed (hempty : ledger "" = none)
    (hfaithful : ∀ id ∈ ids, Faithful parseInt h ledger id)
    (hfetch : ids.mapM (fetchStorageObject parseInt h "--fuse-from") = .ok spokes) :
    ids.map h.objectNamed = (spokes.map (·.objectId)).map some := by
  induction mapM_eq_ok.mp hfetch with
  | nil => rfl
  | cons hhead htail ih =>
    obtain ⟨hfirst, hrest⟩ := List.forall_mem_cons.mp hfaithful
    rw [List.map_cons, List.map_cons, List.map_cons, objectNamed_eq hempty hfirst hhead,
      ih hrest (mapM_eq_ok.mpr htail)]

theorem fuseTargets_explicit {args : FuseArgs} (order : SetOrder) (sender : String)
    (hexplicit : args.fuseAmount = false ∧ args.fusePeriods = false) :
    fuseTargets parseInt h order args sender = explicitTargets parseInt h args := by
  simp [fuseTargets, hexplicit.1, hexplicit.2]

/-- **The explicit mode runs exactly if no object is to be folded in twice.**
Its calls are those of the pairs that the pre-flight accepts, always into the
same object, which is not among those consumed. -/
theorem fuseStorage_explicit (h : Holdings) (w : World) (book : AddressBook) (order : SetOrder)
    {args : FuseArgs} (hexplicit : args.fuseAmount = false ∧ args.fusePeriods = false)
    (hproper : Proper ledger) (hempty : ledger "" = none)
    (hfaithful : ∀ id ∈ args.fuseTo.getD "" :: args.fuseFrom, Faithful w.parseInt h ledger id)
    {sender : String} {targets : FuseTargets}
    (haccepts : fuseTargets w.parseInt h order args sender = .ok targets) :
    (∀ txn, Sent.submitted txn ∈ (fuseStorage h w book order args).log → ∃ packageId,
      txn.calls = targets.pairs.map fun pair => fuseCall packageId pair.1 pair.2) ∧
    (∃ hub, ∀ pair ∈ targets.pairs, pair.1 = hub ∧ pair.2 ≠ hub) ∧
    ((∃ final, Lts.run fuse ledger targets.pairs = some final) ↔
      (args.fuseFrom.map h.objectNamed).Nodup) := by
  refine ⟨fun txn hsent => ?_, ?_⟩
  · obtain ⟨sender', packageId, targets', htargets, hcalls⟩ := calls_of_submitted hsent
    rw [fuseTargets_explicit order _ hexplicit] at htargets haccepts
    cases htargets.symm.trans haccepts
    exact ⟨packageId, hcalls⟩
  · rw [fuseTargets_explicit order _ hexplicit] at haccepts
    obtain ⟨survivor, hsurvivor, haccepts⟩ := bind_eq_ok.mp haccepts
    obtain ⟨pairs, hpairs, heq⟩ := bind_eq_ok.mp haccepts
    cases heq
    obtain ⟨spokes, hchain, hspokes⟩ := chain_of_foldFrom hpairs
    obtain ⟨hto, hfrom⟩ := List.forall_mem_cons.mp hfaithful
    have hheld : ∀ s ∈ survivor :: spokes, ledger s.objectId = some s := by
      refine List.forall_mem_cons.mpr ⟨?_, fun s hs => ?_⟩
      · obtain ⟨obj, hget, hread⟩ := of_fetchStorageObject hsurvivor
        exact hto obj survivor hget hread
      · obtain ⟨id, hid, hfetch⟩ := exists_of_mem_mapM hspokes hs
        obtain ⟨obj, hget, hread⟩ := of_fetchStorageObject hfetch
        exact hfrom id hid obj s hget hread
    have hnamed : survivor.objectId ≠ "" := fun hid => by
      have hself := hheld survivor List.mem_cons_self
      rw [hid, hempty] at hself
      cases hself
    obtain ⟨hhub, hothers⟩ := List.forall_mem_cons.mp hheld
    refine ⟨⟨survivor.objectId, fun pair hpair => ⟨hchain.into pair hpair, ?_⟩⟩, ?_⟩
    · have hmem : pair.2 ∈ spokes.map (·.objectId) := by
        rw [← hchain.consumed]
        exact List.mem_map_of_mem hpair
      obtain ⟨s, hs, hid⟩ := List.mem_map.mp hmem
      rw [← hid]
      exact hchain.ne_survivor hnamed s hs
    · rw [map_objectNamed hempty hfrom hspokes,
        List.nodup_map_iff (Option.some_injective String)]
      constructor
      · rintro ⟨final, hrun⟩
        rw [← hchain.consumed]
        exact nodup_of_run hrun
      · exact fun hnodup => hchain.run hnamed hhub (hproper.range _ _ hhub) hothers
          (fun s hs => hproper.range _ _ (hothers s hs)) hnodup

/-- A node that answers for these Storage objects. -/
private def holding (storages : List StorageObject) : Holdings where
  production := false
  getObject id := .ok <|
    match storages.find? (·.objectId = id) with
    | some storage => .ok (some {
        objectId := some id
        objectType := some "0x2::storage_resource::Storage"
        ownerAddress := none
        balance := none
        json := some (.dict [(Json.key "storage_size", .int storage.storageSize),
          (Json.key "start_epoch", .int storage.startEpoch),
          (Json.key "end_epoch", .int storage.endEpoch)]) })
    | none => .failed "not found"
  ownedObjects := .ok (.ok (some []))
  walrusEpoch := .ok 0
  transaction _ := ⟨.ok (), fun _ => .ok (), .ok (), .ok (.ok none)⟩

private def ledgerOf (storages : List StorageObject) : Ledger := fun id =>
  storages.find? (·.objectId = id)

private theorem faithful_ledgerOf {parseInt : PyStr → Option Int} (storages : List StorageObject)
    (id : String) : Faithful parseInt (holding storages) (ledgerOf storages) id := by
  intro obj storage hget hread
  simp only [holding] at hget
  split at hget
  · rename_i found hfound
    have hid : found.objectId = id := by simpa using List.find?_some hfound
    cases hget
    cases hread
    rw [← hid] at hfound
    exact hid ▸ hfound
  · cases hget

/-- Two Storage objects of one range, and one that follows them. -/
private def threeStorages : List StorageObject :=
  [⟨"0xa", 0, 5, 1⟩, ⟨"0xb", 0, 5, 1⟩, ⟨"0xc", 5, 10, 2⟩]

private theorem proper_threeStorages : Proper (ledgerOf threeStorages) where
  named id storage h := by
    unfold ledgerOf at h
    simpa using List.find?_some h
  range id storage h := by
    have hall : ∀ s ∈ threeStorages, s.startEpoch < s.endEpoch := by decide
    exact hall storage (List.mem_of_find?_eq_some h)

/-- The second fuse adds the sizes, the third the ranges. -/
theorem fuseStorage_explicit_three :
    ∃ final, Lts.run fuse (ledgerOf threeStorages) [("0xa", "0xb"), ("0xa", "0xc")] =
      some final := by
  have haccepts : fuseTargets World.small.parseInt (holding threeStorages) listOrder
      ⟨some "0xa", ["0xb", "0xc"], false, false, none, none, none, none⟩ "0xowner" =
        .ok ⟨"0xa", [("0xa", "0xb"), ("0xa", "0xc")], []⟩ := by decide
  exact (fuseStorage_explicit (holding threeStorages) World.small ⟨fun _ => .ok (), .ok⟩
    listOrder ⟨rfl, rfl⟩ proper_threeStorages rfl (fun id _ => faithful_ledgerOf _ id)
    haccepts).2.2.mpr (by decide)

/-- An object that is named twice passes both checks, and is consumed by the
first of its calls. -/
theorem fuseStorage_explicit_twice :
    fuseTargets World.small.parseInt (holding threeStorages) listOrder
      ⟨some "0xa", ["0xb", "0xb"], false, false, none, none, none, none⟩ "0xowner" =
        .ok ⟨"0xa", [("0xa", "0xb"), ("0xa", "0xb")], []⟩ ∧
    Lts.run fuse (ledgerOf threeStorages) [("0xa", "0xb"), ("0xa", "0xb")] = none := by
  refine ⟨by decide, ?_⟩
  rfl

end Explicit

end Pytusk.Tusky
