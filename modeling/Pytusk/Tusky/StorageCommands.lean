import Pytusk.Lib.GraphSearch
import Pytusk.Ops.StorageCompose
import Pytusk.Ops.StorageReads
import Pytusk.Tusky.Sending
import Mathlib.Data.List.MinMax
import Mathlib.Data.String.Basic

/-!
# `tusky/tusky_cmds_storage.py`: fusing Storage objects

The three modes of `fuse_storage`: by name, by amount and by periods. Python
iterates a `set` in an order that depends on hashes; where the code does, the
order is a parameter.
-/

namespace Pytusk.Tusky

open Pytusk.Lib Pytusk.Ops

/-! ## Compatible objects -/

/-- `_fuse_amount_groups` -/
def fuseAmountGroups (storages : List StorageObject) : List (List StorageObject) :=
  let buckets : Dict (Int × Int) (List StorageObject) :=
    Dict.groupFold (fun group storage => group ++ [storage]) []
      (storages.map fun storage => ((storage.startEpoch, storage.endEpoch), storage))
  (buckets.map Prod.snd).filter fun group => 2 ≤ group.length

/-- Do the two fuse by their periods? -/
def periodsCompatible (first second : StorageObject) : Bool :=
  first.startEpoch ≠ second.startEpoch && (fuseIncompatibility first second).isNone

/-- `_fuse_periods_pairs` -/
def fusePeriodsPairs : List StorageObject → List (StorageObject × StorageObject)
  | [] => []
  | first :: rest =>
      ((rest.filter (periodsCompatible first)).map fun second => (first, second)) ++
        fusePeriodsPairs rest

/-- `_fuse_chain_state` -/
def fuseChainState (first second : StorageObject) : StorageObject :=
  if first.startEpoch = second.startEpoch then
    { first with storageSize := first.storageSize + second.storageSize }
  else
    { first with
      startEpoch := min first.startEpoch second.startEpoch
      endEpoch := max first.endEpoch second.endEpoch }

/-! ## The chain -/

/-- The locals of the loops: what was folded in so far, and what was not. -/
structure Folding where
  survivor : StorageObject
  pairs : List (String × String)
  remaining : List StorageObject
  progress : Bool
  deriving DecidableEq, Repr

/-- The body of the loop over the spokes; `remaining` is `still_remaining`. -/
def Folding.fold (c : Folding) (spoke : StorageObject) : Folding :=
  if c.survivor.startEpoch = spoke.startEpoch then
    { c with remaining := c.remaining ++ [spoke] }
  else if fusePeriodsIncompatibility c.survivor spoke = none then
    { c with
      pairs := c.pairs ++ [(c.survivor.objectId, spoke.objectId)]
      survivor := fuseChainState c.survivor spoke
      progress := true }
  else { c with remaining := c.remaining ++ [spoke] }

/-- One pass over the spokes. -/
def Folding.pass (c : Folding) : Folding :=
  c.remaining.foldl Folding.fold { c with remaining := [], progress := false }

/-- `remaining and progress` -/
def Folding.goesOn (c : Folding) : Bool := !c.remaining.isEmpty && c.progress

def Folding.start (hub : StorageObject) (spokes : List StorageObject) : Folding :=
  ⟨hub, [], spokes, true⟩

/-- Where the loop ends; it takes a pass for each spoke and one more at most. -/
def foldAll (hub : StorageObject) (spokes : List StorageObject) : Folding :=
  whileRun Folding.goesOn Folding.pass (spokes.length + 1) (Folding.start hub spokes)

/-- `_fuse_periods_chain` -/
def fusePeriodsChain (hub : StorageObject) (spokes : List StorageObject) :
    List (String × String) × List StorageObject :=
  let c := foldAll hub spokes
  (c.pairs, c.remaining)

/-! ## Clusters -/

/-- The order in which a `set` of ids is iterated, at each point of a search:
told apart by what the search has collected. -/
structure SetOrder where
  iterate : List String → List String → List String
  perm : ∀ collected ids, (iterate collected ids).Perm ids

/-- A `set` that is iterated in the order it is kept in. -/
def listOrder : SetOrder := ⟨fun _ ids => ids, fun _ _ => .refl _⟩

/-- `adjacency.setdefault(key, set()).add(id)` -/
def addNeighbour (adjacency : Dict String (List String)) (key id : String) :
    Dict String (List String) :=
  Dict.alter key (fun ids => (ids.getD []).insert id) adjacency

def adjacencyOf (pairs : List (StorageObject × StorageObject)) : Dict String (List String) :=
  pairs.foldl (fun adjacency pair =>
    addNeighbour (addNeighbour adjacency pair.1.objectId pair.2.objectId)
      pair.2.objectId pair.1.objectId) []

/-- `adjacency.get(id, set())` -/
def neighbours (adjacency : Dict String (List String)) (id : String) : List String :=
  (Dict.get? adjacency id).getD []

/-- What a node that is popped pushes: `adjacency.get(current, set()) - component_ids`. -/
def pushes (order : SetOrder) (adjacency : Dict String (List String))
    (componentIds : List String) (current : String) : List String :=
  order.iterate componentIds ((neighbours adjacency current).filter (· ∉ componentIds))

/-- The ids of the component of one id. -/
def componentIds (order : SetOrder) (adjacency : Dict String (List String))
    (objectId : String) : List String :=
  let start := GraphSearch.start objectId
  let turns := GraphSearch.remaining (neighbours adjacency) (Dict.keys adjacency) start
  (whileRun GraphSearch.pending (GraphSearch.visit (pushes order adjacency)) turns
    start).collected

/-- The loop over the ids: `seen`, and the components in ids. -/
def collectComponents (order : SetOrder) (adjacency : Dict String (List String)) :
    List String × List (List String) :=
  (Dict.keys adjacency).foldl (fun acc objectId =>
    if objectId ∈ acc.1 then acc
    else
      let ids := componentIds order adjacency objectId
      (acc.1 ++ ids, acc.2 ++ [ids])) ([], [])

/-- `by_id[i]` -/
def lookupStorage (byId : Dict String StorageObject) (id : String) :
    Except PyExn StorageObject :=
  match Dict.get? byId id with
  | some storage => .ok storage
  | none => .error (.keyError s!"'{id}'")

/-- `_periods_components` -/
def periodsComponents (order : SetOrder) (storages : List StorageObject) :
    Except PyExn (List (List StorageObject)) :=
  let byId := Dict.fromItems (·.objectId) id storages
  let components := (collectComponents order (adjacencyOf (fusePeriodsPairs storages))).2
  components.mapM fun ids => (ids.mergeSort (· ≤ ·)).mapM (lookupStorage byId)

/-! ## Which objects are fused -/

/-- `f"[{start_epoch}, {end_epoch})"` -/
def shownRange (startEpoch endEpoch : Int) : String := s!"[{startEpoch}, {endEpoch})"

/-- The ranges among which the user is asked to choose. -/
def shownGroups (groups : List (List StorageObject)) : String :=
  ", ".intercalate (groups.map fun group =>
    match group with
    | [] => ""
    | g :: _ => shownRange g.startEpoch g.endEpoch ++ s!" ({group.length} objects)")

/-- The test for a group by its first object. -/
def isRange (startEpoch endEpoch : Int) (group : List StorageObject) : Bool :=
  match group with
  | [] => false
  | g :: _ => g.startEpoch = startEpoch && g.endEpoch = endEpoch

/-- `_resolve_amount_targets` -/
def resolveAmountTargets (storages : List StorageObject) (startEpoch endEpoch : Option Int) :
    Except PyExn (List StorageObject) :=
  let groups := fuseAmountGroups storages
  match startEpoch, endEpoch with
  | some startEpoch, some endEpoch =>
      match groups.find? (isRange startEpoch endEpoch) with
      | some group => .ok group
      | none =>
          let range := shownRange startEpoch endEpoch
          .error (.valueError s!"No fuse_amount group exists for epoch range {range}.")
  | none, none =>
      match groups with
      | [] => .error (.valueError "No fuse_amount-compatible objects found.")
      | [group] => .ok group
      | groups =>
          .error (.valueError ("Multiple fuse_amount epoch-range groups exist -- pass " ++
            "--start-epoch and --end-epoch to name which one: " ++ shownGroups groups))
  | _, _ => .error (.valueError "--start-epoch and --end-epoch must be given together.")

/-- The clusters among which the user is asked to choose. -/
def shownClusters (components : List (List StorageObject)) : String :=
  "; ".intercalate (components.map fun c =>
    "\x7b" ++ ", ".intercalate (c.map (·.objectId)) ++ "\x7d")

/-- `_resolve_periods_targets` -/
def resolvePeriodsTargets (order : SetOrder) (storages : List StorageObject)
    (fuseTo : Option String) : Except PyExn (StorageObject × List StorageObject) := do
  let components ← periodsComponents order storages
  match fuseTo.filter (· ≠ "") with
  | some fuseTo =>
      match components.find? fun c => c.any (·.objectId = fuseTo) with
      | none =>
          .error (.valueError
            s!"{fuseTo} is not part of any fuse_periods-compatible cluster.")
      | some component =>
          match component.find? (·.objectId = fuseTo) with
          | none => .error (.builtin .exception "StopIteration")
          | some hub => return (hub, component.filter (·.objectId ≠ fuseTo))
  | none =>
      match components with
      | [] => .error (.valueError "No fuse_periods-compatible objects found.")
      | [component] =>
          match component.argmin (·.objectId) with
          | none => .error (.valueError "min() arg is an empty sequence")
          | some hub => return (hub, component.filter (·.objectId ≠ hub.objectId))
      | components =>
          .error (.valueError ("Multiple fuse_periods-compatible clusters exist -- pass " ++
            "--fuse-to naming any object in the cluster to consolidate " ++
            "around: " ++ shownClusters components))

end Pytusk.Tusky
