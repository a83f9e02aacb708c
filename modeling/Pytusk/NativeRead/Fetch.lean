import Pytusk.CommitteeFanout.Choreography
import Pytusk.Encoding.Redstuff
import Pytusk.Encoding.Rotation
import Pytusk.Lib.FirstWins
import Pytusk.Types.Protocols
import Mathlib.Data.List.FinRange

/-!
# `native_read/fetch.py`: the sliver fan-out

One task per member, which asks for each of the member's slivers; what comes
back is deduplicated by content and attributed to whoever served it first. Every
order in which answers arrive is admitted here; which of them arrive at all,
with the semaphores that a request has to pass, is the subject of `Permits`.
-/

namespace Pytusk.NativeRead

open Pytusk.Lib Pytusk.CommitteeFanout

/-- What a read can raise. -/
inductive ReadExn where
  | sliverFetchError (message stage : String)
  | blobDecodeError (message : String)
  | sliverVerificationError (message : String)
  | raised (exc : PyExn)
  deriving DecidableEq, Repr

inductive Axis where
  | primary
  | secondary
  deriving DecidableEq, Repr

/-- The value of the literal. -/
def Axis.text : Axis → String
  | .primary => "primary"
  | .secondary => "secondary"

/-- One `ReadSliver`, with the node it is sent to. -/
structure ReadSliver where
  blobId : Bytes
  sliverPairIndex : Int
  sliverType : Axis
  maxBytes : Option Nat
  baseUrl : String
  deriving DecidableEq, Repr

/-- `(sliver_bytes, node_id)` -/
abbrev Attributed := Bytes × String

/-- What `_fetch_slivers_attributed` is called with. -/
structure Fetch where
  committee : WalrusCommittee
  blobId : Bytes
  axis : Axis
  threshold : Nat
  excludeNodeIds : List String
  maxSliverBytes : Option Nat

namespace Fetch

variable (f : Fetch)

/-- A node, by its committee position, which also names its task. -/
abbrev Node := Fin f.committee.members.length

/-- How a node answers: for each of its shards, by place, and each request. -/
abbrev Answers := f.Node → Nat → ReadSliver → ExecuteOutcome Bytes

def member (i : f.Node) : WalrusCommitteeMember := f.committee.members.get i

/-! ## One node -/

/-- The request `_one` sends for a shard. -/
def request (m : WalrusCommitteeMember) (shardIndex : Nat) : Except PyExn ReadSliver := do
  let pairIndex ← Redstuff.shardIndexToPairIndex shardIndex f.blobId f.committee.nShards
  return {
    blobId := f.blobId
    sliverPairIndex := pairIndex
    sliverType := f.axis
    maxBytes := f.maxSliverBytes
    baseUrl := m.baseUrl }

/-- The content a response carries, if it is usable. -/
def content : SuiRpcResult Bytes → Option Bytes
  | .ok payload => payload
  | .failed _ => none

/-- `_one` -/
def one (m : WalrusCommitteeMember) (answer : ReadSliver → ExecuteOutcome Bytes)
    (shardIndex : Nat) : Except PyExn (Option Bytes) := do
  let command ← f.request m shardIndex
  let result ← answer command
  return content result

/-- `isinstance(item, bytes)`, of what `gather` collected. -/
def gathered : Except PyExn (Option Bytes) → Option Bytes
  | .ok item => item
  | .error _ => none

/-- `_fetch_node_slivers` -/
def fetchNodeSlivers (m : WalrusCommitteeMember)
    (answers : Nat → ReadSliver → ExecuteOutcome Bytes) : List Bytes :=
  m.shardIndices.zipIdx.filterMap fun shard => gathered (f.one m (answers shard.2) shard.1)

/-- What a node's task returns. -/
def slivers (answers : f.Answers) (i : f.Node) : List Bytes :=
  f.fetchNodeSlivers (f.member i) (answers i)

/-! ## The fan-out -/

/-- The members that are asked. -/
def tasks : List f.Node :=
  (List.finRange f.committee.members.length).filter fun i =>
    (f.member i).shardIndices ≠ [] ∧ (f.member i).nodeId ∉ f.excludeNodeIds

/-- `collected` and `nodes_answered`; `seen` is the contents of `collected`. -/
structure Collected where
  collected : List Attributed
  nodesAnswered : Nat
  deriving DecidableEq, Repr

def Collected.empty : Collected := ⟨[], 0⟩

/-- `_fold` -/
def fold (m : WalrusCommitteeMember) (acc : Collected) :
    TaskResult PyExn (List Bytes) → Collected
  | .returned nodeSlivers =>
      if nodeSlivers = [] then acc
      else
        { collected := FirstWins.addAll acc.collected
            (nodeSlivers.map fun sliver => (sliver, m.nodeId))
          nodesAnswered := acc.nodesAnswered + 1 }
  | _ => acc

/-- The callbacks handed to the fan-out; stragglers are ignored. -/
def callbacks : Callbacks f.Node PyExn (List Bytes) Collected where
  onCompleted acc i r := fold (f.member i) acc r
  onCancelled acc _ := acc
  shouldStop acc := f.threshold ≤ acc.collected.length

/-- What follows the fan-out. -/
def finish (acc : Collected) : Except ReadExn (List Attributed) :=
  if acc.collected.length < f.threshold then
    .error (.sliverFetchError
      (s!"Sliver fan-out collected {acc.collected.length} of {f.threshold} " ++
        s!"required {f.axis.text} slivers for blob " ++
        s!"{Redstuff.blobIdToUrlBase64 f.blobId} " ++
        s!"from {acc.nodesAnswered} responding node(s)")
      "fetch_slivers")
  else .ok acc.collected

/-- The driver's state while it waits for the nodes. -/
abbrev Driver := State f.Node PyExn (List Bytes) Collected

abbrev DriverAction := Action f.Node PyExn (List Bytes)

/-- How a call can end: once the fan-out has returned, having folded the answers
of the nodes in `order`. -/
inductive Ends (answers : f.Answers) : List f.Node → Except ReadExn (List Attributed) → Prop where
  | collected {acts : List f.DriverAction} {s : f.Driver}
      (hrun : Runs f.callbacks f.tasks .empty acts s) (hexit : s.phase = .exited .returned)
      (hans : ∀ i r, Report.completed i r ∈ s.reports → r = .returned (f.slivers answers i)) :
      Ends answers (folded s.reports) (f.finish s.acc)

end Fetch

end Pytusk.NativeRead
