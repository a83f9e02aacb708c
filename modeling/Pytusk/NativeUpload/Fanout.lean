import Pytusk.Chain.Committee
import Pytusk.Certification
import Pytusk.CommitteeFanout
import Pytusk.Encoding.Redstuff
import Pytusk.Types.Protocols

/-!
# `native_upload/fanout.py`: the sliver fan-out

Three nested machines. A PUT retries until it is answered well, gives up, is
cancelled or raises (`putStep`). A node's task PUTs the metadata, then all its
slivers at once, and gives up at the first of them that fails (`nodeStep`).
The driver is the shared fan-out over the node tasks (`step`).

The semaphores and the byte throttle only decide when a PUT may be sent, so a
PUT that waits for them is `waiting`, like one that backs off; every order of
sending is admitted. The one bound that decides more is a `max_node_connections`
of 0: `asyncio.Semaphore(0)` has no permit to give, and no PUT is ever sent. The
write semaphore is sized to at least 1. Logging and the progress heartbeat are
left out.
-/

namespace Pytusk.SliverFanout

open Pytusk.Lib Pytusk.Certification Pytusk.CommitteeFanout

/-! ## One PUT -/

inductive SliverType where
  | primary
  | secondary
  deriving DecidableEq, Repr

/-- What a node is asked to store. -/
inductive WriteCommand where
  | writeMetadata (blobId metadataBcs : Bytes)
  | writeSliver (blobId : Bytes) (sliverPairIndex : Nat) (sliverType : SliverType)
      (data : Bytes)
  deriving DecidableEq, Repr

/-- `(succeeded, failure_reason)`, or how the coroutine ended instead. -/
abbrev PutResult := TaskResult PyExn (Bool × Option String)

/-- Where `_put_metadata` or `_put_sliver` stands in its retry loop. -/
inductive PutState where
  /-- for its permits, or out of a back-off -/
  | waiting (attempt : Nat)
  | inFlight (attempt : Nat)
  | done (result : PutResult)
  deriving DecidableEq, Repr

inductive PutAction where
  | send
  | answer (outcome : ExecuteOutcome Unit)
  | cancel
  deriving Repr

/-- One step of `_put_metadata` or `_put_sliver`. -/
def putStep (maxNodeConnections maxRetries : Int) : PutState → PutAction → Option PutState
  | .waiting attempt, .send =>
      -- nothing releases a permit that nobody holds
      if maxNodeConnections = 0 then none else some (.inFlight attempt)
  | .inFlight _, .answer (.error e) => some (.done (.raised e))
  | .inFlight _, .answer (.ok (.ok _)) => some (.done (.returned (true, none)))
  | .inFlight attempt, .answer (.ok (.failed resultString)) =>
      if attempt ≥ maxRetries then some (.done (.returned (false, some resultString)))
      else some (.waiting (attempt + 1))
  | .waiting _, .cancel | .inFlight _, .cancel => some (.done .cancelled)
  | _, _ => none

def PutState.isDone : PutState → Bool
  | .done _ => true
  | _ => false

/-- What the wire has seen, in order. -/
inductive WireEvent where
  | sent (baseUrl : String) (command : WriteCommand)
  | acknowledged (baseUrl : String) (command : WriteCommand)
  deriving DecidableEq, Repr

/-- The wire's view of a PUT action. -/
def wireEvents (baseUrl : String) (command : WriteCommand) : PutAction → List WireEvent
  | .send => [.sent baseUrl command]
  | .answer (.ok (.ok _)) => [.acknowledged baseUrl command]
  | _ => []

/-! ## One node -/

structure NodeUploadOutcome where
  nodeId : String
  position : Nat
  weight : Nat
  succeeded : Bool
  reason : Option String
  deriving DecidableEq, Repr

/-- What `upload_slivers` is called with, less what only paces it. -/
structure Upload where
  committee : WalrusCommittee
  encoded : EncodedBlob
  maxRetries : Int
  maxNodeConnections : Int

/-- A member of the committee an upload goes to. -/
abbrev Upload.Member (u : Upload) := {m // m ∈ u.committee.members}

/-- Why the wait for the slivers was left with PUTs still pending. -/
inductive Leaving where
  | failed (reason : String)
  | cancelled
  deriving DecidableEq, Repr

/-- What a node's task is suspended in. -/
inductive NodePhase where
  | metadata (put : PutState)
  /-- `asyncio.wait(pending, return_when=FIRST_COMPLETED)` -/
  | slivers (pending : List Nat)
  /-- `gather(*pending)` in the `finally` block -/
  | cleanup (pending : List Nat) (leaving : Leaving)
  | ended (result : TaskResult PyExn NodeUploadOutcome)
  deriving DecidableEq, Repr

structure NodeState where
  phase : NodePhase
  /-- the sliver tasks, in the order of `put_specs` -/
  tasks : List (WriteCommand × PutState)
  /-- what the wire has seen of this node -/
  log : List WireEvent
  deriving DecidableEq, Repr

inductive NodeAction where
  | metadata (action : PutAction)
  | sliver (task : Nat) (action : PutAction)
  | wake (done : List Nat)
  | cleaned
  | cancel
  deriving Repr

section Node

variable (u : Upload) (m : WalrusCommitteeMember)

def metadataCommand : WriteCommand :=
  .writeMetadata u.encoded.blobId u.encoded.metadataBcs

/-- The two PUTs of one shard. -/
def pairCommands (pair : RedstuffSliverPair) : List WriteCommand :=
  [.writeSliver u.encoded.blobId pair.sliverPairIndex .primary pair.primary,
    .writeSliver u.encoded.blobId pair.sliverPairIndex .secondary pair.secondary]

/-- `put_specs` -/
def putSpecs : Except PyExn (List WriteCommand) := do
  let pairs ← m.shardIndices.mapM fun shardIndex =>
    match u.encoded.slivers[shardIndex]? with
    | some pair => .ok pair
    | none => .error (.indexError "tuple index out of range")
  return pairs.flatMap (pairCommands u)

/-- The end of `_upload_node`: its outcome, failed if there is a reason. -/
def endNode (reason : Option String) : TaskResult PyExn NodeUploadOutcome :=
  match u.committee.positionOf m.nodeId with
  | .error e => .raised e
  | .ok position =>
      .returned {
        nodeId := m.nodeId
        position := position
        weight := m.weight
        succeeded := reason.isNone
        reason := reason }

/-- The state of a node's task at its first suspension. -/
def startNode : NodeState where
  phase :=
    if u.maxNodeConnections < 0 then
      .ended (.raised (.valueError "Semaphore initial value must be >= 0"))
    else .metadata (.waiting 0)
  tasks := []
  log := []

/-- What follows the metadata PUT. -/
def afterMetadata (s : NodeState) : PutResult → NodeState
  | .raised e => { s with phase := .ended (.raised e) }
  | .cancelled => { s with phase := .ended .cancelled }
  | .returned (false, reason) =>
      let metadataReason := reason.getD "None"
      { s with phase := .ended (endNode u m (some s!"metadata: {metadataReason}")) }
  | .returned (true, _) =>
      match putSpecs u m with
      | .error e => { s with phase := .ended (.raised e) }
      | .ok [] => { s with phase := .ended (endNode u m none) }
      | .ok specs =>
          { s with
            phase := .slivers (List.range specs.length)
            tasks := specs.map fun command => (command, .waiting 0) }

/-- `task.done()` for a sliver task. -/
def NodeState.isDone (s : NodeState) (i : Nat) : Bool :=
  match s.tasks[i]? with
  | some (_, put) => put.isDone
  | none => false

/-- The reason the `for task in done` loop stops with, if any. -/
def failedReason (s : NodeState) : List Nat → Option String
  | [] => none
  | i :: rest =>
      match s.tasks[i]? with
      | some (_, .done (.returned (true, _))) => failedReason s rest
      | some (_, .done (.returned (false, reason))) => reason
      | some (_, .done (.raised e)) => some e.describe
      | some (_, .done .cancelled) => some "CancelledError: "
      | _ => failedReason s rest

/-- The `finally` block: cancel what is pending and wait for it. -/
def leaveNode (pending : List Nat) (leaving : Leaving) (s : NodeState) : NodeState :=
  if pending = [] then
    match leaving with
    | .failed reason => { s with phase := .ended (endNode u m (some reason)) }
    | .cancelled => { s with phase := .ended .cancelled }
  else { s with phase := .cleanup pending leaving }

/-- `FIRST_COMPLETED` returned with `done`. -/
def wakeNode (pending done : List Nat) (s : NodeState) : NodeState :=
  let pending' := pending.filter fun i => !s.isDone i
  match failedReason s done with
  | some reason => leaveNode u m pending' (.failed reason) s
  | none =>
      if pending' = [] then { s with phase := .ended (endNode u m none) }
      else { s with phase := .slivers pending' }

def nodeStep (s : NodeState) : NodeAction → Option NodeState
  | .metadata a =>
      match s.phase with
      | .metadata put => do
          let put' ← putStep u.maxNodeConnections u.maxRetries put a
          let s' := { s with
            phase := .metadata put'
            log := s.log ++ wireEvents m.baseUrl (metadataCommand u) a }
          match put' with
          | .done result => some (afterMetadata u m s' result)
          | _ => some s'
      | _ => none
  | .sliver i a =>
      match s.phase, s.tasks[i]? with
      | .slivers _, some (command, put) | .cleanup _ _, some (command, put) => do
          let put' ← putStep u.maxNodeConnections u.maxRetries put a
          some { s with
            tasks := s.tasks.set i (command, put')
            log := s.log ++ wireEvents m.baseUrl command a }
      | _, _ => none
  | .wake done =>
      match s.phase with
      | .slivers pending =>
          if done ≠ [] ∧ done.Perm (pending.filter s.isDone) then
            some (wakeNode u m pending done s)
          else none
      | _ => none
  | .cleaned =>
      match s.phase with
      | .cleanup pending leaving =>
          if pending.all s.isDone then some (leaveNode u m [] leaving s) else none
      | _ => none
  | .cancel =>
      match s.phase with
      | .metadata _ => some { s with phase := .ended .cancelled }
      | .slivers pending => some (leaveNode u m pending .cancelled s)
      | .cleanup pending _ => some { s with phase := .cleanup pending .cancelled }
      | .ended _ => none

end Node

/-! ## The driver -/

section Driver

variable (u : Upload)

/-- A shard, under the id of the node that holds it. -/
def shardHolder (shardIndex : Nat) : Except PyExn (String × Nat) := do
  let member ← u.committee.memberForShard shardIndex
  return (member.nodeId, shardIndex)

/-- `shards_by_node` -/
def shardsByNode : Except PyExn (Dict String (List Nat)) := do
  let holders ← (List.range u.committee.nShards).mapM (shardHolder u)
  return Dict.groupFold (fun shards shardIndex => shards ++ [shardIndex]) [] holders

/-- `members_by_node_id`: of two members with one id, the later wins. -/
def membersByNodeId : Dict String WalrusCommitteeMember :=
  Dict.fromItems (fun m => m.nodeId) id u.committee.members

theorem mem_of_membersByNodeId {nodeId : String} {m : WalrusCommitteeMember}
    (h : Dict.get? (membersByNodeId u) nodeId = some m) :
    m ∈ u.committee.members ∧ m.nodeId = nodeId := by
  obtain ⟨_, hm, hid, rfl⟩ := Dict.exists_of_get?_fromItems h
  exact ⟨hm, hid⟩

/-- `members_by_node_id[node_id]` -/
def memberByNodeId (nodeId : String) : Except PyExn u.Member :=
  match h : Dict.get? (membersByNodeId u) nodeId with
  | some m => .ok ⟨m, (mem_of_membersByNodeId u h).1⟩
  | none => .error (.keyError nodeId)

/-- The members a task is created for, in creation order. The first line of
the stage already reads `encoded.slivers[0]`. -/
def dispatched : Except PyExn (List u.Member) :=
  if u.encoded.slivers = [] then .error (.indexError "tuple index out of range")
  else do
    let shards ← shardsByNode u
    (Dict.keys shards).mapM (memberByNodeId u)

def requiredWeight : Int := minWeightForQuorum u.committee.nShards

/-- `outcomes` and `weight_succeeded`. -/
structure Tally where
  outcomes : List NodeUploadOutcome
  weightSucceeded : Nat
  deriving DecidableEq, Repr

/-- A failed outcome the driver writes for a task itself. -/
def failedOutcome (m : u.Member) (reason : String) : NodeUploadOutcome where
  nodeId := m.1.nodeId
  position := u.committee.memberPosition m
  weight := m.1.weight
  succeeded := false
  reason := some reason

/-- `_outcome_from_task` -/
def outcomeFromTask (m : u.Member) : TaskResult PyExn NodeUploadOutcome → NodeUploadOutcome
  | .returned outcome => outcome
  | .raised e => failedOutcome u m e.describe
  | .cancelled => failedOutcome u m "CancelledError: "

/-- `_fold` -/
def fold (m : u.Member) (t : Tally) (r : TaskResult PyExn NodeUploadOutcome) : Tally :=
  let outcome := outcomeFromTask u m r
  { outcomes := t.outcomes ++ [outcome]
    weightSucceeded :=
      if outcome.succeeded then t.weightSucceeded + outcome.weight
      else t.weightSucceeded }

variable {u} (ms : List u.Member)

/-- A node's task, by its place in the creation order. -/
abbrev NodeTask := Fin ms.length

def callbacks : Callbacks (NodeTask ms) PyExn NodeUploadOutcome Tally where
  onCompleted t i r := fold u (ms.get i) t r
  onCancelled t i :=
    { t with outcomes := t.outcomes ++ [failedOutcome u (ms.get i) "cancelled"] }
  shouldStop t := requiredWeight u ≤ t.weightSucceeded

def Tally.empty : Tally := ⟨[], 0⟩

/-- The driver, its node tasks and the sliver tasks of each. -/
structure State where
  driver : CommitteeFanout.State (NodeTask ms) PyExn NodeUploadOutcome Tally
  nodes : NodeTask ms → NodeState

inductive Action where
  | node (task : NodeTask ms) (action : NodeAction)
  | driver (action : CommitteeFanout.Action (NodeTask ms) PyExn NodeUploadOutcome)

def tasks : List (NodeTask ms) := List.finRange ms.length

/-- The driver's own task suspends for the first time. -/
def start : State ms where
  driver := CommitteeFanout.start (tasks ms) .empty
  nodes _ := startNode u

/-- A node's task takes a step; once it has ended, the driver's task is told
(`finish`). Every other step is the driver's own. -/
def step (s : State ms) : Action ms → Option (State ms)
  | .node i a => do
      let node ← nodeStep u (ms.get i).1 (s.nodes i) a
      some { s with nodes := Function.update s.nodes i node }
  | .driver (.finish i r) =>
      if (s.nodes i).phase = .ended r then do
        let driver ← CommitteeFanout.step (callbacks ms) (tasks ms) s.driver (.finish i r)
        some { s with driver := driver }
      else none
  | .driver a => do
      let driver ← CommitteeFanout.step (callbacks ms) (tasks ms) s.driver a
      some { s with driver := driver }

def Runs (acts : List (Action ms)) (s : State ms) : Prop :=
  Lts.run (step ms) (start ms) acts = some s

end Driver

/-! ## The stage -/

structure FanoutReport where
  outcomes : List NodeUploadOutcome
  weightSucceeded : Nat
  nShards : Nat
  deriving DecidableEq, Repr

/-- `failures_by_reason`, an empty reason counted as `"unknown"`. -/
def failuresByReason (outcomes : List NodeUploadOutcome) : Dict String Nat :=
  let failed := outcomes.filter fun outcome => !outcome.succeeded
  Dict.groupFold (fun count _ => count + 1) 0 <| failed.map fun outcome =>
    (match outcome.reason with | some "" | none => "unknown" | some reason => reason, ())

def failureSummary (outcomes : List NodeUploadOutcome) : String :=
  let sorted := (failuresByReason outcomes).mergeSort fun a b => a.1 ≤ b.1
  String.intercalate ", " (sorted.map fun item => s!"{item.1}={item.2}")

/-- What follows the fan-out. -/
def finish (u : Upload) (t : Tally) : Except PyExn FanoutReport :=
  if t.weightSucceeded < requiredWeight u then
    let failures := failureSummary t.outcomes
    let summary := if failures = "" then "none" else failures
    .error (.nativeUpload .sliverUploadError
      (s!"Sliver fan-out reached weight {t.weightSucceeded}, requires " ++
        s!"{requiredWeight u} for n_shards={u.committee.nShards}; failures " ++
        s!"by reason: {summary}")
      "upload_slivers" none)
  else
    .ok {
      outcomes := t.outcomes
      weightSucceeded := t.weightSucceeded
      nShards := u.committee.nShards }

/-- How `upload_slivers` ends: before any task is created, or once the fan-out
has returned. -/
inductive Uploads (u : Upload) : Except PyExn FanoutReport → Prop where
  | undispatched {e} (h : dispatched u = .error e) : Uploads u (.error e)
  | uploaded {ms : List u.Member} {acts s} (h : dispatched u = .ok ms)
      (hrun : Runs ms acts s) (hexit : s.driver.phase = .exited .returned) :
      Uploads u (finish u s.driver.acc)

end Pytusk.SliverFanout
