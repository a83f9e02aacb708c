import Pytusk.Certification
import Pytusk.CommitteeFanout.Choreography
import Pytusk.Types.BlobStatus
import Pytusk.Types.Protocols
import Mathlib.Data.List.FinRange

/-!
# `ops/blob_status.py`: the committee-wide status query

One task per committee member, folded into per-status weights by the
fan-out; the deadline may cancel the driver at any await, or expire before
its first step. Whatever was folded by then is resolved against the two
shard-weight thresholds, and every member is accounted for.
-/

namespace Pytusk.BlobStatusQuery

open Pytusk.Lib Pytusk.Certification Pytusk.CommitteeFanout

/-! ## One node's answer -/

def nodeRef (m : WalrusCommitteeMember) : NodeRef :=
  { nodeId := m.nodeId, networkAddress := m.networkAddress, weight := m.weight }

/-- `_status_from_node`, from what `client.execute` gave back. -/
def statusFromNode : ExecuteOutcome ReportedStatus →
    Option ReportedStatus × Option DissentReason
  | .error _ => (none, some .error)
  | .ok (.failed _) => (none, some .error)
  | .ok (.ok none) => (none, some .error)
  | .ok (.ok (some status)) => (some status, none)

def certaintyRank : ReportedStatus → Nat
  | .invalid _ => 0
  | .permanent .. => 1
  | .deletable .. => 2
  | .nonexistent => 3

/-! ## The accumulators -/

/-- `weight_by_status`, `nodes_by_status`, `failures` and `answered`. -/
structure Tally where
  weightByStatus : Dict ReportedStatus Nat
  nodesByStatus : Dict ReportedStatus (List NodeRef)
  failures : List NodeDissent
  answered : List String
  deriving DecidableEq, Repr

def Tally.empty : Tally := ⟨[], [], [], []⟩

/-- How a status node task ends. -/
abbrev StatusTask := TaskResult PyExn (ExecuteOutcome ReportedStatus)

/-- `failures.append(NodeDissent(...))` -/
def Tally.fail (t : Tally) (node : NodeRef) (reason : DissentReason) : Tally :=
  { t with failures := t.failures ++ [⟨node, reason⟩] }

/-- `_fold` -/
def fold (m : WalrusCommitteeMember) (t : Tally) (r : StatusTask) : Tally :=
  let t := { t with answered := t.answered ++ [m.nodeId] }
  match r with
  | .cancelled => t.fail (nodeRef m) .notChecked
  | .raised _ => t.fail (nodeRef m) .error
  | .returned outcome =>
      match statusFromNode outcome with
      | (none, reason) => t.fail (nodeRef m) (reason.getD .error)
      | (some status, _) =>
          { t with
            weightByStatus := t.weightByStatus.alter status fun w =>
              w.getD 0 + (nodeRef m).weight
            nodesByStatus := t.nodesByStatus.alter status fun l =>
              l.getD [] ++ [nodeRef m] }

/-- `_cancelled` -/
def cancelled (m : WalrusCommitteeMember) (t : Tally) : Tally :=
  { t with answered := t.answered ++ [m.nodeId] }.fail (nodeRef m) .timeout

/-- `_quorum_reached` -/
def quorumReached (requiredQuorum : Int) (t : Tally) : Bool :=
  t.weightByStatus.any fun item => requiredQuorum ≤ item.2

/-- The callbacks handed to the fan-out; tasks are committee positions. -/
def callbacks (c : WalrusCommittee) :
    Callbacks (Fin c.members.length) PyExn (ExecuteOutcome ReportedStatus) Tally where
  onCompleted t i r := fold (c.members.get i) t r
  onCancelled t i := cancelled (c.members.get i) t
  shouldStop := quorumReached (minWeightForQuorum c.nShards)

/-! ## The verdict -/

def resolve (weightByStatus : Dict ReportedStatus Nat)
    (requiredQuorum requiredValidity : Int) : BlobStatus × Resolution :=
  match weightByStatus.find? fun item => requiredQuorum ≤ item.2 with
  | some item => (.reported item.1, .quorum)
  | none =>
      let candidates :=
        (weightByStatus.filter fun item => requiredValidity ≤ item.2).map Prod.fst
      -- `sort` is stable, as insertion from the right is
      match candidates.insertionSort fun a b => certaintyRank a ≤ certaintyRank b with
      | status :: _ => (.reported status, .validity)
      | [] => (.unresolved, .unresolved)

/-- Members that were never folded are recorded as unchecked. -/
def reconcile (c : WalrusCommittee) (t : Tally) : Tally :=
  c.members.foldl
    (fun t' m => if m.nodeId ∈ t.answered then t' else t'.fail (nodeRef m) .notChecked)
    t

/-- `nodes_by_status.get(verdict, ())` -/
def backing (nodesByStatus : Dict ReportedStatus (List NodeRef)) :
    BlobStatus → List NodeRef
  | .reported status => (nodesByStatus.get? status).getD []
  | .unresolved => []

/-- The nodes of every other status, with the reason each is given. -/
def disagreeing (nodesByStatus : Dict ReportedStatus (List NodeRef))
    (verdict : BlobStatus) : List NodeDissent :=
  nodesByStatus.flatMap fun item =>
    if .reported item.1 = verdict then []
    else
      let reason := if item.1 = .nonexistent then .notStored else .disagreed
      item.2.map fun node => ⟨node, reason⟩

/-- Everything after the fan-out. -/
def buildReport (c : WalrusCommittee) (blobId : Bytes) (t : Tally) :
    BlobStatusReport :=
  let t := reconcile c t
  let (verdict, resolution) := resolve t.weightByStatus
    (minWeightForQuorum c.nShards) (minWeightForValidity c.nShards)
  { blobId := blobId
    status := verdict
    resolution := resolution
    committeeEpoch := c.epoch
    confirming := backing t.nodesByStatus verdict
    dissenting := t.failures ++ disagreeing t.nodesByStatus verdict }

/-- What the fan-out has reported, and folded, when the report is built: the
driver returned, or the deadline cancelled it at one of its awaits, or the
deadline had passed before it took its first step. -/
inductive Fetched (c : WalrusCommittee) :
    List (Report (Fin c.members.length) PyExn (ExecuteOutcome ReportedStatus)) →
      Tally → Prop where
  | driven {acts s exit} (hrun : Runs (callbacks c)
      (List.finRange c.members.length) .empty acts s)
      (hexit : s.phase = .exited exit) : Fetched c s.reports s.acc
  | expired : Fetched c [] .empty

end Pytusk.BlobStatusQuery
