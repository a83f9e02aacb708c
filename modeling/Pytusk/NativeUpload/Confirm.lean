import Pytusk.Certification
import Pytusk.CommitteeFanout.Choreography
import Pytusk.Encoding.ObjectIds
import Pytusk.Types.Protocols
import Pytusk.Types.Receipts
import Mathlib.Data.List.FinRange

/-!
# `native_upload/confirm.py`: collecting confirmations

Every candidate is asked for its confirmation; usable answers are folded and
their weight counted before anything is verified; the certificate is built
from what was folded when the fan-out returned. The request semaphore only
restricts the order in which answers can arrive, so every order is admitted.
-/

namespace Pytusk.Confirm

open Pytusk.Lib Pytusk.Certification Pytusk.CommitteeFanout

/-! ## One node -/

/-- The data of a successful `ReadStorageConfirmation`. -/
structure SignedConfirmation where
  serializedMessage : Bytes
  signature : Bytes
  deriving DecidableEq, Repr

/-- `_confirm_node`, from what `client.execute` gave back. -/
def confirmNode (c : WalrusCommittee) (m : WalrusCommitteeMember) :
    ExecuteOutcome SignedConfirmation →
      Except PyExn (Option NodeConfirmation × Option String)
  | .error e => .error e
  | .ok (.failed resultString) => .ok (none, some resultString)
  | .ok (.ok none) =>
      .error (.builtin .attributeError
        "'NoneType' object has no attribute 'serialized_message'")
  | .ok (.ok (some signed)) => do
      let position ← c.positionOf m.nodeId
      return (some {
        nodeId := m.nodeId
        position := position
        weight := m.weight
        publicKey := m.publicKey
        serializedMessage := signed.serializedMessage
        signature := signed.signature }, none)

/-- How a confirmation task ends. -/
abbrev ConfirmTask := TaskResult PyExn (ExecuteOutcome SignedConfirmation)

/-- `_confirmation_outcome_from_task`: a raised exception is a failure. -/
def confirmationOutcomeFromTask (c : WalrusCommittee) (m : WalrusCommitteeMember) :
    ConfirmTask → Option NodeConfirmation × Option String
  | .cancelled => (none, some "CancelledError: ")
  | .raised e => (none, some e.describe)
  | .returned outcome =>
      match confirmNode c m outcome with
      | .error e => (none, some e.describe)
      | .ok pair => pair

/-! ## The fan-out -/

/-- `confirmations` and `weight_confirmed`. -/
structure Collected where
  confirmations : List NodeConfirmation
  weightConfirmed : Nat
  deriving DecidableEq, Repr

def Collected.empty : Collected := ⟨[], 0⟩

/-- `_fold` -/
def fold (c : WalrusCommittee) (m : WalrusCommitteeMember) (acc : Collected)
    (r : ConfirmTask) : Collected :=
  match (confirmationOutcomeFromTask c m r).1 with
  | none => acc
  | some confirmation =>
      { confirmations := acc.confirmations ++ [confirmation]
        weightConfirmed := acc.weightConfirmed + confirmation.weight }

/-! ## The stage -/

/-- What `collect_confirmations` is called with, and the answer each
dispatched request would get. -/
structure Query where
  bls : Bls
  committee : WalrusCommittee
  blobId : Bytes
  registration : Registration
  positions : Option (List Int)
  answers : Nat → ExecuteOutcome SignedConfirmation

/-- The query once dispatched: the message every confirmation must carry and
the members asked, in dispatch order. -/
structure Poll where
  bls : Bls
  committee : WalrusCommittee
  expectedMessage : Bytes
  candidates : List WalrusCommitteeMember
  answers : Nat → ExecuteOutcome SignedConfirmation

namespace Query

/-- `expected_message`, built independently of the nodes. -/
def expectedMessage (q : Query) : Except PyExn Bytes :=
  if q.registration.deletable then do
    let objectIdBytes ← ObjectIds.objectIdToRawBytes q.registration.objectId
    return confirmationMessage q.bls q.committee.epoch q.blobId (some objectIdBytes)
  else return confirmationMessage q.bls q.committee.epoch q.blobId none

/-- The members queried. -/
def candidates (q : Query) : Except PyExn (List WalrusCommitteeMember) :=
  match q.positions with
  | none => .ok q.committee.members
  | some positions =>
      positions.mapM fun position =>
        match pyGet? q.committee.members position with
        | some m => .ok m
        | none => .error (.indexError "tuple index out of range")

/-- Everything before the first request. -/
def poll (q : Query) : Except PyExn Poll := do
  let expectedMessage ← q.expectedMessage
  let candidates ← q.candidates
  return {
    bls := q.bls
    committee := q.committee
    expectedMessage := expectedMessage
    candidates := candidates
    answers := q.answers }

end Query

namespace Poll

/-- A request, by its place in the dispatch order. -/
abbrev Request (p : Poll) := Fin p.candidates.length

/-- `required_weight` -/
def requiredWeight (p : Poll) : Int := minWeightForQuorum p.committee.nShards

/-- The callbacks handed to the fan-out; a straggler is only logged. -/
def callbacks (p : Poll) :
    Callbacks p.Request PyExn (ExecuteOutcome SignedConfirmation) Collected where
  onCompleted acc i r := fold p.committee (p.candidates.get i) acc r
  onCancelled acc _ := acc
  shouldStop acc := p.requiredWeight ≤ acc.weightConfirmed

def stage : String := "collect_confirmations"

/-- What follows the fan-out: only the certificate's own errors are wrapped. -/
def finish (p : Poll) (acc : Collected) : Except PyExn Certificate :=
  if acc.confirmations = [] then
    .error (.nativeUpload .confirmationCollectionError
      (s!"No storage node returned a usable confirmation out of " ++
        s!"{p.candidates.length} candidates queried") stage none)
  else
    match buildCertificate p.bls acc.confirmations p.committee.committeeSize
        p.committee.nShards (some p.expectedMessage) with
    | .error (.quorumNotReachedError m) =>
        .error (.nativeUpload .confirmationCollectionError m stage none)
    | .error (.confirmationMismatchError m) =>
        .error (.nativeUpload .confirmationCollectionError m stage none)
    | .error (.invalidConfirmationError m) =>
        .error (.nativeUpload .confirmationCollectionError m stage none)
    | result => result

end Poll

/-- How a run of `collect_confirmations` ends: before any request, or once
the fan-out has returned, having folded the answers the requests got. -/
inductive Collects (q : Query) : Except PyExn Certificate → Prop where
  | undispatched {e} (h : q.poll = .error e) : Collects q (.error e)
  | collected {p acts s} (h : q.poll = .ok p)
      (hrun : Runs p.callbacks (List.finRange p.candidates.length) .empty acts s)
      (hexit : s.phase = .exited .returned)
      (hans : ∀ i r, Report.completed i r ∈ s.reports → r = .returned (p.answers i)) :
      Collects q (p.finish s.acc)

end Pytusk.Confirm
