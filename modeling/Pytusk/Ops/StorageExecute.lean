import Pytusk.Ops.Executing
import Pytusk.Ops.StorageCompose

/-!
# `ops/storage_execute.py`: executing Storage transactions

The two that split are alike but for the call and their name, and so are the
two that consume an object. None looks at the objects beforehand.
-/

namespace Pytusk.Ops

open Pytusk.Lib

structure SplitResult where
  objectId : String
  newObjectId : String
  digest : String
  deriving DecidableEq, Repr

structure StorageOpResult where
  objectId : String
  digest : String
  deriving DecidableEq, Repr

/-- A call whose result is transferred. -/
def addTransferred (call : BuilderCall) (recipient : String) (builder : Builder) (txn : Txn) :
    Except PyExn Txn := do
  let (txn, storage) ← txn.add builder call
  let (txn, _) ← txn.add builder (.transferObjects [storage] recipient)
  return txn

/-- A transaction of one call. -/
def addOnly (call : BuilderCall) (builder : Builder) (txn : Txn) : Except PyExn Txn := do
  let (txn, _) ← txn.add builder call
  return txn

section Execute

variable (w : World) (answers : TxAnswers)

/-- What the wrappers have in common that split. -/
def executeSplit (call : BuilderCall) (label storageObjectId : String)
    (sender sponsor recipient : Option String) : Submission SplitResult := do
  let resolvedSender := pyOr sender w.activeAddress
  let resolvedRecipient := pyOr recipient resolvedSender
  let (executed, effects) ←
    executeTxn answers resolvedSender sponsor (addTransferred call resolvedRecipient) label
  let newObjectId ← Logged.lift (Effects.findCreatedObjectId effects resolvedRecipient)
  return { objectId := storageObjectId, newObjectId := newObjectId, digest := executed.digest }

/-- `execute_split_by_epoch` -/
def executeSplitByEpoch (packageId storageObjectId : String) (splitEpoch : Int)
    (sender sponsor recipient : Option String) : Submission SplitResult :=
  executeSplit w answers (splitByEpochCall packageId storageObjectId splitEpoch)
    "split_by_epoch" storageObjectId sender sponsor recipient

/-- `execute_split_by_size` -/
def executeSplitBySize (packageId storageObjectId : String) (splitSize : Int)
    (sender sponsor recipient : Option String) : Submission SplitResult :=
  executeSplit w answers (splitBySizeCall packageId storageObjectId splitSize)
    "split_by_size" storageObjectId sender sponsor recipient

/-- What the other two have in common. -/
def executeOnly (call : BuilderCall) (label objectId : String) (sender sponsor : Option String) :
    Submission StorageOpResult := do
  let (executed, _) ←
    executeTxn answers (pyOr sender w.activeAddress) sponsor (addOnly call) label
  return { objectId := objectId, digest := executed.digest }

/-- `execute_fuse` -/
def executeFuse (packageId firstStorageId secondStorageId : String)
    (sender sponsor : Option String) : Submission StorageOpResult :=
  executeOnly w answers (fuseCall packageId firstStorageId secondStorageId) "fuse" firstStorageId
    sender sponsor

/-- `execute_destroy_storage` -/
def executeDestroyStorage (packageId storageObjectId : String) (sender sponsor : Option String) :
    Submission StorageOpResult :=
  executeOnly w answers (destroyCall packageId storageObjectId) "destroy" storageObjectId
    sender sponsor

end Execute

/-! ## What they submit -/

section Submitted

variable {w : World} {answers : TxAnswers} {builder : Builder} {call : BuilderCall}
  {sender : String} {sponsor : Option String} {composed : Txn}

/-- The transaction that makes one call and transfers its result. -/
def transferredTxn (call : BuilderCall) (sender : String) (sponsor : Option String)
    (recipient : String) : Txn where
  sender := sender
  sponsor := sponsor
  calls := [call, .transferObjects [.result 0] recipient]

theorem addTransferred_eq_ok {recipient : String}
    (h : addTransferred call recipient builder ⟨sender, sponsor, []⟩ = .ok composed) :
    composed = transferredTxn call sender sponsor recipient := by
  obtain ⟨⟨txn, storage⟩, hcall, hrest⟩ := bind_eq_ok.mp h
  obtain ⟨⟨txn', _⟩, htransfer, heq⟩ := bind_eq_ok.mp hrest
  obtain ⟨-, hcall⟩ := Txn.add_eq_ok.mp hcall
  obtain ⟨-, htransfer⟩ := Txn.add_eq_ok.mp htransfer
  cases hcall
  cases htransfer
  cases heq
  rfl

theorem addOnly_eq_ok (h : addOnly call builder ⟨sender, sponsor, []⟩ = .ok composed) :
    composed = ⟨sender, sponsor, [call]⟩ := by
  obtain ⟨⟨txn, _⟩, hcall, heq⟩ := bind_eq_ok.mp h
  obtain ⟨-, hcall⟩ := Txn.add_eq_ok.mp hcall
  cases hcall
  cases heq
  rfl

/-- What a wrapper submits, whatever it does with the answer, is what its
compose function makes. -/
theorem submitted_executeTxn_bind {α : Type} {compose : Builder → Txn → Except PyExn Txn}
    {label : String} {f : ExecutedTransaction × TransactionEffects → Submission α} {txn : Txn}
    (hquiet : ∀ done, (f done).log = [])
    (h : txn ∈ (executeTxn answers sender sponsor compose label >>= f).log) :
    compose answers.builder ⟨sender, sponsor, []⟩ = .ok txn := by
  rcases Logged.mem_log_bind.mp h with hmem | ⟨done, -, hmem⟩
  · rcases executeTxn_cases answers sender sponsor compose label with
      ⟨e, hrun⟩ | ⟨composed, hcompose, hrun⟩
    · rw [hrun] at hmem
      cases hmem
    · rw [hrun] at hmem
      rw [List.mem_singleton.mp hmem]
      exact hcompose
  · rw [hquiet done] at hmem
    cases hmem

variable {sender : Option String} {txn : Txn}

theorem submitted_executeSplit {label storageObjectId : String} {recipient : Option String}
    (h : txn ∈ (executeSplit w answers call label storageObjectId sender sponsor recipient).log) :
    txn = transferredTxn call (pyOr sender w.activeAddress) sponsor
      (pyOr recipient (pyOr sender w.activeAddress)) := by
  refine addTransferred_eq_ok (submitted_executeTxn_bind (fun done => ?_) h)
  exact Logged.log_bind_pure _ _

theorem submitted_executeOnly {label objectId : String}
    (h : txn ∈ (executeOnly w answers call label objectId sender sponsor).log) :
    txn = ⟨pyOr sender w.activeAddress, sponsor, [call]⟩ :=
  addOnly_eq_ok (submitted_executeTxn_bind (fun _ => rfl) h)

end Submitted

end Pytusk.Ops
