import Pytusk.Ops.ExactCoin
import Pytusk.Ops.StorageExecute

/-!
# `ops/shared_blob_compose.py` and `ops/shared_blob_execute.py`

Sharing a Blob, paying into the pool of a SharedBlob, and extending the Blob
it wraps out of that pool. None of the wrappers looks at the chain beforehand,
but for the coins that a payment is made from.
-/

namespace Pytusk.Ops

open Pytusk.Lib

/-! ## The calls -/

def shareCall (packageId blobObject : String) : BuilderCall :=
  .moveCall (packageId ++ "::shared_blob::new") [.str blobObject]

def fundCall (packageId sharedBlobObject : String) (paymentCoin : Argument) : BuilderCall :=
  .moveCall (packageId ++ "::shared_blob::fund") [.str sharedBlobObject, paymentCoin]

def extendSharedCall (packageId sharedBlobObject systemObject : String) (extendedEpochs : Int) :
    BuilderCall :=
  .moveCall (packageId ++ "::shared_blob::extend")
    [.str sharedBlobObject, .str systemObject, .int extendedEpochs]

/-- `system::extend_blob`, which a coin pays for. -/
def extendBlobCall (packageId systemObject blobObject : String) (extendedEpochs : Int)
    (paymentCoin : Argument) : BuilderCall :=
  .moveCall (packageId ++ "::system::extend_blob")
    [.str systemObject, .str blobObject, .int extendedEpochs, paymentCoin]

/-- The payment goes first, on the transaction of the caller. -/
def addFunded (w : World) (coinMetadata : ExecuteOutcome CoinMetadataView)
    (packageId sharedBlobObject owner : String) (amount : Nat) (builder : Builder) (txn : Txn) :
    Except PyExn Txn := do
  let prepared := prepareWalCoinForAmount w coinMetadata builder txn owner amount
  let paymentCoin ← prepared.result
  addOnly (fundCall packageId sharedBlobObject paymentCoin) builder
    { txn with calls := txn.calls ++ prepared.log }

/-! ## The object that sharing creates -/

/-- A changed object with what only this reader looks at. -/
structure TypedChange where
  change : ChangedObject
  /-- `output_owner.kind == OwnerOwnerKind.SHARED` -/
  shared : Bool
  objectType : Option String
  deriving DecidableEq, Repr

/-- The test made of one change: the id it takes. -/
def createdShared (objectTypeSubstring : String) (typed : TypedChange) : Option String :=
  if typed.change.idOperation = .created ∧ typed.change.outputOwner.isSome ∧ typed.shared then
    match typed.objectType, typed.change.objectId with
    | some objectType, some objectId =>
        if objectType ≠ "" ∧ objectTypeSubstring.toList <:+: objectType.toList ∧ objectId ≠ "" then
          some objectId
        else none
    | _, _ => none
  else none

def findCreatedSharedObjectId (changedObjects : List TypedChange) (objectTypeSubstring : String) :
    Except PyExn String :=
  match changedObjects.findSome? (createdShared objectTypeSubstring) with
  | some objectId => .ok objectId
  | none =>
      .error (.runtimeError <|
        s!"Could not find a newly created shared object matching '{objectTypeSubstring}' " ++
        "in the transaction effects.")

/-! ## The wrappers -/

section Execute

variable (w : World) (answers : TxAnswers)

/-- `SharedBlobReceipt` -/
abbrev SharedBlobReceipt := StorageOpResult

/-- `execute_share_blob`. `typed` is what the changes of the effects are, in full. -/
def executeShareBlob (typed : TransactionEffects → List TypedChange)
    (packageId blobObject : String) (sender sponsor : Option String) :
    Submission SharedBlobReceipt := do
  let (executed, effects) ← executeTxn answers (pyOr sender w.activeAddress) sponsor
    (addOnly (shareCall packageId blobObject)) "share_blob"
  let objectId ←
    Logged.lift (findCreatedSharedObjectId (typed effects) "shared_blob::SharedBlob")
  return { objectId := objectId, digest := executed.digest }

def executeFundSharedBlob (coinMetadata : ExecuteOutcome CoinMetadataView)
    (packageId sharedBlobObject : String) (amount : Nat) (sender sponsor : Option String) :
    Submission StorageOpResult := do
  let resolvedSender := pyOr sender w.activeAddress
  let (executed, _) ← executeTxn answers resolvedSender sponsor
    (addFunded w coinMetadata packageId sharedBlobObject resolvedSender amount)
    "fund_shared_blob"
  return { objectId := sharedBlobObject, digest := executed.digest }

def executeExtendSharedBlob (packageId sharedBlobObject systemObject : String)
    (extendedEpochs : Int) (sender sponsor : Option String) : Submission StorageOpResult :=
  executeOnly w answers (extendSharedCall packageId sharedBlobObject systemObject extendedEpochs)
    "extend_shared_blob" sharedBlobObject sender sponsor

end Execute

/-! ## What they submit -/

section Submitted

variable {w : World} {answers : TxAnswers} {coinMetadata : ExecuteOutcome CoinMetadataView}
  {packageId : String} {sender sponsor : Option String} {txn : Txn}

theorem submitted_executeShareBlob {typed : TransactionEffects → List TypedChange}
    {blobObject : String}
    (h : txn ∈ (executeShareBlob w answers typed packageId blobObject sender sponsor).log) :
    txn.calls = [shareCall packageId blobObject] := by
  have hcomposed := submitted_executeTxn_bind (fun done => Logged.log_bind_pure _ _) h
  rw [addOnly_eq_ok hcomposed]

theorem submitted_executeFundSharedBlob {sharedBlobObject : String} {amount : Nat}
    (h : txn ∈ (executeFundSharedBlob w answers coinMetadata packageId sharedBlobObject amount
      sender sponsor).log) :
    ∃ owner sponsor', addFunded w coinMetadata packageId sharedBlobObject owner amount
      answers.builder ⟨owner, sponsor', []⟩ = .ok txn :=
  ⟨_, _, submitted_executeTxn_bind (fun _ => rfl) h⟩

theorem submitted_executeExtendSharedBlob {sharedBlobObject systemObject : String}
    {extendedEpochs : Int}
    (h : txn ∈ (executeExtendSharedBlob w answers packageId sharedBlobObject systemObject
      extendedEpochs sender sponsor).log) :
    txn.calls =
      [extendSharedCall packageId sharedBlobObject systemObject extendedEpochs] := by
  rw [submitted_executeOnly h]

end Submitted

end Pytusk.Ops
