import Pytusk.Certification
import Pytusk.Types.Json
import Pytusk.Types.Quilts

/-!
# `types/receipts.py`, `types/outcomes.py`: what the pipelines hand back
-/

namespace Pytusk

inductive RelayOutcome where
  | certified
  | resumable
  | rejected
  | notStarted
  deriving DecidableEq, Repr

inductive RelayUploadOutcome where
  | uploaded
  | unanswered
  | refused
  deriving DecidableEq, Repr

/-- What Tx1 leaves behind: the checkpoint between Tx1 and Tx2. -/
structure Registration where
  objectId : String
  blobId : Bytes
  endEpoch : Int
  deletable : Bool
  digest : String
  deriving DecidableEq, Repr

structure CertifyResult where
  objectId : String
  blobId : Bytes
  certified : Bool
  digest : String
  deriving DecidableEq, Repr

/-! ## Receipts -/

structure StageTimings where
  encode : Option Elapsed
  registerTx1 : Option Elapsed
  sliverUpload : Option Elapsed
  confirmations : Option Elapsed
  certifyTx2 : Option Elapsed
  total : Option Elapsed
  deriving DecidableEq, Repr

structure NativeBlobReceipt where
  blobId : String
  objectId : String
  certified : Bool
  endEpoch : Option Int
  failedStage : Option String
  timings : StageTimings
  registerTxDigest : Option String := none
  certifyTxDigest : Option String := none
  deriving DecidableEq, Repr

structure RelayStageTimings where
  encode : Option Elapsed
  tipConfig : Option Elapsed
  registerTipTx : Option Elapsed
  relayUpload : Option Elapsed
  certifyTx : Option Elapsed
  total : Option Elapsed
  deriving DecidableEq, Repr

structure RelayBlobReceipt where
  outcome : RelayOutcome
  blobId : Option String
  objectId : Option String
  certified : Bool
  endEpoch : Option Int
  failedStage : Option String
  timings : RelayStageTimings
  relayUrl : String
  tipPaid : Bool
  tipAmount : Option Nat
  registerTxDigest : Option String
  certifyTxDigest : Option String
  nonce : Option String
  relayStatus : Option Nat
  relayMessage : Option String
  attempts : Option Nat
  transportError : Option String
  deriving DecidableEq, Repr

structure QuiltRelayReceipt extends RelayBlobReceipt where
  patches : List QuiltPatchReceipt
  deriving DecidableEq, Repr

/-- What the upload stage of the relay path came to. -/
structure RelayUploadResult where
  outcome : RelayUploadOutcome
  certificate : Json
  blobId : String
  relayUrl : String
  registerTipTxDigest : Option String
  nonce : Option String
  relayStatus : Option Nat
  relayMessage : Option String
  transportError : Option String
  attempts : Nat
  duration : Elapsed

/-! ## Storage -/

/-- A `Storage` object; the end epoch is exclusive. -/
structure StorageObject where
  objectId : String := ""
  startEpoch : Int := 0
  endEpoch : Int := 0
  storageSize : Int := 0
  deriving DecidableEq, Repr

end Pytusk
