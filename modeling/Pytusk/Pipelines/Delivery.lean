import Pytusk.NativeUpload.Certify
import Pytusk.RelayUpload.RelayCertify
import Pytusk.RelayUpload.Upload

/-!
# `pipelines/delivery.py`: getting a registered blob certified by the nodes
-/

namespace Pytusk.Pipelines

open Pytusk.Lib

/-- `DeliveryOutcome`, with the certificate of a delivered blob. -/
inductive DeliveryOutcome where
  | delivered (certificate : Certificate)
  | resumable
  | refused
  deriving DecidableEq, Repr

structure NativeDeliveryResult where
  outcome : DeliveryOutcome
  failedStage : Option String
  sliverUploadDuration : Elapsed
  confirmationsDuration : Option Elapsed
  error : Option PyExn
  deriving DecidableEq, Repr

structure RelayDeliveryResult where
  outcome : DeliveryOutcome
  failedStage : Option String
  upload : RelayUploadResult
  error : Option PyExn

variable (w : World)

/-- `NativeDelivery.deliver` -/
def NativeDelivery.deliver (maxConfirmationRequests : Int) (committee : WalrusCommittee)
    (encoded : EncodedBlob) (registration : Registration) :
    Program NativeDeliveryResult := do
  match ← (NativeUpload.uploadSlivers w committee encoded).attempt with
  | .error e =>
      if e.isNativeUploadError then
        return {
          outcome := .resumable
          failedStage := some e.stage
          sliverUploadDuration := ⟨⟩
          confirmationsDuration := none
          error := some e }
      else Logged.raise e
  | .ok _ =>
      match ← (NativeUpload.collectConfirmations w 0 maxConfirmationRequests committee
          encoded.blobId registration).attempt with
      | .error e =>
          if e.isNativeUploadError then
            return {
              outcome := .resumable
              failedStage := some e.stage
              sliverUploadDuration := ⟨⟩
              confirmationsDuration := some ⟨⟩
              error := some e }
          else Logged.raise e
      | .ok certificate =>
          return {
            outcome := .delivered certificate
            failedStage := none
            sliverUploadDuration := ⟨⟩
            confirmationsDuration := some ⟨⟩
            error := none }

/-- The fields of `RelayDelivery`. -/
structure RelayDelivery where
  relayUrl : String
  nonce : Option String
  tipPaid : Bool
  maxAttempts : Int
  deriving DecidableEq, Repr

namespace RelayDelivery

/-- What the relay is asked to store, and under which tokens. -/
def command (delivery : RelayDelivery) (encoded : EncodedBlob) (data : Bytes)
    (registration : Registration) : WriteRelayBlob where
  blobId := Redstuff.blobIdToUrlBase64 encoded.blobId
  data := data
  registerTipTxDigest := if delivery.tipPaid then some registration.digest else none
  nonce := delivery.nonce
  deletableBlobObject :=
    if registration.deletable then some registration.objectId else none

/-- `object_id_to_raw_bytes(..) if registration.deletable else None` -/
def objectIdBytes (registration : Registration) : Except PyExn (Option Bytes) :=
  if registration.deletable then
    some <$> ObjectIds.objectIdToRawBytes registration.objectId
  else .ok none

/-- The certificate in the relay's answer. -/
def certificateOf (committee : WalrusCommittee) (encoded : EncodedBlob)
    (registration : Registration) (payload : Json) : Except PyExn Certificate := do
  let objectId ← objectIdBytes registration
  RelayUpload.parseRelayCertificate w.bls w.repr payload committee encoded.blobId objectId

/-- What follows the upload. -/
def afterUpload (committee : WalrusCommittee) (encoded : EncodedBlob)
    (registration : Registration) (upload : RelayUploadResult) :
    Except PyExn RelayDeliveryResult :=
  let undelivered (outcome : DeliveryOutcome) : RelayDeliveryResult := {
    outcome := outcome
    failedStage := some "relay_upload"
    upload := upload
    error := none }
  match upload.outcome, upload.certificate with
  | .refused, _ => .ok (undelivered .refused)
  | .unanswered, _ | .uploaded, .none => .ok (undelivered .resumable)
  | .uploaded, payload =>
      match certificateOf w committee encoded registration payload with
      | .ok certificate =>
          .ok {
            outcome := .delivered certificate
            failedStage := none
            upload := upload
            error := none }
      | .error e =>
          match e with
          | .relayUpload .relayCertificateParseError _ _ _ =>
              .ok {
                outcome := .resumable
                failedStage := some "certify"
                upload := upload
                error := some e }
          | _ => .error e

def deliver (delivery : RelayDelivery) (committee : WalrusCommittee)
    (encoded : EncodedBlob) (data : Bytes) (registration : Registration) :
    Program RelayDeliveryResult := do
  let upload ← RelayUpload.uploadToRelay w delivery.relayUrl
    (delivery.command encoded data registration) delivery.maxAttempts
  Logged.lift (afterUpload w committee encoded registration upload)

end RelayDelivery

end Pytusk.Pipelines
