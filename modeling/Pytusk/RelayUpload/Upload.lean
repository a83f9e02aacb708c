import Pytusk.Client
import Pytusk.Types.Receipts

/-!
# `relay_upload/upload.py`: POSTing the blob to the relay

With `WriteRelayBlob.parse_response` of `commands/relay_commands.py`, which
reads each response. The pauses between attempts are left out.
-/

namespace Pytusk.RelayUpload

open Pytusk.Lib

/-! ## One response -/

structure RelayUploadAck where
  outcome : RelayUploadOutcome
  blobId : Json
  confirmationCertificate : Json
  relayStatus : Option Nat
  relayMessage : Option String

/-- What `client.execute` returns for one POST: a success or a failure the relay
answered with, or a failure that carries no answer. -/
inductive RelayReply where
  | accepted (ack : RelayUploadAck)
  | declined (ack : RelayUploadAck)
  | unreachable (resultString : String)

/-- `response.is_error` -/
def RelayResponse.isError (response : RelayResponse) : Bool :=
  400 ≤ response.statusCode && response.statusCode ≤ 599

/-- The refusal that `parse_response` reports, with the raw body. -/
def refused (response : RelayResponse) : Except PyExn RelayReply := do
  let text ← response.text
  return .declined {
    outcome := .refused
    blobId := .none
    confirmationCertificate := .none
    relayStatus := some response.statusCode
    relayMessage := some text }

/-- `parse_response`; anything but a `dict` with both members is refused. The
body of an error is decoded as well, for the reason in its message. -/
def parseResponse (response : RelayResponse) : Except PyExn RelayReply := do
  let body ← PyExn.noneOnValueError response.json
  if RelayResponse.isError response then refused response
  else
    match body with
    | some (.dict data) =>
        match Dict.get? data (Json.key "blob_id"),
          Dict.get? data (Json.key "confirmation_certificate") with
        | some blobId, some certificate =>
            return .accepted {
              outcome := .uploaded
              blobId := blobId
              confirmationCertificate := certificate
              relayStatus := some response.statusCode
              relayMessage := none }
        | _, _ => refused response
    | _ => refused response

/-- What `client.execute` returns or raises. -/
def replyOf : RelayExchange → Except PyExn RelayReply
  | .unreachable resultString => .ok (.unreachable resultString)
  | .raised exc => .error exc
  | .response response => parseResponse response

/-! ## The attempts -/

/-- `_RETRYABLE_CLIENT_STATUSES` -/
def retryableClientStatuses : List Nat := [408, 425, 429]

/-- Does an answered failure end the attempts? -/
def isFinal (relayStatus : Option Nat) : Bool :=
  match relayStatus with
  | none => true
  | some status => status < 500 && status ∉ retryableClientStatuses

/-- What the last failed attempt left in the locals. -/
structure LastFailure where
  transportError : Option String
  relayStatus : Option Nat
  relayMessage : Option String
  deriving DecidableEq, Repr

section

variable (w : World) (relayUrl : String) (command : WriteRelayBlob)

/-- The result, under the tokens every attempt was made with. -/
def uploadResult (outcome : RelayUploadOutcome) (certificate : Json) (attempts : Nat)
    (last : LastFailure) : RelayUploadResult where
  outcome := outcome
  certificate := certificate
  blobId := command.blobId
  relayUrl := relayUrl
  registerTipTxDigest := command.registerTipTxDigest
  nonce := command.nonce
  relayStatus := last.relayStatus
  relayMessage := last.relayMessage
  transportError := last.transportError
  attempts := attempts
  duration := ⟨⟩

/-- The loop over the attempts: `budget` are left, `attempts` were made. -/
def attemptUpload : (budget attempts : Nat) → LastFailure → Program RelayUploadResult
  | 0, attempts, last => return uploadResult relayUrl command .unanswered .none attempts last
  | budget + 1, attempts, _ => do
      Logged.emit (.posted command)
      match ← Logged.lift (replyOf (w.relay attempts)) with
      | .accepted ack =>
          return uploadResult relayUrl command .uploaded ack.confirmationCertificate
            (attempts + 1) ⟨none, ack.relayStatus, none⟩
      | .unreachable resultString =>
          attemptUpload budget (attempts + 1) ⟨some resultString, none, none⟩
      | .declined ack =>
          if isFinal ack.relayStatus then
            return uploadResult relayUrl command .refused .none (attempts + 1)
              ⟨none, ack.relayStatus, ack.relayMessage⟩
          else attemptUpload budget (attempts + 1) ⟨none, ack.relayStatus, ack.relayMessage⟩

/-- `upload_to_relay` -/
def uploadToRelay (maxAttempts : Int) : Program RelayUploadResult :=
  if maxAttempts < 1 then
    Logged.raise (.valueError s!"max_attempts must be at least 1, got {maxAttempts}")
  else attemptUpload w relayUrl command maxAttempts.toNat 0 ⟨none, none, none⟩

end

end Pytusk.RelayUpload
