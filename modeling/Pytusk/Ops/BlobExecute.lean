import Pytusk.Ops.BlobCompose
import Pytusk.Ops.Coins
import Pytusk.Ops.SystemReads

/-!
# `ops/blob_execute.py`: executing Tx1 and Tx2
-/

namespace Pytusk.Ops

open Pytusk.Lib

/-- `_RESUME_HINT` -/
def resumeHint : String :=
  "The sliver fan-out had NOT yet run at this point, so no storage node " ++
  "holds this blob's slivers and none will sign a confirmation for it -- " ++
  "`tusky certify_blob` CANNOT recover this registration, because it only " ++
  "collects confirmations and submits Tx2, and has no source bytes to " ++
  "upload. Re-run the upload from the start; the paid storage on this " ++
  "registration is stranded."

variable (w : World)

/-! ## Transactions -/

/-- `client.transaction(..)` -/
def openTransaction (tx : TxLabel) (initialSender : String)
    (initialSponsor : Option String) : Program Txn := do
  Logged.emit (.opened tx initialSender initialSponsor)
  Logged.lift (w.transaction tx).opening
  return { sender := initialSender, sponsor := initialSponsor, calls := [] }

/-- `build_and_sign`, `execute` and the checks every caller makes: the
executed transaction and its effects. -/
def signAndExecute (tx : TxLabel) (txn : Txn) (label : String) :
    Program (ExecutedTransaction × TransactionEffects) := do
  Logged.emit (.signed tx txn)
  Logged.lift (w.transaction tx).signing
  Logged.emit (.submitted tx txn)
  Logged.lift do
    match ← (w.transaction tx).execution with
    | .failed resultString =>
        .error (.runtimeError s!"{label} transaction failed: {resultString}")
    | .ok data =>
        let executed ← World.resultData "effects" data
        let effects ← Effects.requireSuccess executed label
        return (executed, effects)

/-! ## Tx1 -/

/-- The lookup of the new Blob, and what a miss reads like. -/
def newBlobId (executed : ExecutedTransaction) (effects : TransactionEffects)
    (owner : String) : Except PyExn String :=
  match Effects.findCreatedObjectId effects owner with
  | .ok objectId => .ok objectId
  | .error e =>
      let text := e.message
      .error (.runtimeError <|
        s!"{text} Tx1 (digest {executed.digest}) SUCCEEDED on-chain -- the blob " ++
        "is registered and storage is already paid for, so this is a lookup " ++
        s!"failure, not a lost transaction. {resumeHint}")

/-- What the new Blob reads back as. A `ValueError` is turned into a pending
registration; nothing else is. -/
def readBackBlob (digest objectId : String) : Except PyExn (Bool × Int) := do
  match ← w.blobView with
  | .failed resultString =>
      .error (.registrationPendingError digest objectId
        s!"Cannot fetch newly created Blob: {resultString}" "register_readback")
  | .ok data =>
      match (do
        let obj ← World.resultData "json" data
        BlobFields.blobDeletableAndEndEpoch w.parseInt obj) with
      | .ok fields => .ok fields
      | .error e =>
          .error (if e.isValueError then
            .registrationPendingError digest objectId e.message "register_readback"
          else e)

/-- Everything after Tx1 has succeeded. -/
def readRegistration (encoded : EncodedBlob) (owner : String)
    (executed : ExecutedTransaction) (effects : TransactionEffects) :
    Except PyExn Registration := do
  let objectId ← newBlobId executed effects owner
  let finalized ← waitForFinality w defaultFinalityMaxAttempts 0
  raiseIf (finalized = false)
    (.registrationPendingError executed.digest objectId
      (s!"Checkpoint finality was not reached after " ++
        s!"{defaultFinalityMaxAttempts} attempts.")
      "register_finality")
  let (deletable, endEpoch) ← readBackBlob w executed.digest objectId
  return {
    objectId := objectId
    blobId := encoded.blobId
    endEpoch := endEpoch
    deletable := deletable
    digest := executed.digest }

def executeRegistrationTxn (txn : Txn) (encoded : EncodedBlob) (owner : String)
    (label : String) : Program Registration := do
  let (executed, effects) ← signAndExecute w .tx1 txn label
  Logged.lift (readRegistration w encoded owner executed effects)

def preflightSponsor (sponsor : Option String) : Except PyExn Unit :=
  match sponsor with
  | none => .ok ()
  | some sponsor =>
      match w.keypairForAddress sponsor with
      | .ok () => .ok ()
      | .error e =>
          .error (if e.isValueError then
            .relayUpload .relayUploadError
              (s!"Sponsor {sponsor} is not signable in the active " ++
                "PysuiConfiguration. The encapsulated relay pipeline must be able " ++
                "to sign the certify transaction, which cannot be pre-built for " ++
                "external signing. Use the composable relay functions for " ++
                "external sponsors.")
              "preflight" none
          else e)

/-- The tip coin's check, when there is a tip coin. -/
def preflightTipCoin (sender : String) (sponsor : Option String)
    (tipSource : Option String) (tipMinimumBalance : Nat) : Except PyExn Unit :=
  match tipSource with
  | none => .ok ()
  | some coinId =>
      if coinId = fromGas then .ok ()
      else assertCoinUsable w coinId (sender :: sponsor.toList) tipMinimumBalance

def preflightPayment (sender : String) (sponsor : Option String)
    (tipSource : Option String) (tipMinimumBalance : Nat)
    (walPaymentCoin : Option String) : Except PyExn String := do
  preflightTipCoin w sender sponsor tipSource tipMinimumBalance
  match walPaymentCoin with
  | some coin => if coin = "" then selectWalPaymentCoin w sender else return coin
  | none => selectWalPaymentCoin w sender

def executeReserveAndRegister (terms : RegistrationTerms) (paymentCoin : Option String)
    (sender sponsor : Option String) (attributes : List (String × String)) :
    Program Registration := do
  let resolvedSender := pyOr sender w.activeAddress
  let resolvedPaymentCoin ← Logged.lift <|
    preflightPayment w resolvedSender sponsor none 0 paymentCoin
  let txn ← openTransaction w .tx1 resolvedSender sponsor
  let txn ← Logged.lift <|
    addRegistrationSequence (w.transaction .tx1).builder terms txn resolvedSender
      resolvedPaymentCoin none attributes
  executeRegistrationTxn w txn terms.encoded resolvedSender "reserve_space/register_blob"

/-! ## Tx2 -/

/-- What Tx2 certifies, and for whom. -/
structure CertifyTerms where
  registration : Registration
  packageId : String
  sender : Option String
  sponsor : Option String
  recipient : Option String
  deriving DecidableEq, Repr

def executeCertify (terms : CertifyTerms) (certificate : Certificate) :
    Program CertifyResult := do
  let resolvedSender := pyOr terms.sender w.activeAddress
  let txn ← openTransaction w .tx2 resolvedSender terms.sponsor
  let txn ← Logged.lift <|
    addCertify (w.transaction .tx2).builder txn terms.packageId w.systemObject
      terms.registration.objectId certificate terms.recipient
  let (executed, _) ← signAndExecute w .tx2 txn "certify_blob"
  return {
    objectId := terms.registration.objectId
    blobId := terms.registration.blobId
    certified := true
    digest := executed.digest }

structure CertificationOutcome where
  result : CertifyResult
  duration : Elapsed
  deriving DecidableEq, Repr

/-- `submit_certification`; `errorType` is given a message, a stage and a
duration. -/
def submitCertification (committee : WalrusCommittee) (terms : CertifyTerms)
    (certificate : Certificate) (errorType : String → String → Option Elapsed → PyExn) :
    Program CertificationOutcome := do
  let signers ← Logged.lift (committee.membersAt certificate.signerPositions)
  if Certification.verifyCertificate w.bls certificate (signers.map (·.publicKey)) then do
    Logged.emit (.certifying committee terms.registration certificate)
    match ← (executeCertify w terms certificate).attempt with
    | .ok result => return { result := result, duration := ⟨⟩ }
    | .error e =>
        Logged.raise (if e.isRuntimeError || e.isValueError then
          errorType e.message "certify" (some ⟨⟩) else e)
  else
    Logged.raise (errorType
      ("Local certificate verification failed -- the aggregate signature does not " ++
        "verify against the committee public keys for its signer positions; " ++
        "refusing to submit Tx2")
      "certify" none)

end Pytusk.Ops
