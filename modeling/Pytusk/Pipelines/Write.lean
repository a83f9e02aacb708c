import Pytusk.Encoding.Quilt
import Pytusk.Pipelines.Delivery
import Pytusk.Pipelines.Registration
import Pytusk.RelayUpload.Tip

/-!
# `pipelines/write.py`: storing a blob

The native pipeline, the relay pipeline and the relay pipeline for quilts.
Each function is given its arguments in one record.
-/

namespace Pytusk.Pipelines

open Pytusk.Lib Pytusk.Ops

/-- `NativeUploadError` or `RelayUploadError`, given a message, a stage and a
duration. -/
abbrev ErrorType := String → String → Option Elapsed → PyExn

def nativeUploadError : ErrorType := PyExn.nativeUpload .nativeUploadError

def relayUploadError : ErrorType := PyExn.relayUpload .relayUploadError

variable (w : World)

/-! ## Before Tx1 -/

structure WritePreamble where
  committee : WalrusCommittee
  encoded : EncodedBlob
  packageId : String
  deriving DecidableEq, Repr

/-- `except (RuntimeError, ValueError) as exc: raise error_type(..)` -/
def wrapStage {α : Type} (errorType : ErrorType) (stage : String) :
    Except PyExn α → Except PyExn α
  | .ok a => .ok a
  | .error e =>
      .error (if e.isRuntimeError || e.isValueError then errorType e.message stage none
        else e)

/-- `except ChainContextError as exc: raise error_type(..)` -/
def chainContext (errorType : ErrorType) : Except PyExn ChainContext :=
  match prepareChainContext w with
  | .ok context => .ok context
  | .error e =>
      match e with
      | .chainContextError message stage => .error (errorType message stage none)
      | _ => .error e

def prepareWrite (data : Bytes) (errorType : ErrorType) : Except PyExn WritePreamble := do
  let context ← chainContext w errorType
  let encoded ← wrapStage errorType "encode" <|
    Redstuff.encodeBlob w.redstuffEncode data context.committee.nShards
  return {
    committee := context.committee
    encoded := encoded
    packageId := context.packageId }

structure QuiltWritePreamble extends WritePreamble where
  data : Bytes
  patches : List QuiltPatchLayout
  deriving DecidableEq, Repr

/-- `repr` of a string. -/
def reprStr (s : PyStr) : String := w.repr (.str s)

/-- `repr` of a list of strings. -/
def reprStrs (xs : List PyStr) : String := w.repr (.list (xs.map .str))

/-- What leaves `prepare_quilt_write` of an assembly error. -/
def assemblyError (errorType : ErrorType) (e : Quilt.QuiltError) : PyExn :=
  let text := e.text (reprStr w)
  if e.isAssemblyError then errorType text "assemble" none
  else
    match e with
    | .overflowError => .overflowError text
    | .unicodeEncodeError => .valueError text
    | _ => .builtin .exception text

def prepareQuiltWrite (patches : List QuiltPatchInput) (errorType : ErrorType) :
    Except PyExn QuiltWritePreamble := do
  let context ← chainContext w errorType
  match Quilt.assembleQuilt patches context.committee.nShards with
  | .error e => .error (assemblyError w errorType e)
  | .ok assembled => do
      let assembledIdentifiers :=
        (assembled.patches.map (·.identifier)).insertionSort (· ≤ ·)
      let requestedIdentifiers := (patches.map (·.identifier)).insertionSort (· ≤ ·)
      raiseIf (assembledIdentifiers ≠ requestedIdentifiers)
        (errorType
          ("Quilt assembly returned a different patch set than it was given: " ++
            s!"expected {reprStrs w requestedIdentifiers}, got " ++
            s!"{reprStrs w assembledIdentifiers}.")
          "assemble" none)
      let encoded ← wrapStage errorType "encode" <|
        Redstuff.encodeBlob w.redstuffEncode assembled.data assembled.nShards
      return {
        data := assembled.data
        committee := context.committee
        encoded := encoded
        packageId := context.packageId
        patches := assembled.patches }

/-! ## The native pipeline -/

/-- What `store_blob_native` is called with, less what only paces it. -/
structure NativeStore where
  data : Bytes
  epochs : Int
  deletable : Bool
  maxConfirmationRequests : Int
  sender : Option String
  sponsor : Option String
  paymentCoin : Option String
  recipient : Option String
  deriving DecidableEq, Repr

/-- The receipt of a registration that is still pending. -/
def pendingNativeReceipt (encoded : EncodedBlob) (digest objectId stage : String) :
    NativeBlobReceipt where
  blobId := Redstuff.blobIdToUrlBase64 encoded.blobId
  objectId := objectId
  certified := false
  endEpoch := none
  failedStage := some stage
  timings := {
    encode := some ⟨⟩
    registerTx1 := some ⟨⟩
    sliverUpload := none
    confirmations := none
    certifyTx2 := none
    total := some ⟨⟩ }
  registerTxDigest := some digest

/-- `_failure_receipt` -/
def failureReceipt (encoded : EncodedBlob) (registration : Registration)
    (error : Option PyExn) (sliverUploadDuration confirmationsDuration : Option Elapsed) :
    NativeBlobReceipt where
  blobId := Redstuff.blobIdToUrlBase64 encoded.blobId
  objectId := registration.objectId
  certified := false
  endEpoch := some registration.endEpoch
  failedStage := some (match error with | some e => e.stage | none => "deliver")
  timings := {
    encode := some ⟨⟩
    registerTx1 := some ⟨⟩
    sliverUpload := sliverUploadDuration
    confirmations := confirmationsDuration
    certifyTx2 := error.bind (·.duration)
    total := some ⟨⟩ }
  registerTxDigest := some registration.digest

section Native

variable (args : NativeStore)

/-- What Tx1 registers. -/
def registrationTerms (prepared : WritePreamble) (epochs : Int) (deletable : Bool) :
    RegistrationTerms where
  encoded := prepared.encoded
  epochs := epochs
  deletable := deletable
  packageId := prepared.packageId
  systemObject := w.systemObject

/-- What Tx2 certifies. The pipeline passes neither its sender nor its sponsor. -/
def nativeCertifyTerms (prepared : WritePreamble) (registration : Registration) :
    CertifyTerms where
  registration := registration
  packageId := prepared.packageId
  sender := none
  sponsor := none
  recipient := args.recipient

/-- From delivery on. -/
def deliverAndCertify (prepared : WritePreamble) (registration : Registration) :
    Program NativeBlobReceipt := do
  let delivered ← NativeDelivery.deliver w args.maxConfirmationRequests
    prepared.committee prepared.encoded registration
  match delivered.outcome with
  | .delivered certificate => do
      match ← (NativeUpload.certify w prepared.committee prepared.encoded.blobId
          (nativeCertifyTerms args prepared registration) certificate
          NativeUpload.defaultCertifyAttempts {
            encode := some ⟨⟩
            registerTx1 := some ⟨⟩
            sliverUpload := some delivered.sliverUploadDuration
            confirmations := delivered.confirmationsDuration
            certifyTx2 := none
            total := none }).attempt with
      | .ok receipt =>
          return { receipt with timings := { receipt.timings with total := some ⟨⟩ } }
      | .error e =>
          if e.isNativeUploadError then
            return failureReceipt prepared.encoded registration (some e)
              (some delivered.sliverUploadDuration) delivered.confirmationsDuration
          else Logged.raise e
  | _ =>
      return failureReceipt prepared.encoded registration delivered.error
        (some delivered.sliverUploadDuration) delivered.confirmationsDuration

def storeBlobNative : Program NativeBlobReceipt := do
  let prepared ← Logged.lift (prepareWrite w args.data nativeUploadError)
  let strategy :=
    BlobRegistration.plainBlobRegistration args.paymentCoin args.sender args.sponsor []
  match ← (strategy.register w
      (registrationTerms w prepared args.epochs args.deletable)).attempt with
  | .error e =>
      match e with
      | .registrationPendingError digest objectId _ stage =>
          return pendingNativeReceipt prepared.encoded digest objectId stage
      | _ =>
          Logged.raise (if e.isRuntimeError || e.isValueError then
            nativeUploadError e.message "register_tx1" none else e)
  | .ok registration => deliverAndCertify w args prepared registration

end Native

/-! ## The relay pipeline -/

/-- What the two relay pipelines are called with, besides what they store. -/
structure RelayStore where
  epochs : Int
  deletable : Bool
  relayName : Option String
  sender : Option String
  sponsor : Option String
  recipient : Option String
  tipSource : String
  maxTip : Option Int
  walPaymentCoin : Option String
  maxUploadAttempts : Int
  onQuote : Option (TipQuote → Except PyExn Unit)

/-- What is settled about the tip before Tx1 is opened. -/
structure RelayPlan where
  quote : TipQuote
  authPackage : Option AuthPackage
  strategy : BlobRegistration
  deriving DecidableEq, Repr

namespace RelayPlan

def nonce (plan : RelayPlan) : Option String :=
  plan.authPackage.map (·.nonceBase64url)

def tipPaid (plan : RelayPlan) : Bool := plan.authPackage.isSome

end RelayPlan

section Relay

variable (args : RelayStore)

/-- `if on_quote is not None: on_quote(quote)` -/
def callOnQuote (quote : TipQuote) : Except PyExn Unit :=
  match args.onQuote with
  | none => .ok ()
  | some hook => hook quote

/-- The tip that Tx1 pays. -/
def tipComposition (quote : TipQuote) (authPackage : AuthPackage) : TipComposition where
  relayAddress := quote.address.getD ""
  tipAmount := quote.amount.getD 0
  authPackage := authPackage
  paymentCoin := args.tipSource

/-- The quote, the ceiling, the hook, the package, the coins. -/
def planRelay (data : Bytes) (committee : WalrusCommittee) (relayUrl resolvedSender : String)
    (attributes : List (String × String)) : Except PyExn RelayPlan := do
  let quote ← RelayUpload.quoteTip w relayUrl data.length committee.nShards
  RelayUpload.assertTipWithinCeiling quote args.maxTip
  callOnQuote args quote
  let authPackage :=
    if quote.requiresPayment then some (RelayUpload.buildAuthPackage w data) else none
  let resolvedWalCoin ← preflightPayment w resolvedSender args.sponsor
    (if quote.requiresPayment then some args.tipSource else none)
    (quote.amount.getD 0) args.walPaymentCoin
  let strategy :=
    match authPackage with
    | some package =>
        BlobRegistration.tippedBlobRegistration (tipComposition args quote package)
          resolvedWalCoin resolvedSender args.sponsor attributes
    | none =>
        BlobRegistration.plainBlobRegistration (some resolvedWalCoin)
          (some resolvedSender) args.sponsor attributes
  return { quote := quote, authPackage := authPackage, strategy := strategy }

/-- The receipt of a registration that is still pending. -/
def pendingRelayReceipt (encoded : EncodedBlob) (plan : RelayPlan) (relayUrl : String)
    (digest objectId stage : String) : RelayBlobReceipt where
  outcome := .resumable
  blobId := some (Redstuff.blobIdToUrlBase64 encoded.blobId)
  objectId := some objectId
  certified := false
  endEpoch := none
  failedStage := some stage
  timings := {
    encode := some ⟨⟩
    tipConfig := some ⟨⟩
    registerTipTx := some ⟨⟩
    relayUpload := none
    certifyTx := none
    total := some ⟨⟩ }
  relayUrl := relayUrl
  tipPaid := plan.tipPaid
  tipAmount := plan.quote.amount
  registerTxDigest := some digest
  certifyTxDigest := none
  nonce := plan.nonce
  relayStatus := none
  relayMessage := none
  attempts := none
  transportError := none

/-- What the receipts of a registered blob share. -/
def registeredRelayReceipt (encoded : EncodedBlob) (plan : RelayPlan) (relayUrl : String)
    (registration : Registration) (upload : RelayUploadResult) : RelayBlobReceipt where
  outcome := .resumable
  blobId := some (Redstuff.blobIdToUrlBase64 encoded.blobId)
  objectId := some registration.objectId
  certified := false
  endEpoch := some registration.endEpoch
  failedStage := none
  timings := {
    encode := some ⟨⟩
    tipConfig := some ⟨⟩
    registerTipTx := some ⟨⟩
    relayUpload := some upload.duration
    certifyTx := none
    total := some ⟨⟩ }
  relayUrl := relayUrl
  tipPaid := plan.tipPaid
  tipAmount := plan.quote.amount
  registerTxDigest := some registration.digest
  certifyTxDigest := none
  nonce := plan.nonce
  relayStatus := upload.relayStatus
  relayMessage := upload.relayMessage
  attempts := some upload.attempts
  transportError := upload.transportError

/-- The receipt of an upload that was not delivered. -/
def undeliveredRelayReceipt (base : RelayBlobReceipt) (delivered : RelayDeliveryResult) :
    RelayBlobReceipt :=
  { base with
    outcome := match delivered.outcome with | .refused => .rejected | _ => .resumable
    failedStage := delivered.failedStage
    relayMessage :=
      match delivered.error with
      | some e => some e.message
      | none => base.relayMessage }

/-- The receipt of a certificate that could not be submitted. -/
def uncertifiedRelayReceipt (base : RelayBlobReceipt) (error : PyExn) : RelayBlobReceipt :=
  { base with
    outcome := .resumable
    failedStage := some "certify"
    timings := { base.timings with certifyTx := some ⟨⟩ }
    relayMessage := some error.message
    transportError := none }

def certifiedRelayReceipt (base : RelayBlobReceipt) (certification : CertificationOutcome) :
    RelayBlobReceipt :=
  { base with
    outcome := .certified
    objectId := some certification.result.objectId
    certified := true
    timings := { base.timings with certifyTx := some certification.duration }
    certifyTxDigest := some certification.result.digest
    transportError := none }

/-- What Tx2 certifies; `sender` is the argument, not the resolved address. -/
def relayCertifyTerms (prepared : WritePreamble) (registration : Registration) :
    CertifyTerms where
  registration := registration
  packageId := prepared.packageId
  sender := args.sender
  sponsor := args.sponsor
  recipient := args.recipient

/-- From delivery on. -/
def relayAndCertify (data : Bytes) (prepared : WritePreamble) (plan : RelayPlan)
    (relayUrl : String) (registration : Registration) : Program RelayBlobReceipt := do
  let delivery : RelayDelivery := {
    relayUrl := relayUrl
    nonce := plan.nonce
    tipPaid := plan.tipPaid
    maxAttempts := args.maxUploadAttempts }
  let delivered ← delivery.deliver w prepared.committee prepared.encoded data registration
  let base := registeredRelayReceipt prepared.encoded plan relayUrl registration
    delivered.upload
  match delivered.outcome with
  | .delivered certificate => do
      match ← (submitCertification w prepared.committee
          (relayCertifyTerms args prepared registration) certificate
          (PyExn.relayUpload .relayCertifyTransactionError)).attempt with
      | .ok certification => return certifiedRelayReceipt base certification
      | .error e =>
          if e.isRuntimeError then return uncertifiedRelayReceipt base e
          else Logged.raise e
  | _ => return undeliveredRelayReceipt base delivered

/-- `_store_relay`, under a plan. -/
def registerAndRelay (data : Bytes) (prepared : WritePreamble) (plan : RelayPlan)
    (relayUrl : String) : Program RelayBlobReceipt := do
  match ← (plan.strategy.register w
      (registrationTerms w prepared args.epochs args.deletable)).attempt with
  | .error e =>
      match e with
      | .registrationPendingError digest objectId _ stage =>
          return pendingRelayReceipt prepared.encoded plan relayUrl digest objectId stage
      | _ =>
          Logged.raise (if e.isRuntimeError || e.isValueError then
            relayUploadError e.message "register_tx1" none else e)
  | .ok registration => relayAndCertify w args data prepared plan relayUrl registration

def storeRelay (data : Bytes) (prepared : WritePreamble) (relayUrl resolvedSender : String)
    (attributes : List (String × String)) : Program RelayBlobReceipt := do
  let plan ← Logged.lift <|
    planRelay w args data prepared.committee relayUrl resolvedSender attributes
  registerAndRelay w args data prepared plan relayUrl

/-- What both relay pipelines check first: the sponsor, the attempts, the
relay's name. -/
def relayPreflight : Except PyExn String := do
  preflightSponsor w args.sponsor
  raiseIf (args.maxUploadAttempts < 1)
    (relayUploadError
      s!"max_upload_attempts must be at least 1, got {args.maxUploadAttempts}"
      "preflight" none)
  w.relayUrlFor args.relayName

def storeBlobRelay (data : Bytes) : Program RelayBlobReceipt := do
  let relayUrl ← Logged.lift (relayPreflight w args)
  let prepared ← Logged.lift (prepareWrite w data relayUploadError)
  storeRelay w args data prepared relayUrl (pyOr args.sender w.activeAddress) []

/-- `QUILT_BLOB_ATTRIBUTES` -/
def quiltBlobAttributes : List (String × String) := [("_walrusBlobType", "quilt")]

/-- The receipt of one patch. -/
def patchReceipt (quiltId : Bytes) (layout : QuiltPatchLayout) :
    Except PyExn QuiltPatchReceipt := do
  let patchId ← Quilt.quiltPatchId quiltId layout
  return { layout with patchId := patchId }

def storeQuiltRelay (patches : List QuiltPatchInput) : Program QuiltRelayReceipt := do
  let relayUrl ← Logged.lift (relayPreflight w args)
  let prepared ← Logged.lift (prepareQuiltWrite w patches relayUploadError)
  let patchReceipts ← Logged.lift <|
    prepared.patches.mapM (patchReceipt prepared.encoded.blobId)
  let receipt ← storeRelay w args prepared.data prepared.toWritePreamble relayUrl
    (pyOr args.sender w.activeAddress) quiltBlobAttributes
  return { receipt with patches := patchReceipts }

end Relay

end Pytusk.Pipelines
