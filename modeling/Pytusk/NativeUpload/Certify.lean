import Pytusk.Ops.BlobExecute

/-!
# `native_upload/certify.py`: Tx2 under the current committee

The loop re-reads the epoch before Tx2 and collects confirmations again, from
the new committee, when it has moved on.
-/

namespace Pytusk.NativeUpload

open Pytusk.Lib Pytusk.Ops

variable (w : World)

/-- What the `k`-th call of `collect_confirmations` asks. -/
def confirmationQuery (k : Nat) (committee : WalrusCommittee) (blobId : Bytes)
    (registration : Registration) : Confirm.Query where
  bls := w.bls
  committee := committee
  blobId := blobId
  registration := registration
  positions := none
  answers := w.nodeAnswers k

/-- The `k`-th call of `collect_confirmations`. What can stop it before its
requests is the registration's object id and, after it, the semaphore: none is
made with a negative value, and one made with 0 never gives a permit to the
requests that wait for it. -/
def collectConfirmations (k : Nat) (maxConfirmationRequests : Int)
    (committee : WalrusCommittee) (blobId : Bytes) (registration : Registration) :
    Program Certificate := do
  let query := confirmationQuery w k committee blobId registration
  let _ ← Logged.lift query.poll
  Logged.lift <| raiseIf (maxConfirmationRequests < 0)
    (.valueError "Semaphore initial value must be >= 0")
  Logged.lift <| raiseIf (maxConfirmationRequests = 0 ∧ committee.members ≠ [])
    .neverReturns
  Logged.emit (.collecting k query)
  Logged.lift (w.confirmations k)

/-- `max_confirmation_requests`, where it is not given. -/
def defaultMaxConfirmationRequests : Int := 64

/-- `upload_slivers`, with its defaults. -/
def uploadSlivers (committee : WalrusCommittee) (encoded : EncodedBlob) :
    Program SliverFanout.FanoutReport := do
  Logged.emit (.uploading {
    committee := committee
    encoded := encoded
    maxRetries := 5
    maxNodeConnections := 10 })
  Logged.lift w.slivers

/-- The `while True` loop: `refetches` may still follow, `attempts` epoch reads
were made. It ends with the committee and the certificate to submit. -/
def settleCommittee (blobId : Bytes) (registration : Registration) :
    (refetches attempts : Nat) → WalrusCommittee → Certificate →
      Program (WalrusCommittee × Certificate)
  | refetches, attempts, currentCommittee, currentCertificate => do
      Logged.emit .readEpoch
      let currentEpoch ← Logged.lift (w.epoch attempts)
      if currentEpoch = currentCommittee.epoch then
        return (currentCommittee, currentCertificate)
      else
        match refetches with
        | 0 =>
            Logged.raise (.nativeUpload .epochMismatchError
              (s!"On-chain epoch {currentEpoch} still differs from the committee " ++
                s!"epoch {currentCommittee.epoch} after {attempts + 1} attempt(s); " ++
                "giving up.")
              "certify" none)
        | refetches + 1 => do
            Logged.emit .readCommittee
            let currentCommittee ← Logged.lift (w.committee (attempts + 1))
            let currentCertificate ←
              collectConfirmations w (attempts + 1) defaultMaxConfirmationRequests
                currentCommittee blobId registration
            settleCommittee blobId registration refetches (attempts + 1)
              currentCommittee currentCertificate
termination_by structural refetches => refetches

/-- `max_attempts` of `certify`. -/
def defaultCertifyAttempts : Int := 2

def certify (committee : WalrusCommittee) (blobId : Bytes) (terms : CertifyTerms)
    (certificate : Certificate) (maxAttempts : Int) (stageTimings : StageTimings) :
    Program NativeBlobReceipt := do
  let (currentCommittee, currentCertificate) ←
    settleCommittee w blobId terms.registration (maxAttempts - 1).toNat 0 committee
      certificate
  let outcome ← submitCertification w currentCommittee terms currentCertificate
    (PyExn.nativeUpload .certifyTransactionError)
  return {
    blobId := Redstuff.blobIdToUrlBase64 blobId
    objectId := outcome.result.objectId
    certified := outcome.result.certified
    endEpoch := some terms.registration.endEpoch
    failedStage := none
    timings := { stageTimings with certifyTx2 := some outcome.duration }
    registerTxDigest := some terms.registration.digest
    certifyTxDigest := some outcome.result.digest }

end Pytusk.NativeUpload
