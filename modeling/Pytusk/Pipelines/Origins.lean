import Pytusk.Pipelines.Traces

/-!
# Where the events of a write come from

`Write` is what the pipelines have in common once the blob is prepared: a
strategy for Tx1, a way to get a registered blob certified, the terms of Tx2.
`Origin` lists what a write can show, each event with what it rests on, and
the `_origin` theorems say that a run of a pipeline shows nothing else.
-/

namespace Pytusk.Pipelines

open Pytusk.Lib Pytusk.Ops Pytusk.Lib.Logged

/-- Is it one of the events between Tx1 and Tx2? -/
def isDelivery : Event → Bool
  | .uploading _ | .readEpoch | .readCommittee | .collecting .. | .posted _ => true
  | _ => false

structure Write where
  prepared : WritePreamble
  terms : RegistrationTerms
  strategy : BlobRegistration
  certifyTerms : Registration → CertifyTerms
  /-- what the delivery of a registered blob shows -/
  Delivery : Registration → Event → Prop
  /-- the certificates it can lead to, by the committee they are for -/
  Certifies : Registration → WalrusCommittee → Certificate → Prop
  encoded : terms.encoded = prepared.encoded
  package : terms.packageId = prepared.packageId
  certifyPackage : ∀ registration, (certifyTerms registration).packageId = prepared.packageId
  certifyRegistration : ∀ registration,
    (certifyTerms registration).registration = registration
  delivery : ∀ registration event, Delivery registration event → isDelivery event = true

variable (w : World) (assumed : Event → Prop)

namespace Write

variable (write : Write)

def Registers (registration : Registration) : Prop :=
  Pipelines.Registers w assumed write.strategy write.terms registration

/-- A certificate that Tx2 is composed for. -/
structure Submits (registration : Registration) (committee : WalrusCommittee)
    (certificate : Certificate) : Prop where
  registers : write.Registers w assumed registration
  certifies : write.Certifies registration committee certificate
  verified : ∃ signers, committee.membersAt certificate.signerPositions = .ok signers ∧
    Certification.verifyCertificate w.bls certificate (signers.map (·.publicKey)) = true

/-- Everything a write can show. -/
inductive Origin : Event → Prop where
  | openedTx1 :
      Origin (.opened .tx1 (write.strategy.resolvedSender w) write.strategy.sponsor)
  | signedTx1 {txn} (h : write.strategy.Composes w write.terms txn) :
      Origin (.signed .tx1 txn)
  | submittedTx1 {txn} (h : write.strategy.Composes w write.terms txn) :
      Origin (.submitted .tx1 txn)
  | delivery {registration event} (hregisters : write.Registers w assumed registration)
      (h : write.Delivery registration event) : Origin event
  | certifying {registration committee certificate}
      (h : write.Submits w assumed registration committee certificate) :
      Origin (.certifying committee registration certificate)
  | openedTx2 {registration committee certificate}
      (h : write.Submits w assumed registration committee certificate)
      (hshown : assumed (.certifying committee registration certificate)) :
      Origin (.opened .tx2 (pyOr (write.certifyTerms registration).sender w.activeAddress)
        (write.certifyTerms registration).sponsor)
  | signedTx2 {registration committee certificate txn}
      (h : write.Submits w assumed registration committee certificate)
      (hshown : assumed (.certifying committee registration certificate))
      (hcomposes : CertifyTerms.Composes w (write.certifyTerms registration) certificate txn) :
      Origin (.signed .tx2 txn)
  | submittedTx2 {registration committee certificate txn}
      (h : write.Submits w assumed registration committee certificate)
      (hshown : assumed (.certifying committee registration certificate))
      (hcomposes : CertifyTerms.Composes w (write.certifyTerms registration) certificate txn) :
      Origin (.submitted .tx2 txn)

variable {w assumed write}

/-! ### What an event rests on -/

namespace Origin

theorem submitsTx1 {txn : Txn} (h : write.Origin w assumed (.submitted .tx1 txn)) :
    write.strategy.Composes w write.terms txn := by
  cases h with
  | submittedTx1 hcomposes => exact hcomposes
  | delivery hregisters hdelivery => exact nomatch write.delivery _ _ hdelivery

theorem signsTx1 {txn : Txn} (h : write.Origin w assumed (.signed .tx1 txn)) :
    write.strategy.Composes w write.terms txn := by
  cases h with
  | signedTx1 hcomposes => exact hcomposes
  | delivery hregisters hdelivery => exact nomatch write.delivery _ _ hdelivery

theorem certifies {registration : Registration} {committee : WalrusCommittee}
    {certificate : Certificate}
    (h : write.Origin w assumed (.certifying committee registration certificate)) :
    write.Submits w assumed registration committee certificate := by
  cases h with
  | certifying hsubmits => exact hsubmits
  | delivery hregisters hdelivery => exact nomatch write.delivery _ _ hdelivery

theorem opensTx2 {sender : String} {sponsor : Option String}
    (h : write.Origin w assumed (.opened .tx2 sender sponsor)) :
    ∃ registration committee certificate,
      write.Submits w assumed registration committee certificate ∧
      sender = pyOr (write.certifyTerms registration).sender w.activeAddress := by
  cases h with
  | openedTx2 hsubmits hshown => exact ⟨_, _, _, hsubmits, rfl⟩
  | delivery hregisters hdelivery => exact nomatch write.delivery _ _ hdelivery

theorem submitsTx2 {txn : Txn} (h : write.Origin w assumed (.submitted .tx2 txn)) :
    ∃ registration committee certificate rest,
      write.Submits w assumed registration committee certificate ∧
      assumed (.certifying committee registration certificate) ∧
      txn.calls = certifyBlob write.prepared.packageId w.systemObject registration.objectId
        certificate :: rest := by
  cases h with
  | submittedTx2 hsubmits hshown hcomposes =>
    rw [CertifyTerms.Composes, write.certifyPackage, write.certifyRegistration] at hcomposes
    subst hcomposes
    exact ⟨_, _, _, _, hsubmits, hshown, rfl⟩
  | delivery hregisters hdelivery => exact nomatch write.delivery _ _ hdelivery

end Origin

/-! ### The stages every write has -/

theorem register_origin :
    Shows assumed (write.Origin w assumed) (write.Registers w assumed)
      (write.strategy.register w write.terms) :=
  register_shows .openedTx1 fun _ h => ⟨.signedTx1 h, .submittedTx1 h⟩

theorem submitCertification_origin {registration : Registration}
    {committee : WalrusCommittee} {certificate : Certificate} {errorType : ErrorType}
    (hregisters : write.Registers w assumed registration)
    (hcertifies : write.Certifies registration committee certificate) :
    Shows assumed (write.Origin w assumed) (fun _ => True)
      (submitCertification w committee (write.certifyTerms registration) certificate
        errorType) := by
  refine submitCertification_shows fun signers hsigners hverify => ?_
  have h : write.Submits w assumed registration committee certificate :=
    ⟨hregisters, hcertifies, signers, hsigners, hverify⟩
  rw [write.certifyRegistration]
  refine ⟨.certifying h, fun hshown => ⟨.openedTx2 h hshown, fun txn hcomposes => ?_⟩⟩
  exact ⟨.signedTx2 h hshown hcomposes, .submittedTx2 h hshown hcomposes⟩

end Write

/-! ## What was prepared -/

variable {w}

theorem wrapStage_eq_ok {α : Type} {errorType : ErrorType} {stage : String}
    {x : Except PyExn α} {a : α} : wrapStage errorType stage x = .ok a ↔ x = .ok a := by
  cases x with
  | ok b => exact Iff.rfl
  | error e => exact iff_of_false nofun nofun

theorem prepareChainContext_eq_ok {context : ChainContext} :
    prepareChainContext w = .ok context ↔
      w.committee 0 = .ok context.committee ∧ resolvePackageId w = .ok context.packageId := by
  unfold prepareChainContext
  cases w.committee 0 with
  | error e => exact iff_of_false nofun fun h => nomatch h.1
  | ok committee =>
    cases resolvePackageId w with
    | error e => exact iff_of_false nofun fun h => nomatch h.2
    | ok packageId =>
      rw [Except.ok.injEq, Except.ok.injEq, Except.ok.injEq]
      constructor
      · rintro rfl
        exact ⟨rfl, rfl⟩
      · rintro ⟨rfl, rfl⟩
        rfl

theorem chainContext_eq_ok {errorType : ErrorType} {context : ChainContext} :
    chainContext w errorType = .ok context ↔
      w.committee 0 = .ok context.committee ∧ resolvePackageId w = .ok context.packageId := by
  rw [← prepareChainContext_eq_ok]
  unfold chainContext
  cases prepareChainContext w with
  | ok context' => exact Iff.rfl
  | error e => exact iff_of_false (by cases e <;> nofun) nofun

theorem prepareWrite_committee {data : Bytes} {errorType : ErrorType}
    {prepared : WritePreamble} (h : prepareWrite w data errorType = .ok prepared) :
    w.committee 0 = .ok prepared.committee := by
  obtain ⟨context, hcontext, h⟩ := bind_eq_ok.mp h
  obtain ⟨encoded, -, h⟩ := bind_eq_ok.mp h
  cases h
  exact (chainContext_eq_ok.mp hcontext).1

variable (w)

/-! ## The native pipeline -/

section Native

variable (args : NativeStore) (prepared : WritePreamble)

/-- What the stages between Tx1 and Tx2 show. -/
inductive NativeDelivery.Shown (registration : Registration) : Event → Prop where
  | uploading {upload} (hcommittee : upload.committee = prepared.committee)
      (hencoded : upload.encoded = prepared.encoded) :
      NativeDelivery.Shown registration (.uploading upload)
  | readEpoch : NativeDelivery.Shown registration .readEpoch
  | readCommittee : NativeDelivery.Shown registration .readCommittee
  | collecting {k committee} :
      NativeDelivery.Shown registration (.collecting k
        (NativeUpload.confirmationQuery w k committee prepared.encoded.blobId registration))

/-- A certificate collected from a committee that was read from the chain. -/
structure NativeDelivery.Certifies (registration : Registration)
    (committee : WalrusCommittee) (certificate : Certificate) : Prop where
  read : ∃ k, w.committee k = .ok committee
  collected : ∃ k,
    assumed (.collecting k
      (NativeUpload.confirmationQuery w k committee prepared.encoded.blobId registration)) ∧
    w.confirmations k = .ok certificate

def Write.native : Write where
  prepared := prepared
  terms := registrationTerms w prepared args.epochs args.deletable
  strategy := .plainBlobRegistration args.paymentCoin args.sender args.sponsor []
  certifyTerms := nativeCertifyTerms args prepared
  Delivery := NativeDelivery.Shown w prepared
  Certifies := NativeDelivery.Certifies w assumed prepared
  encoded := rfl
  package := rfl
  certifyPackage _ := rfl
  certifyRegistration _ := rfl
  delivery := by
    intro registration event h
    cases h <;> rfl

variable {w assumed args prepared} {registration : Registration}

theorem collectConfirmations_origin {k : Nat} {maxRequests : Int}
    {committee : WalrusCommittee}
    (hregisters : (Write.native w assumed args prepared).Registers w assumed registration)
    (hread : ∃ k, w.committee k = .ok committee) :
    Shows assumed ((Write.native w assumed args prepared).Origin w assumed)
      (NativeDelivery.Certifies w assumed prepared registration committee)
      (NativeUpload.collectConfirmations w k maxRequests committee prepared.encoded.blobId
        registration) := by
  refine (collectConfirmations_shows ?_).weaken ?_
  · exact .delivery hregisters .collecting
  · exact fun certificate h => ⟨hread, k, h⟩

/-- The loop leaves a certificate for the committee it leaves. -/
theorem settleCommittee_origin {refetches attempts : Nat} {committee : WalrusCommittee}
    {certificate : Certificate}
    (hregisters : (Write.native w assumed args prepared).Registers w assumed registration)
    (h : NativeDelivery.Certifies w assumed prepared registration committee certificate) :
    Shows assumed ((Write.native w assumed args prepared).Origin w assumed)
      (fun r => NativeDelivery.Certifies w assumed prepared registration r.1 r.2)
      (NativeUpload.settleCommittee w prepared.encoded.blobId registration refetches
        attempts committee certificate) := by
  induction refetches generalizing attempts committee certificate with
  | zero =>
    refine (meets_emit fun _ => .delivery hregisters .readEpoch).bind fun _ _ => ?_
    refine (shows_lift _).bind fun epoch _ => ?_
    split
    · exact meets_pure h
    · exact shows_raise _
  | succ refetches ih =>
    refine (meets_emit fun _ => .delivery hregisters .readEpoch).bind fun _ _ => ?_
    refine (shows_lift _).bind fun epoch _ => ?_
    split
    · exact meets_pure h
    · refine (meets_emit fun _ => .delivery hregisters .readCommittee).bind fun _ _ => ?_
      refine (shows_lift _).bind fun committee hread => ?_
      refine (collectConfirmations_origin hregisters ⟨_, hread⟩).bind fun certificate h => ?_
      exact ih h

theorem certify_origin {committee : WalrusCommittee} {certificate : Certificate}
    {maxAttempts : Int} {timings : StageTimings}
    (hregisters : (Write.native w assumed args prepared).Registers w assumed registration)
    (h : NativeDelivery.Certifies w assumed prepared registration committee certificate) :
    Shows assumed ((Write.native w assumed args prepared).Origin w assumed) (fun _ => True)
      (NativeUpload.certify w committee prepared.encoded.blobId
        (nativeCertifyTerms args prepared registration) certificate maxAttempts timings) := by
  refine (settleCommittee_origin hregisters h).bind fun settled hsettled => ?_
  refine (Write.submitCertification_origin hregisters hsettled).bind fun _ _ => ?_
  exact meets_pure trivial

theorem deliver_origin {maxRequests : Int}
    (hregisters : (Write.native w assumed args prepared).Registers w assumed registration)
    (hread : ∃ k, w.committee k = .ok prepared.committee) :
    Shows assumed ((Write.native w assumed args prepared).Origin w assumed)
      (fun delivered => ∀ certificate, delivered.outcome = .delivered certificate →
        NativeDelivery.Certifies w assumed prepared registration prepared.committee
          certificate)
      (NativeDelivery.deliver w maxRequests prepared.committee prepared.encoded
        registration) := by
  have hupload : Shows assumed ((Write.native w assumed args prepared).Origin w assumed)
      (fun _ => True) (NativeUpload.uploadSlivers w prepared.committee prepared.encoded) :=
    uploadSlivers_shows fun u hc he => .delivery hregisters (.uploading hc he)
  refine hupload.attempt.bind fun uploaded _ => ?_
  cases uploaded with
  | error e =>
    dsimp only
    split
    · exact meets_pure (by simp)
    · exact shows_raise _
  | ok report =>
    refine (collectConfirmations_origin hregisters hread).attempt.bind fun collected hc => ?_
    cases collected with
    | error e =>
      dsimp only
      split
      · exact meets_pure (by simp)
      · exact shows_raise _
    | ok certificate =>
      refine meets_pure fun delivered h => ?_
      cases h
      exact hc certificate rfl

theorem deliverAndCertify_origin
    (hregisters : (Write.native w assumed args prepared).Registers w assumed registration)
    (hread : ∃ k, w.committee k = .ok prepared.committee) :
    Shows assumed ((Write.native w assumed args prepared).Origin w assumed) (fun _ => True)
      (deliverAndCertify w args prepared registration) := by
  refine (deliver_origin hregisters hread).bind fun delivered hdelivered => ?_
  split
  · rename_i certificate hcertificate
    refine (certify_origin hregisters (hdelivered certificate hcertificate)).attempt.bind
      fun certified _ => ?_
    cases certified with
    | ok receipt => exact meets_pure trivial
    | error e =>
      dsimp only
      split
      · exact meets_pure trivial
      · exact shows_raise _
  · exact meets_pure trivial

/-- **What a native write shows** has its origin in the blob it prepared. -/
theorem storeBlobNative_origin :
    Shows assumed
      (fun event => ∃ prepared, prepareWrite w args.data nativeUploadError = .ok prepared ∧
        (Write.native w assumed args prepared).Origin w assumed event)
      (fun _ => True) (storeBlobNative w args) := by
  refine (shows_lift _).bind fun prepared hprepared => ?_
  refine Meets.mono ?_ fun event h => ⟨prepared, hprepared, h⟩
  have hread : ∃ k, w.committee k = .ok prepared.committee :=
    ⟨0, prepareWrite_committee hprepared⟩
  have hregister : Shows assumed ((Write.native w assumed args prepared).Origin w assumed)
      ((Write.native w assumed args prepared).Registers w assumed)
      ((Write.native w assumed args prepared).strategy.register w
        (Write.native w assumed args prepared).terms) := Write.register_origin
  refine hregister.attempt.bind fun registered hregistered => ?_
  cases registered with
  | error e =>
    dsimp only
    split
    · exact meets_pure trivial
    · exact shows_raise _
  | ok registration => exact deliverAndCertify_origin (hregistered registration rfl) hread

/-- The same of a run, whose events may rest on others of the run. -/
theorem origin_of_mem_storeBlobNative {event : Event}
    (hmem : event ∈ (storeBlobNative w args).log) :
    ∃ prepared, prepareWrite w args.data nativeUploadError = .ok prepared ∧
      (Write.native w (· ∈ (storeBlobNative w args).log) args prepared).Origin w
        (· ∈ (storeBlobNative w args).log) event := by
  have h : Shows (· ∈ (storeBlobNative w args).log) _ _ (storeBlobNative w args) :=
    storeBlobNative_origin
  exact (h fun _ hmem => hmem).1 event hmem

end Native

/-! ## The relay pipelines -/

section Relay

variable (args : RelayStore) (data : Bytes) (prepared : WritePreamble) (plan : RelayPlan)
  (relayUrl : String)

/-- What `_store_relay` delivers with. -/
def RelayPlan.delivery : RelayDelivery where
  relayUrl := relayUrl
  nonce := plan.nonce
  tipPaid := plan.tipPaid
  maxAttempts := args.maxUploadAttempts

/-- A certificate the relay answered with, for the committee the blob was
prepared for. -/
structure RelayDelivery.Certifies (registration : Registration)
    (committee : WalrusCommittee) (certificate : Certificate) : Prop where
  committee : committee = prepared.committee
  parsed : ∃ payload, RelayDelivery.certificateOf w prepared.committee prepared.encoded
    registration payload = .ok certificate

def Write.relay : Write where
  prepared := prepared
  terms := registrationTerms w prepared args.epochs args.deletable
  strategy := plan.strategy
  certifyTerms := relayCertifyTerms args prepared
  Delivery := fun registration event =>
    event = .posted ((plan.delivery args relayUrl).command prepared.encoded data registration)
  Certifies := RelayDelivery.Certifies w prepared
  encoded := rfl
  package := rfl
  certifyPackage _ := rfl
  certifyRegistration _ := rfl
  delivery := by
    rintro registration event rfl
    rfl

variable {w assumed args data prepared plan relayUrl} {registration : Registration}

/-- A delivered certificate is one the parser accepted. -/
private theorem afterUpload_certifies {upload : RelayUploadResult}
    {delivered : RelayDeliveryResult}
    (h : RelayDelivery.afterUpload w prepared.committee prepared.encoded registration upload =
      .ok delivered) :
    ∀ certificate, delivered.outcome = .delivered certificate →
      RelayDelivery.Certifies w prepared registration prepared.committee certificate := by
  intro certificate hdelivered
  unfold RelayDelivery.afterUpload at h
  dsimp only at h
  split at h
  · cases h
    cases hdelivered
  · cases h
    cases hdelivered
  · cases h
    cases hdelivered
  · split at h
    · rename_i parsed hparsed
      cases h
      cases hdelivered
      exact ⟨rfl, _, hparsed⟩
    · split at h
      · cases h
        cases hdelivered
      · cases h

theorem relayAndCertify_origin
    (hregisters :
      (Write.relay w args data prepared plan relayUrl).Registers w assumed registration) :
    Shows assumed ((Write.relay w args data prepared plan relayUrl).Origin w assumed)
      (fun receipt => receipt.nonce = plan.nonce)
      (relayAndCertify w args data prepared plan relayUrl registration) := by
  have hdeliver : Shows assumed
      ((Write.relay w args data prepared plan relayUrl).Origin w assumed)
      (fun delivered => ∀ certificate, delivered.outcome = .delivered certificate →
        RelayDelivery.Certifies w prepared registration prepared.committee certificate)
      ((plan.delivery args relayUrl).deliver w prepared.committee prepared.encoded data
        registration) := by
    refine (uploadToRelay_shows (.delivery hregisters rfl)).bind fun upload _ => ?_
    exact (shows_lift _).weaken fun _ h => afterUpload_certifies h
  refine hdeliver.bind fun delivered hdelivered => ?_
  dsimp only
  split
  · rename_i certificate hcertificate
    have hsubmit : Shows assumed
        ((Write.relay w args data prepared plan relayUrl).Origin w assumed) (fun _ => True)
        (submitCertification w prepared.committee
          (relayCertifyTerms args prepared registration) certificate
          (PyExn.relayUpload .relayCertifyTransactionError)) :=
      Write.submitCertification_origin hregisters (hdelivered certificate hcertificate)
    refine hsubmit.attempt.bind fun certified _ => ?_
    split
    · exact meets_pure rfl
    · split
      · exact meets_pure rfl
      · exact shows_raise _
  · exact meets_pure rfl

theorem registerAndRelay_origin :
    Shows assumed ((Write.relay w args data prepared plan relayUrl).Origin w assumed)
      (fun receipt => receipt.nonce = plan.nonce)
      (registerAndRelay w args data prepared plan relayUrl) := by
  have hregister : Shows assumed
      ((Write.relay w args data prepared plan relayUrl).Origin w assumed)
      ((Write.relay w args data prepared plan relayUrl).Registers w assumed)
      (plan.strategy.register w
        (registrationTerms w prepared args.epochs args.deletable)) := Write.register_origin
  refine hregister.attempt.bind fun registered hregistered => ?_
  cases registered with
  | error e =>
    dsimp only
    split
    · exact meets_pure rfl
    · exact shows_raise _
  | ok registration => exact relayAndCertify_origin (hregistered registration rfl)

variable (w assumed args data prepared relayUrl)

/-- An event of a relay write of `data`, under a plan that was settled. -/
def RelayOrigin (attributes : List (String × String)) (event : Event) : Prop :=
  ∃ plan, planRelay w args data prepared.committee relayUrl
      (pyOr args.sender w.activeAddress) attributes = .ok plan ∧
    (Write.relay w args data prepared plan relayUrl).Origin w assumed event

/-- A receipt of such a write carries the nonce of the plan. -/
def CarriesNonce (attributes : List (String × String)) (receipt : RelayBlobReceipt) : Prop :=
  ∃ plan, planRelay w args data prepared.committee relayUrl
      (pyOr args.sender w.activeAddress) attributes = .ok plan ∧ receipt.nonce = plan.nonce

variable {w assumed args data prepared relayUrl}

theorem storeRelay_origin {attributes : List (String × String)} :
    Shows assumed (RelayOrigin w assumed args data prepared relayUrl attributes)
      (CarriesNonce w args data prepared relayUrl attributes)
      (storeRelay w args data prepared relayUrl (pyOr args.sender w.activeAddress)
        attributes) := by
  refine (shows_lift _).bind fun plan hplan => ?_
  have h : Shows assumed ((Write.relay w args data prepared plan relayUrl).Origin w assumed)
      (fun receipt => receipt.nonce = plan.nonce)
      (registerAndRelay w args data prepared plan relayUrl) := registerAndRelay_origin
  exact (h.weaken fun receipt hnonce => ⟨plan, hplan, hnonce⟩).mono
    fun event h => ⟨plan, hplan, h⟩

/-- **What a relay write shows** has its origin in the blob it prepared. -/
theorem storeBlobRelay_origin :
    Shows assumed
      (fun event => ∃ relayUrl prepared, relayPreflight w args = .ok relayUrl ∧
        prepareWrite w data relayUploadError = .ok prepared ∧
        RelayOrigin w assumed args data prepared relayUrl [] event)
      (fun receipt => ∃ relayUrl prepared, relayPreflight w args = .ok relayUrl ∧
        prepareWrite w data relayUploadError = .ok prepared ∧
        CarriesNonce w args data prepared relayUrl [] receipt)
      (storeBlobRelay w args data) := by
  refine (shows_lift _).bind fun relayUrl hurl => ?_
  refine (shows_lift _).bind fun prepared hprepared => ?_
  have hstore : Shows assumed (RelayOrigin w assumed args data prepared relayUrl []) _ _ :=
    storeRelay_origin
  exact (hstore.weaken fun receipt h => ⟨relayUrl, prepared, hurl, hprepared, h⟩).mono
    fun event h => ⟨relayUrl, prepared, hurl, hprepared, h⟩

/-- **What a relay write of a quilt shows**, likewise. -/
theorem storeQuiltRelay_origin {patches : List QuiltPatchInput} :
    Shows assumed
      (fun event => ∃ relayUrl prepared, relayPreflight w args = .ok relayUrl ∧
        prepareQuiltWrite w patches relayUploadError = .ok prepared ∧
        RelayOrigin w assumed args prepared.data prepared.toWritePreamble relayUrl
          quiltBlobAttributes event)
      (fun receipt => ∃ relayUrl prepared, relayPreflight w args = .ok relayUrl ∧
        prepareQuiltWrite w patches relayUploadError = .ok prepared ∧
        CarriesNonce w args prepared.data prepared.toWritePreamble relayUrl
          quiltBlobAttributes receipt.toRelayBlobReceipt)
      (storeQuiltRelay w args patches) := by
  refine (shows_lift _).bind fun relayUrl hurl => ?_
  refine (shows_lift _).bind fun prepared hprepared => ?_
  refine (shows_lift _).bind fun receipts _ => ?_
  refine Meets.bind (storeRelay_origin.mono ?_) fun receipt h => meets_pure ?_
  · exact fun event h => ⟨relayUrl, prepared, hurl, hprepared, h⟩
  · exact ⟨relayUrl, prepared, hurl, hprepared, h⟩

theorem origin_of_mem_storeBlobRelay {event : Event}
    (hmem : event ∈ (storeBlobRelay w args data).log) :
    ∃ relayUrl prepared, relayPreflight w args = .ok relayUrl ∧
      prepareWrite w data relayUploadError = .ok prepared ∧
      RelayOrigin w (· ∈ (storeBlobRelay w args data).log) args data prepared relayUrl []
        event := by
  have h : Shows (· ∈ (storeBlobRelay w args data).log) _ _ (storeBlobRelay w args data) :=
    storeBlobRelay_origin
  exact (h fun _ hmem => hmem).1 event hmem

theorem origin_of_mem_storeQuiltRelay {patches : List QuiltPatchInput} {event : Event}
    (hmem : event ∈ (storeQuiltRelay w args patches).log) :
    ∃ relayUrl prepared, relayPreflight w args = .ok relayUrl ∧
      prepareQuiltWrite w patches relayUploadError = .ok prepared ∧
      RelayOrigin w (· ∈ (storeQuiltRelay w args patches).log) args prepared.data
        prepared.toWritePreamble relayUrl quiltBlobAttributes event := by
  have h : Shows (· ∈ (storeQuiltRelay w args patches).log) _ _
      (storeQuiltRelay w args patches) := storeQuiltRelay_origin
  exact (h fun _ hmem => hmem).1 event hmem

end Relay

/-! ## A small write -/

/-- Three bytes, for the active address. -/
def NativeStore.small : NativeStore where
  data := [1, 2, 3]
  epochs := 2
  deletable := false
  maxConfirmationRequests := 4
  sender := none
  sponsor := none
  paymentCoin := some "0xc"
  recipient := none

/-- The tip is paid from the gas coin. -/
def RelayStore.small : RelayStore where
  epochs := 2
  deletable := false
  relayName := none
  sender := none
  sponsor := none
  recipient := none
  tipSource := fromGas
  maxTip := none
  walPaymentCoin := some "0xc"
  maxUploadAttempts := 3
  onQuote := none

namespace SmallWrite

private def committee : WalrusCommittee := ⟨1, 1, [⟨"node", [0], "node:1", [6]⟩]⟩

private def encoded : EncodedBlob where
  blobId := List.replicate 32 7
  rootHash := List.replicate 32 8
  unencodedLength := 3
  nShards := 1
  slivers := [⟨0, [1], [2]⟩]
  metadataBcs := [3]

def upload : SliverFanout.Upload := ⟨committee, encoded, 5, 10⟩

private def holders : List upload.Member := [⟨⟨"node", [0], "node:1", [6]⟩, by decide⟩]

private def task : SliverFanout.NodeTask holders := ⟨0, by decide⟩

/-- The node stores the metadata, then both slivers. -/
private def stores : List (SliverFanout.Action holders) :=
  [.node task (.metadata .send), .node task (.metadata (.answer (.ok (.ok none)))),
    .node task (.sliver 0 .send), .node task (.sliver 1 .send),
    .node task (.sliver 1 (.answer (.ok (.ok none)))),
    .node task (.sliver 0 (.answer (.ok (.ok none)))),
    .node task (.wake [1, 0]),
    .driver (.finish task (.returned ⟨"node", 0, 1, true, none⟩)), .driver (.wake [task])]

theorem uploads : SliverFanout.Uploads upload World.small.slivers := by
  obtain ⟨s, hrun, hexit, hfinish⟩ : ∃ s, SliverFanout.Runs holders stores s ∧
      s.driver.phase = .exited .returned ∧
      SliverFanout.finish upload s.driver.acc = World.small.slivers := ⟨_, rfl, rfl, rfl⟩
  exact hfinish ▸ .uploaded rfl hrun hexit

private def registration (objectId : String) : Registration :=
  ⟨objectId, List.replicate 32 7, 9, false, "digest"⟩

def query (objectId : String) : Confirm.Query :=
  NativeUpload.confirmationQuery World.small 0 committee encoded.blobId (registration objectId)

private def poll : Confirm.Poll where
  bls := World.small.bls
  committee := committee
  expectedMessage := [0, 0, 0, 1, 0, 0, 0] ++ List.replicate 32 7
  candidates := committee.members
  answers := World.small.nodeAnswers 0

private def request : poll.Request := ⟨0, by decide⟩

/-- The node confirms. -/
private def confirms : List (CommitteeFanout.Action poll.Request PyExn
    (ExecuteOutcome Confirm.SignedConfirmation)) :=
  [.finish request (.returned (poll.answers 0)), .wake [request]]

theorem collects (objectId : String) :
    Confirm.Collects (query objectId) (World.small.confirmations 0) := by
  obtain ⟨s, hrun, hexit, hreports, hfinish⟩ :
      ∃ s, CommitteeFanout.Runs poll.callbacks (List.finRange poll.candidates.length) .empty
          confirms s ∧ s.phase = .exited .returned ∧
        s.reports = [.completed request (.returned (poll.answers 0))] ∧
        poll.finish s.acc = World.small.confirmations 0 := ⟨_, rfl, rfl, rfl, rfl⟩
  have hmessage : (query objectId).expectedMessage = .ok poll.expectedMessage := by
    unfold Confirm.Query.expectedMessage
    rw [show (query objectId).registration.deletable = false from rfl, if_neg Bool.false_ne_true]
    exact congrArg Except.ok (by decide : Certification.confirmationMessage World.small.bls 1
      (List.replicate 32 7) none = poll.expectedMessage)
  have hpoll : (query objectId).poll = .ok poll := by
    unfold Confirm.Query.poll
    rw [hmessage]
    rfl
  refine hfinish ▸ .collected hpoll hrun hexit fun i r hr => ?_
  rw [hreports, List.mem_singleton] at hr
  cases hr
  rfl

/-- Nothing a small native write asks is answered impossibly. -/
theorem possible :
    ∀ event ∈ (storeBlobNative World.small .small).log, World.small.Possible event := by
  obtain ⟨s₁, t₁, s₂, t₂, c, r, k, h⟩ : ∃ s₁ t₁ s₂ t₂ c r k,
      (storeBlobNative World.small .small).log =
        [.opened .tx1 s₁ none, .signed .tx1 t₁, .submitted .tx1 t₁, .uploading upload,
          .collecting 0 (query "0xb"), .readEpoch, .certifying c r k, .opened .tx2 s₂ none,
          .signed .tx2 t₂, .submitted .tx2 t₂] := ⟨_, _, _, _, _, _, _, rfl⟩
  rw [h]
  simp [World.Possible, uploads, collects]

end SmallWrite

end Pytusk.Pipelines
