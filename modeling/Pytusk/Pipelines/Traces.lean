import Pytusk.Pipelines.Write

/-!
# What each stage of a write shows the outside

One rule for each stage: which events it emits, given what is guaranteed of
them, and what it returns. The results about whole pipelines chain these
rules, whatever it is they guarantee.
-/

namespace Pytusk.Pipelines

open Pytusk.Lib Pytusk.Ops Pytusk.Lib.Logged

variable {w : World} {assumed guaranteed : Event → Prop}

/-- `x` guarantees what it emits and what it returns, and may raise anything. -/
abbrev Shows {α : Type} (assumed guaranteed : Event → Prop) (returns : α → Prop)
    (x : Program α) : Prop :=
  Meets assumed guaranteed (fun _ => True) returns x

theorem shows_lift {α : Type} (r : Except PyExn α) :
    Shows assumed guaranteed (fun a => r = .ok a) (lift r) := by
  apply meets_lift
  cases r with
  | error e => trivial
  | ok a => exact rfl

theorem shows_raise {α : Type} {returns : α → Prop} (e : PyExn) :
    Shows assumed guaranteed returns (raise e) :=
  meets_raise trivial

theorem Shows.weaken {α : Type} {returns narrower : α → Prop} {x : Program α}
    (hx : Shows assumed guaranteed narrower x) (h : ∀ a, narrower a → returns a) :
    Shows assumed guaranteed returns x :=
  Meets.weaken hx (fun _ _ => trivial) h

theorem Shows.attempt {α : Type} {returns : α → Prop} {x : Program α}
    (hx : Shows assumed guaranteed returns x) :
    Shows assumed guaranteed (fun r => ∀ a, r = .ok a → returns a) x.attempt := by
  have h : Shows assumed guaranteed (EndsIn (fun _ => True) returns) x.attempt :=
    Meets.attempt hx
  refine h.weaken ?_
  intro r hr a ha
  rw [ha] at hr
  exact hr

/-! ## Transactions -/

theorem openTransaction_shows {tx : TxLabel} {sender : String} {sponsor : Option String}
    (hopened : guaranteed (.opened tx sender sponsor)) :
    Shows assumed guaranteed (fun txn => txn = ⟨sender, sponsor, []⟩)
      (openTransaction w tx sender sponsor) := by
  refine (meets_emit fun _ => hopened).bind fun _ _ => ?_
  refine (shows_lift _).bind fun _ _ => ?_
  exact meets_pure rfl

theorem openTransaction_result {tx : TxLabel} {sender : String} {sponsor : Option String}
    {txn : Txn} :
    (openTransaction w tx sender sponsor).result = .ok txn ↔
      (w.transaction tx).opening = .ok () ∧ ⟨sender, sponsor, []⟩ = txn := by
  unfold openTransaction
  cases (w.transaction tx).opening <;> simp

/-- The transaction executed, and its effects report success. -/
def Succeeded (w : World) (tx : TxLabel) (executed : ExecutedTransaction)
    (effects : TransactionEffects) : Prop :=
  (w.transaction tx).execution = .ok (.ok (some executed)) ∧
    ∃ label, Effects.requireSuccess executed label = .ok effects

theorem signAndExecute_shows {tx : TxLabel} {txn : Txn} {label : String}
    (hsigned : guaranteed (.signed tx txn)) (hsubmitted : guaranteed (.submitted tx txn)) :
    Shows assumed guaranteed
      (fun r => assumed (.submitted tx txn) ∧ Succeeded w tx r.1 r.2)
      (signAndExecute w tx txn label) := by
  refine (meets_emit fun _ => hsigned).bind fun _ _ => ?_
  refine (shows_lift _).bind fun _ _ => ?_
  refine (meets_emit fun _ => hsubmitted).bind fun _ hassumed => ?_
  refine (shows_lift _).weaken ?_
  intro r hr
  refine ⟨hassumed, ?_⟩
  obtain ⟨result, hresult, hr⟩ := bind_eq_ok.mp hr
  cases result with
  | failed text => cases hr
  | ok data =>
    obtain ⟨executed, hdata, hr⟩ := bind_eq_ok.mp hr
    obtain ⟨effects, heffects, hr⟩ := bind_eq_ok.mp hr
    cases hr
    cases data with
    | none => cases hdata
    | some executed' =>
      cases hdata
      exact ⟨hresult, label, heffects⟩

/-! ## Tx1 -/

namespace BlobRegistration

/-- The address Tx1 is opened for. -/
def resolvedSender (w : World) : BlobRegistration → String
  | .plainBlobRegistration _ sender _ _ => pyOr sender w.activeAddress
  | .tippedBlobRegistration _ _ sender _ _ => sender

def sponsor : BlobRegistration → Option String
  | .plainBlobRegistration _ _ sponsor _ => sponsor
  | .tippedBlobRegistration _ _ _ sponsor _ => sponsor

def tip : BlobRegistration → Option TipComposition
  | .plainBlobRegistration .. => none
  | .tippedBlobRegistration tip .. => some tip

def attributes : BlobRegistration → List (String × String)
  | .plainBlobRegistration _ _ _ attributes => attributes
  | .tippedBlobRegistration _ _ _ _ attributes => attributes

/-- The transactions a strategy composes. -/
def Composes (w : World) (strategy : BlobRegistration) (terms : RegistrationTerms)
    (txn : Txn) : Prop :=
  ∃ coin blobIdU256 rootHashU256, txn = ⟨strategy.resolvedSender w, strategy.sponsor,
    registrationCalls terms (strategy.resolvedSender w) coin strategy.tip
      strategy.attributes blobIdU256 rootHashU256⟩

end BlobRegistration

/-- A composed Tx1 hands the Blob to the sender of its strategy. -/
theorem BlobRegistration.Composes.newBlobRecipient {strategy : BlobRegistration}
    {terms : RegistrationTerms} {txn : Txn} (h : strategy.Composes w terms txn) :
    newBlobRecipient terms.packageId txn = some (strategy.resolvedSender w) := by
  obtain ⟨coin, blobIdU256, rootHashU256, rfl⟩ := h
  exact newBlobRecipient_registrationCalls

/-- The coins of a composed Tx1 are the tip, if it pays one. -/
theorem BlobRegistration.Composes.coinRecipients {strategy : BlobRegistration}
    {terms : RegistrationTerms} {txn : Txn} (h : strategy.Composes w terms txn) :
    coinRecipients txn = strategy.tip.toList.map (·.relayAddress) := by
  obtain ⟨coin, blobIdU256, rootHashU256, rfl⟩ := h
  exact coinRecipients_registrationCalls

/-- What the effects of a submitted Tx1 read back as. -/
def Registers (w : World) (assumed : Event → Prop) (strategy : BlobRegistration)
    (terms : RegistrationTerms) (registration : Registration) : Prop :=
  ∃ txn executed effects, strategy.Composes w terms txn ∧
    assumed (.submitted .tx1 txn) ∧ Succeeded w .tx1 executed effects ∧
    readRegistration w terms.encoded (strategy.resolvedSender w) executed effects =
      .ok registration

private theorem executeRegistrationTxn_shows {strategy : BlobRegistration}
    {terms : RegistrationTerms} {txn : Txn} {label : String}
    (htxn : strategy.Composes w terms txn)
    (hsigned : guaranteed (.signed .tx1 txn)) (hsubmitted : guaranteed (.submitted .tx1 txn)) :
    Shows assumed guaranteed (Registers w assumed strategy terms)
      (executeRegistrationTxn w txn terms.encoded (strategy.resolvedSender w) label) := by
  refine (signAndExecute_shows hsigned hsubmitted).bind fun r hr => ?_
  refine (shows_lift _).weaken ?_
  exact fun registration h => ⟨txn, r.1, r.2, htxn, hr.1, hr.2, h⟩

/-- **Registering a blob** opens Tx1 for the strategy's sender, signs what the
strategy composes, and returns what the effects of Tx1 read back as. -/
theorem register_shows {strategy : BlobRegistration} {terms : RegistrationTerms}
    (hopened : guaranteed (.opened .tx1 (strategy.resolvedSender w) strategy.sponsor))
    (hsigned : ∀ txn, strategy.Composes w terms txn →
      guaranteed (.signed .tx1 txn) ∧ guaranteed (.submitted .tx1 txn)) :
    Shows assumed guaranteed (Registers w assumed strategy terms)
      (strategy.register w terms) := by
  cases strategy with
  | plainBlobRegistration paymentCoin sender sponsor attributes =>
    refine (shows_lift _).bind fun coin _ => ?_
    refine (openTransaction_shows hopened).bind fun txn htxn => ?_
    refine (shows_lift _).bind fun composed hcomposed => ?_
    subst htxn
    obtain ⟨blobIdU256, rootHashU256, hcalls⟩ := addRegistrationSequence_calls rfl hcomposed
    have hcomposes : BlobRegistration.Composes w
        (.plainBlobRegistration paymentCoin sender sponsor attributes) terms composed :=
      ⟨coin, blobIdU256, rootHashU256, hcalls⟩
    obtain ⟨h₁, h₂⟩ := hsigned composed hcomposes
    exact executeRegistrationTxn_shows hcomposes h₁ h₂
  | tippedBlobRegistration tip coin sender sponsor attributes =>
    refine (openTransaction_shows hopened).bind fun txn htxn => ?_
    refine (shows_lift _).bind fun composed hcomposed => ?_
    subst htxn
    obtain ⟨blobIdU256, rootHashU256, hcalls⟩ := addRegistrationSequence_calls rfl hcomposed
    have hcomposes : BlobRegistration.Composes w
        (.tippedBlobRegistration tip coin sender sponsor attributes) terms composed :=
      ⟨coin, blobIdU256, rootHashU256, hcalls⟩
    obtain ⟨h₁, h₂⟩ := hsigned composed hcomposes
    exact executeRegistrationTxn_shows hcomposes h₁ h₂

/-- What every registration carries over from Tx1 and its effects. -/
theorem readRegistration_eq_ok {encoded : EncodedBlob} {owner : String}
    {executed : ExecutedTransaction} {effects : TransactionEffects}
    {registration : Registration}
    (h : readRegistration w encoded owner executed effects = .ok registration) :
    Effects.findCreatedObjectId effects owner = .ok registration.objectId ∧
      registration.blobId = encoded.blobId ∧ registration.digest = executed.digest := by
  obtain ⟨objectId, hfound, h⟩ := bind_eq_ok.mp h
  obtain ⟨_, -, h⟩ := bind_eq_ok.mp h
  obtain ⟨_, -, h⟩ := bind_eq_ok.mp h
  obtain ⟨⟨deletable, endEpoch⟩, -, h⟩ := bind_eq_ok.mp h
  cases h
  refine ⟨?_, rfl, rfl⟩
  unfold newBlobId at hfound
  split at hfound
  · rename_i found hfind
    cases hfound
    exact hfind
  · cases hfound

/-! ## The storage nodes and the relay -/

theorem collectConfirmations_shows {k : Nat} {maxRequests : Int}
    {committee : WalrusCommittee} {blobId : Bytes} {registration : Registration}
    (hcollecting :
      guaranteed (.collecting k (NativeUpload.confirmationQuery w k committee blobId
        registration))) :
    Shows assumed guaranteed
      (fun certificate => assumed (.collecting k (NativeUpload.confirmationQuery w k
        committee blobId registration)) ∧ w.confirmations k = .ok certificate)
      (NativeUpload.collectConfirmations w k maxRequests committee blobId registration) := by
  refine (shows_lift _).bind fun _ _ => ?_
  refine (shows_lift _).bind fun _ _ => ?_
  refine (shows_lift _).bind fun _ _ => ?_
  refine (meets_emit fun _ => hcollecting).bind fun _ hassumed => ?_
  refine (shows_lift _).weaken ?_
  exact fun certificate h => ⟨hassumed, h⟩

theorem uploadSlivers_shows {committee : WalrusCommittee} {encoded : EncodedBlob}
    (huploading : ∀ u, u.committee = committee → u.encoded = encoded →
      guaranteed (.uploading u)) :
    Shows assumed guaranteed (fun _ => True)
      (NativeUpload.uploadSlivers w committee encoded) := by
  refine (meets_emit fun _ => huploading _ rfl rfl).bind fun _ _ => ?_
  exact (shows_lift _).weaken fun _ _ => trivial

/-- Every attempt posts the same command, and the result carries its tokens. -/
theorem attemptUpload_shows {relayUrl : String} {command : WriteRelayBlob}
    (hposted : guaranteed (.posted command)) (budget attempts : Nat)
    (last : RelayUpload.LastFailure) :
    Shows assumed guaranteed (fun _ => True)
      (RelayUpload.attemptUpload w relayUrl command budget attempts last) := by
  induction budget generalizing attempts last with
  | zero => exact meets_pure trivial
  | succ budget ih =>
    refine (meets_emit fun _ => hposted).bind fun _ _ => ?_
    refine (shows_lift _).bind fun _ _ => ?_
    split
    · exact meets_pure trivial
    · exact ih _ _
    · split
      · exact meets_pure trivial
      · exact ih _ _

theorem uploadToRelay_shows {relayUrl : String} {command : WriteRelayBlob}
    {maxAttempts : Int} (hposted : guaranteed (.posted command)) :
    Shows assumed guaranteed (fun _ => True)
      (RelayUpload.uploadToRelay w relayUrl command maxAttempts) := by
  unfold RelayUpload.uploadToRelay
  split
  · exact shows_raise _
  · exact attemptUpload_shows hposted _ _ _

/-! ## Tx2 -/

/-- The transactions `execute_certify` composes. -/
def CertifyTerms.Composes (w : World) (terms : CertifyTerms) (certificate : Certificate)
    (txn : Txn) : Prop :=
  txn = ⟨pyOr terms.sender w.activeAddress, terms.sponsor,
    certifyBlob terms.packageId w.systemObject terms.registration.objectId certificate ::
      terms.recipient.toList.map fun address =>
        .transferObjects [.str terms.registration.objectId] address⟩

theorem executeCertify_shows {terms : CertifyTerms} {certificate : Certificate}
    (hopened : guaranteed
      (.opened .tx2 (pyOr terms.sender w.activeAddress) terms.sponsor))
    (hsigned : ∀ txn, CertifyTerms.Composes w terms certificate txn →
      guaranteed (.signed .tx2 txn) ∧ guaranteed (.submitted .tx2 txn)) :
    Shows assumed guaranteed (fun _ => True) (executeCertify w terms certificate) := by
  refine (openTransaction_shows hopened).bind fun txn htxn => ?_
  refine (shows_lift _).bind fun composed hcomposed => ?_
  subst htxn
  obtain ⟨h₁, h₂⟩ := hsigned _ (addCertify_calls hcomposed)
  refine (signAndExecute_shows h₁ h₂).bind fun _ _ => ?_
  exact meets_pure trivial

/-- **Submitting a certificate**: nothing is shown unless its aggregate
verifies against the keys of the members it names, and the certificate is
shown before any of Tx2 is. -/
theorem submitCertification_shows {committee : WalrusCommittee} {terms : CertifyTerms}
    {certificate : Certificate} {errorType : ErrorType}
    (hverified : ∀ signers, committee.membersAt certificate.signerPositions = .ok signers →
      Certification.verifyCertificate w.bls certificate (signers.map (·.publicKey)) = true →
      guaranteed (.certifying committee terms.registration certificate) ∧
      (assumed (.certifying committee terms.registration certificate) →
        guaranteed (.opened .tx2 (pyOr terms.sender w.activeAddress) terms.sponsor) ∧
        ∀ txn, CertifyTerms.Composes w terms certificate txn →
          guaranteed (.signed .tx2 txn) ∧ guaranteed (.submitted .tx2 txn))) :
    Shows assumed guaranteed (fun _ => True)
      (submitCertification w committee terms certificate errorType) := by
  refine (shows_lift _).bind fun signers hsigners => ?_
  split
  · rename_i hverify
    obtain ⟨hcertifying, htx2⟩ := hverified signers hsigners hverify
    refine (meets_emit fun _ => hcertifying).bind fun _ hassumed => ?_
    obtain ⟨hopened, hsigned⟩ := htx2 hassumed
    refine (executeCertify_shows hopened hsigned).attempt.bind fun r _ => ?_
    split
    · exact meets_pure trivial
    · exact shows_raise _
  · exact shows_raise _

end Pytusk.Pipelines
