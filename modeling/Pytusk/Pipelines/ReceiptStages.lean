import Pytusk.Pipelines.Origins

/-!
# The stages a receipt speaks of

A run has entered a stage if it shows an event of it. A receipt is coherent
with its run if what it says of success agrees and a stage has a duration
exactly if the run entered it. Tx2 is read in two ways, as attempted and as
handed to the chain.
-/

namespace Pytusk.Pipelines

open Pytusk.Lib Pytusk.Lib.Logged Pytusk.Ops

variable {w : World}

/-! ## Stages -/

/-- The slivers are sent to the nodes, or the blob to the relay. -/
def isUpload : Event → Bool
  | .uploading _ | .posted _ => true
  | _ => false

def isCollection : Event → Bool
  | .collecting .. => true
  | _ => false

/-- `execute_certify` is called. -/
def isTx2Attempt : Event → Bool
  | .certifying .. => true
  | _ => false

/-- Tx2 is handed to the chain. -/
def isTx2Submission : Event → Bool
  | .submitted .tx2 _ => true
  | _ => false

def isTx1 : Event → Bool
  | .opened .tx1 .. | .signed .tx1 _ | .submitted .tx1 _ => true
  | _ => false

/-- The two readings of Tx2 having been submitted. -/
inductive Tx2Reading
  | attempted
  | submitted

/-- The stages after Tx1 that a run may or may not enter. -/
inductive Stage
  | upload
  | confirmations
  | certify (reading : Tx2Reading)

/-- The events of a run that has entered the stage. -/
def Stage.shows : Stage → Event → Bool
  | .upload => isUpload
  | .confirmations => isCollection
  | .certify .attempted => isTx2Attempt
  | .certify .submitted => isTx2Submission

theorem Stage.shows_of_isTx1 (stage : Stage) {event : Event} (h : isTx1 event = true) :
    stage.shows event = false := by
  unfold isTx1 at h
  split at h
  · rcases stage with _ | _ | (_ | _) <;> rfl
  · rcases stage with _ | _ | (_ | _) <;> rfl
  · rcases stage with _ | _ | (_ | _) <;> rfl
  · cases h

theorem Stage.shows_of_isUpload {stage : Stage} (hne : stage ≠ .upload) {event : Event}
    (h : isUpload event = true) : stage.shows event = false := by
  unfold isUpload at h
  split at h
  · rcases stage with _ | _ | (_ | _) <;> first | rfl | exact absurd rfl hne
  · rcases stage with _ | _ | (_ | _) <;> first | rfl | exact absurd rfl hne
  · cases h

/-- The run has entered the stage. -/
def Entered {α : Type} (stage : Stage) (run : Program α) : Prop := Emits stage.shows run

structure NativeCoherent (reading : Tx2Reading) (receipt : NativeBlobReceipt)
    (run : Program NativeBlobReceipt) : Prop where
  failedStage : receipt.certified = true ↔ receipt.failedStage = none
  certifyTxDigest : receipt.certified = receipt.certifyTxDigest.isSome
  registerTxDigest : receipt.registerTxDigest.isSome = true
  encode : receipt.timings.encode.isSome = true
  registerTx1 : receipt.timings.registerTx1.isSome = true
  sliverUpload : receipt.timings.sliverUpload.isSome = true ↔ Entered .upload run
  confirmations : receipt.timings.confirmations.isSome = true ↔ Entered .confirmations run
  certifyTx2 : receipt.timings.certifyTx2.isSome = true ↔ Entered (.certify reading) run

structure RelayCoherent (reading : Tx2Reading) (receipt : RelayBlobReceipt)
    (run : Program RelayBlobReceipt) : Prop where
  failedStage : receipt.certified = true ↔ receipt.failedStage = none
  certifyTxDigest : receipt.certified = receipt.certifyTxDigest.isSome
  outcome : receipt.certified = true ↔ receipt.outcome = .certified
  registerTxDigest : receipt.registerTxDigest.isSome = true
  nonce : receipt.nonce.isSome = receipt.tipPaid
  encode : receipt.timings.encode.isSome = true
  tipConfig : receipt.timings.tipConfig.isSome = true
  registerTipTx : receipt.timings.registerTipTx.isSome = true
  relayUpload : receipt.timings.relayUpload.isSome = true ↔ Entered .upload run
  certifyTx : receipt.timings.certifyTx.isSome = true ↔ Entered (.certify reading) run

/-- Coherence is about the stages that were entered. -/
theorem NativeCoherent.congr {reading : Tx2Reading} {receipt : NativeBlobReceipt}
    {run run' : Program NativeBlobReceipt}
    (h : ∀ stage, Entered stage run ↔ Entered stage run') :
    NativeCoherent reading receipt run ↔ NativeCoherent reading receipt run' := by
  constructor
  · intro hc
    exact { hc with
      sliverUpload := hc.sliverUpload.trans (h _)
      confirmations := hc.confirmations.trans (h _)
      certifyTx2 := hc.certifyTx2.trans (h _) }
  · intro hc
    exact { hc with
      sliverUpload := hc.sliverUpload.trans (h _).symm
      confirmations := hc.confirmations.trans (h _).symm
      certifyTx2 := hc.certifyTx2.trans (h _).symm }

theorem RelayCoherent.congr {reading : Tx2Reading} {receipt : RelayBlobReceipt}
    {run run' : Program RelayBlobReceipt}
    (h : ∀ stage, Entered stage run ↔ Entered stage run') :
    RelayCoherent reading receipt run ↔ RelayCoherent reading receipt run' := by
  constructor
  · intro hc
    exact { hc with
      relayUpload := hc.relayUpload.trans (h _)
      certifyTx := hc.certifyTx.trans (h _) }
  · intro hc
    exact { hc with
      relayUpload := hc.relayUpload.trans (h _).symm
      certifyTx := hc.certifyTx.trans (h _).symm }

/-! ## Tx2 -/

/-- What `submit_certification` is called with. -/
structure Tx2Step where
  committee : WalrusCommittee
  terms : CertifyTerms
  certificate : Certificate

namespace Tx2Step

variable (w) (step : Tx2Step)

/-- The certificate passes the local verification. -/
def Verifies : Prop :=
  ∃ signers, step.committee.membersAt step.certificate.signerPositions = .ok signers ∧
    Certification.verifyCertificate w.bls step.certificate (signers.map (·.publicKey)) = true

/-- Tx2 is opened, composed and signed. -/
def Signs : Prop :=
  (w.transaction .tx2).opening = .ok () ∧
    (∃ txn, addCertify (w.transaction .tx2).builder
      ⟨pyOr step.terms.sender w.activeAddress, step.terms.sponsor, []⟩ step.terms.packageId
      w.systemObject step.terms.registration.objectId step.certificate step.terms.recipient =
        .ok txn) ∧
    (w.transaction .tx2).signing = .ok ()

/-- Tx2 was submitted, as it is read. -/
def Reaches : Tx2Reading → Prop
  | .attempted => step.Verifies w
  | .submitted => step.Verifies w ∧ step.Signs w

variable {w step} in
theorem Reaches.verifies {reading : Tx2Reading} (h : step.Reaches w reading) :
    step.Verifies w := by
  cases reading with
  | attempted => exact h
  | submitted => exact h.1

end Tx2Step

/-- A computation that shows one kind enters no stage that the kind excludes. -/
theorem not_emits {α : Type} {kind other : Event → Bool} {x : Program α}
    {returns : α → Prop}
    (h : Shows (fun _ => True) (fun event => kind event = true) returns x)
    (hexcludes : ∀ event, kind event = true → other event = false) : ¬ Emits other x := by
  rintro ⟨event, hmem, hother⟩
  have hkind := (h fun _ _ => trivial).1 event hmem
  exact Bool.eq_false_iff.mp (hexcludes event hkind) hother

section Tx2

variable {step : Tx2Step}

theorem not_emits_openTransaction {tx : TxLabel} {sender : String}
    {sponsor : Option String} :
    Emits isTx2Submission (openTransaction w tx sender sponsor) ↔ False := by
  simp [openTransaction, emits_bind, isTx2Submission]

theorem signAndExecute_submits {txn : Txn} {label : String} :
    (Emits isTx2Submission (signAndExecute w .tx2 txn label) ↔
      (w.transaction .tx2).signing = .ok ()) ∧
    ∀ r, (signAndExecute w .tx2 txn label).result = .ok r →
      (w.transaction .tx2).signing = .ok () := by
  unfold signAndExecute
  cases (w.transaction .tx2).signing with
  | error e => simp [emits_bind, isTx2Submission]
  | ok u => simp [emits_bind, isTx2Submission]

/-- Tx2 is handed to the chain once it is signed; a result comes after that. -/
theorem executeCertify_signs :
    (Emits isTx2Submission (executeCertify w step.terms step.certificate) ↔ step.Signs w) ∧
    ∀ result, (executeCertify w step.terms step.certificate).result = .ok result →
      result.certified = true ∧ step.Signs w := by
  constructor
  · simp only [executeCertify, emits_bind, openTransaction_result, signAndExecute_submits.1,
      result_lift, emits_lift, emits_pure, and_false, exists_false, or_false, false_or, and_assoc,
      exists_and_left, exists_eq_left', exists_and_right, not_emits_openTransaction, Tx2Step.Signs]
  · intro result hresult
    obtain ⟨txn, hopen, h⟩ := result_bind_eq_ok.mp hresult
    obtain ⟨hopening, rfl⟩ := openTransaction_result.mp hopen
    obtain ⟨composed, hcomposed, h⟩ := result_bind_eq_ok.mp h
    obtain ⟨r, hr, h⟩ := result_bind_eq_ok.mp h
    cases h
    exact ⟨rfl, hopening, ⟨composed, hcomposed⟩, signAndExecute_submits.2 r hr⟩

theorem membersAt_indexError {committee : WalrusCommittee} {positions : List Nat} :
    OnlyRaises (fun e => e.isRuntimeError = false) (committee.membersAt positions) := by
  refine OnlyRaises.mapM fun position _ => ?_
  split
  · exact onlyRaises_ok _
  · exact onlyRaises_error rfl

section Submit

variable {errorType : ErrorType}

theorem emits_submitCertification {p : Event → Bool} (h : step.Verifies w) :
    Emits p (submitCertification w step.committee step.terms step.certificate errorType) ↔
      p (.certifying step.committee step.terms.registration step.certificate) = true ∨
        Emits p (executeCertify w step.terms step.certificate) := by
  obtain ⟨signers, hsigners, hverify⟩ := h
  rw [submitCertification, hsigners, lift_ok_bind, if_pos hverify, emits_bind_of_ok rfl,
    emits_emit, emits_attempt_bind]
  intro r
  cases r <;> simp

theorem result_submitCertification (h : step.Verifies w) :
    (submitCertification w step.committee step.terms step.certificate errorType).result =
      match (executeCertify w step.terms step.certificate).result with
      | .ok result => .ok ⟨result, ⟨⟩⟩
      | .error e => .error (if e.isRuntimeError || e.isValueError then
          errorType e.message "certify" (some ⟨⟩) else e) := by
  obtain ⟨signers, hsigners, hverify⟩ := h
  rw [submitCertification, hsigners, lift_ok_bind, if_pos hverify, result_bind, result_emit,
    ok_bind, result_bind, result_attempt, ok_bind]
  cases (executeCertify w step.terms step.certificate).result <;> rfl

/-- Nothing is shown of a certificate that is rejected. -/
theorem submitCertification_rejected
    (hduration : ∀ message stage duration, (errorType message stage duration).duration = duration)
    (h : ¬ step.Verifies w) :
    ∃ e, submitCertification w step.committee step.terms step.certificate errorType = raise e ∧
      (e.isRuntimeError = true → e.duration = none) := by
  unfold submitCertification
  cases hsigners : step.committee.membersAt step.certificate.signerPositions with
  | error e =>
    refine ⟨e, rfl, fun hruntime => ?_⟩
    exact absurd (membersAt_indexError _ hsigners) (by simp [hruntime])
  | ok signers =>
    rw [lift_ok_bind, if_neg fun hverify => h ⟨signers, hsigners, hverify⟩]
    exact ⟨_, rfl, fun _ => hduration _ _ _⟩

/-- What the end of `submit_certification` says about Tx2. -/
structure SubmitAccounts (w : World) (step : Tx2Step) (x : Program CertificationOutcome) :
    Prop where
  certify : ∀ reading, Entered (.certify reading) x ↔ step.Reaches w reading
  returns : ∀ outcome, x.result = .ok outcome →
    outcome.result.certified = true ∧ ∀ reading, step.Reaches w reading
  raises : ∀ e, x.result = .error e → e.isRuntimeError = true →
    (e.duration.isSome = true ↔ step.Verifies w)

/-- **An error of Tx2 has a duration** exactly if the certificate was not
rejected before Tx2. -/
theorem submitCertification_accounts
    (hduration : ∀ message stage duration,
      (errorType message stage duration).duration = duration) :
    SubmitAccounts w step
      (submitCertification w step.committee step.terms step.certificate errorType) := by
  by_cases hverifies : step.Verifies w
  · obtain ⟨hsubmits, hsigns⟩ := @executeCertify_signs w step
    have hresult := @result_submitCertification w step errorType hverifies
    constructor
    · intro reading
      rw [Entered, emits_submitCertification hverifies]
      cases reading with
      | attempted => exact iff_of_true (.inl rfl) hverifies
      | submitted => simp [Stage.shows, Tx2Step.Reaches, isTx2Submission, hsubmits, hverifies]
    · intro outcome houtcome
      rw [hresult] at houtcome
      split at houtcome
      · rename_i result hexecuted
        cases houtcome
        obtain ⟨hcertified, hsigned⟩ := hsigns result hexecuted
        refine ⟨hcertified, ?_⟩
        rintro (_ | _)
        · exact hverifies
        · exact ⟨hverifies, hsigned⟩
      · cases houtcome
    · intro e he hruntime
      rw [hresult] at he
      split at he
      · cases he
      · split at he
        · cases he
          simp [hduration, hverifies]
        · rename_i e' _ hother
          cases he
          simp [hruntime] at hother
  · obtain ⟨e, hraise, hnone⟩ := submitCertification_rejected hduration hverifies
    rw [hraise]
    constructor
    · rintro (_ | _)
      · simp [Entered, Tx2Step.Reaches, hverifies]
      · simp [Entered, Tx2Step.Reaches, hverifies]
    · simp
    · intro e' he hruntime
      cases he
      simp [hnone hruntime, hverifies]

end Submit

end Tx2

/-- Tx1 is none of the stages after it. -/
theorem not_entered_register {strategy : BlobRegistration} {terms : RegistrationTerms}
    (stage : Stage) : ¬ Entered stage (strategy.register w terms) := by
  have hshows : Shows (fun _ => True) (fun event => isTx1 event = true) _
      (strategy.register w terms) := register_shows rfl fun _ _ => ⟨rfl, rfl⟩
  exact not_emits hshows fun event h => stage.shows_of_isTx1 h

end Pytusk.Pipelines
