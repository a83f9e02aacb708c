import Pytusk.NativeUpload.Untimed
import Pytusk.Pipelines.ReceiptStages

/-!
# What a receipt says about its run

The native write is coherent with its run where Tx2 is read as attempted; the
relay write times Tx2 also when the certificate was rejected before it.
-/

namespace Pytusk.Pipelines

open Pytusk.Lib Pytusk.Lib.Logged Pytusk.Ops

variable {w : World}

/-! ## The relay write -/

section Relay

variable {args : RelayStore} {data : Bytes} {prepared : WritePreamble} {plan : RelayPlan}
  {relayUrl : String} {registration : Registration}

/-- Posting is entering the upload, and no other stage. -/
private theorem entered_deliver (hmax : 1 ≤ args.maxUploadAttempts) (stage : Stage) :
    Entered stage ((plan.delivery args relayUrl).deliver w prepared.committee prepared.encoded
      data registration) ↔ stage = .upload := by
  constructor
  · intro hentered
    by_contra hne
    have hshows : Shows (fun _ => True) (fun event => isUpload event = true) (fun _ => True)
        ((plan.delivery args relayUrl).deliver w prepared.committee prepared.encoded data
          registration) := by
      have hupload : Shows (fun _ => True) (fun event => isUpload event = true) (fun _ => True)
          (RelayUpload.uploadToRelay w relayUrl ((plan.delivery args relayUrl).command
            prepared.encoded data registration) args.maxUploadAttempts) :=
        uploadToRelay_shows rfl
      refine hupload.bind fun upload _ => ?_
      exact (shows_lift _).weaken fun _ _ => trivial
    exact not_emits hshows (fun event h => Stage.shows_of_isUpload hne h) hentered
  · rintro rfl
    -- the first attempt posts
    obtain ⟨budget, hbudget⟩ : ∃ budget, args.maxUploadAttempts.toNat = budget + 1 :=
      ⟨args.maxUploadAttempts.toNat - 1, by omega⟩
    refine emits_bind.mpr (.inl ?_)
    show Emits isUpload (RelayUpload.uploadToRelay w relayUrl _ args.maxUploadAttempts)
    rw [RelayUpload.uploadToRelay, if_neg (by omega), hbudget, RelayUpload.attemptUpload]
    exact emits_bind.mpr (.inl (by simp [isUpload]))

/-- The Tx2 that a relay write comes to. -/
def RelayComesTo (w : World) (args : RelayStore) (data : Bytes) (prepared : WritePreamble)
    (plan : RelayPlan) (relayUrl : String) (registration : Registration) (step : Tx2Step) :
    Prop :=
  ∃ delivered certificate,
    ((plan.delivery args relayUrl).deliver w prepared.committee prepared.encoded data
      registration).result = .ok delivered ∧
    delivered.outcome = .delivered certificate ∧
    step = ⟨prepared.committee, relayCertifyTerms args prepared registration, certificate⟩

/-- An upload that was not delivered names the stage it failed in. -/
private theorem afterUpload_failedStage {committee : WalrusCommittee} {encoded : EncodedBlob}
    {upload : RelayUploadResult} {delivered : RelayDeliveryResult}
    (h : RelayDelivery.afterUpload w committee encoded registration upload = .ok delivered)
    (hnot : ∀ certificate, delivered.outcome ≠ .delivered certificate) :
    delivered.failedStage ≠ none := by
  unfold RelayDelivery.afterUpload at h
  dsimp only at h
  split at h
  · cases h
    simp
  · cases h
    simp
  · cases h
    simp
  · split at h
    · cases h
      exact absurd rfl (hnot _)
    · split at h
      · cases h
        simp
      · cases h

private theorem nonce_tipPaid (plan : RelayPlan) : plan.nonce.isSome = plan.tipPaid := by
  simp [RelayPlan.nonce, RelayPlan.tipPaid]

section Receipts

variable {reading : Tx2Reading} {run : Program RelayBlobReceipt} {upload : RelayUploadResult}

private theorem undelivered_coherent {delivered : RelayDeliveryResult}
    (hfailed : delivered.failedStage ≠ none) (hupload : Entered .upload run)
    (hcertify : ¬ Entered (.certify reading) run) :
    RelayCoherent reading (undeliveredRelayReceipt
      (registeredRelayReceipt prepared.encoded plan relayUrl registration upload) delivered)
      run where
  failedStage := iff_of_false Bool.false_ne_true hfailed
  certifyTxDigest := rfl
  outcome := by
    refine iff_of_false Bool.false_ne_true ?_
    unfold undeliveredRelayReceipt
    dsimp only
    split <;> simp
  registerTxDigest := rfl
  nonce := nonce_tipPaid plan
  encode := rfl
  tipConfig := rfl
  registerTipTx := rfl
  relayUpload := iff_of_true rfl hupload
  certifyTx := iff_of_false Bool.false_ne_true hcertify

private theorem certified_coherent {certification : CertificationOutcome}
    (hupload : Entered .upload run) (hcertify : Entered (.certify reading) run) :
    RelayCoherent reading (certifiedRelayReceipt
      (registeredRelayReceipt prepared.encoded plan relayUrl registration upload) certification)
      run where
  failedStage := iff_of_true rfl rfl
  certifyTxDigest := rfl
  outcome := iff_of_true rfl rfl
  registerTxDigest := rfl
  nonce := nonce_tipPaid plan
  encode := rfl
  tipConfig := rfl
  registerTipTx := rfl
  relayUpload := iff_of_true rfl hupload
  certifyTx := iff_of_true rfl hcertify

/-- The receipt has a duration of Tx2, whatever failed. -/
private theorem uncertified_coherent {error : PyExn} (hupload : Entered .upload run) :
    RelayCoherent reading (uncertifiedRelayReceipt
      (registeredRelayReceipt prepared.encoded plan relayUrl registration upload) error) run ↔
      Entered (.certify reading) run := by
  constructor
  · intro hc
    exact hc.certifyTx.mp rfl
  · intro hcertify
    exact {
      failedStage := iff_of_false Bool.false_ne_true (by simp [uncertifiedRelayReceipt])
      certifyTxDigest := rfl
      outcome := iff_of_false Bool.false_ne_true (by simp [uncertifiedRelayReceipt])
      registerTxDigest := rfl
      nonce := nonce_tipPaid plan
      encode := rfl
      tipConfig := rfl
      registerTipTx := rfl
      relayUpload := iff_of_true rfl hupload
      certifyTx := iff_of_true rfl hcertify }

private theorem pending_coherent {digest objectId stage : String}
    (hnot : ∀ stage, ¬ Entered stage run) :
    RelayCoherent reading
      (pendingRelayReceipt prepared.encoded plan relayUrl digest objectId stage) run where
  failedStage := iff_of_false Bool.false_ne_true (by simp [pendingRelayReceipt])
  certifyTxDigest := rfl
  outcome := iff_of_false Bool.false_ne_true (by simp [pendingRelayReceipt])
  registerTxDigest := rfl
  nonce := nonce_tipPaid plan
  encode := rfl
  tipConfig := rfl
  registerTipTx := rfl
  relayUpload := iff_of_false Bool.false_ne_true (hnot _)
  certifyTx := iff_of_false Bool.false_ne_true (hnot _)

end Receipts

private theorem relayAndCertify_coherent (hmax : 1 ≤ args.maxUploadAttempts)
    {receipt : RelayBlobReceipt}
    (h : (relayAndCertify w args data prepared plan relayUrl registration).result = .ok receipt)
    (reading : Tx2Reading) :
    RelayCoherent reading receipt
        (relayAndCertify w args data prepared plan relayUrl registration) ↔
      ∀ step, RelayComesTo w args data prepared plan relayUrl registration step →
        step.Reaches w reading := by
  have hentered : ∀ stage, Entered stage ((plan.delivery args relayUrl).deliver w
      prepared.committee prepared.encoded data registration) ↔ stage = .upload :=
    entered_deliver hmax
  obtain ⟨delivered, hdelivered, h⟩ := result_bind_eq_ok.mp h
  obtain ⟨upload, -, hafter⟩ := result_bind_eq_ok.mp hdelivered
  have hrun : ∀ stage, Entered stage
      (relayAndCertify w args data prepared plan relayUrl registration) ↔ _ := fun stage =>
    emits_bind_of_ok hdelivered
  have hupload : Entered .upload
      (relayAndCertify w args data prepared plan relayUrl registration) :=
    (hrun .upload).mpr (.inl ((hentered .upload).mpr rfl))
  have hcertify := (hrun (.certify reading)).trans
    (or_iff_right ((hentered (.certify reading)).not.mpr nofun))
  dsimp only at h hcertify
  split at h
  · rename_i certificate houtcome
    rw [houtcome] at hcertify
    have hstep : ∀ step, RelayComesTo w args data prepared plan relayUrl registration step ↔
        ⟨prepared.committee, relayCertifyTerms args prepared registration, certificate⟩ =
          step := by
      intro step
      constructor
      · rintro ⟨delivered', certificate', hdelivered', houtcome', rfl⟩
        cases hdelivered.symm.trans hdelivered'
        cases houtcome.symm.trans houtcome'
        rfl
      · rintro rfl
        exact ⟨delivered, certificate, hdelivered, houtcome, rfl⟩
    have haccounts : SubmitAccounts w
        ⟨prepared.committee, relayCertifyTerms args prepared registration, certificate⟩
        (submitCertification w prepared.committee (relayCertifyTerms args prepared registration)
          certificate (PyExn.relayUpload .relayCertifyTransactionError)) :=
      submitCertification_accounts fun _ _ _ => rfl
    simp only [hstep, forall_eq']
    -- what follows the submission shows nothing
    have hsubmit : Entered (.certify reading)
        (relayAndCertify w args data prepared plan relayUrl registration) ↔
        Tx2Step.Reaches w ⟨prepared.committee, relayCertifyTerms args prepared registration,
          certificate⟩ reading := by
      refine hcertify.trans ((emits_attempt_bind ?_).trans (haccounts.certify reading))
      rintro (e | certification)
      · dsimp only
        split <;> simp
      · simp
    obtain ⟨submitted, hsubmitted, h⟩ := result_bind_eq_ok.mp h
    cases hsubmitted
    split at h
    · rename_i certification hresult
      cases h
      have hreaches := (haccounts.returns certification hresult).2 reading
      exact iff_of_true (certified_coherent hupload (hsubmit.mpr hreaches)) hreaches
    · split at h
      · cases h
        exact (uncertified_coherent hupload).trans hsubmit
      · cases h
  · rename_i hnot
    have hfailed := afterUpload_failedStage hafter hnot
    cases h
    refine iff_of_true (undelivered_coherent hfailed hupload ?_) ?_
    · rw [hcertify]
      split
      · rename_i certificate houtcome
        exact absurd houtcome (hnot certificate)
      · exact emits_pure.mp
    · rintro step ⟨delivered', certificate, hdelivered', houtcome, -⟩
      cases hdelivered.symm.trans hdelivered'
      exact absurd houtcome (hnot certificate)

private theorem registerAndRelay_coherent (hmax : 1 ≤ args.maxUploadAttempts)
    {receipt : RelayBlobReceipt}
    (h : (registerAndRelay w args data prepared plan relayUrl).result = .ok receipt)
    (reading : Tx2Reading) :
    RelayCoherent reading receipt (registerAndRelay w args data prepared plan relayUrl) ↔
      ∀ registration, (plan.strategy.register w
          (registrationTerms w prepared args.epochs args.deletable)).result = .ok registration →
        ∀ step, RelayComesTo w args data prepared plan relayUrl registration step →
          step.Reaches w reading := by
  have hregister : ∀ stage, ¬ Entered stage (plan.strategy.register w
      (registrationTerms w prepared args.epochs args.deletable)).attempt :=
    not_entered_register
  obtain ⟨registered, hregistered, h⟩ := result_bind_eq_ok.mp h
  have hrun : ∀ stage, Entered stage (registerAndRelay w args data prepared plan relayUrl) ↔ _ :=
    fun stage => (emits_bind_of_ok hregistered).trans (or_iff_right (hregister stage))
  rw [result_attempt, Except.ok.injEq] at hregistered
  cases registered with
  | error e =>
    dsimp only at h hrun
    refine iff_of_true ?_ ?_
    · split at h
      · cases h
        exact pending_coherent fun stage hentered => emits_pure.mp ((hrun stage).mp hentered)
      · cases h
    · intro registration hok
      exact nomatch hregistered.symm.trans hok
  | ok registration =>
    rw [RelayCoherent.congr hrun, relayAndCertify_coherent hmax h]
    constructor
    · intro hreaches registration' hok
      cases hregistered.symm.trans hok
      exact hreaches
    · exact fun hreaches => hreaches registration hregistered

end Relay

/-- The Tx2 that a run of `store_blob_relay` comes to. -/
def RelaySubmits (w : World) (args : RelayStore) (data : Bytes) (step : Tx2Step) : Prop :=
  ∃ relayUrl prepared plan registration, relayPreflight w args = .ok relayUrl ∧
    prepareWrite w data relayUploadError = .ok prepared ∧
    planRelay w args data prepared.committee relayUrl (pyOr args.sender w.activeAddress) [] =
      .ok plan ∧
    (plan.strategy.register w
      (registrationTerms w prepared args.epochs args.deletable)).result = .ok registration ∧
    RelayComesTo w args data prepared plan relayUrl registration step

private theorem storeBlobRelay_coherent {args : RelayStore} {data : Bytes}
    {receipt : RelayBlobReceipt} (h : (storeBlobRelay w args data).result = .ok receipt)
    (reading : Tx2Reading) :
    RelayCoherent reading receipt (storeBlobRelay w args data) ↔
      ∀ step, RelaySubmits w args data step → step.Reaches w reading := by
  obtain ⟨relayUrl, hurl, h⟩ := result_bind_eq_ok.mp h
  obtain ⟨prepared, hprepared, h⟩ := result_bind_eq_ok.mp h
  obtain ⟨plan, hplan, h⟩ := result_bind_eq_ok.mp h
  rw [result_lift] at hurl hprepared hplan
  have hmax : 1 ≤ args.maxUploadAttempts := by
    obtain ⟨_, -, hrest⟩ := bind_eq_ok.mp hurl
    obtain ⟨_, hattempts, -⟩ := bind_eq_ok.mp hrest
    have := raiseIf_eq_ok.mp hattempts
    omega
  have hrun : storeBlobRelay w args data =
      registerAndRelay w args data prepared plan relayUrl := by
    unfold storeBlobRelay storeRelay
    rw [hurl, lift_ok_bind, hprepared, lift_ok_bind, hplan, lift_ok_bind]
  rw [hrun, registerAndRelay_coherent hmax h]
  constructor
  · rintro hreaches step ⟨relayUrl', prepared', plan', registration, hurl', hprepared', hplan',
      hregistered, hstep⟩
    cases hurl.symm.trans hurl'
    cases hprepared.symm.trans hprepared'
    cases hplan.symm.trans hplan'
    exact hreaches registration hregistered step hstep
  · intro hreaches registration hregistered step hstep
    exact hreaches step ⟨relayUrl, prepared, plan, registration, hurl, hprepared, hplan,
      hregistered, hstep⟩

/-! ## The native write -/

/-- The reads of the chain raise no `NativeUploadError` of their own. -/
structure ReadErrors (w : World) : Prop where
  epoch : ∀ k e, w.epoch k = .error e → e.isNativeUploadError = false
  committee : ∀ k e, w.committee k = .error e → e.isNativeUploadError = false

/-- What is shown while the committee settles. -/
def isSettling : Event → Bool
  | .readEpoch | .readCommittee | .collecting .. => true
  | _ => false

theorem Stage.shows_of_isSettling {stage : Stage} (hne : stage ≠ .confirmations) {event : Event}
    (h : isSettling event = true) : stage.shows event = false := by
  unfold isSettling at h
  split at h
  · rcases stage with _ | _ | (_ | _) <;> rfl
  · rcases stage with _ | _ | (_ | _) <;> rfl
  · rcases stage with _ | _ | (_ | _) <;> first | rfl | exact absurd rfl hne
  · cases h

/-- The rest of a native write: it shows no stage but the confirmations, and
its own errors have no duration. -/
private abbrev OnlySettles {α : Type} (w : World) (x : Program α) : Prop :=
  Meets w.Possible (fun event => isSettling event = true)
    (fun e => e.isNativeUploadError = true → e.duration = none) (fun _ => True) x

section Native

variable {args : NativeStore} {prepared : WritePreamble} {registration : Registration}

/-- A delivery ends with the slivers or with the confirmations. -/
private theorem deliver_cases {maxRequests : Int} {committee : WalrusCommittee}
    {encoded : EncodedBlob} (delivered : NativeDeliveryResult) :
    (NativeDelivery.deliver w maxRequests committee encoded registration).result =
        .ok delivered →
      ((NativeDelivery.deliver w maxRequests committee encoded registration).log =
          [.uploading ⟨committee, encoded, 5, 10⟩] ∧
        delivered.confirmationsDuration = none ∧
        (∀ certificate, delivered.outcome ≠ .delivered certificate) ∧
        ∃ e, w.slivers = .error e ∧ delivered.error = some e) ∨
      ((NativeDelivery.deliver w maxRequests committee encoded registration).log =
          [.uploading ⟨committee, encoded, 5, 10⟩,
            .collecting 0 (NativeUpload.confirmationQuery w 0 committee encoded.blobId
              registration)] ∧
        delivered.confirmationsDuration = some ⟨⟩ ∧
        ∀ e, delivered.error = some e → w.confirmations 0 = .error e) := by
  have hupload : NativeUpload.uploadSlivers w committee encoded =
      ⟨w.slivers, [.uploading ⟨committee, encoded, 5, 10⟩]⟩ := rfl
  unfold NativeDelivery.deliver
  rw [hupload, attempt_mk, mk_ok_bind]
  cases hslivers : w.slivers with
  | error e =>
    dsimp only
    split
    · intro h
      cases h
      exact .inl ⟨rfl, rfl, by simp, e, rfl, rfl⟩
    · intro h
      cases h
  | ok report =>
    dsimp only
    rcases NativeUpload.collectConfirmations_cases w 0 maxRequests committee
      encoded.blobId registration with ⟨e, hforeign, hcollect⟩ | hcollect
    · rw [hcollect, raise, attempt_mk, mk_ok_bind]
      dsimp only
      rw [hforeign]
      intro h
      cases h
    · rw [hcollect, attempt_mk, mk_ok_bind]
      cases w.confirmations 0 with
      | error e =>
        dsimp only
        split
        · intro h
          cases h
          exact .inr ⟨rfl, rfl, fun _ he => by cases he; rfl⟩
        · intro h
          cases h
      | ok certificate =>
        intro h
        cases h
        exact .inr ⟨rfl, rfl, nofun⟩

/-- What delivery says of the stages it entered. -/
private structure DeliverAccounts (delivered : NativeDeliveryResult)
    (x : Program NativeDeliveryResult) : Prop where
  upload : Entered .upload x
  confirmations : delivered.confirmationsDuration.isSome = true ↔ Entered .confirmations x
  complete : ∀ certificate, delivered.outcome = .delivered certificate →
    delivered.confirmationsDuration.isSome = true
  certify : ∀ reading, ¬ Entered (.certify reading) x
  untimed : delivered.error.bind PyExn.duration = none

private theorem deliver_accounts {maxRequests : Int} {committee : WalrusCommittee}
    {encoded : EncodedBlob} {delivered : NativeDeliveryResult}
    (hpossible : ∀ event ∈ (NativeDelivery.deliver w maxRequests committee encoded
      registration).log, w.Possible event)
    (h : (NativeDelivery.deliver w maxRequests committee encoded registration).result =
      .ok delivered) :
    DeliverAccounts delivered
      (NativeDelivery.deliver w maxRequests committee encoded registration) := by
  rcases deliver_cases delivered h with ⟨hlog, hconfirmations, hnot, e, hslivers, herror⟩ |
    ⟨hlog, hconfirmations, herror⟩
  · have huploads : SliverFanout.Uploads ⟨committee, encoded, 5, 10⟩ w.slivers :=
      hpossible (.uploading ⟨committee, encoded, 5, 10⟩) (by simp [hlog])
    rw [hslivers] at huploads
    exact {
      upload := ⟨_, by rw [hlog]; exact List.mem_cons_self, rfl⟩
      confirmations := by simp [Entered, Emits, hlog, hconfirmations, Stage.shows, isCollection]
      complete := fun certificate houtcome => absurd houtcome (hnot certificate)
      certify := by
        rintro (_ | _) <;>
          simp [Entered, Emits, hlog, Stage.shows, isTx2Attempt, isTx2Submission]
      untimed := by
        rw [herror]
        exact huploads.untimed e rfl }
  · have hcollects : Confirm.Collects (NativeUpload.confirmationQuery w 0 committee
        encoded.blobId registration) (w.confirmations 0) :=
      hpossible (.collecting 0 _) (by simp [hlog])
    exact {
      upload := ⟨_, by rw [hlog]; exact List.mem_cons_self, rfl⟩
      confirmations := by simp [Entered, Emits, hlog, hconfirmations, Stage.shows, isCollection]
      complete := fun _ _ => by rw [hconfirmations]; rfl
      certify := by
        rintro (_ | _) <;>
          simp [Entered, Emits, hlog, Stage.shows, isTx2Attempt, isTx2Submission]
      untimed := by
        cases hsome : delivered.error with
        | none => rfl
        | some e => exact hcollects.untimed e (herror e hsome) }

private theorem collectConfirmations_onlySettles (k : Nat) (maxRequests : Int)
    (committee : WalrusCommittee) (blobId : Bytes) :
    OnlySettles w (NativeUpload.collectConfirmations w k maxRequests committee blobId
      registration) := by
  rcases NativeUpload.collectConfirmations_cases w k maxRequests committee blobId
    registration with ⟨e, hforeign, hcollect⟩ | hcollect
  · rw [hcollect]
    exact meets_raise fun hnative => by simp [hforeign] at hnative
  · rw [hcollect]
    intro hpossible
    have hcollects : Confirm.Collects (NativeUpload.confirmationQuery w k committee blobId
        registration) (w.confirmations k) := hpossible (.collecting k _) List.mem_cons_self
    refine ⟨by simp [isSettling], ?_⟩
    cases hresult : w.confirmations k with
    | ok certificate => trivial
    | error e =>
      rw [hresult] at hcollects
      exact fun _ => hcollects.untimed e rfl

private theorem settleCommittee_onlySettles (hreads : ReadErrors w) {blobId : Bytes}
    {refetches attempts : Nat} {committee : WalrusCommittee} {certificate : Certificate} :
    OnlySettles w (NativeUpload.settleCommittee w blobId registration refetches attempts committee
      certificate) := by
  have hread : ∀ {α : Type} {r : Except PyExn α}, (∀ e, r = .error e →
      e.isNativeUploadError = false) → OnlySettles w (lift r) := by
    intro α r hr
    apply meets_lift
    cases r with
    | ok a => trivial
    | error e => exact fun hnative => absurd hnative (Bool.eq_false_iff.mp (hr e rfl))
  have hemit : ∀ event, isSettling event = true → OnlySettles w (emit event) := by
    intro event h hall
    exact ⟨fun other hmem => List.mem_singleton.mp hmem ▸ h, trivial⟩
  induction refetches generalizing attempts committee certificate with
  | zero =>
    refine (hemit .readEpoch rfl).bind fun _ _ => ?_
    refine (hread (hreads.epoch attempts)).bind fun epoch _ => ?_
    split
    · exact meets_pure trivial
    · exact meets_raise fun _ => rfl
  | succ refetches ih =>
    refine (hemit .readEpoch rfl).bind fun _ _ => ?_
    refine (hread (hreads.epoch attempts)).bind fun epoch _ => ?_
    split
    · exact meets_pure trivial
    · refine (hemit .readCommittee rfl).bind fun _ _ => ?_
      refine (hread (hreads.committee (attempts + 1))).bind fun committee _ => ?_
      refine (collectConfirmations_onlySettles _ _ _ _).bind fun certificate _ => ?_
      exact ih

/-- The Tx2 that a native write comes to. -/
def NativeComesTo (w : World) (args : NativeStore) (prepared : WritePreamble)
    (registration : Registration) (step : Tx2Step) : Prop :=
  ∃ delivered certificate,
    (NativeDelivery.deliver w args.maxConfirmationRequests prepared.committee prepared.encoded
      registration).result = .ok delivered ∧
    delivered.outcome = .delivered certificate ∧
    (NativeUpload.settleCommittee w prepared.encoded.blobId registration 1 0 prepared.committee
      certificate).result = .ok (step.committee, step.certificate) ∧
    step.terms = nativeCertifyTerms args prepared registration

section Receipts

variable {reading : Tx2Reading} {run : Program NativeBlobReceipt}

private theorem failure_coherent {error : Option PyExn} {confirmations : Option Elapsed}
    (hupload : Entered .upload run)
    (hconfirmations : confirmations.isSome = true ↔ Entered .confirmations run) :
    NativeCoherent reading (failureReceipt prepared.encoded registration error (some ⟨⟩)
      confirmations) run ↔
      ((error.bind PyExn.duration).isSome = true ↔ Entered (.certify reading) run) := by
  constructor
  · intro hc
    exact hc.certifyTx2
  · intro hcertify
    exact {
      failedStage := iff_of_false Bool.false_ne_true (by simp [failureReceipt])
      certifyTxDigest := rfl
      registerTxDigest := rfl
      encode := rfl
      registerTx1 := rfl
      sliverUpload := iff_of_true rfl hupload
      confirmations := hconfirmations
      certifyTx2 := hcertify }

private theorem pendingNative_coherent {digest objectId stage : String}
    (hnot : ∀ stage, ¬ Entered stage run) :
    NativeCoherent reading (pendingNativeReceipt prepared.encoded digest objectId stage) run where
  failedStage := iff_of_false Bool.false_ne_true (by simp [pendingNativeReceipt])
  certifyTxDigest := rfl
  registerTxDigest := rfl
  encode := rfl
  registerTx1 := rfl
  sliverUpload := iff_of_false Bool.false_ne_true (hnot _)
  confirmations := iff_of_false Bool.false_ne_true (hnot _)
  certifyTx2 := iff_of_false Bool.false_ne_true (hnot _)

/-- A receipt of `certify`, once Tx2 was reached. -/
private theorem certifiedNative_coherent {receipt : NativeBlobReceipt}
    (hcertified : receipt.certified = true) (hfailed : receipt.failedStage = none)
    (hcertify : receipt.certifyTxDigest.isSome = true)
    (hregister : receipt.registerTxDigest.isSome = true)
    {confirmations : Option Elapsed}
    (htimings : receipt.timings = ⟨some ⟨⟩, some ⟨⟩, some ⟨⟩, confirmations, some ⟨⟩, some ⟨⟩⟩)
    (hupload : Entered .upload run)
    (hconfirmations : confirmations.isSome = true ↔ Entered .confirmations run)
    (hentered : Entered (.certify reading) run) : NativeCoherent reading receipt run where
  failedStage := iff_of_true hcertified hfailed
  certifyTxDigest := by rw [hcertified, hcertify]
  registerTxDigest := hregister
  encode := by rw [htimings]; rfl
  registerTx1 := by rw [htimings]; rfl
  sliverUpload := iff_of_true (by rw [htimings]; rfl) hupload
  confirmations := by rw [htimings]; exact hconfirmations
  certifyTx2 := iff_of_true (by rw [htimings]; rfl) hentered

end Receipts

/-- What a certified receipt holds besides the timings it was given. -/
private structure Certified (timings : StageTimings) (receipt : NativeBlobReceipt) : Prop where
  certified : receipt.certified = true
  failedStage : receipt.failedStage = none
  certifyTxDigest : receipt.certifyTxDigest.isSome = true
  registerTxDigest : receipt.registerTxDigest.isSome = true
  timings : receipt.timings = { timings with certifyTx2 := some ⟨⟩ }

/-- `certify` ends while the committee settles, or as the submission does. -/
private theorem certify_cases (hreads : ReadErrors w) (committee : WalrusCommittee)
    (terms : CertifyTerms) (certificate : Certificate) (blobId : Bytes) (timings : StageTimings)
    (hpossible : ∀ event ∈ (NativeUpload.certify w committee blobId terms certificate
      NativeUpload.defaultCertifyAttempts timings).log, w.Possible event) :
    let settled := NativeUpload.settleCommittee w blobId terms.registration 1 0 committee
      certificate
    let certified := NativeUpload.certify w committee blobId terms certificate
      NativeUpload.defaultCertifyAttempts timings
    (∃ e, settled.result = .error e ∧ certified.result = .error e ∧
      (e.isNativeUploadError = true → e.duration = none) ∧
      ∀ reading, ¬ Entered (.certify reading) certified) ∨
    (∃ committee certificate, settled.result = .ok (committee, certificate) ∧
      let step : Tx2Step := ⟨committee, terms, certificate⟩
      (∀ reading, Entered (.certify reading) certified ↔ step.Reaches w reading) ∧
      ((∃ e, certified.result = .error e ∧ (e.isNativeUploadError = true →
          (e.duration.isSome = true ↔ step.Verifies w))) ∨
        ∃ receipt, certified.result = .ok receipt ∧ Certified timings receipt ∧
          ∀ reading, step.Reaches w reading)) := by
  intro settled certified
  have hsettles : OnlySettles w settled := settleCommittee_onlySettles hreads
  have hevents := hsettles fun event hmem => hpossible event (mem_log_bind.mpr (.inl hmem))
  have hquiet : ∀ reading, ¬ Entered (.certify reading) settled := by
    rintro reading ⟨event, hmem, hshows⟩
    have hne : Stage.certify reading ≠ .confirmations := nofun
    have hkind := Stage.shows_of_isSettling hne (hevents.1 event hmem)
    exact Bool.eq_false_iff.mp hkind hshows
  cases hsettled : settled.result with
  | error e =>
    refine .inl ⟨e, rfl, ?_, ?_, fun reading hentered => ?_⟩
    · show Logged.result (settled >>= _) = _
      rw [result_bind, hsettled, error_bind]
    · have hend := hevents.2
      rw [hsettled] at hend
      exact hend
    · exact hquiet reading ((emits_bind_of_error hsettled).mp hentered)
  | ok settlement =>
    obtain ⟨committee', certificate'⟩ := settlement
    have haccounts : SubmitAccounts w ⟨committee', terms, certificate'⟩
        (submitCertification w committee' terms certificate'
          (PyExn.nativeUpload .certifyTransactionError)) :=
      submitCertification_accounts fun _ _ _ => rfl
    refine .inr ⟨committee', certificate', rfl, fun reading => ?_, ?_⟩
    · refine (emits_bind_of_ok hsettled).trans ((or_iff_right (hquiet reading)).trans ?_)
      exact emits_bind_pure.trans (haccounts.certify reading)
    · cases hsubmitted : (submitCertification w committee' terms certificate'
          (PyExn.nativeUpload .certifyTransactionError)).result with
      | error e =>
        refine .inl ⟨e, ?_, fun hnative => haccounts.raises e hsubmitted ?_⟩
        · show Logged.result (settled >>= _) = _
          rw [result_bind, hsettled, ok_bind, result_bind, hsubmitted, error_bind]
        · cases e <;> first | rfl | cases hnative
      | ok outcome =>
        obtain ⟨hcertified, hreaches⟩ := haccounts.returns outcome hsubmitted
        refine .inr ⟨{
          blobId := Redstuff.blobIdToUrlBase64 blobId
          objectId := outcome.result.objectId
          certified := outcome.result.certified
          endEpoch := some terms.registration.endEpoch
          failedStage := none
          timings := { timings with certifyTx2 := some outcome.duration }
          registerTxDigest := some terms.registration.digest
          certifyTxDigest := some outcome.result.digest }, ?_,
          ⟨hcertified, rfl, rfl, rfl, rfl⟩, hreaches⟩
        show Logged.result (settled >>= _) = _
        rw [result_bind, hsettled, ok_bind, result_bind, hsubmitted]
        rfl

section Delivered

variable {delivered : NativeDeliveryResult} {certificate : Certificate}

/-- The timings `certify` is called with. -/
private def timingsSoFar (delivered : NativeDeliveryResult) : StageTimings :=
  ⟨some ⟨⟩, some ⟨⟩, some delivered.sliverUploadDuration, delivered.confirmationsDuration, none,
    none⟩

/-- Once a certificate is delivered, Tx2 is entered by `certify` alone. -/
private theorem entered_certify
    (hdelivered : (NativeDelivery.deliver w args.maxConfirmationRequests prepared.committee
      prepared.encoded registration).result = .ok delivered)
    (houtcome : delivered.outcome = .delivered certificate)
    (hdeliver : DeliverAccounts delivered (NativeDelivery.deliver w args.maxConfirmationRequests
      prepared.committee prepared.encoded registration)) (reading : Tx2Reading) :
    Entered (.certify reading) (deliverAndCertify w args prepared registration) ↔
      Entered (.certify reading) (NativeUpload.certify w prepared.committee
        prepared.encoded.blobId (nativeCertifyTerms args prepared registration) certificate
        NativeUpload.defaultCertifyAttempts (timingsSoFar delivered)) := by
  refine (emits_bind_of_ok hdelivered).trans
    ((or_iff_right (hdeliver.certify reading)).trans ?_)
  dsimp only
  rw [houtcome]
  refine emits_attempt_bind ?_
  rintro (e | receipt)
  · dsimp only
    split <;> simp
  · simp

/-- Once the committee is settled, there is one Tx2 to come to. -/
private theorem nativeComesTo_iff
    (hdelivered : (NativeDelivery.deliver w args.maxConfirmationRequests prepared.committee
      prepared.encoded registration).result = .ok delivered)
    (houtcome : delivered.outcome = .delivered certificate)
    {committee : WalrusCommittee} {certificate' : Certificate}
    (hsettled : (NativeUpload.settleCommittee w prepared.encoded.blobId registration 1 0
      prepared.committee certificate).result = .ok (committee, certificate')) (step : Tx2Step) :
    NativeComesTo w args prepared registration step ↔
      ⟨committee, nativeCertifyTerms args prepared registration, certificate'⟩ = step := by
  constructor
  · obtain ⟨committee'', terms, certificate''⟩ := step
    rintro ⟨delivered', _, hdelivered', houtcome', hsettled', rfl⟩
    cases hdelivered.symm.trans hdelivered'
    cases houtcome.symm.trans houtcome'
    cases hsettled.symm.trans hsettled'
    rfl
  · rintro rfl
    exact ⟨delivered, certificate, hdelivered, houtcome, hsettled, rfl⟩

/-- Without a certificate there is no Tx2, and the receipt has no duration of it. -/
private theorem undeliveredNative_coherent
    (hdelivered : (NativeDelivery.deliver w args.maxConfirmationRequests prepared.committee
      prepared.encoded registration).result = .ok delivered)
    (hnot : ∀ certificate, delivered.outcome ≠ .delivered certificate)
    (hdeliver : DeliverAccounts delivered (NativeDelivery.deliver w args.maxConfirmationRequests
      prepared.committee prepared.encoded registration)) (reading : Tx2Reading) :
    NativeCoherent reading (failureReceipt prepared.encoded registration delivered.error
      (some delivered.sliverUploadDuration) delivered.confirmationsDuration)
      (deliverAndCertify w args prepared registration) ∧
    ∀ step, ¬ NativeComesTo w args prepared registration step := by
  have hrest : ∀ stage, Entered stage (deliverAndCertify w args prepared registration) ↔
      Entered stage (NativeDelivery.deliver w args.maxConfirmationRequests prepared.committee
        prepared.encoded registration) := by
    intro stage
    refine (emits_bind_of_ok hdelivered).trans (or_iff_left ?_)
    dsimp only
    split
    · rename_i certificate houtcome
      exact absurd houtcome (hnot certificate)
    · exact emits_pure.mp
  constructor
  · refine (failure_coherent ((hrest .upload).mpr hdeliver.upload) ?_).mpr ?_
    · rw [hrest]
      exact hdeliver.confirmations
    · rw [hdeliver.untimed, hrest]
      exact iff_of_false Bool.false_ne_true (hdeliver.certify reading)
  · rintro step ⟨delivered', certificate, hdelivered', houtcome, -⟩
    cases hdelivered.symm.trans hdelivered'
    exact hnot certificate houtcome

end Delivered

private theorem deliverAndCertify_coherent (hreads : ReadErrors w)
    (hpossible : ∀ event ∈ (deliverAndCertify w args prepared registration).log,
      w.Possible event)
    {receipt : NativeBlobReceipt}
    (h : (deliverAndCertify w args prepared registration).result = .ok receipt)
    (reading : Tx2Reading) :
    NativeCoherent reading receipt (deliverAndCertify w args prepared registration) ↔
      ∀ step, NativeComesTo w args prepared registration step → step.Verifies w →
        step.Reaches w reading := by
  obtain ⟨delivered, hdelivered, h⟩ := result_bind_eq_ok.mp h
  have hdeliver := deliver_accounts
    (fun event hmem => hpossible event (mem_log_bind.mpr (.inl hmem))) hdelivered
  have hrun : ∀ stage, Entered stage (deliverAndCertify w args prepared registration) ↔ _ :=
    fun stage => emits_bind_of_ok hdelivered
  have hupload : Entered .upload (deliverAndCertify w args prepared registration) :=
    (hrun .upload).mpr (.inl hdeliver.upload)
  dsimp only at h
  split at h
  · rename_i certificate houtcome
    have hcomplete := hdeliver.complete certificate houtcome
    have hconfirmations : Entered .confirmations
        (deliverAndCertify w args prepared registration) :=
      (hrun .confirmations).mpr (.inl (hdeliver.confirmations.mp hcomplete))
    have hcertify := entered_certify hdelivered houtcome hdeliver
    obtain ⟨submitted, hsubmitted, h⟩ := result_bind_eq_ok.mp h
    cases hsubmitted
    rcases certify_cases hreads prepared.committee (nativeCertifyTerms args prepared registration)
      certificate prepared.encoded.blobId (timingsSoFar delivered) fun event hmem =>
        hpossible event (mem_log_bind.mpr (.inr ⟨delivered, hdelivered, by
          dsimp only
          rw [houtcome]
          exact mem_log_bind.mpr (.inl hmem)⟩)) with
      ⟨e, hsettled, hcertified, hnone, hquiet⟩ | ⟨committee, certificate', hsettled, hreaches, hend⟩
    · -- the committee did not settle, so there is no Tx2
      rw [timingsSoFar] at hcertified
      rw [hcertified] at h
      dsimp only at h
      split at h
      · rename_i hnative
        cases h
        refine iff_of_true ((failure_coherent hupload
          (iff_of_true hcomplete hconfirmations)).mpr ?_) ?_
        · rw [Option.bind_some, hnone hnative, hcertify]
          exact iff_of_false Bool.false_ne_true (hquiet reading)
        · rintro step ⟨delivered', certificate', hdelivered', houtcome', hsettled', -⟩
          cases hdelivered.symm.trans hdelivered'
          cases houtcome.symm.trans houtcome'
          exact nomatch hsettled.symm.trans hsettled'
      · cases h
    · simp only [nativeComesTo_iff hdelivered houtcome hsettled, forall_eq']
      rcases hend with ⟨e, hcertified, hduration⟩ | ⟨certifiedReceipt, hcertified, hholds, hall⟩
      · rw [timingsSoFar] at hcertified
        rw [hcertified] at h
        dsimp only at h
        split at h
        · rename_i hnative
          cases h
          rw [failure_coherent hupload (iff_of_true hcomplete hconfirmations), Option.bind_some,
            hduration hnative, hcertify, hreaches]
          exact ⟨Iff.mp, fun hreach => ⟨hreach, Tx2Step.Reaches.verifies⟩⟩
        · cases h
      · rw [timingsSoFar] at hcertified
        rw [hcertified] at h
        cases h
        refine iff_of_true (certifiedNative_coherent hholds.certified hholds.failedStage
          hholds.certifyTxDigest hholds.registerTxDigest ?_ hupload
          (iff_of_true hcomplete hconfirmations) ?_) fun _ => hall reading
        · rw [hholds.timings, timingsSoFar]
        · exact (hcertify reading).mpr ((hreaches reading).mpr (hall reading))
  · rename_i hnot
    cases h
    obtain ⟨hcoherent, hnone⟩ := undeliveredNative_coherent hdelivered hnot hdeliver reading
    exact iff_of_true hcoherent fun step hstep => absurd hstep (hnone step)

end Native

/-- The Tx2 that a run of `store_blob_native` comes to. -/
def NativeSubmits (w : World) (args : NativeStore) (step : Tx2Step) : Prop :=
  ∃ prepared registration, prepareWrite w args.data nativeUploadError = .ok prepared ∧
    ((BlobRegistration.plainBlobRegistration args.paymentCoin args.sender args.sponsor
      []).register w (registrationTerms w prepared args.epochs args.deletable)).result =
        .ok registration ∧
    NativeComesTo w args prepared registration step

private theorem storeBlobNative_coherent (hreads : ReadErrors w) {args : NativeStore}
    {receipt : NativeBlobReceipt}
    (hpossible : ∀ event ∈ (storeBlobNative w args).log, w.Possible event)
    (h : (storeBlobNative w args).result = .ok receipt) (reading : Tx2Reading) :
    NativeCoherent reading receipt (storeBlobNative w args) ↔
      ∀ step, NativeSubmits w args step → step.Verifies w → step.Reaches w reading := by
  obtain ⟨prepared, hprepared, h⟩ := result_bind_eq_ok.mp h
  obtain ⟨registered, hregistered, h⟩ := result_bind_eq_ok.mp h
  rw [result_lift] at hprepared
  have hlog : ∀ stage, Entered stage (storeBlobNative w args) ↔ _ := fun stage =>
    (emits_bind_of_ok hprepared).trans ((or_iff_right emits_lift.mp).trans
      ((emits_bind_of_ok hregistered).trans (or_iff_right (not_entered_register stage))))
  rw [result_attempt, Except.ok.injEq] at hregistered
  cases registered with
  | error e =>
    dsimp only at h hlog
    refine iff_of_true ?_ ?_
    · split at h
      · cases h
        exact pendingNative_coherent fun stage hentered =>
          emits_pure.mp ((hlog stage).mp hentered)
      · cases h
    · rintro step ⟨prepared', registration, hprepared', hok, -⟩
      cases hprepared.symm.trans hprepared'
      exact nomatch hregistered.symm.trans hok
  | ok registration =>
    have hpossible' : ∀ event ∈ (deliverAndCertify w args prepared registration).log,
        w.Possible event := fun event hmem =>
      hpossible event (mem_log_bind.mpr (.inr ⟨prepared, hprepared, mem_log_bind.mpr
        (.inr ⟨.ok registration, by rw [result_attempt, hregistered], hmem⟩)⟩))
    rw [NativeCoherent.congr hlog, deliverAndCertify_coherent hreads hpossible' h]
    constructor
    · rintro hreaches step ⟨prepared', registration', hprepared', hok, hstep⟩
      cases hprepared.symm.trans hprepared'
      cases hregistered.symm.trans hok
      exact hreaches step hstep
    · intro hreaches step hstep
      exact hreaches step ⟨prepared, registration, hprepared, hregistered, hstep⟩

/-! ## Receipts and their runs -/

/-- **A receipt is coherent with its run** on the native path; on the relay
path exactly if no certificate is rejected before Tx2. Where Tx2 must have
been handed to the chain, it must also have been signed. -/
theorem storeBlob_receiptCoherent (w : World) (hreads : ReadErrors w) :
    (∀ (args : NativeStore) receipt, let run := storeBlobNative w args
      (∀ event ∈ run.log, w.Possible event) → run.result = .ok receipt →
      NativeCoherent .attempted receipt run ∧
      (NativeCoherent .submitted receipt run ↔
        ∀ step, NativeSubmits w args step → step.Verifies w → step.Signs w)) ∧
    (∀ (args : RelayStore) (data : Bytes) receipt, let run := storeBlobRelay w args data
      run.result = .ok receipt →
      (RelayCoherent .attempted receipt run ↔
        ∀ step, RelaySubmits w args data step → step.Verifies w) ∧
      (RelayCoherent .submitted receipt run ↔
        ∀ step, RelaySubmits w args data step → step.Verifies w ∧ step.Signs w)) := by
  constructor
  · intro args receipt run hpossible h
    refine ⟨(storeBlobNative_coherent hreads hpossible h .attempted).mpr fun _ _ hv => hv, ?_⟩
    refine (storeBlobNative_coherent hreads hpossible h .submitted).trans ?_
    constructor
    · exact fun hreaches step hstep hverifies => (hreaches step hstep hverifies).2
    · exact fun hsigns step hstep hverifies => ⟨hverifies, hsigns step hstep hverifies⟩
  · intro args data receipt run h
    exact ⟨storeBlobRelay_coherent h .attempted, storeBlobRelay_coherent h .submitted⟩

/-- The receipt of a small native write has a duration for every stage. -/
theorem storeBlob_receiptCoherent_small :
    ∃ receipt, (storeBlobNative World.small .small).result = .ok receipt ∧
      NativeCoherent .attempted receipt (storeBlobNative World.small .small) :=
  ⟨_, rfl, ((storeBlob_receiptCoherent World.small ⟨nofun, nofun⟩).1 .small _
    SmallWrite.possible rfl).1⟩

/-! ### A certificate that does not verify -/

/-- No aggregate signature verifies. -/
private def rejectingWorld : World :=
  { World.small with
    bls := { World.small.bls with aggregateVerify := fun _ _ _ => .ok false } }

/-- Tx2 is refused before it is composed, and the receipt has its duration. -/
theorem storeBlobRelay_timesRejected :
    ∃ receipt, (storeBlobRelay rejectingWorld .small [1, 2, 3]).result = .ok receipt ∧
      receipt.timings.certifyTx = some ⟨⟩ ∧
      (∀ event ∈ (storeBlobRelay rejectingWorld .small [1, 2, 3]).log,
        isTx2Attempt event = false ∧ isTx2Submission event = false) ∧
      ∀ reading, ¬ RelayCoherent reading receipt
        (storeBlobRelay rejectingWorld .small [1, 2, 3]) := by
  obtain ⟨receipt, hreceipt, htimed⟩ : ∃ receipt,
      (storeBlobRelay rejectingWorld .small [1, 2, 3]).result = .ok receipt ∧
        receipt.timings.certifyTx = some ⟨⟩ := ⟨_, rfl, rfl⟩
  have hnone : ∀ event ∈ (storeBlobRelay rejectingWorld .small [1, 2, 3]).log,
      isTx2Attempt event = false ∧ isTx2Submission event = false := by
    obtain ⟨s, t, c, h⟩ : ∃ s t c, (storeBlobRelay rejectingWorld .small [1, 2, 3]).log =
        [.opened .tx1 s none, .signed .tx1 t, .submitted .tx1 t, .posted c] :=
      ⟨_, _, _, rfl⟩
    rw [h]
    simp [isTx2Attempt, isTx2Submission]
  refine ⟨receipt, hreceipt, htimed, hnone, ?_⟩
  intro reading hcoherent
  obtain ⟨event, hmem, hshows⟩ := hcoherent.certifyTx.mp (by rw [htimed]; rfl)
  obtain ⟨hattempt, hsubmission⟩ := hnone event hmem
  cases reading with
  | attempted => exact Bool.eq_false_iff.mp hattempt hshows
  | submitted => exact Bool.eq_false_iff.mp hsubmission hshows

end Pytusk.Pipelines
