import Pytusk.NativeUpload.ConfirmRuns
import Pytusk.NativeUpload.FanoutAccounting
import Pytusk.Pipelines.OwnerSigns
import Pytusk.RelayUpload.UploadRuns

/-!
# After Tx1 has been paid for

A write whose Tx1 succeeded is to return a receipt of it, whatever fails
later. `Documented` is what the outside promises about its failures. Under it
the errors each stage can end in are those its caller turns into a receipt,
up to five: a created object that is not found, a read-back value that cannot
be converted, a bound on the confirmation requests that lets none be made, an
epoch or a committee that cannot be read before Tx2, and an answer of the relay
that cannot be decoded for its depth.
-/

namespace Pytusk.Pipelines

open Pytusk.Lib Pytusk.Lib.Logged Pytusk.Ops Pytusk.Certification

variable {w : World} {assumed : Event → Prop}

/-! ## What the outside promises -/

/-- How a transaction is documented to fail. -/
def IsTransactionError (e : PyExn) : Prop := (e.isRuntimeError || e.isValueError) = true

/-- The failures the outside is documented to have after Tx1. -/
structure Documented (w : World) : Prop where
  aggregates : AggregatesVerified w.bls
  slivers : ∀ data n encoding, w.redstuffEncode data n = .ok encoding →
    encoding.slivers ≠ []
  distinct : ∀ k c, w.committee k = .ok c → c.Distinct
  partitions : ∀ k c, w.committee k = .ok c → c.PartitionsShards
  committeeErrors : ∀ k e, w.committee k = .error e → e.isNativeUploadError = false
  epochErrors : ∀ k e, w.epoch k = .error e → e.isNativeUploadError = false
  finality : ∀ attempt, ∃ result, w.finality attempt = .ok result
  blobView : (∃ text, w.blobView = .ok (.failed text)) ∨
    ∃ view, w.blobView = .ok (.ok (some view))
  objectIds : ∀ executed effects, Succeeded w .tx1 executed effects →
    ∀ owner objectId, Effects.findCreatedObjectId effects owner = .ok objectId →
      ∃ raw, ObjectIds.objectIdToRawBytes objectId = .ok raw
  opening : OnlyRaises IsTransactionError (w.transaction .tx2).opening
  builder : ∀ calls, OnlyRaises IsTransactionError ((w.transaction .tx2).builder calls)
  signing : OnlyRaises IsTransactionError (w.transaction .tx2).signing
  execution : OnlyRaises IsTransactionError (w.transaction .tx2).execution
  executed : (w.transaction .tx2).execution ≠ .ok (.ok none)

/-! ## Tx2 -/

/-- `x` ends as stated, whatever it shows. -/
private abbrev Ends {α : Type} (assumed : Event → Prop) (raises : PyExn → Prop)
    (returns : α → Prop) (x : Program α) : Prop :=
  Meets assumed (fun _ => True) raises returns x

private theorem ends_emit {raises : PyExn → Prop} (event : Event) :
    Ends assumed raises (fun _ => assumed event) (emit event) :=
  meets_emit fun _ => trivial

private theorem ends_lift {α : Type} {raises : PyExn → Prop} {r : Except PyExn α}
    (h : OnlyRaises raises r) : Ends assumed raises (fun a => r = .ok a) (lift r) := by
  apply meets_lift
  cases hr : r with
  | error e => exact h e hr
  | ok a => exact rfl

private theorem addCertify_raises (hdoc : Documented w) (txn : Txn)
    (packageId systemObject objectId : String) (certificate : Certificate)
    (recipient : Option String) :
    OnlyRaises IsTransactionError (addCertify (w.transaction .tx2).builder txn packageId
      systemObject objectId certificate recipient) := by
  have hadd : ∀ (txn : Txn) (call : BuilderCall),
      OnlyRaises IsTransactionError (txn.add (w.transaction .tx2).builder call) := by
    intro txn call
    exact (hdoc.builder _).bind fun _ _ => onlyRaises_ok _
  refine (hadd _ _).bind fun added _ => ?_
  cases recipient with
  | none => exact onlyRaises_ok _
  | some recipient => exact (hadd _ _).bind fun _ _ => onlyRaises_ok _

private theorem executeCertify_ends (hdoc : Documented w) {terms : CertifyTerms}
    {certificate : Certificate} :
    Ends assumed IsTransactionError (fun r => r.objectId = terms.registration.objectId)
      (executeCertify w terms certificate) := by
  have hopen : ∀ sender sponsor, Ends assumed IsTransactionError (fun _ => True)
      (openTransaction w .tx2 sender sponsor) := by
    intro sender sponsor
    refine (ends_emit _).bind fun _ _ => ?_
    refine (ends_lift hdoc.opening).bind fun _ _ => ?_
    exact meets_pure trivial
  have hsign : ∀ txn label, Ends assumed IsTransactionError (fun _ => True)
      (signAndExecute w .tx2 txn label) := by
    intro txn label
    refine (ends_emit _).bind fun _ _ => ?_
    refine (ends_lift hdoc.signing).bind fun _ _ => ?_
    refine (ends_emit _).bind fun _ _ => ?_
    refine (ends_lift ?_).weaken (fun _ h => h) fun _ _ => trivial
    refine hdoc.execution.bind fun result hresult => ?_
    cases result with
    | failed text => exact onlyRaises_error rfl
    | ok data =>
      cases data with
      | none => exact absurd hresult hdoc.executed
      | some executed =>
        show OnlyRaises _ (Effects.requireSuccess executed label >>= _)
        refine OnlyRaises.bind ?_ fun _ _ => onlyRaises_ok _
        unfold Effects.requireSuccess
        dsimp only
        split
        · exact onlyRaises_error rfl
        · split
          · exact onlyRaises_error rfl
          · split
            · exact onlyRaises_ok _
            · exact onlyRaises_error rfl
  refine (hopen _ _).bind fun txn _ => ?_
  refine (ends_lift (addCertify_raises hdoc _ _ _ _ _ _)).bind fun composed _ => ?_
  refine (hsign _ _).bind fun _ _ => ?_
  exact meets_pure rfl

/-- A sound certificate is submitted, or its submission fails as its caller
asked for. -/
private theorem submitCertification_ends (hdoc : Documented w) {committee : WalrusCommittee}
    {terms : CertifyTerms} {certificate : Certificate} {errorType : ErrorType}
    (hsound : Sound committee certificate) :
    Ends assumed (fun e => ∃ message stage duration, e = errorType message stage duration)
      (fun outcome => outcome.result.objectId = terms.registration.objectId)
      (submitCertification w committee terms certificate errorType) := by
  obtain ⟨signers, hsigners, -⟩ := hsound.weight
  unfold submitCertification
  rw [hsigners]
  show Ends assumed _ _ (if _ then _ else _)
  split
  · refine (ends_emit _).bind fun _ _ => ?_
    refine (executeCertify_ends hdoc).attempt.bind fun result hresult => ?_
    cases result with
    | ok r => exact meets_pure hresult
    | error e =>
      have htx : (e.isRuntimeError || e.isValueError) = true := hresult
      apply meets_raise
      rw [if_pos htx]
      exact ⟨_, _, _, rfl⟩
  · exact meets_raise ⟨_, _, _, rfl⟩

/-! ## Tx2 of a native write -/

/-- `x` fails with a `NativeUploadError`, which its caller catches, where
`handled` holds, and with another error where it does not. -/
private abbrev Splits {α : Type} (w : World) (handled : Prop) (returns : α → Prop)
    (x : Program α) : Prop :=
  Ends w.Possible (fun e => e.isNativeUploadError = true ↔ handled) (fun a => handled ∧ returns a) x

private theorem splits_error {α : Type} {handled : Prop} {returns : α → Prop} {e : PyExn}
    (h : handled) (he : e.isNativeUploadError = true) :
    Splits w handled returns (raise e) :=
  meets_raise (iff_of_true he h)

private theorem splits_unhandled {α : Type} {handled : Prop} {returns : α → Prop} {e : PyExn}
    (h : ¬ handled) (he : e.isNativeUploadError = false) :
    Splits w handled returns (raise e) :=
  meets_raise (iff_of_false (by simp [he]) h)

/-- The registration names an object that has an id. -/
private def HasRawId (registration : Registration) : Prop :=
  ∃ raw, ObjectIds.objectIdToRawBytes registration.objectId = .ok raw

private theorem exists_poll (w : World) (k : Nat) (committee : WalrusCommittee)
    (blobId : Bytes) {registration : Registration} (hid : HasRawId registration) :
    ∃ p, (NativeUpload.confirmationQuery w k committee blobId registration).poll = .ok p := by
  obtain ⟨raw, hraw⟩ := hid
  obtain ⟨message, hmessage⟩ : ∃ message, (NativeUpload.confirmationQuery w k committee
      blobId registration).expectedMessage = .ok message := by
    unfold Confirm.Query.expectedMessage
    split
    · exact ⟨_, by rw [show ObjectIds.objectIdToRawBytes (NativeUpload.confirmationQuery w k
        committee blobId registration).registration.objectId = .ok raw from hraw]; rfl⟩
    · exact ⟨_, rfl⟩
  unfold Confirm.Query.poll
  rw [hmessage]
  exact ⟨_, rfl⟩

/-- A collection is asked for with a bound that lets requests be made. -/
private theorem collectConfirmations_ends (hdoc : Documented w) (k : Nat) (blobId : Bytes)
    {maxRequests : Int} {committee : WalrusCommittee} {registration : Registration}
    (hd : committee.Distinct) (hid : HasRawId registration) (hmax : 1 ≤ maxRequests) :
    Ends w.Possible (fun e => e.isNativeUploadError = true ∧ w.confirmations k = .error e)
      (fun certificate => w.confirmations k = .ok certificate ∧ Sound committee certificate)
      (NativeUpload.collectConfirmations w k maxRequests committee blobId registration) := by
  obtain ⟨p, hp⟩ := exists_poll w k committee blobId hid
  unfold NativeUpload.collectConfirmations
  dsimp only
  rw [hp, raiseIf, if_neg (by omega), raiseIf, if_neg (by omega), lift_ok_bind, lift_ok_bind,
    lift_ok_bind]
  refine (ends_emit _).bind fun _ hcollects => ?_
  apply meets_lift
  have hcollects' : Confirm.Collects (NativeUpload.confirmationQuery w k committee blobId
    registration) (w.confirmations k) := hcollects
  cases hresult : w.confirmations k with
  | error e =>
    rw [hresult] at hcollects'
    exact ⟨hcollects'.raises hdoc.aggregates hd rfl ⟨p, hp⟩, rfl⟩
  | ok certificate =>
    rw [hresult] at hcollects'
    exact ⟨rfl, (hcollects'.sound hd rfl).1⟩

/-- With another bound a collection does not get to its requests, or they do not
get to the nodes. -/
private theorem exists_collectConfirmations_eq_raise (w : World) (k : Nat) (blobId : Bytes)
    {maxRequests : Int} {committee : WalrusCommittee} {registration : Registration}
    (hid : HasRawId registration) (hmax : ¬ 1 ≤ maxRequests) (hmembers : committee.members ≠ []) :
    ∃ e : PyExn, e.isNativeUploadError = false ∧
      NativeUpload.collectConfirmations w k maxRequests committee blobId registration =
        raise e := by
  obtain ⟨p, hp⟩ := exists_poll w k committee blobId hid
  unfold NativeUpload.collectConfirmations
  dsimp only
  rw [hp, lift_ok_bind]
  by_cases hnegative : maxRequests < 0
  · rw [raiseIf, if_pos hnegative, lift_error_bind]
    exact ⟨_, rfl, rfl⟩
  · rw [raiseIf, if_neg hnegative, lift_ok_bind, raiseIf,
      if_pos ⟨show maxRequests = 0 by omega, hmembers⟩, lift_error_bind]
    exact ⟨_, rfl, rfl⟩

/-- The reads of the loop before Tx2 are answered: the epoch, and, where it is
not the committee's, the new committee and, once that has confirmed, the epoch
again. -/
def EpochReadsAnswered (w : World) (committee : WalrusCommittee) : Prop :=
  ∃ epoch, w.epoch 0 = .ok epoch ∧ (epoch ≠ committee.epoch →
    ∃ next, w.committee 1 = .ok next ∧ ∀ certificate, w.confirmations 1 = .ok certificate →
      ∃ epoch, w.epoch 1 = .ok epoch)

private theorem settleCommittee_ends (hdoc : Documented w) {blobId : Bytes}
    {registration : Registration} {committee : WalrusCommittee} {certificate : Certificate}
    (hid : HasRawId registration) (hsound : Sound committee certificate) :
    Splits w (EpochReadsAnswered w committee) (fun settled => Sound settled.1 settled.2)
      (NativeUpload.settleCommittee w blobId registration 1 0 committee certificate) := by
  unfold NativeUpload.settleCommittee
  refine (ends_emit _).bind fun _ _ => ?_
  cases hepoch : w.epoch 0 with
  | error e =>
    refine splits_unhandled ?_ (hdoc.epochErrors 0 e hepoch)
    rintro ⟨epoch, h, -⟩
    exact nomatch hepoch.symm.trans h
  | ok epoch =>
    rw [lift_ok_bind]
    by_cases hsame : epoch = committee.epoch
    · rw [if_pos hsame]
      exact meets_pure ⟨⟨epoch, hepoch, fun h => absurd hsame h⟩, hsound⟩
    · rw [if_neg hsame]
      have hanswered : EpochReadsAnswered w committee ↔ ∃ next, w.committee 1 = .ok next ∧
          ∀ certificate, w.confirmations 1 = .ok certificate →
            ∃ epoch, w.epoch 1 = .ok epoch := by
        constructor
        · rintro ⟨epoch', hepoch', h⟩
          cases hepoch.symm.trans hepoch'
          exact h hsame
        · exact fun h => ⟨epoch, hepoch, fun _ => h⟩
      refine (ends_emit _).bind fun _ _ => ?_
      cases hcommittee : w.committee (0 + 1) with
      | error e =>
        refine splits_unhandled ?_ (hdoc.committeeErrors 1 e hcommittee)
        rw [hanswered]
        rintro ⟨next, h, -⟩
        exact nomatch hcommittee.symm.trans h
      | ok next =>
        rw [lift_ok_bind]
        have hmax : 1 ≤ NativeUpload.defaultMaxConfirmationRequests := by decide
        have hcollect := collectConfirmations_ends hdoc (0 + 1) blobId
          (hdoc.distinct _ _ hcommittee) hid hmax
        refine (hcollect.weaken ?_ fun _ h => h).bind fun certificate' hcertificate => ?_
        · rintro e ⟨hnative, hfailed⟩
          refine iff_of_true hnative (hanswered.mpr ⟨next, hcommittee, ?_⟩)
          exact fun certificate h => nomatch hfailed.symm.trans h
        · unfold NativeUpload.settleCommittee
          refine (ends_emit _).bind fun _ _ => ?_
          cases hagain : w.epoch (0 + 1) with
          | error e =>
            refine splits_unhandled ?_ (hdoc.epochErrors 1 e hagain)
            rw [hanswered]
            rintro ⟨-, -, h⟩
            obtain ⟨epoch', h⟩ := h certificate' hcertificate.1
            exact nomatch hagain.symm.trans h
          | ok epoch' =>
            have hreads : EpochReadsAnswered w committee :=
              hanswered.mpr ⟨next, hcommittee, fun _ _ => ⟨epoch', hagain⟩⟩
            rw [lift_ok_bind]
            split
            · exact meets_pure ⟨hreads, hcertificate.2⟩
            · exact splits_error hreads rfl

/-- The receipt accounts for what was paid. -/
def NativeBlobReceipt.Accounts (receipt : NativeBlobReceipt) (digest objectId : String) :
    Prop :=
  receipt.registerTxDigest = some digest ∧ receipt.objectId = objectId

private theorem certify_ends (hdoc : Documented w) {committee : WalrusCommittee}
    {blobId : Bytes} {terms : CertifyTerms} {certificate : Certificate}
    {timings : StageTimings} (hid : HasRawId terms.registration)
    (hsound : Sound committee certificate) :
    Splits w (EpochReadsAnswered w committee)
      (fun receipt => NativeBlobReceipt.Accounts receipt terms.registration.digest
        terms.registration.objectId)
      (NativeUpload.certify w committee blobId terms certificate
        NativeUpload.defaultCertifyAttempts timings) := by
  refine (settleCommittee_ends hdoc hid hsound).bind fun settled hsettled => ?_
  obtain ⟨hreads, hsettledSound⟩ := hsettled
  refine ((submitCertification_ends hdoc hsettledSound).weaken ?_ fun _ h => h).bind
    fun outcome houtcome => ?_
  · rintro e ⟨message, stage, duration, rfl⟩
    exact iff_of_true rfl hreads
  · exact meets_pure ⟨hreads, rfl, houtcome⟩

/-! ## From delivery on -/

/-- Nothing that fails after the registration was read back is left uncaught. -/
def DeliveryHandled (w : World) (maxConfirmationRequests : Int)
    (committee : WalrusCommittee) : Prop :=
  ∀ report, w.slivers = .ok report → 1 ≤ maxConfirmationRequests ∧
    ∀ certificate, w.confirmations 0 = .ok certificate → EpochReadsAnswered w committee

private theorem deliver_ends (hdoc : Documented w) {maxConfirmationRequests : Int}
    {committee : WalrusCommittee} {encoded : EncodedBlob} {registration : Registration}
    (hd : committee.Distinct) (hp : committee.PartitionsShards) (hs : encoded.slivers ≠ [])
    (hid : HasRawId registration) :
    Ends w.Possible (fun _ => ¬ DeliveryHandled w maxConfirmationRequests committee)
      (fun delivered => match delivered.outcome with
        | .delivered certificate =>
            (DeliveryHandled w maxConfirmationRequests committee ↔
              EpochReadsAnswered w committee) ∧ Sound committee certificate
        | _ => DeliveryHandled w maxConfirmationRequests committee)
      (NativeDelivery.deliver w maxConfirmationRequests committee encoded registration) := by
  unfold NativeDelivery.deliver
  have hupload : Ends w.Possible (fun e => e.isNativeUploadError = true ∧ w.slivers = .error e)
      (fun report => w.slivers = .ok report ∧ committee.members ≠ [])
      (NativeUpload.uploadSlivers w committee encoded) := by
    refine (ends_emit _).bind fun _ huploads => ?_
    apply meets_lift
    have huploads' : SliverFanout.Uploads _ w.slivers := huploads
    cases hslivers : w.slivers with
    | ok report =>
      rw [hslivers] at huploads'
      exact ⟨rfl, huploads'.members_ne_nil⟩
    | error e =>
      rw [hslivers] at huploads'
      exact ⟨huploads'.raises hp hs, rfl⟩
  refine hupload.attempt.bind fun uploaded huploaded => ?_
  cases uploaded with
  | error e =>
    obtain ⟨hnative, hfailed⟩ := huploaded
    show Ends w.Possible _ _ (if _ then _ else _)
    rw [if_pos hnative]
    exact meets_pure fun report h => nomatch hfailed.symm.trans h
  | ok report =>
    obtain ⟨hreport, hmembers⟩ := huploaded
    by_cases hmax : 1 ≤ maxConfirmationRequests
    · refine (collectConfirmations_ends hdoc 0 encoded.blobId hd hid hmax).attempt.bind
        fun collected hcollected => ?_
      cases collected with
      | error e =>
        obtain ⟨hnative, hfailed⟩ := hcollected
        show Ends w.Possible _ _ (if _ then _ else _)
        rw [if_pos hnative]
        refine meets_pure fun _ _ => ⟨hmax, ?_⟩
        exact fun certificate h => nomatch hfailed.symm.trans h
      | ok certificate =>
        obtain ⟨hcertificate, hsound⟩ := hcollected
        refine meets_pure ⟨⟨fun h => ?_, fun h => ?_⟩, hsound⟩
        · exact (h report hreport).2 certificate hcertificate
        · exact fun _ _ => ⟨hmax, fun _ _ => h⟩
    · obtain ⟨e, hforeign, hraise⟩ := exists_collectConfirmations_eq_raise w 0 encoded.blobId
        hid hmax hmembers
      rw [hraise]
      show Ends w.Possible _ _ (if _ then _ else _)
      rw [if_neg (by simp [hforeign])]
      exact meets_raise fun h => hmax (h report hreport).1

/-- **From delivery on**, a native write either returns a receipt of the
registration, or fails where nothing handles the failure. -/
private theorem deliverAndCertify_ends (hdoc : Documented w) {args : NativeStore}
    {prepared : WritePreamble} {registration : Registration}
    (hd : prepared.committee.Distinct) (hp : prepared.committee.PartitionsShards)
    (hs : prepared.encoded.slivers ≠ []) (hid : HasRawId registration) :
    Ends w.Possible
      (fun _ => ¬ DeliveryHandled w args.maxConfirmationRequests prepared.committee)
      (fun receipt => DeliveryHandled w args.maxConfirmationRequests prepared.committee ∧
        NativeBlobReceipt.Accounts receipt registration.digest registration.objectId)
      (deliverAndCertify w args prepared registration) := by
  refine (deliver_ends hdoc hd hp hs hid).bind fun delivered hdelivered => ?_
  cases houtcome : delivered.outcome with
  | delivered certificate =>
    rw [houtcome] at hdelivered
    obtain ⟨hhandled, hsound⟩ := hdelivered
    have hterms : HasRawId (nativeCertifyTerms args prepared registration).registration := hid
    refine (certify_ends hdoc hterms hsound).attempt.bind fun result hresult => ?_
    cases result with
    | ok receipt => exact meets_pure ⟨hhandled.mpr hresult.1, hresult.2⟩
    | error e =>
      have hsplit : e.isNativeUploadError = true ↔ EpochReadsAnswered w prepared.committee :=
        hresult
      show Ends w.Possible _ _ (if _ then _ else _)
      split
      · rename_i hnative
        exact meets_pure ⟨hhandled.mpr (hsplit.mp hnative), rfl, rfl⟩
      · rename_i hother
        exact meets_raise fun h => hother (hsplit.mpr (hhandled.mp h))
  | resumable =>
    rw [houtcome] at hdelivered
    exact meets_pure ⟨hdelivered, rfl, rfl⟩
  | refused =>
    rw [houtcome] at hdelivered
    exact meets_pure ⟨hdelivered, rfl, rfl⟩

/-- The same of a relay write's receipt. -/
def RelayBlobReceipt.Accounts (receipt : RelayBlobReceipt) (digest objectId : String) : Prop :=
  receipt.registerTxDigest = some digest ∧ receipt.objectId = some objectId

/-- Once it is read back, a parse error is all the relay's answer can cause. -/
private theorem certificateOf_raises {committee : WalrusCommittee} {encoded : EncodedBlob}
    {registration : Registration} {payload : Json} (hid : HasRawId registration) :
    OnlyRaises RelayUpload.IsParseError
      (RelayDelivery.certificateOf w committee encoded registration payload) := by
  obtain ⟨raw, hraw⟩ := hid
  refine OnlyRaises.bind ?_ fun _ _ => RelayUpload.parseRelayCertificate_raises _ _ _ _ _ _
  unfold RelayDelivery.objectIdBytes
  split
  · rw [hraw]
    exact onlyRaises_ok _
  · exact onlyRaises_ok _

private theorem uploadToRelay_ends {relayUrl : String} {command : WriteRelayBlob}
    {maxAttempts : Int} (hmax : 1 ≤ maxAttempts) :
    Ends assumed (fun _ => ¬ RelayUpload.Answered w maxAttempts)
      (fun _ => RelayUpload.Answered w maxAttempts)
      (RelayUpload.uploadToRelay w relayUrl command maxAttempts) := by
  have hreturns := RelayUpload.uploadToRelay_returns_iff w relayUrl command hmax
  intro _
  refine ⟨fun _ _ => trivial, ?_⟩
  cases hresult : (RelayUpload.uploadToRelay w relayUrl command maxAttempts).result with
  | error e =>
    exact fun hanswered => nomatch hresult.symm.trans (hreturns.mpr hanswered).choose_spec
  | ok upload => exact hreturns.mp ⟨upload, hresult⟩

private theorem afterUpload_ends {committee : WalrusCommittee} {encoded : EncodedBlob}
    {registration : Registration} {upload : RelayUploadResult} (hid : HasRawId registration) :
    EndsIn (fun _ => False)
      (fun delivered => ∀ certificate, delivered.outcome = .delivered certificate →
        Sound committee certificate)
      (RelayDelivery.afterUpload w committee encoded registration upload) := by
  unfold RelayDelivery.afterUpload
  dsimp only
  split
  · intro certificate h
    cases h
  · intro certificate h
    cases h
  · intro certificate h
    cases h
  · split
    · rename_i certificate hcertificate
      rintro _ ⟨⟩
      obtain ⟨objectId, -, hparsed⟩ := bind_eq_ok.mp hcertificate
      exact (RelayUpload.parseRelayCertificate_sound hparsed).1
    · rename_i e he
      obtain ⟨message, rfl⟩ := certificateOf_raises hid e he
      intro certificate h
      cases h

/-- **From delivery on**, a relay write returns a receipt of the registration,
unless a POST raises. -/
private theorem relayAndCertify_ends (hdoc : Documented w) {args : RelayStore} {data : Bytes}
    {prepared : WritePreamble} {plan : RelayPlan} {relayUrl : String}
    {registration : Registration} (hid : HasRawId registration)
    (hmax : 1 ≤ args.maxUploadAttempts) :
    Ends assumed (fun _ => ¬ RelayUpload.Answered w args.maxUploadAttempts)
      (fun receipt => RelayUpload.Answered w args.maxUploadAttempts ∧
        RelayBlobReceipt.Accounts receipt registration.digest registration.objectId)
      (relayAndCertify w args data prepared plan relayUrl registration) := by
  have hdeliver : Ends assumed (fun _ => ¬ RelayUpload.Answered w args.maxUploadAttempts)
      (fun delivered => RelayUpload.Answered w args.maxUploadAttempts ∧
        ∀ certificate, delivered.outcome = .delivered certificate →
          Sound prepared.committee certificate)
      (RelayDelivery.deliver w ⟨relayUrl, plan.nonce, plan.tipPaid, args.maxUploadAttempts⟩
        prepared.committee prepared.encoded data registration) :=
    (uploadToRelay_ends hmax).bind fun upload hanswered =>
      (meets_lift (afterUpload_ends hid)).weaken (fun _ h => h.elim) fun _ h => ⟨hanswered, h⟩
  refine hdeliver.bind fun delivered hdelivered => ?_
  obtain ⟨hanswered, hsound⟩ := hdelivered
  dsimp only
  split
  · rename_i certificate houtcome
    refine (submitCertification_ends hdoc (hsound certificate houtcome)).attempt.bind
      fun result hresult => ?_
    cases result with
    | ok certification =>
      have hobject : certification.result.objectId = registration.objectId := hresult
      exact meets_pure ⟨hanswered, rfl, congrArg some hobject⟩
    | error e =>
      obtain ⟨message, stage, duration, rfl⟩ := hresult
      exact meets_pure ⟨hanswered, rfl, rfl⟩
  · exact meets_pure ⟨hanswered, rfl, rfl⟩

/-! ## Tx1 -/

private theorem not_mem_openTransaction {tx tx' : TxLabel} {txn : Txn} {sender : String}
    {sponsor : Option String} :
    .submitted tx' txn ∉ (openTransaction w tx sender sponsor).log := by
  simp [openTransaction, mem_log_bind]

private theorem signAndExecute_result {tx : TxLabel} {txn txn' : Txn} {label : String}
    {executed : ExecutedTransaction} {effects : TransactionEffects}
    (hmem : .submitted tx txn' ∈ (signAndExecute w tx txn label).log)
    (hs : Succeeded w tx executed effects) :
    (signAndExecute w tx txn label).result = .ok (executed, effects) := by
  obtain ⟨hexecution, other, hsuccess⟩ := hs
  have hsuccess' : Effects.requireSuccess executed label = .ok effects :=
    Effects.requireSuccess_eq_ok.mpr (Effects.requireSuccess_eq_ok.mp hsuccess)
  unfold signAndExecute at hmem ⊢
  rcases mem_log_bind.mp hmem with h | ⟨_, -, h⟩
  · cases List.mem_singleton.mp h
  · cases hsigning : (w.transaction tx).signing with
    | error e =>
      rw [hsigning, lift_error_bind] at h
      exact absurd h (List.not_mem_nil)
    | ok u =>
      simp only [result_bind, result_emit, result_lift, hexecution, ok_bind,
        World.resultData, hsuccess', pure_eq_ok]

/-- What a submitted Tx1 registered is what its effects read back as. -/
private theorem register_result {strategy : BlobRegistration} {terms : RegistrationTerms}
    {txn : Txn} {executed : ExecutedTransaction} {effects : TransactionEffects}
    (hmem : .submitted .tx1 txn ∈ (strategy.register w terms).log)
    (hs : Succeeded w .tx1 executed effects) :
    (strategy.register w terms).result = readRegistration w terms.encoded
      (strategy.resolvedSender w) executed effects := by
  have hexecute : ∀ (composed : Txn) (owner label : String),
      .submitted .tx1 txn ∈
        (executeRegistrationTxn w composed terms.encoded owner label).log →
      (executeRegistrationTxn w composed terms.encoded owner label).result =
        readRegistration w terms.encoded owner executed effects := by
    intro composed owner label h
    rcases mem_log_bind.mp h with h | ⟨_, -, h⟩
    · show Logged.result (_ >>= _) = _
      rw [result_bind, signAndExecute_result h hs]
      rfl
    · exact absurd h List.not_mem_nil
  cases strategy with
  | plainBlobRegistration paymentCoin sender sponsor attributes =>
    rcases mem_log_bind.mp hmem with h | ⟨coin, hcoin, h⟩
    · exact absurd h List.not_mem_nil
    rcases mem_log_bind.mp h with h | ⟨txn', htxn', h⟩
    · exact absurd h not_mem_openTransaction
    rcases mem_log_bind.mp h with h | ⟨composed, hcomposed, h⟩
    · exact absurd h List.not_mem_nil
    show Logged.result (_ >>= _) = _
    rw [result_bind, hcoin, ok_bind, result_bind, htxn', ok_bind, result_bind, hcomposed,
      ok_bind]
    exact hexecute _ _ _ h
  | tippedBlobRegistration tip coin sender sponsor attributes =>
    rcases mem_log_bind.mp hmem with h | ⟨txn', htxn', h⟩
    · exact absurd h not_mem_openTransaction
    rcases mem_log_bind.mp h with h | ⟨composed, hcomposed, h⟩
    · exact absurd h List.not_mem_nil
    show Logged.result (_ >>= _) = _
    rw [result_bind, htxn', ok_bind, result_bind, hcomposed, ok_bind]
    exact hexecute _ _ _ h

/-- A registration that was read back was submitted. -/
private theorem exists_submitted {strategy : BlobRegistration} {terms : RegistrationTerms}
    {registration : Registration}
    (h : (strategy.register w terms).result = .ok registration) :
    ∃ txn, .submitted .tx1 txn ∈ (strategy.register w terms).log := by
  have hshows : Shows (· ∈ (strategy.register w terms).log) (fun _ => True) _
      (strategy.register w terms) := register_shows trivial fun _ _ => ⟨trivial, trivial⟩
  have hend := (hshows fun _ hmem => hmem).2
  rw [h] at hend
  obtain ⟨txn, -, -, -, hsubmitted, -⟩ := hend
  exact ⟨txn, hsubmitted⟩

/-! ## Reading the registration back -/

/-- The values of the new Blob convert, or fail to with a `ValueError`. -/
def ReadBackHandled (w : World) : Prop :=
  waitForFinality w defaultFinalityMaxAttempts 0 = .ok true →
    ∀ view e, w.blobView = .ok (.ok (some view)) →
      BlobFields.blobDeletableAndEndEpoch w.parseInt view = .error e → e.isValueError = true

/-- `RegistrationPendingError` -/
private def IsPending (e : PyExn) : Prop :=
  ∃ digest objectId detail stage, e = .registrationPendingError digest objectId detail stage

private theorem not_isPending (cls : BuiltinExn) (message : String) :
    ¬ IsPending (.builtin cls message) := by
  rintro ⟨digest, objectId, detail, stage, h⟩
  cases h

private theorem pyInt_raises (parseInt : PyStr → Option Int) (value : Json) :
    OnlyRaises (¬ IsPending ·) (BlobFields.pyInt parseInt value) := by
  unfold BlobFields.pyInt
  split
  · exact onlyRaises_ok _
  · exact onlyRaises_ok _
  · unfold PyFloat.toInt
    split
    · split
      · exact onlyRaises_error (not_isPending _ _)
      · exact onlyRaises_error (not_isPending _ _)
    · exact onlyRaises_ok _
  · split
    · exact onlyRaises_ok _
    · exact onlyRaises_error (not_isPending _ _)
  · exact onlyRaises_error (not_isPending _ _)

private theorem blobFields_raises (parseInt : PyStr → Option Int) (view : ObjectView) :
    OnlyRaises (¬ IsPending ·) (BlobFields.blobDeletableAndEndEpoch parseInt view) := by
  have hfields : OnlyRaises (¬ IsPending ·)
      (BlobFields.convertedFields view "deletable/end_epoch") := by
    unfold BlobFields.convertedFields
    dsimp only
    split
    · split
      · exact onlyRaises_error (not_isPending _ _)
      · exact onlyRaises_ok _
    · exact onlyRaises_error (not_isPending _ _)
  refine hfields.bind fun fields _ => ?_
  dsimp only
  split
  · split
    · exact onlyRaises_error (not_isPending _ _)
    · exact onlyRaises_error (not_isPending _ _)
    · refine (pyInt_raises _ _).bind fun endEpoch _ => ?_
      split
      · exact onlyRaises_error (not_isPending _ _)
      · exact onlyRaises_ok _
  · exact onlyRaises_error (not_isPending _ _)

private theorem exists_waitForFinality (hdoc : Documented w) (polls attempt : Nat) :
    ∃ finalized, waitForFinality w polls attempt = .ok finalized := by
  induction polls generalizing attempt with
  | zero => exact ⟨false, rfl⟩
  | succ polls ih =>
    obtain ⟨result, hresult⟩ := hdoc.finality attempt
    unfold waitForFinality
    rw [hresult, ok_bind]
    split
    · exact ⟨true, rfl⟩
    · exact ih (attempt + 1)

/-- What the read back of a Blob that was fetched comes to. -/
private theorem readBackBlob_of_view {view : ObjectView}
    (hview : w.blobView = .ok (.ok (some view))) (digest objectId : String) :
    (∃ fields, BlobFields.blobDeletableAndEndEpoch w.parseInt view = .ok fields ∧
      readBackBlob w digest objectId = .ok fields) ∨
    ∃ e, BlobFields.blobDeletableAndEndEpoch w.parseInt view = .error e ∧
      readBackBlob w digest objectId = .error (if e.isValueError then
        .registrationPendingError digest objectId e.message "register_readback" else e) := by
  unfold readBackBlob
  rw [hview]
  cases hfields : BlobFields.blobDeletableAndEndEpoch w.parseInt view with
  | ok fields => exact .inl ⟨fields, rfl, by simp [World.resultData, hfields]⟩
  | error e => exact .inr ⟨e, rfl, by simp [World.resultData, hfields]⟩

/-- **Reading the registration back** fails with a pending registration of the
object that was found, unless none was found or its values do not convert. -/
private theorem readRegistration_ends (hdoc : Documented w) {encoded : EncodedBlob}
    {owner : String} {executed : ExecutedTransaction} {effects : TransactionEffects} :
    EndsIn
      (fun e =>
        (∃ objectId detail stage,
          e = .registrationPendingError executed.digest objectId detail stage ∧
          Effects.findCreatedObjectId effects owner = .ok objectId ∧ ReadBackHandled w) ∨
        ¬ IsPending e ∧ ¬ ((∃ objectId, Effects.findCreatedObjectId effects owner =
          .ok objectId) ∧ ReadBackHandled w))
      (fun registration =>
        Effects.findCreatedObjectId effects owner = .ok registration.objectId ∧
        registration.digest = executed.digest ∧ ReadBackHandled w)
      (readRegistration w encoded owner executed effects) := by
  unfold readRegistration newBlobId
  cases hfind : Effects.findCreatedObjectId effects owner with
  | error e =>
    refine .inr ⟨not_isPending _ _, ?_⟩
    rintro ⟨⟨objectId, h⟩, -⟩
    cases h
  | ok objectId =>
    rw [ok_bind]
    obtain ⟨finalized, hfinalized⟩ :=
      exists_waitForFinality hdoc defaultFinalityMaxAttempts 0
    rw [hfinalized, ok_bind]
    cases finalized with
    | false =>
      refine .inl ⟨objectId, _, _, rfl, rfl, ?_⟩
      intro h
      cases hfinalized.symm.trans h
    | true =>
      rcases hdoc.blobView with ⟨text, hview⟩ | ⟨view, hview⟩
      · unfold readBackBlob
        refine hview ▸ .inl ⟨objectId, _, _, rfl, rfl, ?_⟩
        intro _ view e h
        cases hview.symm.trans h
      · rcases readBackBlob_of_view hview executed.digest objectId with
          ⟨fields, hfields, hback⟩ | ⟨e, hfields, hback⟩
        · simp only [hback, ok_bind]
          refine ⟨rfl, rfl, ?_⟩
          intro _ view' e h herror
          cases hview.symm.trans h
          cases hfields.symm.trans herror
        · simp only [hback, error_bind]
          by_cases hvalue : e.isValueError = true
          · rw [if_pos hvalue]
            refine .inl ⟨objectId, _, _, rfl, rfl, ?_⟩
            intro _ view' e' h herror
            cases hview.symm.trans h
            cases hfields.symm.trans herror
            exact hvalue
          · rw [if_neg hvalue]
            refine .inr ⟨blobFields_raises _ _ e hfields, ?_⟩
            rintro ⟨-, h⟩
            exact hvalue (h hfinalized view e hview hfields)

/-! ## The runs -/

/-- What a receipt says of a Tx1 that succeeded. -/
def AccountsFor (executed : ExecutedTransaction) (effects : TransactionEffects)
    (owner : String) (registerTxDigest objectId : Option String) : Prop :=
  registerTxDigest = some executed.digest ∧
    ∀ id, Effects.findCreatedObjectId effects owner = .ok id → objectId = some id

/-- The new Blob is found among the effects, and its values convert. -/
def RegistrationHandled (w : World) (effects : TransactionEffects) (owner : String) : Prop :=
  (∃ objectId, Effects.findCreatedObjectId effects owner = .ok objectId) ∧ ReadBackHandled w

/-- On the relay path, no POST of what was read back raises. -/
def RelayHandled (w : World) (args : RelayStore) (data : Bytes) (executed : ExecutedTransaction)
    (effects : TransactionEffects) : Prop :=
  RegistrationHandled w effects (pyOr args.sender w.activeAddress) ∧
    ∀ prepared registration, prepareWrite w data relayUploadError = .ok prepared →
      readRegistration w prepared.encoded (pyOr args.sender w.activeAddress) executed effects =
        .ok registration →
      RelayUpload.Answered w args.maxUploadAttempts

/-- On the native path, a delivery of what was read back is handled as well. -/
def NativeHandled (w : World) (args : NativeStore) (executed : ExecutedTransaction)
    (effects : TransactionEffects) : Prop :=
  RegistrationHandled w effects (pyOr args.sender w.activeAddress) ∧
    ∀ prepared registration, prepareWrite w args.data nativeUploadError = .ok prepared →
      readRegistration w prepared.encoded (pyOr args.sender w.activeAddress) executed effects =
        .ok registration →
      DeliveryHandled w args.maxConfirmationRequests prepared.committee

private theorem prepareWrite_slivers (hdoc : Documented w) {data : Bytes}
    {errorType : ErrorType} {prepared : WritePreamble}
    (h : prepareWrite w data errorType = .ok prepared) : prepared.encoded.slivers ≠ [] := by
  obtain ⟨context, -, h⟩ := bind_eq_ok.mp h
  obtain ⟨encoded, hencoded, h⟩ := bind_eq_ok.mp h
  cases h
  have hencoded' := wrapStage_eq_ok.mp hencoded
  unfold Redstuff.encodeBlob at hencoded'
  dsimp only at hencoded'
  split at hencoded'
  · cases hencoded'
  · split at hencoded'
    · cases hencoded'
    · split at hencoded'
      · cases hencoded'
      · rename_i encoding hencoding
        cases hencoded'
        exact hdoc.slivers _ _ _ hencoding

/-- What the caller of a registration sees, when Tx1 was submitted. -/
private theorem submitted_register {α : Type} {strategy : BlobRegistration}
    {terms : RegistrationTerms} {txn : Txn}
    {k : Except PyExn Registration → Program α}
    (hmem : .submitted .tx1 txn ∈ ((strategy.register w terms).attempt >>= k).log)
    (herror : ∀ e, (k (.error e)).log = []) :
    ∃ txn, .submitted .tx1 txn ∈ (strategy.register w terms).log := by
  rcases mem_log_bind.mp hmem with h | ⟨result, hresult, h⟩
  · exact ⟨txn, h⟩
  · cases result with
    | error e =>
      rw [herror e] at h
      exact absurd h List.not_mem_nil
    | ok registration => exact exists_submitted (Except.ok.inj hresult)

private theorem storeBlobNative_ends (hdoc : Documented w) {args : NativeStore} {txn : Txn}
    {executed : ExecutedTransaction} {effects : TransactionEffects}
    (hmem : .submitted .tx1 txn ∈ (storeBlobNative w args).log)
    (hs : Succeeded w .tx1 executed effects) :
    Ends w.Possible (fun _ => ¬ NativeHandled w args executed effects)
      (fun receipt => NativeHandled w args executed effects ∧
        AccountsFor executed effects (pyOr args.sender w.activeAddress)
          receipt.registerTxDigest (some receipt.objectId))
      (storeBlobNative w args) := by
  rcases mem_log_bind.mp hmem with h | ⟨prepared, hprepared, hrest⟩
  · exact absurd h List.not_mem_nil
  have hprepared' : prepareWrite w args.data nativeUploadError = .ok prepared := hprepared
  obtain ⟨txn', hsubmitted⟩ := submitted_register hrest fun e => by
    cases e <;> rfl
  have hread := register_result hsubmitted hs
  have hends : EndsIn _ _ (readRegistration w prepared.encoded
    (pyOr args.sender w.activeAddress) executed effects) := readRegistration_ends hdoc
  unfold storeBlobNative
  rw [hprepared', lift_ok_bind]
  have hregister : Ends w.Possible (fun _ => ¬ NativeHandled w args executed effects)
      (fun result => result = readRegistration w prepared.encoded
        (pyOr args.sender w.activeAddress) executed effects)
      (Logged.attempt (BlobRegistration.register w (.plainBlobRegistration args.paymentCoin
        args.sender args.sponsor []) (registrationTerms w prepared args.epochs
          args.deletable))) :=
    fun _ => ⟨fun _ _ => trivial, hread⟩
  refine hregister.bind fun result hresult => ?_
  subst hresult
  cases hregistration : readRegistration w prepared.encoded
      (pyOr args.sender w.activeAddress) executed effects with
  | error e =>
    rw [hregistration] at hends
    rcases hends with ⟨objectId, detail, stage, rfl, hfind, hback⟩ | ⟨hpending, hunhandled⟩
    · refine meets_pure ⟨⟨⟨⟨objectId, hfind⟩, hback⟩, ?_⟩, rfl, ?_⟩
      · intro prepared' registration h hok
        obtain rfl : prepared = prepared' := Except.ok.inj (hprepared'.symm.trans h)
        cases hregistration.symm.trans hok
      · intro id hid
        exact congrArg some (Except.ok.inj (hfind.symm.trans hid))
    · dsimp only
      split
      · exact absurd ⟨_, _, _, _, rfl⟩ hpending
      · exact meets_raise fun h => hunhandled h.1
  | ok registration =>
    rw [hregistration] at hends
    obtain ⟨hfind, hdigest, hback⟩ := hends
    have hcommittee := prepareWrite_committee hprepared'
    refine (deliverAndCertify_ends hdoc (hdoc.distinct _ _ hcommittee)
      (hdoc.partitions _ _ hcommittee) (prepareWrite_slivers hdoc hprepared')
      (hdoc.objectIds _ _ hs _ _ hfind)).weaken ?_ ?_
    · intro e hdelivery hhandled
      exact hdelivery (hhandled.2 prepared registration hprepared' hregistration)
    · rintro receipt ⟨hdelivery, hregisterDigest, hobjectId⟩
      refine ⟨⟨⟨⟨_, hfind⟩, hback⟩, ?_⟩, ?_, ?_⟩
      · intro prepared' registration' h hok
        obtain rfl : prepared = prepared' := Except.ok.inj (hprepared'.symm.trans h)
        exact hdelivery
      · rw [hregisterDigest, hdigest]
      · intro id hid
        rw [hobjectId, Except.ok.inj (hfind.symm.trans hid)]

private theorem registerAndRelay_ends (hdoc : Documented w) {args : RelayStore} {data : Bytes}
    {prepared : WritePreamble} {plan : RelayPlan} {relayUrl : String} {txn : Txn}
    {executed : ExecutedTransaction} {effects : TransactionEffects}
    (hmax : 1 ≤ args.maxUploadAttempts)
    (hprepared : prepareWrite w data relayUploadError = .ok prepared)
    (howner : plan.strategy.resolvedSender w = pyOr args.sender w.activeAddress)
    (hmem : .submitted .tx1 txn ∈ (registerAndRelay w args data prepared plan relayUrl).log)
    (hs : Succeeded w .tx1 executed effects) :
    Ends assumed (fun _ => ¬ RelayHandled w args data executed effects)
      (fun receipt => RelayHandled w args data executed effects ∧
        AccountsFor executed effects (pyOr args.sender w.activeAddress)
          receipt.registerTxDigest receipt.objectId)
      (registerAndRelay w args data prepared plan relayUrl) := by
  obtain ⟨txn', hsubmitted⟩ := submitted_register hmem fun e => by
    cases e <;> rfl
  have hread := register_result hsubmitted hs
  rw [howner] at hread
  have hends : EndsIn _ _ (readRegistration w prepared.encoded
    (pyOr args.sender w.activeAddress) executed effects) := readRegistration_ends hdoc
  unfold registerAndRelay
  have hregister : Ends assumed (fun _ => ¬ RelayHandled w args data executed effects)
      (fun result => result = readRegistration w prepared.encoded
        (pyOr args.sender w.activeAddress) executed effects)
      (Logged.attempt (plan.strategy.register w
        (registrationTerms w prepared args.epochs args.deletable))) :=
    fun _ => ⟨fun _ _ => trivial, hread⟩
  refine hregister.bind fun result hresult => ?_
  subst hresult
  cases hregistration : readRegistration w prepared.encoded
      (pyOr args.sender w.activeAddress) executed effects with
  | error e =>
    rw [hregistration] at hends
    rcases hends with ⟨objectId, detail, stage, rfl, hfind, hback⟩ | ⟨hpending, hunhandled⟩
    · refine meets_pure ⟨⟨⟨⟨objectId, hfind⟩, hback⟩, ?_⟩, rfl, ?_⟩
      · intro prepared' registration h hok
        obtain rfl : prepared = prepared' := Except.ok.inj (hprepared.symm.trans h)
        cases hregistration.symm.trans hok
      · intro id hid
        exact congrArg some (Except.ok.inj (hfind.symm.trans hid))
    · dsimp only
      split
      · exact absurd ⟨_, _, _, _, rfl⟩ hpending
      · exact meets_raise fun h => hunhandled h.1
  | ok registration =>
    rw [hregistration] at hends
    obtain ⟨hfind, hdigest, hback⟩ := hends
    refine (relayAndCertify_ends hdoc (hdoc.objectIds _ _ hs _ _ hfind) hmax).weaken ?_ ?_
    · exact fun _ hraises hhandled =>
        hraises (hhandled.2 prepared registration hprepared hregistration)
    · rintro receipt ⟨hanswered, hregisterDigest, hobjectId⟩
      refine ⟨⟨⟨⟨_, hfind⟩, hback⟩, fun _ _ _ _ => hanswered⟩, ?_, ?_⟩
      · rw [hregisterDigest, hdigest]
      · intro id hid
        rw [hobjectId, Except.ok.inj (hfind.symm.trans hid)]

private theorem storeBlobRelay_ends (hdoc : Documented w) {args : RelayStore} {data : Bytes}
    {txn : Txn} {executed : ExecutedTransaction} {effects : TransactionEffects}
    (hmem : .submitted .tx1 txn ∈ (storeBlobRelay w args data).log)
    (hs : Succeeded w .tx1 executed effects) :
    Ends assumed (fun _ => ¬ RelayHandled w args data executed effects)
      (fun receipt => RelayHandled w args data executed effects ∧
        AccountsFor executed effects (pyOr args.sender w.activeAddress)
          receipt.registerTxDigest receipt.objectId)
      (storeBlobRelay w args data) := by
  rcases mem_log_bind.mp hmem with h | ⟨relayUrl, hurl, hrest⟩
  · exact absurd h List.not_mem_nil
  rcases mem_log_bind.mp hrest with h | ⟨prepared, hprepared, hrest⟩
  · exact absurd h List.not_mem_nil
  rcases mem_log_bind.mp hrest with h | ⟨plan, hplan, hrest⟩
  · exact absurd h List.not_mem_nil
  have hurl' : relayPreflight w args = .ok relayUrl := hurl
  have hprepared' : prepareWrite w data relayUploadError = .ok prepared := hprepared
  have hplan' : planRelay w args data prepared.committee relayUrl
    (pyOr args.sender w.activeAddress) [] = .ok plan := hplan
  have hmax : 1 ≤ args.maxUploadAttempts := by
    obtain ⟨_, -, h⟩ := bind_eq_ok.mp hurl'
    obtain ⟨_, hattempts, -⟩ := bind_eq_ok.mp h
    have := raiseIf_eq_ok.mp hattempts
    omega
  unfold storeBlobRelay storeRelay
  rw [hurl', lift_ok_bind, hprepared', lift_ok_bind, hplan', lift_ok_bind]
  exact registerAndRelay_ends hdoc hmax hprepared' (planRelay_resolvedSender hplan') hrest hs

private theorem returns_iff {α : Type} {handled : Prop} {accounts : α → Prop}
    {result : Except PyExn α}
    (h : EndsIn (fun _ => ¬ handled) (fun receipt => handled ∧ accounts receipt) result) :
    (∃ receipt, result = .ok receipt ∧ accounts receipt) ↔ handled := by
  cases result with
  | error e => exact iff_of_false (fun ⟨_, hok, _⟩ => nomatch hok) h
  | ok receipt => exact iff_of_true ⟨receipt, rfl, h.2⟩ h.1

/-- **After a Tx1 that succeeded**, a write returns a receipt that accounts for
it exactly when none of the unhandled failures happens. -/
theorem storeBlob_postSpend (w : World) (hdoc : Documented w) :
    (∀ (args : NativeStore) txn executed effects,
      let run := storeBlobNative w args
      (∀ event ∈ run.log, w.Possible event) →
      .submitted .tx1 txn ∈ run.log → Succeeded w .tx1 executed effects →
      ((∃ receipt, run.result = .ok receipt ∧
          AccountsFor executed effects (pyOr args.sender w.activeAddress)
            receipt.registerTxDigest (some receipt.objectId)) ↔
        NativeHandled w args executed effects)) ∧
    (∀ (args : RelayStore) (data : Bytes) txn executed effects,
      let run := storeBlobRelay w args data
      .submitted .tx1 txn ∈ run.log → Succeeded w .tx1 executed effects →
      ((∃ receipt, run.result = .ok receipt ∧
          AccountsFor executed effects (pyOr args.sender w.activeAddress)
            receipt.registerTxDigest receipt.objectId) ↔
        RelayHandled w args data executed effects)) := by
  constructor
  · intro args txn executed effects run hpossible hmem hs
    exact returns_iff (storeBlobNative_ends hdoc hmem hs hpossible).2
  · intro args data txn executed effects run hmem hs
    have hends : Ends (fun _ => True) _ _ (storeBlobRelay w args data) :=
      storeBlobRelay_ends hdoc hmem hs
    exact returns_iff (hends fun _ _ => trivial).2

/-! ### An epoch that cannot be read -/

/-- The epoch cannot be read once Tx1 has been paid for. -/
private def unreadableEpoch : World :=
  { World.small with epoch := fun _ => .error (.runtimeError "epoch") }

/-- Tx1 succeeded and its Blob was found, and the write raises. -/
theorem storeBlobNative_unreadableEpoch :
    ∃ txn executed effects, .submitted .tx1 txn ∈ (storeBlobNative unreadableEpoch .small).log ∧
      Succeeded unreadableEpoch .tx1 executed effects ∧
      Effects.findCreatedObjectId effects "0xa" = .ok "0xb" ∧
      (storeBlobNative unreadableEpoch .small).result = .error (.runtimeError "epoch") := by
  obtain ⟨txn, hsubmitted⟩ : ∃ txn, (storeBlobNative unreadableEpoch .small).log[2]? =
      some (.submitted .tx1 txn) := ⟨_, rfl⟩
  exact ⟨txn, _, _, List.mem_of_getElem? hsubmitted, ⟨rfl, "", rfl⟩, rfl, rfl⟩

/-! ### A small write -/

/-- The id of the new Blob. -/
private def blobObject : String :=
  "0x000000000000000000000000000000000000000000000000000000000000000b"

private theorem blobObject_raw : ∃ raw, ObjectIds.objectIdToRawBytes blobObject = .ok raw := by
  have htext : blobObject.toList = '0' :: 'x' :: List.replicate 63 '0' ++ ['b'] := by
    decide +kernel
  have hhex : ObjectIds.fromHex
      (ObjectIds.stripHexPrefix ('0' :: 'x' :: List.replicate 63 '0' ++ ['b'])) =
        some (List.replicate 31 0 ++ [11]) := by decide
  refine ⟨List.replicate 31 0 ++ [11], ?_⟩
  unfold ObjectIds.objectIdToRawBytes
  rw [htext, hhex]
  rfl

private def paidWorld : World :=
  { World.small with
    transaction := fun _ => World.succeeding [⟨some blobObject, .created, some ⟨some "0xa"⟩⟩] }

private theorem paidWorld_documented : Documented paidWorld where
  aggregates _ _ _ _ := ⟨_, rfl⟩
  slivers _ _ _ h := by
    cases h
    simp
  distinct _ _ h := by
    cases h
    decide
  partitions _ _ h := by
    cases h
    decide
  committeeErrors _ _ h := nomatch h
  epochErrors _ _ h := nomatch h
  finality _ := ⟨_, rfl⟩
  blobView := .inr ⟨_, rfl⟩
  objectIds executed effects h owner objectId hfind := by
    obtain ⟨hexecution, label, hsuccess⟩ := h
    cases hexecution
    obtain ⟨heffects, -⟩ := Effects.requireSuccess_eq_ok.mp hsuccess
    cases heffects
    obtain ⟨change, hchange, hid⟩ := Effects.exists_of_findCreatedObjectId hfind
    obtain rfl := List.mem_singleton.mp hchange
    unfold Effects.createdFor at hid
    split at hid
    · split at hid
      · rename_i id hsome
        cases hsome
        split at hid
        · cases hid
        · cases hid
          exact blobObject_raw
      · cases hid
    · cases hid
  opening := onlyRaises_ok _
  builder _ := onlyRaises_ok _
  signing := onlyRaises_ok _
  execution := onlyRaises_ok _
  executed := by simp [paidWorld, World.succeeding]

private theorem paidWorld_possible :
    ∀ event ∈ (storeBlobNative paidWorld .small).log, paidWorld.Possible event := by
  obtain ⟨s₁, t₁, s₂, t₂, c, r, k, h⟩ : ∃ s₁ t₁ s₂ t₂ c r k,
      (storeBlobNative paidWorld .small).log =
        [.opened .tx1 s₁ none, .signed .tx1 t₁, .submitted .tx1 t₁,
          .uploading SmallWrite.upload, .collecting 0 (SmallWrite.query blobObject),
          .readEpoch, .certifying c r k, .opened .tx2 s₂ none, .signed .tx2 t₂,
          .submitted .tx2 t₂] := ⟨_, _, _, _, _, _, _, rfl⟩
  have huploads : SliverFanout.Uploads SmallWrite.upload paidWorld.slivers :=
    SmallWrite.uploads
  have hcollects : Confirm.Collects (SmallWrite.query blobObject)
      (paidWorld.confirmations 0) := SmallWrite.collects blobObject
  rw [h]
  simp [World.Possible, huploads, hcollects]

/-- Both pipelines return a receipt of a small write's Tx1. -/
theorem storeBlob_postSpend_small :
    (∃ receipt, (storeBlobNative paidWorld .small).result = .ok receipt ∧
      receipt.registerTxDigest = some "digest") ∧
    ∃ receipt, (storeBlobRelay paidWorld .small [1, 2, 3]).result = .ok receipt ∧
      receipt.registerTxDigest = some "digest" := by
  obtain ⟨hnative, hrelay⟩ := storeBlob_postSpend paidWorld paidWorld_documented
  obtain ⟨effects, hs, hhandled⟩ : ∃ effects,
      Succeeded paidWorld .tx1 ⟨"digest", some effects⟩ effects ∧
      RegistrationHandled paidWorld effects "0xa" := by
    refine ⟨_, ⟨rfl, "", rfl⟩, ⟨blobObject, rfl⟩, ?_⟩
    intro _ view e hview herror
    cases hview
    cases herror
  constructor
  · obtain ⟨txn, hsubmitted⟩ : ∃ txn, (storeBlobNative paidWorld .small).log[2]? =
        some (.submitted .tx1 txn) := ⟨_, rfl⟩
    obtain ⟨receipt, hreceipt, hdigest, -⟩ := (hnative .small txn _ effects
      paidWorld_possible (List.mem_of_getElem? hsubmitted) hs).mpr
        ⟨hhandled, fun _ _ _ _ _ _ => ⟨by decide, fun _ _ => ⟨1, rfl, fun _ =>
          ⟨_, rfl, fun _ _ => ⟨1, rfl⟩⟩⟩⟩⟩
    exact ⟨receipt, hreceipt, hdigest⟩
  · obtain ⟨txn, hsubmitted⟩ : ∃ txn, (storeBlobRelay paidWorld .small [1, 2, 3]).log[2]? =
        some (.submitted .tx1 txn) := ⟨_, rfl⟩
    obtain ⟨receipt, hreceipt, hdigest, -⟩ := (hrelay .small [1, 2, 3] txn _ effects
      (List.mem_of_getElem? hsubmitted) hs).mpr
        ⟨hhandled, fun _ _ _ _ k _ _ => ⟨_, rfl⟩⟩
    exact ⟨receipt, hreceipt, hdigest⟩

end Pytusk.Pipelines
