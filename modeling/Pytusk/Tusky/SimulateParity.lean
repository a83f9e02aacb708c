import Pytusk.Encoding.QuiltTiling
import Pytusk.Pipelines.Origins
import Pytusk.Tusky.RelaySimulate

/-!
# Simulate mode composes what execute mode composes

`relayTx1` says what Tx1 of a relay write is, from what it is asked for and
what the outside answers. Both drivers sign a Tx1 exactly if it is that one.
-/

namespace Pytusk.Tusky

open Pytusk.Lib Pytusk.Lib.Logged Pytusk.Ops Pytusk.Pipelines

/-! ## What Tx1 is -/

/-- What a relay write stores. -/
inductive Payload where
  | blob (data : Bytes)
  | quilt (patches : List QuiltPatchInput)

section Spec

variable (w : World) (args : RelayArgs) (sender : String) (sponsor : Option String)

namespace Payload

def attributes : Payload → List (String × String)
  | blob _ => []
  | quilt _ => quiltBlobAttributes

/-- The bytes that are stored, and their encoding. -/
def encode (committee : WalrusCommittee) : Payload → Except PyExn (Bytes × EncodedBlob)
  | blob data => do
      let encoded ← Redstuff.encodeBlob w.redstuffEncode data committee.nShards
      return (data, encoded)
  | quilt patches =>
      match Quilt.assembleQuilt patches committee.nShards with
      | .error e => .error (assemblyError w relayUploadError e)
      | .ok assembled => do
          let encoded ← Redstuff.encodeBlob w.redstuffEncode assembled.data assembled.nShards
          return (assembled.data, encoded)

end Payload

/-- The tip Tx1 pays under a quote. -/
def relayTip (data : Bytes) (quote : TipQuote) : Option TipComposition :=
  if quote.requiresPayment then
    some {
      relayAddress := quote.address.getD ""
      tipAmount := quote.amount.getD 0
      authPackage := RelayUpload.buildAuthPackage w data
      paymentCoin := args.tipGasSource }
  else none

/-- What Tx1 registers. -/
def relayTerms (packageId : String) (encoded : EncodedBlob) : RegistrationTerms where
  encoded := encoded
  epochs := args.epochs
  deletable := !args.permanent
  packageId := packageId
  systemObject := w.systemObject

/-- From the encoded bytes on. -/
def composeTx1 (data : Bytes) (encoded : EncodedBlob) (committee : WalrusCommittee)
    (relayUrl : String) (attributes : List (String × String)) : Except PyExn Txn := do
  let packageId ← resolvePackageId w
  let quote ← RelayUpload.quoteTip w relayUrl data.length committee.nShards
  RelayUpload.assertTipWithinCeiling quote args.maxTip
  let coin ← preflightPayment w sender sponsor
    (if quote.requiresPayment then some args.tipGasSource else none)
    (quote.amount.getD 0) none
  (w.transaction .tx1).opening
  addRegistrationSequence (w.transaction .tx1).builder (relayTerms w args packageId encoded)
    ⟨sender, sponsor, []⟩ sender coin (relayTip w args data quote) attributes

/-- The Tx1 of a relay write. -/
def relayTx1 (payload : Payload) : Except PyExn Txn := do
  preflightSponsor w sponsor
  let relayUrl ← w.relayUrlFor args.relay
  let committee ← w.committee 0
  let (data, encoded) ← payload.encode w committee
  composeTx1 w args sender sponsor data encoded committee relayUrl payload.attributes

end Spec

variable {w : World} {args : RelayArgs} {sender : String} {sponsor : Option String}
  {data : Bytes} {encoded : EncodedBlob} {committee : WalrusCommittee} {relayUrl : String}
  {attributes : List (String × String)} {txn : Txn}

theorem composeTx1_eq_ok :
    composeTx1 w args sender sponsor data encoded committee relayUrl attributes = .ok txn ↔
      ∃ packageId quote coin, resolvePackageId w = .ok packageId ∧
        RelayUpload.quoteTip w relayUrl data.length committee.nShards = .ok quote ∧
        RelayUpload.assertTipWithinCeiling quote args.maxTip = .ok () ∧
        preflightPayment w sender sponsor
          (if quote.requiresPayment then some args.tipGasSource else none)
          (quote.amount.getD 0) none = .ok coin ∧
        (w.transaction .tx1).opening = .ok () ∧
        addRegistrationSequence (w.transaction .tx1).builder
          (relayTerms w args packageId encoded) ⟨sender, sponsor, []⟩ sender coin
          (relayTip w args data quote) attributes = .ok txn := by
  simp only [composeTx1, bind_eq_ok]
  constructor
  · rintro ⟨packageId, hpackage, quote, hquote, _, hceiling, coin, hcoin, _, hopening, htxn⟩
    exact ⟨packageId, quote, coin, hpackage, hquote, hceiling, hcoin, hopening, htxn⟩
  · rintro ⟨packageId, quote, coin, hpackage, hquote, hceiling, hcoin, hopening, htxn⟩
    exact ⟨packageId, hpackage, quote, hquote, (), hceiling, coin, hcoin, (), hopening, htxn⟩

theorem relayTx1_eq_ok {payload : Payload} :
    relayTx1 w args sender sponsor payload = .ok txn ↔
      preflightSponsor w sponsor = .ok () ∧
      ∃ relayUrl committee data encoded, w.relayUrlFor args.relay = .ok relayUrl ∧
        w.committee 0 = .ok committee ∧ payload.encode w committee = .ok (data, encoded) ∧
        composeTx1 w args sender sponsor data encoded committee relayUrl payload.attributes =
          .ok txn := by
  simp only [relayTx1, bind_eq_ok]
  constructor
  · rintro ⟨_, hsponsor, relayUrl, hurl, committee, hcommittee, ⟨data, encoded⟩, hencode, htxn⟩
    exact ⟨hsponsor, relayUrl, committee, data, encoded, hurl, hcommittee, hencode, htxn⟩
  · rintro ⟨hsponsor, relayUrl, committee, data, encoded, hurl, hcommittee, hencode, htxn⟩
    exact ⟨(), hsponsor, relayUrl, hurl, committee, hcommittee, (data, encoded), hencode, htxn⟩

namespace Payload

theorem encode_blob_eq_ok {blob : Bytes} :
    (Payload.blob blob).encode w committee = .ok (data, encoded) ↔
      Redstuff.encodeBlob w.redstuffEncode blob committee.nShards = .ok encoded ∧
        blob = data := by
  simp only [encode, bind_eq_ok, pure_eq_ok, Except.ok.injEq, Prod.mk.injEq]
  constructor
  · rintro ⟨_, hencoded, rfl, rfl⟩
    exact ⟨hencoded, rfl⟩
  · rintro ⟨hencoded, rfl⟩
    exact ⟨encoded, hencoded, rfl, rfl⟩

theorem encode_quilt_eq_ok {patches : List QuiltPatchInput} :
    (Payload.quilt patches).encode w committee = .ok (data, encoded) ↔
      ∃ assembled, Quilt.assembleQuilt patches committee.nShards = .ok assembled ∧
        Redstuff.encodeBlob w.redstuffEncode assembled.data assembled.nShards = .ok encoded ∧
        assembled.data = data := by
  simp only [encode]
  cases Quilt.assembleQuilt patches committee.nShards with
  | error e => exact iff_of_false nofun fun ⟨_, h, _⟩ => nomatch h
  | ok assembled =>
    simp only [bind_eq_ok, pure_eq_ok, Except.ok.injEq, Prod.mk.injEq, exists_eq_left']
    constructor
    · rintro ⟨_, hencoded, rfl, rfl⟩
      exact ⟨hencoded, rfl⟩
    · rintro ⟨hencoded, rfl⟩
      exact ⟨encoded, hencoded, rfl, rfl⟩

end Payload

/-! ## Simulate mode -/

theorem relaySimulateContext_eq_ok :
    relaySimulateContext w args sponsor = .ok (relayUrl, committee) ↔
      preflightSponsor w sponsor = .ok () ∧ w.relayUrlFor args.relay = .ok relayUrl ∧
        w.committee 0 = .ok committee := by
  simp only [relaySimulateContext, bind_eq_ok, orExit_eq_ok, pure_eq_ok, Except.ok.injEq,
    Prod.mk.injEq]
  constructor
  · rintro ⟨_, hsponsor, _, hurl, _, hcommittee, rfl, rfl⟩
    exact ⟨hsponsor, hurl, hcommittee⟩
  · rintro ⟨hsponsor, hurl, hcommittee⟩
    exact ⟨(), hsponsor, relayUrl, hurl, committee, hcommittee, rfl, rfl⟩

theorem not_signed_openTransaction {tx : TxLabel} :
    .signed .tx1 txn ∉ (openTransaction w tx sender sponsor).log := by
  simp [openTransaction, mem_log_bind]

theorem quoteWithinCeiling_eq_ok {unencodedLength nShards : Nat} {quote : TipQuote} :
    quoteWithinCeiling w args relayUrl unencodedLength nShards = .ok quote ↔
      RelayUpload.quoteTip w relayUrl unencodedLength nShards = .ok quote ∧
        RelayUpload.assertTipWithinCeiling quote args.maxTip = .ok () := by
  simp only [quoteWithinCeiling, bind_eq_ok, pure_eq_ok, Except.ok.injEq]
  constructor
  · rintro ⟨_, hquote, _, hceiling, rfl⟩
    exact ⟨hquote, hceiling⟩
  · rintro ⟨hquote, hceiling⟩
    exact ⟨quote, hquote, (), hceiling, rfl⟩

theorem signed_buildAndSign {composed : Txn} :
    .signed .tx1 txn ∈ (buildAndSign w composed).log ↔ composed = txn := by
  simp [buildAndSign, mem_log_bind, eq_comm]

/-- The tip of simulate mode. -/
theorem map_buildAuthPackage_eq (quote : TipQuote) :
    ((if quote.requiresPayment then some (RelayUpload.buildAuthPackage w data) else none).map
      fun package => {
        relayAddress := quote.address.getD ""
        tipAmount := quote.amount.getD 0
        authPackage := package
        paymentCoin := args.tipGasSource }) = relayTip w args data quote := by
  unfold relayTip
  split <;> rfl

theorem signed_relaySimulateReport :
    .signed .tx1 txn ∈ (relaySimulateReport w args sender sponsor data encoded committee
      relayUrl attributes).log ↔
      composeTx1 w args sender sponsor data encoded committee relayUrl attributes = .ok txn := by
  rw [composeTx1_eq_ok]
  -- nothing before the signing is a signing, and nothing comes after it
  simp only [relaySimulateReport, walrusPackageId, mem_log_bind, log_lift, result_lift,
    List.not_mem_nil, false_or, orExit_eq_ok, log_mapError, result_mapError, mapError_eq_ok,
    not_signed_openTransaction, openTransaction_result, signed_buildAndSign, log_pure, and_false,
    exists_false, or_false, quoteWithinCeiling_eq_ok, map_buildAuthPackage_eq]
  constructor
  · rintro ⟨quote, ⟨hquote, hceiling⟩, packageId, hpackage, coin, hcoin, _, ⟨hopening, rfl⟩, _,
      htxn, rfl⟩
    exact ⟨packageId, quote, coin, hpackage, hquote, hceiling, hcoin, hopening, htxn⟩
  · rintro ⟨packageId, quote, coin, hpackage, hquote, hceiling, hcoin, hopening, htxn⟩
    exact ⟨quote, ⟨hquote, hceiling⟩, packageId, hpackage, coin, hcoin, _, ⟨hopening, rfl⟩, _,
      htxn, rfl⟩

/-- A run of a command in simulate mode. -/
def Payload.simulate (w : World) (book : AddressBook) (args : RelayArgs) :
    Payload → Command Txn
  | .blob data => simulateBlobRelay w book args data
  | .quilt patches => simulateQuiltRelay w book args patches

/-- **Simulate mode** signs the Tx1 of the write. -/
theorem signed_simulate {book : AddressBook}
    (hparties : resolveParties w book args = .ok (sender, sponsor)) (payload : Payload) :
    .signed .tx1 txn ∈ (payload.simulate w book args).log ↔
      relayTx1 w args sender sponsor payload = .ok txn := by
  have hresolved : resolvePartiesOrExit w book args = .ok (sender, sponsor) :=
    orExit_eq_ok.mpr hparties
  rw [relayTx1_eq_ok]
  cases payload with
  | blob data =>
    simp only [Payload.simulate, simulateBlobRelay, hresolved, lift_ok_bind, mem_log_bind,
      log_lift, result_lift, List.not_mem_nil, false_or, signed_relaySimulateReport,
      Prod.exists, relaySimulateContext_eq_ok, encodeOrExit, orExit_eq_ok,
      Payload.encode_blob_eq_ok]
    constructor
    · rintro ⟨relayUrl, committee, ⟨hsponsor, hurl, hcommittee⟩, encoded, hencoded, htxn⟩
      exact ⟨hsponsor, relayUrl, committee, data, encoded, hurl, hcommittee, ⟨hencoded, rfl⟩,
        htxn⟩
    · rintro ⟨hsponsor, relayUrl, committee, _, encoded, hurl, hcommittee, ⟨hencoded, rfl⟩,
        htxn⟩
      exact ⟨relayUrl, committee, ⟨hsponsor, hurl, hcommittee⟩, encoded, hencoded, htxn⟩
  | quilt patches =>
    simp only [Payload.simulate, simulateQuiltRelay, hresolved, lift_ok_bind, mem_log_bind,
      log_lift, result_lift, List.not_mem_nil, false_or, signed_relaySimulateReport,
      Prod.exists, relaySimulateContext_eq_ok, encodeOrExit, orExit_eq_ok, assembleOrExit,
      mapError_eq_ok, Payload.encode_quilt_eq_ok]
    constructor
    · rintro ⟨relayUrl, committee, ⟨hsponsor, hurl, hcommittee⟩, assembled, hassembled, encoded,
        hencoded, htxn⟩
      exact ⟨hsponsor, relayUrl, committee, assembled.data, encoded, hurl, hcommittee,
        ⟨assembled, hassembled, hencoded, rfl⟩, htxn⟩
    · rintro ⟨hsponsor, relayUrl, committee, _, encoded, hurl, hcommittee,
        ⟨assembled, hassembled, hencoded, rfl⟩, htxn⟩
      exact ⟨relayUrl, committee, ⟨hsponsor, hurl, hcommittee⟩, assembled, hassembled, encoded,
        hencoded, htxn⟩

/-! ## Execute mode -/

theorem signed_executeRegistrationTxn {composed : Txn} {owner label : String} :
    .signed .tx1 txn ∈ (executeRegistrationTxn w composed encoded owner label).log ↔
      composed = txn := by
  simp [executeRegistrationTxn, signAndExecute, mem_log_bind, eq_comm]

/-- A coin that was selected is selected again. -/
theorem preflightPayment_selected {minimum : Nat} {coin : String}
    (h : preflightPayment w sender sponsor none minimum none = .ok coin) :
    preflightPayment w sender sponsor none 0 (some coin) = .ok coin := by
  have hselect : selectWalPaymentCoin w sender = .ok coin := h
  show (if coin = "" then selectWalPaymentCoin w sender else pure coin) = .ok coin
  split
  · exact hselect
  · rfl

section Register

variable {terms : RegistrationTerms}

theorem signed_register_tipped {tip : TipComposition} {coin : String} :
    .signed .tx1 txn ∈ ((BlobRegistration.tippedBlobRegistration tip coin sender sponsor
      attributes).register w terms).log ↔
      (w.transaction .tx1).opening = .ok () ∧
        addRegistrationSequence (w.transaction .tx1).builder terms ⟨sender, sponsor, []⟩ sender
          coin (some tip) attributes = .ok txn := by
  simp only [BlobRegistration.register, mem_log_bind, not_signed_openTransaction,
    openTransaction_result, log_lift, result_lift, List.not_mem_nil, false_or,
    signed_executeRegistrationTxn]
  constructor
  · rintro ⟨_, ⟨hopening, rfl⟩, _, htxn, rfl⟩
    exact ⟨hopening, htxn⟩
  · rintro ⟨hopening, htxn⟩
    exact ⟨_, ⟨hopening, rfl⟩, _, htxn, rfl⟩

theorem signed_register_plain {minimum : Nat} {coin : String}
    (hcoin : preflightPayment w sender sponsor none minimum none = .ok coin)
    (hsender : pyOr (some sender) w.activeAddress = sender) :
    .signed .tx1 txn ∈ ((BlobRegistration.plainBlobRegistration (some coin) (some sender)
      sponsor attributes).register w terms).log ↔
      (w.transaction .tx1).opening = .ok () ∧
        addRegistrationSequence (w.transaction .tx1).builder terms ⟨sender, sponsor, []⟩ sender
          coin none attributes = .ok txn := by
  simp only [BlobRegistration.register, executeReserveAndRegister, hsender,
    preflightPayment_selected hcoin, lift_ok_bind, mem_log_bind, not_signed_openTransaction,
    openTransaction_result, log_lift, result_lift, List.not_mem_nil, false_or,
    signed_executeRegistrationTxn]
  constructor
  · rintro ⟨_, ⟨hopening, rfl⟩, _, htxn, rfl⟩
    exact ⟨hopening, htxn⟩
  · rintro ⟨hopening, htxn⟩
    exact ⟨_, ⟨hopening, rfl⟩, _, htxn, rfl⟩

end Register

section Execute

variable {store : RelayStore} {prepared : WritePreamble} {plan : RelayPlan}
  {registration : Registration}

/-- After Tx1 no Tx1 is signed. -/
theorem not_signed_relayAndCertify :
    .signed .tx1 txn ∉ (relayAndCertify w store data prepared plan relayUrl
      registration).log := by
  have hshows : Shows (fun _ => True) (fun event => event ≠ .signed .tx1 txn) (fun _ => True)
      (relayAndCertify w store data prepared plan relayUrl registration) := by
    have hdeliver : Shows (fun _ => True) (fun event => event ≠ .signed .tx1 txn)
        (fun _ => True) ((plan.delivery store relayUrl).deliver w prepared.committee
          prepared.encoded data registration) :=
      (uploadToRelay_shows nofun).bind fun _ _ => (shows_lift _).weaken fun _ _ => trivial
    refine hdeliver.bind fun delivered _ => ?_
    dsimp only
    split
    · refine (submitCertification_shows fun _ _ _ =>
        ⟨nofun, fun _ => ⟨nofun, fun _ _ => ⟨nofun, nofun⟩⟩⟩).attempt.bind fun certified _ => ?_
      split
      · exact meets_pure trivial
      · split
        · exact meets_pure trivial
        · exact shows_raise _
    · exact meets_pure trivial
  exact fun hmem => (hshows fun _ _ => trivial).1 _ hmem rfl

theorem signed_registerAndRelay :
    .signed .tx1 txn ∈ (registerAndRelay w store data prepared plan relayUrl).log ↔
      .signed .tx1 txn ∈ (plan.strategy.register w
        (registrationTerms w prepared store.epochs store.deletable)).log := by
  rw [registerAndRelay, mem_log_bind, log_attempt, or_iff_left]
  rintro ⟨registered, -, hmem⟩
  cases registered with
  | error e =>
    dsimp only at hmem
    split at hmem
    · exact absurd hmem List.not_mem_nil
    · exact absurd hmem List.not_mem_nil
  | ok registration => exact not_signed_relayAndCertify hmem

/-- The strategy of execute mode. -/
def relayStrategy (w : World) (args : RelayArgs) (sender : String) (sponsor : Option String)
    (data : Bytes) (attributes : List (String × String)) (quote : TipQuote) (coin : String) :
    BlobRegistration :=
  match relayTip w args data quote with
  | some tip => .tippedBlobRegistration tip coin sender sponsor attributes
  | none => .plainBlobRegistration (some coin) (some sender) sponsor attributes

theorem planRelay_relayStore_eq_ok :
    planRelay w (args.relayStore sender sponsor) data committee relayUrl sender attributes =
      .ok plan ↔
      ∃ quote coin, RelayUpload.quoteTip w relayUrl data.length committee.nShards = .ok quote ∧
        RelayUpload.assertTipWithinCeiling quote args.maxTip = .ok () ∧
        preflightPayment w sender sponsor
          (if quote.requiresPayment then some args.tipGasSource else none)
          (quote.amount.getD 0) none = .ok coin ∧
        ⟨quote, if quote.requiresPayment then some (RelayUpload.buildAuthPackage w data)
          else none, relayStrategy w args sender sponsor data attributes quote coin⟩ = plan := by
  simp only [planRelay, bind_eq_ok, pure_eq_ok, Except.ok.injEq]
  constructor
  · rintro ⟨quote, hquote, _, hceiling, _, -, coin, hcoin, rfl⟩
    refine ⟨quote, coin, hquote, hceiling, hcoin, ?_⟩
    unfold relayStrategy relayTip
    cases quote.requiresPayment <;> rfl
  · rintro ⟨quote, coin, hquote, hceiling, hcoin, rfl⟩
    refine ⟨quote, hquote, (), hceiling, (), rfl, coin, hcoin, ?_⟩
    unfold relayStrategy relayTip
    cases quote.requiresPayment <;> rfl

theorem signed_relayStrategy {terms : RegistrationTerms} {quote : TipQuote} {coin : String}
    (hcoin : preflightPayment w sender sponsor
      (if quote.requiresPayment then some args.tipGasSource else none)
      (quote.amount.getD 0) none = .ok coin)
    (hsender : pyOr (some sender) w.activeAddress = sender) :
    .signed .tx1 txn ∈ ((relayStrategy w args sender sponsor data attributes quote
      coin).register w terms).log ↔
      (w.transaction .tx1).opening = .ok () ∧
        addRegistrationSequence (w.transaction .tx1).builder terms ⟨sender, sponsor, []⟩ sender
          coin (relayTip w args data quote) attributes = .ok txn := by
  cases hpays : quote.requiresPayment with
  | true =>
    simp only [relayStrategy, relayTip, hpays, if_true]
    exact signed_register_tipped
  | false =>
    rw [hpays] at hcoin
    simp only [relayStrategy, relayTip, hpays, Bool.false_eq_true, if_false]
    exact signed_register_plain hcoin hsender

/-- **Once the blob is prepared**, execute mode signs what is composed from it. -/
theorem signed_storeRelay (hpackage : resolvePackageId w = .ok prepared.packageId)
    (hsender : pyOr (some sender) w.activeAddress = sender) :
    .signed .tx1 txn ∈ (storeRelay w (args.relayStore sender sponsor) data prepared relayUrl
      sender attributes).log ↔
      composeTx1 w args sender sponsor data prepared.encoded prepared.committee relayUrl
        attributes = .ok txn := by
  have hterms : registrationTerms w prepared (args.relayStore sender sponsor).epochs
      (args.relayStore sender sponsor).deletable =
        relayTerms w args prepared.packageId prepared.encoded := rfl
  simp only [storeRelay, mem_log_bind, log_lift, result_lift, List.not_mem_nil, false_or,
    signed_registerAndRelay, hterms, composeTx1_eq_ok, hpackage, Except.ok.injEq,
    planRelay_relayStore_eq_ok]
  constructor
  · rintro ⟨_, ⟨quote, coin, hquote, hceiling, hcoin, rfl⟩, hsigned⟩
    obtain ⟨hopening, htxn⟩ := (signed_relayStrategy hcoin hsender).mp hsigned
    exact ⟨_, quote, coin, rfl, hquote, hceiling, hcoin, hopening, htxn⟩
  · rintro ⟨_, quote, coin, rfl, hquote, hceiling, hcoin, hopening, htxn⟩
    exact ⟨_, ⟨quote, coin, hquote, hceiling, hcoin, rfl⟩,
      (signed_relayStrategy hcoin hsender).mpr ⟨hopening, htxn⟩⟩

end Execute

/-! ### What comes before the quote -/

theorem relayPreflight_relayStore_eq_ok :
    relayPreflight w (args.relayStore sender sponsor) = .ok relayUrl ↔
      preflightSponsor w sponsor = .ok () ∧ w.relayUrlFor args.relay = .ok relayUrl := by
  simp only [relayPreflight, bind_eq_ok]
  constructor
  · rintro ⟨_, hsponsor, _, -, hurl⟩
    exact ⟨hsponsor, hurl⟩
  · rintro ⟨hsponsor, hurl⟩
    exact ⟨(), hsponsor, (), rfl, hurl⟩

theorem prepareWrite_eq_ok {errorType : ErrorType} {prepared : WritePreamble} :
    prepareWrite w data errorType = .ok prepared ↔
      w.committee 0 = .ok prepared.committee ∧
        resolvePackageId w = .ok prepared.packageId ∧
        Redstuff.encodeBlob w.redstuffEncode data prepared.committee.nShards =
          .ok prepared.encoded := by
  simp only [prepareWrite, bind_eq_ok, chainContext_eq_ok, wrapStage_eq_ok, pure_eq_ok,
    Except.ok.injEq]
  constructor
  · rintro ⟨context, ⟨hcommittee, hpackage⟩, encoded, hencoded, rfl⟩
    exact ⟨hcommittee, hpackage, hencoded⟩
  · rintro ⟨hcommittee, hpackage, hencoded⟩
    exact ⟨⟨_, _⟩, ⟨hcommittee, hpackage⟩, _, hencoded, rfl⟩

/-- The check of the assembled identifiers never fires. -/
theorem prepareQuiltWrite_eq_ok {patches : List QuiltPatchInput} {errorType : ErrorType}
    {prepared : QuiltWritePreamble} :
    prepareQuiltWrite w patches errorType = .ok prepared ↔
      w.committee 0 = .ok prepared.committee ∧
        resolvePackageId w = .ok prepared.packageId ∧
        ∃ assembled, Quilt.assembleQuilt patches prepared.committee.nShards = .ok assembled ∧
          Redstuff.encodeBlob w.redstuffEncode assembled.data assembled.nShards =
            .ok prepared.encoded ∧
          assembled.data = prepared.data ∧ assembled.patches = prepared.patches := by
  simp only [prepareQuiltWrite, bind_eq_ok, chainContext_eq_ok]
  constructor
  · rintro ⟨context, ⟨hcommittee, hpackage⟩, h⟩
    split at h
    · cases h
    · rename_i assembled hassembled
      obtain ⟨_, -, h⟩ := bind_eq_ok.mp h
      obtain ⟨encoded, hencoded, h⟩ := bind_eq_ok.mp h
      cases h
      exact ⟨hcommittee, hpackage, assembled, hassembled, wrapStage_eq_ok.mp hencoded, rfl, rfl⟩
  · obtain ⟨⟨committee, encoded, packageId⟩, data, layouts⟩ := prepared
    rintro ⟨hcommittee, hpackage, assembled, hassembled, hencoded, rfl, rfl⟩
    refine ⟨⟨committee, packageId⟩, ⟨hcommittee, hpackage⟩, ?_⟩
    have hidentifiers : (assembled.patches.map (·.identifier)).insertionSort (· ≤ ·) =
        (patches.map (·.identifier)).insertionSort (· ≤ ·) := by
      rw [Quilt.map_identifier_of_assembled hassembled]
      exact (List.pairwise_insertionSort _ _).insertionSort_eq
    have hwrapped : wrapStage errorType "encode" (Redstuff.encodeBlob w.redstuffEncode
        assembled.data assembled.nShards) = .ok encoded := wrapStage_eq_ok.mpr hencoded
    dsimp only at hassembled ⊢
    rw [hassembled]
    simp only [hidentifiers, hwrapped, ok_bind, raiseIf, ne_eq, not_true_eq_false, if_false,
      pure_eq_ok]

/-- Blob ids Tx1 cannot be composed from are those patch ids cannot be made of. -/
theorem exists_patchReceipts {patches : List QuiltPatchInput} {nShards : Int}
    {assembled : AssembledQuilt} (hassembled : Quilt.assembleQuilt patches nShards = .ok assembled)
    (htxn : composeTx1 w args sender sponsor data encoded committee relayUrl attributes =
      .ok txn) :
    ∃ receipts, assembled.patches.mapM (patchReceipt encoded.blobId) = .ok receipts := by
  obtain ⟨packageId, quote, coin, -, -, -, -, -, htxn⟩ := composeTx1_eq_ok.mp htxn
  -- the id has been converted, so it has 32 bytes
  have hid : encoded.blobId.length = 32 := by
    obtain ⟨_, -, h⟩ := bind_eq_ok.mp htxn
    obtain ⟨_, hregister, -⟩ := bind_eq_ok.mp h
    obtain ⟨_, -, h⟩ := bind_eq_ok.mp hregister
    obtain ⟨_, hu256, -⟩ := bind_eq_ok.mp h
    exact not_ne_iff.mp (ite_error_eq_ok.mp hu256).1
  obtain ⟨_, _, _, _, -, -, -, htiling⟩ := Quilt.tiling_of_ok hassembled
  obtain ⟨patchIds, hpatchIds, -, -⟩ := htiling.patchIds encoded.blobId hid
  refine exists_mapM_ok fun layout hlayout => ?_
  obtain ⟨patchId, -, hpatchId⟩ := exists_mem_of_mapM hpatchIds hlayout
  exact ⟨_, by rw [patchReceipt, hpatchId]; rfl⟩

/-- The log of a pipeline in execute mode. -/
def Payload.executed (w : World) (store : RelayStore) : Payload → List Event
  | .blob data => (storeBlobRelay w store data).log
  | .quilt patches => (storeQuiltRelay w store patches).log

/-- **Execute mode** signs the Tx1 of the write. -/
theorem signed_executed (hsender : pyOr (some sender) w.activeAddress = sender)
    (payload : Payload) :
    .signed .tx1 txn ∈ payload.executed w (args.relayStore sender sponsor) ↔
      relayTx1 w args sender sponsor payload = .ok txn := by
  have hresolved : pyOr (args.relayStore sender sponsor).sender w.activeAddress = sender :=
    hsender
  rw [relayTx1_eq_ok]
  cases payload with
  | blob data =>
    simp only [Payload.executed, storeBlobRelay, mem_log_bind, log_lift, result_lift,
      List.not_mem_nil, false_or, hresolved, relayPreflight_relayStore_eq_ok,
      prepareWrite_eq_ok, Payload.encode_blob_eq_ok]
    constructor
    · rintro ⟨relayUrl, ⟨hsponsor, hurl⟩, prepared, ⟨hcommittee, hpackage, hencoded⟩, hsigned⟩
      exact ⟨hsponsor, relayUrl, _, data, _, hurl, hcommittee, ⟨hencoded, rfl⟩,
        (signed_storeRelay hpackage hsender).mp hsigned⟩
    · rintro ⟨hsponsor, relayUrl, committee, _, encoded, hurl, hcommittee, ⟨hencoded, rfl⟩,
        htxn⟩
      obtain ⟨packageId, -, -, hpackage, -⟩ := composeTx1_eq_ok.mp htxn
      exact ⟨relayUrl, ⟨hsponsor, hurl⟩, ⟨committee, encoded, packageId⟩,
        ⟨hcommittee, hpackage, hencoded⟩, (signed_storeRelay hpackage hsender).mpr htxn⟩
  | quilt patches =>
    simp only [Payload.executed, storeQuiltRelay, mem_log_bind, log_lift, result_lift,
      List.not_mem_nil, false_or, hresolved, relayPreflight_relayStore_eq_ok,
      prepareQuiltWrite_eq_ok, Payload.encode_quilt_eq_ok, log_pure, and_false, exists_false,
      or_false]
    constructor
    · rintro ⟨relayUrl, ⟨hsponsor, hurl⟩, prepared,
        ⟨hcommittee, hpackage, assembled, hassembled, hencoded, hdata, -⟩, receipts, -, hsigned⟩
      exact ⟨hsponsor, relayUrl, _, _, _, hurl, hcommittee,
        ⟨assembled, hassembled, hencoded, hdata⟩,
        (signed_storeRelay hpackage hsender).mp hsigned⟩
    · rintro ⟨hsponsor, relayUrl, committee, _, encoded, hurl, hcommittee,
        ⟨assembled, hassembled, hencoded, rfl⟩, htxn⟩
      obtain ⟨packageId, -, -, hpackage, -⟩ := composeTx1_eq_ok.mp htxn
      obtain ⟨receipts, hreceipts⟩ := exists_patchReceipts hassembled htxn
      exact ⟨relayUrl, ⟨hsponsor, hurl⟩,
        ⟨⟨committee, encoded, packageId⟩, assembled.data, assembled.patches⟩,
        ⟨hcommittee, hpackage, assembled, hassembled, hencoded, rfl, rfl⟩, receipts, hreceipts,
        (signed_storeRelay hpackage hsender).mpr htxn⟩

/-! ## The two modes -/

/-- One run signs a Tx1 exactly if the other does, with the same inputs and the
same commands. -/
structure SameTx1 (log log' : List Event) : Prop where
  composes : (∃ txn, .signed .tx1 txn ∈ log) ↔ ∃ txn, .signed .tx1 txn ∈ log'
  inputs : ∀ txn txn', .signed .tx1 txn ∈ log → .signed .tx1 txn' ∈ log' →
    txn.inputs = txn'.inputs
  commands : ∀ txn txn', .signed .tx1 txn ∈ log → .signed .tx1 txn' ∈ log' →
    txn.commands = txn'.commands

/-- An address that was resolved is kept by the pipelines. -/
theorem pyOr_resolved {book : AddressBook}
    (hbook : ∀ name, book.addressForAlias name ≠ .ok "")
    (hparties : resolveParties w book args = .ok (sender, sponsor)) :
    pyOr (some sender) w.activeAddress = sender := by
  obtain ⟨_, hsender, h⟩ := bind_eq_ok.mp hparties
  obtain ⟨_, -, h⟩ := bind_eq_ok.mp h
  cases h
  cases harg : args.sender with
  | none =>
    rw [harg] at hsender
    cases hsender
    simp [pyOr]
  | some arg =>
    rw [harg, resolveSender] at hsender
    split at hsender
    · cases hsender
      simp [pyOr]
    · rename_i hne
      refine if_neg ?_
      unfold resolveAddressOrAlias at hsender
      split at hsender
      · obtain ⟨_, -, h⟩ := bind_eq_ok.mp hsender
        cases h
        exact hne
      · rintro rfl
        exact hbook arg hsender

/-- **Simulate agrees with execute.** For the arguments execute mode hands to
the pipelines, simulate mode composes a Tx1 exactly if the pipeline does, and
the same one. Where the sponsor, the relay, a read, the assembly, the encoding,
the quote, the ceiling, a coin or a call on the transaction raises, neither
does. -/
theorem simulate_agrees (w : World) (book : AddressBook)
    (hbook : ∀ name, book.addressForAlias name ≠ .ok "") (args : RelayArgs)
    (sender : String) (sponsor : Option String)
    (hparties : resolveParties w book args = .ok (sender, sponsor)) (payload : Payload) :
    SameTx1 (payload.simulate w book args).log
        (payload.executed w (args.relayStore sender sponsor)) ∧
      ∀ e, relayTx1 w args sender sponsor payload = .error e →
        ∀ txn, .signed .tx1 txn ∉ (payload.simulate w book args).log ∧
          .signed .tx1 txn ∉ payload.executed w (args.relayStore sender sponsor) := by
  have hsender := pyOr_resolved hbook hparties
  have hsame : ∀ {txn txn'}, .signed .tx1 txn ∈ (payload.simulate w book args).log →
      .signed .tx1 txn' ∈ payload.executed w (args.relayStore sender sponsor) →
      txn = txn' := by
    intro txn txn' h h'
    exact Except.ok.inj (((signed_simulate hparties payload).mp h).symm.trans
      ((signed_executed hsender payload).mp h'))
  refine ⟨⟨?_, ?_, ?_⟩, ?_⟩
  · exact exists_congr fun txn =>
      (signed_simulate hparties payload).trans (signed_executed hsender payload).symm
  · exact fun txn txn' h h' => congrArg Txn.inputs (hsame h h')
  · exact fun txn txn' h h' => congrArg Txn.commands (hsame h h')
  · intro e he txn
    constructor
    · exact fun h => nomatch he.symm.trans ((signed_simulate hparties payload).mp h)
    · exact fun h => nomatch he.symm.trans ((signed_executed hsender payload).mp h)

/-- The small world, with a WAL coin to pay with. -/
private def payingWorld : World :=
  { World.small with
    balances := .ok (.ok (some [⟨some "wal"⟩]))
    walCoins := .ok (.ok (some [⟨"0xc", some 9⟩])) }

/-- A configuration that knows one address and no alias. -/
private def oneAddress : AddressBook where
  aliasForAddress address :=
    if address = "0xa" then .ok () else .error (.valueError s!"{address} is not known")
  addressForAlias name := .error (.valueError s!"{name} is not known")

private def smallArgs : RelayArgs where
  epochs := 3
  permanent := true
  relay := none
  sender := some "0xa"
  sponsor := none
  recipient := none
  tipGasSource := fromGas
  maxTip := some 5

private theorem payingWorld_coin : selectWalPaymentCoin payingWorld "0xa" = .ok "0xc" := by
  have hsorted : richestFirst [⟨"0xc", some 9⟩] = [⟨"0xc", some 9⟩] :=
    List.mergeSort_singleton _
  simp [selectWalPaymentCoin, payingWorld, World.resultData, hsorted, isWalEntry,
    matchesWalCoinType, World.small]

/-- Both modes compose a Tx1 for three bytes, and it is the same. -/
theorem simulate_agrees_threeBytes :
    (∃ txn, .signed .tx1 txn ∈
      ((Payload.blob [1, 2, 3]).simulate payingWorld oneAddress smallArgs).log) ∧
    SameTx1 ((Payload.blob [1, 2, 3]).simulate payingWorld oneAddress smallArgs).log
      ((Payload.blob [1, 2, 3]).executed payingWorld (smallArgs.relayStore "0xa" none)) := by
  have hparties : resolveParties payingWorld oneAddress smallArgs = .ok ("0xa", none) := rfl
  have htxn : ∃ txn, relayTx1 payingWorld smallArgs "0xa" none (.blob [1, 2, 3]) = .ok txn :=
    ⟨_, relayTx1_eq_ok.mpr ⟨rfl, "relay", _, _, _, rfl, rfl, rfl, composeTx1_eq_ok.mpr
      ⟨"0x1", _, "0xc", rfl, rfl, rfl, payingWorld_coin, rfl, rfl⟩⟩⟩
  exact ⟨htxn.imp fun _ h => (signed_simulate hparties _).mpr h,
    (simulate_agrees payingWorld oneAddress (fun _ => nofun) smallArgs "0xa" none hparties _).1⟩

end Pytusk.Tusky
