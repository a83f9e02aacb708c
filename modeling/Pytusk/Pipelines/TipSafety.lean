import Pytusk.Pipelines.Origins
import Pytusk.RelayUpload.TipConfig

/-!
# What a relay write pays

A quote that is refused stops the write before any transaction is opened. A
quote that is accepted is paid by the first composition of Tx1: the package at
input 0, one split of the quoted amount, one transfer to the quoted address.
What the split yields is the type of the coin it is taken from, which nothing
checks.
-/

namespace Pytusk.Pipelines

open Pytusk.Lib Pytusk.Ops Pytusk.RelayUpload

variable {w : World} {args : RelayStore}

/-! ## What is settled before Tx1 -/

/-- The quote exceeds the ceiling, the hook raises, or the tip coin is unusable. -/
def Refused (w : World) (args : RelayStore) (sender : String) (quote : TipQuote) : Prop :=
  (∃ ceiling amount, args.maxTip = some ceiling ∧ quote.amount = some amount ∧
    ceiling < (amount : Int)) ∨
  (∃ e, callOnQuote args quote = .error e) ∨
  (quote.requiresPayment = true ∧ ∃ e, preflightTipCoin w sender args.sponsor
    (some args.tipSource) (quote.amount.getD 0) = .error e)

/-- The strategy a plan registers with. -/
def RelayPlan.StrategyOf (w : World) (args : RelayStore) (data : Bytes) (sender coin : String)
    (attributes : List (String × String)) (quote : TipQuote) (plan : RelayPlan) : Prop :=
  plan.quote = quote ∧
  match quote.kind with
  | some _ =>
      plan.authPackage = some (buildAuthPackage w data) ∧
      plan.strategy = .tippedBlobRegistration
        (tipComposition args quote (buildAuthPackage w data)) coin sender args.sponsor
        attributes
  | none =>
      plan.authPackage = none ∧
      plan.strategy = .plainBlobRegistration (some coin) (some sender) args.sponsor attributes

/-- **What a settled plan rests on.** -/
theorem planRelay_eq_ok {data : Bytes} {committee : WalrusCommittee}
    {relayUrl sender : String} {attributes : List (String × String)} {plan : RelayPlan}
    (h : planRelay w args data committee relayUrl sender attributes = .ok plan) :
    ∃ quote coin, quoteTip w relayUrl data.length committee.nShards = .ok quote ∧
      ¬ Refused w args sender quote ∧
      plan.StrategyOf w args data sender coin attributes quote := by
  obtain ⟨quote, hquote, h⟩ := bind_eq_ok.mp h
  obtain ⟨_, hceiling, h⟩ := bind_eq_ok.mp h
  obtain ⟨_, hhook, h⟩ := bind_eq_ok.mp h
  obtain ⟨coin, hcoin, h⟩ := bind_eq_ok.mp h
  obtain ⟨_, htipCoin, -⟩ := bind_eq_ok.mp hcoin
  cases h
  refine ⟨quote, coin, hquote, ?_, rfl, ?_⟩
  · rintro (⟨ceiling, amount, hmax, hamount, hlt⟩ | ⟨e, he⟩ | ⟨hpays, e, he⟩)
    · simp only [assertTipWithinCeiling, hmax, hamount] at hceiling
      rw [if_neg (by omega)] at hceiling
      cases hceiling
    · exact nomatch hhook.symm.trans he
    · rw [if_pos hpays] at htipCoin
      exact nomatch htipCoin.symm.trans he
  · cases hkind : quote.kind with
    | none => simp [TipQuote.requiresPayment, hkind]
    | some kind => simp [TipQuote.requiresPayment, hkind]

theorem quoteTip_eq_ok {relayUrl : String} {length nShards : Nat} {quote : TipQuote}
    (h : quoteTip w relayUrl length nShards = .ok quote) :
    quote.kind = none ∨ ∃ config kind, w.tipConfig = .ok (.ok (some config)) ∧
      config.kind = some kind ∧
      quote = ⟨config.address, some (computeTip kind length nShards), some kind⟩ := by
  obtain ⟨config, hconfig, h⟩ := bind_eq_ok.mp h
  obtain ⟨result, hresult, hconfig⟩ := bind_eq_ok.mp hconfig
  cases hkind : config.kind with
  | none =>
    rw [hkind] at h
    cases h
    exact .inl rfl
  | some kind =>
    rw [hkind] at h
    cases h
    refine .inr ⟨config, kind, ?_, hkind, rfl⟩
    cases result with
    | failed text => cases hconfig
    | ok data =>
      cases data with
      | none => cases hconfig
      | some config' =>
        cases hconfig
        exact hresult

/-! ## What Tx1 pays -/

/-- The type of what a split of `source` yields, where `suiCoins` are the
objects of type `Coin<SUI>`. -/
def YieldsSui (suiCoins : String → Prop) : Argument → Prop
  | .gas => True
  | .str objectId => suiCoins objectId
  | _ => False

/-- A Tx1 that pays the tip of `kind` for `data`. -/
structure PaysTip (w : World) (suiCoins : String → Prop) (maxTip : Option Int)
    (data : Bytes) (nShards : Nat) (kind : TipKind) (address sender : String)
    (nonce : Bytes) (txn : Txn) : Prop where
  package : ∃ package, txn.inputs.head? = some (.bytes package) ∧ package.length = 72 ∧
    package = w.sha256 data ++ w.sha256 nonce ++ LittleEndian.encode 8 data.length
  split : ∃ source, YieldsSui suiCoins source ∧
    txn.commands.filter isSplitCoin =
      [.splitCoin source [computeTip kind data.length nShards]]
  ceiling : ∀ ceiling, maxTip = some ceiling →
    (computeTip kind data.length nShards : Int) ≤ ceiling
  recipient : coinRecipients txn = [address]
  transfers : ∃ coin blob, txn.commands.filter isTransferObjects =
    [.transferObjects [coin] address, .transferObjects [blob] sender]

/-- A Tx1 that pays none. -/
structure PaysNothing (sender : String) (txn : Txn) : Prop where
  package : ∀ value, .inputPure value ∉ txn.calls
  split : txn.commands.filter isSplitCoin = []
  transfers : ∃ blob, txn.commands.filter isTransferObjects =
    [.transferObjects [blob] sender]

/-- What the claim of tip safety says of a Tx1 that was signed: `nonces` are
those of the POSTs and of the receipt. -/
def TipSafe (w : World) (suiCoins : String → Prop) (args : RelayStore) (data : Bytes)
    (prepared : WritePreamble) (quote : TipQuote) (nonces : Set (Option String)) (txn : Txn) :
    Prop :=
  let sender := pyOr args.sender w.activeAddress
  newBlobRecipient prepared.packageId txn = some sender ∧
  match quote.kind with
  | none => PaysNothing sender txn
  | some kind => ∃ address nonce, quote.address = some address ∧
      PaysTip w suiCoins args.maxTip data prepared.committee.nShards kind address sender nonce
        txn ∧
      ∀ posted ∈ nonces, posted = some (String.ofList (Base64.encodeUrl nonce))

/-- Tips are paid in SUI. -/
def SuiTip (suiCoins : String → Prop) (args : RelayStore) (quote : TipQuote) : Prop :=
  quote.requiresPayment = true → args.tipSource = fromGas ∨ suiCoins args.tipSource

theorem yieldsSui_tipSource {suiCoins : String → Prop} {paymentCoin : String} :
    YieldsSui suiCoins (tipSource paymentCoin) ↔
      paymentCoin = fromGas ∨ suiCoins paymentCoin := by
  unfold tipSource
  by_cases hgas : paymentCoin = fromGas
  · simp [hgas, YieldsSui]
  · simp [hgas, YieldsSui]

section Composed

variable {suiCoins : String → Prop} {data : Bytes} {prepared : WritePreamble}
  {quote : TipQuote} {plan : RelayPlan} {coin : String} {attributes : List (String × String)}
  {terms : RegistrationTerms} {txn : Txn} {nonces : Set (Option String)}

/-- Without a tip, a composed Tx1 hands the Blob over and transfers nothing else. -/
private theorem tipSafe_of_none (hkind : quote.kind = none)
    (hplan : plan.StrategyOf w args data (pyOr args.sender w.activeAddress) coin attributes
      quote)
    (hcomposes : plan.strategy.Composes w terms txn)
    (hpackage : terms.packageId = prepared.packageId) :
    TipSafe w suiCoins args data prepared quote nonces txn := by
  obtain ⟨-, hstrategy⟩ := hplan
  rw [hkind] at hstrategy
  rw [hstrategy.2] at hcomposes
  have hrecipient := hcomposes.newBlobRecipient
  obtain ⟨coin', blobIdU256, rootHashU256, htxn⟩ := hcomposes
  have hsender : (BlobRegistration.plainBlobRegistration (some coin)
      (some (pyOr args.sender w.activeAddress)) args.sponsor attributes).resolvedSender w =
        pyOr args.sender w.activeAddress := pyOr_some_pyOr _ _
  rw [hsender] at hrecipient htxn
  rw [hpackage] at hrecipient
  subst htxn
  unfold TipSafe
  rw [hkind]
  refine ⟨hrecipient, ?_, ?_, .result 1, ?_⟩
  · intro value hmem
    simp [registrationCalls, leadingCalls, BlobRegistration.tip, reserveSpace, registerBlob,
      insertAttribute] at hmem
  · rw [filter_registrationCalls fun _ _ => rfl]
    rfl
  · rw [filter_registrationCalls fun _ _ => rfl]
    rfl

/-- With a tip, everything is as it should be but for the type of the coin. -/
private theorem tipSafe_of_some {kind : TipKind} {address : String}
    (hsha : ∀ bytes, (w.sha256 bytes).length = 32) (hkind : quote.kind = some kind)
    (haddress : quote.address = some address)
    (hamount : quote.amount = some (computeTip kind data.length prepared.committee.nShards))
    (hrefused : ¬ Refused w args (pyOr args.sender w.activeAddress) quote)
    (hplan : plan.StrategyOf w args data (pyOr args.sender w.activeAddress) coin attributes
      quote)
    (hcomposes : plan.strategy.Composes w terms txn)
    (hpackage : terms.packageId = prepared.packageId)
    (hnonces : ∀ nonce ∈ nonces, nonce = plan.nonce) :
    TipSafe w suiCoins args data prepared quote nonces txn ↔
      args.tipSource = fromGas ∨ suiCoins args.tipSource := by
  obtain ⟨-, hstrategy⟩ := hplan
  rw [hkind] at hstrategy
  obtain ⟨hauth, hstrategy⟩ := hstrategy
  rw [hstrategy] at hcomposes
  have hrecipient := hcomposes.newBlobRecipient
  have hcoins := hcomposes.coinRecipients
  obtain ⟨coin', blobIdU256, rootHashU256, htxn⟩ := hcomposes
  rw [hpackage] at hrecipient
  have hsplit : txn.commands.filter isSplitCoin =
      [.splitCoin (tipSource args.tipSource)
        [computeTip kind data.length prepared.committee.nShards]] := by
    rw [htxn, filter_registrationCalls fun _ _ => rfl]
    show [BuilderCall.splitCoin (tipSource args.tipSource) [quote.amount.getD 0]] = _
    rw [hamount, Option.getD_some]
  unfold TipSafe
  rw [hkind]
  constructor
  · rintro ⟨-, _, _, -, hpays, -⟩
    obtain ⟨source, hyields, hsource⟩ := hpays.split
    rw [hsplit] at hsource
    cases hsource
    exact yieldsSui_tipSource.mp hyields
  · intro hsui
    refine ⟨hrecipient, address, w.tokenBytes, haddress, ⟨?_, ?_, ?_, ?_, ?_⟩, ?_⟩
    · refine ⟨(buildAuthPackage w data).bcs, ?_, ?_, rfl⟩
      · rw [htxn]
        rfl
      · simp [AuthPackage.bcs, buildAuthPackage, hsha]
    · exact ⟨_, yieldsSui_tipSource.mpr hsui, hsplit⟩
    · intro ceiling hmax
      by_contra hover
      exact hrefused (.inl ⟨ceiling, _, hmax, hamount, by omega⟩)
    · rw [hcoins]
      show [quote.address.getD ""] = [address]
      rw [haddress, Option.getD_some]
    · refine ⟨.result 0, .result 3, ?_⟩
      rw [htxn, filter_registrationCalls fun _ _ => rfl]
      show [BuilderCall.transferObjects [.result 0] (quote.address.getD ""), _] = _
      rw [haddress, Option.getD_some]
      rfl
    · intro nonce hmem
      rw [hnonces nonce hmem, RelayPlan.nonce, hauth]
      rfl

end Composed

/-! ## The runs -/

/-- The nonces a run carries: those of its POSTs and that of its receipt. -/
def noncesOf (log : List Event) (receipt : Except PyExn RelayBlobReceipt) :
    Set (Option String) :=
  { nonce | (∃ command, .posted command ∈ log ∧ command.nonce = nonce) ∨
    ∃ r, receipt = .ok r ∧ r.nonce = nonce }

/-- Every POST of a relay write carries the nonce of its plan. -/
private theorem nonce_of_posted {assumed : Event → Prop} {data : Bytes}
    {prepared : WritePreamble} {plan : RelayPlan} {relayUrl : String}
    {command : WriteRelayBlob}
    (h : (Write.relay w args data prepared plan relayUrl).Origin w assumed (.posted command)) :
    command.nonce = plan.nonce := by
  cases h with
  | delivery hregisters hposted =>
    cases hposted
    rfl

private theorem nonces_storeBlobRelay {data : Bytes} {prepared : WritePreamble}
    {relayUrl : String} (hurl : relayPreflight w args = .ok relayUrl)
    (hprepared : prepareWrite w data relayUploadError = .ok prepared) :
    ∀ nonce ∈ noncesOf (storeBlobRelay w args data).log (storeBlobRelay w args data).result,
      ∃ plan, planRelay w args data prepared.committee relayUrl
        (pyOr args.sender w.activeAddress) [] = .ok plan ∧ nonce = plan.nonce := by
  rintro nonce (⟨command, hposted, rfl⟩ | ⟨receipt, hreceipt, rfl⟩)
  · obtain ⟨url, p, hu, hp, plan, hplan, h⟩ := origin_of_mem_storeBlobRelay hposted
    obtain rfl : relayUrl = url := Except.ok.inj (hurl.symm.trans hu)
    obtain rfl : prepared = p := Except.ok.inj (hprepared.symm.trans hp)
    exact ⟨plan, hplan, nonce_of_posted h⟩
  · have hall : Shows (fun _ => True) _ _ (storeBlobRelay w args data) :=
      storeBlobRelay_origin
    have hend := (hall fun _ _ => trivial).2
    rw [hreceipt] at hend
    obtain ⟨url, p, hu, hp, hcarries⟩ := hend
    obtain rfl : relayUrl = url := Except.ok.inj (hurl.symm.trans hu)
    obtain rfl : prepared = p := Except.ok.inj (hprepared.symm.trans hp)
    exact hcarries

private theorem nonces_storeQuiltRelay {patches : List QuiltPatchInput}
    {prepared : QuiltWritePreamble} {relayUrl : String}
    (hurl : relayPreflight w args = .ok relayUrl)
    (hprepared : prepareQuiltWrite w patches relayUploadError = .ok prepared) :
    ∀ nonce ∈ noncesOf (storeQuiltRelay w args patches).log
        ((storeQuiltRelay w args patches).result.map (·.toRelayBlobReceipt)),
      ∃ plan, planRelay w args prepared.data prepared.committee relayUrl
        (pyOr args.sender w.activeAddress) quiltBlobAttributes = .ok plan ∧
        nonce = plan.nonce := by
  rintro nonce (⟨command, hposted, rfl⟩ | ⟨receipt, hreceipt, rfl⟩)
  · obtain ⟨url, p, hu, hp, plan, hplan, h⟩ := origin_of_mem_storeQuiltRelay hposted
    obtain rfl : relayUrl = url := Except.ok.inj (hurl.symm.trans hu)
    obtain rfl : prepared = p := Except.ok.inj (hprepared.symm.trans hp)
    exact ⟨plan, hplan, nonce_of_posted h⟩
  · have hall : Shows (fun _ => True) _ _ (storeQuiltRelay w args patches) :=
      storeQuiltRelay_origin
    have hend := (hall fun _ _ => trivial).2
    cases hresult : (storeQuiltRelay w args patches).result with
    | error e =>
      rw [hresult] at hreceipt
      cases hreceipt
    | ok whole =>
      rw [hresult] at hreceipt hend
      cases hreceipt
      obtain ⟨url, p, hu, hp, hcarries⟩ := hend
      obtain rfl : relayUrl = url := Except.ok.inj (hurl.symm.trans hu)
      obtain rfl : prepared = p := Except.ok.inj (hprepared.symm.trans hp)
      exact hcarries

private theorem storeRelay_of_refused {data : Bytes} {prepared : WritePreamble}
    {relayUrl : String} {attributes : List (String × String)} {quote : TipQuote}
    (hquote : quoteTip w relayUrl data.length prepared.committee.nShards = .ok quote)
    (hrefused : Refused w args (pyOr args.sender w.activeAddress) quote) :
    ∃ e, storeRelay w args data prepared relayUrl (pyOr args.sender w.activeAddress)
      attributes = Logged.raise e := by
  unfold storeRelay
  cases hplan : planRelay w args data prepared.committee relayUrl
      (pyOr args.sender w.activeAddress) attributes with
  | error e => exact ⟨e, rfl⟩
  | ok plan =>
    obtain ⟨quote', -, hquote', hnot, -⟩ := planRelay_eq_ok hplan
    obtain rfl : quote = quote' := Except.ok.inj (hquote.symm.trans hquote')
    exact absurd hrefused hnot

/-- A Tx1 that a relay write of `data` signed, under the quote it was given. -/
private theorem tipSafe_iff {suiCoins : String → Prop} {assumed : Event → Prop}
    {data : Bytes} {prepared : WritePreamble} {relayUrl : String}
    {attributes : List (String × String)} {quote : TipQuote} {txn : Txn}
    {nonces : Set (Option String)}
    (hsha : ∀ bytes, (w.sha256 bytes).length = 32) (hparsed : TipConfigParsed w)
    (hquote : quoteTip w relayUrl data.length prepared.committee.nShards = .ok quote)
    (hsigned : RelayOrigin w assumed args data prepared relayUrl attributes (.signed .tx1 txn))
    (hnonces : ∀ nonce ∈ nonces, ∃ plan, planRelay w args data prepared.committee relayUrl
      (pyOr args.sender w.activeAddress) attributes = .ok plan ∧ nonce = plan.nonce) :
    TipSafe w suiCoins args data prepared quote nonces txn ↔ SuiTip suiCoins args quote := by
  obtain ⟨plan, hplan, horigin⟩ := hsigned
  obtain ⟨quote', coin, hquote', hrefused, hstrategy⟩ := planRelay_eq_ok hplan
  obtain rfl : quote = quote' := Except.ok.inj (hquote.symm.trans hquote')
  have hnonce : ∀ nonce ∈ nonces, nonce = plan.nonce := by
    intro nonce hmem
    obtain ⟨plan', hplan', hn⟩ := hnonces nonce hmem
    rw [hn, Except.ok.inj (hplan.symm.trans hplan')]
  rcases quoteTip_eq_ok hquote with hkind | ⟨config, kind, hconfig, hkind, rfl⟩
  · have hfree : SuiTip suiCoins args quote := by
      simp [SuiTip, TipQuote.requiresPayment, hkind]
    exact iff_of_true (tipSafe_of_none hkind hstrategy horigin.signsTx1 rfl) hfree
  · obtain ⟨payload, hpayload⟩ := hparsed config hconfig
    have hsome := parseTipConfig_address hpayload
    rw [TipConfig.requiresPayment, hkind] at hsome
    obtain ⟨address, haddress⟩ := Option.isSome_iff_exists.mp hsome
    rw [tipSafe_of_some hsha rfl haddress rfl hrefused hstrategy horigin.signsTx1 rfl hnonce]
    simp [SuiTip, TipQuote.requiresPayment]

/-- **Tip safety.** A refused quote ends the write before any transaction is
opened. Otherwise the Tx1 that is signed pays the quoted tip and nothing else,
except that the tip is paid in SUI exactly when the coin it is taken from is
one of SUI. -/
theorem storeRelay_tipSafety (w : World) (suiCoins : String → Prop)
    (hsha : ∀ bytes, (w.sha256 bytes).length = 32) (hparsed : TipConfigParsed w) :
    (∀ (args : RelayStore) (data : Bytes) relayUrl prepared quote,
      relayPreflight w args = .ok relayUrl →
      prepareWrite w data relayUploadError = .ok prepared →
      quoteTip w relayUrl data.length prepared.committee.nShards = .ok quote →
      let run := storeBlobRelay w args data
      (Refused w args (pyOr args.sender w.activeAddress) quote →
        (∃ e, run.result = .error e) ∧ run.log = []) ∧
      ∀ txn, .signed .tx1 txn ∈ run.log →
        (TipSafe w suiCoins args data prepared quote (noncesOf run.log run.result) txn ↔
          SuiTip suiCoins args quote)) ∧
    (∀ (args : RelayStore) (patches : List QuiltPatchInput) relayUrl prepared quote,
      relayPreflight w args = .ok relayUrl →
      prepareQuiltWrite w patches relayUploadError = .ok prepared →
      quoteTip w relayUrl prepared.data.length prepared.committee.nShards = .ok quote →
      let run := storeQuiltRelay w args patches
      (Refused w args (pyOr args.sender w.activeAddress) quote →
        (∃ e, run.result = .error e) ∧ run.log = []) ∧
      ∀ txn, .signed .tx1 txn ∈ run.log →
        (TipSafe w suiCoins args prepared.data prepared.toWritePreamble quote
            (noncesOf run.log (run.result.map (·.toRelayBlobReceipt))) txn ↔
          SuiTip suiCoins args quote)) := by
  constructor
  · intro args data relayUrl prepared quote hurl hprepared hquote run
    have hrun : run = storeRelay w args data prepared relayUrl
        (pyOr args.sender w.activeAddress) [] := by
      show storeBlobRelay w args data = _
      rw [storeBlobRelay, hurl, hprepared, Logged.lift_ok_bind, Logged.lift_ok_bind]
    constructor
    · intro hrefused
      obtain ⟨e, he⟩ := storeRelay_of_refused hquote hrefused
      rw [hrun, he]
      exact ⟨⟨e, rfl⟩, rfl⟩
    · intro txn hsigned
      obtain ⟨relayUrl', prepared', hurl', hprepared', horigin⟩ :=
        origin_of_mem_storeBlobRelay hsigned
      obtain rfl : relayUrl = relayUrl' := Except.ok.inj (hurl.symm.trans hurl')
      obtain rfl : prepared = prepared' := Except.ok.inj (hprepared.symm.trans hprepared')
      exact tipSafe_iff hsha hparsed hquote horigin
        (nonces_storeBlobRelay hurl hprepared)
  · intro args patches relayUrl prepared quote hurl hprepared hquote run
    constructor
    · intro hrefused
      obtain ⟨e, he⟩ : ∃ e, storeRelay w args prepared.data prepared.toWritePreamble relayUrl
          (pyOr args.sender w.activeAddress) quiltBlobAttributes = Logged.raise e :=
        storeRelay_of_refused hquote hrefused
      show (∃ e, (storeQuiltRelay w args patches).result = .error e) ∧
        (storeQuiltRelay w args patches).log = []
      rw [storeQuiltRelay, hurl, hprepared, Logged.lift_ok_bind, Logged.lift_ok_bind]
      cases prepared.patches.mapM (patchReceipt prepared.encoded.blobId) with
      | error e' => exact ⟨⟨e', rfl⟩, rfl⟩
      | ok receipts =>
        rw [Logged.lift_ok_bind, he]
        exact ⟨⟨e, rfl⟩, rfl⟩
    · intro txn hsigned
      obtain ⟨relayUrl', prepared', hurl', hprepared', horigin⟩ :=
        origin_of_mem_storeQuiltRelay hsigned
      obtain rfl : relayUrl = relayUrl' := Except.ok.inj (hurl.symm.trans hurl')
      obtain rfl : prepared = prepared' := Except.ok.inj (hprepared.symm.trans hprepared')
      exact tipSafe_iff hsha hparsed hquote horigin
        (nonces_storeQuiltRelay hurl hprepared)

/-! ### A tip out of another coin -/

/-- The tip coin `0xfa` is the sender's and rich enough, and not of SUI. -/
private def walTipWorld : World :=
  { World.small with
    tipCoinView := .ok (.ok (some {
      objectId := some "0xfa"
      objectType := some "0x2::coin::Coin<0x9::wal::WAL>"
      ownerAddress := some "0xa"
      balance := some 100
      json := none })) }

private def walTip : RelayStore := { RelayStore.small with tipSource := "0xfa" }

/-- Tx1 splits the tip off a coin that is not of SUI. -/
theorem storeBlobRelay_walTip :
    ∃ prepared quote txn,
      prepareWrite walTipWorld [1, 2, 3] relayUploadError = .ok prepared ∧
      quoteTip walTipWorld "relay" 3 prepared.committee.nShards = .ok quote ∧
      .signed .tx1 txn ∈ (storeBlobRelay walTipWorld walTip [1, 2, 3]).log ∧
      ¬ TipSafe walTipWorld (· ≠ "0xfa") walTip [1, 2, 3] prepared quote
        (noncesOf (storeBlobRelay walTipWorld walTip [1, 2, 3]).log
          (storeBlobRelay walTipWorld walTip [1, 2, 3]).result) txn := by
  obtain ⟨prepared, quote, txn, hprepared, hquote, hsigned, hkind, hsplit⟩ :
      ∃ prepared quote txn,
        prepareWrite walTipWorld [1, 2, 3] relayUploadError = .ok prepared ∧
        quoteTip walTipWorld "relay" 3 prepared.committee.nShards = .ok quote ∧
        (storeBlobRelay walTipWorld walTip [1, 2, 3]).log[1]? = some (.signed .tx1 txn) ∧
        quote.kind = some (.constTip 5) ∧
        txn.commands.filter isSplitCoin = [.splitCoin (.str "0xfa") [5]] :=
    ⟨_, _, _, rfl, rfl, rfl, rfl, rfl⟩
  refine ⟨prepared, quote, txn, hprepared, hquote, List.mem_of_getElem? hsigned, ?_⟩
  intro hsafe
  unfold TipSafe at hsafe
  rw [hkind] at hsafe
  obtain ⟨-, address, nonce, -, hpays, -⟩ := hsafe
  obtain ⟨source, hyields, hsource⟩ := hpays.split
  rw [hsplit] at hsource
  cases hsource
  exact hyields rfl

/-- The tip of the small world is parsed from what its relay would answer. -/
private theorem small_parsed : TipConfigParsed World.small := by
  intro config hconfig
  cases hconfig
  exact ⟨.dict [(Json.key "send_tip", .dict [(Json.key "address", .str (Json.key "0xd")),
    (Json.key "kind", .dict [(Json.key "const", .int 5)])])], by rfl⟩

/-- A tip from the gas coin is safe; a ceiling below it stops the write. -/
theorem storeRelay_tipSafety_small :
    (∃ prepared quote txn,
      .signed .tx1 txn ∈ (storeBlobRelay World.small .small [1, 2, 3]).log ∧
      quote.amount = some 5 ∧
      TipSafe World.small (fun _ => False) .small [1, 2, 3] prepared quote
        (noncesOf (storeBlobRelay World.small .small [1, 2, 3]).log
          (storeBlobRelay World.small .small [1, 2, 3]).result) txn) ∧
    (storeBlobRelay World.small { RelayStore.small with maxTip := some 4 } [1, 2, 3]).log =
      [] := by
  obtain ⟨hblob, -⟩ := storeRelay_tipSafety World.small (fun _ => False) (fun _ => rfl)
    small_parsed
  obtain ⟨prepared, quote, txn, hprepared, hquote, hsigned, hamount⟩ : ∃ prepared quote txn,
      prepareWrite World.small [1, 2, 3] relayUploadError = .ok prepared ∧
      quoteTip World.small "relay" 3 prepared.committee.nShards = .ok quote ∧
      (storeBlobRelay World.small .small [1, 2, 3]).log[1]? = some (.signed .tx1 txn) ∧
      quote.amount = some 5 := ⟨_, _, _, rfl, rfl, rfl, rfl⟩
  constructor
  · have hmem := List.mem_of_getElem? hsigned
    obtain ⟨-, hsafe⟩ := hblob .small [1, 2, 3] "relay" prepared quote rfl hprepared hquote
    exact ⟨prepared, quote, txn, hmem, hamount, (hsafe txn hmem).mpr fun _ => .inl rfl⟩
  · obtain ⟨hrefused, -⟩ := hblob { RelayStore.small with maxTip := some 4 } [1, 2, 3] "relay"
      prepared quote rfl hprepared hquote
    exact (hrefused (.inl ⟨4, 5, rfl, hamount, by decide⟩)).2

end Pytusk.Pipelines
