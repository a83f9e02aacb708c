import Pytusk.Tusky.ExtendExpiration

/-!
# `share_blob`, `fund_shared_blob` and `extend_shared_blob`

Whatever these commands, `extend_blob_expiration` and the wrappers submit, the
chain serves what they were asked for, and the coins that are merged and split
on the way do not show in the books.
-/

namespace Pytusk.Tusky

open Pytusk.Lib Pytusk.Ops Pytusk.SharedBlobs

/-! ## The commands -/

structure ShareArgs where
  objectId : String
  /-- `args.mode == "execute"` -/
  execute : Bool
  sender : Option String
  sponsor : Option String
  deriving DecidableEq, Repr

/-- What is printed of the new object: its id, or that it was not found. -/
def reportShared (typed : TransactionEffects → List TypedChange) (effects : TransactionEffects) :
    Sending Unit :=
  match findCreatedSharedObjectId (typed effects) "shared_blob::SharedBlob" with
  | .ok newId => Logged.emit (.reported s!"New SharedBlob object ID: {newId}")
  | .error e =>
      if e.isRuntimeError then Logged.emit (.reported s!"Warning: {e.message}")
      else Logged.raise (.raised e)

/-- What is made of the answer. -/
def sharedResult (typed : TransactionEffects → List TypedChange) (args : ShareArgs) :
    SuiRpcResult ExecutedTransaction → Sending ExecutedTransaction
  | .failed resultString => Logged.raise (.systemExit s!"Error in share_blob: {resultString}")
  | .ok data => do
      Logged.emit (.reported s!"Shared {args.objectId} as a new SharedBlob.")
      if args.execute then
        let executed ← uncaught (World.resultData "effects" data)
        let effects ← uncaught (Effects.requireSuccess executed "share_blob")
        reportShared typed effects
      printResult data

def shareBlob (w : World) (book : AddressBook) (h : Holdings)
    (typed : TransactionEffects → List TypedChange) (args : ShareArgs) :
    Sending ExecutedTransaction := do
  let (sender, sponsor) ← signersOrExit w book args.sender args.sponsor
  let walrusPkg ← walrusPackageId w
  let result ← send (h.transaction 0) sender sponsor (addOnly (shareCall walrusPkg args.objectId))
  sharedResult typed args result

/-- Exactly one of `--amount` and `--wal-coin` is given. -/
inductive FundWith where
  | amount (amount : Nat)
  | walCoin (walCoin : String)
  deriving DecidableEq, Repr

structure FundArgs where
  objectId : String
  fundWith : FundWith
  sender : Option String
  sponsor : Option String
  deriving DecidableEq, Repr

/-- The payment, and the call. -/
def composeFund (w : World) (coinMetadata : ExecuteOutcome CoinMetadataView)
    (walrusPkg objectId sender : String) (builder : Builder) (txn : Txn) :
    FundWith → Except CliExn Txn
  | .walCoin walCoin =>
      uncaught (addOnly (fundCall walrusPkg objectId (.str walCoin)) builder txn)
  | .amount amount => do
      let prepared := prepareWalCoinForAmount w coinMetadata builder txn sender amount
      let paymentCoin ← orExit PyExn.isRuntimeError
        (fun e => s!"Error preparing WAL payment: {e.message}") prepared.result
      uncaught (addOnly (fundCall walrusPkg objectId paymentCoin) builder
        { txn with calls := txn.calls ++ prepared.log })

def fundedResult (objectId : String) :
    SuiRpcResult ExecutedTransaction → Sending ExecutedTransaction
  | .failed resultString => Logged.raise (.systemExit s!"Error in fund_shared_blob: {resultString}")
  | .ok data => do
      Logged.emit (.reported s!"Funded SharedBlob {objectId}.")
      printResult data

/-- The command composes between opening and signing, and may exit there. -/
def fundSharedBlob (w : World) (book : AddressBook) (h : Holdings)
    (coinMetadata : ExecuteOutcome CoinMetadataView) (args : FundArgs) :
    Sending ExecutedTransaction := do
  let (sender, sponsor) ← signersOrExit w book args.sender args.sponsor
  let walrusPkg ← walrusPackageId w
  let answers := h.transaction 0
  Logged.emit (.opened sender sponsor)
  Logged.lift (uncaught answers.opening)
  let txn ← composeFund w coinMetadata walrusPkg args.objectId sender answers.builder
    ⟨sender, sponsor, []⟩ args.fundWith
  Logged.emit (.signed txn)
  Logged.lift (uncaught answers.signing)
  Logged.emit (.submitted txn)
  let result ← uncaught answers.execution
  fundedResult args.objectId result

structure ExtendSharedArgs where
  objectId : String
  epochs : Int
  sender : Option String
  sponsor : Option String
  deriving DecidableEq, Repr

def extendSharedBlob (w : World) (book : AddressBook) (h : Holdings) (args : ExtendSharedArgs) :
    Sending ExecutedTransaction := do
  let (sender, sponsor) ← signersOrExit w book args.sender args.sponsor
  let walrusPkg ← walrusPackageId w
  sendOrExit (h.transaction 0) sender sponsor
    (addOnly (extendSharedCall walrusPkg args.objectId w.systemObject args.epochs))
    (fun resultString => s!"Error in extend_shared_blob: {resultString}")
    s!"Extended SharedBlob {args.objectId}'s wrapped blob by {args.epochs} epoch(s)."

/-! ## What is submitted -/

section Submitted

variable {w : World} {book : AddressBook} {h : Holdings} {txn : Txn}
  {coinMetadata : ExecuteOutcome CoinMetadataView} {packageId : String}

def isSubmission (sent : Sent) : Bool := (submittedTxn sent).isSome

@[simp] theorem isSubmission_reported (line : String) : isSubmission (.reported line) = false := rfl

/-- Nothing is submitted after the answer. -/
theorem not_emits_sharedResult (typed : TransactionEffects → List TypedChange) (args : ShareArgs)
    (result : SuiRpcResult ExecutedTransaction) :
    ¬ Logged.Emits isSubmission (sharedResult typed args result) := by
  have hreport : ∀ effects, ¬ Logged.Emits isSubmission (reportShared typed effects) := by
    intro effects
    unfold reportShared
    split
    · simp
    · split
      · simp
      · simp
  cases result with
  | failed resultString => simp [sharedResult]
  | ok data =>
    cases hflag : args.execute with
    | false => simp [sharedResult, hflag, Logged.emits_bind]
    | true => simp [sharedResult, hflag, Logged.emits_bind, hreport]

theorem not_emits_fundedResult (objectId : String) (result : SuiRpcResult ExecutedTransaction) :
    ¬ Logged.Emits isSubmission (fundedResult objectId result) := by
  cases result with
  | failed resultString => simp [fundedResult]
  | ok data => simp [fundedResult, Logged.emits_bind]

theorem submitted_shareBlob {typed : TransactionEffects → List TypedChange} {args : ShareArgs}
    (hpkg : walrusPackageId w = .ok packageId)
    (hsent : .submitted txn ∈ (shareBlob w book h typed args).log) :
    txn.calls = [shareCall packageId args.objectId] := by
  unfold shareBlob at hsent
  simp only [Logged.monadLift_eq, Logged.mem_log_bind, Logged.log_lift, Logged.result_lift,
    List.not_mem_nil, false_or, Prod.exists] at hsent
  obtain ⟨sender, sponsor, -, walrusPkg, hwalrus, hsent | ⟨result, -, hafter⟩⟩ := hsent
  · cases hpkg.symm.trans hwalrus
    rw [addOnly_eq_ok (submitted_send_iff.mp hsent).2.1]
  · exact absurd ⟨_, hafter, rfl⟩ (not_emits_sharedResult typed args result)

theorem submitted_extendSharedBlob {args : ExtendSharedArgs}
    (hpkg : walrusPackageId w = .ok packageId)
    (hsent : .submitted txn ∈ (extendSharedBlob w book h args).log) :
    txn.calls = [extendSharedCall packageId args.objectId w.systemObject args.epochs] := by
  unfold extendSharedBlob at hsent
  simp only [Logged.monadLift_eq, Logged.mem_log_bind, Logged.log_lift, Logged.result_lift,
    List.not_mem_nil, false_or, Prod.exists] at hsent
  obtain ⟨sender, sponsor, -, walrusPkg, hwalrus, hsent⟩ := hsent
  cases hpkg.symm.trans hwalrus
  rw [addOnly_eq_ok (submitted_sendOrExit hsent)]

/-- What has to have been found for a payment to be submitted. -/
theorem submitted_fundSharedBlob {args : FundArgs} :
    .submitted txn ∈ (fundSharedBlob w book h coinMetadata args).log ↔
      ∃ sender sponsor walrusPkg,
        signersOrExit w book args.sender args.sponsor = .ok (sender, sponsor) ∧
        walrusPackageId w = .ok walrusPkg ∧ (h.transaction 0).opening = .ok () ∧
        composeFund w coinMetadata walrusPkg args.objectId sender (h.transaction 0).builder
          ⟨sender, sponsor, []⟩ args.fundWith = .ok txn ∧
        (h.transaction 0).signing = .ok () := by
  unfold fundSharedBlob
  simp only [Logged.monadLift_eq, Logged.mem_log_bind, Logged.log_lift, Logged.result_lift,
    Logged.log_emit, Logged.result_emit, List.mem_singleton, List.not_mem_nil, reduceCtorEq,
    false_or, true_and, Sent.submitted.injEq, uncaught,
    mapError_eq_ok, exists_const, Prod.exists]
  constructor
  · rintro ⟨sender, sponsor, hsigners, walrusPkg, hpkg, _, hopening, composed, hcompose, _,
      hsigning, rfl | ⟨result, -, hafter⟩⟩
    · exact ⟨sender, sponsor, walrusPkg, hsigners, hpkg, hopening, hcompose, hsigning⟩
    · exact absurd ⟨_, hafter, rfl⟩ (not_emits_fundedResult args.objectId result)
  · rintro ⟨sender, sponsor, walrusPkg, hsigners, hpkg, hopening, hcompose, hsigning⟩
    exact ⟨sender, sponsor, hsigners, walrusPkg, hpkg, _, hopening, txn, hcompose, _, hsigning,
      .inl rfl⟩

end Submitted

/-! ## What is served -/

section Served

variable {system : System} {treasury : Treasury} {newId : String} {request : Request} {txn : Txn}

/-- Who asks for what, looking at the treasury as it is, and what is submitted
for it. -/
inductive Asks (system : System) (treasury : Treasury) (newId : String) : Request → Txn → Prop
  | shareBlob {w : World} {book : AddressBook} {h : Holdings}
      {typed : TransactionEffects → List TypedChange} {args : ShareArgs} {txn : Txn}
      (hpkg : walrusPackageId w = .ok system.packageId)
      (hsent : .submitted txn ∈ (shareBlob w book h typed args).log) :
      Asks system treasury newId (.share args.objectId newId) txn
  | executeShareBlob {w : World} {answers : TxAnswers}
      {typed : TransactionEffects → List TypedChange} {blobObject : String}
      {sender sponsor : Option String} {txn : Txn}
      (hsent : txn ∈ (executeShareBlob w answers typed system.packageId blobObject sender
        sponsor).log) :
      Asks system treasury newId (.share blobObject newId) txn
  | fundAmount {w : World} {book : AddressBook} {h : Holdings}
      {coinMetadata : ExecuteOutcome CoinMetadataView} {coins : List CoinView} {objectId : String}
      {amount : Nat} {sender sponsor : Option String} {txn : Txn}
      (hpkg : walrusPackageId w = .ok system.packageId)
      (hcoins : w.walCoins = .ok (.ok (some coins))) (hlists : Lists treasury coins)
      (hsent : .submitted txn ∈ (fundSharedBlob w book h coinMetadata
        ⟨objectId, .amount amount, sender, sponsor⟩).log) :
      Asks system treasury newId (.fund objectId amount) txn
  | fundCoin {w : World} {book : AddressBook} {h : Holdings}
      {coinMetadata : ExecuteOutcome CoinMetadataView} {objectId walCoin : String} {amount : Nat}
      {sender sponsor : Option String} {txn : Txn}
      (hpkg : walrusPackageId w = .ok system.packageId)
      (hholds : treasury.coins.Holds (.str walCoin) amount)
      (hsent : .submitted txn ∈ (fundSharedBlob w book h coinMetadata
        ⟨objectId, .walCoin walCoin, sender, sponsor⟩).log) :
      Asks system treasury newId (.fund objectId amount) txn
  | executeFundSharedBlob {w : World} {answers : TxAnswers}
      {coinMetadata : ExecuteOutcome CoinMetadataView} {coins : List CoinView}
      {sharedBlobObject : String} {amount : Nat} {sender sponsor : Option String} {txn : Txn}
      (hcoins : w.walCoins = .ok (.ok (some coins))) (hlists : Lists treasury coins)
      (hsent : txn ∈ (executeFundSharedBlob w answers coinMetadata system.packageId
        sharedBlobObject amount sender sponsor).log) :
      Asks system treasury newId (.fund sharedBlobObject amount) txn
  | extendSharedBlob {w : World} {book : AddressBook} {h : Holdings} {args : ExtendSharedArgs}
      {txn : Txn} (hpkg : walrusPackageId w = .ok system.packageId)
      (hsystem : w.systemObject = system.systemObject)
      (hsent : .submitted txn ∈ (extendSharedBlob w book h args).log) :
      Asks system treasury newId (.extendShared args.objectId args.epochs) txn
  | executeExtendSharedBlob {w : World} {answers : TxAnswers} {sharedBlobObject : String}
      {extendedEpochs : Int} {sender sponsor : Option String} {txn : Txn}
      (hsent : txn ∈ (executeExtendSharedBlob w answers system.packageId sharedBlobObject
        system.systemObject extendedEpochs sender sponsor).log) :
      Asks system treasury newId (.extendShared sharedBlobObject extendedEpochs) txn
  | extendBlobExpiration {w : World} {book : AddressBook} {h : Holdings}
      {coinMetadata : ExecuteOutcome CoinMetadataView} {args : ExpirationArgs}
      {coins others : List CoinView} {primary : CoinView} {txn : Txn}
      (hpkg : walrusPackageId w = .ok system.packageId)
      (hsystem : w.systemObject = system.systemObject)
      (hcoins : w.walCoins = .ok (.ok (some coins))) (hlists : Lists treasury coins)
      (hsorted : richestFirst coins = primary :: others)
      (hsent : .submitted txn ∈ (extendBlobExpiration w book h coinMetadata args).log) :
      Asks system treasury newId
        (.extendBlob args.objectId args.epochs (available args.merge primary others)) txn

section Prepared

variable {w : World} {coinMetadata : ExecuteOutcome CoinMetadataView} {coins : List CoinView}
  {builder : Builder} {sender owner objectId : String} {sponsor : Option String} {amount : Nat}
  {coin : Argument}

/-- What is got ready out of coins that were listed: no WAL is lost, nothing but
the coin is left over, and coins that were not listed do not change. -/
theorem calls_of_prepared (hsettled : treasury.Settled)
    (hcoins : w.walCoins = .ok (.ok (some coins))) (hlists : Lists treasury coins)
    (hcoin : (prepareWalCoinForAmount w coinMetadata builder ⟨sender, sponsor, []⟩ owner
      amount).result = .ok coin) :
    ∃ whole, Treasury.calls system newId 0 (prepareWalCoinForAmount w coinMetadata builder
        ⟨sender, sponsor, []⟩ owner amount).log treasury = some { treasury with coins := whole } ∧
      whole.total = treasury.coins.total ∧ whole.Holds coin amount ∧
      (∀ other ∈ whole.owned, other ≠ coin → isResult other = false) ∧
      ∀ other balance, (unlisted treasury coins).Holds other balance →
        whole.Holds other balance ∧ other ≠ coin := by
  obtain ⟨-, ledger, hreplay, hholds, hleft⟩ :=
    prepareWalCoinForAmount_eq_ok hcoins hlists.distinct hcoin
  have hunion := hlists.isUnion
  have hfresh : ∀ n, .result n ∉ (unlisted treasury coins).owned := by
    intro n hmem
    cases hsettled _ (Finset.mem_sdiff.mp hmem).1
  obtain ⟨whole, hcalls, hunion'⟩ := calls_of_replay hunion hfresh hreplay
  refine ⟨whole, hcalls, ?_, hunion'.holds hholds, ?_, fun other balance hother =>
    ⟨hunion'.holds_rest hother, ?_⟩⟩
  · rw [hunion'.total, hunion.total, total_replay hreplay]
  · intro other hother hne
    rw [hunion'.owned] at hother
    rcases Finset.mem_union.mp hother with hpart | hrest
    · exact hleft other hpart hne
    · exact hsettled other (Finset.mem_sdiff.mp hrest).1
  · rintro rfl
    exact hunion'.disjoint other hholds.1 hother.1

theorem books_settle_of_prepared (hsettled : treasury.Settled)
    (hcoins : w.walCoins = .ok (.ok (some coins))) (hlists : Lists treasury coins)
    (hcoin : (prepareWalCoinForAmount w coinMetadata builder ⟨sender, sponsor, []⟩ owner
      amount).result = .ok coin)
    (htxn : txn.calls = (prepareWalCoinForAmount w coinMetadata builder ⟨sender, sponsor, []⟩ owner
      amount).log ++ [fundCall system.packageId objectId coin]) :
    (treasury.settle system txn newId).books =
      treasury.books.serve system (.fund objectId amount) := by
  obtain ⟨whole, hcalls, htotal, hholds, hleft, -⟩ :=
    calls_of_prepared hsettled hcoins hlists hcoin
  exact books_settle_fund hcalls htotal hholds hleft htxn

end Prepared

theorem composeFund_amount_eq_ok {w : World} {coinMetadata : ExecuteOutcome CoinMetadataView}
    {walrusPkg objectId sender : String} {sponsor : Option String} {builder : Builder}
    {amount : Nat}
    (h : composeFund w coinMetadata walrusPkg objectId sender builder ⟨sender, sponsor, []⟩
      (.amount amount) = .ok txn) :
    ∃ coin, (prepareWalCoinForAmount w coinMetadata builder ⟨sender, sponsor, []⟩ sender
        amount).result = .ok coin ∧
      txn.calls = (prepareWalCoinForAmount w coinMetadata builder ⟨sender, sponsor, []⟩ sender
        amount).log ++ [fundCall walrusPkg objectId coin] := by
  obtain ⟨coin, hcoin, hadd⟩ := bind_eq_ok.mp h
  obtain ⟨⟨added, _⟩, hcall, heq⟩ := bind_eq_ok.mp (mapError_eq_ok.mp hadd)
  obtain ⟨-, hadded⟩ := Txn.add_eq_ok.mp hcall
  cases hadded
  cases heq
  exact ⟨coin, orExit_eq_ok.mp hcoin, rfl⟩

theorem books_settle_of_asks (hsettled : treasury.Settled)
    (h : Asks system treasury newId request txn) :
    (treasury.settle system txn newId).books = treasury.books.serve system request := by
  cases h with
  | shareBlob hpkg hsent => exact books_settle_share hsettled (submitted_shareBlob hpkg hsent)
  | executeShareBlob hsent => exact books_settle_share hsettled (submitted_executeShareBlob hsent)
  | fundAmount hpkg hcoins hlists hsent =>
    obtain ⟨sender, sponsor, walrusPkg, -, hwalrus, -, hcompose, -⟩ :=
      submitted_fundSharedBlob.mp hsent
    cases hpkg.symm.trans hwalrus
    obtain ⟨coin, hcoin, htxn⟩ := composeFund_amount_eq_ok hcompose
    exact books_settle_of_prepared hsettled hcoins hlists hcoin htxn
  | fundCoin hpkg hholds hsent =>
    obtain ⟨sender, sponsor, walrusPkg, -, hwalrus, -, hcompose, -⟩ :=
      submitted_fundSharedBlob.mp hsent
    cases hpkg.symm.trans hwalrus
    have htxn := addOnly_eq_ok (mapError_eq_ok.mp hcompose)
    exact @books_settle_fund _ _ _ _ _ _ _ [] treasury.coins rfl rfl hholds
      (fun other hother _ => hsettled other hother) (by rw [htxn]; rfl)
  | executeFundSharedBlob hcoins hlists hsent =>
    obtain ⟨owner, sponsor, hcompose⟩ := submitted_executeFundSharedBlob hsent
    obtain ⟨coin, hcoin, hadd⟩ := bind_eq_ok.mp hcompose
    obtain ⟨⟨added, _⟩, hcall, heq⟩ := bind_eq_ok.mp hadd
    obtain ⟨-, hadded⟩ := Txn.add_eq_ok.mp hcall
    cases hadded
    cases heq
    exact books_settle_of_prepared hsettled hcoins hlists hcoin rfl
  | extendSharedBlob hpkg hsystem hsent =>
    have htxn := submitted_extendSharedBlob hpkg hsent
    rw [hsystem] at htxn
    exact books_settle_extendShared hsettled htxn
  | executeExtendSharedBlob hsent =>
    exact books_settle_extendShared hsettled (submitted_executeExtendSharedBlob hsent)
  | @extendBlobExpiration _ _ _ _ args _ _ _ _ hpkg hsystem hcoins hlists hsorted hsent =>
    obtain ⟨_, _, walrusPkg, primary', others', -, -, hwalrus, -, hlisted, -, hcompose, -⟩ :=
      submitted_extendBlobExpiration.mp hsent
    cases hpkg.symm.trans hwalrus
    cases hsorted.symm.trans ((walCoinsOrExit_eq_ok hcoins).mp hlisted)
    rw [hsystem] at hcompose
    obtain ⟨ledger, hcalls, htotal, hsubset, hholds, -⟩ :=
      @calls_mergeAll _ _ _ system treasury newId hlists (hsorted ▸ richestFirst_perm _) args.merge
    exact books_settle_extendBlob hcalls htotal hholds
      (fun other hother => hsettled other (hsubset hother)) (composeExpiration_eq_ok hcompose)

/-- Requests, one after the other; a transaction that aborts changes nothing. -/
inductive Runs (system : System) : Treasury → List Request → Treasury → Prop
  | nil (treasury : Treasury) : Runs system treasury [] treasury
  | cons {treasury last : Treasury} {newId : String} {request : Request} {txn : Txn}
      {requests : List Request} (hasks : Asks system treasury newId request txn)
      (hrest : Runs system (treasury.settle system txn newId) requests last) :
      Runs system treasury (request :: requests) last

/-- **Requests are served one by one.** Whatever the commands and wrappers
submit, and however they merge and split coins for it, the books become what
the requests make of them in that order, and no coin is left over. No WAL is
made or lost, no Blob is lost, and only permanent ones are shared; the pool of
a SharedBlob loses at most what is paid, and nothing unless it is asked for. -/
theorem sharedBlobs_served {treasury last : Treasury} {requests : List Request}
    (hsettled : treasury.Settled) (hruns : Runs system treasury requests last) :
    last.Settled ∧ last.books = requests.foldl (Books.serve system) treasury.books ∧
      Keeps treasury.books last.books ∧
      ∀ id ∈ treasury.vault.pools.owned,
        (∀ request ∈ requests, ∀ epochs, request ≠ .extendShared id epochs) →
          Spared id treasury.vault last.vault := by
  have hserved : last.Settled ∧
      last.books = requests.foldl (Books.serve system) treasury.books := by
    induction hruns with
    | nil treasury => exact ⟨hsettled, rfl⟩
    | cons hasks hrest ih =>
      obtain ⟨hlast, hbooks⟩ := ih (settled_settle hsettled)
      rw [books_settle_of_asks hsettled hasks] at hbooks
      exact ⟨hlast, hbooks⟩
  refine ⟨hserved.1, hserved.2, hserved.2 ▸ keeps_foldl_serve .., fun id hid hothers => ?_⟩
  have hspared := @spared_foldl_serve system treasury.books id requests hid hothers
  rw [← hserved.2] at hspared
  exact hspared

/-- A Blob is shared, and the richest coin given to its pool. -/
theorem sharedBlobs_served_two :
    ∃ last, Runs smallSystem smallTreasury [.share "0xd" "0xn", .fund "0xn" 5] last ∧
      last.books = [.share "0xd" "0xn", .fund "0xn" 5].foldl (Books.serve smallSystem)
        smallTreasury.books := by
  have hshare : Asks smallSystem smallTreasury "0xn" (.share "0xd" "0xn")
      ⟨"0xa", none, [shareCall "0x1" "0xd"]⟩ := by
    refine @Asks.shareBlob _ _ _ walWorld ⟨fun _ => .ok (), .ok⟩ acceptingHoldings (fun _ => [])
      ⟨"0xd", false, none, none⟩ _ (by decide +kernel) ?_
    decide +kernel
  have hfund : Asks smallSystem (smallTreasury.settle smallSystem
      ⟨"0xa", none, [shareCall "0x1" "0xd"]⟩ "0xn") "0xm" (.fund "0xn" 5)
        ⟨"0xa", none, [fundCall "0x1" "0xn" (.str "0xb")]⟩ := by
    refine @Asks.fundCoin _ _ _ walWorld ⟨fun _ => .ok (), .ok⟩ acceptingHoldings nineDecimals "0xn"
      "0xb" 5 none none _ (by decide +kernel) ?_ (by decide +kernel)
    have hexecute : smallTreasury.execute smallSystem ⟨"0xa", none, [shareCall "0x1" "0xd"]⟩ "0xn" =
        (smallTreasury.vault.share "0xd" "0xn").map ({ smallTreasury with vault := · }) :=
      execute_share smallTreasury_settled rfl
    rw [Treasury.settle, hexecute]
    exact ⟨by decide, by decide⟩
  have hruns := Runs.cons hshare (Runs.cons hfund (Runs.nil _))
  exact ⟨_, hruns, (sharedBlobs_served smallTreasury_settled hruns).2.1⟩

/-! ## Paying into a pool -/

/-- The reads answer, and a transaction can be made. -/
structure AnswersFund (w : World) (book : AddressBook) (h : Holdings)
    (coinMetadata : ExecuteOutcome CoinMetadataView) (args : FundArgs) (system : System)
    (coins : List CoinView) : Prop where
  signers : ∃ parties, signersOrExit w book args.sender args.sponsor = .ok parties
  package : walrusPackageId w = .ok system.packageId
  coins : ReadsCoins w coinMetadata coins
  opening : (h.transaction 0).opening = .ok ()
  builder : ∀ n, (h.transaction 0).builder n = .ok ()
  signing : (h.transaction 0).signing = .ok ()

variable {w : World} {book : AddressBook} {h : Holdings}
  {coinMetadata : ExecuteOutcome CoinMetadataView} {coins : List CoinView} {objectId : String}
  {amount : Nat} {sender sponsor : Option String}

theorem exists_submitted_fund
    (hanswers : AnswersFund w book h coinMetadata ⟨objectId, .amount amount, sender, sponsor⟩
      system coins) (hdistinct : (coins.map CoinView.objectId).Nodup) :
    (∃ txn, .submitted txn ∈ (fundSharedBlob w book h coinMetadata
        ⟨objectId, .amount amount, sender, sponsor⟩).log) ↔
      ¬ (coins = [] ∨ (coins.map balanceOf).sum < amount) := by
  constructor
  · rintro ⟨txn, hsent⟩
    obtain ⟨_, _, _, -, -, -, hcompose, -⟩ := submitted_fundSharedBlob.mp hsent
    obtain ⟨coin, hcoin, -⟩ := composeFund_amount_eq_ok hcompose
    exact (prepareWalCoinForAmount_eq_ok hanswers.coins.coins hdistinct hcoin).1
  · intro henough
    obtain ⟨⟨signer, payer⟩, hsigners⟩ := hanswers.signers
    obtain ⟨coin, calls, ledger, hprepare, -⟩ := (prepareWalCoinForAmount_exact hanswers.coins
      hanswers.builder hdistinct ⟨signer, payer, []⟩ signer amount).2 henough
    have hcompose : ∃ txn, composeFund w coinMetadata system.packageId objectId signer
        (h.transaction 0).builder ⟨signer, payer, []⟩ (.amount amount) = .ok txn := by
      refine ⟨⟨signer, payer, calls ++ [fundCall system.packageId objectId coin]⟩, ?_⟩
      unfold composeFund
      dsimp only
      rw [hprepare]
      show uncaught (addOnly _ _ _) = _
      rw [addOnly, Txn.add, hanswers.builder]
      rfl
    obtain ⟨txn, hcompose⟩ := hcompose
    exact ⟨txn, submitted_fundSharedBlob.mpr ⟨signer, payer, system.packageId, hsigners,
      hanswers.package, hanswers.opening, hcompose, hanswers.signing⟩⟩

/-- A request to extend is carried out if the pool has what it costs. -/
theorem execute_of_asks_extendShared {epochs : Int} {cost : Nat} (hsettled : treasury.Settled)
    (hasks : Asks system treasury newId (.extendShared objectId epochs) txn)
    (hid : objectId ∈ treasury.vault.pools.owned)
    (hcost : system.cost (treasury.vault.wrapped objectId) epochs = some cost)
    (hcovers : cost ≤ treasury.vault.pools.balance objectId) :
    ∃ last, treasury.execute system txn newId = some last ∧
      last.vault.wrapped objectId = (treasury.vault.wrapped objectId).extended epochs ∧
      last.vault.pools.balance objectId + cost = treasury.vault.pools.balance objectId ∧
      last.coins = treasury.coins := by
  have htxn : txn.calls =
      [extendSharedCall system.packageId objectId system.systemObject epochs] := by
    cases hasks with
    | extendSharedBlob hpkg hsystem hsent => rw [submitted_extendSharedBlob hpkg hsent, hsystem]
    | executeExtendSharedBlob hsent => exact submitted_executeExtendSharedBlob hsent
  obtain ⟨pools, hspend, hholds⟩ :=
    CoinLedger.spend_of_holds (⟨hid, rfl⟩ : treasury.vault.pools.Holds objectId _) hcovers
  have hvault : treasury.vault.extendShared system objectId epochs = some { treasury.vault with
      pools
      wrapped := Function.update treasury.vault.wrapped objectId
        ((treasury.vault.wrapped objectId).extended epochs)
      paid := treasury.vault.paid + cost } := by
    rw [Vault.extendShared, hcost]
    show (treasury.vault.pools.spend objectId cost).bind _ = _
    rw [hspend]
    rfl
  rw [execute_extendShared hsettled htxn, hvault]
  refine ⟨_, rfl, Function.update_self .., ?_, rfl⟩
  show pools.balance objectId + cost = _
  rw [hholds.2]
  omega

/-- **Exactly the amount is paid in.** A payment is submitted if and only if
the coins that are listed cover it. If the SharedBlob is there it goes through:
the pool gets the amount, the coins lose it, and no coin that was not listed
changes. Whoever asks for it next, the Blob is then extended if the pool now
has what that costs. -/
theorem fundSharedBlob_exact
    (hanswers : AnswersFund w book h coinMetadata ⟨objectId, .amount amount, sender, sponsor⟩
      system coins) (hlists : Lists treasury coins) (hsettled : treasury.Settled) :
    ((∃ txn, .submitted txn ∈ (fundSharedBlob w book h coinMetadata
        ⟨objectId, .amount amount, sender, sponsor⟩).log) ↔
      coins ≠ [] ∧ amount ≤ (coins.map balanceOf).sum) ∧
    ∀ txn newId, .submitted txn ∈ (fundSharedBlob w book h coinMetadata
        ⟨objectId, .amount amount, sender, sponsor⟩).log →
      objectId ∈ treasury.vault.pools.owned →
      ∃ after, treasury.execute system txn newId = some after ∧
        after.coins.total + amount = treasury.coins.total ∧
        (∀ coin balance, (unlisted treasury coins).Holds coin balance →
          after.coins.Holds coin balance) ∧
        after.vault = { treasury.vault with pools := { treasury.vault.pools with
          balance := Function.update treasury.vault.pools.balance objectId
            (treasury.vault.pools.balance objectId + amount) } } ∧
        ∀ epochs cost txn' newId',
          system.cost (treasury.vault.wrapped objectId) epochs = some cost →
          cost ≤ treasury.vault.pools.balance objectId + amount →
          Asks system after newId' (.extendShared objectId epochs) txn' →
          ∃ last, after.execute system txn' newId' = some last ∧
            last.vault.wrapped objectId = (treasury.vault.wrapped objectId).extended epochs ∧
            last.vault.pools.balance objectId + cost =
              treasury.vault.pools.balance objectId + amount ∧
            last.coins = after.coins := by
  refine ⟨?_, fun txn newId hsent hid => ?_⟩
  · rw [exists_submitted_fund hanswers hlists.distinct, not_or, Nat.not_lt]
  obtain ⟨signer, payer, walrusPkg, -, hpkg, -, hcompose, -⟩ := submitted_fundSharedBlob.mp hsent
  cases hanswers.package.symm.trans hpkg
  obtain ⟨coin, hcoin, htxn⟩ := composeFund_amount_eq_ok hcompose
  obtain ⟨whole, hcalls, htotal, hholds, hleft, hunlisted⟩ :=
    calls_of_prepared hsettled hanswers.coins.coins hlists hcoin
  obtain ⟨after, hconsume, hexecute⟩ := execute_fund hcalls hholds hleft htxn
  have hsettled' : ∀ vault, (⟨after, vault⟩ : Treasury).Settled := by
    intro vault other hother
    obtain ⟨hne, hmem⟩ := CoinLedger.mem_of_consume hconsume hother
    exact hleft other hmem hne
  have hvault : treasury.vault.fund objectId amount = some { treasury.vault with
      pools := { treasury.vault.pools with
        balance := Function.update treasury.vault.pools.balance objectId
          (treasury.vault.pools.balance objectId + amount) } } := by
    rw [Vault.fund, CoinLedger.deposit, if_pos hid]
    rfl
  rw [hvault] at hexecute
  refine ⟨_, hexecute, ?_, fun other balance hother => ?_, rfl,
    fun epochs cost txn' newId' hcost hcovers hasks => ?_⟩
  · have hconsumed := CoinLedger.total_consume hconsume
    rw [hholds.2] at hconsumed
    exact hconsumed.trans htotal
  · obtain ⟨hstill, hne⟩ := hunlisted other balance hother
    exact CoinLedger.holds_consume hconsume hstill hne
  · have hpool : Function.update treasury.vault.pools.balance objectId
        (treasury.vault.pools.balance objectId + amount) objectId =
          treasury.vault.pools.balance objectId + amount := Function.update_self ..
    obtain ⟨last, hlast, hwrapped, hleftover, hsame⟩ := execute_of_asks_extendShared
      (hsettled' _) hasks hid hcost (hcovers.trans hpool.ge)
    exact ⟨last, hlast, hwrapped, hleftover.trans hpool, hsame⟩

/-- A SharedBlob with an empty pool. -/
def sharedTreasury : Treasury :=
  { smallTreasury with vault := { smallTreasury.vault with pools := ⟨{"0xs"}, fun _ => 0⟩ } }

/-- Two coins are merged for it. -/
theorem fundSharedBlob_exact_small :
    ∃ txn after, .submitted txn ∈ (fundSharedBlob walWorld ⟨fun _ => .ok (), .ok⟩ acceptingHoldings
        nineDecimals ⟨"0xs", .amount 9, none, none⟩).log ∧
      sharedTreasury.execute smallSystem txn "0xn" = some after ∧ after.coins.total = 3 := by
  have hanswers : AnswersFund walWorld ⟨fun _ => .ok (), .ok⟩ acceptingHoldings nineDecimals
      ⟨"0xs", .amount 9, none, none⟩ smallSystem threeWalCoins :=
    ⟨⟨_, rfl⟩, by decide +kernel, walWorld_reads, rfl, fun _ => rfl, rfl⟩
  have hlists : Lists sharedTreasury threeWalCoins := ⟨by decide, smallTreasury_lists.held⟩
  have hexact := fundSharedBlob_exact hanswers hlists smallTreasury_settled
  obtain ⟨txn, hsent⟩ := hexact.1.mpr ⟨by decide, by decide⟩
  obtain ⟨after, hexecute, htotal, -⟩ := hexact.2 txn "0xn" hsent (by decide)
  have hwhole : sharedTreasury.coins.total = 12 := by decide
  exact ⟨txn, after, hsent, hexecute, by omega⟩

end Served

end Pytusk.Tusky
