import Pytusk.Ops.SharedBlobChain
import Pytusk.Tusky.ExchangeForSui

/-!
# `extend_blob_expiration`

The command pays with the richest coin, into which it merges all others if it
is told to. It does not work the price out beforehand: what it submits goes
through if that coin has enough.
-/

namespace Pytusk.Tusky

open Pytusk.Lib Pytusk.Ops Pytusk.SharedBlobs

/-! ## The command -/

structure ExpirationArgs where
  objectId : String
  epochs : Int
  merge : Bool
  sender : Option String
  sponsor : Option String
  deriving DecidableEq, Repr

/-- The blob has to be there, and not expired. -/
def unexpiredBlob (parseInt : PyStr → Option Int) (h : Holdings) (objectId : String) :
    Except CliExn Unit := do
  let obj ← fetchBlobObject h objectId
  let (_, endEpoch) ← orExit PyExn.isValueError
    (fun e => s!"Error reading blob {objectId}: {e.message}")
    (BlobFields.blobDeletableAndEndEpoch parseInt obj)
  let currentEpoch ← orExit PyExn.isRuntimeError
    (fun e => s!"Cannot get current Walrus epoch: {e.message}") h.walrusEpoch
  if endEpoch ≤ currentEpoch then
    .error (.systemExit <|
      s!"{objectId} is expired (end_epoch={endEpoch}, " ++
        s!"current_epoch={currentEpoch}); expired blobs cannot be extended.")
  else .ok ()

/-- `if args.merge and len(coins) > 1` -/
def mergeAll (merge : Bool) (primary : CoinView) (others : List CoinView) : List BuilderCall :=
  if merge ∧ others ≠ [] then
    [.mergeCoins (.str primary.objectId) (others.map fun coin => .str coin.objectId)]
  else []

def composeExpiration (systemObjId walrusPkg : String) (args : ExpirationArgs)
    (primary : CoinView) (others : List CoinView) (builder : Builder) (txn : Txn) :
    Except PyExn Txn := do
  let txn ← txn.addEach builder id (mergeAll args.merge primary others)
  addOnly (extendBlobCall walrusPkg systemObjId args.objectId args.epochs (.str primary.objectId))
    builder txn

/-- What the failure is reported with. -/
def mergeHint (merge : Bool) : String :=
  if merge then "" else " If this is an insufficient-balance abort, retry with --merge."

def extendBlobExpiration (w : World) (book : AddressBook) (h : Holdings)
    (coinMetadata : ExecuteOutcome CoinMetadataView) (args : ExpirationArgs) :
    Sending ExecutedTransaction := do
  let (sender, sponsor) ← signersOrExit w book args.sender args.sponsor
  unexpiredBlob w.parseInt h args.objectId
  let walrusPkg ← walrusPackageId w
  let _ ← orExit PyExn.isRuntimeError PyExn.message (walBalanceAndDecimals w coinMetadata sender)
  let (primary, others) ← walCoinsOrExit w sender
  match ← send (h.transaction 0) sender sponsor
      (composeExpiration w.systemObject walrusPkg args primary others) with
  | .failed resultString =>
      Logged.raise (.systemExit <|
        s!"Error in extend_blob_expiration: {resultString}.{mergeHint args.merge}")
  | .ok data => do
      let executed ← printResult data
      Logged.emit (.reported <|
        s!"Extended {args.objectId}'s expiration by {args.epochs} epoch(s).")
      return executed

/-! ## What is submitted -/

section Submitted

variable {w : World} {book : AddressBook} {h : Holdings}
  {coinMetadata : ExecuteOutcome CoinMetadataView} {args : ExpirationArgs} {txn : Txn}
  {primary : CoinView} {others : List CoinView} {builder : Builder} {walrusPkg : String}

theorem composeExpiration_eq_ok {systemObjId sender : String} {sponsor : Option String}
    (h : composeExpiration systemObjId walrusPkg args primary others builder
      ⟨sender, sponsor, []⟩ = .ok txn) :
    txn.calls = mergeAll args.merge primary others ++
      [extendBlobCall walrusPkg systemObjId args.objectId args.epochs (.str primary.objectId)] := by
  obtain ⟨merged, hmerge, hrest⟩ := bind_eq_ok.mp h
  obtain ⟨⟨added, _⟩, hadd, heq⟩ := bind_eq_ok.mp hrest
  obtain ⟨-, hadded⟩ := Txn.add_eq_ok.mp hadd
  have hmerged := Txn.addEach_eq_ok hmerge
  cases hadded
  cases heq
  rw [hmerged, List.map_id]
  rfl

/-- A transaction is submitted once it is opened, composed and signed. -/
theorem submitted_send_iff {answers : TxAnswers} {sender : String} {sponsor : Option String}
    {compose : Builder → Txn → Except PyExn Txn} :
    .submitted txn ∈ (send answers sender sponsor compose).log ↔
      answers.opening = .ok () ∧ compose answers.builder ⟨sender, sponsor, []⟩ = .ok txn ∧
        answers.signing = .ok () := by
  unfold send
  simp only [Logged.mem_log_bind, Logged.log_lift, Logged.result_lift,
    Logged.log_emit, Logged.result_emit, List.mem_singleton, List.not_mem_nil, reduceCtorEq,
    false_or, or_false, and_false, exists_false, true_and, Sent.submitted.injEq, uncaught,
    mapError_eq_ok, exists_const]
  constructor
  · rintro ⟨_, hopening, composed, hcompose, _, hsigning, rfl⟩
    exact ⟨hopening, hcompose, hsigning⟩
  · rintro ⟨hopening, hcompose, hsigning⟩
    exact ⟨_, hopening, txn, hcompose, _, hsigning, rfl⟩

/-- What has to have been found for a transaction to be submitted. -/
theorem submitted_extendBlobExpiration :
    .submitted txn ∈ (extendBlobExpiration w book h coinMetadata args).log ↔
      ∃ sender sponsor walrusPkg primary others,
        signersOrExit w book args.sender args.sponsor = .ok (sender, sponsor) ∧
        unexpiredBlob w.parseInt h args.objectId = .ok () ∧
        walrusPackageId w = .ok walrusPkg ∧
        (∃ entry, walBalanceAndDecimals w coinMetadata sender = .ok entry) ∧
        walCoinsOrExit w sender = .ok (primary, others) ∧
        (h.transaction 0).opening = .ok () ∧
        composeExpiration w.systemObject walrusPkg args primary others (h.transaction 0).builder
          ⟨sender, sponsor, []⟩ = .ok txn ∧
        (h.transaction 0).signing = .ok () := by
  unfold extendBlobExpiration
  simp only [Logged.monadLift_eq, Logged.mem_log_bind, Logged.log_lift, Logged.result_lift,
    List.not_mem_nil, false_or, orExit_eq_ok, Prod.exists]
  constructor
  · rintro ⟨sender, sponsor, hsigners, _, hblob, walrusPkg, hpkg, balance, decimals, hbalance,
      primary, others, hcoins, hsent | ⟨result, -, hafter⟩⟩
    · obtain ⟨hopening, hcompose, hsigning⟩ := submitted_send_iff.mp hsent
      exact ⟨sender, sponsor, walrusPkg, primary, others, hsigners, hblob, hpkg, ⟨_, _, hbalance⟩,
        hcoins, hopening, hcompose, hsigning⟩
    · -- nothing is submitted after the answer
      cases result with
      | failed resultString => cases hafter
      | ok data =>
        rcases Logged.mem_log_bind.mp hafter with hnone | ⟨executed, -, hreported⟩
        · cases hnone
        · rcases Logged.mem_log_bind.mp hreported with hline | ⟨_, -, hnone⟩
          · cases List.mem_singleton.mp hline
          · cases hnone
  · rintro ⟨sender, sponsor, walrusPkg, primary, others, hsigners, hblob, hpkg, ⟨_, _, hbalance⟩,
      hcoins, hopening, hcompose, hsigning⟩
    exact ⟨sender, sponsor, hsigners, _, hblob, walrusPkg, hpkg, _, _, hbalance, primary, others,
      hcoins, .inl (submitted_send_iff.mpr ⟨hopening, hcompose, hsigning⟩)⟩

end Submitted

/-! ## What it pays -/

section Pays

variable {w : World} {book : AddressBook} {h : Holdings}
  {coinMetadata : ExecuteOutcome CoinMetadataView} {args : ExpirationArgs} {txn : Txn}
  {primary : CoinView} {others coins : List CoinView} {system : System} {treasury : Treasury}
  {blob : BlobState} {currentEpoch : Int} {newId : String}

/-- What the coin that pays holds. -/
def available (merge : Bool) (primary : CoinView) (others : List CoinView) : Nat :=
  if merge then Greedy.total balanceOf (primary :: others) else balanceOf primary

/-- After what is merged, the coin has what is available, and no coin of
anybody else has changed. -/
theorem calls_mergeAll (hlists : Lists treasury coins) (hperm : (primary :: others).Perm coins)
    (merge : Bool) :
    ∃ ledger, Treasury.calls system newId 0 (mergeAll merge primary others) treasury =
        some { treasury with coins := ledger } ∧
      ledger.total = treasury.coins.total ∧ ledger.owned ⊆ treasury.coins.owned ∧
      ledger.Holds (.str primary.objectId) (available merge primary others) ∧
      ∀ coin amount, (unlisted treasury coins).Holds coin amount → ledger.Holds coin amount := by
  have hunion := hlists.isUnion
  unfold mergeAll available
  by_cases hmerge : merge = true ∧ others ≠ []
  · rw [if_pos hmerge, if_pos hmerge.1]
    obtain ⟨part, hpart, hholds, -⟩ :=
      merge_ownedCoins hlists.distinct hperm.subperm hmerge.2
    obtain ⟨whole, hwhole, hunion'⟩ := hunion.merge hpart
    refine ⟨whole, ?_, CoinLedger.total_merge hwhole, CoinLedger.owned_merge_subset hwhole,
      hunion'.holds hholds, fun coin amount => hunion'.holds_rest⟩
    rw [List.map_map] at hwhole
    simp only [Treasury.calls]
    show (Option.map _ (treasury.coins.merge _ _)).bind _ = _
    rw [show (others.map fun coin => Argument.str coin.objectId) =
      others.map (Argument.str ∘ CoinView.objectId) from rfl, hwhole]
    rfl
  · rw [if_neg hmerge]
    refine ⟨treasury.coins, rfl, rfl, subset_rfl, ?_, fun coin amount => hunion.holds_rest⟩
    have hprimary := hlists.held primary (hperm.subset List.mem_cons_self)
    split
    · rename_i hflag
      have hnone : others = [] := not_not.mp fun hne => hmerge ⟨hflag, hne⟩
      rw [hnone, Greedy.total_cons, Greedy.total_nil, Nat.add_zero]
      exact hprimary
    · exact hprimary

theorem le_available_iff (hsorted : richestFirst coins = primary :: others) (merge : Bool)
    (cost : Nat) :
    cost ≤ available merge primary others ↔
      (∃ coin ∈ coins, cost ≤ balanceOf coin) ∨
        merge = true ∧ cost ≤ (coins.map balanceOf).sum := by
  obtain ⟨hone, hall⟩ := richestFirst_eq_cons hsorted cost
  unfold available
  rw [← hone, ← hall, Greedy.total_cons]
  cases merge with
  | false => simp
  | true =>
    simp only [if_true, true_and]
    omega

/-- The reads answer, the Blob is `blob`, and a transaction can be made. -/
structure AnswersExpiration (w : World) (book : AddressBook) (h : Holdings)
    (coinMetadata : ExecuteOutcome CoinMetadataView) (args : ExpirationArgs) (system : System)
    (blob : BlobState) (currentEpoch : Int) (coins : List CoinView) : Prop where
  signers : ∃ parties, signersOrExit w book args.sender args.sponsor = .ok parties
  blob : ∃ obj, h.getObject args.objectId = .ok (.ok (some obj)) ∧ BlobFields.isBlobObject obj ∧
    BlobFields.blobDeletableAndEndEpoch w.parseInt obj = .ok (blob.deletable, blob.endEpoch)
  epoch : h.walrusEpoch = .ok currentEpoch
  package : walrusPackageId w = .ok system.packageId
  systemObject : w.systemObject = system.systemObject
  coins : ReadsCoins w coinMetadata coins
  opening : (h.transaction 0).opening = .ok ()
  builder : ∀ n, (h.transaction 0).builder n = .ok ()
  signing : (h.transaction 0).signing = .ok ()

theorem unexpiredBlob_eq_ok
    (hanswers : AnswersExpiration w book h coinMetadata args system blob currentEpoch coins) :
    unexpiredBlob w.parseInt h args.objectId = .ok () ↔ currentEpoch < blob.endEpoch := by
  obtain ⟨obj, hget, hisBlob, hread⟩ := hanswers.blob
  unfold unexpiredBlob
  rw [fetchBlobObject_eq_ok.mpr ⟨hget, hisBlob⟩, ok_bind, hread, hanswers.epoch]
  show (if blob.endEpoch ≤ currentEpoch then _ else _) = _ ↔ _
  split
  · rename_i hexpired
    exact iff_of_false (fun h => by cases h) (not_lt.mpr hexpired)
  · rename_i hexpired
    exact iff_of_true rfl (not_le.mp hexpired)

theorem exists_composeExpiration {builder : Builder} (hbuilder : ∀ n, builder n = .ok ())
    (systemObjId walrusPkg : String) (txn : Txn) :
    ∃ composed, composeExpiration systemObjId walrusPkg args primary others builder txn =
      .ok composed := by
  have hadd : ∀ (txn : Txn) (call : BuilderCall), txn.add builder call =
      .ok ({ txn with calls := txn.calls ++ [call] }, .result txn.commands.length) := by
    intro txn call
    rw [Txn.add, hbuilder]
    rfl
  unfold composeExpiration mergeAll
  split
  · exact ⟨_, by simp [Txn.addEach, addOnly, hadd]; rfl⟩
  · exact ⟨_, by simp [Txn.addEach, addOnly, hadd]; rfl⟩

/-- **Paid by what may be used.** A transaction is submitted if and only if
the Blob has not expired and there is a coin to pay with. It goes through
exactly if the system extends the Blob and one coin has what it takes, or all
have together where they may be merged; so where the price was not to be had from one
coin, `--merge` helps exactly if it is from all. Then the end moves by the
epochs, the price is paid, and nothing else changes. -/
theorem extendBlobExpiration_pays
    (hanswers : AnswersExpiration w book h coinMetadata args system blob currentEpoch coins)
    (hlists : Lists treasury coins) (hsettled : treasury.Settled)
    (hblob : treasury.vault.blobs args.objectId = some blob) :
    ((∃ txn, .submitted txn ∈ (extendBlobExpiration w book h coinMetadata args).log) ↔
      currentEpoch < blob.endEpoch ∧ coins ≠ []) ∧
    ∀ txn, .submitted txn ∈ (extendBlobExpiration w book h coinMetadata args).log → ∀ newId,
      ((∃ after, treasury.execute system txn newId = some after) ↔
        ∃ cost, system.cost blob args.epochs = some cost ∧
          ((∃ coin ∈ coins, cost ≤ balanceOf coin) ∨
            args.merge = true ∧ cost ≤ (coins.map balanceOf).sum)) ∧
      ∀ after, treasury.execute system txn newId = some after →
        ∃ cost, system.cost blob args.epochs = some cost ∧
          after.coins.total + cost = treasury.coins.total ∧
          after.vault = { treasury.vault with
            blobs := Function.update treasury.vault.blobs args.objectId
              (some (blob.extended args.epochs))
            paid := treasury.vault.paid + cost } ∧
          ∀ coin amount, (unlisted treasury coins).Holds coin amount →
            after.coins.Holds coin amount := by
  obtain ⟨⟨sender, sponsor⟩, hsigners⟩ := hanswers.signers
  have hcoins := hanswers.coins.coins
  refine ⟨⟨?_, ?_⟩, fun txn hsent newId => ?_⟩
  · rintro ⟨txn, hsent⟩
    obtain ⟨_, _, _, primary, others, -, hunexpired, -, -, hlisted, -⟩ :=
      submitted_extendBlobExpiration.mp hsent
    refine ⟨(unexpiredBlob_eq_ok hanswers).mp hunexpired, ?_⟩
    rintro rfl
    have hsorted := (walCoinsOrExit_eq_ok hcoins).mp hlisted
    have hperm := richestFirst_perm ([] : List CoinView)
    rw [hsorted] at hperm
    exact absurd hperm.eq_nil (List.cons_ne_nil _ _)
  · rintro ⟨hunexpired, hsome⟩
    cases hsorted : richestFirst coins with
    | nil => exact absurd (hsorted ▸ richestFirst_perm coins).nil_eq.symm hsome
    | cons primary others =>
      have hbalance : ∃ entry, walBalanceAndDecimals w coinMetadata sender = .ok entry :=
        (walBalanceAndDecimals_of_reads hanswers.coins sender).resolve_right
          fun hnone => hsome hnone.1
      obtain ⟨txn, hcompose⟩ :=
        exists_composeExpiration hanswers.builder w.systemObject system.packageId _
      exact ⟨txn, submitted_extendBlobExpiration.mpr ⟨sender, sponsor, system.packageId, primary,
        others, hsigners, (unexpiredBlob_eq_ok hanswers).mpr hunexpired, hanswers.package, hbalance,
        (walCoinsOrExit_eq_ok hcoins).mpr hsorted, hanswers.opening, hcompose, hanswers.signing⟩⟩
  · obtain ⟨_, _, walrusPkg, primary, others, -, -, hpkg, -, hlisted, -, hcompose, -⟩ :=
      submitted_extendBlobExpiration.mp hsent
    cases hanswers.package.symm.trans hpkg
    rw [hanswers.systemObject] at hcompose
    have hsorted := (walCoinsOrExit_eq_ok hcoins).mp hlisted
    have hperm : (primary :: others).Perm coins := hsorted ▸ richestFirst_perm coins
    obtain ⟨ledger, hcalls, htotal, hsubset, hholds, huntouched⟩ :=
      @calls_mergeAll primary others coins system treasury newId hlists hperm args.merge
    have hexecute := execute_extendBlob hcalls
      (fun other hother => hsettled other (hsubset hother)) (composeExpiration_eq_ok hcompose)
    have hvault : treasury.vault.extendBlob system args.objectId args.epochs =
        (system.cost blob args.epochs).map fun cost => ({ treasury.vault with
          blobs := Function.update treasury.vault.blobs args.objectId
            (some (blob.extended args.epochs))
          paid := treasury.vault.paid + cost }, cost) := by
      rw [Vault.extendBlob, hblob]
      exact Option.map_eq_bind.symm
    rw [hvault] at hexecute
    rw [hexecute]
    cases hcost : system.cost blob args.epochs with
    | none => simp
    | some cost =>
      simp only [Option.map_some, Option.bind_some, Option.some.injEq, exists_eq_left',
        ← le_available_iff hsorted]
      constructor
      · constructor
        · rintro ⟨after, hafter⟩
          obtain ⟨spent, hspend, -⟩ := Option.map_eq_some_iff.mp hafter
          rw [CoinLedger.spend, Option.ite_none_right_eq_some] at hspend
          exact hholds.2 ▸ hspend.1.2
        · intro hcovers
          obtain ⟨spent, hspend, -⟩ := CoinLedger.spend_of_holds hholds hcovers
          exact ⟨_, Option.map_eq_some_iff.mpr ⟨spent, hspend, rfl⟩⟩
      · intro after hafter
        obtain ⟨spent, hspend, rfl⟩ := Option.map_eq_some_iff.mp hafter
        refine ⟨htotal ▸ CoinLedger.total_spend hspend, rfl, fun coin amount hcoin => ?_⟩
        refine CoinLedger.holds_spend hspend (huntouched coin amount hcoin) ?_
        rintro rfl
        exact (Finset.mem_sdiff.mp hcoin.1).2
          (mem_ownedCoins.mpr ⟨primary, hperm.subset List.mem_cons_self, rfl⟩)

end Pays

/-- Two units for an epoch, and a Blob up to epoch 5. -/
def smallSystem : System := ⟨"0x1", "0x5", fun _ epochs => some (2 * epochs)⟩

def smallBlob : BlobState := ⟨"0xd", false, 10, 5⟩

def smallTreasury : Treasury where
  coins := ownedCoins threeWalCoins
  vault := {
    pools := ⟨∅, fun _ => 0⟩
    blobs := fun id => if id = "0xd" then some smallBlob else none
    wrapped := fun _ => smallBlob
    paid := 0 }

def walWorld : World :=
  { World.small with
    balances := .ok (.ok (some [⟨some "wal"⟩]))
    walCoins := .ok (.ok (some threeWalCoins)) }

def smallBlobObject : ObjectView where
  objectId := some "0xd"
  objectType := some "0x1::blob::Blob"
  ownerAddress := none
  balance := none
  json := some (.dict [(Json.key "deletable", .bool false),
    (Json.key "storage", .dict [(Json.key "end_epoch", .int 5)])])

def expirationHoldings : Holdings :=
  { acceptingHoldings with
    getObject := fun _ => .ok (.ok (some smallBlobObject))
    walrusEpoch := .ok 2 }

def nineDecimals : ExecuteOutcome CoinMetadataView := .ok (.ok (some ⟨some ⟨some 9⟩⟩))

theorem walWorld_reads : ReadsCoins walWorld nineDecimals threeWalCoins where
  balances := ⟨_, rfl, fun _ => ⟨⟨some "wal"⟩, .head _, by decide⟩⟩
  metadata := ⟨9, rfl⟩
  coins := rfl

theorem smallTreasury_lists : Lists smallTreasury threeWalCoins where
  distinct := by decide
  held _ hcoin := holds_ownedCoins (by decide) hcoin

theorem smallTreasury_settled : smallTreasury.Settled := by decide

/-- No one coin has what four epochs take. -/
theorem extendBlobExpiration_pays_small :
    ∃ txn after, .submitted txn ∈ (extendBlobExpiration walWorld ⟨fun _ => .ok (), .ok⟩
        expirationHoldings nineDecimals ⟨"0xd", 4, true, none, none⟩).log ∧
      smallTreasury.execute smallSystem txn "0xn" = some after := by
  have hanswers : AnswersExpiration walWorld ⟨fun _ => .ok (), .ok⟩ expirationHoldings nineDecimals
      ⟨"0xd", 4, true, none, none⟩ smallSystem smallBlob 2 threeWalCoins :=
    { signers := ⟨_, rfl⟩
      blob := ⟨smallBlobObject, rfl, by decide +kernel, by decide +kernel⟩
      epoch := rfl
      package := by decide +kernel
      systemObject := rfl
      coins := walWorld_reads
      opening := rfl
      builder := fun _ => rfl
      signing := rfl }
  have hpays := extendBlobExpiration_pays hanswers smallTreasury_lists smallTreasury_settled rfl
  obtain ⟨txn, hsent⟩ := hpays.1.mpr ⟨by decide, by decide⟩
  obtain ⟨after, hafter⟩ := (hpays.2 txn hsent "0xn").1.mpr ⟨8, rfl, .inr ⟨rfl, by decide⟩⟩
  exact ⟨txn, after, hsent, hafter⟩

end Pytusk.Tusky
