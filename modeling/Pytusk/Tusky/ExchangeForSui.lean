import Pytusk.Ops.ExactCoin
import Pytusk.Ops.StorageExecute
import Pytusk.Tusky.ReclaimBurn

/-!
# `exchange_for_sui`

The command pays an amount of WAL from one coin, into which it merges others,
largest first, if it is allowed to and has to. It pays exactly the amount, out
of as few coins as can cover it.
-/

namespace Pytusk.Tusky

open Pytusk.Lib Pytusk.Ops

/-! ## The command -/

/-- `GetAddressCoinBalances`: an entry with its balance. -/
structure WalBalance where
  coinType : Option String
  balance : Option Nat
  deriving DecidableEq, Repr

/-- What the command asks for besides. -/
structure Exchange where
  networkName : String
  exchangeObjects : List String
  balances : ExecuteOutcome (List WalBalance)

structure ExchangeArgs where
  amount : Nat
  merge : Bool
  sender : Option String
  sponsor : Option String
  deriving DecidableEq, Repr

/-- `_require_testnet_exchange`, and the exchange object. -/
def requireTestnetExchange (x : Exchange) (commandName : String) : Except CliExn String :=
  match x.exchangeObjects with
  | exchangeObjId :: _ => .ok exchangeObjId
  | [] =>
      .error (.systemExit <|
        s!"{commandName} is not supported on network '{x.networkName}' " ++
          "— WAL must be acquired via a real exchange there, not the testnet swap contract.")

/-- `object_type.split("::")[0]` -/
def beforeColons : List Char → List Char
  | [] => []
  | ':' :: ':' :: _ => []
  | c :: rest => c :: beforeColons rest

def walExchangePkg (h : Holdings) (exchangeObjId : String) : Except CliExn String := do
  match ← uncaught (h.getObject exchangeObjId) with
  | .failed resultString =>
      .error (.systemExit s!"Error fetching exchange object: {resultString}")
  | .ok none =>
      .error (.raised (.attributeError "'NoneType' object has no attribute 'object_type'"))
  | .ok (some obj) =>
      match obj.objectType with
      | none => .error (.raised (.attributeError "'NoneType' object has no attribute 'split'"))
      | some objectType => return String.ofList (beforeColons objectType.toList)

/-- The balance of the first entry that is WAL. -/
def walBalance (w : World) (balances : List WalBalance) : Option Nat :=
  (balances.find? fun entry => isWalEntry w ⟨entry.coinType⟩).bind (·.balance)

/-- The balance has to be there and to cover the amount. -/
def requireWalBalance (w : World) (x : Exchange) (sender : String) (amount : Nat) :
    Except CliExn Unit := do
  match ← uncaught x.balances with
  | .failed resultString => .error (.systemExit s!"Error listing coin balances: {resultString}")
  | .ok data => do
      let balances ← uncaught (World.resultData "balances" data)
      match walBalance w balances with
      | none | some 0 => .error (.systemExit s!"No WAL coins found for sender {sender}.")
      | some balance =>
          if balance < amount then
            .error (.systemExit s!"Insufficient WAL balance: have {balance}, need {amount}.")
          else .ok ()

/-- The coins of the sender: the richest, and the others. -/
def walCoinsOrExit (w : World) (sender : String) : Except CliExn (CoinView × List CoinView) := do
  match ← uncaught w.walCoins with
  | .failed resultString => .error (.systemExit s!"Error listing WAL coins: {resultString}")
  | .ok data => do
      let objects ← uncaught (World.resultData "objects" data)
      match richestFirst objects with
      | [] => .error (.systemExit s!"No WAL coins found for sender {sender}.")
      | primary :: others => return (primary, others)

/-- The coin that pays, and what is merged into it beforehand, if anything is. -/
structure Payment where
  useCoinId : String
  useBalance : Nat
  mergeFrom : Option (List String)
  deriving DecidableEq, Repr

def choosePayment (args : ExchangeArgs) (primary : CoinView) (others : List CoinView) :
    Except CliExn Payment :=
  let useBalance := balanceOf primary
  if useBalance < args.amount then
    if !args.merge then
      .error (.systemExit <|
        s!"No single WAL coin covers --amount {args.amount} " ++
          s!"(largest available: {useBalance}); pass --merge to " ++
          "combine multiple WAL coins.")
    else
      let merged := Greedy.gather balanceOf args.amount useBalance others
      let useBalance := useBalance + Greedy.total balanceOf merged
      if useBalance < args.amount then
        .error (.systemExit <|
          "Insufficient WAL balance across owned coins: have " ++
            s!"{useBalance}, need {args.amount}.")
      else .ok ⟨primary.objectId, useBalance, some (merged.map (·.objectId))⟩
  else .ok ⟨primary.objectId, useBalance, none⟩

/-- A coin of exactly the amount is given away whole. -/
def exchangeCall (pkg exchangeObjId : String) (amount : Nat) (payment : Payment) : BuilderCall :=
  if payment.useBalance = amount then
    .moveCall (pkg ++ "::wal_exchange::exchange_all_for_sui")
      [.str exchangeObjId, .str payment.useCoinId]
  else
    .moveCall (pkg ++ "::wal_exchange::exchange_for_sui")
      [.str exchangeObjId, .str payment.useCoinId, .int amount]

def mergeInto (payment : Payment) (builder : Builder) (txn : Txn) : Except PyExn Txn :=
  match payment.mergeFrom with
  | none => .ok txn
  | some mergeFrom =>
      addOnly (.mergeCoins (.str payment.useCoinId) (mergeFrom.map .str)) builder txn

def composeExchange (pkg exchangeObjId sender : String) (amount : Nat) (payment : Payment)
    (builder : Builder) (txn : Txn) : Except PyExn Txn := do
  let txn ← mergeInto payment builder txn
  addTransferred (exchangeCall pkg exchangeObjId amount payment) sender builder txn

def exchangeResult : SuiRpcResult ExecutedTransaction → Except CliExn ExecutedTransaction
  | .failed resultString => .error (.systemExit s!"Error in exchange_for_sui: {resultString}")
  | .ok data => printResult data

def exchangeForSui (w : World) (book : AddressBook) (h : Holdings) (x : Exchange)
    (args : ExchangeArgs) : Sending ExecutedTransaction := do
  let exchangeObjId ← requireTestnetExchange x "exchange_for_sui"
  let (sender, sponsor) ← signersOrExit w book args.sender args.sponsor
  let pkg ← walExchangePkg h exchangeObjId
  requireWalBalance w x sender args.amount
  let (primary, others) ← walCoinsOrExit w sender
  let answers := h.transaction 0
  Logged.emit (.opened sender sponsor)
  Logged.lift (uncaught answers.opening)
  let payment ← Logged.lift (choosePayment args primary others)
  let txn ← Logged.lift <| uncaught <|
    composeExchange pkg exchangeObjId sender args.amount payment answers.builder
      ⟨sender, sponsor, []⟩
  Logged.emit (.signed txn)
  Logged.lift (uncaught answers.signing)
  Logged.emit (.submitted txn)
  let result ← Logged.lift (uncaught answers.execution)
  Logged.lift (exchangeResult result)

/-! ## What is submitted -/

section Submitted

variable {w : World} {book : AddressBook} {h : Holdings} {x : Exchange} {args : ExchangeArgs}
  {pkg exchangeObjId sender : String} {sponsor : Option String} {payment : Payment} {txn : Txn}

def Payment.merging (payment : Payment) : List BuilderCall :=
  match payment.mergeFrom with
  | none => []
  | some mergeFrom => [.mergeCoins (.str payment.useCoinId) (mergeFrom.map .str)]

theorem composeExchange_eq_ok {builder : Builder} {amount : Nat}
    (hok : composeExchange pkg exchangeObjId sender amount payment builder ⟨sender, sponsor, []⟩ =
      .ok txn) :
    txn.calls = payment.merging ++ [exchangeCall pkg exchangeObjId amount payment,
      .transferObjects [.result payment.merging.length] sender] := by
  obtain ⟨merged, hmerged, hrest⟩ := bind_eq_ok.mp hok
  have hcalls : merged.calls = payment.merging := by
    unfold mergeInto at hmerged
    unfold Payment.merging
    split at hmerged
    · cases hmerged
      rfl
    · rw [addOnly_eq_ok hmerged]
  obtain ⟨⟨called, result⟩, hcall, hrest⟩ := bind_eq_ok.mp hrest
  obtain ⟨⟨transferred, _⟩, htransfer, heq⟩ := bind_eq_ok.mp hrest
  obtain ⟨-, hcall⟩ := Txn.add_eq_ok.mp hcall
  obtain ⟨-, htransfer⟩ := Txn.add_eq_ok.mp htransfer
  cases hcall
  cases htransfer
  cases heq
  have hcommands : merged.commands.length = payment.merging.length := by
    rw [Txn.commands, hcalls]
    unfold Payment.merging
    split <;> rfl
  rw [hcommands, hcalls, List.append_assoc]
  rfl

/-- All that has to go well for a transaction to be submitted. -/
theorem submitted_exchangeForSui :
    .submitted txn ∈ (exchangeForSui w book h x args).log ↔
      ∃ exchangeObjId sender sponsor pkg primary others payment,
        requireTestnetExchange x "exchange_for_sui" = .ok exchangeObjId ∧
        signersOrExit w book args.sender args.sponsor = .ok (sender, sponsor) ∧
        walExchangePkg h exchangeObjId = .ok pkg ∧
        requireWalBalance w x sender args.amount = .ok () ∧
        walCoinsOrExit w sender = .ok (primary, others) ∧
        (h.transaction 0).opening = .ok () ∧
        choosePayment args primary others = .ok payment ∧
        composeExchange pkg exchangeObjId sender args.amount payment (h.transaction 0).builder
          ⟨sender, sponsor, []⟩ = .ok txn ∧
        (h.transaction 0).signing = .ok () := by
  unfold exchangeForSui
  simp only [Logged.monadLift_eq, Logged.mem_log_bind, Logged.log_lift, Logged.result_lift,
    Logged.log_emit, Logged.result_emit, List.mem_singleton, List.not_mem_nil, reduceCtorEq,
    false_or, or_false, and_false, exists_false, true_and, Sent.submitted.injEq, uncaught,
    mapError_eq_ok, Prod.exists, exists_const]
  constructor
  · rintro ⟨exchangeObjId, hrequire, sender, sponsor, hsigners, pkg, hpkg, _, hbalance, primary,
      others, hcoins, _, hopening, payment, hchoose, composed, hcompose, _, hsigning, rfl⟩
    exact ⟨exchangeObjId, sender, sponsor, pkg, primary, others, payment, hrequire, hsigners, hpkg,
      hbalance, hcoins, hopening, hchoose, hcompose, hsigning⟩
  · rintro ⟨exchangeObjId, sender, sponsor, pkg, primary, others, payment, hrequire, hsigners, hpkg,
      hbalance, hcoins, hopening, hchoose, hcompose, hsigning⟩
    exact ⟨exchangeObjId, hrequire, sender, sponsor, hsigners, pkg, hpkg, _, hbalance, primary,
      others, hcoins, _, hopening, payment, hchoose, txn, hcompose, _, hsigning, rfl⟩

end Submitted

/-! ## When it is -/

section Chosen

variable {args : ExchangeArgs} {primary : CoinView} {others coins : List CoinView}
  {payment : Payment}

/-- What is merged into the richest coin. -/
def mergedCoins (amount : Nat) (primary : CoinView) (others : List CoinView) : List CoinView :=
  Greedy.gather balanceOf amount (balanceOf primary) others

theorem mergedCoins_of_le {amount : Nat} (h : amount ≤ balanceOf primary) :
    mergedCoins amount primary others = [] := by
  cases others with
  | nil => rfl
  | cons other others => exact if_pos h

theorem choosePayment_eq_ok :
    choosePayment args primary others = .ok payment ↔
      args.amount ≤ balanceOf primary +
        Greedy.total balanceOf (mergedCoins args.amount primary others) ∧
      (args.merge = true ∨ args.amount ≤ balanceOf primary) ∧
      payment = {
        useCoinId := primary.objectId
        useBalance := balanceOf primary +
          Greedy.total balanceOf (mergedCoins args.amount primary others)
        mergeFrom := if balanceOf primary < args.amount then
          some ((mergedCoins args.amount primary others).map (·.objectId)) else none } := by
  unfold choosePayment
  dsimp only
  by_cases hless : balanceOf primary < args.amount
  · rw [if_pos hless, if_pos hless, or_iff_left (Nat.not_le.mpr hless)]
    cases args.merge with
    | false => simp
    | true =>
      show (if balanceOf primary + Greedy.total balanceOf (mergedCoins ..) < args.amount then
        _ else _) = _ ↔ _
      split
      · rename_i hshort
        exact iff_of_false (fun h => nomatch h) fun h => Nat.not_le.mpr hshort h.1
      · rename_i hcovers
        rw [and_iff_right (Nat.not_lt.mp hcovers), and_iff_right rfl]
        exact ⟨fun h => (Except.ok.inj h).symm, fun h => congrArg _ h.symm⟩
  · have hcovers := Nat.not_lt.mp hless
    rw [if_neg hless, if_neg hless, mergedCoins_of_le hcovers, Greedy.total_nil, Nat.add_zero,
      and_iff_right hcovers, and_iff_right (.inr hcovers)]
    exact ⟨fun h => (Except.ok.inj h).symm, fun h => congrArg _ h.symm⟩

/-- Some payment is chosen if one coin covers the amount, or all together do and
may be merged. -/
theorem exists_choosePayment_iff :
    (∃ payment, choosePayment args primary others = .ok payment) ↔
      args.amount ≤ balanceOf primary ∨
        args.merge = true ∧ args.amount ≤ Greedy.total balanceOf (primary :: others) := by
  simp only [choosePayment_eq_ok, exists_and_left, exists_eq, and_true, Greedy.total_cons]
  have hmerged : Greedy.total balanceOf (mergedCoins args.amount primary others) ≤
      Greedy.total balanceOf others := Greedy.total_le_of_prefix (Greedy.gather_isPrefix ..)
  constructor
  · rintro ⟨hcovers, hmerge | hprimary⟩
    · exact .inr ⟨hmerge, by omega⟩
    · exact .inl hprimary
  · rintro (hprimary | ⟨hmerge, hall⟩)
    · exact ⟨by omega, .inr hprimary⟩
    · exact ⟨Greedy.le_gather hall, .inl hmerge⟩

theorem pairwise_richestFirst (coins : List CoinView) :
    (richestFirst coins).Pairwise fun a b => balanceOf b ≤ balanceOf a := by
  have hsorted : (coins.mergeSort fun a b => decide (balanceOf b ≤ balanceOf a)).Pairwise
      fun a b => decide (balanceOf b ≤ balanceOf a) = true := by
    refine List.pairwise_mergeSort (fun a b c hab hbc => ?_) (fun a b => ?_) coins
    · exact decide_eq_true (Nat.le_trans (of_decide_eq_true hbc) (of_decide_eq_true hab))
    · simpa using Nat.le_total (balanceOf b) (balanceOf a)
  exact hsorted.imp of_decide_eq_true

theorem richestFirst_eq_cons (h : richestFirst coins = primary :: others) (amount : Nat) :
    (amount ≤ balanceOf primary ↔ ∃ coin ∈ coins, amount ≤ balanceOf coin) ∧
      Greedy.total balanceOf (primary :: others) = (coins.map balanceOf).sum := by
  have hperm := richestFirst_perm coins
  have hsorted := pairwise_richestFirst coins
  rw [h] at hperm hsorted
  refine ⟨⟨fun hle => ⟨primary, hperm.subset List.mem_cons_self, hle⟩, ?_⟩,
    Greedy.total_perm hperm⟩
  rintro ⟨coin, hcoin, hle⟩
  rcases List.mem_cons.mp (hperm.mem_iff.mpr hcoin) with rfl | hmem
  · exact hle
  · exact Nat.le_trans hle ((List.pairwise_cons.mp hsorted).1 coin hmem)

end Chosen

/-! ## Paying -/

/-- The WAL coins of the sender, and the WAL that was exchanged. -/
structure WalSide where
  ledger : CoinLedger Argument
  exchanged : Nat

/-- What a call does to the WAL. -/
def WalSide.step (pkg : String) (side : WalSide) : BuilderCall → Option WalSide
  | .mergeCoins mergeTo mergeFrom =>
      (side.ledger.merge mergeTo mergeFrom).map ({ side with ledger := · })
  | .moveCall target [.str _, coin] =>
      if target = pkg ++ "::wal_exchange::exchange_all_for_sui" then
        (side.ledger.consume coin).map
          (⟨·, side.exchanged + side.ledger.balance coin⟩)
      else none
  | .moveCall target [.str _, coin, .int amount] =>
      if target = pkg ++ "::wal_exchange::exchange_for_sui" ∧ 0 ≤ amount then
        (side.ledger.spend coin amount.toNat).map (⟨·, side.exchanged + amount.toNat⟩)
      else none
  | .transferObjects _ _ => some side
  | _ => none

section Paying

variable {args : ExchangeArgs} {pkg exchangeObjId sender : String} {primary : CoinView}
  {others coins : List CoinView} {payment : Payment} {ledger : CoinLedger Argument}

/-- The coins that a payment uses: few of the listed ones. -/
def usedCoins (amount : Nat) (primary : CoinView) (others : List CoinView) : List CoinView :=
  primary :: mergedCoins amount primary others

theorem usedCoins_isPrefix (amount : Nat) :
    usedCoins amount primary others <+: primary :: others :=
  List.cons_prefix_cons.mpr ⟨rfl, Greedy.gather_isPrefix ..⟩

/-- Distinct coins are merged, and no others are touched. -/
theorem merge_ownedCoins {merged : List CoinView}
    (hdistinct : (coins.map CoinView.objectId).Nodup)
    (hsub : (primary :: merged).Subperm coins) (hsome : merged ≠ []) :
    ∃ ledger, (ownedCoins coins).merge (.str primary.objectId)
        ((merged.map (·.objectId)).map .str) = some ledger ∧
      ledger.Holds (.str primary.objectId) (Greedy.total balanceOf (primary :: merged)) ∧
      ∀ coin ∈ coins, coin ∉ primary :: merged →
        ledger.Holds (.str coin.objectId) (balanceOf coin) := by
  have hholds : ∀ coin ∈ primary :: merged,
      (ownedCoins coins).Holds (.str coin.objectId) (balanceOf coin) := fun coin hcoin =>
    holds_ownedCoins hdistinct (hsub.subset hcoin)
  have hinj : Function.Injective Argument.str := fun _ _ h => Argument.str.inj h
  have hnodup : (Argument.str primary.objectId ::
      (merged.map (·.objectId)).map Argument.str).Nodup := by
    obtain ⟨sublist, hperm, hsublist⟩ := hsub
    have hids := (hperm.map CoinView.objectId).nodup_iff.mp
      ((hsublist.map CoinView.objectId).nodup hdistinct)
    exact hids.map hinj
  have hsources : ∀ source ∈ (merged.map (·.objectId)).map Argument.str,
      source ∈ (ownedCoins coins).owned := by
    intro source hsource
    obtain ⟨_, hid, rfl⟩ := List.mem_map.mp hsource
    obtain ⟨coin, hcoin, rfl⟩ := List.mem_map.mp hid
    exact (hholds coin (List.mem_cons_of_mem _ hcoin)).1
  have hbalances : ((merged.map (·.objectId)).map Argument.str).map (ownedCoins coins).balance =
      merged.map balanceOf := by
    rw [List.map_map, List.map_map]
    exact List.map_congr_left fun coin hcoin => (hholds coin (List.mem_cons_of_mem _ hcoin)).2
  obtain ⟨ledger, hmerge, -, hprimary⟩ := CoinLedger.exists_merge
    (hholds primary List.mem_cons_self).1 hsources hnodup (by simpa using hsome)
  rw [hbalances, (hholds primary List.mem_cons_self).2] at hprimary
  refine ⟨ledger, hmerge, hprimary, fun coin hcoin hunused => ?_⟩
  refine CoinLedger.holds_merge hmerge (holds_ownedCoins hdistinct hcoin) fun hmem => hunused ?_
  have hid : coin.objectId ∈ (primary :: merged).map CoinView.objectId :=
    (List.mem_map_of_injective hinj).mp hmem
  obtain ⟨used, hused, heq⟩ := List.mem_map.mp hid
  exact List.inj_on_of_nodup_map hdistinct (hsub.subset hused) hcoin heq ▸ hused

/-- What the merging leaves, if there is any. -/
structure Merged (args : ExchangeArgs) (primary : CoinView) (others coins : List CoinView)
    (ledger : CoinLedger Argument) : Prop where
  total : ledger.total = (coins.map balanceOf).sum
  holds : ledger.Holds (.str primary.objectId)
    (Greedy.total balanceOf (usedCoins args.amount primary others))
  untouched : ∀ coin ∈ coins, coin ∉ usedCoins args.amount primary others →
    ledger.Holds (.str coin.objectId) (balanceOf coin)

variable (pkg) in
theorem run_merging (hdistinct : (coins.map CoinView.objectId).Nodup)
    (hperm : (primary :: others).Perm coins)
    (hchoose : choosePayment args primary others = .ok payment) :
    ∃ ledger, Lts.run (WalSide.step pkg) ⟨ownedCoins coins, 0⟩ payment.merging =
        some ⟨ledger, 0⟩ ∧ Merged args primary others coins ledger := by
  obtain ⟨hcovers, -, rfl⟩ := choosePayment_eq_ok.mp hchoose
  have hprimary : (ownedCoins coins).Holds (.str primary.objectId) (balanceOf primary) :=
    holds_ownedCoins hdistinct (hperm.subset List.mem_cons_self)
  unfold Payment.merging
  dsimp only
  by_cases hless : balanceOf primary < args.amount
  · rw [if_pos hless]
    have hsub : (usedCoins args.amount primary others).Subperm coins :=
      ((usedCoins_isPrefix args.amount).sublist.subperm).trans hperm.subperm
    have hsome : mergedCoins args.amount primary others ≠ [] := by
      intro hnone
      rw [hnone, Greedy.total_nil] at hcovers
      omega
    obtain ⟨ledger, hmerge, hholds, huntouched⟩ := merge_ownedCoins hdistinct hsub hsome
    refine ⟨ledger, ?_, ?_, hholds, huntouched⟩
    · rw [Lts.run_cons, WalSide.step, hmerge]
      rfl
    · rw [CoinLedger.total_merge hmerge, total_ownedCoins hdistinct]
  · rw [if_neg hless]
    have hnone : mergedCoins args.amount primary others = [] :=
      mergedCoins_of_le (Nat.not_lt.mp hless)
    refine ⟨ownedCoins coins, rfl, total_ownedCoins hdistinct, ?_, fun coin hcoin _ =>
      holds_ownedCoins hdistinct hcoin⟩
    rw [usedCoins, hnone, Greedy.total_cons, Greedy.total_nil, Nat.add_zero]
    exact hprimary

variable (pkg exchangeObjId) in
/-- The exchange takes the amount from the coin that pays. -/
theorem step_exchangeCall {amount : Nat} (hcovers : amount ≤ payment.useBalance)
    (hholds : ledger.Holds (.str payment.useCoinId) payment.useBalance) :
    ∃ after, WalSide.step pkg ⟨ledger, 0⟩ (exchangeCall pkg exchangeObjId amount payment) =
        some ⟨after, amount⟩ ∧ after.total + amount = ledger.total ∧
      ∀ coin balance, coin ≠ .str payment.useCoinId → ledger.Holds coin balance →
        after.Holds coin balance := by
  unfold exchangeCall
  split
  · rename_i hexact
    obtain ⟨after, hconsume⟩ := CoinLedger.consume_of_holds hholds
    have hgiven : ledger.balance (.str payment.useCoinId) = amount := hholds.2.trans hexact
    refine ⟨after, ?_, ?_, fun coin balance hne hcoin =>
      CoinLedger.holds_consume hconsume hcoin hne⟩
    · rw [WalSide.step, if_pos rfl, hconsume, Option.map_some, hgiven, Nat.zero_add]
    · rw [← hgiven, CoinLedger.total_consume hconsume]
  · obtain ⟨after, hspend, -⟩ := CoinLedger.spend_of_holds hholds hcovers
    refine ⟨after, ?_, CoinLedger.total_spend hspend, fun coin balance hne hcoin =>
      CoinLedger.holds_spend hspend hcoin hne⟩
    rw [WalSide.step, if_pos ⟨rfl, Int.natCast_nonneg amount⟩, Int.toNat_natCast, hspend,
      Option.map_some, Nat.zero_add]

variable (pkg exchangeObjId) in
/-- What is composed for a payment pays the amount, out of the coins used. -/
theorem run_payment (hdistinct : (coins.map CoinView.objectId).Nodup)
    (hperm : (primary :: others).Perm coins)
    (hchoose : choosePayment args primary others = .ok payment) (recipient : String) :
    ∃ after, Lts.run (WalSide.step pkg) ⟨ownedCoins coins, 0⟩
        (payment.merging ++ [exchangeCall pkg exchangeObjId args.amount payment,
          .transferObjects [.result payment.merging.length] recipient]) =
          some ⟨after, args.amount⟩ ∧
      after.total + args.amount = (coins.map balanceOf).sum ∧
      ∀ coin ∈ coins, coin ∉ usedCoins args.amount primary others →
        after.Holds (.str coin.objectId) (balanceOf coin) := by
  obtain ⟨ledger, hrun, hmerged⟩ := run_merging pkg hdistinct hperm hchoose
  obtain ⟨hcovers, -, hpayment⟩ := choosePayment_eq_ok.mp hchoose
  have hcovers : args.amount ≤ payment.useBalance := by rwa [hpayment]
  have hholds : ledger.Holds (.str payment.useCoinId) payment.useBalance := by
    have hholds := hmerged.holds
    rw [usedCoins, Greedy.total_cons] at hholds
    rwa [hpayment]
  obtain ⟨after, hstep, htotal, huntouched⟩ := step_exchangeCall pkg exchangeObjId hcovers hholds
  refine ⟨after, Lts.run_append_eq_some.mpr ⟨_, hrun, ?_⟩, htotal.trans hmerged.total, ?_⟩
  · rw [Lts.run_cons, hstep]
    rfl
  · intro coin hcoin hunused
    refine huntouched _ _ (fun heq => hunused ?_) (hmerged.untouched coin hcoin hunused)
    have hprimary : primary ∈ coins := hperm.subset List.mem_cons_self
    rw [hpayment] at heq
    rw [List.inj_on_of_nodup_map hdistinct hcoin hprimary (Argument.str.inj heq)]
    exact List.mem_cons_self

/-! ## The exchange -/

variable {w : World} {book : AddressBook} {h : Holdings} {x : Exchange} {sponsor : Option String}
  {balances : List WalBalance} {txn : Txn}

/-- All that is asked for is answered. -/
structure AnswersExchange (w : World) (book : AddressBook) (h : Holdings) (x : Exchange)
    (args : ExchangeArgs) (pkg : String) (balances : List WalBalance)
    (coins : List CoinView) : Prop where
  exchange : ∃ exchangeObjId, requireTestnetExchange x "exchange_for_sui" = .ok exchangeObjId ∧
    walExchangePkg h exchangeObjId = .ok pkg
  signers : ∃ signers, signersOrExit w book args.sender args.sponsor = .ok signers
  balances : x.balances = .ok (.ok (some balances))
  coins : w.walCoins = .ok (.ok (some coins))
  opening : (h.transaction 0).opening = .ok ()
  builder : ∀ n, (h.transaction 0).builder n = .ok ()
  signing : (h.transaction 0).signing = .ok ()

theorem requireWalBalance_eq_ok {amount : Nat}
    (hbalances : x.balances = .ok (.ok (some balances))) :
    requireWalBalance w x sender amount = .ok () ↔
      ∃ balance, walBalance w balances = some balance ∧ balance ≠ 0 ∧ amount ≤ balance := by
  unfold requireWalBalance
  rw [hbalances]
  show (match walBalance w balances with | none | some 0 => _ | some balance => _) = _ ↔ _
  cases walBalance w balances with
  | none => simp
  | some balance =>
    cases balance with
    | zero => simp
    | succ n =>
      simp only [Option.some.injEq, exists_eq_left', ne_eq, Nat.succ_ne_zero, not_false_eq_true,
        true_and]
      split
      · rename_i hless
        exact iff_of_false (fun h => nomatch h) (Nat.not_le.mpr hless)
      · rename_i hcovers
        exact iff_of_true rfl (Nat.not_lt.mp hcovers)

theorem walCoinsOrExit_eq_ok (hcoins : w.walCoins = .ok (.ok (some coins))) :
    walCoinsOrExit w sender = .ok (primary, others) ↔ richestFirst coins = primary :: others := by
  unfold walCoinsOrExit
  rw [hcoins]
  show (match richestFirst coins with | [] => _ | primary :: others => _) = _ ↔ _
  cases richestFirst coins with
  | nil => simp
  | cons first rest => simp

theorem exists_composeExchange {builder : Builder} (hbuilder : ∀ n, builder n = .ok ())
    (amount : Nat) (txn : Txn) :
    ∃ composed, composeExchange pkg exchangeObjId sender amount payment builder txn =
      .ok composed := by
  have hadd : ∀ (txn : Txn) (call : BuilderCall), txn.add builder call =
      .ok ({ txn with calls := txn.calls ++ [call] }, .result txn.commands.length) := by
    intro txn call
    rw [Txn.add, hbuilder]
    rfl
  unfold composeExchange mergeInto
  cases payment.mergeFrom with
  | none => exact ⟨_, by simp [addTransferred, hadd]; rfl⟩
  | some mergeFrom => exact ⟨_, by simp [addTransferred, addOnly, hadd]; rfl⟩

/-- **Exactly the amount, from as few coins as can be.** A transaction is
submitted if and only if the balance that is reported covers the amount and so
does one coin, or all of them where they may be merged. It runs, and exchanges
the amount; no other WAL is gone, and no coin is touched beyond those it uses,
of which no fewer would have done. -/
theorem exchangeForSui_exact (hanswers : AnswersExchange w book h x args pkg balances coins)
    (hpos : 0 < args.amount) (hdistinct : (coins.map CoinView.objectId).Nodup) :
    ((∃ txn, .submitted txn ∈ (exchangeForSui w book h x args).log) ↔
      (∃ balance, walBalance w balances = some balance ∧ args.amount ≤ balance) ∧
        ((∃ coin ∈ coins, args.amount ≤ balanceOf coin) ∨
          args.merge = true ∧ args.amount ≤ (coins.map balanceOf).sum)) ∧
    ∀ txn, .submitted txn ∈ (exchangeForSui w book h x args).log →
      ∃ (used : List CoinView) (after : CoinLedger Argument), used.Subperm coins ∧
        Lts.run (WalSide.step pkg) ⟨ownedCoins coins, 0⟩ txn.calls =
          some ⟨after, args.amount⟩ ∧
        after.total + args.amount = (coins.map balanceOf).sum ∧
        (∀ coin ∈ coins, coin ∉ used → after.Holds (.str coin.objectId) (balanceOf coin)) ∧
        ∀ chosen : List CoinView, chosen.Subperm coins →
          args.amount ≤ (chosen.map balanceOf).sum → used.length ≤ chosen.length := by
  obtain ⟨exchangeObjId, hexchange, hpkg⟩ := hanswers.exchange
  obtain ⟨⟨sender, sponsor⟩, hsigners⟩ := hanswers.signers
  refine ⟨⟨?_, ?_⟩, ?_⟩
  · rintro ⟨txn, hsent⟩
    obtain ⟨_, sender', _, _, primary, others, payment, -, -, -, hbalance, hcoins, -, hchoose, -⟩ :=
      submitted_exchangeForSui.mp hsent
    obtain ⟨balance, hentry, -, hcovers⟩ := (requireWalBalance_eq_ok hanswers.balances).mp hbalance
    have hsorted := (walCoinsOrExit_eq_ok hanswers.coins).mp hcoins
    obtain ⟨hone, hall⟩ := richestFirst_eq_cons hsorted args.amount
    refine ⟨⟨balance, hentry, hcovers⟩, ?_⟩
    rw [← hone, ← hall]
    exact exists_choosePayment_iff.mp ⟨payment, hchoose⟩
  · rintro ⟨⟨balance, hentry, hcovers⟩, henough⟩
    cases hsorted : richestFirst coins with
    | nil =>
      have hnil : coins = [] := (hsorted ▸ richestFirst_perm coins).nil_eq.symm
      rw [hnil] at henough
      simp at henough
      omega
    | cons primary others =>
      obtain ⟨hone, hall⟩ := richestFirst_eq_cons hsorted args.amount
      rw [← hone, ← hall] at henough
      obtain ⟨payment, hchoose⟩ := exists_choosePayment_iff.mpr henough
      obtain ⟨txn, hcompose⟩ := exists_composeExchange hanswers.builder args.amount _
      exact ⟨txn, submitted_exchangeForSui.mpr ⟨exchangeObjId, sender, sponsor, pkg, primary,
        others, payment, hexchange, hsigners, hpkg,
        (requireWalBalance_eq_ok hanswers.balances).mpr ⟨balance, hentry, by omega, hcovers⟩,
        (walCoinsOrExit_eq_ok hanswers.coins).mpr hsorted, hanswers.opening, hchoose, hcompose,
        hanswers.signing⟩⟩
  · intro txn hsent
    obtain ⟨exchangeObjId', sender', sponsor', pkg', primary, others, payment, hexchange', -, hpkg',
      -, hcoins, -, hchoose, hcompose, -⟩ := submitted_exchangeForSui.mp hsent
    cases hexchange.symm.trans hexchange'
    cases hpkg.symm.trans hpkg'
    have hsorted := (walCoinsOrExit_eq_ok hanswers.coins).mp hcoins
    have hperm : (primary :: others).Perm coins := hsorted ▸ richestFirst_perm coins
    obtain ⟨after, hrun, htotal, huntouched⟩ := run_payment pkg exchangeObjId
      hdistinct hperm hchoose sender'
    refine ⟨usedCoins args.amount primary others, after,
      ((usedCoins_isPrefix args.amount).sublist.subperm).trans hperm.subperm, ?_, htotal,
      huntouched, fun chosen hchosen hcovers => ?_⟩
    · rw [composeExchange_eq_ok hcompose]
      exact hrun
    · have hfalling := pairwise_richestFirst coins
      rw [hsorted] at hfalling
      refine Greedy.length_gather_le hfalling (hchosen.trans hperm.symm.subperm) hcovers ?_
      rintro rfl
      simp at hcovers
      omega

end Paying

def threeWalCoins : List CoinView := [⟨"0xa", some 3⟩, ⟨"0xb", some 5⟩, ⟨"0xc", some 4⟩]

/-- A sender with three coins. -/
def exchangeWorld : World := { World.small with walCoins := .ok (.ok (some threeWalCoins)) }

def exchangeHoldings : Holdings :=
  { acceptingHoldings with
    getObject := fun _ => .ok (.ok (some ⟨some "0xe", some "0x9::wal_exchange::Exchange", none,
      none, none⟩)) }

def smallExchange : Exchange := ⟨"testnet", ["0xe"], .ok (.ok (some [⟨some "wal", some 12⟩]))⟩

/-- Two of the coins are enough. -/
theorem exchangeForSui_exact_small :
    ∃ txn, .submitted txn ∈ (exchangeForSui exchangeWorld ⟨fun _ => .ok (), .ok⟩ exchangeHoldings
      smallExchange ⟨9, true, none, none⟩).log := by
  have hanswers : AnswersExchange exchangeWorld ⟨fun _ => .ok (), .ok⟩ exchangeHoldings
      smallExchange ⟨9, true, none, none⟩ "0x9" [⟨some "wal", some 12⟩] threeWalCoins :=
    ⟨⟨"0xe", rfl, by decide⟩, ⟨_, rfl⟩, rfl, rfl, rfl, fun _ => rfl, rfl⟩
  exact (exchangeForSui_exact hanswers (by decide) (by decide)).1.mpr
    ⟨⟨12, by decide, by decide⟩, .inr ⟨rfl, by decide⟩⟩

end Pytusk.Tusky
