import Pytusk.Client
import Pytusk.Lib.Greedy

/-!
# `ops/coins.py`: choosing and checking coins
-/

namespace Pytusk.Ops

open Pytusk.Lib

variable (w : World)

def matchesWalCoinType (coinType walCoinType : String) : Bool :=
  if walCoinType ≠ "" then coinType = walCoinType
  else "::wal::WAL".toList <:+: coinType.toList

/-- `next(entry for entry in balances if ..)` -/
def isWalEntry (entry : CoinBalance) : Bool :=
  match entry.coinType with
  | some coinType => coinType ≠ "" && matchesWalCoinType coinType w.walCoinType
  | none => false

/-- `sorted(coins, key=lambda c: c.balance or 0, reverse=True)` -/
def richestFirst (coins : List CoinView) : List CoinView :=
  coins.mergeSort fun a b => b.balance.getD 0 ≤ a.balance.getD 0

def selectWalPaymentCoin (owner : String) : Except PyExn String := do
  match ← w.balances with
  | .failed resultString =>
      .error (.runtimeError s!"Cannot list coin balances for {owner}: {resultString}")
  | .ok data => do
      let balances ← World.resultData "balances" data
      match balances.find? (isWalEntry w) with
      | none => .error (.runtimeError s!"No WAL coins found for {owner}.")
      | some _ =>
          match ← w.walCoins with
          | .failed resultString =>
              .error (.runtimeError s!"Cannot list WAL coins for {owner}: {resultString}")
          | .ok data => do
              let coins ← World.resultData "objects" data
              match richestFirst coins with
              | [] => .error (.runtimeError s!"No WAL coin objects found for {owner}.")
              | coin :: _ => return coin.objectId

/-- The rendering of `sorted(owners)`, for an error text. -/
def shownOwners (owners : List String) : String :=
  w.repr (.list ((owners.dedup.mergeSort (· ≤ ·)).map fun owner =>
    .str (Json.key owner)))

/-- `assert_coin_usable`. The object's type is not among what is checked. -/
def assertCoinUsable (coinId : String) (owners : List String) (minimumBalance : Nat) :
    Except PyExn Unit := do
  match ← w.tipCoinView with
  | .failed resultString =>
      .error (.runtimeError s!"Cannot fetch coin {coinId}: {resultString}")
  | .ok data => do
      let obj ← World.resultData "owner" data
      match obj.ownerAddress with
      | none => .error (.runtimeError s!"Coin {coinId} reports no owner address.")
      | some owner =>
          if owner ∉ owners then
            let allowed := shownOwners w owners
            .error (.runtimeError <|
              s!"Coin {coinId} is owned by {owner}, not by any of {allowed}.")
          else
            match obj.balance with
            | none =>
                .error (.runtimeError
                  s!"Object {coinId} reports no balance; it is not a coin.")
            | some balance =>
                if balance < minimumBalance then
                  .error (.runtimeError <|
                    s!"Coin {coinId} balance {balance} is below the required " ++
                    s!"{minimumBalance}.")
                else .ok ()

/-- `coin.balance or 0` -/
def balanceOf (coin : CoinView) : Nat := coin.balance.getD 0

structure CoinMetadata where
  decimals : Option Nat

/-- `GetCoinMetaData` -/
structure CoinMetadataView where
  metadata : Option CoinMetadata

section ExactCoin

variable (coinMetadata : ExecuteOutcome CoinMetadataView)

def walBalanceAndDecimals (owner : String) : Except PyExn (CoinBalance × Nat) := do
  match ← w.balances with
  | .failed resultString =>
      .error (.runtimeError s!"Error listing coin balances: {resultString}")
  | .ok data => do
      let balances ← World.resultData "balances" data
      match balances.find? (isWalEntry w) with
      | none => .error (.runtimeError s!"No WAL coins found for {owner}.")
      | some walEntry =>
          match ← coinMetadata with
          | .failed resultString =>
              .error (.runtimeError s!"Error fetching WAL coin metadata: {resultString}")
          | .ok data => do
              let view ← World.resultData "metadata" data
              match view.metadata.bind CoinMetadata.decimals with
              | none =>
                  let coinType := walEntry.coinType.getD "None"
                  .error (.runtimeError
                    s!"WAL coin metadata for {coinType} has no decimals field.")
              | some decimals => return (walEntry, decimals)

/-- The loop over the other coins, until the running balance is enough. -/
def mergeSources (amount runningBalance : Nat) (coins : List CoinView) : List String :=
  (Greedy.gather balanceOf amount runningBalance coins).map CoinView.objectId

variable (builder : Builder)

/-- A call on the transaction of the caller, who sees it made. -/
def callOn (txn : Txn) (call : BuilderCall) : Logged BuilderCall PyExn (Txn × Argument) := do
  let added ← txn.add builder call
  Logged.emit call
  return added

/-- The choice among the sorted coins. -/
def coinForAmount (txn : Txn) (owner : String) (amount : Nat) :
    (coins : List CoinView) → Logged BuilderCall PyExn Argument
  | [] => Logged.raise (.runtimeError s!"No WAL coin objects found for {owner}.")
  | primary :: others =>
      let totalBalance := ((primary :: others).map balanceOf).sum
      if totalBalance < amount then
        Logged.raise (.runtimeError <|
          s!"Owner {owner} holds {totalBalance} FROST across all WAL " ++
          s!"coins, less than the requested {amount}.")
      else
        match (primary :: others).find? (fun coin => balanceOf coin = amount) with
        | some exactMatch => return .str exactMatch.objectId
        | none =>
            let split : BuilderCall := .splitCoin (.str primary.objectId) [amount]
            if balanceOf primary > amount then do
              let (_, coin) ← callOn builder txn split
              return coin
            else do
              let mergeFrom := mergeSources amount (balanceOf primary) others
              let (txn, _) ← callOn builder txn
                (.mergeCoins (.str primary.objectId) (mergeFrom.map .str))
              let (_, coin) ← callOn builder txn split
              return coin

def prepareWalCoinForAmount (txn : Txn) (owner : String) (amount : Nat) :
    Logged BuilderCall PyExn Argument := do
  let _ ← walBalanceAndDecimals w coinMetadata owner
  match ← w.walCoins with
  | .failed resultString =>
      Logged.raise (.runtimeError s!"Cannot list WAL coins for {owner}: {resultString}")
  | .ok data => do
      let objects ← World.resultData "objects" data
      coinForAmount builder txn owner amount (richestFirst objects)

end ExactCoin

end Pytusk.Ops
