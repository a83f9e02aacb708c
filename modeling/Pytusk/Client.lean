import Pytusk.Chain.BlobFields
import Pytusk.Chain.Transaction
import Pytusk.Lib.Logged
import Pytusk.NativeUpload.Confirm
import Pytusk.NativeUpload.Fanout
import Pytusk.Types.Tips

/-!
# `client/walrus_client.py`: the outside of the write path

A write is a deterministic program against what answers it: the chain, the
storage nodes, the relay, the extensions and the Python runtime. `World`
holds every answer a write can ask for, and `Event` is what the outside sees
a write do. A run is the evaluation of a pipeline under a `World`; the claims
about all runs quantify over all of them.

Two answers come out of machines of their own, the sliver fan-out and the
collection of confirmations. `World.Possible` ties these to the machines.
-/

namespace Pytusk

open Pytusk.Lib

/-- The two transactions of a write. -/
inductive TxLabel where
  | tx1
  | tx2
  deriving DecidableEq, Repr

/-- `commands.relay_commands.WriteRelayBlob` -/
structure WriteRelayBlob where
  blobId : String
  data : Bytes
  registerTipTxDigest : Option String
  nonce : Option String
  deletableBlobObject : Option String
  deriving DecidableEq, Repr

/-- What the outside sees. -/
inductive Event where
  /-- `client.transaction(initial_sender=.., initial_sponsor=..)` -/
  | opened (tx : TxLabel) (sender : String) (sponsor : Option String)
  /-- `txn.build_and_sign()` -/
  | signed (tx : TxLabel) (txn : Txn)
  /-- `client.execute(command=ExecuteTransaction(..))` -/
  | submitted (tx : TxLabel) (txn : Txn)
  | readEpoch
  | readCommittee
  | uploading (upload : SliverFanout.Upload)
  /-- the `k`-th collection of confirmations -/
  | collecting (k : Nat) (query : Confirm.Query)
  | posted (command : WriteRelayBlob)
  /-- `add_certify`, by the committee its caller verified against -/
  | certifying (committee : WalrusCommittee) (registration : Registration)
      (certificate : Certificate)

/-- What answers the calls one transaction makes. -/
structure TxAnswers where
  opening : Except PyExn Unit
  builder : Builder
  signing : Except PyExn Unit
  execution : ExecuteOutcome ExecutedTransaction

/-- `GetTransaction`, of which only the checkpoint is read. -/
structure TransactionView where
  checkpoint : Option Nat
  deriving DecidableEq, Repr

structure CoinBalance where
  coinType : Option String
  deriving DecidableEq, Repr

structure CoinView where
  objectId : String
  balance : Option Nat
  deriving DecidableEq, Repr

/-- The relay's HTTP response, with what `response.text` and `response.json()`
return or raise: the charset it names may not decode to text, and its body may
be no JSON, or nested past the interpreter's recursion limit. -/
structure RelayResponse where
  statusCode : Nat
  text : Except PyExn String
  json : Except PyExn Json

/-- One POST: a response, the text of the transport failure, or an exception
that `_send` does not take for one. -/
inductive RelayExchange where
  | unreachable (resultString : String)
  | raised (exc : PyExn)
  | response (response : RelayResponse)

structure World where
  -- the runtime and the extensions
  parseInt : PyStr → Option Int
  repr : Json → String
  sha256 : Bytes → Bytes
  tokenBytes : Bytes
  bls : Bls
  redstuffEncode : Bytes → Nat → Except PyExn RedstuffEncoding
  -- the configuration
  activeAddress : String
  systemObject : String
  walCoinType : String
  keypairForAddress : String → Except PyExn Unit
  relayUrlFor : Option String → Except PyExn String
  -- the chain
  committee : Nat → Except PyExn WalrusCommittee
  epoch : Nat → Except PyExn Nat
  systemView : ExecuteOutcome ObjectView
  balances : ExecuteOutcome (List CoinBalance)
  walCoins : ExecuteOutcome (List CoinView)
  tipCoinView : ExecuteOutcome ObjectView
  transaction : TxLabel → TxAnswers
  finality : Nat → ExecuteOutcome TransactionView
  blobView : ExecuteOutcome ObjectView
  -- the storage nodes
  slivers : Except PyExn SliverFanout.FanoutReport
  confirmations : Nat → Except PyExn Certificate
  nodeAnswers : Nat → Nat → ExecuteOutcome Confirm.SignedConfirmation
  -- the relay
  tipConfig : ExecuteOutcome TipConfig
  relay : Nat → RelayExchange

/-- A program that asks the outside. -/
abbrev Program := Logged Event PyExn

/-- `value or default`, on strings. -/
def pyOr (value : Option String) (default : String) : String :=
  match value with
  | some s => if s = "" then default else s
  | none => default

theorem pyOr_cases (value : Option String) (default : String) :
    pyOr value default = default ∨ value = some (pyOr value default) := by
  cases value with
  | none => exact .inl rfl
  | some s =>
    by_cases hs : s = ""
    · exact .inl (by simp [pyOr, hs])
    · exact .inr (by simp [pyOr, hs])

/-- Defaulting twice is defaulting once. -/
@[simp] theorem pyOr_some_pyOr (value : Option String) (default : String) :
    pyOr (some (pyOr value default)) default = pyOr value default := by
  show (if pyOr value default = "" then default else pyOr value default) = pyOr value default
  split
  · rename_i hempty
    rcases pyOr_cases value default with h | h
    · exact h.symm
    · rw [h, hempty]
      rfl
  · rfl

namespace World

/-- `client.execute(..)`; a failed call has no data. -/
def resultData {α : Type} (field : String) : Option α → Except PyExn α
  | some data => .ok data
  | none =>
      .error (.attributeError s!"'NoneType' object has no attribute '{field}'")

/-- The answers the two machines gave are ends of a run of theirs. -/
def Possible (w : World) : Event → Prop
  | .uploading u => SliverFanout.Uploads u w.slivers
  | .collecting k q => Confirm.Collects q (w.confirmations k)
  | _ => True

/-! ### A small world -/

/-- The confirmation every answer of the small world carries. -/
private def smallMessage : Bytes := [0, 0, 0, 1, 0, 0, 0] ++ List.replicate 32 7

/-- The view of an object that has only its JSON. -/
private def smallView (json : Json) : ObjectView where
  objectId := none
  objectType := none
  ownerAddress := none
  balance := none
  json := some json

/-- A transaction that succeeds, with these changes. -/
def succeeding (changedObjects : List ChangedObject) : TxAnswers where
  opening := .ok ()
  builder _ := .ok ()
  signing := .ok ()
  execution := .ok (.ok (some {
    digest := "digest"
    effects := some {
      status := some ⟨true, none⟩
      changedObjects := changedObjects } }))

/-- One storage node with the one shard; every call succeeds, and `[1]` is the
one good signature. -/
def small : World where
  parseInt _ := none
  repr _ := ""
  sha256 _ := List.replicate 32 4
  tokenBytes := List.replicate 32 5
  bls := {
    confirmationBytes := fun epoch blobId _ =>
      [0, 0, 0] ++ LittleEndian.encode 4 epoch ++ blobId
    aggregate := fun signatures => .ok (if signatures.all (· = [1]) then [1] else [0])
    aggregateVerify := fun aggregate _ _ => .ok (aggregate = [1])
    verify := fun _ signature _ => .ok (signature = [1]) }
  redstuffEncode _ _ := .ok {
    blobId := List.replicate 32 7
    rootHash := List.replicate 32 8
    slivers := [⟨0, [1], [2]⟩]
    metadataBcs := [3] }
  activeAddress := "0xa"
  systemObject := "0x5"
  walCoinType := "wal"
  keypairForAddress _ := .ok ()
  relayUrlFor _ := .ok "relay"
  committee _ := .ok ⟨1, 1, [⟨"node", [0], "node:1", [6]⟩]⟩
  epoch _ := .ok 1
  systemView := .ok (.ok (some (smallView
    (.dict [(Json.key "package_id", .str (Json.key "0x1"))]))))
  balances := .ok (.ok none)
  walCoins := .ok (.ok none)
  tipCoinView := .ok (.ok none)
  transaction _ := succeeding [⟨some "0xb", .created, some ⟨some "0xa"⟩⟩]
  finality _ := .ok (.ok (some ⟨some 1⟩))
  blobView := .ok (.ok (some (smallView (.dict [
    (Json.key "storage", .dict [(Json.key "end_epoch", .int 9)]),
    (Json.key "deletable", .bool false)]))))
  slivers := .ok ⟨[⟨"node", 0, 1, true, none⟩], 1, 1⟩
  confirmations _ := .ok ⟨smallMessage, [1], [1], [0], 1⟩
  nodeAnswers _ _ := .ok (.ok (some ⟨smallMessage, [1]⟩))
  tipConfig := .ok (.ok (some ⟨some "0xd", some (.constTip 5)⟩))
  relay _ := .response {
    statusCode := 200
    text := .ok ""
    json := .ok (.dict [
      (Json.key "blob_id", .none),
      (Json.key "confirmation_certificate", .dict [
        (Json.key "signers", .list [.int 0]),
        (Json.key "serialized_message",
          .list (smallMessage.map fun byte => .int byte.toNat)),
        (Json.key "signature", .str (Json.key "AQ=="))])]) }

end World

end Pytusk
