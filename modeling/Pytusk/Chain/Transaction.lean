import Pytusk.Chain.Effects
import Pytusk.Lib.ExceptRules
import Pytusk.Types.Protocols
import Pytusk.Chain.Committee

/-!
# Programmable transactions

The transaction builder as the composing code uses it: the calls made on it,
in order. `input_pure` adds an input and no command; every other call adds a
command, whose result a later call may take, and its own arguments as inputs.
The builder is not this code's: it may raise at any call.
-/

namespace Pytusk

open Pytusk.Lib

/-- An argument, as it is handed to the builder. -/
inductive Argument where
  | gas
  | result (command : Nat)
  | str (s : String)
  | int (n : Int)
  | bool (b : Bool)
  | bytes (b : Bytes)
  deriving DecidableEq, Repr

/-- A call on the builder. -/
inductive BuilderCall where
  | inputPure (value : Bytes)
  | splitCoin (coin : Argument) (amounts : List Nat)
  | mergeCoins (mergeTo : Argument) (mergeFrom : List Argument)
  | transferObjects (transfers : List Argument) (recipient : String)
  | moveCall (target : String) (arguments : List Argument)
  deriving DecidableEq, Repr

/-- Does an argument become an input of the transaction? -/
def Argument.isInput : Argument → Bool
  | .gas | .result _ => false
  | _ => true

/-- The inputs a call adds. -/
def BuilderCall.inputs : BuilderCall → List Argument
  | .inputPure value => [.bytes value]
  | .splitCoin coin amounts =>
      [coin].filter Argument.isInput ++ amounts.map fun amount => .int amount
  | .mergeCoins mergeTo mergeFrom => (mergeTo :: mergeFrom).filter Argument.isInput
  | .transferObjects transfers recipient =>
      transfers.filter Argument.isInput ++ [.str recipient]
  | .moveCall _ arguments => arguments.filter Argument.isInput

def BuilderCall.isCommand : BuilderCall → Bool
  | .inputPure _ => false
  | _ => true

/-- `AsyncSuiTransaction` -/
structure Txn where
  sender : String
  sponsor : Option String
  calls : List BuilderCall
  deriving DecidableEq, Repr

/-- Where a builder raises: asked before each call, by the number of calls
made so far. -/
abbrev Builder := Nat → Except PyExn Unit

namespace Txn

def inputs (txn : Txn) : List Argument := txn.calls.flatMap BuilderCall.inputs

def commands (txn : Txn) : List BuilderCall := txn.calls.filter BuilderCall.isCommand

/-- Make a call, and name its result. -/
def add (builder : Builder) (txn : Txn) (call : BuilderCall) :
    Except PyExn (Txn × Argument) := do
  builder txn.calls.length
  return ({ txn with calls := txn.calls ++ [call] }, .result txn.commands.length)

theorem add_eq_ok {builder : Builder} {txn : Txn} {call : BuilderCall}
    {r : Txn × Argument} :
    txn.add builder call = .ok r ↔
      builder txn.calls.length = .ok () ∧
        ({ txn with calls := txn.calls ++ [call] }, .result txn.commands.length) = r := by
  rw [add, bind_eq_ok]
  constructor
  · rintro ⟨⟨⟩, hbuilder, hr⟩
    exact ⟨hbuilder, Except.ok.inj hr⟩
  · rintro ⟨hbuilder, rfl⟩
    exact ⟨(), hbuilder, rfl⟩

/-- Make one call for each item of a list. -/
def addEach {α : Type} (builder : Builder) (call : α → BuilderCall) (items : List α)
    (txn : Txn) : Except PyExn Txn :=
  items.foldlM (fun txn item => do
    let (txn, _) ← txn.add builder (call item)
    return txn) txn

theorem addEach_eq_ok {α : Type} {builder : Builder} {call : α → BuilderCall} {items : List α}
    {txn txn' : Txn} (h : txn.addEach builder call items = .ok txn') :
    txn' = { txn with calls := txn.calls ++ items.map call } := by
  induction items generalizing txn with
  | nil =>
    cases h
    simp
  | cons item rest ih =>
    obtain ⟨next, hnext, hrest⟩ := bind_eq_ok.mp h
    obtain ⟨⟨added, _⟩, hcall, heq⟩ := bind_eq_ok.mp hnext
    obtain ⟨-, hadded⟩ := add_eq_ok.mp hcall
    cases heq
    cases hadded
    rw [ih hrest]
    simp

end Txn

end Pytusk
