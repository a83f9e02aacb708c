import Pytusk.Client

/-!
# Executing one transaction

What the `execute_*` wrappers of `ops/` do besides composing: open, sign,
submit, and take the effects only if they report success.
-/

namespace Pytusk.Ops

open Pytusk.Lib

/-- What the outside sees of a wrapper: the transactions it submits. -/
abbrev Submission := Logged Txn PyExn

/-- What is made of the answer to a transaction. -/
def executedEffects (label : String) (answer : ExecuteOutcome ExecutedTransaction) :
    Except PyExn (ExecutedTransaction × TransactionEffects) := do
  match ← answer with
  | .failed resultString =>
      .error (.runtimeError s!"{label} transaction failed: {resultString}")
  | .ok data =>
      let executed ← World.resultData "effects" data
      let effects ← Effects.requireSuccess executed label
      return (executed, effects)

def executeTxn (answers : TxAnswers) (sender : String) (sponsor : Option String)
    (compose : Builder → Txn → Except PyExn Txn) (label : String) :
    Submission (ExecutedTransaction × TransactionEffects) := do
  Logged.lift answers.opening
  let txn ← Logged.lift (compose answers.builder ⟨sender, sponsor, []⟩)
  Logged.lift answers.signing
  Logged.emit txn
  Logged.lift (executedEffects label answers.execution)

section Executing

variable {answers : TxAnswers} {sender : String} {sponsor : Option String}
  {compose : Builder → Txn → Except PyExn Txn} {label : String}

variable (answers sender sponsor compose label) in
/-- Nothing is submitted, or one transaction is, and its answer decides. -/
theorem executeTxn_cases :
    (∃ e, executeTxn answers sender sponsor compose label = ⟨.error e, []⟩) ∨
    ∃ txn, compose answers.builder ⟨sender, sponsor, []⟩ = .ok txn ∧
      executeTxn answers sender sponsor compose label =
        ⟨executedEffects label answers.execution, [txn]⟩ := by
  unfold executeTxn
  cases hopening : answers.opening with
  | error e => exact .inl ⟨e, rfl⟩
  | ok _ =>
    cases hcompose : compose answers.builder ⟨sender, sponsor, []⟩ with
    | error e => exact .inl ⟨e, rfl⟩
    | ok txn =>
      cases hsigning : answers.signing with
      | error e => exact .inl ⟨e, rfl⟩
      | ok _ => exact .inr ⟨txn, rfl, rfl⟩

end Executing

end Pytusk.Ops
