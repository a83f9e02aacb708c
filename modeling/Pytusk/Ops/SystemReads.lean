import Pytusk.Client

/-!
# `ops/system_reads.py`: the reads before and after Tx1
-/

namespace Pytusk.Ops

open Pytusk.Lib

variable (w : World)

def resolvePackageId : Except PyExn String := do
  match ← w.systemView with
  | .failed resultString =>
      .error (.runtimeError <|
        s!"Cannot fetch System object {w.systemObject}: {resultString}")
  | .ok data => do
      let obj ← World.resultData "json" data
      match obj.json with
      | some (.dict fields) =>
          match Dict.get? fields (Json.key "package_id") with
          | some (.str packageId) =>
              if packageId = [] then
                .error (.valueError <|
                  s!"System object {w.systemObject} is missing its 'package_id' field.")
              else return PyStr.textOf packageId
          | _ =>
              .error (.valueError <|
                s!"System object {w.systemObject} is missing its 'package_id' field.")
      | _ =>
          .error (.valueError <|
            s!"System object {w.systemObject} has no JSON view; cannot resolve " ++
            "package_id.")

/-- `DEFAULT_FINALITY_MAX_ATTEMPTS` -/
def defaultFinalityMaxAttempts : Nat := 10

/-- Is the transaction in a checkpoint? -/
def inCheckpoint : SuiRpcResult TransactionView → Bool
  | .ok (some transaction) => (transaction.checkpoint.getD 0) ≠ 0
  | _ => false

/-- `wait_for_finality`: `polls` are left, `attempt` were made. -/
def waitForFinality : (polls attempt : Nat) → Except PyExn Bool
  | 0, _ => .ok false
  | polls + 1, attempt => do
      let result ← w.finality attempt
      if inCheckpoint result then return true
      else waitForFinality polls (attempt + 1)

structure ChainContext where
  committee : WalrusCommittee
  packageId : String
  deriving DecidableEq, Repr

/-- Is it one of `KeyError`, `RuntimeError`, `TypeError`, `ValueError`? -/
def isReadError : PyExn → Bool
  | .builtin .keyError _ | .builtin .typeError _ => true
  | e => e.isRuntimeError || e.isValueError

def prepareChainContext : Except PyExn ChainContext :=
  match w.committee 0 with
  | .error e => .error (if isReadError e then .chainContextError e.message "committee" else e)
  | .ok committee =>
      match resolvePackageId w with
      | .error e =>
          .error (if e.isRuntimeError || e.isValueError then
            .chainContextError e.message "resolve_package_id" else e)
      | .ok packageId => .ok { committee := committee, packageId := packageId }

end Pytusk.Ops
