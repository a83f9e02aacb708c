import Pytusk.Types.Errors

/-!
# What `client.execute` gives back

A `SuiRpcResult` is either a success with its parsed data or a failure with
its message; a failure always carries one. `execute` may also raise.
-/

namespace Pytusk

inductive SuiRpcResult (α : Type) where
  | ok (resultData : Option α)
  | failed (resultString : String)
  deriving DecidableEq, Repr

/-- `result.is_ok()` -/
def SuiRpcResult.isOk {α : Type} : SuiRpcResult α → Bool
  | .ok _ => true
  | .failed _ => false

/-- One awaited `client.execute(...)`. -/
abbrev ExecuteOutcome (α : Type) := Except PyExn (SuiRpcResult α)

end Pytusk
