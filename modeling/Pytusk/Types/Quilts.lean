import Pytusk.Chain.Committee
import Pytusk.Lib.Dict
import Pytusk.Lib.PyStr

/-!
# `types/quilts.py`: what goes into a quilt and what comes out
-/

namespace Pytusk

open Pytusk.Lib

/-- One blob to pack. The tags are a `dict`, so their keys are distinct. -/
structure QuiltPatchInput where
  identifier : PyStr
  contents : Bytes
  tags : Dict PyStr PyStr := []
  tags_nodup : (Dict.keys tags).Nodup := by decide
  deriving DecidableEq

/-- Where a packed blob sits: columns `startIndex` up to, not including,
`endIndex`. -/
structure QuiltPatchLayout where
  identifier : PyStr
  tags : Dict PyStr PyStr
  startIndex : Nat
  endIndex : Nat
  deriving DecidableEq, Repr

/-- A stored patch under the id a reader asks for. -/
structure QuiltPatchReceipt extends QuiltPatchLayout where
  patchId : String
  deriving DecidableEq, Repr

structure AssembledQuilt where
  data : Bytes
  patches : List QuiltPatchLayout
  nShards : Int
  deriving DecidableEq, Repr

end Pytusk
