import Pytusk.Lib.PyStr

/-!
# `types/blob_status.py`: verdict and report

The verdict union is split in two: what a storage node can report, and
`UnresolvedStatus`, which only the query itself produces.
-/

namespace Pytusk

open Pytusk.Lib

structure EventRef where
  txDigest : PyStr
  eventSeq : Int
  deriving DecidableEq, Repr

structure DeletableCounts where
  total : Int
  certified : Int
  deriving DecidableEq, Repr

/-- The four variants a storage node reports. -/
inductive ReportedStatus where
  | nonexistent
  | invalid (statusEvent : EventRef)
  | permanent (endEpoch : Int) (isCertified : Bool) (statusEvent : EventRef)
      (deletableCounts : DeletableCounts) (initialCertifiedEpoch : Option Int)
  | deletable (deletableCounts : DeletableCounts) (initialCertifiedEpoch : Option Int)
  deriving DecidableEq, Repr

inductive BlobStatus where
  | reported (status : ReportedStatus)
  | unresolved
  deriving DecidableEq, Repr

inductive Resolution where
  | quorum
  | validity
  | unresolved
  deriving DecidableEq, Repr

inductive DissentReason where
  | notStored
  | disagreed
  | timeout
  | error
  | notChecked
  deriving DecidableEq, Repr

structure NodeRef where
  nodeId : String
  networkAddress : String
  weight : Nat
  deriving DecidableEq, Repr

structure NodeDissent where
  node : NodeRef
  reason : DissentReason
  deriving DecidableEq, Repr

structure BlobStatusReport where
  blobId : List UInt8
  status : BlobStatus
  resolution : Resolution
  committeeEpoch : Nat
  confirming : List NodeRef
  dissenting : List NodeDissent
  deriving DecidableEq, Repr

end Pytusk
