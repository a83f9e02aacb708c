import Pytusk.Chain.Committee
import Pytusk.Lib.Base64
import Pytusk.Lib.Binary64
import Pytusk.Lib.LittleEndian

/-!
# `encoding/redstuff.py`: shard arithmetic and the encoded blob

The erasure code itself is in the Rust extension. What the write path needs
of it is the shape of its result and the size arithmetic around the call.
-/

namespace Pytusk

open Pytusk.Lib

/-- `RedstuffSliverPair`: the two slivers of one shard, under the index that
goes into the sliver URL. -/
structure RedstuffSliverPair where
  sliverPairIndex : Nat
  primary : Bytes
  secondary : Bytes
  deriving DecidableEq, Repr

/-- `EncodedBlob`; entry `i` of `slivers` belongs to shard `i`. -/
structure EncodedBlob where
  blobId : Bytes
  rootHash : Bytes
  unencodedLength : Nat
  nShards : Nat
  slivers : List RedstuffSliverPair
  metadataBcs : Bytes
  deriving DecidableEq, Repr

/-- What the extension's `redstuff_encode` returns. -/
structure RedstuffEncoding where
  blobId : Bytes
  rootHash : Bytes
  slivers : List RedstuffSliverPair
  metadataBcs : Bytes
  deriving DecidableEq, Repr

namespace Redstuff

/-- `RS2_ENCODING_TYPE` -/
def rs2EncodingType : Nat := 1

/-- `RS2_MAX_SYMBOL_SIZE` -/
def rs2MaxSymbolSize : Nat := 65534

/-- `RS2_REQUIRED_ALIGNMENT` -/
def rs2RequiredAlignment : Nat := 2

def maxNFaulty (nShards : Int) : Int := (nShards - 1) / 3

def minNCorrect (nShards : Int) : Int := nShards - maxNFaulty nShards

/-- `(primary, secondary)` -/
def sourceSymbolCounts (nShards : Int) : Int × Int :=
  let secondary := minNCorrect nShards
  let primary := secondary - maxNFaulty nShards
  (primary, secondary)

/-! ## Sizes -/

def maxBlobSize (nShards : Int) : Int :=
  let (primary, secondary) := sourceSymbolCounts nShards
  primary * secondary * rs2MaxSymbolSize

/-- `symbol_size`; both counts are positive for any number of shards, and the
division is a floating-point one. -/
def symbolSize (blobLength nShards : Nat) : Nat :=
  let (primary, secondary) := sourceSymbolCounts nShards
  let effectiveLength := max blobLength 1
  let raw := (Binary64.trueDiv effectiveLength (primary * secondary).toNat).ceil
  let remainder := raw % rs2RequiredAlignment
  if remainder ≠ 0 then raw + (rs2RequiredAlignment - remainder) else raw

def digestLen : Nat := 32
def blobIdLen : Nat := 32

def metadataLength (nShards : Nat) : Nat := nShards * digestLen * 2 + blobIdLen

def encodedBlobLength (unencodedLength nShards : Nat) : Nat :=
  let (primary, secondary) := sourceSymbolCounts nShards
  let sliverSymbolSize := symbolSize unencodedLength nShards
  let sliversSize := (primary + secondary).toNat * sliverSymbolSize
  nShards * (sliversSize + metadataLength nShards)

/-! ## Identifiers -/

def blobIdToUrlBase64 (blobId : Bytes) : String := String.ofList (Base64.encodeUrl blobId)

def blobIdFromUrlBase64 (value : PyStr) : Except PyExn Bytes :=
  let paddingNeeded := -(value.length : Int) % 4
  match Base64.decodeUrl (value ++ List.replicate paddingNeeded.toNat 61) with
  | .ok bytes => .ok bytes
  | .error text => .error (.valueError text)

/-- Bytes of any length come back, not only blob ids. -/
theorem blobIdFromUrlBase64_encodeUrl (bytes : Bytes) :
    blobIdFromUrlBase64 ((Base64.encodeUrl bytes).map PyStr.ofChar) = .ok bytes := by
  have hlen := Base64.length_encodeUrl bytes
  have hpad : Base64.paddingLength bytes < 3 := Nat.mod_lt _ (by decide)
  have hneeded : (-(((Base64.encodeUrl bytes).map PyStr.ofChar).length : Int) % 4).toNat =
      Base64.paddingLength bytes := by
    rw [List.length_map]
    omega
  simp only [blobIdFromUrlBase64, hneeded, Base64.decodeUrl_encodeUrl]

def blobIdToU256 (blobId : Bytes) : Except PyExn Nat :=
  if blobId.length ≠ 32 then
    .error (.valueError s!"blob_id must be 32 bytes, got {blobId.length}")
  else .ok (LittleEndian.decode blobId)

def rootHashToU256 (rootHash : Bytes) : Except PyExn Nat :=
  if rootHash.length ≠ 32 then
    .error (.valueError s!"root_hash must be 32 bytes, got {rootHash.length}")
  else .ok (LittleEndian.decode rootHash)

/-! ## The call into the extension -/

def encodeBlob (redstuffEncode : Bytes → Nat → Except PyExn RedstuffEncoding)
    (data : Bytes) (nShards : Int) : Except PyExn EncodedBlob :=
  let limit := maxBlobSize nShards
  if nShards < 1 then
    .error (.valueError s!"n_shards must be at least 1, got {nShards}")
  else if data.length > limit then
    .error (.blobTooLargeError <|
      s!"Blob of {data.length} bytes exceeds the maximum encodable size of " ++
      s!"{limit} bytes for a committee of {nShards} shards")
  else
    match redstuffEncode data nShards.toNat with
    | .error e => .error e
    | .ok result =>
        .ok {
          blobId := result.blobId
          rootHash := result.rootHash
          unencodedLength := data.length
          nShards := nShards.toNat
          slivers := result.slivers
          metadataBcs := result.metadataBcs }

end Redstuff

end Pytusk
