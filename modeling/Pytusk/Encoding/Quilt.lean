import Mathlib.Data.List.Sort
import Pytusk.Encoding.Redstuff
import Pytusk.Lib.Binary64
import Pytusk.Lib.ExceptRules
import Pytusk.Lib.PySeq
import Pytusk.Lib.Wire
import Pytusk.Types.Errors
import Pytusk.Types.Quilts

/-!
# `encoding/quilt.py`: quilt assembly

The index types and their BCS bytes, the symbol-size search, the
column-major writer and `assembleQuilt`. BCS itself is the serializer's: a
string is its ULEB128 byte length and its UTF-8, a vector its ULEB128 count
and its elements, a struct its fields one after another.
-/

namespace Pytusk

open Pytusk.Lib

namespace Quilt

def quiltVersionByte : UInt8 := 1
def quiltIndexPrefixSize : Nat := 1 + 4
def maxSerializedBlobSize : Nat := 2 ^ 32 - 1
def maxBlobIdentifierBytesLength : Nat := 2 ^ 16 - 1
def maxNumSliversForQuiltIndex : Nat := 10
def hasTagsFlag : UInt8 := 1

/-! ## Errors -/

/-- Why assembly raises. All but the last three are `QuiltAssemblyError`. -/
inductive QuiltError where
  | noPatches
  | noBlobSizes
  | tooManyBlobs (nBlobs : Nat) (nColumns : Int)
  | cannotPack (nColumns : Int)
  | symbolSizeExceeded (symbolSize : Nat)
  | rowSizeNotDivisible
  | columnSizeNotDivisible
  | writePastEnd (length startIndex matrixSize : Nat)
  | emptyIdentifier
  | identifierTooLong (encodedLength : Nat)
  | trailingWhitespace (identifier : PyStr)
  | controlCharacters (identifier : PyStr)
  | duplicateIdentifier (identifier : PyStr)
  | identifierBcsTooLong (identifier : PyStr) (length : Nat)
  | payloadTooLong (identifier : PyStr) (payloadLength : Nat)
  | indexTooWide (indexColumns : Nat)
  | indexSizeChanged (sized serialized : Nat)
  /-- a surrogate has no UTF-8 encoding -/
  | unicodeEncodeError
  /-- `int.to_bytes` or `bytearray` on a number that is too large -/
  | overflowError
  /-- the serializer's range check on a `U16` field -/
  | u16OutOfRange (value : Nat)
  deriving DecidableEq, Repr

/-- Is it a `QuiltAssemblyError`? -/
def QuiltError.isAssemblyError : QuiltError → Bool
  | .unicodeEncodeError => false
  | .overflowError => false
  | .u16OutOfRange _ => false
  | _ => true

/-- The text of a `QuiltAssemblyError`; `repr` renders `{identifier!r}`. -/
def QuiltError.text (repr : PyStr → String) : QuiltError → String
  | .noPatches => "A quilt needs at least one blob."
  | .noBlobSizes => "No blobs provided for quilt assembly."
  | .tooManyBlobs nBlobs nColumns =>
      let patches : Int := nBlobs - 1
      s!"Too many blobs for the quilt: {patches} blobs plus " ++
      s!"the index need {nBlobs} columns, but the committee's " ++
      s!"shard count provides only {nColumns}."
  | .cannotPack nColumns =>
      "Quilt oversize: the blobs cannot be packed into whole columns " ++
      s!"for a committee of {nColumns} columns."
  | .symbolSizeExceeded symbolSize =>
      let maximum := Redstuff.rs2MaxSymbolSize
      s!"Quilt oversize: the resulting symbol size {symbolSize} exceeds " ++
      s!"the maximum {maximum}; store fewer or smaller blobs."
  | .rowSizeNotDivisible => "Row size must be divisible by symbol size."
  | .columnSizeNotDivisible => "Column size must be divisible by symbol size."
  | .writePastEnd length startIndex matrixSize =>
      s!"Quilt write of {length} bytes at offset {startIndex} " ++
      s!"would extend past the {matrixSize}-byte matrix."
  | .emptyIdentifier => "Quilt patch identifier must not be empty."
  | .identifierTooLong encodedLength =>
      s!"Quilt patch identifier is {encodedLength} bytes, over the " ++
      s!"{maxBlobIdentifierBytesLength}-byte maximum."
  | .trailingWhitespace identifier =>
      "Quilt patch identifier has trailing whitespace: " ++ repr identifier
  | .controlCharacters identifier =>
      "Quilt patch identifier contains control characters: " ++ repr identifier
  | .duplicateIdentifier identifier =>
      "Duplicate quilt patch identifier: " ++ repr identifier ++
      ". Identifiers must be unique within a quilt."
  | .identifierBcsTooLong identifier length =>
      "Quilt patch identifier " ++ repr identifier ++ s!" serializes to " ++
      s!"{length} bytes, at or above the " ++
      s!"{maxBlobIdentifierBytesLength}-byte ceiling upstream " ++
      "enforces on the u16 identifier length field."
  | .payloadTooLong identifier payloadLength =>
      "Quilt patch " ++ repr identifier ++ s!" serializes to {payloadLength} " ++
      s!"bytes, over the {maxSerializedBlobSize}-byte maximum the u32 " ++
      "header length field can carry; store it as its own blob."
  | .indexTooWide indexColumns =>
      s!"The quilt index needs {indexColumns} columns, over the " ++
      s!"{maxNumSliversForQuiltIndex}-column maximum; store fewer blobs."
  | .indexSizeChanged sized serialized =>
      s!"Quilt index size changed between sizing ({sized} bytes) and " ++
      s!"serialization ({serialized} bytes)."
  | .unicodeEncodeError => "surrogates not allowed"
  | .overflowError => "int too big to convert"
  | .u16OutOfRange value => s!"value {value} not in range"

/-! ## BCS -/

/-- `bcse.String.encode` -/
def stringBcs (s : PyStr) : Except QuiltError Bytes :=
  match PyStr.encodeUtf8 s with
  | none => .error .unicodeEncodeError
  | some utf8 => .ok (Wire.uleb utf8.length ++ utf8)

/-- A vector of what `element` serializes. -/
def vectorBcs {α : Type} (element : α → Except QuiltError Bytes) (xs : List α) :
    Except QuiltError Bytes := do
  let parts ← xs.mapM element
  return Wire.uleb xs.length ++ parts.flatten

/-- `bcse.U16` -/
def u16Bcs (n : Nat) : Except QuiltError Bytes :=
  if n < 256 ^ 2 then .ok (LittleEndian.encode 2 n) else .error (.u16OutOfRange n)

/-- One tag of a patch. -/
structure QuiltTagEntry where
  key : PyStr
  value : PyStr
  deriving DecidableEq, Repr

/-- One patch's entry in the index. -/
structure QuiltPatchV1 where
  endIndex : Nat
  identifier : PyStr
  tags : List QuiltTagEntry
  deriving DecidableEq, Repr

def QuiltTagEntry.bcs (entry : QuiltTagEntry) : Except QuiltError Bytes := do
  return (← stringBcs entry.key) ++ (← stringBcs entry.value)

def QuiltPatchV1.bcs (patch : QuiltPatchV1) : Except QuiltError Bytes := do
  let endIndex ← u16Bcs patch.endIndex
  let identifier ← stringBcs patch.identifier
  let tags ← vectorBcs QuiltTagEntry.bcs patch.tags
  return endIndex ++ identifier ++ tags

/-- `QuiltIndexV1(quilt_patches=patches).serialize()` -/
def quiltIndexV1 (patches : List QuiltPatchV1) : Except QuiltError Bytes :=
  vectorBcs QuiltPatchV1.bcs patches

/-- What the tags are sorted by: the bytes of the serialized key, whose length
comes first. -/
def tagSortKey (key : PyStr) : Except QuiltError (List Nat) := do
  return (← stringBcs key).map (·.toNat)

def sortedTagEntries (tags : Dict PyStr PyStr) :
    Except QuiltError (List QuiltTagEntry) := do
  let keyed ← tags.mapM fun (key, value) => do
    return (← tagSortKey key, { key := key, value := value : QuiltTagEntry })
  return (keyed.insertionSort fun a b => a.1 ≤ b.1).map Prod.snd

/-- `_serialize_tags` -/
def serializeTags (tags : Dict PyStr PyStr) : Except QuiltError Bytes := do
  vectorBcs QuiltTagEntry.bcs (← sortedTagEntries tags)

/-- `QuiltPatchV1.from_layout` -/
def QuiltPatchV1.fromLayout (layout : QuiltPatchLayout) :
    Except QuiltError QuiltPatchV1 := do
  return {
    endIndex := layout.endIndex
    identifier := layout.identifier
    tags := ← sortedTagEntries layout.tags }

/-! ## The symbol size -/

/-- `math.ceil(a / b)`: the division is a floating-point one. -/
def mathCeil (a b : Nat) : Nat := (Binary64.trueDiv a b).ceil

/-- `_can_blobs_fit` -/
def canBlobsFit (blobSizes : List Nat) (nColumns columnSize : Nat) : Bool :=
  if columnSize ≤ 0 then false
  else (blobSizes.map (mathCeil · columnSize)).sum ≤ nColumns

/-- `_div_ceil`, on a positive denominator. -/
def divCeil (numerator denominator : Nat) : Nat :=
  (numerator + denominator - 1) / denominator

/-- The `while min_val < max_val` loop; it narrows the interval at every turn,
so its length bounds the number of turns. -/
def searchSymbolSize (fits : Nat → Bool) : (turns minVal maxVal : Nat) → Nat
  | 0, minVal, _ => minVal
  | turns + 1, minVal, maxVal =>
      if minVal < maxVal then
        let mid := (minVal + maxVal) / 2
        if fits mid then searchSymbolSize fits turns minVal mid
        else searchSymbolSize fits turns (mid + 1) maxVal
      else minVal

/-- `compute_symbol_size`. After the second check there are columns, and
`source_symbol_counts` then gives rows too, so both counts are used as
natural numbers from there on. -/
def computeSymbolSize (blobSizes : List Nat) (nColumns nRows : Int)
    (maxIndexColumns : Nat := maxNumSliversForQuiltIndex) : Except QuiltError Nat :=
  match blobSizes with
  | [] => .error .noBlobSizes
  | indexSize :: _ =>
    if nColumns < blobSizes.length then
      .error (.tooManyBlobs blobSizes.length nColumns)
    else
      let cols := nColumns.toNat
      let rows := nRows.toNat
      let minVal := max (max
        (divCeil blobSizes.sum (cols * rows))
        (divCeil indexSize (rows * maxIndexColumns)))
        (divCeil quiltIndexPrefixSize rows)
      let maxVal := divCeil (blobSizes.foldl max 0) (cols / blobSizes.length * rows)
      let found := searchSymbolSize (fun mid => canBlobsFit blobSizes cols (mid * rows))
        (maxVal - minVal) minVal maxVal
      let symbolSize :=
        divCeil found Redstuff.rs2RequiredAlignment * Redstuff.rs2RequiredAlignment
      if !canBlobsFit blobSizes cols (symbolSize * rows) then
        .error (.cannotPack nColumns)
      else if symbolSize > Redstuff.rs2MaxSymbolSize then
        .error (.symbolSizeExceeded symbolSize)
      else .ok symbolSize

/-! ## The writer -/

/-- The `while index < len(data)` loop of `write_bytes`; `data` is what is left
of the run. Each turn writes at least one byte, so `len(data)` turns do. -/
def writeLoop (rowSize symbolSize nRows : Nat) :
    (turns : Nat) → (quilt data : Bytes) → (row col remainingOffset : Nat) →
      Except QuiltError Bytes
  | 0, quilt, _, _, _, _ => .ok quilt
  | turns + 1, quilt, data, row, col, remainingOffset =>
      if data = [] then .ok quilt
      else
        let startIndex := row * rowSize + col * symbolSize + remainingOffset
        let length := min (symbolSize - remainingOffset) data.length
        if startIndex + length > quilt.length then
          .error (.writePastEnd length startIndex quilt.length)
        else
          let nextRow := (row + 1) % nRows
          writeLoop rowSize symbolSize nRows turns
            (setSlice quilt startIndex (data.take length)) (data.drop length)
            nextRow (if nextRow = 0 then col + 1 else col) 0

/-- `write_bytes`; `bytesWritten` is where the previous run left off. -/
def writeBytes (rowSize symbolSize nRows startColumn : Nat) (quilt : Bytes)
    (bytesWritten : Nat) (data : Bytes) : Except QuiltError Bytes :=
  let symbolsToSkip := bytesWritten / symbolSize
  writeLoop rowSize symbolSize nRows data.length quilt data (symbolsToSkip % nRows)
    (startColumn + symbolsToSkip / nRows) (bytesWritten % symbolSize)

/-- `_write_blob_to_quilt`: the matrix after the write and the columns it took. -/
def writeBlobToQuilt (quilt blob : Bytes) (rowSize columnSize symbolSize startColumn : Nat)
    (leading : Option Bytes := none) : Except QuiltError (Bytes × Nat) := do
  raiseIf (rowSize % symbolSize ≠ 0) .rowSizeNotDivisible
  raiseIf (columnSize % symbolSize ≠ 0) .columnSizeNotDivisible
  let nRows := columnSize / symbolSize
  let head := leading.getD []
  let quilt ← writeBytes rowSize symbolSize nRows startColumn quilt 0 head
  let quilt ← writeBytes rowSize symbolSize nRows startColumn quilt head.length blob
  return (quilt, mathCeil (head.length + blob.length) columnSize)

/-! ## Assembly -/

def validateQuiltIdentifier (identifier : PyStr) : Except QuiltError Unit :=
  if identifier = [] then .error .emptyIdentifier
  else
    match PyStr.encodeUtf8 identifier with
    | none => .error .unicodeEncodeError
    | some encoded =>
      if encoded.length > maxBlobIdentifierBytesLength then
        .error (.identifierTooLong encoded.length)
      else if PyStr.rstrip identifier ≠ identifier then
        .error (.trailingWhitespace identifier)
      else if identifier.any PyStr.isControl then
        .error (.controlCharacters identifier)
      else .ok ()

/-- `n.to_bytes(width, "little")` -/
def toBytes (width n : Nat) : Except QuiltError Bytes :=
  if n < 256 ^ width then .ok (LittleEndian.encode width n) else .error .overflowError

/-- The tags as they stand before the contents; a patch without tags has none. -/
def inlineTags (tags : Dict PyStr PyStr) : Except QuiltError (Option Bytes) :=
  if tags = [] then .ok none else some <$> serializeTags tags

/-- The length-prefixed tag bytes. -/
def tagSection : Option Bytes → Except QuiltError Bytes
  | none => .ok []
  | some tagBytes => do return (← toBytes 2 tagBytes.length) ++ tagBytes

def tagSectionSize : Option Bytes → Nat
  | none => 0
  | some tagBytes => 2 + tagBytes.length

/-- `_blob_metadata` -/
def blobMetadata (patch : QuiltPatchInput) : Except QuiltError Bytes := do
  let identifierBytes ← stringBcs patch.identifier
  raiseIf (identifierBytes.length ≥ maxBlobIdentifierBytesLength)
    (.identifierBcsTooLong patch.identifier identifierBytes.length)
  let tagBytes ← inlineTags patch.tags
  let mask := if tagBytes.isSome then hasTagsFlag else 0
  let payloadLength := 2 + identifierBytes.length + tagSectionSize tagBytes +
    patch.contents.length
  raiseIf (payloadLength > maxSerializedBlobSize)
    (.payloadTooLong patch.identifier payloadLength)
  let lengthField ← toBytes 4 payloadLength
  let identifierField ← toBytes 2 identifierBytes.length
  let tagField ← tagSection tagBytes
  return quiltVersionByte :: lengthField ++ mask :: identifierField ++
    identifierBytes ++ tagField

/-- The loop that checks the identifiers, with those seen so far. -/
def checkIdentifiers : (seen : List PyStr) → List QuiltPatchInput → Except QuiltError Unit
  | _, [] => .ok ()
  | seen, patch :: rest => do
      validateQuiltIdentifier patch.identifier
      raiseIf (patch.identifier ∈ seen) (.duplicateIdentifier patch.identifier)
      checkIdentifiers (patch.identifier :: seen) rest

/-- The index entry of a patch whose end is not known yet. -/
def placeholderEntry (patch : QuiltPatchInput) : Except QuiltError QuiltPatchV1 := do
  return { endIndex := 0, identifier := patch.identifier,
           tags := ← sortedTagEntries patch.tags }

/-- The loop that writes the patches one after another. -/
def writePatches (rowSize columnSize symbolSize : Nat) :
    (quilt : Bytes) → (currentColumn : Nat) → List (QuiltPatchInput × Bytes) →
      Except QuiltError (Bytes × List QuiltPatchLayout)
  | quilt, _, [] => .ok (quilt, [])
  | quilt, currentColumn, (patch, metadata) :: rest => do
      let (quilt, columns) ← writeBlobToQuilt quilt patch.contents rowSize columnSize
        symbolSize currentColumn (some metadata)
      let layout := {
        identifier := patch.identifier
        tags := patch.tags
        startIndex := currentColumn
        endIndex := currentColumn + columns : QuiltPatchLayout }
      let (quilt, layouts) ← writePatches rowSize columnSize symbolSize quilt
        (currentColumn + columns) rest
      return (quilt, layout :: layouts)

/-- `bytearray(size)` -/
def bytearray (size : Nat) : Except QuiltError Bytes :=
  if size < 2 ^ 63 then .ok (List.replicate size 0) else .error .overflowError

/-- `sorted(patches, key=lambda patch: patch.identifier)` -/
def sortedByIdentifier (patches : List QuiltPatchInput) : List QuiltPatchInput :=
  patches.insertionSort fun a b => a.identifier ≤ b.identifier

/-- `assemble_quilt` -/
def assembleQuilt (patches : List QuiltPatchInput) (nShards : Int) :
    Except QuiltError AssembledQuilt := do
  raiseIf (patches = []) .noPatches
  let nRows := (Redstuff.sourceSymbolCounts nShards).1
  let nColumns := (Redstuff.sourceSymbolCounts nShards).2
  let ordered := sortedByIdentifier patches
  checkIdentifiers [] ordered
  let metadata ← ordered.mapM blobMetadata
  let placeholder ← quiltIndexV1 (← ordered.mapM placeholderEntry)
  let indexSize := quiltIndexPrefixSize + placeholder.length
  let blobSizes := indexSize ::
    (ordered.zip metadata).map fun (patch, inline) =>
      inline.length + patch.contents.length
  let symbolSize ← computeSymbolSize blobSizes nColumns nRows
  let rowSize := symbolSize * nColumns.toNat
  let columnSize := symbolSize * nRows.toNat
  let indexColumns := mathCeil indexSize columnSize
  raiseIf (indexColumns > maxNumSliversForQuiltIndex) (.indexTooWide indexColumns)
  let quilt ← bytearray (rowSize * nRows.toNat)
  let (quilt, layouts) ← writePatches rowSize columnSize symbolSize quilt indexColumns
    (ordered.zip metadata)
  let indexBytes ← quiltIndexV1 (← layouts.mapM QuiltPatchV1.fromLayout)
  let indexBlob := quiltVersionByte :: (← toBytes 4 indexBytes.length) ++ indexBytes
  raiseIf (indexBlob.length ≠ indexSize) (.indexSizeChanged indexSize indexBlob.length)
  let (quilt, _) ← writeBlobToQuilt quilt indexBlob rowSize columnSize symbolSize 0
  return { data := quilt, patches := layouts, nShards := nShards }

/-! ## Patch ids -/

/-- `quilt_patch_id` -/
def quiltPatchId (quiltId : Bytes) (layout : QuiltPatchLayout) : Except PyExn String :=
  if quiltId.length ≠ 32 then
    .error (.valueError s!"quilt_id must be 32 bytes, got {quiltId.length}")
  else
    match toBytes 2 layout.startIndex, toBytes 2 layout.endIndex with
    | .ok startIndex, .ok endIndex =>
        .ok (String.ofList (Base64.encodeUrl
          (quiltId ++ quiltVersionByte :: startIndex ++ endIndex)))
    | _, _ => .error (.overflowError "int too big to convert")

end Quilt

end Pytusk
