import Pytusk.Encoding.QuiltLayout

/-!
# Reading a quilt back

A reader that has the bytes of a quilt, the shard count and the documented
format, and nothing else. It reads the matrix column after column: the index
at column zero, then for each index entry the columns from where the entry
before it ended. Whatever does not have the documented form makes it fail:
a version byte other than 1, a length that does not fit, bytes left over in
a field, a byte other than zero behind a patch.
-/

namespace Pytusk.Quilt

open Pytusk.Lib Pytusk.Lib.Wire Pytusk.Lib.ColumnMajor

/-! ## The reader -/

def readString : Reader PyStr := do
  let length ← readUleb
  let utf8 ← take length
  lift (PyStr.decodeUtf8 utf8)

def readTagEntry : Reader QuiltTagEntry := do
  let key ← readString
  let value ← readString
  return { key := key, value := value }

def readPatchEntry : Reader QuiltPatchV1 := do
  let endIndex ← fixed 2
  let identifier ← readString
  let tags ← readVec readTagEntry
  return { endIndex := endIndex, identifier := identifier, tags := tags }

/-- The index at column zero, with the length of its bytes. -/
def readIndexBlob : Reader (Nat × List QuiltPatchV1) := do
  let version ← byte
  expect (version = quiltVersionByte)
  let length ← fixed 4
  let indexBytes ← take length
  let index ← lift (readAll (readVec readPatchEntry) indexBytes)
  return (length, index)

/-- What the range of one patch holds. -/
structure PatchRecord where
  startIndex : Nat
  endIndex : Nat
  payloadLength : Nat
  mask : UInt8
  identifier : PyStr
  tags : List QuiltTagEntry
  contents : Bytes
  deriving DecidableEq, Repr

/-- The length-prefixed identifier, and the tags if the mask announces any. -/
def readSections (mask : UInt8) : Reader (PyStr × List QuiltTagEntry) := do
  let identifierLength ← fixed 2
  let identifierBytes ← take identifierLength
  let identifier ← lift (readAll readString identifierBytes)
  if mask = hasTagsFlag then
    let tagsLength ← fixed 2
    let tagBytes ← take tagsLength
    let tags ← lift (readAll (readVec readTagEntry) tagBytes)
    return (identifier, tags)
  else return (identifier, [])

/-- A patch: header, payload, and nothing but zeros after it. -/
def readPatch (range : Bytes) (startIndex endIndex : Nat) : Option PatchRecord := do
  let ((payloadLength, mask, payload), padding) ← header.run range
  let ((identifier, tags), contents) ← (readSections mask).run payload
  if padding.all (· = 0) then
    return {
      startIndex := startIndex
      endIndex := endIndex
      payloadLength := payloadLength
      mask := mask
      identifier := identifier
      tags := tags
      contents := contents }
  else none
where
  header : Reader (Nat × UInt8 × Bytes) := do
    let version ← byte
    expect (version = quiltVersionByte)
    let payloadLength ← fixed 4
    let mask ← byte
    expect (mask = 0 ∨ mask = hasTagsFlag)
    let payload ← take payloadLength
    return (payloadLength, mask, payload)

/-- The patches of the index entries, the first one from column `start` on. -/
def readPatches (stream : Bytes) (columnSize : Nat) :
    (start : Nat) → List QuiltPatchV1 → Option (List PatchRecord)
  | _, [] => some []
  | start, entry :: rest => do
      let range := (stream.drop (start * columnSize)).take
        ((entry.endIndex - start) * columnSize)
      let record ← readPatch range start entry.endIndex
      let records ← readPatches stream columnSize entry.endIndex rest
      return record :: records

structure RecoveredQuilt where
  index : List QuiltPatchV1
  patches : List PatchRecord
  deriving DecidableEq, Repr

/-- Read a quilt from its bytes and the shard count it was built for. -/
def readQuilt (data : Bytes) (nShards : Int) : Option RecoveredQuilt := do
  let g := quiltShape data.length nShards
  let stream := g.columns data
  let ((indexLength, index), _) ← readIndexBlob.run stream
  let first := (quiltIndexPrefixSize + indexLength) ⌈/⌉ g.columnSize
  let patches ← readPatches stream g.columnSize first index
  return { index := index, patches := patches }

/-! ## The BCS parts -/

theorem reads_stringBcs {s : PyStr} {bytes : Bytes} (h : stringBcs s = .ok bytes) :
    Reads readString bytes s := by
  unfold stringBcs at h
  split at h
  · cases h
  · rename_i utf8 hutf8
    cases h
    exact (reads_uleb _).bind
      ((reads_take utf8).bind_nil (reads_lift (PyStr.decodeUtf8_of_encodeUtf8 hutf8)))

theorem reads_u16Bcs {n : Nat} {bytes : Bytes} (h : u16Bcs n = .ok bytes) :
    Reads (fixed 2) bytes n := by
  unfold u16Bcs at h
  split at h
  · cases h
    exact reads_fixed ‹_›
  · cases h

theorem reads_vectorBcs {α : Type} {element : α → Except QuiltError Bytes}
    {item : Reader α} (hitem : ∀ x bytes, element x = .ok bytes → Reads item bytes x)
    {xs : List α} {bytes : Bytes} (h : vectorBcs element xs = .ok bytes) :
    Reads (readVec item) bytes xs := by
  obtain ⟨parts, hparts, heq⟩ := bind_eq_ok.mp h
  cases heq
  apply reads_vec
  exact (mapM_eq_ok.mp hparts).flip.imp fun bytes x hx => hitem x bytes hx

theorem reads_tagEntryBcs {entry : QuiltTagEntry} {bytes : Bytes}
    (h : entry.bcs = .ok bytes) : Reads readTagEntry bytes entry := by
  obtain ⟨key, hkey, h⟩ := bind_eq_ok.mp h
  obtain ⟨value, hvalue, heq⟩ := bind_eq_ok.mp h
  cases heq
  exact (reads_stringBcs hkey).bind ((reads_stringBcs hvalue).bind_nil (Reads.pure _))

theorem reads_patchEntryBcs {entry : QuiltPatchV1} {bytes : Bytes}
    (h : entry.bcs = .ok bytes) : Reads readPatchEntry bytes entry := by
  obtain ⟨endIndex, hend, h⟩ := bind_eq_ok.mp h
  obtain ⟨identifier, hidentifier, h⟩ := bind_eq_ok.mp h
  obtain ⟨tags, htags, heq⟩ := bind_eq_ok.mp h
  cases heq
  rw [List.append_assoc]
  exact (reads_u16Bcs hend).bind ((reads_stringBcs hidentifier).bind
    ((reads_vectorBcs (fun _ _ => reads_tagEntryBcs) htags).bind_nil (Reads.pure _)))

/-- The index behind its version byte and length. -/
theorem reads_indexBlob {index : List QuiltPatchV1} {indexBytes : Bytes}
    (h : quiltIndexV1 index = .ok indexBytes) (hlt : indexBytes.length < 256 ^ 4) :
    Reads readIndexBlob (indexBlob indexBytes) (indexBytes.length, index) := by
  have hindex := (reads_vectorBcs (fun _ _ => reads_patchEntryBcs) h).readAll
  exact (reads_byte quiltVersionByte).bind ((reads_expect rfl).bind
    ((reads_fixed hlt).bind ((reads_take indexBytes).bind_nil
      ((reads_lift hindex).bind_nil (Reads.pure _)))))

end Pytusk.Quilt
