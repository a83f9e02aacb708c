import Pytusk.Chain.Staking
import Pytusk.Lib.VecMap
import Pytusk.Types.Protocols

/-!
# `chain/blob_metadata.py`: a Blob's metadata

The metadata is the value of a dynamic field of the Blob, a `VecMap` of
strings. A Blob without the field has no metadata, which is no error.
-/

namespace Pytusk.BlobMetadata

open Pytusk.Lib Pytusk.Staking

/-- One pair of the metadata. -/
structure Metadata where
  key : String
  value : String
  deriving DecidableEq, Repr

/-- A dynamic field as the node reports it, its object decoded. -/
structure DynamicField where
  valueType : Option String
  json : Json

/-- `_METADATA_TYPE_SUFFIX` -/
def metadataTypeSuffix : String := "::metadata::Metadata"

/-- `(value_type or "").endswith(_METADATA_TYPE_SUFFIX)` -/
def isMetadataField (candidate : DynamicField) : Bool :=
  metadataTypeSuffix.toList.isSuffixOf (candidate.valueType.getD "").toList

/-- One entry of `contents`. -/
def metadataEntry (rawEntry : Json) (index : Nat) : Except PyExn Metadata := do
  let entry ← requireDict rawEntry s!"VecMap.contents[{index}]"
  let key ← requireStr (field entry "key") "entry.key"
  let value ← requireStr (field entry "value") "entry.value"
  return { key := key.textOf, value := value.textOf }

/-- The pairs in the decoded field. -/
def decodeMetadata (decoded : Json) : Except PyExn (List Metadata) := do
  let node ← requireDict decoded "metadata"
  let metadataStruct ← requireDict (field node "value") "Metadata"
  let vecMap ← requireDict (field metadataStruct "metadata") "Metadata.metadata"
  let entries ← requireList (field vecMap "contents") "VecMap.contents"
  entries.zipIdx.mapM fun (rawEntry, index) => metadataEntry rawEntry index

def fetchBlobMetadata (listing : ExecuteOutcome (List DynamicField)) :
    Except PyExn (Option (List Metadata)) := do
  match ← listing with
  | .failed resultString =>
      .error (.runtimeError s!"Cannot get Blob dynamic fields: {resultString}")
  | .ok none => .error (.attributeError "'NoneType' object has no attribute 'dynamic_fields'")
  | .ok (some dynamicFields) =>
      match dynamicFields.find? isMetadataField with
      | none => return none
      | some selected => do
          let pairs ← decodeMetadata selected.json
          return some pairs

/-! ## What the chain shows of a map -/

section Shown

/-- The JSON of a string. -/
def text (s : String) : Json := .str (Json.key s)

def entryJson (entry : String × String) : Json :=
  .dict [(Json.key "key", text entry.1), (Json.key "value", text entry.2)]

/-- The JSON of the field that holds a map. -/
def metadataJson (map : VecMap String String) : Json :=
  let contents := Json.list (map.contents.map entryJson)
  let vecMap := Json.dict [(Json.key "contents", contents)]
  .dict [(Json.key "value", .dict [(Json.key "metadata", vecMap)])]

/-- The node lists the fields of a Blob that has the map, or none. -/
def Shows (map : Option (VecMap String String)) (listing : ExecuteOutcome (List DynamicField)) :
    Prop :=
  ∃ fields, listing = .ok (.ok (some fields)) ∧
    (fields.find? isMetadataField).map (·.json) = map.map metadataJson

variable {map : Option (VecMap String String)} {listing : ExecuteOutcome (List DynamicField)}

theorem metadataEntry_entryJson (entry : String × String) (index : Nat) :
    metadataEntry (entryJson entry) index = .ok ⟨entry.1, entry.2⟩ := by
  have hkey : field [(Json.key "key", text entry.1), (Json.key "value", text entry.2)] "key" =
      text entry.1 := rfl
  have hvalue : field [(Json.key "key", text entry.1), (Json.key "value", text entry.2)]
      "value" = text entry.2 := rfl
  rw [metadataEntry, entryJson, requireDict, ok_bind, hkey, hvalue, text, text, requireStr,
    ok_bind, requireStr, ok_bind]
  simp only [Json.key, PyStr.textOf_ofChar]
  rfl

theorem mapM_metadataEntry (contents : List (String × String)) (start : Nat) :
    (((contents.map entryJson).zipIdx start).mapM fun (rawEntry, index) =>
      metadataEntry rawEntry index) = .ok (contents.map fun entry => ⟨entry.1, entry.2⟩) := by
  induction contents generalizing start with
  | nil => rfl
  | cons entry rest ih =>
    rw [List.map_cons, List.zipIdx_cons, List.mapM_cons]
    dsimp only
    rw [metadataEntry_entryJson, ok_bind, ih (start + 1), ok_bind]
    rfl

theorem decodeMetadata_metadataJson (map : VecMap String String) :
    decodeMetadata (metadataJson map) =
      .ok (map.contents.map fun entry => ⟨entry.1, entry.2⟩) :=
  mapM_metadataEntry map.contents 0

/-- **What is read is what is there**, in its order. -/
theorem fetchBlobMetadata_eq (h : Shows map listing) :
    fetchBlobMetadata listing =
      .ok (map.map fun m => m.contents.map fun entry => ⟨entry.1, entry.2⟩) := by
  obtain ⟨fields, rfl, hfields⟩ := h
  unfold fetchBlobMetadata
  rw [ok_bind]
  dsimp only
  cases hfind : fields.find? isMetadataField with
  | none =>
    rw [hfind] at hfields
    cases map with
    | none => rfl
    | some m => cases hfields
  | some selected =>
    rw [hfind] at hfields
    cases map with
    | none => cases hfields
    | some m =>
      have hjson : selected.json = metadataJson m := Option.some.inj hfields
      dsimp only
      rw [hjson, decodeMetadata_metadataJson, ok_bind]
      rfl

end Shown

end Pytusk.BlobMetadata
