import Pytusk.Chain.BlobFields
import Pytusk.Types.Protocols
import Pytusk.Types.Receipts

/-!
# `ops/storage_reads.py`: reading Storage objects

Two fields that should be numbers count as zero where they are not, and a
size that is neither a number nor a string does too.
-/

namespace Pytusk.Ops

open Pytusk.Lib

/-- `value or "(unknown)"` -/
def orUnknown (objectId : Option String) : String :=
  match objectId with
  | some s => if s = "" then "(unknown)" else s
  | none => "(unknown)"

def convertedStorageFields (obj : ObjectView) (missingJsonDetail : String) :
    Except PyExn (List (PyStr × Json)) :=
  match obj.json with
  | some (.dict fields) => .ok fields
  | _ =>
      let objectId := orUnknown obj.objectId
      .error (.valueError s!"Object {objectId} has no JSON view; {missingJsonDetail}.")

variable (parseInt : PyStr → Option Int)

/-- `int(value) if isinstance(value, (int, float)) else 0` -/
def epochField : Option Json → Except PyExn Int
  | some (.bool b) => BlobFields.pyInt parseInt (.bool b)
  | some (.int n) => BlobFields.pyInt parseInt (.int n)
  | some (.float x) => BlobFields.pyInt parseInt (.float x)
  | _ => .ok 0

/-- `int(value) if isinstance(value, (str, int, float)) else 0` -/
def sizeField : Option Json → Except PyExn Int
  | some (.str s) => BlobFields.pyInt parseInt (.str s)
  | value => epochField parseInt value

/-- `_storage_from_field_map` -/
def storageFromFieldMap (fields : List (PyStr × Json)) (objectId : String) :
    Except PyExn StorageObject := do
  let storageSize ← sizeField parseInt (Dict.get? fields (Json.key "storage_size"))
  let startEpoch ← epochField parseInt (Dict.get? fields (Json.key "start_epoch"))
  let endEpoch ← epochField parseInt (Dict.get? fields (Json.key "end_epoch"))
  return {
    objectId := objectId
    startEpoch := startEpoch
    endEpoch := endEpoch
    storageSize := storageSize }

def storageFromObject (obj : ObjectView) : Except PyExn StorageObject := do
  let fields ← convertedStorageFields obj "its Storage fields cannot be read"
  storageFromFieldMap parseInt fields (obj.objectId.getD "")

/-- `storage_from_blob`: the Storage that is wrapped has no id. -/
def storageFromBlob (obj : ObjectView) : Except PyExn StorageObject := do
  let fields ← convertedStorageFields obj "its embedded Storage fields cannot be read"
  match Dict.get? fields (Json.key "storage") with
  | some (.dict storage) => storageFromFieldMap parseInt storage ""
  | _ =>
      let objectId := orUnknown obj.objectId
      .error (.valueError <|
        s!"Object {objectId} has no 'storage' field; it may not be a Walrus Blob.")

variable {parseInt}

theorem objectId_storageFromObject {obj : ObjectView} {storage : StorageObject}
    (h : storageFromObject parseInt obj = .ok storage) :
    storage.objectId = obj.objectId.getD "" := by
  obtain ⟨fields, -, h⟩ := bind_eq_ok.mp h
  obtain ⟨storageSize, -, h⟩ := bind_eq_ok.mp h
  obtain ⟨startEpoch, -, h⟩ := bind_eq_ok.mp h
  obtain ⟨endEpoch, -, h⟩ := bind_eq_ok.mp h
  cases h
  rfl

variable (parseInt)

/-- `::storage_resource::Storage` -/
def storageTypeSuffix : String := "::storage_resource::Storage"

/-- The owned Storage objects; on a production network the node has filtered
them already. One that cannot be read is skipped. -/
def storagesOf (production : Bool) (objects : List ObjectView) :
    Except PyExn (List StorageObject) := do
  let candidates :=
    if production then objects
    else objects.filter fun obj =>
      match obj.objectType with
      | some objectType => storageTypeSuffix.toList.isSuffixOf objectType.toList
      | none => false
  let storages ← candidates.mapM fun obj =>
    match storageFromObject parseInt obj with
    | .ok storage => .ok (some storage)
    | .error e => if e.isValueError then .ok none else .error e
  return storages.reduceOption

def listStorageObjects (production : Bool) (owner : String)
    (listing : ExecuteOutcome (List ObjectView)) : Except PyExn (List StorageObject) := do
  match ← listing with
  | .failed resultString =>
      .error (.runtimeError s!"Cannot list Storage objects for {owner}: {resultString}")
  | .ok none => .error (.attributeError "'NoneType' object has no attribute 'objects'")
  | .ok (some objects) => storagesOf parseInt production objects

end Pytusk.Ops
