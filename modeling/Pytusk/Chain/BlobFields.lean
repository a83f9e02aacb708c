import Pytusk.Chain.Committee
import Pytusk.Lib.ExceptRules
import Pytusk.Lib.LittleEndian
import Pytusk.Types.Json

/-!
# `chain/blob_fields.py`: reading a Blob object

`int(text)` and `repr(value)` of the Python runtime are parameters wherever
they are used: the one says which number a string denotes, if any, the other
only goes into error texts.
-/

namespace Pytusk

open Pytusk.Lib

/-- What the chain reports of an object. -/
structure ObjectView where
  objectId : Option String
  objectType : Option String
  ownerAddress : Option String
  balance : Option Nat
  json : Option Json

namespace BlobFields

/-- `f"{value}"` of an optional string. -/
def shown (value : Option String) : String := value.getD "None"

def convertedFields (obj : ObjectView) (missingJsonDetail : String) :
    Except PyExn (List (PyStr × Json)) :=
  let noJsonView : Except PyExn (List (PyStr × Json)) :=
    let objectId := shown obj.objectId
    .error (.valueError
      s!"Object {objectId} has no JSON view; cannot determine {missingJsonDetail}.")
  match obj.json with
  | some (.dict fields) => if fields.isEmpty then noJsonView else .ok fields
  | _ => noJsonView

/-- `int(value)` -/
def pyInt (parseInt : PyStr → Option Int) : Json → Except PyExn Int
  | .bool b => .ok b.toNat
  | .int n => .ok n
  | .float x => x.toInt
  | .str s =>
      match parseInt s with
      | some n => .ok n
      | none => .error (.valueError "invalid literal for int() with base 10")
  | value =>
      let typeName := value.typeName
      .error (.typeError <|
        "int() argument must be a string, a bytes-like object or a real number, " ++
        s!"not '{typeName}'")

/-- `blob_deletable_and_end_epoch` -/
def blobDeletableAndEndEpoch (parseInt : PyStr → Option Int) (obj : ObjectView) :
    Except PyExn (Bool × Int) := do
  let fields ← convertedFields obj "deletable/end_epoch"
  let objectId := shown obj.objectId
  let endEpoch ←
    match Dict.get? fields (Json.key "storage") with
    | some (.dict storage) =>
        match Dict.get? storage (Json.key "end_epoch") with
        | none | some .none =>
            .error (.valueError
              s!"Object {objectId}'s storage field is missing 'end_epoch'.")
        | some value => pyInt parseInt value
    | _ =>
        .error (.valueError <|
          s!"Object {objectId} is missing its 'storage' field; cannot " ++
          "determine end_epoch.")
  match Dict.get? fields (Json.key "deletable") with
  | none => .error (.valueError s!"Object {objectId} is missing its 'deletable' field.")
  | some deletable => return (deletable.truthy, endEpoch)

/-- `blob_certified_epoch`; the field is there also if the blob is not certified. -/
def blobCertifiedEpoch (parseInt : PyStr → Option Int) (obj : ObjectView) :
    Except PyExn (Option Int) := do
  let fields ← convertedFields obj "certified_epoch"
  match Dict.get? fields (Json.key "certified_epoch") with
  | none =>
      let objectId := shown obj.objectId
      .error (.valueError s!"Object {objectId} is missing its 'certified_epoch' field.")
  | some .none => return none
  | some value => some <$> pyInt parseInt value

/-- `n.to_bytes(32, byteorder="little")` -/
def toBytes32 (n : Int) : Except PyExn Bytes :=
  if n < 0 then .error (.overflowError "can't convert negative int to unsigned")
  else if n < 256 ^ 32 then .ok (LittleEndian.encode 32 n.toNat)
  else .error (.overflowError "int too big to convert")

def blobIdFromObject (parseInt : PyStr → Option Int) (obj : ObjectView) : Except PyExn Bytes := do
  let fields ← convertedFields obj "blob_id"
  let missing : Except PyExn Bytes :=
    let objectId := shown obj.objectId
    .error (.valueError s!"Object {objectId} is missing its 'blob_id' field.")
  match Dict.get? fields (Json.key "blob_id") with
  | some (.str s) =>
      if s = [] then missing
      else do
        let n ← pyInt parseInt (.str s)
        toBytes32 n
  | _ => missing

/-- `obj.object_type and "::blob::Blob" in obj.object_type` -/
def isBlobObject (obj : ObjectView) : Bool :=
  "::blob::Blob".toList <:+: (obj.objectType.getD "").toList

/-! ## The number of an object -/

section BlobId

variable {parseInt : PyStr → Option Int} {obj : ObjectView} {n : Int}

/-- The `blob_id` of an object, as the number its text stands for. -/
def blobIdNumber (parseInt : PyStr → Option Int) (obj : ObjectView) : Option Int :=
  match obj.json with
  | some (.dict fields) =>
      match Dict.get? fields (Json.key "blob_id") with
      | some (.str s) => if s = [] then none else parseInt s
      | _ => none
  | _ => none

/-- A number of a `u256`. -/
def IsU256 (n : Int) : Prop := 0 ≤ n ∧ n < 256 ^ 32

theorem toBytes32_of_isU256 (h : IsU256 n) :
    toBytes32 n = .ok (LittleEndian.encode 32 n.toNat) := by
  rw [toBytes32, if_neg (not_lt.mpr h.1), if_pos h.2]

theorem toBytes32_of_not_isU256 (h : ¬ IsU256 n) :
    ∃ text, toBytes32 n = .error (.overflowError text) := by
  unfold toBytes32
  split
  · exact ⟨_, rfl⟩
  · rename_i hnonneg
    rw [if_neg fun hlt => h ⟨not_lt.mp hnonneg, hlt⟩]
    exact ⟨_, rfl⟩

/-- What is done with an object is decided by the number its `blob_id` stands
for; if there is none it raises `ValueError`. -/
theorem blobIdFromObject_eq (parseInt : PyStr → Option Int) (obj : ObjectView) :
    match blobIdNumber parseInt obj with
    | some n => blobIdFromObject parseInt obj = toBytes32 n
    | none => ∃ text, blobIdFromObject parseInt obj = .error (.valueError text) := by
  unfold blobIdFromObject convertedFields blobIdNumber
  cases obj.json with
  | none => exact ⟨_, rfl⟩
  | some json =>
    cases json with
    | dict fields =>
      cases fields with
      | nil => exact ⟨_, rfl⟩
      | cons entry rest =>
        dsimp only [List.isEmpty_cons]
        rw [if_neg Bool.false_ne_true, ok_bind]
        cases Dict.get? (entry :: rest) (Json.key "blob_id") with
        | none => exact ⟨_, rfl⟩
        | some value =>
          cases value with
          | str s =>
            by_cases hs : s = []
            · simp only [hs, if_true]
              exact ⟨_, rfl⟩
            · simp only [hs, if_false, pyInt]
              cases parseInt s with
              | none => exact ⟨_, rfl⟩
              | some n => rfl
          | _ => exact ⟨_, rfl⟩
    | _ => exact ⟨_, rfl⟩

/-- The bytes are those of the object's number, or `ValueError` is raised. -/
def Reads (parseInt : PyStr → Option Int) (obj : ObjectView) : Prop :=
  (∃ bytes n, blobIdFromObject parseInt obj = .ok bytes ∧ blobIdNumber parseInt obj = some n ∧
    bytes.length = 32 ∧ LittleEndian.decode bytes = n) ∨
  ∃ e, blobIdFromObject parseInt obj = .error e ∧ e.isValueError = true

/-- The number of an object, if it has one, fits. -/
def Fits (parseInt : PyStr → Option Int) (obj : ObjectView) : Prop :=
  ∀ n, blobIdNumber parseInt obj = some n → IsU256 n

/-- What comes of an object whose number fits. -/
theorem blobIdFromObject_of_fits (h : Fits parseInt obj) :
    (∃ n, IsU256 n ∧ blobIdNumber parseInt obj = some n ∧
      blobIdFromObject parseInt obj = .ok (LittleEndian.encode 32 n.toNat)) ∨
    blobIdNumber parseInt obj = none ∧
      ∃ text, blobIdFromObject parseInt obj = .error (.valueError text) := by
  have hcases := blobIdFromObject_eq parseInt obj
  cases hnumber : blobIdNumber parseInt obj with
  | none =>
    rw [hnumber] at hcases
    exact .inr ⟨rfl, hcases⟩
  | some n =>
    rw [hnumber] at hcases
    refine .inl ⟨n, h n hnumber, rfl, ?_⟩
    rw [hcases, toBytes32_of_isU256 (h n hnumber)]

theorem blobIdFromObject_of_not_fits (h : ¬ Fits parseInt obj) :
    ∃ text, blobIdFromObject parseInt obj = .error (.overflowError text) := by
  simp only [Fits, not_forall] at h
  obtain ⟨n, hnumber, hlarge⟩ := h
  have hcases := blobIdFromObject_eq parseInt obj
  rw [hnumber] at hcases
  rw [hcases]
  exact toBytes32_of_not_isU256 hlarge

theorem decode_encode_toNat (h : IsU256 n) :
    (LittleEndian.decode (LittleEndian.encode 32 n.toNat) : Int) = n := by
  obtain ⟨hnonneg, hlt⟩ := h
  rw [LittleEndian.decode_encode_of_lt (by omega), Int.toNat_of_nonneg hnonneg]

/-- **An object is read, or refused with `ValueError`**, exactly if its number
fits. -/
theorem reads_iff_fits : Reads parseInt obj ↔ Fits parseInt obj := by
  constructor
  · intro hreads
    by_contra hfits
    obtain ⟨text, herror⟩ := blobIdFromObject_of_not_fits hfits
    rcases hreads with ⟨bytes, n, hok, -⟩ | ⟨e, he, hvalue⟩
    · exact nomatch herror.symm.trans hok
    · cases herror.symm.trans he
      cases hvalue
  · intro hfits
    rcases blobIdFromObject_of_fits hfits with ⟨n, hn, hnumber, hok⟩ | ⟨-, text, herror⟩
    · exact .inl ⟨_, n, hok, hnumber, LittleEndian.length_encode _ _, decode_encode_toNat hn⟩
    · exact .inr ⟨_, herror, rfl⟩

end BlobId

end BlobFields

end Pytusk
