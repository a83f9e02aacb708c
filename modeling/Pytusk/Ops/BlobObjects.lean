import Pytusk.Chain.BlobFields
import Pytusk.Chain.Events
import Pytusk.Types.BlobStatus
import Pytusk.Types.Protocols

/-!
# `ops/blob_status.py`: from a blob to its objects

`resolve_blob_sui_objects` looks through what an account owns and then, for a
permanent blob, follows its status event. An object that cannot be read is
passed over if reading it raises `ValueError`.
-/

namespace Pytusk.Ops

open Pytusk.Lib Pytusk.BlobFields

/-! ## What the chain is asked -/

/-- An event, with `contents.value`. -/
structure EventView where
  eventType : Option PyStr
  contents : Option (Option Bytes)
  deriving DecidableEq, Repr

/-- What answers: the owned objects, the events of a transaction by its
digest, and an object by its id. -/
structure ObjectReader where
  owned : ExecuteOutcome (List ObjectView)
  transaction : PyStr → ExecuteOutcome (Option (List EventView))
  object : String → ExecuteOutcome ObjectView

/-- `fetch_event_object_id`, of `chain/events.py` -/
def fetchEventObjectId (reader : ObjectReader) (txDigest : PyStr) (eventSeq : Int) :
    Except PyExn (Option String) := do
  match ← reader.transaction txDigest with
  | .failed _ | .ok none | .ok (some none) => return none
  | .ok (some (some events)) =>
      if eventSeq < 0 ∨ events.length ≤ eventSeq then return none
      else
        match events[eventSeq.toNat]? with
        | some ⟨some eventType, some (some value)⟩ => Events.eventObjectId eventType value
        | _ => return none

/-! ## The tiers -/

section Tiers

variable (parseInt : PyStr → Option Int) (blobId : Bytes)

/-- The loop over the owned objects. -/
def ownedBlobObjects : List ObjectView → Except PyExn (List ObjectView)
  | [] => .ok []
  | obj :: rest =>
      if isBlobObject obj then
        match blobIdFromObject parseInt obj with
        | .ok id => do
            let others ← ownedBlobObjects rest
            return if id = blobId then obj :: others else others
        | .error e => if e.isValueError then ownedBlobObjects rest else .error e
      else ownedBlobObjects rest

variable (reader : ObjectReader) (report : BlobStatusReport)

/-- The objects found in the scan; a listing that failed has none. -/
def scanOwned : Except PyExn (List ObjectView) := do
  match ← reader.owned with
  | .failed _ => return []
  | .ok none => .error (.attributeError "'NoneType' object has no attribute 'objects'")
  | .ok (some objects) => ownedBlobObjects parseInt blobId objects

/-- The object of the status event; the answer may carry none. -/
def eventBlobObjects : Except PyExn (List (Option ObjectView)) :=
  match report.status with
  | .reported (.permanent _ _ statusEvent _ _) => do
      match ← fetchEventObjectId reader statusEvent.txDigest statusEvent.eventSeq with
      | none => return []
      | some objectId =>
          match ← reader.object objectId with
          | .failed _ => return []
          | .ok found => return [found]
  | _ => return []

/-- The tiers after the scan. -/
def laterTiers : Except PyExn (List (Option ObjectView) × Nat) := do
  let found ← eventBlobObjects reader report
  return if found = [] then ([], 4) else (found, 3)

def resolveBlobSuiObjects (knownBlobSuiObject : Option ObjectView) :
    Except PyExn (List (Option ObjectView) × Nat) :=
  match knownBlobSuiObject with
  | some known => .ok ([some known], 2)
  | none => do
      let scanned ← scanOwned parseInt blobId reader
      if scanned = [] then laterTiers reader report else return (scanned.map some, 2)

end Tiers

/-! ## What the scan finds -/

section Scan

variable {parseInt : PyStr → Option Int} {blobId : Bytes} {objects : List ObjectView}
  {obj : ObjectView}

/-- A Blob object whose number is that of the id. -/
def matchesId (parseInt : PyStr → Option Int) (blobId : Bytes) (obj : ObjectView) : Bool :=
  isBlobObject obj && blobId.length = 32 &&
    blobIdNumber parseInt obj = some (LittleEndian.decode blobId : Int)

/-- The numbers of all Blob objects fit. -/
def AllFit (parseInt : PyStr → Option Int) (objects : List ObjectView) : Prop :=
  ∀ obj ∈ objects, isBlobObject obj = true → Fits parseInt obj

/-- The bytes of a number that fits are the id's exactly if the numbers are equal. -/
theorem matchesId_of_number {n : Int} (hblob : isBlobObject obj = true) (hn : IsU256 n)
    (hnumber : blobIdNumber parseInt obj = some n) :
    LittleEndian.encode 32 n.toNat = blobId ↔ matchesId parseInt blobId obj = true := by
  have hsame : (n = (LittleEndian.decode blobId : Int)) ↔
      LittleEndian.decode blobId = n.toNat := by
    have hnonneg := hn.1
    omega
  have hlt : n.toNat < 256 ^ 32 := by
    obtain ⟨hnonneg, hlt⟩ := hn
    omega
  rw [LittleEndian.encode_eq_iff hlt, matchesId, hblob, hnumber, ← hsame]
  simp

/-- The step lemma: one object more. -/
theorem ownedBlobObjects_cons (hfits : isBlobObject obj = true → Fits parseInt obj)
    (rest : List ObjectView) :
    ownedBlobObjects parseInt blobId (obj :: rest) = do
      let others ← ownedBlobObjects parseInt blobId rest
      return if matchesId parseInt blobId obj then obj :: others else others := by
  rw [ownedBlobObjects]
  split
  · rename_i hblob
    rcases blobIdFromObject_of_fits (hfits hblob) with
      ⟨n, hn, hnumber, hok⟩ | ⟨hnumber, text, herror⟩
    · rw [hok]
      dsimp only
      simp only [matchesId_of_number hblob hn hnumber]
    · -- an object with no number matches nothing
      have hnone : matchesId parseInt blobId obj = false := by simp [matchesId, hnumber]
      rw [herror, hnone]
      exact (bind_pure _).symm
  · rename_i hblob
    have hnone : matchesId parseInt blobId obj = false := by simp [matchesId, hblob]
    rw [hnone]
    exact (bind_pure _).symm

theorem ownedBlobObjects_of_allFit (hfit : AllFit parseInt objects) :
    ownedBlobObjects parseInt blobId objects =
      .ok (objects.filter (matchesId parseInt blobId)) := by
  induction objects with
  | nil => rfl
  | cons obj rest ih =>
    obtain ⟨hobj, hrest⟩ := List.forall_mem_cons.mp hfit
    rw [ownedBlobObjects_cons hobj rest, ih hrest, ok_bind, List.filter_cons]
    rfl

/-- The first number that does not fit ends the scan. -/
theorem ownedBlobObjects_of_not_allFit (hfit : ¬ AllFit parseInt objects) :
    ∃ text, ownedBlobObjects parseInt blobId objects = .error (.overflowError text) := by
  induction objects with
  | nil => exact absurd (List.forall_mem_nil _) hfit
  | cons obj rest ih =>
    by_cases hobj : isBlobObject obj = true → Fits parseInt obj
    · have hrest : ¬ AllFit parseInt rest := fun hrest =>
        hfit (List.forall_mem_cons.mpr ⟨hobj, hrest⟩)
      obtain ⟨text, herror⟩ := ih hrest
      exact ⟨text, by rw [ownedBlobObjects_cons hobj rest, herror, error_bind]⟩
    · obtain ⟨hblob, hlarge⟩ := Classical.not_imp.mp hobj
      obtain ⟨text, herror⟩ := blobIdFromObject_of_not_fits hlarge
      refine ⟨text, ?_⟩
      rw [ownedBlobObjects, if_pos hblob, herror]
      rfl

/-- **A malformed object is passed over** exactly if its number, where it has
one, fits into 32 bytes. Then the lookup finds precisely the Blob objects whose
id matches; else it raises `OverflowError`. -/
theorem resolveBlobSuiObjects_tolerates (parseInt : PyStr → Option Int) :
    (∀ obj, Reads parseInt obj ↔ Fits parseInt obj) ∧
    ∀ (reader : ObjectReader) (blobId : Bytes) (report : BlobStatusReport)
      (objects : List ObjectView), reader.owned = .ok (.ok (some objects)) →
      let matching := objects.filter (matchesId parseInt blobId)
      let resolved := resolveBlobSuiObjects parseInt blobId reader report none
      (ownedBlobObjects parseInt blobId objects = .ok matching ↔ AllFit parseInt objects) ∧
      (matching ≠ [] → (resolved = .ok (matching.map some, 2) ↔ AllFit parseInt objects)) ∧
      (matching = [] → AllFit parseInt objects → resolved = laterTiers reader report) ∧
      (¬ AllFit parseInt objects → ∃ text, resolved = .error (.overflowError text)) := by
  refine ⟨fun obj => reads_iff_fits, fun reader blobId report objects howned => ?_⟩
  intro matching resolved
  have hresolved : resolved = (ownedBlobObjects parseInt blobId objects >>= fun scanned =>
      if scanned = [] then laterTiers reader report else return (scanned.map some, 2)) := by
    show resolveBlobSuiObjects parseInt blobId reader report none = _
    rw [resolveBlobSuiObjects, scanOwned, howned]
    rfl
  rw [hresolved]
  by_cases hfit : AllFit parseInt objects
  · rw [ownedBlobObjects_of_allFit hfit, ok_bind]
    refine ⟨iff_of_true rfl hfit, fun hne => iff_of_true ?_ hfit, fun hnone _ => ?_,
      fun hnot => absurd hfit hnot⟩
    · rw [if_neg hne]
      rfl
    · rw [if_pos hnone]
  · obtain ⟨text, herror⟩ : ∃ text, ownedBlobObjects parseInt blobId objects =
        .error (.overflowError text) := ownedBlobObjects_of_not_allFit hfit
    rw [herror, error_bind]
    exact ⟨iff_of_false (fun h => nomatch h) hfit, fun _ => iff_of_false (fun h => nomatch h) hfit,
      fun _ hall => absurd hall hfit, fun _ => ⟨text, rfl⟩⟩

/-- The numbers that two texts stand for. -/
private def twoNumbers (s : PyStr) : Option Int :=
  if s = Json.key "5" then some 5 else if s = Json.key "-1" then some (-1) else none

/-- A Blob object with a text for its number. -/
private def blobWith (text : String) : ObjectView where
  objectId := some "0xb"
  objectType := some "0x1::blob::Blob"
  ownerAddress := none
  balance := none
  json := some (.dict [(Json.key "blob_id", .str (Json.key text))])

/-- The owner of these objects; nothing else is found. -/
private def ownerOf (objects : List ObjectView) : ObjectReader where
  owned := .ok (.ok (some objects))
  transaction _ := .ok (.failed "not found")
  object _ := .ok (.failed "not found")

private def noVerdict : BlobStatusReport := ⟨[], .unresolved, .unresolved, 0, [], []⟩

/-- The text of the first stands for no number, and the second has no view. -/
private def threeBlobs : List ObjectView :=
  [blobWith "soon", { blobWith "5" with json := none }, blobWith "5"]

theorem resolveBlobSuiObjects_tolerates_five :
    resolveBlobSuiObjects twoNumbers (LittleEndian.encode 32 5) (ownerOf threeBlobs)
      noVerdict none = .ok ([some (blobWith "5")], 2) := by
  have hfit : AllFit twoNumbers threeBlobs := by
    refine List.forall_mem_cons.mpr ⟨fun _ n hn => (nomatch hn), List.forall_mem_cons.mpr
      ⟨fun _ n hn => (nomatch hn), List.forall_mem_singleton.mpr fun _ n hn => ?_⟩⟩
    cases (show some (5 : Int) = some n from hn)
    exact ⟨by decide, by decide⟩
  exact (((resolveBlobSuiObjects_tolerates twoNumbers).2 (ownerOf threeBlobs)
    (LittleEndian.encode 32 5) noVerdict threeBlobs rfl).2.1 (by decide)).mpr hfit

/-- A negative number is not a `ValueError`. -/
theorem resolveBlobSuiObjects_negative :
    blobIdFromObject twoNumbers (blobWith "-1") =
      .error (.overflowError "can't convert negative int to unsigned") ∧
    resolveBlobSuiObjects twoNumbers (LittleEndian.encode 32 5) (ownerOf [blobWith "-1"])
      noVerdict none = .error (.overflowError "can't convert negative int to unsigned") :=
  ⟨by rfl, by rfl⟩

end Scan

end Pytusk.Ops
