import Pytusk.Ops.StorageChain
import Pytusk.Ops.StorageExecute
import Pytusk.Tusky.ReclaimBurn
import Pytusk.Tusky.FuseStorage
import Mathlib.Data.List.ReduceOption

/-!
# `extend_blob_with_storage`

The command looks at the blob and at the Storage before it sends anything.
What passes is what the chain extends; the listing of Storage objects that
could extend some owned blob goes by the same conditions.
-/

namespace Pytusk.StorageLedger

open Pytusk.Ops

/-- What `extend_with_resource` makes of the Storage of a blob, unless it aborts:
it fuses by periods. -/
def extendWithResource (certified : Bool) (currentEpoch : Int)
    (blobStorage extension : StorageObject) : Option StorageObject :=
  if certified ∧ currentEpoch < blobStorage.endEpoch ∧
      blobStorage.endEpoch < extension.endEpoch then
    fusePeriods blobStorage extension
  else none

variable {blobStorage extension : StorageObject} {currentEpoch : Int}

theorem exists_fusePeriods_iff :
    (∃ extended, fusePeriods blobStorage extension = some extended) ↔
      fusePeriodsIncompatibility blobStorage extension = none := by
  rw [fusePeriodsIncompatibility_eq_none]
  unfold fusePeriods
  split
  · rename_i hsize
    exact iff_of_false (fun ⟨_, h⟩ => nomatch h) fun h => hsize h.1
  · rename_i hsize
    split
    · rename_i htouch
      exact iff_of_true ⟨_, rfl⟩ ⟨not_not.mp hsize, .inl htouch⟩
    · rename_i hafter
      split
      · rename_i htouch
        exact iff_of_true ⟨_, rfl⟩ ⟨not_not.mp hsize, .inr htouch⟩
      · rename_i hbefore
        exact iff_of_false (fun ⟨_, h⟩ => nomatch h) fun h => h.2.elim hafter hbefore

/-- When a blob can be extended. -/
theorem exists_extendWithResource_iff {certified : Bool} :
    (∃ extended, extendWithResource certified currentEpoch blobStorage extension =
      some extended) ↔
      certified = true ∧ currentEpoch < blobStorage.endEpoch ∧
        blobStorage.endEpoch < extension.endEpoch ∧
        fusePeriodsIncompatibility blobStorage extension = none := by
  unfold extendWithResource
  split
  · rename_i hconditions
    rw [exists_fusePeriods_iff]
    exact ⟨fun h => ⟨hconditions.1, hconditions.2.1, hconditions.2.2, h⟩, fun h => h.2.2.2⟩
  · rename_i hconditions
    exact iff_of_false (fun ⟨_, h⟩ => nomatch h) fun h => hconditions ⟨h.1, h.2.1, h.2.2.1⟩

/-- An extension begins where the blob ended, and only the end moves. -/
theorem extendWithResource_spec {certified : Bool} {extended : StorageObject}
    (hrange : blobStorage.startEpoch < blobStorage.endEpoch)
    (h : extendWithResource certified currentEpoch blobStorage extension = some extended) :
    extended = { blobStorage with endEpoch := extension.endEpoch } ∧
      Joins extended blobStorage extension := by
  unfold extendWithResource at h
  split at h
  · rename_i hconditions
    unfold fusePeriods at h
    split at h
    · cases h
    · rename_i hsize
      split at h
      · rename_i htouch
        cases h
        refine ⟨rfl, fun epoch => ?_⟩
        unfold slabOf
        rw [← not_not.mp hsize, ← htouch]
        exact Pytusk.Lib.Slab.height_cut hrange.le hconditions.2.2.le _ _
      · split at h
        · -- it would have to end before the blob does
          rename_i htouch
          omega
        · cases h
  · cases h

end Pytusk.StorageLedger

namespace Pytusk.Tusky

open Pytusk.Lib Pytusk.Ops Pytusk.StorageLedger

/-! ## The command -/

structure ExtendArgs where
  objectId : String
  storageId : String
  sender : Option String
  sponsor : Option String
  deriving DecidableEq, Repr

/-- The `system::extend_blob_with_resource` call. -/
def extendWithResourceCall (systemObjId packageId objectId storageId : String) : BuilderCall :=
  .moveCall (packageId ++ "::system::extend_blob_with_resource")
    [.str systemObjId, .str objectId, .str storageId]

section Preflight

variable (parseInt : PyStr → Option Int) (h : Holdings)

/-- What is asked of the blob alone. -/
def extendableBlob (objectId : String) : Except CliExn StorageObject := do
  let blobObj ← fetchBlobObject h objectId
  let unreadable := fun e : PyExn => s!"Error reading blob {objectId}: {e.message}"
  let blobStorage ← orExit PyExn.isValueError unreadable (storageFromBlob parseInt blobObj)
  let blobEndEpoch := blobStorage.endEpoch
  let certifiedEpoch ← orExit PyExn.isValueError unreadable
    (BlobFields.blobCertifiedEpoch parseInt blobObj)
  if certifiedEpoch = none then
    .error (.systemExit <|
      s!"{objectId} is not certified; only certified blobs can " ++
        "be extended (Move abort: ENotCertified).")
  else do
    let currentEpoch ← orExit PyExn.isRuntimeError
      (fun e => s!"Cannot get current Walrus epoch: {e.message}") h.walrusEpoch
    if blobEndEpoch ≤ currentEpoch then
      .error (.systemExit <|
        s!"{objectId} is expired (end_epoch={blobEndEpoch}, " ++
          s!"current_epoch={currentEpoch}); expired blobs cannot be extended.")
    else return blobStorage

/-- The Storage that is to extend it. -/
def fetchExtension (storageId : String) : Except CliExn StorageObject := do
  match ← uncaught (h.getObject storageId) with
  | .failed resultString =>
      .error (.systemExit s!"Error fetching Storage object: {resultString}")
  | .ok none =>
      .error (.raised (.attributeError "'NoneType' object has no attribute 'object_type'"))
  | .ok (some obj) =>
      if storageTypeSuffix.toList <:+: (obj.objectType.getD "").toList then
        orExit PyExn.isValueError
          (fun e => s!"Error reading Storage {storageId}: {e.message}")
          (storageFromObject parseInt obj)
      else .error (.systemExit s!"{storageId} is not a Walrus Storage object.")

/-- All that is looked at before anything is sent. -/
def extendPreflight (objectId storageId : String) :
    Except CliExn (StorageObject × StorageObject) := do
  let blobStorage ← extendableBlob parseInt h objectId
  let extension ← fetchExtension parseInt h storageId
  if extension.endEpoch ≤ blobStorage.endEpoch then
    .error (.systemExit <|
      s!"Storage {storageId} ends at epoch {extension.endEpoch}, which is not later than blob " ++
        s!"{objectId}'s current end_epoch {blobStorage.endEpoch}; the " ++
        "extension would not extend anything (Move abort: EResourceBounds).")
  else
    match fusePeriodsIncompatibility blobStorage extension with
    | some reason => .error (.systemExit s!"Cannot extend: {reason}")
    | none => return (blobStorage, extension)

end Preflight

def extendBlobWithStorage (w : World) (book : AddressBook) (h : Holdings) (args : ExtendArgs) :
    Sending ExecutedTransaction := do
  let (sender, sponsor) ← signersOrExit w book args.sender args.sponsor
  let (blobStorage, extension) ← extendPreflight w.parseInt h args.objectId args.storageId
  let walrusPkg ← walrusPackageId w
  sendOrExit (h.transaction 0) sender sponsor
    (addOnly (extendWithResourceCall w.systemObject walrusPkg args.objectId args.storageId))
    (fun resultString => s!"Error in extend_blob_with_storage: {resultString}")
    (s!"Extended {args.objectId} from epoch {blobStorage.endEpoch} to " ++
      s!"{extension.endEpoch} using Storage {args.storageId}.")

/-! ## The listing -/

section Listing

variable (parseInt : PyStr → Option Int) (h : Holdings) (currentEpoch : Int)

/-- The body of the loop over the owned objects. -/
def candidateBlob (obj : ObjectView) : Except PyExn (Option (String × StorageObject)) :=
  if BlobFields.isBlobObject obj then
    match BlobFields.blobCertifiedEpoch parseInt obj with
    | .error e => if e.isValueError then .ok none else .error e
    | .ok none => .ok none
    | .ok (some _) =>
        match storageFromBlob parseInt obj with
        | .error e => if e.isValueError then .ok none else .error e
        | .ok blobStorage =>
            if blobStorage.endEpoch ≤ currentEpoch then .ok none
            else .ok (some (obj.objectId.getD "", blobStorage))
  else .ok none

/-- `_extend_candidate_blobs` -/
def extendCandidateBlobs : Except PyExn (List (String × StorageObject)) := do
  match ← h.ownedObjects with
  | .failed _ => return []
  | .ok none => .error (.attributeError "'NoneType' object has no attribute 'objects'")
  | .ok (some objects) => do
      let candidates ← objects.mapM (candidateBlob parseInt currentEpoch)
      return candidates.reduceOption

/-- `_extend_applicable` -/
def extendApplicable (storage : StorageObject) (candidateBlobs : List (String × StorageObject)) :
    Bool :=
  candidateBlobs.any fun (_, blobStorage) =>
    blobStorage.endEpoch < storage.endEpoch &&
      (fusePeriodsIncompatibility blobStorage storage).isNone

end Listing

/-! ## What passes -/

section Passes

variable {parseInt : PyStr → Option Int} {h : Holdings} {objectId storageId : String}
  {blobStorage extension : StorageObject} {currentEpoch : Int} {obj : ObjectView}

/-- A blob that is certified and not expired, with its Storage. -/
def Extendable (parseInt : PyStr → Option Int) (currentEpoch : Int) (obj : ObjectView)
    (blobStorage : StorageObject) : Prop :=
  BlobFields.isBlobObject obj ∧ storageFromBlob parseInt obj = .ok blobStorage ∧
    (∃ certified, BlobFields.blobCertifiedEpoch parseInt obj = .ok (some certified)) ∧
    currentEpoch < blobStorage.endEpoch

theorem extendableBlob_eq_ok (hepoch : h.walrusEpoch = .ok currentEpoch) :
    extendableBlob parseInt h objectId = .ok blobStorage ↔
      ∃ obj, h.getObject objectId = .ok (.ok (some obj)) ∧
        Extendable parseInt currentEpoch obj blobStorage := by
  unfold extendableBlob
  constructor
  · intro hok
    obtain ⟨obj, hobj, hok⟩ := bind_eq_ok.mp hok
    obtain ⟨hget, hblob⟩ := fetchBlobObject_eq_ok.mp hobj
    obtain ⟨storage, hstorage, hok⟩ := bind_eq_ok.mp hok
    obtain ⟨certified, hcertified, hok⟩ := bind_eq_ok.mp hok
    cases certified with
    | none => cases hok
    | some certified =>
      obtain ⟨epoch, hcurrent, hok⟩ := bind_eq_ok.mp hok
      cases hepoch.symm.trans (orExit_eq_ok.mp hcurrent)
      split at hok
      · cases hok
      · rename_i hactive
        cases hok
        exact ⟨obj, hget, hblob, orExit_eq_ok.mp hstorage,
          ⟨certified, orExit_eq_ok.mp hcertified⟩, not_le.mp hactive⟩
  · rintro ⟨obj, hget, hblob, hstorage, ⟨certified, hcertified⟩, hactive⟩
    rw [fetchBlobObject_eq_ok.mpr ⟨hget, hblob⟩, ok_bind]
    dsimp only
    rw [orExit_eq_ok.mpr hstorage, ok_bind, orExit_eq_ok.mpr hcertified, ok_bind,
      if_neg (Option.some_ne_none certified), orExit_eq_ok.mpr hepoch, ok_bind,
      if_neg (not_le.mpr hactive)]
    rfl

/-- The pre-flight passes exactly if the chain would extend. -/
theorem extendPreflight_eq_ok (hepoch : h.walrusEpoch = .ok currentEpoch) :
    extendPreflight parseInt h objectId storageId = .ok (blobStorage, extension) ↔
      (∃ obj, h.getObject objectId = .ok (.ok (some obj)) ∧
        Extendable parseInt currentEpoch obj blobStorage) ∧
      fetchExtension parseInt h storageId = .ok extension ∧
      ∃ extended, extendWithResource true currentEpoch blobStorage extension =
        some extended := by
  rw [exists_extendWithResource_iff, ← extendableBlob_eq_ok hepoch]
  unfold extendPreflight
  constructor
  · intro hok
    obtain ⟨storage, hstorage, hok⟩ := bind_eq_ok.mp hok
    obtain ⟨read, hread, hok⟩ := bind_eq_ok.mp hok
    split at hok
    · cases hok
    · rename_i hlater
      split at hok
      · cases hok
      · rename_i hfuse
        cases hok
        obtain ⟨obj, -, -, -, -, hactive⟩ := (extendableBlob_eq_ok hepoch).mp hstorage
        exact ⟨hstorage, hread, rfl, hactive, not_le.mp hlater, hfuse⟩
  · rintro ⟨hstorage, hread, -, -, hlater, hfuse⟩
    rw [hstorage, ok_bind, hread, ok_bind, if_neg (not_le.mpr hlater), hfuse]
    rfl

/-- What the loop over the owned objects collects. -/
theorem candidateBlob_eq_ok {candidate : String × StorageObject} :
    candidateBlob parseInt currentEpoch obj = .ok (some candidate) ↔
      candidate.1 = obj.objectId.getD "" ∧
        Extendable parseInt currentEpoch obj candidate.2 := by
  unfold candidateBlob Extendable
  by_cases hblob : BlobFields.isBlobObject obj
  · rw [if_pos hblob]
    cases hcertified : BlobFields.blobCertifiedEpoch parseInt obj with
    | error e =>
      dsimp only
      split <;> simp
    | ok certified =>
      cases certified with
      | none => simp
      | some certified =>
        cases hstorage : storageFromBlob parseInt obj with
        | error e =>
          dsimp only
          split <;> simp
        | ok blobStorage =>
          dsimp only
          split
          · rename_i hexpired
            refine iff_of_false (fun h => nomatch h) ?_
            rintro ⟨-, -, heq, -, hactive⟩
            cases heq
            exact not_le.mpr hactive hexpired
          · rename_i hactive
            constructor
            · intro heq
              cases heq
              exact ⟨rfl, hblob, rfl, ⟨certified, rfl⟩, not_le.mp hactive⟩
            · rintro ⟨hid, -, heq, -, -⟩
              obtain ⟨id, storage⟩ := candidate
              cases hid
              cases heq
              rfl
  · rw [if_neg hblob]
    simp [hblob]

theorem mem_extendCandidateBlobs {objects : List ObjectView}
    {candidates : List (String × StorageObject)} {candidate : String × StorageObject}
    (howned : h.ownedObjects = .ok (.ok (some objects)))
    (hcandidates : extendCandidateBlobs parseInt h currentEpoch = .ok candidates) :
    candidate ∈ candidates ↔ ∃ obj ∈ objects, candidate.1 = obj.objectId.getD "" ∧
      Extendable parseInt currentEpoch obj candidate.2 := by
  unfold extendCandidateBlobs at hcandidates
  rw [howned, ok_bind] at hcandidates
  obtain ⟨found, hfound, heq⟩ := bind_eq_ok.mp hcandidates
  cases heq
  rw [List.reduceOption_mem_iff]
  constructor
  · intro hmem
    obtain ⟨obj, hobj, hread⟩ := exists_of_mem_mapM hfound hmem
    exact ⟨obj, hobj, candidateBlob_eq_ok.mp hread⟩
  · rintro ⟨obj, hobj, hread⟩
    obtain ⟨read, hmem, hok⟩ := exists_mem_of_mapM hfound hobj
    rw [candidateBlob_eq_ok.mpr hread] at hok
    cases hok
    exact hmem

theorem extendApplicable_iff {storage : StorageObject}
    {candidates : List (String × StorageObject)} :
    extendApplicable storage candidates = true ↔ ∃ candidate ∈ candidates,
      candidate.2.endEpoch < storage.endEpoch ∧
        fusePeriodsIncompatibility candidate.2 storage = none := by
  simp [extendApplicable, List.any_eq_true]

/-- What the command submits. -/
theorem submitted_extendBlobWithStorage {w : World} {book : AddressBook} {args : ExtendArgs}
    {packageId : String} {txn : Txn} (hpkg : walrusPackageId w = .ok packageId)
    (hsent : .submitted txn ∈ (extendBlobWithStorage w book h args).log) :
    (∃ blobStorage extension,
      extendPreflight w.parseInt h args.objectId args.storageId = .ok (blobStorage, extension)) ∧
    txn.calls =
      [extendWithResourceCall w.systemObject packageId args.objectId args.storageId] := by
  unfold extendBlobWithStorage at hsent
  simp only [Logged.monadLift_eq, Logged.mem_log_bind, Logged.log_lift, Logged.result_lift,
    List.not_mem_nil, false_or] at hsent
  obtain ⟨⟨sender, sponsor⟩, -, ⟨blobStorage, extension⟩, hpreflight, walrusPkg, hwalrus, hsent⟩ :=
    hsent
  cases hpkg.symm.trans hwalrus
  refine ⟨⟨blobStorage, extension, hpreflight⟩, ?_⟩
  rw [addOnly_eq_ok (submitted_sendOrExit hsent)]

end Passes

/-! ## The command and the listing -/

section Agree

variable (w : World) (book : AddressBook) (h : Holdings) {currentEpoch : Int}

/-- **Only what can be extended is sent, and only what can be sent is listed.**
What the command submits, the chain extends: the blob then ends where the
Storage does and holds what both did. And a Storage is listed as one that
could extend a blob exactly if the command's pre-flight passes on it and one
of the blobs owned. -/
theorem extendBlobWithStorage_agrees (hepoch : h.walrusEpoch = .ok currentEpoch) :
    (∀ args packageId txn, walrusPackageId w = .ok packageId →
      .submitted txn ∈ (extendBlobWithStorage w book h args).log →
      txn.calls =
        [extendWithResourceCall w.systemObject packageId args.objectId args.storageId] ∧
      ∃ obj blobStorage extension extended,
        h.getObject args.objectId = .ok (.ok (some obj)) ∧
        Extendable w.parseInt currentEpoch obj blobStorage ∧
        fetchExtension w.parseInt h args.storageId = .ok extension ∧
        extendWithResource true currentEpoch blobStorage extension = some extended ∧
        (blobStorage.startEpoch < blobStorage.endEpoch →
          extended = { blobStorage with endEpoch := extension.endEpoch } ∧
            Joins extended blobStorage extension)) ∧
    ∀ objects candidates storageId storage,
      h.ownedObjects = .ok (.ok (some objects)) →
      (∀ obj ∈ objects, BlobFields.isBlobObject obj →
        h.getObject (obj.objectId.getD "") = .ok (.ok (some obj))) →
      extendCandidateBlobs w.parseInt h currentEpoch = .ok candidates →
      fetchExtension w.parseInt h storageId = .ok storage →
      (extendApplicable storage candidates = true ↔ ∃ obj ∈ objects,
        BlobFields.isBlobObject obj ∧ ∃ blobStorage,
          extendPreflight w.parseInt h (obj.objectId.getD "") storageId =
            .ok (blobStorage, storage)) := by
  constructor
  · intro args packageId txn hpkg hsent
    obtain ⟨⟨blobStorage, extension, hpreflight⟩, hcalls⟩ :=
      submitted_extendBlobWithStorage hpkg hsent
    obtain ⟨⟨obj, hget, hextendable⟩, hread, extended, hextended⟩ :=
      (extendPreflight_eq_ok hepoch).mp hpreflight
    exact ⟨hcalls, obj, blobStorage, extension, extended, hget, hextendable, hread, hextended,
      fun hrange => extendWithResource_spec hrange hextended⟩
  · intro objects candidates storageId storage howned hserved hcandidates hread
    rw [extendApplicable_iff]
    constructor
    · rintro ⟨candidate, hmem, hlater, hfuse⟩
      obtain ⟨obj, hobj, -, hextendable⟩ :=
        (mem_extendCandidateBlobs howned hcandidates).mp hmem
      refine ⟨obj, hobj, hextendable.1, candidate.2, (extendPreflight_eq_ok hepoch).mpr
        ⟨⟨obj, hserved obj hobj hextendable.1, hextendable⟩, hread, ?_⟩⟩
      exact exists_extendWithResource_iff.mpr ⟨rfl, hextendable.2.2.2, hlater, hfuse⟩
    · rintro ⟨obj, hobj, hblob, blobStorage, hpreflight⟩
      obtain ⟨⟨served, hget, hextendable⟩, -, hextended⟩ :=
        (extendPreflight_eq_ok hepoch).mp hpreflight
      cases (hserved obj hobj hblob).symm.trans hget
      obtain ⟨-, -, hlater, hfuse⟩ := exists_extendWithResource_iff.mp hextended
      exact ⟨(obj.objectId.getD "", blobStorage),
        (mem_extendCandidateBlobs howned hcandidates).mpr ⟨obj, hobj, rfl, hextendable⟩,
        hlater, hfuse⟩

/-- A certified blob up to epoch 5. -/
def certifiedBlob : ObjectView where
  objectId := some "0xb"
  objectType := some "0x1::blob::Blob"
  ownerAddress := none
  balance := none
  json := some (.dict [(Json.key "certified_epoch", .int 1), (Json.key "storage", .dict
    [(Json.key "start_epoch", .int 1), (Json.key "end_epoch", .int 5),
      (Json.key "storage_size", .int 10)])])

/-- A Storage from there on. -/
def laterStorage : ObjectView where
  objectId := some "0xs"
  objectType := some "0x1::storage_resource::Storage"
  ownerAddress := none
  balance := none
  json := some (.dict [(Json.key "start_epoch", .int 5), (Json.key "end_epoch", .int 9),
    (Json.key "storage_size", .int 10)])

def extendHoldings : Holdings :=
  { acceptingHoldings with
    getObject := fun id => .ok (.ok (some (if id = "0xb" then certifiedBlob else laterStorage)))
    ownedObjects := .ok (.ok (some [certifiedBlob]))
    walrusEpoch := .ok 2 }

theorem extendBlobWithStorage_agrees_small :
    extendApplicable ⟨"0xs", 5, 9, 10⟩ [("0xb", ⟨"", 1, 5, 10⟩)] = true := by
  have hcandidates : extendCandidateBlobs World.small.parseInt extendHoldings 2 =
      .ok [("0xb", ⟨"", 1, 5, 10⟩)] := by decide +kernel
  have hread : fetchExtension World.small.parseInt extendHoldings "0xs" =
      .ok ⟨"0xs", 5, 9, 10⟩ := by decide +kernel
  have hserved : ∀ obj ∈ [certifiedBlob], BlobFields.isBlobObject obj →
      extendHoldings.getObject (obj.objectId.getD "") = .ok (.ok (some obj)) := by
    intro obj hobj _
    rw [List.mem_singleton.mp hobj]
    rfl
  refine ((extendBlobWithStorage_agrees World.small ⟨fun _ => .ok (), .ok⟩ extendHoldings rfl).2
    [certifiedBlob] _ "0xs" ⟨"0xs", 5, 9, 10⟩ rfl hserved hcandidates hread).mpr ?_
  exact ⟨certifiedBlob, .head _, by decide +kernel, ⟨"", 1, 5, 10⟩, by decide +kernel⟩

end Agree

end Pytusk.Tusky
