import Pytusk.Tusky.FuseStorage
import Pytusk.Tusky.ReclaimBurn

/-!
# `delete_blob`

One blob, or all that are owned. An active deletable blob is deleted, and the
Storage that returns goes to the sender in the same transaction; `--burn` also
burns what cannot be deleted, one blob whatever it is, of all blobs only the
expired ones.
-/

namespace Pytusk.Tusky

open Pytusk.Lib Pytusk.Ops

/-! ## Deleting -/

section Delete

variable (systemObjId walrusPkg : String)

/-- The `system::delete_blob` call. -/
def deleteCall (blobId : String) : BuilderCall :=
  .moveCall (walrusPkg ++ "::system::delete_blob") [.str systemObjId, .str blobId]

/-- The body of the loop over a batch: `storage_objects` is the second. -/
def addDelete (builder : Builder) (acc : Txn × List Argument) (blobId : String) :
    Except PyExn (Txn × List Argument) := do
  let (txn, storage) ← acc.1.add builder (deleteCall systemObjId walrusPkg blobId)
  return (txn, acc.2 ++ [storage])

/-- Delete the blobs of a batch, and transfer what they return. -/
def addDeletes (sender : String) (batch : List String) (builder : Builder) (txn : Txn) :
    Except PyExn Txn := do
  let (txn, storageObjects) ← batch.foldlM (addDelete systemObjId walrusPkg builder) (txn, [])
  let (txn, _) ← txn.add builder (.transferObjects storageObjects sender)
  return txn

variable (h : Holdings) (sender : String) (sponsor : Option String) (total : Nat)

def deleteFailure (k : Nat) (batch : List String) (resultString : String) : String :=
  s!"Error deleting batch {k + 1}/{total} ({batch.length} blob(s)): {resultString}"

def deleteReport (k : Nat) (batch : List String) : String :=
  s!"Deleted batch {k + 1}/{total} ({batch.length} blob(s))."

/-- The batches from the `k`-th on, which is counted from zero. -/
def deleteBatches (k : Nat) : List (List String) → Sending Unit
  | [] => pure ()
  | batch :: rest => do
      let _ ← sendOrExit (h.transaction k) sender sponsor
        (addDeletes systemObjId walrusPkg sender batch) (deleteFailure total k batch)
        (deleteReport total k batch)
      deleteBatches (k + 1) rest

end Delete

/-! ## Which blobs -/

/-- What is done with the blob that is named. -/
inductive Disposal where
  | delete
  | burn (warning : Option String)
  | ineligible (line : String)
  deriving DecidableEq, Repr

structure DeleteArgs where
  objectId : Option String
  burn : Bool
  sender : Option String
  sponsor : Option String
  deriving DecidableEq, Repr

def pyBool (b : Bool) : String := if b then "True" else "False"

def disposal (burn : Bool) (objectId : String) (deletable : Bool) (endEpoch currentEpoch : Int) :
    Disposal :=
  if deletable ∧ currentEpoch < endEpoch then .delete
  else if burn then
    .burn <|
      if currentEpoch < endEpoch then
        some (s!"Warning: {objectId} is not expired (end_epoch={endEpoch}, " ++
          s!"current_epoch={currentEpoch}) and not deletable; burning it now destroys an " ++
          "active, paid-for blob irreversibly.")
      else none
  else
    let shown := pyBool deletable
    .ineligible (s!"{objectId} is not eligible for delete_blob (deletable={shown}, " ++
      s!"end_epoch={endEpoch}, current_epoch={currentEpoch}); pass --burn to burn it instead.")

/-- `active_deletable` and `expired` -/
structure SortedBlobs where
  activeDeletable : List String
  expired : List String
  deriving DecidableEq, Repr

section Which

variable (parseInt : PyStr → Option Int)

/-- Read the blob that is named. -/
def fetchBlob (h : Holdings) (objectId : String) : Except CliExn (Bool × Int) := do
  let obj ← fetchBlobObject h objectId
  orExit PyExn.isValueError (fun e => s!"Error reading blob {objectId}: {e.message}")
    (BlobFields.blobDeletableAndEndEpoch parseInt obj)

/-- The body of the loop over the owned objects. An id the node leaves out is
the empty one. -/
def sortBlob (currentEpoch : Int) (sorted : SortedBlobs) (obj : ObjectView) :
    Except CliExn SortedBlobs :=
  if BlobFields.isBlobObject obj then
    match BlobFields.blobDeletableAndEndEpoch parseInt obj with
    | .error e => if e.isValueError then .ok sorted else .error (.raised e)
    | .ok (deletable, endEpoch) =>
        let objectId := obj.objectId.getD ""
        if endEpoch ≤ currentEpoch then
          .ok { sorted with expired := sorted.expired ++ [objectId] }
        else if deletable then
          .ok { sorted with activeDeletable := sorted.activeDeletable ++ [objectId] }
        else .ok sorted
  else .ok sorted

def sortBlobs (currentEpoch : Int) (objects : List ObjectView) : Except CliExn SortedBlobs :=
  objects.foldlM (sortBlob parseInt currentEpoch) ⟨[], []⟩

def ownedBlobs (h : Holdings) (currentEpoch : Int) : Except CliExn SortedBlobs := do
  match ← uncaught h.ownedObjects with
  | .failed resultString => .error (.systemExit s!"Error listing owned objects: {resultString}")
  | .ok none => .error (.raised (.attributeError "'NoneType' object has no attribute 'objects'"))
  | .ok (some objects) => sortBlobs parseInt currentEpoch objects

end Which

/-! ## The command -/

section Command

variable (systemObjId walrusPkg : String) (h : Holdings) (sender : String)
  (sponsor : Option String)

/-- The mode for one blob; the transaction is opened before it is known what
is to be done. -/
def deleteOne (objectId : String) (whatToDo : Disposal) : Sending Unit := do
  let failure := fun resultString => s!"Error in delete_blob: {resultString}"
  match whatToDo with
  | .delete =>
      let _ ← sendOrExit (h.transaction 0) sender sponsor
        (addDeletes systemObjId walrusPkg sender [objectId]) failure s!"Deleted {objectId}."
  | .burn _ =>
      let _ ← sendOrExit (h.transaction 0) sender sponsor
        (Txn.addEach · (burnCall walrusPkg) [objectId]) failure s!"Burned {objectId}."
  | .ineligible line => do
      Logged.emit (.opened sender sponsor)
      Logged.lift (uncaught (h.transaction 0).opening)
      Logged.raise (.systemExit line)

/-- The mode for all blobs. -/
def deleteAll (burn : Bool) (sorted : SortedBlobs) : Sending Unit := do
  if sorted.activeDeletable = [] ∧ ¬ (burn ∧ sorted.expired ≠ []) then
    Logged.emit (.reported "No blobs to delete.")
  else do
    let batches := slices maxOpsPerPtb sorted.activeDeletable
    deleteBatches systemObjId walrusPkg h sender sponsor batches.length 0 batches
    if burn ∧ sorted.expired ≠ [] then
      let later := { h with transaction := fun k => h.transaction (batches.length + k) }
      let _ ← burnBlobBatches later walrusPkg sorted.expired sender sponsor "Burned expired batch"

end Command

def deleteBlob (w : World) (book : AddressBook) (h : Holdings) (args : DeleteArgs) :
    Sending Unit := do
  let (sender, sponsor) ← signersOrExit w book args.sender args.sponsor
  let currentEpoch ← orExit PyExn.isRuntimeError
    (fun e => s!"Cannot get current Walrus epoch: {e.message}") h.walrusEpoch
  let walrusPkg ← walrusPackageId w
  if isGiven args.objectId then
    let objectId := args.objectId.getD ""
    let (deletable, endEpoch) ← fetchBlob w.parseInt h objectId
    deleteOne w.systemObject walrusPkg h sender sponsor objectId
      (disposal args.burn objectId deletable endEpoch currentEpoch)
  else
    let sorted ← ownedBlobs w.parseInt h currentEpoch
    deleteAll w.systemObject walrusPkg h sender sponsor args.burn sorted

/-! ## What is submitted -/

section Submitted

variable {h : Holdings} {sender : String} {sponsor : Option String} {k : Nat}

theorem submitsInOrder_sendOrExit {compose : Builder → Txn → Except PyExn Txn} {txn : Txn}
    (failure : String → String) (report : String)
    (hcompose : ∀ composed, compose (h.transaction k).builder ⟨sender, sponsor, []⟩ = .ok composed →
      composed = txn) :
    SubmitsInOrder h k [txn]
      (sendOrExit (h.transaction k) sender sponsor compose failure report) := by
  unfold sendOrExit
  rcases send_cases (h.transaction k) sender sponsor compose with
    ⟨e, hsend⟩ | ⟨composed, e, -, hsend⟩ | ⟨composed, hok, hsend⟩
  · rw [hsend, Logged.mk_error_bind]
    exact Script.follows_error rfl rfl
  · rw [hsend, Logged.mk_error_bind]
    exact Script.follows_error rfl rfl
  · rw [hsend, hcompose composed hok]
    -- it is submitted, whatever comes of it
    cases hexecution : (h.transaction k).execution with
    | error e => exact Script.follows_last rfl fun a ha => nomatch ha
    | ok result =>
      have hanswer : uncaught (.ok result : ExecuteOutcome ExecutedTransaction) = .ok result := rfl
      rw [hanswer, Logged.mk_ok_bind]
      cases result with
      | failed resultString => exact Script.follows_last rfl fun a ha => nomatch ha
      | ok data => exact Script.follows_last rfl fun _ _ => ⟨data, hexecution⟩

/-! ### The batches that delete -/

section Deletions

variable {systemObjId walrusPkg : String}

/-- The transaction that deletes a batch, and gives what returns to the sender. -/
def deletionTxn (systemObjId walrusPkg sender : String) (sponsor : Option String)
    (batch : List String) : Txn where
  sender := sender
  sponsor := sponsor
  calls := batch.map (deleteCall systemObjId walrusPkg) ++
    [.transferObjects ((List.range batch.length).map .result) sender]

theorem commands_deleteCalls (batch : List String) :
    (batch.map (deleteCall systemObjId walrusPkg)).filter BuilderCall.isCommand =
      batch.map (deleteCall systemObjId walrusPkg) := by
  rw [List.filter_eq_self]
  intro call hcall
  obtain ⟨blobId, -, rfl⟩ := List.mem_map.mp hcall
  rfl

/-- The loop over a batch: one call for each blob, and its result. -/
theorem foldlM_addDelete_eq_ok {builder : Builder} {txn : Txn} {batch : List String}
    {acc : Txn × List Argument}
    (hnone : txn.calls = [])
    (hrun : batch.foldlM (addDelete systemObjId walrusPkg builder) (txn, []) = .ok acc) :
    acc = ({ txn with calls := batch.map (deleteCall systemObjId walrusPkg) },
      (List.range batch.length).map .result) := by
  induction batch using List.reverseRecOn generalizing acc with
  | nil =>
    cases hrun
    rw [List.map_nil, ← hnone]
    rfl
  | append_singleton batch blobId ih =>
    obtain ⟨middle, hmiddle, hlast⟩ := foldlM_snoc_eq_ok.mp hrun
    obtain ⟨⟨added, storage⟩, hadd, heq⟩ := bind_eq_ok.mp hlast
    obtain ⟨-, hadded⟩ := Txn.add_eq_ok.mp hadd
    cases ih hmiddle
    cases hadded
    cases heq
    simp [Txn.commands, commands_deleteCalls, List.range_succ]

theorem addDeletes_eq_ok {builder : Builder} {batch : List String} {composed : Txn}
    (h : addDeletes systemObjId walrusPkg sender batch builder ⟨sender, sponsor, []⟩ =
      .ok composed) :
    composed = deletionTxn systemObjId walrusPkg sender sponsor batch := by
  obtain ⟨⟨txn, storageObjects⟩, hloop, hrest⟩ := bind_eq_ok.mp h
  obtain ⟨⟨added, _⟩, hadd, heq⟩ := bind_eq_ok.mp hrest
  obtain ⟨-, hadded⟩ := Txn.add_eq_ok.mp hadd
  cases foldlM_addDelete_eq_ok rfl hloop
  cases hadded
  cases heq
  rfl

theorem submitsInOrder_deleteBatches (total : Nat) (batches : List (List String)) :
    SubmitsInOrder h k (batches.map (deletionTxn systemObjId walrusPkg sender sponsor))
      (deleteBatches systemObjId walrusPkg h sender sponsor total k batches) := by
  induction batches generalizing k with
  | nil => exact Script.follows_pure ()
  | cons batch rest ih =>
    exact (submitsInOrder_sendOrExit _ _ fun _ hcomposed => addDeletes_eq_ok hcomposed).bind
      fun _ _ => ih

/-! ### The two modes -/

/-- What is submitted for one blob. -/
def disposalScript (systemObjId walrusPkg sender : String) (sponsor : Option String)
    (objectId : String) : Disposal → List Txn
  | .delete => [deletionTxn systemObjId walrusPkg sender sponsor [objectId]]
  | .burn _ => [batchTxn (burnCall walrusPkg) sender sponsor [objectId]]
  | .ineligible _ => []

theorem submitsInOrder_deleteOne (objectId : String) (whatToDo : Disposal) :
    SubmitsInOrder h 0 (disposalScript systemObjId walrusPkg sender sponsor objectId whatToDo)
      (deleteOne systemObjId walrusPkg h sender sponsor objectId whatToDo) := by
  cases whatToDo with
  | delete =>
    exact (submitsInOrder_sendOrExit _ _ fun _ hcomposed => addDeletes_eq_ok hcomposed).andThen
      fun _ => rfl
  | burn warning =>
    refine (submitsInOrder_sendOrExit _ _ fun _ hcomposed => ?_).andThen fun _ => rfl
    exact Txn.addEach_eq_ok hcomposed
  | ineligible line =>
    refine Script.follows_nil ?_
    show Script.taken submittedTxn ((Logged.emit _ >>= _ : Sending Unit)) = []
    cases hopening : (h.transaction 0).opening with
    | error e => rfl
    | ok _ => rfl

theorem submitsInOrder_burnBlobBatches {n : Nat} (blobIds : List String) (label : String) :
    SubmitsInOrder h n
      ((slices maxOpsPerPtb blobIds).map (batchTxn (burnCall walrusPkg) sender sponsor))
      (burnBlobBatches { h with transaction := fun k => h.transaction (n + k) } walrusPkg blobIds
        sender sponsor label) := by
  have hbatches : StopsAt (burnText label) (burnCall walrusPkg)
      (Accepted { h with transaction := fun k => h.transaction (n + k) }) sender sponsor
      (slices maxOpsPerPtb blobIds)
      (burnBlobBatches { h with transaction := fun k => h.transaction (n + k) } walrusPkg blobIds
        sender sponsor label) := stopsAt_burnBlobBatches label
  obtain ⟨count, failing, hstops⟩ := hbatches
  exact (submitsInOrder_of_stops hstops).shift

/-- What is burned of all blobs. -/
def toBurn (burn : Bool) (sorted : SortedBlobs) : List String := if burn then sorted.expired else []

theorem submitsInOrder_deleteAll (burn : Bool) (sorted : SortedBlobs) :
    SubmitsInOrder h 0
      ((slices maxOpsPerPtb sorted.activeDeletable).map
          (deletionTxn systemObjId walrusPkg sender sponsor) ++
        (slices maxOpsPerPtb (toBurn burn sorted)).map
          (batchTxn (burnCall walrusPkg) sender sponsor))
      (deleteAll systemObjId walrusPkg h sender sponsor burn sorted) := by
  have hburn : ¬ (burn ∧ sorted.expired ≠ []) → toBurn burn sorted = [] := by
    intro hnot
    unfold toBurn
    split
    · rename_i hflag
      exact not_not.mp fun hne => hnot ⟨hflag, hne⟩
    · rfl
  unfold deleteAll
  split
  · rename_i hnothing
    rw [hnothing.1, hburn hnothing.2]
    exact Script.follows_nil rfl
  · refine (submitsInOrder_deleteBatches _ _).bind fun _ _ => ?_
    rw [Nat.zero_add, List.length_map]
    by_cases hflag : burn ∧ sorted.expired ≠ []
    · rw [if_pos hflag, toBurn, if_pos hflag.1]
      exact (submitsInOrder_burnBlobBatches _ _).andThen fun _ => rfl
    · rw [if_neg hflag, hburn hflag]
      exact Script.follows_pure _

end Deletions

end Submitted

/-! ## Which blobs are deleted and burned -/

section Sorted

variable (parseInt : PyStr → Option Int) (currentEpoch : Int)

def isActiveDeletable (obj : ObjectView) : Bool :=
  BlobFields.isBlobObject obj &&
    match BlobFields.blobDeletableAndEndEpoch parseInt obj with
    | .ok (deletable, endEpoch) => deletable && currentEpoch < endEpoch
    | .error _ => false

def isExpired (obj : ObjectView) : Bool :=
  BlobFields.isBlobObject obj &&
    match BlobFields.blobDeletableAndEndEpoch parseInt obj with
    | .ok (_, endEpoch) => endEpoch ≤ currentEpoch
    | .error _ => false

def ownId (obj : ObjectView) : String := obj.objectId.getD ""

variable {parseInt currentEpoch}

/-- No blob is to be deleted and burned. -/
theorem not_isExpired_of_isActiveDeletable {obj : ObjectView}
    (h : isActiveDeletable parseInt currentEpoch obj) : ¬ isExpired parseInt currentEpoch obj := by
  unfold isActiveDeletable at h
  unfold isExpired
  cases hread : BlobFields.blobDeletableAndEndEpoch parseInt obj with
  | error e => simp [hread] at h
  | ok read =>
    simp only [hread, Bool.and_eq_true, decide_eq_true_eq] at h ⊢
    omega

theorem sortBlob_eq_ok {sorted sorted' : SortedBlobs} {obj : ObjectView}
    (h : sortBlob parseInt currentEpoch sorted obj = .ok sorted') :
    sorted' = ⟨sorted.activeDeletable ++
        ([obj].filter (isActiveDeletable parseInt currentEpoch)).map ownId,
      sorted.expired ++ ([obj].filter (isExpired parseInt currentEpoch)).map ownId⟩ := by
  unfold sortBlob at h
  by_cases hblob : BlobFields.isBlobObject obj
  · rw [if_pos hblob] at h
    cases hread : BlobFields.blobDeletableAndEndEpoch parseInt obj with
    | error e =>
      simp only [hread] at h
      split at h
      · cases h
        simp [isActiveDeletable, isExpired, hread]
      · cases h
    | ok read =>
      obtain ⟨deletable, endEpoch⟩ := read
      simp only [hread] at h
      by_cases hexpired : endEpoch ≤ currentEpoch
      · rw [if_pos hexpired] at h
        cases h
        simp [isActiveDeletable, isExpired, hread, hblob, hexpired, ownId]
      · rw [if_neg hexpired] at h
        cases deletable with
        | true =>
          cases h
          simp [isActiveDeletable, isExpired, hread, hblob, not_le.mp hexpired, ownId]
        | false =>
          cases h
          simp [isActiveDeletable, isExpired, hread, not_le.mp hexpired]
  · rw [if_neg hblob] at h
    cases h
    simp [isActiveDeletable, isExpired, hblob]

theorem sortBlobs_eq_ok {objects : List ObjectView} {sorted : SortedBlobs}
    (h : sortBlobs parseInt currentEpoch objects = .ok sorted) :
    sorted = ⟨(objects.filter (isActiveDeletable parseInt currentEpoch)).map ownId,
      (objects.filter (isExpired parseInt currentEpoch)).map ownId⟩ := by
  unfold sortBlobs at h
  induction objects using List.reverseRecOn generalizing sorted with
  | nil =>
    cases h
    rfl
  | append_singleton objects obj ih =>
    obtain ⟨middle, hmiddle, hlast⟩ := foldlM_snoc_eq_ok.mp h
    cases ih hmiddle
    rw [sortBlob_eq_ok hlast]
    simp only [List.filter_append, List.map_append]

end Sorted

/-! ## The command -/

section Disposes

variable {w : World} {book : AddressBook} {h : Holdings} {args : DeleteArgs}
  {sender walrusPkg : String} {sponsor : Option String} {currentEpoch : Int}

/-- What a call transfers to an address. -/
def transferredTo (recipient : String) : BuilderCall → List Argument
  | .transferObjects transfers receiver => if receiver = recipient then transfers else []
  | _ => []

/-- Every Storage that a deletion returns is transferred to the sender, once. -/
def ReturnsStorage (systemObjId walrusPkg : String) (txn : Txn) : Prop :=
  ∀ n blobId, txn.commands[n]? = some (deleteCall systemObjId walrusPkg blobId) →
    (txn.commands.flatMap (transferredTo txn.sender)).count (.result n) = 1

theorem commands_deletionTxn (systemObjId : String) (batch : List String) :
    (deletionTxn systemObjId walrusPkg sender sponsor batch).commands =
      batch.map (deleteCall systemObjId walrusPkg) ++
        [.transferObjects ((List.range batch.length).map .result) sender] := by
  rw [Txn.commands, deletionTxn, List.filter_append, commands_deleteCalls]
  rfl

theorem returnsStorage_deletionTxn (systemObjId : String) (batch : List String) :
    ReturnsStorage systemObjId walrusPkg
      (deletionTxn systemObjId walrusPkg sender sponsor batch) := by
  intro n blobId hn
  rw [commands_deletionTxn] at hn ⊢
  have hlt : n < batch.length := by
    by_contra hge
    rw [List.getElem?_append_right (by simpa using hge), List.length_map] at hn
    rw [List.getElem?_singleton] at hn
    split at hn <;> cases hn
  have hcalls :
      (batch.map (deleteCall systemObjId walrusPkg)).flatMap (transferredTo sender) = [] := by
    rw [List.flatMap_eq_nil_iff]
    intro call hcall
    obtain ⟨_, -, rfl⟩ := List.mem_map.mp hcall
    rfl
  have htransfer : [BuilderCall.transferObjects ((List.range batch.length).map .result)
      sender].flatMap (transferredTo sender) = (List.range batch.length).map .result := by
    simp [transferredTo]
  show ((_ : List BuilderCall).flatMap (transferredTo sender)).count (.result n) = 1
  rw [List.flatMap_append, hcalls, htransfer, List.nil_append]
  have hinj : Function.Injective Argument.result := fun _ _ heq => Argument.result.inj heq
  rw [List.count_map_of_injective _ _ hinj]
  exact List.count_eq_one_of_mem List.nodup_range (List.mem_range.mpr hlt)

theorem returnsStorage_batchTxn_burn (systemObjId : String) (batch : List String) :
    ReturnsStorage systemObjId walrusPkg
      (batchTxn (burnCall walrusPkg) sender sponsor batch) := by
  intro n blobId hn
  have hmem := List.mem_of_getElem? hn
  obtain ⟨call, hcall, heq⟩ := List.mem_map.mp (List.mem_of_mem_filter hmem)
  simp [burnCall, deleteCall] at heq

/-- A run that comes to the choice of the blobs. -/
theorem deleteBlob_eq
    (hsigners : signersOrExit w book args.sender args.sponsor = .ok (sender, sponsor))
    (hepoch : h.walrusEpoch = .ok currentEpoch) (hpkg : walrusPackageId w = .ok walrusPkg) :
    deleteBlob w book h args =
      if isGiven args.objectId then (do
        let (deletable, endEpoch) ←
          Logged.lift (fetchBlob w.parseInt h (args.objectId.getD ""))
        deleteOne w.systemObject walrusPkg h sender sponsor (args.objectId.getD "")
          (disposal args.burn (args.objectId.getD "") deletable endEpoch currentEpoch))
      else (do
        let sorted ← Logged.lift (ownedBlobs w.parseInt h currentEpoch)
        deleteAll w.systemObject walrusPkg h sender sponsor args.burn sorted) := by
  unfold deleteBlob
  rw [hsigners, Logged.monadLift_eq, Logged.lift_ok_bind]
  dsimp only
  rw [orExit_eq_ok.mpr hepoch, Logged.monadLift_eq, Logged.lift_ok_bind, hpkg,
    Logged.monadLift_eq, Logged.lift_ok_bind]
  rfl

/-- The blob that is named is deleted if it can be, else burned if that was
asked for. -/
theorem disposalScript_disposal (systemObjId : String) (burn : Bool) (objectId : String)
    (deletable : Bool) (endEpoch : Int) :
    disposalScript systemObjId walrusPkg sender sponsor objectId
        (disposal burn objectId deletable endEpoch currentEpoch) =
      if deletable ∧ currentEpoch < endEpoch then
        [deletionTxn systemObjId walrusPkg sender sponsor [objectId]]
      else if burn then [batchTxn (burnCall walrusPkg) sender sponsor [objectId]]
      else [] := by
  unfold disposal
  split
  · rfl
  · split <;> rfl

theorem submitsInOrder_deleteBlob_one
    (hsigners : signersOrExit w book args.sender args.sponsor = .ok (sender, sponsor))
    (hepoch : h.walrusEpoch = .ok currentEpoch) (hpkg : walrusPackageId w = .ok walrusPkg)
    {deletable : Bool} {endEpoch : Int} (hgiven : isGiven args.objectId)
    (hfetch : fetchBlob w.parseInt h (args.objectId.getD "") = .ok (deletable, endEpoch)) :
    SubmitsInOrder h 0
      (disposalScript w.systemObject walrusPkg sender sponsor (args.objectId.getD "")
        (disposal args.burn (args.objectId.getD "") deletable endEpoch currentEpoch))
      (deleteBlob w book h args) := by
  rw [deleteBlob_eq hsigners hepoch hpkg, if_pos hgiven, hfetch, Logged.lift_ok_bind]
  exact submitsInOrder_deleteOne _ _

theorem submitsInOrder_deleteBlob_all
    (hsigners : signersOrExit w book args.sender args.sponsor = .ok (sender, sponsor))
    (hepoch : h.walrusEpoch = .ok currentEpoch) (hpkg : walrusPackageId w = .ok walrusPkg)
    {sorted : SortedBlobs} (hgiven : ¬ isGiven args.objectId)
    (hsorted : ownedBlobs w.parseInt h currentEpoch = .ok sorted) :
    SubmitsInOrder h 0
      ((slices maxOpsPerPtb sorted.activeDeletable).map
          (deletionTxn w.systemObject walrusPkg sender sponsor) ++
        (slices maxOpsPerPtb (toBurn args.burn sorted)).map
          (batchTxn (burnCall walrusPkg) sender sponsor))
      (deleteBlob w book h args) := by
  rw [deleteBlob_eq hsigners hepoch hpkg, if_neg hgiven, hsorted, Logged.lift_ok_bind]
  exact submitsInOrder_deleteAll _ _

/-- Whatever is read, the script returns the Storage of what it deletes. -/
theorem exists_script_deleteBlob
    (hsigners : signersOrExit w book args.sender args.sponsor = .ok (sender, sponsor))
    (hepoch : h.walrusEpoch = .ok currentEpoch) (hpkg : walrusPackageId w = .ok walrusPkg) :
    ∃ script, SubmitsInOrder h 0 script (deleteBlob w book h args) ∧
      ∀ txn ∈ script, ReturnsStorage w.systemObject walrusPkg txn := by
  by_cases hgiven : isGiven args.objectId
  · cases hfetch : fetchBlob w.parseInt h (args.objectId.getD "") with
    | error e =>
      refine ⟨[], ?_, List.forall_mem_nil _⟩
      rw [deleteBlob_eq hsigners hepoch hpkg, if_pos hgiven, hfetch]
      exact Script.follows_raise e
    | ok read =>
      refine ⟨_, submitsInOrder_deleteBlob_one hsigners hepoch hpkg hgiven hfetch, ?_⟩
      intro txn htxn
      rw [disposalScript_disposal] at htxn
      split at htxn
      · rw [List.mem_singleton.mp htxn]
        exact returnsStorage_deletionTxn _ _
      · split at htxn
        · rw [List.mem_singleton.mp htxn]
          exact returnsStorage_batchTxn_burn _ _
        · cases htxn
  · cases hsorted : ownedBlobs w.parseInt h currentEpoch with
    | error e =>
      refine ⟨[], ?_, List.forall_mem_nil _⟩
      rw [deleteBlob_eq hsigners hepoch hpkg, if_neg hgiven, hsorted]
      exact Script.follows_raise e
    | ok sorted =>
      refine ⟨_, submitsInOrder_deleteBlob_all hsigners hepoch hpkg hgiven hsorted, ?_⟩
      intro txn htxn
      rcases List.mem_append.mp htxn with hdeletion | hburn
      · obtain ⟨batch, -, rfl⟩ := List.mem_map.mp hdeletion
        exact returnsStorage_deletionTxn _ _
      · obtain ⟨batch, -, rfl⟩ := List.mem_map.mp hburn
        exact returnsStorage_batchTxn_burn _ _

/-- Of different objects, none is deleted or burned twice. -/
theorem nodup_disposed {objects : List ObjectView} {burn : Bool}
    (hnodup : (objects.map ownId).Nodup) :
    ((objects.filter (isActiveDeletable w.parseInt currentEpoch)).map ownId ++
      if burn then (objects.filter (isExpired w.parseInt currentEpoch)).map ownId
      else []).Nodup := by
  have hsub : ∀ p : ObjectView → Bool, ((objects.filter p).map ownId).Nodup := fun p =>
    hnodup.sublist (List.filter_sublist.map ownId)
  cases burn with
  | false => simpa using hsub _
  | true =>
    rw [if_pos rfl]
    refine (hsub _).append (hsub _) ?_
    intro id hactive hexpired
    obtain ⟨a, ha, rfl⟩ := List.mem_map.mp hactive
    obtain ⟨b, hb, heq⟩ := List.mem_map.mp hexpired
    obtain ⟨ha, hdeletable⟩ := List.mem_filter.mp ha
    obtain ⟨hb, hexpired⟩ := List.mem_filter.mp hb
    cases List.inj_on_of_nodup_map hnodup hb ha heq
    exact not_isExpired_of_isActiveDeletable hdeletable hexpired

/-- **What `delete_blob` does away with.** The blob that is named is deleted if
it is deletable and not expired, and is burned only if it cannot be deleted
and that was asked for. Of all blobs, the active deletable ones are deleted and, if that
was asked for, the expired ones are burned after all the deletions: each once, in
batches, up to the first that is not answered with a result. What a deletion
returns always goes to the sender. -/
theorem deleteBlob_disposes (h : Holdings) (args : DeleteArgs)
    (hsigners : signersOrExit w book args.sender args.sponsor = .ok (sender, sponsor))
    (hepoch : h.walrusEpoch = .ok currentEpoch) (hpkg : walrusPackageId w = .ok walrusPkg) :
    (∀ deletable endEpoch, isGiven args.objectId →
      fetchBlob w.parseInt h (args.objectId.getD "") = .ok (deletable, endEpoch) →
      SubmitsInOrder h 0
        (if deletable ∧ currentEpoch < endEpoch then
          [deletionTxn w.systemObject walrusPkg sender sponsor [args.objectId.getD ""]]
        else if args.burn then
          [batchTxn (burnCall walrusPkg) sender sponsor [args.objectId.getD ""]]
        else [])
        (deleteBlob w book h args)) ∧
    (∀ objects sorted, ¬ isGiven args.objectId → h.ownedObjects = .ok (.ok (some objects)) →
      sortBlobs w.parseInt currentEpoch objects = .ok sorted →
      ∃ deletions burns,
        CutInto ((objects.filter (isActiveDeletable w.parseInt currentEpoch)).map ownId)
          deletions ∧
        CutInto (if args.burn then
          (objects.filter (isExpired w.parseInt currentEpoch)).map ownId else []) burns ∧
        ((objects.map ownId).Nodup → (deletions ++ burns).flatten.Nodup) ∧
        SubmitsInOrder h 0
          (deletions.map (deletionTxn w.systemObject walrusPkg sender sponsor) ++
            burns.map (batchTxn (burnCall walrusPkg) sender sponsor))
          (deleteBlob w book h args)) ∧
    ∀ txn, .submitted txn ∈ (deleteBlob w book h args).log →
      ReturnsStorage w.systemObject walrusPkg txn := by
  refine ⟨?_, ?_, ?_⟩
  · intro deletable endEpoch hgiven hfetch
    rw [← disposalScript_disposal]
    exact submitsInOrder_deleteBlob_one hsigners hepoch hpkg hgiven hfetch
  · intro objects sorted hgiven howned hsorted
    have hread : ownedBlobs w.parseInt h currentEpoch = .ok sorted := by
      rw [ownedBlobs, howned]
      exact hsorted
    have hscript := submitsInOrder_deleteBlob_all hsigners hepoch hpkg hgiven hread
    cases sortBlobs_eq_ok hsorted
    refine ⟨_, _, cutInto_slices _, cutInto_slices _, fun hnodup => ?_, hscript⟩
    rw [List.flatten_append, (cutInto_slices _).consecutive, (cutInto_slices _).consecutive]
    exact nodup_disposed hnodup
  · intro txn htxn
    obtain ⟨script, hscript, hreturns⟩ :=
      exists_script_deleteBlob hsigners hepoch hpkg
    exact hreturns txn (mem_of_submitsInOrder hscript htxn)

end Disposes

/-- An owned Blob as the chain reports it. -/
def ownedBlob (objectId : String) (deletable : Bool) (endEpoch : Int) : ObjectView where
  objectId := some objectId
  objectType := some "0x1::blob::Blob"
  ownerAddress := none
  balance := none
  json := some (.dict [(Json.key "storage", .dict [(Json.key "end_epoch", .int endEpoch)]),
    (Json.key "deletable", .bool deletable)])

def threeBlobs : List ObjectView :=
  [ownedBlob "0xc" true 8, ownedBlob "0xd" true 5, ownedBlob "0xe" false 8]

def blobHoldings : Holdings :=
  { acceptingHoldings with
    ownedObjects := .ok (.ok (some threeBlobs))
    walrusEpoch := .ok 5 }

theorem deleteBlob_disposes_three :
    ∃ deletions burns, CutInto ["0xc"] deletions ∧ CutInto ["0xd"] burns ∧
      SubmitsInOrder blobHoldings 0
        (deletions.map (deletionTxn World.small.systemObject "0x1" "0xa" none) ++
          burns.map (batchTxn (burnCall "0x1") "0xa" none))
        (deleteBlob World.small ⟨fun _ => .ok (), .ok⟩ blobHoldings ⟨none, true, none, none⟩) := by
  have hsigners : signersOrExit World.small ⟨fun _ => .ok (), .ok⟩ none none =
      .ok ("0xa", none) := by decide
  have hpkg : walrusPackageId World.small = .ok "0x1" := by decide
  have hactive : (threeBlobs.filter (isActiveDeletable World.small.parseInt 5)).map ownId =
      ["0xc"] := by decide +kernel
  have hexpired : (threeBlobs.filter (isExpired World.small.parseInt 5)).map ownId = ["0xd"] := by
    decide +kernel
  have hsorted : sortBlobs World.small.parseInt 5 threeBlobs = .ok ⟨["0xc"], ["0xd"]⟩ := by
    decide +kernel
  obtain ⟨deletions, burns, hdeletions, hburns, -, hscript⟩ :=
    (deleteBlob_disposes blobHoldings ⟨none, true, none, none⟩ hsigners rfl hpkg).2.1 threeBlobs
      _ (by decide) rfl hsorted
  rw [hactive] at hdeletions
  rw [if_pos rfl, hexpired] at hburns
  exact ⟨deletions, burns, hdeletions, hburns, hscript⟩

end Pytusk.Tusky
