import Pytusk.Ops.BlobMetadata
import Pytusk.Ops.StorageExecute

/-!
# Setting and dropping metadata

The other functions of `ops/blob_metadata_compose.py` and
`ops/blob_metadata_execute.py`, and what the transactions do to the metadata of
the Blobs. A transaction writes all its pairs or takes all its keys, or leaves
everything as it was.
-/

namespace Pytusk.Ops

open Pytusk.Lib Pytusk.BlobMetadata

/-! ## Composing -/

/-- The `insert_or_update_metadata_pair` call. -/
def insertOrUpdatePairCall (packageId blobObject : String) (pair : String × String) :
    BuilderCall :=
  .moveCall (packageId ++ "::blob::insert_or_update_metadata_pair")
    [.str blobObject, .str pair.1, .str pair.2]

def addSetBlobMetadata (builder : Builder) (packageId blobObject : String)
    (pairs : Dict String String) (txn : Txn) : Except PyExn Txn :=
  txn.addEach builder (insertOrUpdatePairCall packageId blobObject) pairs

/-- The `take_metadata` call. -/
def takeMetadataCall (packageId blobObject : String) : BuilderCall :=
  .moveCall (packageId ++ "::blob::take_metadata") [.str blobObject]

/-- `add_drop_blob_metadata_all` -/
def addDropBlobMetadataAll (packageId blobObject : String) (builder : Builder) (txn : Txn) :
    Except PyExn Txn :=
  addOnly (takeMetadataCall packageId blobObject) builder txn

/-! ## Executing -/

section Execute

variable (w : World) (answers : TxAnswers)

def executeSetBlobMetadata (packageId blobObject : String) (pairs : Dict String String)
    (sender sponsor : Option String) : Submission BlobMetadataOpResult := do
  let (executed, _) ← executeTxn answers (pyOr sender w.activeAddress) sponsor
    (fun builder => addSetBlobMetadata builder packageId blobObject pairs) "set_blob_metadata"
  return { objectId := blobObject, digest := executed.digest }

def executeDropBlobMetadataAll (listing : ExecuteOutcome (List DynamicField))
    (packageId blobObject : String) (sender sponsor : Option String) :
    Submission BlobMetadataOpResult := do
  Logged.lift (validateBlobMetadataExists listing blobObject)
  let (executed, _) ← executeTxn answers (pyOr sender w.activeAddress) sponsor
    (addDropBlobMetadataAll packageId blobObject) "drop_blob_metadata_all"
  return { objectId := blobObject, digest := executed.digest }

end Execute

/-! ## The Blobs' metadata -/

/-- The Blobs there are, each with its metadata, if it has any. -/
abbrev MetadataStore := String → Option (Option (VecMap String String))

/-- `insert_or_update` of a Move map. Where it puts the entry is left open. -/
structure InsertOrUpdate where
  put : VecMap String String → String → String → VecMap String String
  lookup_put : ∀ m key value, (put m key value).lookup = Dict.write m.lookup key value

/-- A map where an entry that is there stays in its place. -/
def InsertOrUpdate.inPlace : InsertOrUpdate := ⟨VecMap.set, VecMap.lookup_set⟩

/-- The calls that change metadata. -/
inductive MetadataCall where
  | insertOrUpdate (key value : String)
  | remove (key : String)
  | take
  deriving DecidableEq, Repr

/-- Which of them a call on the builder is, and on what Blob. -/
def metadataCall (packageId : String) : BuilderCall → Option (String × MetadataCall)
  | .moveCall target [.str blobObject, .str key, .str value] =>
      if target = packageId ++ "::blob::insert_or_update_metadata_pair" then
        some (blobObject, .insertOrUpdate key value)
      else none
  | .moveCall target [.str blobObject, .str key] =>
      if target = packageId ++ "::blob::remove_metadata_pair" then
        some (blobObject, .remove key)
      else none
  | .moveCall target [.str blobObject] =>
      if target = packageId ++ "::blob::take_metadata" then some (blobObject, .take) else none
  | _ => none

section Chain

variable (move : InsertOrUpdate) (packageId : String)

/-- What a call does to the metadata of its Blob. -/
def MetadataCall.apply (metadata : Option (VecMap String String)) :
    MetadataCall → Option (Option (VecMap String String))
  | .insertOrUpdate key value => some (some (move.put (metadata.getD VecMap.empty) key value))
  | .remove key => removeMetadataPair metadata key
  | .take => metadata.map fun _ => none

/-- One call of a transaction. -/
def MetadataStore.step (store : MetadataStore) (call : BuilderCall) : Option MetadataStore := do
  let (blobObject, call) ← metadataCall packageId call
  let metadata ← store blobObject
  let after ← call.apply move metadata
  return Function.update store blobObject (some after)

/-- A transaction that aborts changes nothing. -/
def MetadataStore.settle (store : MetadataStore) (txn : Txn) : MetadataStore :=
  (Lts.run (MetadataStore.step move packageId) store txn.calls).getD store

end Chain

/-! ## The attributes -/

/-- What a Blob's metadata says under each key. -/
abbrev Attributes := String → Option String

def attributes (metadata : Option (VecMap String String)) : Attributes :=
  fun key => metadata.bind fun m => m.lookup key

/-- What is asked of the metadata of one Blob. -/
inductive MetadataChange where
  | set (pairs : List (String × String))
  | dropKeys (keys : List String)
  | dropAll
  deriving DecidableEq, Repr

/-- What it comes to. Of several values for one key the last one stays; keys
that are not all there, or not all different, are not dropped. -/
def MetadataChange.apply (before : Attributes) : MetadataChange → Attributes
  | .set pairs => pairs.foldl (fun f pair => Dict.write f pair.1 pair.2) before
  | .dropKeys keys =>
      if keys.Nodup ∧ ∀ key ∈ keys, before key ≠ none then
        fun key => if key ∈ keys then none else before key
      else before
  | .dropAll => fun _ => none

structure MetadataRequest where
  blobObject : String
  change : MetadataChange
  deriving DecidableEq, Repr

/-- Only the Blob that is named changes. -/
def MetadataRequest.apply (request : MetadataRequest) (blobs : String → Option Attributes) :
    String → Option Attributes :=
  Function.update blobs request.blobObject
    ((blobs request.blobObject).map fun before => request.change.apply before)

def MetadataStore.shown (store : MetadataStore) : String → Option Attributes :=
  fun blobObject => (store blobObject).map attributes

/-- The store after transactions, in the order the chain takes them. -/
def MetadataStore.after (move : InsertOrUpdate) (packageId : String) (store : MetadataStore)
    (txns : List Txn) : MetadataStore :=
  txns.foldl (fun store txn => store.settle move packageId txn) store

/-- The attributes after requests, one by one. -/
def served (blobs : String → Option Attributes) (requests : List MetadataRequest) :
    String → Option Attributes :=
  requests.foldl (fun blobs request => request.apply blobs) blobs

/-- The calls that carry a change out. -/
def MetadataChange.calls (packageId blobObject : String) : MetadataChange → List BuilderCall
  | .set pairs => (Dict.fromItems Prod.fst Prod.snd pairs).map
      (insertOrUpdatePairCall packageId blobObject)
  | .dropKeys keys => keys.map (removePairCall packageId blobObject)
  | .dropAll => [takeMetadataCall packageId blobObject]

/-! ## One transaction -/

section OneTransaction

variable {move : InsertOrUpdate} {packageId blobObject : String} {store : MetadataStore}
  {metadata : Option (VecMap String String)}

/-- The calls of a change, on the metadata of its Blob. -/
def MetadataChange.onBlob : MetadataChange → List MetadataCall
  | .set pairs => (Dict.fromItems Prod.fst Prod.snd pairs).map fun pair =>
      .insertOrUpdate pair.1 pair.2
  | .dropKeys keys => keys.map .remove
  | .dropAll => [.take]

theorem metadataCall_insertOrUpdatePairCall (pair : String × String) :
    metadataCall packageId (insertOrUpdatePairCall packageId blobObject pair) =
      some (blobObject, .insertOrUpdate pair.1 pair.2) := by
  simp [metadataCall, insertOrUpdatePairCall]

theorem metadataCall_removePairCall (key : String) :
    metadataCall packageId (removePairCall packageId blobObject key) =
      some (blobObject, .remove key) := by
  simp [metadataCall, removePairCall]

theorem metadataCall_takeMetadataCall :
    metadataCall packageId (takeMetadataCall packageId blobObject) =
      some (blobObject, .take) := by
  simp [metadataCall, takeMetadataCall]

theorem map_metadataCall_calls (change : MetadataChange) :
    (change.calls packageId blobObject).map (metadataCall packageId) =
      change.onBlob.map fun call => some (blobObject, call) := by
  cases change with
  | set pairs =>
    simp [MetadataChange.calls, MetadataChange.onBlob, metadataCall_insertOrUpdatePairCall]
  | dropKeys keys =>
    simp [MetadataChange.calls, MetadataChange.onBlob, metadataCall_removePairCall]
  | dropAll => simp [MetadataChange.calls, MetadataChange.onBlob, metadataCall_takeMetadataCall]

/-- Calls on one Blob change its metadata, and nothing else. -/
theorem run_step_eq {calls : List BuilderCall} {onBlob : List MetadataCall}
    (hcalls : calls.map (metadataCall packageId) = onBlob.map fun call => some (blobObject, call))
    (hblob : store blobObject = some metadata) :
    Lts.run (MetadataStore.step move packageId) store calls =
      (Lts.run (fun m (call : MetadataCall) => call.apply move m) metadata onBlob).map
        fun after => Function.update store blobObject (some after) := by
  induction calls generalizing store metadata onBlob with
  | nil =>
    rw [List.map_nil, eq_comm, List.map_eq_nil_iff] at hcalls
    subst hcalls
    rw [Lts.run_nil, Lts.run_nil, Option.map_some, ← hblob, Function.update_eq_self]
  | cons call calls ih =>
    cases onBlob with
    | nil => cases hcalls
    | cons first rest =>
      obtain ⟨hfirst, hrest⟩ := List.cons.inj hcalls
      rw [Lts.run_cons, Lts.run_cons]
      have hstep : MetadataStore.step move packageId store call =
          (first.apply move metadata).map fun after =>
            Function.update store blobObject (some after) := by
        unfold MetadataStore.step
        rw [hfirst]
        simp only [Option.bind_eq_bind, Option.bind_some, hblob]
        cases first.apply move metadata <;> rfl
      rw [hstep]
      cases first.apply move metadata with
      | none => rfl
      | some after =>
        rw [Option.map_some, Option.bind_some, Option.bind_some,
          ih hrest (Function.update_self ..)]
        simp only [Function.update_idem]

theorem attributes_put (key value : String) :
    attributes (some (move.put (metadata.getD VecMap.empty) key value)) =
      Dict.write (attributes metadata) key value := by
  have hlookup : attributes metadata = (metadata.getD VecMap.empty).lookup := by
    cases metadata with
    | none => rfl
    | some m => rfl
  rw [hlookup]
  exact move.lookup_put _ _ _

/-- Pairs are written one after another. -/
theorem run_insertOrUpdate (metadata : Option (VecMap String String))
    (pairs : Dict String String) :
    ∃ after, Lts.run (fun m (call : MetadataCall) => call.apply move m) metadata
        (pairs.map fun pair => .insertOrUpdate pair.1 pair.2) = some after ∧
      attributes after =
        pairs.foldl (fun f pair => Dict.write f pair.1 pair.2) (attributes metadata) := by
  induction pairs generalizing metadata with
  | nil => exact ⟨metadata, rfl, rfl⟩
  | cons pair pairs ih =>
    obtain ⟨after, hrun, hattributes⟩ :=
      ih (some (move.put (metadata.getD VecMap.empty) pair.1 pair.2))
    exact ⟨after, hrun, by rw [hattributes, attributes_put, List.foldl_cons]⟩

theorem run_remove_calls (keys : List String) :
    Lts.run (fun m (call : MetadataCall) => call.apply move m) metadata (keys.map .remove) =
      Lts.run removeMetadataPair metadata keys := by
  induction keys generalizing metadata with
  | nil => rfl
  | cons key keys ih =>
    rw [List.map_cons, Lts.run_cons, Lts.run_cons]
    show (removeMetadataPair metadata key).bind _ = _
    exact congrArg _ (funext fun after => ih)

theorem attributes_ne_none {m : VecMap String String} {key : String} :
    attributes (some m) key ≠ none ↔ key ∈ m.keys :=
  (not_congr VecMap.lookup_eq_none).trans not_not

/-- Keys are dropped exactly if they are all there and all different. -/
theorem exists_run_removeMetadataPair_iff {keys : List String} :
    (∃ after, Lts.run removeMetadataPair metadata keys = some after) ↔
      keys.Nodup ∧ ∀ key ∈ keys, attributes metadata key ≠ none := by
  cases metadata with
  | none =>
    cases keys with
    | nil => simp
    | cons key keys =>
      refine iff_of_false (fun h => by simp [removeMetadataPair] at h) fun h => ?_
      exact h.2 key List.mem_cons_self rfl
  | some m =>
    simp only [run_removeMetadataPair, attributes_ne_none]
    rw [← VecMap.exists_run_remove]
    constructor
    · rintro ⟨_, m', hrun, -⟩
      exact ⟨m', hrun⟩
    · rintro ⟨m', hrun⟩
      exact ⟨_, m', hrun, rfl⟩

theorem attributes_run_removeMetadataPair {keys : List String}
    {after : Option (VecMap String String)}
    (h : Lts.run removeMetadataPair metadata keys = some after) :
    attributes after = fun key => if key ∈ keys then none else attributes metadata key := by
  cases metadata with
  | none =>
    cases keys with
    | nil =>
      cases h
      rfl
    | cons key keys => simp [removeMetadataPair] at h
  | some m =>
    obtain ⟨m', hrun, rfl⟩ := run_removeMetadataPair.mp h
    obtain ⟨-, -, rfl⟩ := VecMap.run_remove.mp hrun
    exact funext fun key => VecMap.lookup_without

/-- **What a change comes to**, whether its transaction goes through or not. -/
theorem attributes_onBlob (change : MetadataChange) :
    attributes ((Lts.run (fun m (call : MetadataCall) => call.apply move m) metadata
        change.onBlob).getD metadata) = change.apply (attributes metadata) := by
  cases change with
  | set pairs =>
    obtain ⟨after, hrun, hattributes⟩ :=
      @run_insertOrUpdate move metadata (Dict.fromItems Prod.fst Prod.snd pairs)
    rw [MetadataChange.onBlob, hrun, Option.getD_some, hattributes]
    funext key
    rw [Dict.foldl_write_eq _ (Dict.nodup_keys_fromItems pairs)]
    exact (Dict.foldl_write_fromItems _ _ _).symm
  | dropKeys keys =>
    rw [MetadataChange.onBlob, run_remove_calls, MetadataChange.apply]
    split
    · rename_i hkeys
      obtain ⟨after, hrun⟩ := exists_run_removeMetadataPair_iff.mpr hkeys
      rw [hrun, Option.getD_some, attributes_run_removeMetadataPair hrun]
    · rename_i hkeys
      have hnone : Lts.run removeMetadataPair metadata keys = none :=
        Option.eq_none_iff_forall_ne_some.mpr fun after hrun =>
          hkeys (exists_run_removeMetadataPair_iff.mp ⟨after, hrun⟩)
      rw [hnone, Option.getD_none]
  | dropAll =>
    cases metadata with
    | none => rfl
    | some m => rfl

/-- On a Blob that is not there nothing can be done. -/
theorem settle_of_none {calls : List BuilderCall} {onBlob : List MetadataCall}
    (hcalls : calls.map (metadataCall packageId) = onBlob.map fun call => some (blobObject, call))
    (hblob : store blobObject = none) :
    (Lts.run (MetadataStore.step move packageId) store calls).getD store = store := by
  cases calls with
  | nil => rfl
  | cons call calls =>
    cases onBlob with
    | nil => cases hcalls
    | cons first rest =>
      have hstep : MetadataStore.step move packageId store call = none := by
        unfold MetadataStore.step
        rw [(List.cons.inj hcalls).1]
        simp [hblob]
      rw [Lts.run_cons, hstep]
      rfl

variable (move store) in
/-- **One transaction** does to what is shown what was asked for. -/
theorem shown_settle {txn : Txn} {request : MetadataRequest}
    (hcalls : txn.calls = request.change.calls packageId request.blobObject) :
    (store.settle move packageId txn).shown = request.apply store.shown := by
  unfold MetadataStore.settle
  rw [hcalls]
  have hmap : (request.change.calls packageId request.blobObject).map (metadataCall packageId) =
      request.change.onBlob.map fun call => some (request.blobObject, call) :=
    map_metadataCall_calls request.change
  cases hblob : store request.blobObject with
  | none =>
    have hshown : store.shown request.blobObject = none := by
      rw [MetadataStore.shown, hblob, Option.map_none]
    rw [settle_of_none hmap hblob, MetadataRequest.apply, hshown, Option.map_none]
    exact (Function.update_eq_self_iff.mpr hshown.symm).symm
  | some metadata =>
    have hshown : store.shown request.blobObject = some (attributes metadata) := by
      rw [MetadataStore.shown, hblob, Option.map_some]
    rw [run_step_eq hmap hblob, MetadataRequest.apply, hshown, Option.map_some,
      ← @attributes_onBlob move]
    cases Lts.run (fun m (call : MetadataCall) => call.apply move m) metadata
        request.change.onBlob with
    | none => exact (Function.update_eq_self_iff.mpr hshown.symm).symm
    | some after => exact Function.comp_update (Option.map attributes) store _ _

/-! ## The wrappers -/

variable {w : World} {answers : TxAnswers} {sender sponsor : Option String} {txn : Txn}

theorem submitted_executeSetBlobMetadata {pairs : Dict String String}
    (hsent : txn ∈
      (executeSetBlobMetadata w answers packageId blobObject pairs sender sponsor).log) :
    txn.calls = pairs.map (insertOrUpdatePairCall packageId blobObject) := by
  rw [Txn.addEach_eq_ok (submitted_executeTxn_bind (fun _ => rfl) hsent), List.nil_append]

theorem submitted_executeDropBlobMetadataAll {listing : ExecuteOutcome (List DynamicField)}
    (hsent : txn ∈
      (executeDropBlobMetadataAll w answers listing packageId blobObject sender sponsor).log) :
    txn.calls = [takeMetadataCall packageId blobObject] := by
  obtain hgate | ⟨_, -, hsent⟩ := Logged.mem_log_bind.mp hsent
  · cases hgate
  · rw [addOnly_eq_ok (submitted_executeTxn_bind (fun _ => rfl) hsent)]

end OneTransaction

end Pytusk.Ops
