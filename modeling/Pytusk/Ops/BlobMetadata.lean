import Pytusk.Chain.BlobMetadata
import Pytusk.Ops.BlobExecute

/-!
# `ops/blob_metadata_compose.py`, `ops/blob_metadata_execute.py`: dropping metadata

The gate reads the metadata once and asks whether each key is in it; the
transaction removes the keys one after another. Setting metadata is left out.
-/

namespace Pytusk.Ops

open Pytusk.Lib Pytusk.BlobMetadata

/-! ## The gates -/

section Gates

variable (repr : Json → String) (listing : ExecuteOutcome (List DynamicField))
  (blobObject : String)

/-- `f"{keys!r}"` of a list of strings -/
def reprKeys (keys : List String) : String := repr (.list (keys.map text))

def validateBlobMetadataKeysExist (keys : List String) : Except PyExn Unit := do
  match ← fetchBlobMetadata listing with
  | none =>
      let shown := reprKeys repr keys
      .error (.valueError <|
        s!"Blob {blobObject} has no metadata set at all; cannot remove " ++
          s!"keys {shown} (Move abort: EMissingMetadata).")
  | some data =>
      let existingKeys := data.map (·.key)
      let missingKeys := keys.filter (· ∉ existingKeys)
      raiseIf (missingKeys ≠ []) <|
        let missing := reprKeys repr missingKeys
        let current := reprKeys repr (existingKeys.dedup.mergeSort (· ≤ ·))
        .valueError <|
          s!"Blob {blobObject} has no metadata entry for key(s) " ++
            s!"{missing}; current keys are {current} " ++
            "(Move abort: vec_map::remove would fail)."

def validateBlobMetadataExists : Except PyExn Unit := do
  match ← fetchBlobMetadata listing with
  | none | some [] =>
      .error (.valueError <|
        s!"Blob {blobObject} has no metadata set at all; nothing to " ++
          "drop (Move abort: EMissingMetadata).")
  | some _ => .ok ()

end Gates

/-! ## Removing keys -/

/-- The `remove_metadata_pair` call. -/
def removePairCall (packageId blobObject key : String) : BuilderCall :=
  .moveCall (packageId ++ "::blob::remove_metadata_pair") [.str blobObject, .str key]

def addDropBlobMetadataKeys (builder : Builder) (packageId blobObject : String)
    (keys : List String) (txn : Txn) : Except PyExn Txn :=
  txn.addEach builder (removePairCall packageId blobObject) keys

structure BlobMetadataOpResult where
  objectId : String
  digest : String
  deriving DecidableEq, Repr

/-- Its one transaction is the first that the world answers. -/
def executeDropBlobMetadataKeys (w : World) (listing : ExecuteOutcome (List DynamicField))
    (packageId blobObject : String) (keys : List String) (sender sponsor : Option String) :
    Program BlobMetadataOpResult := do
  Logged.lift (validateBlobMetadataKeysExist w.repr listing blobObject keys)
  let resolvedSender := pyOr sender w.activeAddress
  let txn ← openTransaction w .tx1 resolvedSender sponsor
  let txn ← Logged.lift <|
    addDropBlobMetadataKeys (w.transaction .tx1).builder packageId blobObject keys txn
  let (executed, _) ← signAndExecute w .tx1 txn "drop_blob_metadata_keys"
  return { objectId := blobObject, digest := executed.digest }

/-! ## The gate -/

section Gate

variable {repr : Json → String} {listing : ExecuteOutcome (List DynamicField)}
  {map : Option (VecMap String String)} {blobObject : String} {keys : List String}

/-- The gate accepts keys that are in the map, and nothing where there is none. -/
theorem validateBlobMetadataKeysExist_eq_ok (hshows : Shows map listing) :
    validateBlobMetadataKeysExist repr listing blobObject keys = .ok () ↔
      ∃ m, map = some m ∧ ∀ key ∈ keys, key ∈ m.keys := by
  rw [validateBlobMetadataKeysExist, fetchBlobMetadata_eq hshows, ok_bind]
  cases map with
  | none => simp
  | some m =>
    dsimp only [Option.map_some]
    rw [raiseIf_eq_ok, not_not, List.filter_eq_nil_iff, List.map_map]
    simp [VecMap.keys, Function.comp_def]

theorem validateBlobMetadataExists_eq_ok (hshows : Shows map listing) :
    validateBlobMetadataExists listing blobObject = .ok () ↔
      ∃ m, map = some m ∧ m.contents ≠ [] := by
  rw [validateBlobMetadataExists, fetchBlobMetadata_eq hshows, ok_bind]
  cases map with
  | none => simp
  | some m =>
    cases hcontents : m.contents with
    | nil => simp [hcontents]
    | cons entry rest => simp [hcontents]

/-- `remove_metadata_pair` on the metadata of a Blob: without any it aborts. -/
def removeMetadataPair (map : Option (VecMap String String)) (key : String) :
    Option (Option (VecMap String String)) := do
  let m ← map
  let m' ← m.remove key
  return some m'

theorem run_removeMetadataPair {m : VecMap String String} {after : Option (VecMap String String)} :
    Lts.run removeMetadataPair (some m) keys = some after ↔
      ∃ m', Lts.run VecMap.remove m keys = some m' ∧ after = some m' := by
  induction keys generalizing m with
  | nil => simp [eq_comm]
  | cons key rest ih =>
    rw [Lts.run_cons, Lts.run_cons]
    cases hremove : m.remove key with
    | none => simp [removeMetadataPair, hremove]
    | some next => simpa [removeMetadataPair, hremove] using ih

/-- What a composed call does to the metadata of its Blob. -/
def applyCall (packageId blobObject : String) (map : Option (VecMap String String))
    (call : BuilderCall) : Option (Option (VecMap String String)) :=
  match call with
  | .moveCall target [.str blob, .str key] =>
      if target = packageId ++ "::blob::remove_metadata_pair" ∧ blob = blobObject then
        removeMetadataPair map key
      else none
  | _ => none

theorem run_applyCall (packageId : String) (map : Option (VecMap String String)) :
    Lts.run (applyCall packageId blobObject) map
        (keys.map (removePairCall packageId blobObject)) =
      Lts.run removeMetadataPair map keys := by
  induction keys generalizing map with
  | nil => rfl
  | cons key rest ih =>
    rw [List.map_cons, Lts.run_cons, Lts.run_cons]
    have hcall : applyCall packageId blobObject map (removePairCall packageId blobObject key) =
        removeMetadataPair map key := by simp [applyCall, removePairCall]
    rw [hcall]
    cases removeMetadataPair map key with
    | none => rfl
    | some next => exact ih next

/-- What is submitted passed the gate, and removes the keys one by one. -/
theorem of_submitted_dropKeys {w : World} {packageId : String} {sender sponsor : Option String}
    {tx : TxLabel} {txn : Txn}
    (hsent : Event.submitted tx txn ∈
      (executeDropBlobMetadataKeys w listing packageId blobObject keys sender sponsor).log) :
    validateBlobMetadataKeysExist w.repr listing blobObject keys = .ok () ∧
      txn.calls = keys.map (removePairCall packageId blobObject) := by
  simp only [executeDropBlobMetadataKeys, openTransaction, signAndExecute,
    Logged.mem_log_bind, Logged.result_bind_eq_ok, Logged.log_lift, Logged.result_lift,
    Logged.log_emit, Logged.result_emit, Logged.log_pure, Logged.result_pure, List.mem_singleton,
    List.not_mem_nil, reduceCtorEq, false_or, or_false, and_false, exists_false] at hsent
  obtain ⟨_, hgate, opened, ⟨_, -, _, -, hopened⟩, composed, hcompose, _, -, _, -, hsame⟩ := hsent
  refine ⟨hgate, ?_⟩
  obtain ⟨rfl, rfl⟩ := Event.submitted.inj hsame
  cases hopened
  rw [Txn.addEach_eq_ok hcompose]
  rfl

theorem dropBlobMetadataKeys_agrees {map : Option (VecMap String String)} {keys : List String}
    (hshows : Shows map listing) :
    (validateBlobMetadataKeysExist repr listing blobObject keys = .ok () ↔
        ∃ after, Lts.run removeMetadataPair map keys = some after) ↔
      match map with
      | none => keys ≠ []
      | some m => keys.Nodup ∨ ∃ key ∈ keys, key ∉ m.keys := by
  rw [validateBlobMetadataKeysExist_eq_ok hshows]
  cases map with
  | none =>
    cases keys with
    | nil => simp
    | cons key rest => simp [removeMetadataPair]
  | some m =>
    have hrun : (∃ after, Lts.run removeMetadataPair (some m) keys = some after) ↔
        keys.Nodup ∧ ∀ key ∈ keys, key ∈ m.keys := by
      rw [← VecMap.exists_run_remove]
      simp only [run_removeMetadataPair]
      constructor
      · rintro ⟨_, m', hm', -⟩
        exact ⟨m', hm'⟩
      · rintro ⟨m', hm'⟩
        exact ⟨_, m', hm', rfl⟩
    rw [hrun]
    by_cases hkeys : ∀ key ∈ keys, key ∈ m.keys
    · have hnone : ¬ ∃ key ∈ keys, key ∉ m.keys := by simpa using hkeys
      dsimp only
      rw [or_iff_left hnone]
      constructor
      · exact fun hagree => (hagree.mp ⟨m, rfl, hkeys⟩).1
      · exact fun hnodup => ⟨fun _ => ⟨hnodup, hkeys⟩, fun _ => ⟨m, rfl, hkeys⟩⟩
    · have hmissing : ∃ key ∈ keys, key ∉ m.keys := by simpa using hkeys
      simp [hkeys, hmissing]

/-- **The gate and the removals agree** exactly if no key is to be removed
twice, unless one is missing. What is composed after the gate leaves exactly
the other entries if and only if no key is repeated. -/
theorem executeDropBlobMetadataKeys_exact (w : World) (hshows : Shows map listing)
    (packageId blobObject : String) (keys : List String) (sender sponsor : Option String) :
    ((validateBlobMetadataKeysExist w.repr listing blobObject keys = .ok () ↔
        ∃ after, Lts.run removeMetadataPair map keys = some after) ↔
      match map with
      | none => keys ≠ []
      | some m => keys.Nodup ∨ ∃ key ∈ keys, key ∉ m.keys) ∧
    ∀ tx txn, Event.submitted tx txn ∈
        (executeDropBlobMetadataKeys w listing packageId blobObject keys sender sponsor).log →
      ∃ m, map = some m ∧
        (Lts.run (applyCall packageId blobObject) map txn.calls = some (some (m.without keys)) ↔
          keys.Nodup) := by
  refine ⟨dropBlobMetadataKeys_agrees hshows, fun tx txn hsent => ?_⟩
  obtain ⟨hgate, hcalls⟩ := of_submitted_dropKeys hsent
  obtain ⟨m, rfl, hkeys⟩ := (validateBlobMetadataKeysExist_eq_ok hshows).mp hgate
  refine ⟨m, rfl, ?_⟩
  rw [hcalls, run_applyCall, run_removeMetadataPair]
  constructor
  · rintro ⟨m', hrun, -⟩
    exact (VecMap.run_remove.mp hrun).1
  · exact fun hnodup => ⟨_, VecMap.run_remove.mpr ⟨hnodup, hkeys, rfl⟩, rfl⟩

private def threePairs : VecMap String String := ⟨[("k", "v"), ("l", "w"), ("m", "x")], by decide⟩

/-- The fields of a Blob that has them. -/
private def threePairsListing : ExecuteOutcome (List DynamicField) :=
  .ok (.ok (some [⟨some "0x1::metadata::Metadata", metadataJson threePairs⟩]))

private theorem shows_threePairsListing : Shows (some threePairs) threePairsListing := ⟨_, rfl, rfl⟩

/-- Two of three keys are dropped. -/
theorem executeDropBlobMetadataKeys_exact_threePairs :
    (validateBlobMetadataKeysExist World.small.repr threePairsListing "0xb" ["m", "k"] = .ok () ↔
      ∃ after, Lts.run removeMetadataPair (some threePairs) ["m", "k"] = some after) ∧
    ∃ tx txn, Event.submitted tx txn ∈ (executeDropBlobMetadataKeys World.small threePairsListing
        "0x1" "0xb" ["m", "k"] none none).log ∧
      Lts.run (applyCall "0x1" "0xb") (some threePairs) txn.calls =
        some (some (threePairs.without ["m", "k"])) := by
  obtain ⟨hagrees, hleaves⟩ := executeDropBlobMetadataKeys_exact World.small
    shows_threePairsListing "0x1" "0xb" ["m", "k"] none none
  refine ⟨hagrees.mpr (.inl (by decide)), ?_⟩
  obtain ⟨tx, txn, hsent⟩ : ∃ tx txn, Event.submitted tx txn ∈
      (executeDropBlobMetadataKeys World.small threePairsListing "0x1" "0xb" ["m", "k"] none
        none).log := ⟨_, _, List.mem_of_getLast? rfl⟩
  obtain ⟨m, hm, hexact⟩ := hleaves tx txn hsent
  cases hm
  exact ⟨tx, txn, hsent, hexact.mpr (by decide)⟩

/-- A key that is given twice passes the gate and is not there to be removed
the second time. -/
theorem validateBlobMetadataKeysExist_repeated :
    validateBlobMetadataKeysExist World.small.repr threePairsListing "0xb" ["k", "k"] = .ok () ∧
      Lts.run removeMetadataPair (some threePairs) ["k", "k"] = none :=
  ⟨by decide, by decide⟩

end Gate

end Pytusk.Ops
