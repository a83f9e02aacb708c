import Pytusk.Ops.BlobMetadataStore
import Pytusk.Tusky.ReclaimBurn

/-!
# `set_blob_metadata` and `drop_blob_metadata`

The commands compose for themselves what the wrappers would. Whatever both
submit, and whatever their gates read beforehand, the chain serves the requests
one by one.
-/

namespace Pytusk.Tusky

open Pytusk.Lib Pytusk.Ops Pytusk.BlobMetadata

/-! ## The commands -/

structure SetMetadataArgs where
  objectId : String
  attr : List (String × String)
  sender : Option String
  sponsor : Option String
  deriving DecidableEq, Repr

def setBlobMetadata (w : World) (book : AddressBook) (h : Holdings) (args : SetMetadataArgs) :
    Sending ExecutedTransaction := do
  let (sender, sponsor) ← signersOrExit w book args.sender args.sponsor
  let walrusPkg ← walrusPackageId w
  let pairs := Dict.fromItems Prod.fst Prod.snd args.attr
  sendOrExit (h.transaction 0) sender sponsor
    (fun builder => addSetBlobMetadata builder walrusPkg args.objectId pairs)
    (fun resultString => s!"Error in set_blob_metadata: {resultString}")
    s!"Set {pairs.length} metadata pair(s) on {args.objectId}."

/-- Exactly one of `--keys` and `--all` is given. -/
inductive DropWhat where
  | these (keys : List String)
  | all
  deriving DecidableEq, Repr

structure DropMetadataArgs where
  objectId : String
  what : DropWhat
  sender : Option String
  sponsor : Option String
  deriving DecidableEq, Repr

/-- The gate of the command. -/
def DropWhat.validate (repr : Json → String) (listing : ExecuteOutcome (List DynamicField))
    (objectId : String) : DropWhat → Except PyExn Unit
  | .these keys => validateBlobMetadataKeysExist repr listing objectId keys
  | .all => validateBlobMetadataExists listing objectId

def DropWhat.compose (walrusPkg objectId : String) :
    DropWhat → Builder → Txn → Except PyExn Txn
  | .these keys => fun builder => addDropBlobMetadataKeys builder walrusPkg objectId keys
  | .all => addDropBlobMetadataAll walrusPkg objectId

def DropWhat.action : DropWhat → String
  | .these keys => s!"Dropped {keys.length} metadata key(s) from"
  | .all => "Dropped all metadata from"

def dropBlobMetadata (w : World) (book : AddressBook) (h : Holdings)
    (listing : ExecuteOutcome (List DynamicField)) (args : DropMetadataArgs) :
    Sending ExecutedTransaction := do
  let (sender, sponsor) ← signersOrExit w book args.sender args.sponsor
  let walrusPkg ← walrusPackageId w
  orExit PyExn.isValueError (fun e => s!"Error in drop_blob_metadata: {e.message}")
    (args.what.validate w.repr listing args.objectId)
  sendOrExit (h.transaction 0) sender sponsor (args.what.compose walrusPkg args.objectId)
    (fun resultString => s!"Error in drop_blob_metadata: {resultString}")
    s!"{args.what.action} {args.objectId}."

/-! ## What is submitted -/

def DropWhat.change : DropWhat → MetadataChange
  | .these keys => .dropKeys keys
  | .all => .dropAll

section Submitted

variable {w : World} {book : AddressBook} {h : Holdings}
  {listing : ExecuteOutcome (List DynamicField)} {packageId : String} {txn : Txn}

theorem submitted_setBlobMetadata {args : SetMetadataArgs}
    (hpkg : walrusPackageId w = .ok packageId)
    (hsent : .submitted txn ∈ (setBlobMetadata w book h args).log) :
    txn.calls = (MetadataChange.set args.attr).calls packageId args.objectId := by
  unfold setBlobMetadata at hsent
  simp only [Logged.monadLift_eq, Logged.mem_log_bind, Logged.log_lift, Logged.result_lift,
    List.not_mem_nil, false_or] at hsent
  obtain ⟨⟨sender, sponsor⟩, -, walrusPkg, hwalrus, hsent⟩ := hsent
  cases hpkg.symm.trans hwalrus
  rw [Txn.addEach_eq_ok (submitted_sendOrExit hsent), List.nil_append]
  rfl

theorem submitted_dropBlobMetadata {args : DropMetadataArgs}
    (hpkg : walrusPackageId w = .ok packageId)
    (hsent : .submitted txn ∈ (dropBlobMetadata w book h listing args).log) :
    txn.calls = args.what.change.calls packageId args.objectId := by
  unfold dropBlobMetadata at hsent
  simp only [Logged.monadLift_eq, Logged.mem_log_bind, Logged.log_lift, Logged.result_lift,
    List.not_mem_nil, false_or] at hsent
  obtain ⟨⟨sender, sponsor⟩, -, walrusPkg, hwalrus, _, -, hsent⟩ := hsent
  cases hpkg.symm.trans hwalrus
  have hcomposed := submitted_sendOrExit hsent
  cases hwhat : args.what with
  | these keys =>
    rw [hwhat, DropWhat.compose] at hcomposed
    rw [Txn.addEach_eq_ok hcomposed, List.nil_append]
    rfl
  | all =>
    rw [hwhat, DropWhat.compose] at hcomposed
    rw [addOnly_eq_ok hcomposed]
    rfl

/-- What the commands and wrappers about metadata submit, each with what it is
asked for, in the world as it finds it. -/
inductive ChangesMetadata (packageId : String) : MetadataRequest → Txn → Prop
  | setBlobMetadata {w : World} {book : AddressBook} {h : Holdings} {args : SetMetadataArgs}
      {txn : Txn} (hpkg : walrusPackageId w = .ok packageId)
      (hsent : .submitted txn ∈ (setBlobMetadata w book h args).log) :
      ChangesMetadata packageId ⟨args.objectId, .set args.attr⟩ txn
  | dropBlobMetadata {w : World} {book : AddressBook} {h : Holdings}
      {listing : ExecuteOutcome (List DynamicField)} {args : DropMetadataArgs} {txn : Txn}
      (hpkg : walrusPackageId w = .ok packageId)
      (hsent : .submitted txn ∈ (dropBlobMetadata w book h listing args).log) :
      ChangesMetadata packageId ⟨args.objectId, args.what.change⟩ txn
  | executeSetBlobMetadata {w : World} {answers : TxAnswers} {blobObject : String}
      {attr : List (String × String)} {sender sponsor : Option String} {txn : Txn}
      (hsent : txn ∈ (executeSetBlobMetadata w answers packageId blobObject
        (Dict.fromItems Prod.fst Prod.snd attr) sender sponsor).log) :
      ChangesMetadata packageId ⟨blobObject, .set attr⟩ txn
  | executeDropBlobMetadataKeys {w : World} {listing : ExecuteOutcome (List DynamicField)}
      {blobObject : String} {keys : List String} {sender sponsor : Option String} {tx : TxLabel}
      {txn : Txn}
      (hsent : .submitted tx txn ∈ (executeDropBlobMetadataKeys w listing packageId blobObject
        keys sender sponsor).log) :
      ChangesMetadata packageId ⟨blobObject, .dropKeys keys⟩ txn
  | executeDropBlobMetadataAll {w : World} {answers : TxAnswers}
      {listing : ExecuteOutcome (List DynamicField)} {blobObject : String}
      {sender sponsor : Option String} {txn : Txn}
      (hsent : txn ∈ (executeDropBlobMetadataAll w answers listing packageId blobObject sender
        sponsor).log) :
      ChangesMetadata packageId ⟨blobObject, .dropAll⟩ txn

theorem calls_of_changesMetadata {request : MetadataRequest}
    (h : ChangesMetadata packageId request txn) :
    txn.calls = request.change.calls packageId request.blobObject := by
  cases h with
  | setBlobMetadata hpkg hsent => exact submitted_setBlobMetadata hpkg hsent
  | dropBlobMetadata hpkg hsent => exact submitted_dropBlobMetadata hpkg hsent
  | executeSetBlobMetadata hsent => exact submitted_executeSetBlobMetadata hsent
  | executeDropBlobMetadataKeys hsent => exact (of_submitted_dropKeys hsent).2
  | executeDropBlobMetadataAll hsent => exact submitted_executeDropBlobMetadataAll hsent

end Submitted

/-! ## Runs -/

section Runs

variable {packageId : String}
  {actions : List (MetadataRequest × Txn)}
  {metadata : Option (VecMap String String)} {repr : Json → String}
  {listing : ExecuteOutcome (List DynamicField)}

theorem shown_after (move : InsertOrUpdate) (store : MetadataStore)
    (hfrom : ∀ action ∈ actions, ChangesMetadata packageId action.1 action.2) :
    (store.after move packageId (actions.map Prod.snd)).shown =
      served store.shown (actions.map Prod.fst) := by
  induction actions generalizing store with
  | nil => rfl
  | cons action actions ih =>
    obtain ⟨hfirst, hrest⟩ := List.forall_mem_cons.mp hfrom
    have hsettled := shown_settle move store
      (calls_of_changesMetadata hfirst)
    rw [List.map_cons, List.map_cons, served, List.foldl_cons, ← hsettled]
    exact ih _ hrest

/-- What is read of a Blob is what its attributes say. -/
theorem fetchBlobMetadata_attributes (hshows : Shows metadata listing) :
    ∃ read, fetchBlobMetadata listing = .ok read ∧
      ∀ key value, (∃ pairs, read = some pairs ∧ ⟨key, value⟩ ∈ pairs) ↔
        attributes metadata key = some value := by
  refine ⟨_, fetchBlobMetadata_eq hshows, fun key value => ?_⟩
  cases metadata with
  | none => simp [attributes]
  | some m =>
    have hlookup : attributes (some m) key = some value ↔ (key, value) ∈ m.contents :=
      VecMap.mem_contents_iff.symm
    rw [hlookup]
    simp

theorem validateBlobMetadataExists_attributes (hshows : Shows metadata listing)
    (objectId : String) :
    validateBlobMetadataExists listing objectId = .ok () ↔
      ∃ key, attributes metadata key ≠ none := by
  rw [validateBlobMetadataExists_eq_ok hshows]
  cases metadata with
  | none => simp [attributes]
  | some m =>
    simp only [attributes_ne_none, Option.some.injEq, exists_eq_left', VecMap.keys, List.mem_map]
    constructor
    · intro hcontents
      obtain ⟨entry, hentry⟩ := List.exists_mem_of_ne_nil _ hcontents
      exact ⟨entry.1, entry, hentry, rfl⟩
    · rintro ⟨_, entry, hentry, -⟩
      exact List.ne_nil_of_mem hentry

theorem validateBlobMetadataKeysExist_attributes (hshows : Shows metadata listing)
    (objectId : String) {keys : List String} (hkeys : keys ≠ []) :
    validateBlobMetadataKeysExist repr listing objectId keys = .ok () ↔
      ∀ key ∈ keys, attributes metadata key ≠ none := by
  rw [validateBlobMetadataKeysExist_eq_ok hshows]
  cases metadata with
  | none =>
    obtain ⟨key, hkey⟩ := List.exists_mem_of_ne_nil keys hkeys
    simp only [reduceCtorEq, false_and, exists_false, false_iff]
    exact fun h => h key hkey rfl
  | some m => simp only [attributes_ne_none, Option.some.injEq, exists_eq_left']

/-- **Metadata requests are served one by one.** Whatever the commands and
wrappers submit, each after a look at the metadata that may be out of date when
its transaction is taken, the attributes of the Blobs become what the requests
make of them in the order of the transactions, and no other Blob changes. What
is read then are these attributes, and the gates accept exactly what is there
to be dropped. -/
theorem blobMetadata_served
    (hfrom : ∀ action ∈ actions, ChangesMetadata packageId action.1 action.2)
    (move : InsertOrUpdate) (store : MetadataStore) :
    (store.after move packageId (actions.map Prod.snd)).shown =
      served store.shown (actions.map Prod.fst) ∧
    ∀ blobObject metadata listing,
      store.after move packageId (actions.map Prod.snd) blobObject = some metadata →
      Shows metadata listing →
      ∃ now, served store.shown (actions.map Prod.fst) blobObject = some now ∧
        (∃ read, fetchBlobMetadata listing = .ok read ∧
          ∀ key value, (∃ pairs, read = some pairs ∧ ⟨key, value⟩ ∈ pairs) ↔
            now key = some value) ∧
        (validateBlobMetadataExists listing blobObject = .ok () ↔ ∃ key, now key ≠ none) ∧
        ∀ (repr : Json → String) keys, keys ≠ [] →
          (validateBlobMetadataKeysExist repr listing blobObject keys = .ok () ↔
            ∀ key ∈ keys, now key ≠ none) := by
  have hshown := shown_after move store hfrom
  refine ⟨hshown, fun blobObject metadata listing hblob hshows =>
    ⟨attributes metadata, ?_, fetchBlobMetadata_attributes hshows,
      validateBlobMetadataExists_attributes hshows blobObject,
      fun _ _ => validateBlobMetadataKeysExist_attributes hshows blobObject⟩⟩
  rw [← hshown, MetadataStore.shown, hblob, Option.map_some]

theorem blobMetadata_served_small :
    served (fun _ => some fun _ => none)
        [⟨"0xb", .set [("k", "v"), ("l", "w"), ("k", "x")]⟩, ⟨"0xb", .dropKeys ["l"]⟩] "0xb" =
      (MetadataStore.shown (MetadataStore.after .inPlace "0x1" (fun _ => some none)
        [⟨"0xa", none, [insertOrUpdatePairCall "0x1" "0xb" ("k", "x"),
            insertOrUpdatePairCall "0x1" "0xb" ("l", "w")]⟩,
          ⟨"0xa", none, [removePairCall "0x1" "0xb" "l"]⟩])) "0xb" := by
  have hpkg : walrusPackageId World.small = .ok "0x1" := by decide
  have hset : .submitted ⟨"0xa", none, [insertOrUpdatePairCall "0x1" "0xb" ("k", "x"),
      insertOrUpdatePairCall "0x1" "0xb" ("l", "w")]⟩ ∈
        (setBlobMetadata World.small ⟨fun _ => .ok (), .ok⟩ acceptingHoldings
          ⟨"0xb", [("k", "v"), ("l", "w"), ("k", "x")], none, none⟩).log := by decide
  have hlisting : Shows (some ⟨[("k", "x"), ("l", "w")], by decide⟩)
      (.ok (.ok (some [⟨some "0x1::metadata::Metadata",
        metadataJson ⟨[("k", "x"), ("l", "w")], by decide⟩⟩]))) := ⟨_, rfl, rfl⟩
  have hdrop : .submitted ⟨"0xa", none, [removePairCall "0x1" "0xb" "l"]⟩ ∈
        (dropBlobMetadata World.small ⟨fun _ => .ok (), .ok⟩ acceptingHoldings
          (.ok (.ok (some [⟨some "0x1::metadata::Metadata",
            metadataJson ⟨[("k", "x"), ("l", "w")], by decide⟩⟩])))
          ⟨"0xb", .these ["l"], none, none⟩).log := by decide
  have hfrom : ∀ action ∈ [(_, _), (_, _)],
      ChangesMetadata "0x1" action.1 action.2 :=
    List.forall_mem_cons.mpr ⟨.setBlobMetadata hpkg hset,
      List.forall_mem_singleton.mpr (.dropBlobMetadata hpkg hdrop)⟩
  have hserved := (blobMetadata_served hfrom .inPlace fun _ => some none).1
  exact (congrFun hserved "0xb").symm

end Runs

end Pytusk.Tusky
