import Pytusk.Chain.Staking
import Pytusk.Lib.Newest
import Pytusk.Types.Protocols
import Mathlib.Data.List.Lex
import Mathlib.Data.List.Sort

/-!
# `chain/committee.py`: reading the committee

Two listings of dynamic fields, all pages of each at once: the staking object's,
one of which holds the staking state, and the pools table's. The pages of the
second can have been taken at different checkpoints, so a pool may be listed
more than once; what is kept of it is its newest version.
-/

namespace Pytusk.Staking

open Pytusk.Lib

/-! ## Decoding -/

/-- A protobuf `Value`, by the member of the `oneof` that is set, or `None`. -/
inductive ProtoValue where
  | unset
  | stringValue (s : PyStr)
  | numberValue (x : PyFloat)
  | boolValue (b : Bool)
  | structValue (fields : List (PyStr × ProtoValue))
  | listValue (values : List ProtoValue)

mutual

def protobufJsonToPython : ProtoValue → Json
  | .unset => .none
  | .stringValue s => .str s
  | .numberValue x => .float x
  | .boolValue b => .bool b
  | .structValue fields => .dict (structToPython fields)
  | .listValue values => .list (listToPython values)

def structToPython : List (PyStr × ProtoValue) → List (PyStr × Json)
  | [] => []
  | (name, value) :: rest => (name, protobufJsonToPython value) :: structToPython rest

def listToPython : List ProtoValue → List Json
  | [] => []
  | value :: rest => protobufJsonToPython value :: listToPython rest

end

/-! ## Dynamic fields -/

structure FieldObject where
  objectId : String
  version : Option Nat
  json : ProtoValue

/-- A `DynamicField`; of the child object only its JSON is read. -/
structure DynamicField where
  valueType : Option String
  fieldObject : Option FieldObject
  childObject : Option ProtoValue

/-- A `ChainReader`, by what its `execute_for_all` gives for `GetDynamicFields` of
an object. -/
abbrev ChainReader := String → ExecuteOutcome (List DynamicField)

/-- What the texts of Python are: `f"{x}"` of a float, `int(s)` and `repr(s)`. -/
structure PyText where
  formatFloat : PyFloat → String
  parseInt : PyStr → Option Int
  repr : PyStr → String

/-- `result.result_data.dynamic_fields`, of a result that is ok. -/
def listed (what : String) : SuiRpcResult (List DynamicField) → Except PyExn (List DynamicField)
  | .failed resultString =>
      .error (.runtimeError s!"Cannot get {what} dynamic fields: {resultString}")
  | .ok none => .error (.attributeError "'NoneType' object has no attribute 'dynamic_fields'")
  | .ok (some dynamicFields) => .ok dynamicFields

/-! ## The staking state -/

/-- `_STAKING_INNER_TYPE_SUFFIX` -/
def stakingInnerTypeSuffix : String := "staking_inner::StakingInnerV1"

/-- `(candidate.value_type or "").endswith(_STAKING_INNER_TYPE_SUFFIX)` -/
def isStakingInner (candidate : DynamicField) : Bool :=
  stakingInnerTypeSuffix.toList.isSuffixOf (candidate.valueType.getD "").toList

/-- `entry.value_type or "<unknown>"` -/
def shownType (entry : DynamicField) : String :=
  match entry.valueType with
  | none => "<unknown>"
  | some valueType => if valueType = "" then "<unknown>" else valueType

def fetchStakingInner (reader : ChainReader) (stakingObject : String) :
    Except PyExn (Dict PyStr Json) := do
  let dynamicFields ← listed "staking" (← reader stakingObject)
  if dynamicFields = [] then
    .error (.runtimeError s!"Staking object {stakingObject} has no dynamic fields")
  else
    match dynamicFields.find? isStakingInner with
    | none =>
        let found := ", ".intercalate
          ((dynamicFields.map shownType).dedup.insertionSort (· ≤ ·))
        .error (.runtimeError
          (s!"Staking object {stakingObject} exposes no dynamic field ending in " ++
            s!"{stakingInnerTypeSuffix}; found: {found}"))
    | some selected =>
        match selected.fieldObject with
        | none => .error (.attributeError "'NoneType' object has no attribute 'json'")
        | some fieldObject => do
            let node ← requireDict (protobufJsonToPython fieldObject.json) "staking dynamic field"
            requireDict (field node "value") "StakingInnerV1"

def stakingPoolsTableId (stakingInner : Dict PyStr Json) : Except PyExn String := do
  let pools ← requireDict (field stakingInner "pools") "StakingInnerV1.pools"
  let id ← requireStr (field pools "id") "StakingInnerV1.pools.id"
  return id.textOf

def stakingPoolsSize (text : PyText) (stakingInner : Dict PyStr Json) : Except PyExn Int := do
  let pools ← requireDict (field stakingInner "pools") "pools"
  match field pools "size" with
  | .str size =>
      match text.parseInt size with
      | some n => return n
      | none =>
          let shown := text.repr size
          .error (.valueError s!"pools.size is not an integer: {shown}")
  | size => requireInt text.formatFloat size "pools.size"

/-! ## The pools -/

def poolNodeId (pool : Dict PyStr Json) : Except PyExn String := do
  let nodeInfo ← requireDict (field pool "node_info") "node_info"
  let nodeId ← requireStr (field nodeInfo "node_id") "node_info.node_id"
  return nodeId.textOf

section Pools

variable (poolsTableId : String)

def noVersion {α : Type} (fieldId : String) : Except PyExn α :=
  .error (.runtimeError
    s!"GetDynamicFields pools_table_id={poolsTableId}: dynamic field {fieldId} has no version")

/-- One iteration of the loop over the raw entries, on `deduped_by_field_id`. -/
def keepNewest (dedupedByFieldId : Dict String DynamicField) (entry : DynamicField) :
    Except PyExn (Dict String DynamicField) :=
  match entry.fieldObject with
  | none => .error (.attributeError "'NoneType' object has no attribute 'object_id'")
  | some fieldObject =>
      let fieldId := fieldObject.objectId
      match fieldObject.version with
      | none => noVersion poolsTableId fieldId
      | some version =>
          match Dict.get? dedupedByFieldId fieldId with
          | none => .ok (Dict.set dedupedByFieldId fieldId entry)
          | some existing =>
              match existing.fieldObject with
              | none =>
                  .error (.runtimeError
                    (s!"GetDynamicFields pools_table_id={poolsTableId}: dynamic " ++
                      s!"field {fieldId} has no field_object"))
              | some existingFieldObject =>
                  match existingFieldObject.version with
                  | none => noVersion poolsTableId fieldId
                  | some existingVersion =>
                      if existingVersion < version then
                        .ok (Dict.set dedupedByFieldId fieldId entry)
                      else .ok dedupedByFieldId

/-- The pool an entry holds, with its node. -/
def decodePool (entry : DynamicField) : Except PyExn (String × Dict PyStr Json) :=
  match entry.childObject with
  | none =>
      .error (.runtimeError
        (s!"GetDynamicFields pools_table_id={poolsTableId}: dynamic " ++
          "field entry has no child_object"))
  | some childObject => do
      let pool ← requireDict (protobufJsonToPython childObject) "staking pool"
      let nodeId ← poolNodeId pool
      return (nodeId, pool)

/-- One iteration of the loop over what is left, on `pools`. -/
def addPool (pools : Dict String (Dict PyStr Json)) (entry : DynamicField) :
    Except PyExn (Dict String (Dict PyStr Json)) := do
  let (nodeId, pool) ← decodePool poolsTableId entry
  return Dict.set pools nodeId pool

def fetchPools (reader : ChainReader) (expectedSize : Option Int) :
    Except PyExn (Dict String (Dict PyStr Json)) := do
  let rawEntries ← listed "pools" (← reader poolsTableId)
  let dedupedByFieldId ← rawEntries.foldlM (keepNewest poolsTableId) []
  let pools ← (dedupedByFieldId.map Prod.snd).foldlM (addPool poolsTableId) []
  match expectedSize with
  | some expected =>
      if (pools.length : Int) ≠ expected then
        .error (.runtimeError
          (s!"Pools table {poolsTableId} declares {expected} entries " ++
            s!"but {pools.length} were fetched; refusing to build a partial " ++ "committee."))
      else return pools
  | none => return pools

end Pools

/-! ## The reads of the SDK -/

section Fetch

variable (text : PyText) (reader : ChainReader) (stakingObject : String)

def fetchEpoch : Except PyExn Int := do
  let stakingInner ← fetchStakingInner reader stakingObject
  stakingEpoch text.formatFloat stakingInner

def fetchCommittee : Except PyExn WalrusCommittee := do
  let stakingInner ← fetchStakingInner reader stakingObject
  let poolsTableId ← stakingPoolsTableId stakingInner
  let expectedSize ← stakingPoolsSize text stakingInner
  let poolsByNodeId ← fetchPools poolsTableId reader (some expectedSize)
  buildCommittee text.formatFloat stakingInner poolsByNodeId

end Fetch

/-! ## What is kept of the listing -/

/-- The object of the field, and which version of it was listed. -/
def fieldId (entry : DynamicField) : String := (entry.fieldObject.map (·.objectId)).getD ""

def versionOf (entry : DynamicField) : Nat := (entry.fieldObject.bind (·.version)).getD 0

def HasVersion (entry : DynamicField) : Prop := (entry.fieldObject.bind (·.version)).isSome

/-- The newest entry of each field. -/
def newestEntries (rawEntries : List DynamicField) : Dict String DynamicField :=
  Newest.newest fieldId versionOf rawEntries

section Deduped

variable {poolsTableId : String}

private theorem keepNewest_of_hasVersion {deduped : Dict String DynamicField}
    {entry : DynamicField} (hentry : HasVersion entry)
    (hdeduped : ∀ e, Dict.get? deduped (fieldId entry) = some e → HasVersion e) :
    keepNewest poolsTableId deduped entry = .ok (Newest.keep fieldId versionOf deduped entry) := by
  obtain ⟨valueType, fieldObject, childObject⟩ := entry
  cases fieldObject with
  | none => simp [HasVersion] at hentry
  | some fieldObject =>
    obtain ⟨objectId, version, json⟩ := fieldObject
    cases version with
    | none => simp [HasVersion] at hentry
    | some version =>
      unfold keepNewest Newest.keep
      simp only [fieldId, Option.map_some, Option.getD_some] at hdeduped ⊢
      cases hget : Dict.get? deduped objectId with
      | none => rfl
      | some existing =>
        have hexisting := hdeduped existing hget
        obtain ⟨valueType', fieldObject', childObject'⟩ := existing
        cases fieldObject' with
        | none => simp [HasVersion] at hexisting
        | some fieldObject' =>
          obtain ⟨objectId', version', json'⟩ := fieldObject'
          cases version' with
          | none => simp [HasVersion] at hexisting
          | some version' =>
            dsimp only
            split
            · rename_i hlt
              simp [versionOf, hlt]
            · rename_i hlt
              simp [versionOf, hlt]

private theorem hasVersion_of_keepNewest {deduped deduped' : Dict String DynamicField}
    {entry : DynamicField} (h : keepNewest poolsTableId deduped entry = .ok deduped') :
    HasVersion entry := by
  obtain ⟨valueType, fieldObject, childObject⟩ := entry
  cases fieldObject with
  | none => cases h
  | some fieldObject =>
    obtain ⟨objectId, version, json⟩ := fieldObject
    cases version with
    | none => cases h
    | some version => rfl

/-- The loop over the raw entries. -/
theorem dedup_eq_ok {rawEntries : List DynamicField} {deduped : Dict String DynamicField} :
    rawEntries.foldlM (keepNewest poolsTableId) [] = .ok deduped ↔
      (∀ entry ∈ rawEntries, HasVersion entry) ∧ deduped = newestEntries rawEntries := by
  induction rawEntries using List.reverseRecOn generalizing deduped with
  | nil => simp [newestEntries, Newest.newest, eq_comm]
  | append_singleton rawEntries last ih =>
    rw [foldlM_snoc_eq_ok]
    have hkept (hall : ∀ entry ∈ rawEntries, HasVersion entry) (e : DynamicField)
        (he : Dict.get? (newestEntries rawEntries) (fieldId last) = some e) : HasVersion e :=
      hall e (Newest.isNewest_of_get? he).mem
    constructor
    · rintro ⟨front, hfront, hlast⟩
      obtain ⟨hall, rfl⟩ := ih.mp hfront
      have hversion := hasVersion_of_keepNewest hlast
      rw [keepNewest_of_hasVersion hversion (hkept hall)] at hlast
      refine ⟨?_, ?_⟩
      · simpa [or_imp, forall_and] using ⟨hall, hversion⟩
      · rw [newestEntries, Newest.newest_snoc]
        exact (Except.ok.inj hlast).symm
    · rintro ⟨hall, rfl⟩
      have hfront : ∀ entry ∈ rawEntries, HasVersion entry :=
        fun entry hentry => hall entry (List.mem_append_left _ hentry)
      refine ⟨_, ih.mpr ⟨hfront, rfl⟩, ?_⟩
      rw [keepNewest_of_hasVersion (hall last (by simp)) (hkept hfront), newestEntries,
        newestEntries, Newest.newest_snoc]

end Deduped

/-! ## What the pools are -/

section PoolsOf

variable {poolsTableId : String} {reader : ChainReader} {expectedSize : Option Int}
variable {pools : Dict String (Dict PyStr Json)}

private theorem addPools_eq_ok {entries : List DynamicField}
    {start : Dict String (Dict PyStr Json)} :
    entries.foldlM (addPool poolsTableId) start = .ok pools ↔
      ∃ items, entries.mapM (decodePool poolsTableId) = .ok items ∧
        pools = items.foldl (fun d item => Dict.set d item.1 item.2) start := by
  induction entries generalizing start with
  | nil => simp [eq_comm]
  | cons entry rest ih =>
    rw [List.foldlM_cons, List.mapM_cons, bind_eq_ok]
    constructor
    · rintro ⟨next, hnext, hrest⟩
      obtain ⟨item, hitem, hset⟩ := bind_eq_ok.mp hnext
      obtain ⟨items, hitems, rfl⟩ := ih.mp hrest
      cases hset
      exact ⟨item :: items, by rw [hitem, ok_bind, hitems]; rfl, rfl⟩
    · rintro ⟨items, hitems, rfl⟩
      obtain ⟨item, hitem, hitems⟩ := bind_eq_ok.mp hitems
      obtain ⟨rest', hrest', hitems⟩ := bind_eq_ok.mp hitems
      cases hitems
      exact ⟨_, bind_eq_ok.mpr ⟨item, hitem, rfl⟩, ih.mpr ⟨rest', hrest', rfl⟩⟩

/-- **What a fetch of the pools returns**: the pools of the newest entries, under
the ids of their nodes, as many as were expected. -/
theorem fetchPools_eq_ok : fetchPools poolsTableId reader expectedSize = .ok pools ↔
    ∃ rawEntries items, reader poolsTableId = .ok (.ok (some rawEntries)) ∧
      (∀ entry ∈ rawEntries, HasVersion entry) ∧
      ((newestEntries rawEntries).map Prod.snd).mapM (decodePool poolsTableId) = .ok items ∧
      pools = Dict.fromItems Prod.fst Prod.snd items ∧
      ∀ n, expectedSize = some n → (pools.length : Int) = n := by
  unfold fetchPools
  constructor
  · intro h
    obtain ⟨result, hresult, h⟩ := bind_eq_ok.mp h
    obtain ⟨rawEntries, hlisted, h⟩ := bind_eq_ok.mp h
    obtain ⟨deduped, hdeduped, h⟩ := bind_eq_ok.mp h
    obtain ⟨found, hfound, h⟩ := bind_eq_ok.mp h
    obtain ⟨hversions, rfl⟩ := dedup_eq_ok.mp hdeduped
    obtain ⟨items, hitems, rfl⟩ := addPools_eq_ok.mp hfound
    have hsized : Dict.fromItems Prod.fst Prod.snd items = pools ∧
        ∀ n, expectedSize = some n → (pools.length : Int) = n := by
      cases expectedSize with
      | none =>
        cases h
        exact ⟨rfl, fun n hn => nomatch hn⟩
      | some expected =>
        obtain ⟨hsize, h⟩ := ite_error_eq_ok.mp h
        cases h
        exact ⟨rfl, fun n hn => Option.some.inj hn ▸ not_not.mp hsize⟩
    obtain ⟨rfl, hsize⟩ := hsized
    refine ⟨rawEntries, items, ?_, hversions, hitems, rfl, hsize⟩
    rw [hresult]
    cases result with
    | failed resultString => cases hlisted
    | ok data =>
      cases data with
      | none => cases hlisted
      | some dynamicFields =>
        cases hlisted
        rfl
  · rintro ⟨rawEntries, items, hlisting, hversions, hitems, rfl, hsize⟩
    rw [hlisting, ok_bind]
    dsimp only [listed]
    rw [ok_bind, dedup_eq_ok.mpr ⟨hversions, rfl⟩, ok_bind, addPools_eq_ok.mpr ⟨items, hitems, rfl⟩,
      ok_bind]
    cases expectedSize with
    | none => rfl
    | some expected => exact ite_error_eq_ok.mpr ⟨not_not.mpr (hsize expected rfl), rfl⟩

/-- A pool that is looked up was decoded from the newest entry of some field. -/
theorem exists_entry_of_fetchPools
    (h : fetchPools poolsTableId reader expectedSize = .ok pools) :
    ∃ rawEntries, reader poolsTableId = .ok (.ok (some rawEntries)) ∧
      ∀ nodeId pool, Dict.get? pools nodeId = some pool → ∃ entry,
        Newest.IsNewest fieldId versionOf rawEntries (fieldId entry) entry ∧
        decodePool poolsTableId entry = .ok (nodeId, pool) := by
  obtain ⟨rawEntries, items, hlisting, -, hitems, rfl, -⟩ := fetchPools_eq_ok.mp h
  refine ⟨rawEntries, hlisting, fun nodeId pool hpool => ?_⟩
  obtain ⟨item, hitem, rfl, rfl⟩ := Dict.exists_of_get?_fromItems hpool
  obtain ⟨entry, hentry, hdecoded⟩ := exists_of_mem_mapM hitems hitem
  obtain ⟨⟨id, kept⟩, hkept, rfl⟩ := List.mem_map.mp hentry
  have hnewest := Newest.isNewest_of_get?
    ((Dict.mem_iff_get? (Newest.nodup_keys_newest rawEntries)).mp hkept)
  exact ⟨kept, hnewest.key_eq ▸ hnewest, hdecoded⟩

end PoolsOf

/-! ## The committee of the newest pools -/

section Fresh

variable {text : PyText} {reader : ChainReader} {stakingObject : String} {c : WalrusCommittee}
variable {pools pools' : Dict String (Dict PyStr Json)}

/-- The address and the key of the member are those of its pool. -/
def OfPool (pools : Dict String (Dict PyStr Json)) (m : WalrusCommitteeMember) : Prop :=
  ∃ pool, Dict.get? pools m.nodeId = some pool ∧
    poolNetworkAddress pool = .ok m.networkAddress ∧ poolPublicKey pool = .ok m.publicKey

private theorem addMember_ofPool {nShards : Int} {entry : String × List Int}
    {state state' : List WalrusCommitteeMember × List Nat}
    (h : addMember pools nShards state entry = .ok state')
    (hstate : ∀ m ∈ state.1, OfPool pools m) : ∀ m ∈ state'.1, OfPool pools m := by
  unfold addMember at h
  cases hpool : Dict.get? pools entry.1 with
  | none =>
    simp only [hpool] at h
    cases h
  | some pool =>
    simp only [hpool] at h
    obtain ⟨coverage, -, h⟩ := bind_eq_ok.mp h
    obtain ⟨address, haddress, h⟩ := bind_eq_ok.mp h
    obtain ⟨publicKey, hkey, h⟩ := bind_eq_ok.mp h
    cases h
    intro m hm
    rcases List.mem_append.mp hm with hold | hnew
    · exact hstate m hold
    · rw [List.mem_singleton.mp hnew]
      exact ⟨pool, hpool, haddress, hkey⟩

private theorem addMembers_ofPool {nShards : Int} {entries : List (String × List Int)}
    {state state' : List WalrusCommitteeMember × List Nat}
    (h : entries.foldlM (addMember pools nShards) state = .ok state')
    (hstate : ∀ m ∈ state.1, OfPool pools m) : ∀ m ∈ state'.1, OfPool pools m := by
  induction entries generalizing state with
  | nil =>
    cases h
    exact hstate
  | cons entry rest ih =>
    rw [List.foldlM_cons] at h
    obtain ⟨next, hnext, hrest⟩ := bind_eq_ok.mp h
    exact ih hrest (addMember_ofPool hnext hstate)

/-- What else is known of a committee that is built. -/
private theorem buildCommittee_ofPools {stakingInner : Dict PyStr Json}
    (h : buildCommittee text.formatFloat stakingInner pools = .ok c) :
    (∀ m ∈ c.members, OfPool pools m) ∧
      ∃ epoch, stakingEpoch text.formatFloat stakingInner = .ok epoch ∧ c.epoch = epoch.toNat := by
  obtain ⟨nShards, -, h⟩ := bind_eq_ok.mp h
  obtain ⟨entries, -, h⟩ := bind_eq_ok.mp h
  obtain ⟨⟨members, coverage⟩, hmembers, h⟩ := bind_eq_ok.mp h
  obtain ⟨-, h⟩ := ite_error_eq_ok.mp h
  obtain ⟨epoch, hepoch, h⟩ := bind_eq_ok.mp h
  cases h
  exact ⟨addMembers_ofPool hmembers (by simp), epoch, hepoch, rfl⟩

/-- Pools are only looked up. -/
private theorem buildCommittee_congr
    (h : ∀ nodeId, Dict.get? pools nodeId = Dict.get? pools' nodeId)
    (stakingInner : Dict PyStr Json) :
    buildCommittee text.formatFloat stakingInner pools =
      buildCommittee text.formatFloat stakingInner pools' := by
  have hstep : addMember pools = addMember pools' := by
    funext nShards state entry
    unfold addMember
    simp only [h entry.1]
  unfold buildCommittee
  rw [hstep]

/-- The member has the address and the key of the newest version of its pool. -/
def OfNewest (poolsTableId : String) (rawEntries : List DynamicField)
    (m : WalrusCommitteeMember) : Prop :=
  ∃ entry pool, Newest.IsNewest fieldId versionOf rawEntries (fieldId entry) entry ∧
    decodePool poolsTableId entry = .ok (m.nodeId, pool) ∧
    poolNetworkAddress pool = .ok m.networkAddress ∧ poolPublicKey pool = .ok m.publicKey

/-- What a committee owes to the listings it was read from. -/
structure IsFresh (text : PyText) (reader : ChainReader) (stakingObject : String)
    (c : WalrusCommittee) : Prop where
  partitions : c.PartitionsShards
  epoch : ∃ epoch, fetchEpoch text reader stakingObject = .ok epoch ∧ c.epoch = epoch.toNat
  /-- The members and the table of pools are those of one state. -/
  members : ∃ stakingInner entries poolsTableId rawEntries,
    fetchStakingInner reader stakingObject = .ok stakingInner ∧
      stakingCommitteeShards text.formatFloat stakingInner = .ok entries ∧
      stakingPoolsTableId stakingInner = .ok poolsTableId ∧
      reader poolsTableId = .ok (.ok (some rawEntries)) ∧
      c.members.map (fun m => (m.nodeId, m.shardIndices.map Int.ofNat)) = entries ∧
      ∀ m ∈ c.members, OfNewest poolsTableId rawEntries m

private theorem fetchCommittee_eq_ok : fetchCommittee text reader stakingObject = .ok c ↔
    ∃ stakingInner poolsTableId expectedSize pools,
      fetchStakingInner reader stakingObject = .ok stakingInner ∧
      stakingPoolsTableId stakingInner = .ok poolsTableId ∧
      stakingPoolsSize text stakingInner = .ok expectedSize ∧
      fetchPools poolsTableId reader (some expectedSize) = .ok pools ∧
      buildCommittee text.formatFloat stakingInner pools = .ok c := by
  unfold fetchCommittee
  simp only [bind_eq_ok]
  constructor
  · rintro ⟨stakingInner, hinner, id, hid, size, hsize, pools, hpools, h⟩
    exact ⟨stakingInner, id, size, pools, hinner, hid, hsize, hpools, h⟩
  · rintro ⟨stakingInner, id, size, pools, hinner, hid, hsize, hpools, h⟩
    exact ⟨stakingInner, hinner, id, hid, size, hsize, pools, hpools, h⟩

/-- **A committee that is read is fresh**: its members are those of the staking
state in that order, with the shards that it assigns to them, which are a
partition, and have the address and the key of the newest version of their pool
that any page of its table lists. -/
theorem fetchCommittee_isFresh (h : fetchCommittee text reader stakingObject = .ok c) :
    IsFresh text reader stakingObject c := by
  obtain ⟨stakingInner, poolsTableId, expectedSize, pools, hinner, htable, -, hpools, hbuilt⟩ :=
    fetchCommittee_eq_ok.mp h
  obtain ⟨hpartitions, entries, hentries, hassigned⟩ := buildCommittee_partitions hbuilt
  obtain ⟨hofPools, epoch, hepoch, hsame⟩ := buildCommittee_ofPools hbuilt
  obtain ⟨rawEntries, hlisting, hdecodes⟩ := exists_entry_of_fetchPools hpools
  refine ⟨hpartitions, ⟨epoch, ?_, hsame⟩, stakingInner, entries, poolsTableId, rawEntries, hinner,
    hentries, htable, hlisting, hassigned, fun m hm => ?_⟩
  · unfold fetchEpoch
    rw [hinner, ok_bind, hepoch]
  · obtain ⟨pool, hpool, haddress, hkey⟩ := hofPools m hm
    obtain ⟨entry, hnewest, hdecoded⟩ := hdecodes m.nodeId pool hpool
    exact ⟨entry, pool, hnewest, hdecoded, haddress, hkey⟩

end Fresh

/-! ### One node, whose pool changed between two pages -/

private def struct (fields : List (String × ProtoValue)) : ProtoValue :=
  .structValue (fields.map fun item => (Json.key item.1, item.2))

private def string (s : String) : ProtoValue := .stringValue (Json.key s)

private def smallInner : ProtoValue :=
  struct [("value", struct [
    ("epoch", .numberValue ⟨0x4014000000000000⟩),
    ("n_shards", .numberValue ⟨0x3FF0000000000000⟩),
    ("committee", struct [("pos0", struct [("contents", .listValue [
      struct [("key", string "0xa"), ("value", .listValue [.numberValue ⟨0⟩])]])])]),
    ("pools", struct [("id", string "0xt"), ("size", string "1")])])]

private def smallEntryOf (version : Nat) (address : String) : DynamicField where
  valueType := none
  fieldObject := some ⟨"0xf", some version, .unset⟩
  childObject := some (struct [("node_info", struct [
    ("node_id", string "0xa"),
    ("network_address", string address),
    ("public_key", struct [("bytes", .stringValue (List.replicate 128 65))])])])

private def oldEntry : DynamicField := smallEntryOf 3 "old:1"

private def newEntry : DynamicField := smallEntryOf 4 "new:1"

private def smallText : PyText where
  formatFloat _ := ""
  parseInt s := if s = Json.key "1" then some 1 else none
  repr _ := ""

private def smallReader (pages : List DynamicField) : ChainReader := fun objectId =>
  if objectId = "0xs" then
    .ok (.ok (some [⟨some "0x1::staking_inner::StakingInnerV1", some ⟨"0xi", some 9, smallInner⟩,
      none⟩]))
  else .ok (.ok (some pages))

private def freshCommittee : WalrusCommittee :=
  ⟨5, 1, [⟨"0xa", [0], "new:1", List.replicate 96 0⟩]⟩

private theorem small_read :
    fetchCommittee smallText (smallReader [newEntry, oldEntry]) "0xs" = .ok freshCommittee := by
  decide +kernel

theorem fetchCommittee_isFresh_small :
    IsFresh smallText (smallReader [newEntry, oldEntry]) "0xs" freshCommittee :=
  fetchCommittee_isFresh small_read

/-! ## The order of the pages -/

/-- Two listings of a pools table hold the same entries, in whatever order and
however often; a version of a field is one entry, and a node has one field. -/
structure SameEntries (poolsTableId : String) (rawEntries rawEntries' : List DynamicField) :
    Prop where
  same : ∀ entry, entry ∈ rawEntries ↔ entry ∈ rawEntries'
  versioned : Newest.Versioned fieldId versionOf rawEntries
  oneField : ∀ entry ∈ rawEntries, ∀ entry' ∈ rawEntries, ∀ nodeId pool pool',
    decodePool poolsTableId entry = .ok (nodeId, pool) →
    decodePool poolsTableId entry' = .ok (nodeId, pool') → fieldId entry = fieldId entry'

section Pages

variable {poolsTableId : String} {rawEntries rawEntries' : List DynamicField}

private theorem SameEntries.symm (h : SameEntries poolsTableId rawEntries rawEntries') :
    SameEntries poolsTableId rawEntries' rawEntries where
  same entry := (h.same entry).symm
  versioned entry hentry entry' hentry' :=
    h.versioned entry ((h.same entry).mpr hentry) entry' ((h.same entry').mpr hentry')
  oneField entry hentry entry' hentry' :=
    h.oneField entry ((h.same entry).mpr hentry) entry' ((h.same entry').mpr hentry')

private theorem mem_kept {entry : DynamicField} :
    entry ∈ (newestEntries rawEntries).map Prod.snd ↔
      Dict.get? (newestEntries rawEntries) (fieldId entry) = some entry := by
  have hitem : (fieldId entry, entry) ∈ newestEntries rawEntries ↔
      Dict.get? (newestEntries rawEntries) (fieldId entry) = some entry :=
    Dict.mem_iff_get? (Newest.nodup_keys_newest rawEntries)
  rw [← hitem, List.mem_map]
  constructor
  · rintro ⟨⟨id, kept⟩, hkept, rfl⟩
    have hnewest := Newest.isNewest_of_get?
      ((Dict.mem_iff_get? (Newest.nodup_keys_newest rawEntries)).mp hkept)
    exact hnewest.key_eq ▸ hkept
  · exact fun h => ⟨_, h, rfl⟩

/-- A pool is looked up exactly where a kept entry holds it. -/
private theorem get?_pools (h : SameEntries poolsTableId rawEntries rawEntries')
    {items : List (String × Dict PyStr Json)}
    (hitems : ((newestEntries rawEntries).map Prod.snd).mapM (decodePool poolsTableId) = .ok items)
    {nodeId : String} {pool : Dict PyStr Json} :
    Dict.get? (Dict.fromItems Prod.fst Prod.snd items) nodeId = some pool ↔
      ∃ entry, Dict.get? (newestEntries rawEntries) (fieldId entry) = some entry ∧
        decodePool poolsTableId entry = .ok (nodeId, pool) := by
  have hfound {nodeId : String} {pool : Dict PyStr Json}
      (hget : Dict.get? (Dict.fromItems Prod.fst Prod.snd items) nodeId = some pool) :
      ∃ entry, Dict.get? (newestEntries rawEntries) (fieldId entry) = some entry ∧
        decodePool poolsTableId entry = .ok (nodeId, pool) := by
    obtain ⟨item, hitem, rfl, rfl⟩ := Dict.exists_of_get?_fromItems hget
    obtain ⟨entry, hentry, hdecoded⟩ := exists_of_mem_mapM hitems hitem
    exact ⟨entry, mem_kept.mp hentry, hdecoded⟩
  refine ⟨hfound, ?_⟩
  rintro ⟨entry, hkept, hdecoded⟩
  obtain ⟨item, hitem, hsame⟩ := exists_mem_of_mapM hitems (mem_kept.mpr hkept)
  obtain rfl := Except.ok.inj (hdecoded.symm.trans hsame)
  obtain ⟨pool', hpool'⟩ :
      ∃ v, Dict.get? (Dict.fromItems Prod.fst Prod.snd items) nodeId = some v :=
    Dict.exists_get?_fromItems hitem
  obtain ⟨entry', hkept', hdecoded'⟩ := hfound hpool'
  have hfield := h.oneField entry (Newest.isNewest_of_get? hkept).mem entry'
    (Newest.isNewest_of_get? hkept').mem nodeId pool pool' hdecoded hdecoded'
  obtain rfl := Option.some.inj (hkept.symm.trans (hfield ▸ hkept'))
  obtain ⟨-, rfl⟩ := Prod.mk.inj (Except.ok.inj (hdecoded.symm.trans hdecoded'))
  exact hpool'

private theorem fetchPools_congr (h : SameEntries poolsTableId rawEntries rawEntries')
    {reader reader' : ChainReader} {expectedSize : Option Int}
    {pools : Dict String (Dict PyStr Json)}
    (hreader : reader poolsTableId = .ok (.ok (some rawEntries)))
    (hreader' : reader' poolsTableId = .ok (.ok (some rawEntries')))
    (hpools : fetchPools poolsTableId reader expectedSize = .ok pools) :
    ∃ pools', fetchPools poolsTableId reader' expectedSize = .ok pools' ∧
      ∀ nodeId, Dict.get? pools nodeId = Dict.get? pools' nodeId := by
  obtain ⟨raw, items, hraw, hversions, hitems, rfl, hsize⟩ := fetchPools_eq_ok.mp hpools
  obtain rfl : raw = rawEntries := by
    cases hraw.symm.trans hreader
    rfl
  have hkept (entry : DynamicField) :
      Dict.get? (newestEntries raw) (fieldId entry) = some entry ↔
        Dict.get? (newestEntries rawEntries') (fieldId entry) = some entry := by
    unfold newestEntries
    rw [Newest.get?_newest_congr h.versioned h.same]
  obtain ⟨items', hitems'⟩ : ∃ items',
      ((newestEntries rawEntries').map Prod.snd).mapM (decodePool poolsTableId) = .ok items' := by
    refine exists_mapM_ok fun entry hentry => ?_
    obtain ⟨item, -, hdecoded⟩ :=
      exists_mem_of_mapM hitems (mem_kept.mpr ((hkept entry).mpr (mem_kept.mp hentry)))
    exact ⟨item, hdecoded⟩
  have hsame (nodeId : String) : Dict.get? (Dict.fromItems Prod.fst Prod.snd items) nodeId =
      Dict.get? (Dict.fromItems Prod.fst Prod.snd items') nodeId := by
    apply Option.ext
    intro pool
    rw [get?_pools h hitems, get?_pools h.symm hitems']
    simp only [hkept]
  have hlength := Dict.length_eq_of_get? (Dict.nodup_keys_fromItems items)
    (Dict.nodup_keys_fromItems items') hsame
  refine ⟨_, fetchPools_eq_ok.mpr ⟨rawEntries', items', hreader', ?_, hitems', rfl, ?_⟩, hsame⟩
  · exact fun entry hentry => hversions entry ((h.same entry).mpr hentry)
  · exact fun n hn => hlength ▸ hsize n hn

/-- The readers agree, but for the pages of the pools table. -/
structure SamePages (reader reader' : ChainReader) (stakingObject : String) : Prop where
  staking : reader stakingObject = reader' stakingObject
  pools : ∀ stakingInner poolsTableId, fetchStakingInner reader stakingObject = .ok stakingInner →
    stakingPoolsTableId stakingInner = .ok poolsTableId → ∃ rawEntries rawEntries',
      reader poolsTableId = .ok (.ok (some rawEntries)) ∧
      reader' poolsTableId = .ok (.ok (some rawEntries')) ∧
      SameEntries poolsTableId rawEntries rawEntries'

variable {reader reader' : ChainReader} {stakingObject : String}

private theorem fetchStakingInner_congr (h : reader stakingObject = reader' stakingObject) :
    fetchStakingInner reader stakingObject = fetchStakingInner reader' stakingObject := by
  unfold fetchStakingInner
  rw [h]

private theorem SamePages.symm (h : SamePages reader reader' stakingObject) :
    SamePages reader' reader stakingObject where
  staking := h.staking.symm
  pools stakingInner poolsTableId hinner hid := by
    rw [← fetchStakingInner_congr h.staking] at hinner
    obtain ⟨raw, raw', hraw, hraw', hsame⟩ := h.pools stakingInner poolsTableId hinner hid
    exact ⟨raw', raw, hraw', hraw, hsame.symm⟩

private theorem SamePages.fetchCommittee (h : SamePages reader reader' stakingObject)
    {text : PyText} {c : WalrusCommittee}
    (hc : fetchCommittee text reader stakingObject = .ok c) :
    fetchCommittee text reader' stakingObject = .ok c := by
  obtain ⟨stakingInner, poolsTableId, expectedSize, pools, hinner, hid, hsize, hpools, hbuilt⟩ :=
    fetchCommittee_eq_ok.mp hc
  obtain ⟨raw, raw', hraw, hraw', hsame⟩ := h.pools stakingInner poolsTableId hinner hid
  obtain ⟨pools', hpools', hlookup⟩ := fetchPools_congr hsame hraw hraw' hpools
  rw [fetchStakingInner_congr h.staking] at hinner
  rw [buildCommittee_congr hlookup] at hbuilt
  exact fetchCommittee_eq_ok.mpr
    ⟨stakingInner, poolsTableId, expectedSize, pools', hinner, hid, hsize, hpools', hbuilt⟩

/-- **The order of the pages does not matter**, nor how often an entry is listed:
two readers whose pages hold the same entries read the same committee. -/
theorem fetchCommittee_pages (text : PyText) (h : SamePages reader reader' stakingObject)
    (c : WalrusCommittee) :
    fetchCommittee text reader stakingObject = .ok c ↔
      fetchCommittee text reader' stakingObject = .ok c :=
  ⟨h.fetchCommittee, h.symm.fetchCommittee⟩

private def smallState : Dict PyStr Json :=
  match protobufJsonToPython smallInner with
  | .dict fields =>
      match field fields "value" with
      | .dict state => state
      | _ => []
  | _ => []

private theorem small_samePages :
    SamePages (smallReader [newEntry, oldEntry]) (smallReader [oldEntry, newEntry, newEntry])
      "0xs" where
  staking := rfl
  pools stakingInner poolsTableId hinner hid := by
    have hstate : fetchStakingInner (smallReader [newEntry, oldEntry]) "0xs" = .ok smallState := rfl
    obtain rfl := Except.ok.inj (hstate.symm.trans hinner)
    obtain rfl : "0xt" = poolsTableId := Except.ok.inj hid
    refine ⟨[newEntry, oldEntry], [oldEntry, newEntry, newEntry], rfl, rfl, ⟨?_, ?_, ?_⟩⟩
    · intro entry
      simp only [List.mem_cons, List.not_mem_nil, or_false]
      tauto
    · intro entry hentry entry' hentry' _ hversion
      simp only [List.mem_cons, List.not_mem_nil, or_false] at hentry hentry'
      rcases hentry with rfl | rfl <;> rcases hentry' with rfl | rfl
      · rfl
      · cases hversion
      · cases hversion
      · rfl
    · intro entry hentry entry' hentry' _ _ _ _ _
      have hfield : ∀ e ∈ [newEntry, oldEntry], fieldId e = "0xf" := by
        simp only [List.forall_mem_cons]
        exact ⟨rfl, rfl, List.forall_mem_nil _⟩
      rw [hfield entry hentry, hfield entry' hentry']

theorem fetchCommittee_pages_small :
    fetchCommittee smallText (smallReader [oldEntry, newEntry, newEntry]) "0xs" =
      .ok freshCommittee :=
  (fetchCommittee_pages smallText small_samePages freshCommittee).mp small_read

end Pages

end Pytusk.Staking
