import Pytusk.Chain.Committee
import Pytusk.Lib.Base64
import Pytusk.Types.Json

/-!
# `chain/committee.py`: the committee from the staking state

`build_committee` over the decoded `StakingInnerV1` and the pools. The strings
in them came over protobuf, so they are text. `f"{x}"` of a float goes into
error texts only and is a parameter.
-/

namespace Pytusk.Staking

open Pytusk.Lib

/-- `node.get(name)` -/
def field (node : Dict PyStr Json) (name : String) : Json :=
  (Dict.get? node (Json.key name)).getD .none

def requireDict (node : Json) (path : String) : Except PyExn (Dict PyStr Json) :=
  match node with
  | .dict items => .ok items
  | _ =>
      let typeName := node.typeName
      .error (.typeError s!"Expected a mapping at {path}, got {typeName}")

def requireList (node : Json) (path : String) : Except PyExn (List Json) :=
  match node with
  | .list xs => .ok xs
  | _ =>
      let typeName := node.typeName
      .error (.typeError s!"Expected a list at {path}, got {typeName}")

def requireStr (node : Json) (path : String) : Except PyExn PyStr :=
  match node with
  | .str s => .ok s
  | _ =>
      let typeName := node.typeName
      .error (.typeError s!"Expected a string at {path}, got {typeName}")

variable (formatFloat : PyFloat → String)

def requireInt (node : Json) (path : String) : Except PyExn Int :=
  match node with
  | .int n => .ok n
  | .float x =>
      if x.isInteger then x.toInt
      else
        let shown := formatFloat x
        .error (.valueError s!"Expected an integer at {path}, got {shown}")
  | _ =>
      let typeName := node.typeName
      .error (.typeError s!"Expected a number at {path}, got {typeName}")

/-! ## The fields of the staking state -/

section Fields

variable (stakingInner : Dict PyStr Json)

def stakingEpoch : Except PyExn Int :=
  requireInt formatFloat (field stakingInner "epoch") "StakingInnerV1.epoch"

def stakingNShards : Except PyExn Int :=
  requireInt formatFloat (field stakingInner "n_shards") "StakingInnerV1.n_shards"

/-- One entry of `committee.pos0.contents`. -/
def committeeEntry (rawEntry : Json) (position : Nat) : Except PyExn (String × List Int) := do
  let entry ← requireDict rawEntry s!"committee.contents[{position}]"
  let nodeId ← requireStr (field entry "key") s!"committee.contents[{position}].key"
  let shardValues ← requireList (field entry "value") s!"committee.contents[{position}].value"
  let shardIndices ← shardValues.zipIdx.mapM fun (shard, offset) =>
    requireInt formatFloat shard s!"committee.contents[{position}].value[{offset}]"
  return (nodeId.textOf, shardIndices)

/-- The committee's `VecMap`, in its order. -/
def stakingCommitteeShards : Except PyExn (List (String × List Int)) := do
  let committee ← requireDict (field stakingInner "committee") "StakingInnerV1.committee"
  let vecMap ← requireDict (field committee "pos0") "committee.pos0"
  let contents ← requireList (field vecMap "contents") "committee.contents"
  contents.zipIdx.mapM fun (rawEntry, position) => committeeEntry formatFloat rawEntry position

end Fields

/-! ## The fields of a pool -/

section Pool

variable (pool : Dict PyStr Json)

def poolNetworkAddress : Except PyExn String := do
  let nodeInfo ← requireDict (field pool "node_info") "node_info"
  let address ← requireStr (field nodeInfo "network_address") "node_info.network_address"
  return address.textOf

/-- `_UNCOMPRESSED_G1_LENGTH` -/
def uncompressedG1Length : Nat := 96

def poolPublicKey : Except PyExn Bytes := do
  let nodeInfo ← requireDict (field pool "node_info") "node_info"
  let publicKey ← requireDict (field nodeInfo "public_key") "node_info.public_key"
  let encoded ← requireStr (field publicKey "bytes") "node_info.public_key.bytes"
  match Base64.decode encoded with
  | .error message => .error (.valueError message)
  | .ok decoded =>
      if decoded.length ≠ uncompressedG1Length then
        .error (.valueError
          (s!"node_info.public_key.bytes decoded to {decoded.length} bytes, " ++
            s!"expected {uncompressedG1Length}"))
      else return decoded

end Pool

/-! ## The committee -/

/-- `coverage[shard] += 1`, for the shards of one member. -/
def coverShards (nodeId : String) (nShards : Int) (coverage : List Nat) (shards : List Int) :
    Except PyExn (List Nat) :=
  shards.foldlM
    (fun coverage shard =>
      if shard < 0 ∨ nShards ≤ shard then
        .error (.valueError
          (s!"Committee member {nodeId} claims shard {shard}, outside " ++
            s!"range(0, {nShards})"))
      else .ok (coverage.modify shard.toNat (· + 1)))
    coverage

/-- One iteration of the loop over the committee, on `members` and `coverage`. -/
def addMember (poolsByNodeId : Dict String (Dict PyStr Json)) (nShards : Int)
    (state : List WalrusCommitteeMember × List Nat) (entry : String × List Int) :
    Except PyExn (List WalrusCommitteeMember × List Nat) := do
  let (nodeId, shardIndices) := entry
  match Dict.get? poolsByNodeId nodeId with
  | none =>
      .error (.keyError s!"Committee member {nodeId} has no entry in the pools table")
  | some pool => do
      let coverage ← coverShards nodeId nShards state.2 shardIndices
      let networkAddress ← poolNetworkAddress pool
      let publicKey ← poolPublicKey pool
      let member : WalrusCommitteeMember := {
        nodeId := nodeId
        shardIndices := shardIndices.map Int.toNat
        networkAddress := networkAddress
        publicKey := publicKey }
      return (state.1 ++ [member], coverage)

/-- `[shard for shard, count in enumerate(coverage) if ...]` -/
def shardsWhere (p : Nat → Bool) (coverage : List Nat) : List Nat :=
  coverage.zipIdx.filterMap fun (count, shard) => if p count then some shard else none

/-- `f"{xs}"` of a list of integers. -/
def formatList (xs : List Nat) : String :=
  "[" ++ ", ".intercalate (xs.map toString) ++ "]"

/-- `build_committee`. The epoch and the number of shards are unsigned on chain;
a negative one would be kept as 0. -/
def buildCommittee (stakingInner : Dict PyStr Json)
    (poolsByNodeId : Dict String (Dict PyStr Json)) : Except PyExn WalrusCommittee := do
  let nShards ← stakingNShards formatFloat stakingInner
  let entries ← stakingCommitteeShards formatFloat stakingInner
  let (members, coverage) ← entries.foldlM (addMember poolsByNodeId nShards)
    ([], List.replicate nShards.toNat 0)
  let uncovered := shardsWhere (· = 0) coverage
  let duplicated := shardsWhere (· > 1) coverage
  if uncovered ≠ [] ∨ duplicated ≠ [] then
    let firstUncovered := formatList (uncovered.take 5)
    let firstDuplicated := formatList (duplicated.take 5)
    .error (.valueError
      ("Shard assignment does not cover every shard exactly once: " ++
        s!"{uncovered.length} uncovered (first: {firstUncovered}), " ++
        s!"{duplicated.length} duplicated (first: {firstDuplicated})"))
  else do
    let epoch ← stakingEpoch formatFloat stakingInner
    return {
      epoch := epoch.toNat
      nShards := nShards.toNat
      members := members }

/-! ## What is accepted covers every shard once -/

section Coverage

variable {formatFloat : PyFloat → String} {nShards : Int}

/-- The counts grow by what the member claims, all of it in range. -/
private theorem coverShards_eq_ok {nodeId : String} {shards : List Int}
    {coverage coverage' : List Nat}
    (h : coverShards nodeId nShards coverage shards = .ok coverage') :
    coverage'.length = coverage.length ∧
      (∀ shard ∈ shards, 0 ≤ shard) ∧
      (∀ shard ∈ shards.map Int.toNat, shard < nShards.toNat) ∧
      ∀ shard < coverage.length, coverage'.getD shard 0 =
        coverage.getD shard 0 + (shards.map Int.toNat).count shard := by
  unfold coverShards at h
  induction shards generalizing coverage with
  | nil =>
    cases h
    simp
  | cons first rest ih =>
    rw [List.foldlM_cons] at h
    obtain ⟨covered, hcovered, hrest⟩ := bind_eq_ok.mp h
    by_cases hrange : first < 0 ∨ nShards ≤ first
    · rw [if_pos hrange] at hcovered
      cases hcovered
    · rw [if_neg hrange] at hcovered
      cases hcovered
      obtain ⟨hlength, hnonneg, hbound, hcount⟩ := ih hrest
      rw [List.length_modify] at hlength hcount
      refine ⟨hlength, List.forall_mem_cons.mpr ⟨by omega, hnonneg⟩, ?_, ?_⟩
      · intro shard hshard
        rw [List.map_cons, List.mem_cons] at hshard
        rcases hshard with rfl | hshard
        · omega
        · exact hbound shard hshard
      · intro shard hshard
        rw [hcount shard hshard, List.map_cons, List.count_cons]
        simp only [List.getD_eq_getElem?_getD, List.getElem?_modify]
        by_cases heq : first.toNat = shard
        · subst heq
          simp [hshard]
          omega
        · simp [heq]

private theorem addMember_eq_ok {pools : Dict String (Dict PyStr Json)}
    {state state' : List WalrusCommitteeMember × List Nat} {entry : String × List Int}
    (h : addMember pools nShards state entry = .ok state') :
    ∃ m : WalrusCommitteeMember, state'.1 = state.1 ++ [m] ∧ m.nodeId = entry.1 ∧
      m.shardIndices = entry.2.map Int.toNat ∧
      coverShards entry.1 nShards state.2 entry.2 = .ok state'.2 := by
  unfold addMember at h
  cases hpool : Dict.get? pools entry.1 with
  | none =>
    simp only [hpool] at h
    cases h
  | some pool =>
    simp only [hpool] at h
    obtain ⟨coverage, hcoverage, h⟩ := bind_eq_ok.mp h
    obtain ⟨address, -, h⟩ := bind_eq_ok.mp h
    obtain ⟨publicKey, -, h⟩ := bind_eq_ok.mp h
    cases h
    exact ⟨_, rfl, rfl, rfl, hcoverage⟩

/-- The loop over the committee. -/
private theorem addMembers_eq_ok {pools : Dict String (Dict PyStr Json)}
    {entries : List (String × List Int)} {state state' : List WalrusCommitteeMember × List Nat}
    (h : entries.foldlM (addMember pools nShards) state = .ok state') :
    ∃ added : List WalrusCommitteeMember, state'.1 = state.1 ++ added ∧
      added.map (fun m => (m.nodeId, m.shardIndices.map Int.ofNat)) = entries ∧
      (∀ shard ∈ added.flatMap (·.shardIndices), shard < nShards.toNat) ∧
      state'.2.length = state.2.length ∧
      ∀ shard < state.2.length, state'.2.getD shard 0 =
        state.2.getD shard 0 + (added.flatMap (·.shardIndices)).count shard := by
  induction entries generalizing state with
  | nil =>
    cases h
    exact ⟨[], by simp⟩
  | cons entry rest ih =>
    rw [List.foldlM_cons] at h
    obtain ⟨next, hnext, hrest⟩ := bind_eq_ok.mp h
    obtain ⟨m, hmembers, hid, hshards, hcover⟩ := addMember_eq_ok hnext
    obtain ⟨hlength, hnonneg, hbound, hcount⟩ := coverShards_eq_ok hcover
    obtain ⟨added, hadded, hassigned, hbound', hlength', hcount'⟩ := ih hrest
    refine ⟨m :: added, ?_, ?_, ?_, hlength'.trans hlength, ?_⟩
    · rw [hadded, hmembers, List.append_assoc]
      rfl
    · have hsame : (entry.2.map Int.toNat).map Int.ofNat = entry.2 := by
        rw [List.map_map]
        refine (List.map_congr_left fun shard hshard => ?_).trans (List.map_id _)
        exact Int.toNat_of_nonneg (hnonneg shard hshard)
      rw [List.map_cons, hassigned, hid, hshards, hsame]
    · intro shard hshard
      rw [List.flatMap_cons, List.mem_append] at hshard
      rcases hshard with hshard | hshard
      · exact hbound shard (hshards ▸ hshard)
      · exact hbound' shard hshard
    · intro shard hshard
      rw [hcount' shard (hlength ▸ hshard), hcount shard hshard, List.flatMap_cons,
        List.count_append, hshards]
      omega

private theorem shardsWhere_eq_nil {p : Nat → Bool} {coverage : List Nat}
    (h : shardsWhere p coverage = []) : ∀ shard < coverage.length,
      p (coverage.getD shard 0) = false := by
  intro shard hshard
  have hnone := List.filterMap_eq_nil_iff.mp h (coverage[shard], shard)
    (List.mem_zipIdx_iff_getElem?.mpr (List.getElem?_eq_getElem hshard))
  have hget : coverage.getD shard 0 = coverage[shard] := by
    rw [List.getD_eq_getElem?_getD, List.getElem?_eq_getElem hshard, Option.getD_some]
  rw [hget]
  by_contra hp
  rw [Bool.not_eq_false] at hp
  simp [hp] at hnone

/-- **The members of an accepted committee partition the shards**, and each has
those that its entry of the committee assigns to it. -/
theorem buildCommittee_partitions {stakingInner : Dict PyStr Json}
    {pools : Dict String (Dict PyStr Json)} {c : WalrusCommittee}
    (h : buildCommittee formatFloat stakingInner pools = .ok c) :
    c.PartitionsShards ∧ ∃ entries,
      stakingCommitteeShards formatFloat stakingInner = .ok entries ∧
      c.members.map (fun m => (m.nodeId, m.shardIndices.map Int.ofNat)) = entries := by
  obtain ⟨nShards, -, h⟩ := bind_eq_ok.mp h
  obtain ⟨entries, hentries, h⟩ := bind_eq_ok.mp h
  obtain ⟨⟨members, coverage⟩, hmembers, h⟩ := bind_eq_ok.mp h
  obtain ⟨added, hadded, hassigned, hbound, hlength, hcount⟩ := addMembers_eq_ok hmembers
  simp only [List.nil_append, List.length_replicate] at hadded hlength hcount
  dsimp only at h
  by_cases hfault : shardsWhere (· = 0) coverage ≠ [] ∨ shardsWhere (· > 1) coverage ≠ []
  · rw [if_pos hfault] at h
    cases h
  · rw [if_neg hfault] at h
    obtain ⟨epoch, -, h⟩ := bind_eq_ok.mp h
    cases h
    obtain ⟨hcovered, hsingle⟩ : shardsWhere (· = 0) coverage = [] ∧
        shardsWhere (· > 1) coverage = [] := by simpa [not_or] using hfault
    refine ⟨?_, entries, hentries, hadded ▸ hassigned⟩
    show (members.flatMap (·.shardIndices)).Perm (List.range nShards.toNat)
    rw [hadded]
    apply List.perm_iff_count.mpr
    intro shard
    by_cases hshard : shard < nShards.toNat
    · have hone : (added.flatMap (·.shardIndices)).count shard = 1 := by
        have hzero := shardsWhere_eq_nil hcovered shard (hlength ▸ hshard)
        have hmany := shardsWhere_eq_nil hsingle shard (hlength ▸ hshard)
        rw [hcount shard hshard] at hzero hmany
        simp [List.getD_eq_getElem?_getD, hshard] at hzero hmany
        omega
      rw [hone, List.count_eq_one_of_mem List.nodup_range (List.mem_range.mpr hshard)]
    · rw [List.count_eq_zero_of_not_mem fun hmem => hshard (hbound shard hmem),
        List.count_eq_zero_of_not_mem fun hmem => hshard (List.mem_range.mp hmem)]

end Coverage

end Pytusk.Staking
