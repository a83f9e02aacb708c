import Pytusk.Lib.Dict
import Pytusk.Lib.ExceptRules
import Pytusk.Lib.PySeq
import Pytusk.Types.Errors
import Mathlib.Data.List.Range

/-!
# `chain/committee.py`: the storage committee of one epoch

The committee as the write path receives it, with the two lookup indexes it
caches. `members` keeps the on-chain order, which is what the signers bitmap
indexes. Nothing about node ids or shards is enforced by the record itself;
`Distinct` and `PartitionsShards` name what its on-chain source guarantees.
-/

namespace Pytusk

open Pytusk.Lib

/-- A byte string. -/
abbrev Bytes := List UInt8

/-- A single storage node in the committee. -/
structure WalrusCommitteeMember where
  nodeId : String
  shardIndices : List Nat
  networkAddress : String
  publicKey : Bytes
  deriving DecidableEq, Repr

/-- `len(member.shard_indices)`, the member's voting weight. -/
def WalrusCommitteeMember.weight (m : WalrusCommitteeMember) : Nat :=
  m.shardIndices.length

def WalrusCommitteeMember.baseUrl (m : WalrusCommitteeMember) : String :=
  s!"https://{m.networkAddress}"

structure WalrusCommittee where
  epoch : Nat
  nShards : Nat
  members : List WalrusCommitteeMember
  deriving DecidableEq, Repr

namespace WalrusCommittee

def committeeSize (c : WalrusCommittee) : Nat := c.members.length

/-- `_position_by_node_id`: of two members with one id, the later wins. -/
def positionByNodeId (c : WalrusCommittee) : Dict String Nat :=
  Dict.fromItems (fun m => m.1.nodeId) (fun m => m.2) c.members.zipIdx

def positionOf (c : WalrusCommittee) (nodeId : String) : Except PyExn Nat :=
  match Dict.get? c.positionByNodeId nodeId with
  | some position => .ok position
  | none =>
      .error (.keyError s!"Node {nodeId} is not in the epoch {c.epoch} committee")

/-- One assignment of `_position_by_shard`: `table[shard] = position`. -/
def assignShard (table : List Int) (shard position : Nat) : Except PyExn (List Int) :=
  if shard < table.length then .ok (table.set shard position)
  else .error (.indexError "list assignment index out of range")

/-- `_position_by_shard`, a dense shard to position table. -/
def positionByShard (c : WalrusCommittee) : Except PyExn (List Int) :=
  c.members.zipIdx.foldlM
    (fun table m => m.1.shardIndices.foldlM (fun t s => assignShard t s m.2) table)
    (List.replicate c.nShards (-1))

def positionForShard (c : WalrusCommittee) (shardIndex : Nat) : Except PyExn Int :=
  if shardIndex ≥ c.nShards then
    .error (.valueError s!"Shard index {shardIndex} outside range(0, {c.nShards})")
  else do
    let table ← c.positionByShard
    match table[shardIndex]? with
    | some position => .ok position
    | none => .error (.indexError "tuple index out of range")

def memberForShard (c : WalrusCommittee) (shardIndex : Nat) :
    Except PyExn WalrusCommitteeMember := do
  let position ← c.positionForShard shardIndex
  match pyGet? c.members position with
  | some member => .ok member
  | none => .error (.indexError "tuple index out of range")

/-- `[committee.members[position] for position in positions]` -/
def membersAt (c : WalrusCommittee) (positions : List Nat) :
    Except PyExn (List WalrusCommitteeMember) :=
  positions.mapM fun position =>
    match c.members[position]? with
    | some member => .ok member
    | none => .error (.indexError "tuple index out of range")

/-- Node ids are distinct, as the keys of the on-chain `VecMap` are. -/
def Distinct (c : WalrusCommittee) : Prop := (c.members.map (·.nodeId)).Nodup

/-- Every shard is held by exactly one member, as `build_committee` checks. -/
def PartitionsShards (c : WalrusCommittee) : Prop :=
  (c.members.flatMap (·.shardIndices)).Perm (List.range c.nShards)

instance (c : WalrusCommittee) : Decidable c.Distinct :=
  inferInstanceAs (Decidable (List.Nodup _))

instance (c : WalrusCommittee) : Decidable c.PartitionsShards :=
  inferInstanceAs (Decidable (List.Perm _ _))

/-! ## Positions -/

variable {c : WalrusCommittee}

/-- What the index holds for an id is a position where that id stands. -/
private theorem getElem?_of_positionByNodeId {nodeId : String} {p : Nat}
    (h : Dict.get? c.positionByNodeId nodeId = some p) :
    ∃ m, c.members[p]? = some m ∧ m.nodeId = nodeId := by
  obtain ⟨⟨m, i⟩, hm, hid, rfl⟩ := Dict.exists_of_get?_fromItems h
  exact ⟨m, List.mem_zipIdx_iff_getElem?.mp hm, hid⟩

/-- A member has a position, and the member standing there carries its id. -/
theorem exists_positionOf {m : WalrusCommitteeMember} (hm : m ∈ c.members) :
    ∃ p m', c.positionOf m.nodeId = .ok p ∧ c.members[p]? = some m' ∧
      m'.nodeId = m.nodeId := by
  obtain ⟨i, hi⟩ := List.getElem?_of_mem hm
  have hitem : (m, i) ∈ c.members.zipIdx := List.mem_zipIdx_iff_getElem?.mpr hi
  obtain ⟨p, hp⟩ : ∃ p, Dict.get? c.positionByNodeId m.nodeId = some p :=
    Dict.exists_get?_fromItems hitem
  obtain ⟨m', hm', hid⟩ := getElem?_of_positionByNodeId hp
  exact ⟨p, m', by simp only [positionOf, hp], hm', hid⟩

private theorem positionOf_ne_error (m : {m // m ∈ c.members}) {e : PyExn} :
    c.positionOf m.1.nodeId ≠ .error e := by
  obtain ⟨p, -, hp, -⟩ := exists_positionOf m.2
  intro h
  exact nomatch h.symm.trans hp

/-- `position_of` for a member, where it cannot raise. -/
def memberPosition (c : WalrusCommittee) (m : {m // m ∈ c.members}) : Nat :=
  match h : c.positionOf m.1.nodeId with
  | .ok position => position
  | .error _ => absurd h (positionOf_ne_error m)

/-- A position that `position_of` returns lies inside the committee. -/
theorem positionOf_lt {nodeId : String} {p : Nat} (h : c.positionOf nodeId = .ok p) :
    p < c.committeeSize := by
  unfold positionOf at h
  split at h
  · rename_i q hq
    cases h
    obtain ⟨m, hm, -⟩ := getElem?_of_positionByNodeId hq
    exact (List.getElem?_eq_some_iff.mp hm).1
  · cases h

/-- Positions inside the committee have a member each. -/
theorem membersAt_eq_ok {ps : List Nat} {ms : List WalrusCommitteeMember} :
    c.membersAt ps = .ok ms ↔
      (∀ p ∈ ps, p < c.committeeSize) ∧ ms = ps.filterMap (c.members[·]?) := by
  unfold membersAt
  induction ps generalizing ms with
  | nil => simp [eq_comm]
  | cons p ps ih =>
    rw [List.mapM_cons]
    cases hp : c.members[p]? with
    | none =>
      have hnot : ¬ p < c.committeeSize := by
        simpa [committeeSize] using List.getElem?_eq_none_iff.mp hp
      simp [hnot]
    | some m =>
      have hlt : p < c.committeeSize := (List.getElem?_eq_some_iff.mp hp).1
      simp only [ok_bind, bind_eq_ok, ih, pure_eq_ok, Except.ok.injEq,
        List.forall_mem_cons, hlt, true_and, List.filterMap_cons, hp]
      constructor
      · rintro ⟨rest, ⟨hrest, rfl⟩, rfl⟩
        exact ⟨hrest, rfl⟩
      · rintro ⟨hrest, rfl⟩
        exact ⟨_, ⟨hrest, rfl⟩, rfl⟩

/-- With distinct ids, `position_of` is the member's index. -/
theorem positionOf_of_getElem? (hd : c.Distinct) {m : WalrusCommitteeMember}
    {i : Nat} (hm : c.members[i]? = some m) : c.positionOf m.nodeId = .ok i := by
  obtain ⟨p, m', hp, hm', hid⟩ := exists_positionOf (List.mem_of_getElem? hm)
  obtain ⟨hlt, -⟩ := List.getElem?_eq_some_iff.mp hm'
  have hsame : (c.members.map (·.nodeId))[p]? = (c.members.map (·.nodeId))[i]? := by
    simp [hm, hm', hid]
  have hpi : p = i := (List.getElem?_inj (by simpa using hlt) hd).mp hsame
  rw [hp, hpi]

end WalrusCommittee

end Pytusk
