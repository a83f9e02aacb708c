import Pytusk.Chain.Committee
import Pytusk.Lib.ExceptRules
import Mathlib.Data.List.Nodup

/-!
# Which member holds a shard

`_position_by_shard` is filled by assignment, later members over earlier ones.
When the members partition the shards no assignment is lost: looking a shard
up finds the one member that holds it.
-/

namespace Pytusk.WalrusCommittee

open Pytusk.Lib

variable {c : WalrusCommittee}

/-- The assignments `_position_by_shard` makes, in order. -/
private def assignments (c : WalrusCommittee) : List (Nat × Nat) :=
  c.members.zipIdx.flatMap fun m => m.1.shardIndices.map fun shard => (shard, m.2)

private def assignAll (l : List (Nat × Nat)) (table : List Int) :
    Except PyExn (List Int) :=
  l.foldlM (fun t a => assignShard t a.1 a.2) table

private theorem positionByShard_eq (c : WalrusCommittee) :
    c.positionByShard = assignAll c.assignments (List.replicate c.nShards (-1)) := by
  simp only [positionByShard, assignAll, assignments]
  generalize List.replicate c.nShards (-1 : Int) = table
  induction c.members.zipIdx generalizing table with
  | nil => rfl
  | cons m rest ih =>
    rw [List.foldlM_cons, List.flatMap_cons, List.foldlM_append, List.foldlM_map]
    exact bind_congr ih

/-- What a table holds after some assignments inside it. -/
private theorem assignAll_ok (l : List (Nat × Nat)) (table : List Int)
    (hlt : ∀ a ∈ l, a.1 < table.length) :
    ∃ table', assignAll l table = .ok table' ∧ table'.length = table.length ∧
      ∀ (shard : Nat) (v : Int), table'[shard]? = some v →
        (∃ p : Nat, (shard, p) ∈ l ∧ v = p) ∨
          ((∀ p, (shard, p) ∉ l) ∧ table[shard]? = some v) := by
  induction l generalizing table with
  | nil => exact ⟨table, rfl, rfl, fun shard v h => .inr ⟨by simp, h⟩⟩
  | cons a rest ih =>
    obtain ⟨ha, hrest⟩ := List.forall_mem_cons.mp hlt
    obtain ⟨table', hok, hlen, hval⟩ := ih (table.set a.1 a.2) (by simpa using hrest)
    have hset : assignShard table a.1 a.2 = .ok (table.set a.1 a.2) := if_pos ha
    refine ⟨table', ?_, by simpa using hlen, fun shard v hv => ?_⟩
    · rw [assignAll, List.foldlM_cons, hset, ok_bind]
      exact hok
    · rcases hval shard v hv with ⟨p, hp, rfl⟩ | ⟨hnone, hold⟩
      · exact .inl ⟨p, List.mem_cons_of_mem _ hp, rfl⟩
      · rw [List.getElem?_set] at hold
        split at hold
        · rename_i hshard
          cases hold
          exact .inl ⟨a.2, by simp [← hshard], rfl⟩
        · rename_i hshard
          refine .inr ⟨fun p hp => ?_, hold⟩
          rcases List.mem_cons.mp hp with heq | hmem
          · exact hshard (congrArg Prod.fst heq).symm
          · exact hnone p hmem

private theorem mem_assignments {shard p : Nat} : (shard, p) ∈ c.assignments ↔
    ∃ m, c.members[p]? = some m ∧ shard ∈ m.shardIndices := by
  simp only [assignments, List.mem_flatMap, List.mem_map, Prod.mk.injEq]
  constructor
  · rintro ⟨⟨m, i⟩, hm, s, hs, rfl, rfl⟩
    exact ⟨m, List.mem_zipIdx_iff_getElem?.mp hm, hs⟩
  · rintro ⟨m, hm, hs⟩
    exact ⟨(m, p), List.mem_zipIdx_iff_getElem?.mpr hm, shard, hs, rfl, rfl⟩

/-- Every shard of a partitioned committee is looked up at a position whose
member holds it. -/
theorem positionForShard_of_partitions (hp : c.PartitionsShards) {shard : Nat}
    (hshard : shard < c.nShards) :
    ∃ p m, c.members[p]? = some m ∧ shard ∈ m.shardIndices ∧
      c.positionForShard shard = .ok ((p : Nat) : Int) ∧ c.memberForShard shard = .ok m := by
  have hlt : ∀ a ∈ c.assignments, a.1 < (List.replicate c.nShards (-1 : Int)).length := by
    intro a ha
    obtain ⟨m, hm, hs⟩ := mem_assignments.mp ha
    have := hp.mem_iff.mp (List.mem_flatMap.mpr ⟨m, List.mem_of_getElem? hm, hs⟩)
    simpa using this
  obtain ⟨table, hok, hlen, hval⟩ := assignAll_ok _ _ hlt
  have hinside : shard < table.length := by simpa [hlen] using hshard
  obtain ⟨holder, hholder, hs⟩ := List.mem_flatMap.mp
    (hp.mem_iff.mpr (List.mem_range.mpr hshard))
  obtain ⟨q, hq⟩ := List.getElem?_of_mem hholder
  rcases hval shard _ (List.getElem?_eq_getElem hinside) with ⟨p, hmem, hv⟩ | ⟨hnone, -⟩
  · obtain ⟨m, hm, hms⟩ := mem_assignments.mp hmem
    have hnot : ¬ shard ≥ c.nShards := by omega
    have hposition : c.positionForShard shard = .ok ((p : Nat) : Int) := by
      simp only [positionForShard, hnot, if_false, positionByShard_eq, hok, ok_bind,
        List.getElem?_eq_getElem hinside, hv]
    refine ⟨p, m, hm, hms, hposition, ?_⟩
    simp only [memberForShard, hposition, ok_bind, pyGet?_natCast, hm]
  · exact absurd (mem_assignments.mpr ⟨holder, hq, hs⟩) (hnone q)

/-- Every shard of a partitioned committee is looked up successfully, and the
member found holds it. -/
theorem memberForShard_of_partitions (hp : c.PartitionsShards) {shard : Nat}
    (hshard : shard < c.nShards) :
    ∃ m ∈ c.members, c.memberForShard shard = .ok m ∧ shard ∈ m.shardIndices := by
  obtain ⟨p, m, hm, hms, -, hmember⟩ := positionForShard_of_partitions hp hshard
  exact ⟨m, List.mem_of_getElem? hm, hmember, hms⟩

/-- Two members of a partitioned committee that share a shard are one. -/
theorem eq_of_shared_shard (hp : c.PartitionsShards) {m m' : WalrusCommitteeMember}
    (hm : m ∈ c.members) (hm' : m' ∈ c.members) {shard : Nat}
    (hs : shard ∈ m.shardIndices) (hs' : shard ∈ m'.shardIndices) : m = m' := by
  have hnodup : (c.members.flatMap (·.shardIndices)).Nodup :=
    hp.nodup_iff.mpr List.nodup_range
  have hdisj := (List.nodup_flatMap.mp hnodup).2
  have hsymm : Std.Symm (Function.onFun List.Disjoint
      fun m : WalrusCommitteeMember => m.shardIndices) := ⟨fun _ _ h _ hx hx' => h hx' hx⟩
  by_contra hne
  exact List.disjoint_left.mp (hdisj.forall hm hm' hne) hs hs'

/-- A member's shards are the committee's. -/
theorem lt_of_mem_shardIndices (hp : c.PartitionsShards) {m : WalrusCommitteeMember}
    (hm : m ∈ c.members) {shard : Nat} (hs : shard ∈ m.shardIndices) :
    shard < c.nShards :=
  List.mem_range.mp (hp.mem_iff.mp (List.mem_flatMap.mpr ⟨m, hm, hs⟩))

end Pytusk.WalrusCommittee
