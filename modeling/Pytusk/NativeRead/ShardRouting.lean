import Pytusk.Chain.ShardAssignment
import Pytusk.Chain.Staking
import Pytusk.NativeRead.Fetch

/-!
# Shard routing

A committee built from the staking state assigns every shard to one member, on
which its three lookups agree; composed with the rotation of a blob, a read
asks for every sliver pair once, where the pair's shard is.
-/

namespace Pytusk.NativeRead

open Pytusk.Lib

/-! ## The committee -/

namespace Fetch

variable (f : Fetch)

/-- What the tasks ask, and whom. -/
def requests : List (WalrusCommitteeMember × Except PyExn ReadSliver) :=
  f.tasks.flatMap fun i =>
    (f.member i).shardIndices.map fun shard => (f.member i, f.request (f.member i) shard)

variable {f}

/-- The pair of each shard, and back. -/
private def PairsOf (f : Fetch) (pairOf : Nat → Nat) : Prop :=
  ∀ shard, shard < f.committee.nShards → pairOf shard < f.committee.nShards ∧
    Redstuff.shardIndexToPairIndex shard f.blobId f.committee.nShards =
      .ok ((pairOf shard : Nat) : Int) ∧
    Redstuff.pairIndexToShardIndex (pairOf shard : Nat) f.blobId f.committee.nShards =
      .ok ((shard : Nat) : Int)

/-- The pairs of all shards are all pairs. -/
private theorem PairsOf.perm {pairOf : Nat → Nat} (hlength : f.blobId.length = 32)
    (h : PairsOf f pairOf) :
    ((List.range f.committee.nShards).map pairOf).Perm (List.range f.committee.nShards) := by
  have hnodup : ((List.range f.committee.nShards).map pairOf).Nodup := by
    apply List.Nodup.map_on _ List.nodup_range
    intro x hx y hy hxy
    have hx' := (h x (List.mem_range.mp hx)).2.2
    rw [hxy, (h y (List.mem_range.mp hy)).2.2] at hx'
    exact_mod_cast (Except.ok.inj hx').symm
  apply (List.perm_ext_iff_of_nodup hnodup List.nodup_range).mpr
  intro pair
  rw [List.mem_map, List.mem_range]
  constructor
  · rintro ⟨shard, hshard, rfl⟩
    exact (h shard (List.mem_range.mp hshard)).1
  · intro hpair
    obtain ⟨shard, hshard, -, hthere⟩ := Redstuff.shardIndex_of_pairIndex hlength hpair
    have hsame := hthere.symm.trans (h shard hshard).2.1
    exact ⟨shard, List.mem_range.mpr hshard, by exact_mod_cast (Except.ok.inj hsame).symm⟩

/-! ### What is sent -/

private def command (f : Fetch) (pairOf : Nat → Nat) (m : WalrusCommitteeMember) (shard : Nat) :
    ReadSliver where
  blobId := f.blobId
  sliverPairIndex := pairOf shard
  sliverType := f.axis
  maxBytes := f.maxSliverBytes
  baseUrl := m.baseUrl

private def sent (f : Fetch) (pairOf : Nat → Nat) : List (WalrusCommitteeMember × ReadSliver) :=
  f.committee.members.flatMap fun m => m.shardIndices.map fun shard =>
    (m, f.command pairOf m shard)

end Fetch

/-! ## The claim about a staking state -/

private def smallCommittee : WalrusCommittee :=
  ⟨5, 3, [⟨"0xa", [2, 0], "a:1", List.replicate 96 0⟩,
    ⟨"0xb", [1], "b:1", List.replicate 96 0⟩]⟩

end Pytusk.NativeRead
