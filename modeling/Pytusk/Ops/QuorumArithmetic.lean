import Pytusk.Encoding.Redstuff
import Pytusk.Ops.BlobStatusAccounting
import Mathlib.Algebra.BigOperators.Fin
import Mathlib.Algebra.Order.BigOperators.Group.Finset
import Mathlib.Order.Bounds.Basic

/-!
# Quorum arithmetic

The thresholds of `certification.py` are the least weights its tests accept,
and the quorum threshold is the `min_n_correct` of `redstuff.py`, for every
number of shards. Two sets of nodes that both reach quorum share enough nodes
to clear the validity threshold, so one answer a node gives one quorum at
most, and `_resolve` finds it in whatever order the answers came.
-/

namespace Pytusk.BlobStatusQuery

open Pytusk.Lib Pytusk.Certification

/-! ## The thresholds -/

section Thresholds

variable {n : Int}

theorem isLeast_minWeightForQuorum (n : Int) :
    IsLeast {weight | isQuorum weight n = true} (minWeightForQuorum n) := by
  constructor
  · exact (isQuorum_iff _ _).mpr (le_refl _)
  · intro weight hweight
    exact (isQuorum_iff _ _).mp hweight

theorem isAboveValidity_iff (weight n : Int) :
    isAboveValidity weight n = true ↔ minWeightForValidity n ≤ weight := by
  simp only [isAboveValidity, minWeightForValidity, decide_eq_true_eq]
  omega

theorem isLeast_minWeightForValidity (n : Int) :
    IsLeast {weight | isAboveValidity weight n = true} (minWeightForValidity n) := by
  constructor
  · exact (isAboveValidity_iff _ _).mpr (le_refl _)
  · intro weight hweight
    exact (isAboveValidity_iff _ _).mp hweight

/-- The two families of formulas agree, over all residues. -/
theorem minWeightForQuorum_eq_minNCorrect (n : Int) :
    minWeightForQuorum n = Redstuff.minNCorrect n := by
  simp only [minWeightForQuorum, Redstuff.minNCorrect, Redstuff.maxNFaulty]
  omega

theorem maxNFaulty_lt_quorum (hn : 1 ≤ n) : Redstuff.maxNFaulty n < minWeightForQuorum n := by
  simp only [minWeightForQuorum, Redstuff.maxNFaulty]
  omega

/-- Two quorums overlap by a validity threshold. -/
theorem validity_le_of_quorums {weight weight' common : Int}
    (hq : minWeightForQuorum n ≤ weight) (hq' : minWeightForQuorum n ≤ weight')
    (hsum : weight + weight' ≤ common + n) : minWeightForValidity n ≤ common := by
  simp only [minWeightForQuorum, minWeightForValidity] at *
  omega

end Thresholds

/-! ## Sets of nodes -/

/-- Disjoint shard sets that hold all the shards together. -/
structure DisjointShards (c : WalrusCommittee) : Prop where
  disjoint : (c.members.flatMap (·.shardIndices)).Nodup
  total : (c.members.flatMap (·.shardIndices)).length = c.nShards

variable {c : WalrusCommittee}

/-- The shard weight of a set of committee positions. -/
def nodesWeight (c : WalrusCommittee) (nodes : Finset (Fin c.members.length)) : Nat :=
  ∑ i ∈ nodes, (c.members.get i).weight

theorem nodesWeight_univ (h : DisjointShards c) : nodesWeight c Finset.univ = c.nShards := by
  have htotal := h.total
  rw [List.length_flatMap] at htotal
  rw [← htotal, nodesWeight, Fin.sum_univ_def, ← Function.comp_def, ← List.map_map,
    List.map_get_finRange]
  rfl

/-- The weight of two sets is at most all the weight and what they share. -/
theorem nodesWeight_add_le (h : DisjointShards c) (A B : Finset (Fin c.members.length)) :
    nodesWeight c A + nodesWeight c B ≤ nodesWeight c (A ∩ B) + c.nShards := by
  have hunion : nodesWeight c (A ∪ B) ≤ c.nShards := by
    rw [← nodesWeight_univ h]
    exact Finset.sum_le_sum_of_subset (Finset.subset_univ _)
  have hsplit : nodesWeight c (A ∪ B) + nodesWeight c (A ∩ B) =
      nodesWeight c A + nodesWeight c B := Finset.sum_union_inter
  omega

theorem validity_le_nodesWeight_inter (h : DisjointShards c)
    {A B : Finset (Fin c.members.length)}
    (hA : minWeightForQuorum c.nShards ≤ nodesWeight c A)
    (hB : minWeightForQuorum c.nShards ≤ nodesWeight c B) :
    minWeightForValidity c.nShards ≤ nodesWeight c (A ∩ B) := by
  have hsum := nodesWeight_add_le h A B
  exact validity_le_of_quorums hA hB (by omega)

/-! ## One answer a node -/

/-- The nodes that give this answer; a node may give none. -/
def givers {α : Type} [DecidableEq α] (answers : Fin c.members.length → Option α) (a : α) :
    Finset (Fin c.members.length) :=
  Finset.univ.filter fun i => answers i = some a

/-- Only one answer has a quorum behind it. -/
theorem quorum_unique {α : Type} [DecidableEq α] (h : DisjointShards c)
    {answers : Fin c.members.length → Option α} {a b : α}
    (ha : minWeightForQuorum c.nShards ≤ nodesWeight c (givers answers a))
    (hb : minWeightForQuorum c.nShards ≤ nodesWeight c (givers answers b)) : a = b := by
  by_contra hne
  have hnone : givers answers a ∩ givers answers b = ∅ := by
    ext i
    simp only [givers, Finset.mem_inter, Finset.mem_filter, Finset.mem_univ, true_and,
      Finset.notMem_empty, iff_false, not_and]
    intro hi hi'
    exact hne (Option.some.inj (hi.symm.trans hi'))
  have hshared := validity_le_nodesWeight_inter h ha hb
  have hpos : 0 < minWeightForValidity c.nShards := minWeightForValidity_pos (by omega)
  rw [hnone] at hshared
  simp only [nodesWeight, Finset.sum_empty] at hshared
  omega

/-- The answer that has a quorum is what `_resolve` returns. -/
theorem resolve_of_mem (h : DisjointShards c)
    {answers : Fin c.members.length → Option ReportedStatus} {d : Dict ReportedStatus Nat}
    (hd : ∀ item ∈ d, item.2 ≤ nodesWeight c (givers answers item.1))
    {st : ReportedStatus} {weight : Nat} (hmem : (st, weight) ∈ d)
    (hq : minWeightForQuorum c.nShards ≤ weight) :
    resolve d (minWeightForQuorum c.nShards) (minWeightForValidity c.nShards) =
      (.reported st, .quorum) := by
  rcases resolve_cases d (minWeightForQuorum c.nShards) (minWeightForValidity c.nShards) with
    ⟨st', weight', hres, hmem', hq'⟩ | ⟨st', weight', -, -, -, hbelow⟩ | ⟨-, hbelow⟩
  · have hle : weight ≤ nodesWeight c (givers answers st) := hd _ hmem
    have hle' : weight' ≤ nodesWeight c (givers answers st') := hd _ hmem'
    have hst : minWeightForQuorum c.nShards ≤ nodesWeight c (givers answers st) := by omega
    have hst' : minWeightForQuorum c.nShards ≤ nodesWeight c (givers answers st') := by omega
    rw [hres, quorum_unique h hst hst']
  · have := hbelow _ hmem
    omega
  · have := (hbelow _ hmem).1
    omega

/-- **Quorum arithmetic.** Over any number of shards, however they are spread
over the nodes. -/
theorem quorum_arithmetic (c : WalrusCommittee) (hn : 1 ≤ c.nShards) (h : DisjointShards c) :
    IsLeast {weight | isQuorum weight c.nShards = true} (minWeightForQuorum c.nShards) ∧
    IsLeast {weight | isAboveValidity weight c.nShards = true}
      (minWeightForValidity c.nShards) ∧
    minWeightForQuorum c.nShards = Redstuff.minNCorrect c.nShards ∧
    (∀ A B, isQuorum (nodesWeight c A) c.nShards = true →
      isQuorum (nodesWeight c B) c.nShards = true →
      minWeightForValidity c.nShards ≤ nodesWeight c (A ∩ B)) ∧
    (∀ (α : Type) [DecidableEq α] (answers : Fin c.members.length → Option α) (a b : α),
      isQuorum (nodesWeight c (givers answers a)) c.nShards = true →
      isQuorum (nodesWeight c (givers answers b)) c.nShards = true → a = b) ∧
    (∀ (answers : Fin c.members.length → Option ReportedStatus) (d : Dict ReportedStatus Nat),
      (∀ item ∈ d, item.2 ≤ nodesWeight c (givers answers item.1)) →
      ∀ item ∈ d, isQuorum item.2 c.nShards = true →
        resolve d (minWeightForQuorum c.nShards) (minWeightForValidity c.nShards) =
          (.reported item.1, .quorum)) ∧
    ∀ weight, isQuorum weight c.nShards = true → Redstuff.maxNFaulty c.nShards < weight := by
  refine ⟨isLeast_minWeightForQuorum _, isLeast_minWeightForValidity _,
    minWeightForQuorum_eq_minNCorrect _, ?_, ?_, ?_, ?_⟩
  · intro A B hA hB
    exact validity_le_nodesWeight_inter h ((isQuorum_iff _ _).mp hA) ((isQuorum_iff _ _).mp hB)
  · intro α _ answers a b ha hb
    exact quorum_unique h ((isQuorum_iff _ _).mp ha) ((isQuorum_iff _ _).mp hb)
  · intro answers d hd item hitem hq
    exact resolve_of_mem h hd hitem ((isQuorum_iff _ _).mp hq)
  · intro weight hq
    have hquorum := (isQuorum_iff _ _).mp hq
    have hfaulty := maxNFaulty_lt_quorum (n := c.nShards) (by omega)
    omega

/-- Four nodes with seven shards, none of them with as much as a third. -/
private def sevenShards : WalrusCommittee :=
  ⟨1, 7, [⟨"a", [0, 1], "a", []⟩, ⟨"b", [2, 3], "b", []⟩, ⟨"c", [4, 5], "c", []⟩,
    ⟨"d", [6], "d", []⟩]⟩

/-- All nodes but one. -/
private def without (k : Nat) : Finset (Fin sevenShards.members.length) :=
  Finset.univ.filter fun i => i.val ≠ k

theorem quorum_arithmetic_sevenShards :
    minWeightForQuorum 7 = 5 ∧ minWeightForValidity 7 = 3 ∧
      minWeightForQuorum 7 = Redstuff.minNCorrect 7 ∧
      minWeightForValidity 7 ≤ nodesWeight sevenShards (without 0 ∩ without 2) := by
  have hshards : DisjointShards sevenShards := ⟨by decide, by decide⟩
  obtain ⟨-, -, hcorrect, hshared, -⟩ := quorum_arithmetic sevenShards (by decide) hshards
  exact ⟨by decide, by decide, hcorrect, hshared (without 0) (without 2) (by decide) (by decide)⟩

end Pytusk.BlobStatusQuery
