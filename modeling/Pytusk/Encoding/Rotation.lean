import Pytusk.Chain.Committee
import Pytusk.Lib.LittleEndian

/-!
# `encoding/redstuff.py`: shards and sliver pairs

A committee addresses nodes by shard, a sliver URL addresses slivers by
sliver pair; the two differ by a rotation that depends on the blob. The blob
id is read as a big-endian number here.
-/

namespace Pytusk.Redstuff

open Pytusk.Lib

/-- `int.from_bytes(blob_id, "big")` -/
def blobIdBigEndian (blobId : Bytes) : Nat := LittleEndian.decode blobId.reverse

def rotationOffset (blobId : Bytes) (nShards : Int) : Except PyExn Int :=
  if blobId.length ≠ 32 then
    .error (.valueError s!"blob_id must be 32 bytes, got {blobId.length}")
  else if nShards ≤ 0 then
    .error (.valueError s!"n_shards must be positive, got {nShards}")
  else .ok (blobIdBigEndian blobId % nShards)

def shardIndexToPairIndex (shardIndex : Int) (blobId : Bytes) (nShards : Int) :
    Except PyExn Int := do
  let offset ← rotationOffset blobId nShards
  if 0 ≤ shardIndex ∧ shardIndex < nShards then
    return (nShards + shardIndex - offset) % nShards
  else
    throw (.valueError s!"shard_index must be in [0, {nShards}), got {shardIndex}")

def pairIndexToShardIndex (pairIndex : Int) (blobId : Bytes) (nShards : Int) :
    Except PyExn Int := do
  let offset ← rotationOffset blobId nShards
  if 0 ≤ pairIndex ∧ pairIndex < nShards then
    return (pairIndex + offset) % nShards
  else
    throw (.valueError s!"pair_index must be in [0, {nShards}), got {pairIndex}")

/-! ## The two directions are inverse -/

section Inverse

variable {blobId : Bytes} {n : Nat}

/-- The offset is a shard. -/
private theorem rotationOffset_eq (hlength : blobId.length = 32) (hpos : 0 < n) :
    rotationOffset blobId n = .ok ((blobIdBigEndian blobId % n : Nat) : Int) := by
  unfold rotationOffset
  rw [if_neg (by omega), if_neg (by omega)]
  rfl

/-- A shard has one pair, and the pair has the shard. -/
theorem pairIndex_of_shardIndex (hlength : blobId.length = 32) {shard : Nat} (hshard : shard < n) :
    ∃ pair < n, shardIndexToPairIndex shard blobId n = .ok ((pair : Nat) : Int) ∧
      pairIndexToShardIndex pair blobId n = .ok ((shard : Nat) : Int) := by
  have hpos : 0 < n := by omega
  obtain ⟨offset, hoffset⟩ : ∃ offset, offset = blobIdBigEndian blobId % n := ⟨_, rfl⟩
  have hlt : offset < n := hoffset ▸ Nat.mod_lt _ hpos
  refine ⟨(n + shard - offset) % n, Nat.mod_lt _ hpos, ?_, ?_⟩
  · unfold shardIndexToPairIndex
    rw [rotationOffset_eq hlength hpos, ok_bind, if_pos (by omega), ← hoffset]
    refine congrArg Except.ok ?_
    push_cast [Nat.cast_sub (show offset ≤ n + shard by omega)]
    rfl
  · unfold pairIndexToShardIndex
    have hpair : (n + shard - offset) % n < n := Nat.mod_lt _ hpos
    rw [rotationOffset_eq hlength hpos, ok_bind, if_pos (by omega), ← hoffset]
    refine congrArg Except.ok ?_
    have hback : ((n + shard - offset) % n + offset) % n = shard := by
      rw [Nat.mod_add_mod, Nat.sub_add_cancel (by omega), Nat.add_mod_left,
        Nat.mod_eq_of_lt hshard]
    exact_mod_cast hback

/-- A pair has one shard, and the shard has the pair. -/
theorem shardIndex_of_pairIndex (hlength : blobId.length = 32) {pair : Nat} (hpair : pair < n) :
    ∃ shard < n, pairIndexToShardIndex pair blobId n = .ok ((shard : Nat) : Int) ∧
      shardIndexToPairIndex shard blobId n = .ok ((pair : Nat) : Int) := by
  have hpos : 0 < n := by omega
  obtain ⟨offset, hoffset⟩ : ∃ offset, offset = blobIdBigEndian blobId % n := ⟨_, rfl⟩
  have hlt : offset < n := hoffset ▸ Nat.mod_lt _ hpos
  have hshard : (pair + offset) % n < n := Nat.mod_lt _ hpos
  refine ⟨(pair + offset) % n, hshard, ?_, ?_⟩
  · unfold pairIndexToShardIndex
    rw [rotationOffset_eq hlength hpos, ok_bind, if_pos (by omega), ← hoffset]
    rfl
  · unfold shardIndexToPairIndex
    rw [rotationOffset_eq hlength hpos, ok_bind, if_pos (by omega), ← hoffset]
    refine congrArg Except.ok ?_
    have hback : (n + (pair + offset) % n - offset) % n = pair := by
      by_cases hwrap : pair + offset < n
      · rw [Nat.mod_eq_of_lt hwrap, show n + (pair + offset) - offset = n + pair by omega,
          Nat.add_mod_left, Nat.mod_eq_of_lt hpair]
      · have hwrapped : (pair + offset) % n = pair + offset - n := by
          rw [Nat.mod_eq_sub_mod (by omega), Nat.mod_eq_of_lt (by omega)]
        rw [hwrapped, show n + (pair + offset - n) - offset = pair by omega,
          Nat.mod_eq_of_lt hpair]
    rw [← Nat.cast_add, ← Nat.cast_sub (by omega)]
    exact_mod_cast hback

end Inverse

end Pytusk.Redstuff
