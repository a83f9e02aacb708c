import Pytusk.Certification

/-!
# `certification.py`: the signers bitmap as a codec

`pack_signers_bitmap` and `unpack_signers_bitmap` with the check of the size
that both open with, and what they are to each other: a bitmap of the right
length with zero padding is a set of positions, and a set is such a bitmap.
-/

namespace Pytusk.Certification

open Pytusk.Lib

/-! ## Any integer as a size -/

/-- `if committee_size < 0: raise` -/
def checkCommitteeSize (committeeSize : Int) : Except PyExn Nat :=
  if committeeSize < 0 then
    .error (.valueError s!"committee_size must be non-negative, got {committeeSize}")
  else .ok committeeSize.toNat

/-- `pack_signers_bitmap`; `packSignersBitmap` is what follows the check. -/
def packSignersBitmapAt (signerPositions : List Int) (committeeSize : Int) :
    Except PyExn Bytes := do
  let size ← checkCommitteeSize committeeSize
  packSignersBitmap signerPositions size

/-- `unpack_signers_bitmap`; `unpackSignersBitmap` is what follows the check. -/
def unpackSignersBitmapAt (bitmap : Bytes) (committeeSize : Int) :
    Except PyExn (List Nat) := do
  let size ← checkCommitteeSize committeeSize
  unpackSignersBitmap bitmap size

@[simp] theorem checkCommitteeSize_natCast (n : Nat) :
    checkCommitteeSize (n : Int) = .ok n := by
  simp [checkCommitteeSize]

theorem packSignersBitmapAt_natCast (ps : List Int) (n : Nat) :
    packSignersBitmapAt ps n = packSignersBitmap ps n := by
  simp [packSignersBitmapAt]

theorem unpackSignersBitmapAt_natCast (bitmap : Bytes) (n : Nat) :
    unpackSignersBitmapAt bitmap n = unpackSignersBitmap bitmap n := by
  simp [unpackSignersBitmapAt]

/-! ## The codec -/

section Codec

variable {n : Nat}

/-- `positions` is the set, in ascending order. -/
structure Ascends (signers : Set Nat) (positions : List Nat) : Prop where
  ascending : positions.Pairwise (· < ·)
  mem : ∀ q, q ∈ positions ↔ q ∈ signers

theorem ascends_filter_range {signers : Set Nat} {ps : List Nat} (h : ∀ p ∈ signers, p < n)
    (hps : ∀ q, q ∈ ps ↔ q ∈ signers) :
    Ascends signers ((List.range n).filter fun q => (q : Int) ∈ ps.map Int.ofNat) where
  ascending := List.pairwise_lt_range.filter _
  mem q := by
    have hcast : (q : Int) ∈ ps.map Int.ofNat ↔ q ∈ ps := by simp
    simp only [List.mem_filter, List.mem_range, hcast, decide_eq_true_eq, hps]
    exact ⟨fun hq => hq.2, fun hq => ⟨h q hq, hq⟩⟩

/-- What a list of positions is packed to, and what that is unpacked to. -/
theorem exists_unpack_of_pack {ps : List Nat} (h : ∀ p ∈ ps, p < n) :
    ∃ bitmap, packSignersBitmap (ps.map Int.ofNat) n = .ok bitmap ∧
      unpackSignersBitmap bitmap n =
        .ok ((List.range n).filter fun q => (q : Int) ∈ ps.map Int.ofNat) := by
  have hpack : packSignersBitmap (ps.map Int.ofNat) n = .ok _ :=
    packSignersBitmap_ofNat_eq_ok.mpr ⟨h, rfl⟩
  exact ⟨_, hpack, (unpack_of_pack hpack).2⟩

theorem pack_unpack_ofSize {bitmap : Bytes} (h : Bitmap.OfSize n bitmap) :
    (unpackSignersBitmap bitmap n >>= fun ps => packSignersBitmap (ps.map Int.ofNat) n) =
      .ok bitmap := by
  have hunpack : unpackSignersBitmap bitmap n = .ok (Bitmap.positions bitmap n) := by
    rw [unpackSignersBitmap, if_neg (by rw [h.length]; omega)]
  rw [hunpack, ok_bind]
  apply packSignersBitmap_ofNat_eq_ok.mpr
  exact ⟨fun p hp => (Bitmap.mem_positions.mp hp).1, h.foldl_setBit_positions⟩

/-- Packing and unpacking at a committee size, in either order. A list names a
set in any order and with any repetitions; the padding bits are those from the
size on. -/
structure RoundTrips (committeeSize : Nat) : Prop where
  unpack_pack : ∀ (signers : Set Nat) (ps : List Nat), (∀ p ∈ signers, p < committeeSize) →
    (∀ q, q ∈ ps ↔ q ∈ signers) → ∃ positions, Ascends signers positions ∧
      (do let bitmap ← packSignersBitmapAt (ps.map Int.ofNat) committeeSize
          unpackSignersBitmapAt bitmap committeeSize) = .ok positions
  pack_unpack : ∀ bitmap : Bytes, bitmap.length = (committeeSize + 7) / 8 →
    (∀ q, committeeSize ≤ q → q < 8 * bitmap.length → Bitmap.getBit bitmap q = false) →
      (do let positions ← unpackSignersBitmapAt bitmap committeeSize
          packSignersBitmapAt (positions.map Int.ofNat) committeeSize) = .ok bitmap

theorem signersBitmap_roundTrips (committeeSize : Nat) : RoundTrips committeeSize where
  unpack_pack signers ps hbelow hps := by
    obtain ⟨bitmap, hpack, hunpack⟩ :=
      exists_unpack_of_pack fun p hp => hbelow p ((hps p).mp hp)
    refine ⟨_, ascends_filter_range hbelow hps, ?_⟩
    simp only [packSignersBitmapAt_natCast, unpackSignersBitmapAt_natCast]
    rw [hpack, ok_bind, hunpack]
  pack_unpack bitmap hlength hpadding := by
    simp only [packSignersBitmapAt_natCast, unpackSignersBitmapAt_natCast]
    exact pack_unpack_ofSize ⟨hlength, hpadding⟩

example : (do let bitmap ← packSignersBitmapAt [9, 0, 9, 3] 10
              unpackSignersBitmapAt bitmap 10) = .ok [0, 3, 9] := by decide

end Codec

end Pytusk.Certification
