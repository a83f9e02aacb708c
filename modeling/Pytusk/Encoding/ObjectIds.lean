import Pytusk.Chain.Committee

/-!
# `encoding/object_ids.py`: object id strings to raw bytes
-/

namespace Pytusk.ObjectIds

/-- The value of a hexadecimal digit. -/
def hexDigit (c : Char) : Option Nat :=
  if '0' ≤ c ∧ c ≤ '9' then some (c.toNat - '0'.toNat)
  else if 'a' ≤ c ∧ c ≤ 'f' then some (c.toNat - 'a'.toNat + 10)
  else if 'A' ≤ c ∧ c ≤ 'F' then some (c.toNat - 'A'.toNat + 10)
  else none

/-- The ASCII whitespace `bytes.fromhex` skips between bytes. -/
def isHexSpace (c : Char) : Bool :=
  c = ' ' || c = '\t' || c = '\n' || c = '\r' || c = '\x0b' || c = '\x0c'

/-- `bytes.fromhex`, or `none` where it raises. -/
def fromHex : List Char → Option Bytes
  | [] => some []
  | c :: rest =>
      if isHexSpace c then fromHex rest
      else
        match rest with
        | [] => none
        | d :: rest' => do
            let hi ← hexDigit c
            let lo ← hexDigit d
            let tail ← fromHex rest'
            return UInt8.ofNat (16 * hi + lo) :: tail

/-! ## What `fromHex` reads -/

theorem hexDigit_of_isHexSpace {c : Char} (h : isHexSpace c = true) : hexDigit c = none := by
  simp only [isHexSpace, Bool.or_eq_true, decide_eq_true_eq] at h
  rcases h with ((((rfl | rfl) | rfl) | rfl) | rfl) | rfl <;> rfl

/-- Only digits and whitespace are read. -/
theorem digit_or_space_of_fromHex {chars : List Char} (h : (fromHex chars).isSome = true) :
    ∀ c ∈ chars, (hexDigit c).isSome = true ∨ isHexSpace c = true := by
  fun_induction fromHex chars with
  | case1 => simp
  | case2 c rest hspace ih => simpa [hspace] using ih h
  | case3 c hspace => cases h
  | case4 c hspace d rest ih =>
    cases hc : hexDigit c with
    | none => simp [hc] at h
    | some high =>
      cases hd : hexDigit d with
      | none => simp [hc, hd] at h
      | some low =>
        cases htail : fromHex rest with
        | none => simp [hc, hd, htail] at h
        | some tail => simpa [hc, hd, htail] using ih

/-- An even number of digits is read. -/
theorem isSome_fromHex_of_digits {chars : List Char} {n : Nat} (hlength : chars.length = 2 * n)
    (h : ∀ c ∈ chars, (hexDigit c).isSome = true) : (fromHex chars).isSome = true := by
  induction n generalizing chars with
  | zero =>
    rw [List.length_eq_zero_iff.mp hlength]
    rfl
  | succ n ih =>
    match chars, hlength, h with
    | c :: d :: rest, hlength, h =>
      simp only [List.forall_mem_cons] at h
      obtain ⟨hc, hd, hrest⟩ := h
      have hspace : isHexSpace c = false := by
        by_contra hspace
        rw [hexDigit_of_isHexSpace (by simpa using hspace)] at hc
        cases hc
      obtain ⟨high, hhigh⟩ := Option.isSome_iff_exists.mp hc
      obtain ⟨low, hlow⟩ := Option.isSome_iff_exists.mp hd
      obtain ⟨tail, htail⟩ := Option.isSome_iff_exists.mp
        (ih (by simp only [List.length_cons] at hlength; omega) hrest)
      simp [fromHex, hspace, hhigh, hlow, htail]

/-- The text of an id without its `0x` or `0X`. -/
def stripHexPrefix : List Char → List Char
  | '0' :: 'x' :: rest => rest
  | '0' :: 'X' :: rest => rest
  | text => text

def objectIdToRawBytes (objectId : String) : Except PyExn Bytes :=
  match fromHex (stripHexPrefix objectId.toList) with
  | none => .error (.valueError s!"object_id '{objectId}' is not valid hex")
  | some decoded =>
      if decoded.length ≠ 32 then
        .error (.valueError <|
          s!"object_id '{objectId}' decoded to {decoded.length} bytes, expected 32")
      else .ok decoded

end Pytusk.ObjectIds
