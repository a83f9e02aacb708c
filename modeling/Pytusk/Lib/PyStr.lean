import Mathlib.Algebra.GroupWithZero.Nat
import Mathlib.Data.List.Lex
import Mathlib.Data.List.DropRight

/-!
# Python strings

A `str` is a sequence of code points, surrogates included, ordered code
point by code point. UTF-8 encodes every string without a surrogate and is
read back by decoding.
-/

namespace Pytusk.Lib

abbrev CodePoint := Fin 0x110000

instance CodePoint.neZero : NeZero 0x110000 := ⟨by decide⟩

abbrev PyStr := List CodePoint

namespace PyStr

/-- The character of a code point, unless it is a surrogate. -/
def toChar? (c : CodePoint) : Option Char :=
  if h : c.val.isValidChar then some (Char.ofNatAux c.val h) else none

theorem char_toNat_lt (c : Char) : c.toNat < 0x110000 := by
  rcases c.valid with h | h
  · exact Nat.lt_trans h (by omega)
  · exact h.2

def ofChar (c : Char) : CodePoint := ⟨c.toNat, char_toNat_lt c⟩

/-- The text of a string that UTF-8 carried here, so without surrogates. -/
def textOf (s : PyStr) : String := String.ofList (s.filterMap toChar?)

/-- `s.encode("utf-8")`, or `none` where it raises `UnicodeEncodeError`. -/
def encodeUtf8 (s : PyStr) : Option (List UInt8) :=
  (s.mapM toChar?).map fun chars => chars.flatMap String.utf8EncodeChar

def decodeUtf8 (bytes : List UInt8) : Option PyStr :=
  bytes.toByteArray.utf8Decode?.map fun chars => chars.toList.map ofChar

/-- `str.isspace` of one code point, as `rstrip` uses it. -/
def isSpace (c : CodePoint) : Bool :=
  let n := c.val
  (0x09 ≤ n && n ≤ 0x0D) || (0x1C ≤ n && n ≤ 0x20) || n == 0x85 || n == 0xA0 ||
  n == 0x1680 || (0x2000 ≤ n && n ≤ 0x200A) || n == 0x2028 || n == 0x2029 ||
  n == 0x202F || n == 0x205F || n == 0x3000

/-- `s.rstrip()` -/
def rstrip (s : PyStr) : PyStr := s.rdropWhile isSpace

/-- `unicodedata.category(c) == "Cc"` -/
def isControl (c : CodePoint) : Bool :=
  c.val < 0x20 || (0x7F ≤ c.val && c.val < 0xA0)

theorem ofChar_of_toChar? {c : CodePoint} {char : Char} (h : toChar? c = some char) :
    ofChar char = c := by
  unfold toChar? at h
  by_cases hvalid : c.val.isValidChar
  · rw [dif_pos hvalid] at h
    cases h
    rfl
  · rw [dif_neg hvalid] at h
    cases h

theorem toChar?_ofChar (c : Char) : toChar? (ofChar c) = some c := by
  have hvalid : (ofChar c).val.isValidChar := c.valid
  rw [toChar?, dif_pos hvalid]
  rfl

theorem textOf_ofChar (s : String) : textOf (s.toList.map ofChar) = s := by
  rw [textOf, List.filterMap_map]
  have hchars : toChar? ∘ ofChar = some := funext toChar?_ofChar
  rw [hchars, List.filterMap_some, String.ofList_toList]

/-- A string without surrogates is the code points of its characters. -/
theorem map_ofChar_of_mapM {s : PyStr} {chars : List Char} (h : s.mapM toChar? = some chars) :
    chars.map ofChar = s := by
  induction s generalizing chars with
  | nil =>
    rw [List.mapM_nil] at h
    cases h
    rfl
  | cons c rest ih =>
    rw [List.mapM_cons] at h
    obtain ⟨char, hchar, hrest⟩ := Option.bind_eq_some_iff.mp h
    obtain ⟨chars', hchars', heq⟩ := Option.bind_eq_some_iff.mp hrest
    cases heq
    rw [List.map_cons, ofChar_of_toChar? hchar, ih hchars']

theorem mapM_toChar?_ofChar (chars : List Char) :
    (chars.map ofChar).mapM toChar? = some chars := by
  induction chars with
  | nil => rfl
  | cons c rest ih => simp [toChar?_ofChar, ih]

/-- What was encoded is decoded. -/
theorem decodeUtf8_of_encodeUtf8 {s : PyStr} {bytes : List UInt8}
    (h : encodeUtf8 s = some bytes) : decodeUtf8 bytes = some s := by
  obtain ⟨chars, hchars, rfl⟩ := Option.map_eq_some_iff.mp h
  have hdecode : (chars.flatMap String.utf8EncodeChar).toByteArray.utf8Decode? =
      some chars.toArray := List.utf8Decode?_utf8Encode
  rw [decodeUtf8, hdecode, Option.map_some, map_ofChar_of_mapM hchars]

end PyStr

end Pytusk.Lib
