import Pytusk.Lib.PyStr
import Mathlib.Data.List.Basic

/-!
# Paths

A path as `pathlib` holds it on POSIX: a root and components, of which none is
empty, a single dot, or has a separator. `..` is a component like any other:
it means something to the operating system only. Also the bytes that a name
has there.
-/

namespace Pytusk.Lib

namespace PosixPath

/-- `"/"` -/
def slash : CodePoint := 47

/-- `"."` -/
def dot : PyStr := [46]

/-- `".."` -/
def dotDot : PyStr := [46, 46]

/-- What a path can be made of. -/
structure IsComponent (s : PyStr) : Prop where
  ne_nil : s ≠ []
  ne_dot : s ≠ dot
  no_slash : slash ∉ s

/-- The components of a text: the empty ones and the single dots are dropped. -/
def components (s : PyStr) : List PyStr :=
  (s.splitOn slash).filter fun part => part ≠ [] ∧ part ≠ dot

theorem notMem_of_mem_splitOn {α : Type*} [BEq α] [LawfulBEq α] {a : α} {s part : List α}
    (h : part ∈ s.splitOn a) : a ∉ part := by
  induction s generalizing part with
  | nil => simp_all [List.splitOn_nil]
  | cons c rest ih =>
    rw [List.splitOn_cons_eq_if_modifyHead] at h
    split at h
    · rcases List.mem_cons.mp h with rfl | h
      · simp
      · exact ih h
    · rename_i hc
      cases hrest : rest.splitOn a with
      | nil => exact absurd hrest (List.splitOn_ne_nil _ _)
      | cons first others =>
        rw [hrest, List.modifyHead_cons] at h
        rcases List.mem_cons.mp h with rfl | h
        · have hfirst : a ∉ first := ih (hrest ▸ List.mem_cons_self)
          simp only [List.mem_cons, not_or]
          exact ⟨fun e => hc (beq_iff_eq.mpr e.symm), hfirst⟩
        · exact ih (hrest ▸ List.mem_cons_of_mem _ h)

theorem isComponent_of_mem {s part : PyStr} (h : part ∈ components s) : IsComponent part := by
  obtain ⟨hsplit, hkept⟩ := List.mem_filter.mp h
  have hkept := of_decide_eq_true hkept
  exact ⟨hkept.1, hkept.2, notMem_of_mem_splitOn hsplit⟩

/-- A component stands for itself. -/
theorem components_of_isComponent {s : PyStr} (h : IsComponent s) : components s = [s] := by
  rw [components, List.splitOn_eq_singleton h.no_slash]
  simp [h.ne_nil, h.ne_dot]

/-- The first half of `posixpath.splitroot`: two separators are a root of their own, three
are one. -/
def rootOf : PyStr → PyStr
  | 47 :: 47 :: 47 :: _ => [slash]
  | 47 :: 47 :: _ => [slash, slash]
  | 47 :: _ => [slash]
  | _ => []

end PosixPath

open PosixPath in
/-- `pathlib.PosixPath` -/
@[ext] structure PosixPath where
  root : PyStr
  tail : List PyStr
  wellFormed : ∀ part ∈ tail, IsComponent part

namespace PosixPath

instance : DecidableEq PosixPath := fun p q =>
  decidable_of_iff (p.root = q.root ∧ p.tail = q.tail)
    ⟨fun h => PosixPath.ext h.1 h.2, fun h => h ▸ ⟨rfl, rfl⟩⟩

/-- `Path(text)` -/
def parse (text : PyStr) : PosixPath where
  root := rootOf text
  tail := components text
  wellFormed _ h := isComponent_of_mem h

/-- `path.name` -/
def name (p : PosixPath) : PyStr := p.tail.getLast?.getD []

/-- `path.parent`, which of a path without components is the path. -/
def parent (p : PosixPath) : PosixPath where
  root := p.root
  tail := p.tail.dropLast
  wellFormed _ h := p.wellFormed _ (List.dropLast_subset _ h)

/-- `path / other` -/
def join (p q : PosixPath) : PosixPath :=
  if q.root ≠ [] then q
  else
    { root := p.root
      tail := p.tail ++ q.tail
      wellFormed := fun _ h => (List.mem_append.mp h).elim (p.wellFormed _) (q.wellFormed _) }

/-- `str(path)` -/
def text (p : PosixPath) : PyStr :=
  if p.root = [] ∧ p.tail = [] then dot else p.root ++ [slash].intercalate p.tail

/-- A name is empty or a component. -/
theorem name_cases (p : PosixPath) : p.name = [] ∨ IsComponent p.name := by
  unfold name
  cases hlast : p.tail.getLast? with
  | none => exact .inl rfl
  | some part => exact .inr (p.wellFormed part (List.mem_of_getLast? hlast))

section Component

variable {s : PyStr} (h : IsComponent s)
include h

theorem parse_component : parse s = ⟨[], [s], by simpa using h⟩ := by
  apply PosixPath.ext
  · show rootOf s = []
    unfold rootOf
    split
    · exact absurd List.mem_cons_self h.no_slash
    · exact absurd List.mem_cons_self h.no_slash
    · exact absurd List.mem_cons_self h.no_slash
    · rfl
  · exact components_of_isComponent h

/-- **A component names an entry of the path it is joined to**. -/
theorem join_component (p : PosixPath) :
    (p.join (parse s)).parent = p ∧ (p.join (parse s)).name = s := by
  rw [parse_component h]
  constructor
  · apply PosixPath.ext
    · rfl
    · exact List.dropLast_concat
  · simp [join, name]

end Component

/-! ## Names as bytes -/

/-- `os.fsencode` of one code point: what stands for an undecodable byte is that byte. -/
def fsencodeChar (c : CodePoint) : Option (List UInt8) :=
  match PyStr.toChar? c with
  | some char => some (String.utf8EncodeChar char)
  | none => if 0xDC80 ≤ c.val ∧ c.val ≤ 0xDCFF then some [UInt8.ofNat (c.val - 0xDC00)] else none

/-- `os.fsencode`, or `none` where it raises `UnicodeEncodeError`. -/
def fsencode (s : PyStr) : Option (List UInt8) := (s.mapM fsencodeChar).map List.flatten

theorem fsencode_append_eq_some {s t : PyStr} {bytes : List UInt8} :
    fsencode (s ++ t) = some bytes ↔
      ∃ front back, fsencode s = some front ∧ fsencode t = some back ∧ bytes = front ++ back := by
  unfold fsencode
  rw [List.mapM_append]
  cases s.mapM fsencodeChar with
  | none => simp
  | some front =>
    cases t.mapM fsencodeChar with
    | none => simp
    | some back => simp [eq_comm]

/-- Text without a surrogate is encoded as everywhere else. -/
theorem fsencode_of_encodeUtf8 {s : PyStr} {bytes : List UInt8}
    (h : PyStr.encodeUtf8 s = some bytes) : fsencode s = some bytes := by
  obtain ⟨chars, hchars, hbytes⟩ := Option.map_eq_some_iff.mp h
  rw [← hbytes]
  clear h hbytes
  induction s generalizing chars with
  | nil =>
    cases hchars
    rfl
  | cons c rest ih =>
    rw [List.mapM_cons, Option.bind_eq_bind, Option.bind_eq_some_iff] at hchars
    obtain ⟨char, hchar, hchars⟩ := hchars
    rw [Option.bind_eq_bind, Option.bind_eq_some_iff] at hchars
    obtain ⟨others, hothers, hchars⟩ := hchars
    cases hchars
    have hc : fsencode [c] = some (String.utf8EncodeChar char) := by
      simp [fsencode, fsencodeChar, hchar]
    exact fsencode_append_eq_some.mpr ⟨_, _, hc, ih _ hothers, rfl⟩

/-- Two texts without surrogates are two names. -/
theorem eq_of_fsencode {s t : PyStr} (hs : (PyStr.encodeUtf8 s).isSome)
    (ht : (PyStr.encodeUtf8 t).isSome) (h : fsencode s = fsencode t) : s = t := by
  obtain ⟨bytes, hs⟩ := Option.isSome_iff_exists.mp hs
  obtain ⟨bytes', ht⟩ := Option.isSome_iff_exists.mp ht
  rw [fsencode_of_encodeUtf8 hs, fsencode_of_encodeUtf8 ht] at h
  cases h
  exact Option.some.inj ((PyStr.decodeUtf8_of_encodeUtf8 hs).symm.trans
    (PyStr.decodeUtf8_of_encodeUtf8 ht))

end PosixPath

end Pytusk.Lib
