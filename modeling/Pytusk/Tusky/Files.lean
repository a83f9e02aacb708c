import Pytusk.Lib.AtomicReplace
import Pytusk.Lib.Logged
import Pytusk.Lib.PosixPath
import Pytusk.Types.Errors
import Pytusk.Types.Json

/-!
# `write_file_bytes`

A file is written beside its target and renamed over it. What the operating
system answers is a parameter; a name is the bytes it has there.
-/

namespace Pytusk.Tusky

open Pytusk.Lib

/-- What the operating system holds, by directories `δ`. -/
structure FileSystem (δ : Type) where
  /-- the directory a path names -/
  directory : PosixPath → Except PyExn δ
  entries : Entries δ (List UInt8)

/-- What the calls of one `write_file_bytes` come to. -/
structure WriteAnswers where
  /-- the random part of the last name `mkstemp` tries -/
  randomChars : Except PyExn PyStr
  /-- An `OSError` leaves a part of the content in the file. -/
  writing : Except (PyExn × List UInt8) Unit
  replacing : Except PyExn Unit
  unlinking : Except PyExn Unit

/-- A name as a system call takes it. -/
def entryName (name : PyStr) : Except PyExn (List UInt8) :=
  match PosixPath.fsencode name with
  | none => .error (.valueError "'utf-8' codec can't encode characters: surrogates not allowed")
  | some bytes => if 0 ∈ bytes then .error (.valueError "embedded null byte") else .ok bytes

/-- `f".{target.name}."` -/
def tempStart (target : PosixPath) : PyStr := 46 :: (target.name ++ [46])

section Write

variable {δ : Type} (fs : FileSystem δ) (answers : WriteAnswers)
  (target : PosixPath) (data : List UInt8)

/-- `tempfile.mkstemp`: the name of the file it creates, which no entry had. -/
def mkstemp (dir : δ) (start : PyStr) : Except PyExn (List UInt8) := do
  let name ← entryName (start ++ (← answers.randomChars))
  raiseIf (fs.entries dir name ≠ none)
    (.builtin .exception "[Errno 17] No usable temporary file name found")
  return name

/-- `os.replace` onto the target: a directory is not replaced. -/
def replaceable (dir : δ) : Except PyExn (List UInt8) := do
  raiseIf (target.name = [] ∨ target.name = PosixPath.dotDot)
    (.builtin .exception "[Errno 16] Device or resource busy")
  let name ← entryName target.name
  raiseIf (fs.entries dir name = some .directory)
    (.builtin .exception "[Errno 21] Is a directory")
  answers.replacing
  return name

/-- The `try`. -/
def writeAndReplace (dir : δ) (name : List UInt8) :
    Logged (FileOp δ (List UInt8)) PyExn Unit := do
  match answers.writing with
  | .error (e, part) => do
      Logged.emit (.write dir name part)
      Logged.raise e
  | .ok () => do
      Logged.emit (.write dir name data)
      let targetName ← Logged.lift (replaceable fs answers target dir)
      Logged.emit (.rename dir name targetName)

/-- `write_file_bytes` -/
def writeFileBytes : Logged (FileOp δ (List UInt8)) PyExn Unit := do
  let dir ← Logged.lift (fs.directory target.parent)
  let name ← Logged.lift (mkstemp fs answers dir (tempStart target))
  Logged.emit (.create dir name)
  match ← (writeAndReplace fs answers target data dir name).attempt with
  | .ok () => pure ()
  | .error e => do
      -- Where this fails, its error hides the first.
      Logged.lift answers.unlinking
      Logged.emit (.unlink dir name)
      Logged.raise e

end Write

/-! ## A replacement -/

/-- What the new file is called. -/
def IsTemp (target name : List UInt8) : Prop := ∃ chars, name = 46 :: (target ++ 46 :: chars)

theorem entryName_eq_ok {name : PyStr} {bytes : List UInt8} :
    entryName name = .ok bytes ↔ PosixPath.fsencode name = some bytes ∧ 0 ∉ bytes := by
  unfold entryName
  cases hencode : PosixPath.fsencode name with
  | none => simp
  | some encoded =>
    dsimp only
    constructor
    · intro h
      split at h
      · cases h
      · rename_i hnull
        cases h
        exact ⟨rfl, hnull⟩
    · rintro ⟨⟨rfl⟩, hnull⟩
      exact if_neg hnull

/-- The name of an entry, or nothing where it has none. -/
def nameBytes (name : PyStr) : List UInt8 := (PosixPath.fsencode name).getD []

section Write

variable {δ : Type} {fs : FileSystem δ} {answers : WriteAnswers}
  {target : PosixPath} {data : List UInt8} {dir : δ}

private theorem fsencode_dot : PosixPath.fsencode [46] = some [46] := rfl

theorem mkstemp_eq_ok {name : List UInt8}
    (h : mkstemp fs answers dir (tempStart target) = .ok name) :
    fs.entries dir name = none ∧ IsTemp (nameBytes target.name) name := by
  obtain ⟨chars, -, h⟩ := bind_eq_ok.mp h
  obtain ⟨encoded, hname, h⟩ := bind_eq_ok.mp h
  obtain ⟨_, hfresh, h⟩ := bind_eq_ok.mp h
  cases h
  have hfresh := not_not.mp (raiseIf_eq_ok.mp hfresh)
  refine ⟨hfresh, ?_⟩
  obtain ⟨front, back, hfront, hback, rfl⟩ :=
    PosixPath.fsencode_append_eq_some.mp (entryName_eq_ok.mp hname).1
  obtain ⟨first, inner, hfirst, hinner, rfl⟩ :=
    PosixPath.fsencode_append_eq_some.mp (show PosixPath.fsencode ([46] ++ _) = _ from hfront)
  obtain ⟨encoded, last, hencoded, hlast, rfl⟩ := PosixPath.fsencode_append_eq_some.mp hinner
  obtain rfl := Option.some.inj (hfirst.symm.trans fsencode_dot)
  obtain rfl := Option.some.inj (hlast.symm.trans fsencode_dot)
  refine ⟨back, ?_⟩
  rw [nameBytes, hencoded]
  simp

theorem replaceable_eq_ok {name : List UInt8} (h : replaceable fs answers target dir = .ok name) :
    name = nameBytes target.name := by
  obtain ⟨_, -, h⟩ := bind_eq_ok.mp h
  obtain ⟨encoded, hname, h⟩ := bind_eq_ok.mp h
  obtain ⟨_, -, h⟩ := bind_eq_ok.mp h
  obtain ⟨_, -, h⟩ := bind_eq_ok.mp h
  cases h
  rw [nameBytes, (entryName_eq_ok.mp hname).1]
  rfl

variable (fs answers target data dir) in
/-- What the `try` does with the new file. -/
theorem writeAndReplace_cases (name : List UInt8) :
    (∃ e part, writeAndReplace fs answers target data dir name =
      ⟨.error e, [.write dir name part]⟩) ∨
    writeAndReplace fs answers target data dir name =
      ⟨.ok (), [.write dir name data, .rename dir name (nameBytes target.name)]⟩ := by
  unfold writeAndReplace
  split
  · exact .inl ⟨_, _, rfl⟩
  · cases hreplace : replaceable fs answers target dir with
    | error e => exact .inl ⟨e, data, rfl⟩
    | ok targetName =>
      rw [replaceable_eq_ok hreplace]
      exact .inr rfl

variable (answers data) in
/-- **`write_file_bytes` replaces its target or leaves it alone**. -/
theorem writeFileBytes_replaces (hdir : fs.directory target.parent = .ok dir) :
    (∃ e, (writeFileBytes fs answers target data).result = .error e ∧
      Replacement IsTemp dir fs.entries (nameBytes target.name) data
        (writeFileBytes fs answers target data).log false) ∨
    (writeFileBytes fs answers target data).result = .ok () ∧
      Replacement IsTemp dir fs.entries (nameBytes target.name) data
        (writeFileBytes fs answers target data).log true := by
  unfold writeFileBytes
  rw [hdir, Logged.lift_ok_bind]
  cases hname : mkstemp fs answers dir (tempStart target) with
  | error e => exact .inl ⟨e, rfl, .refused⟩
  | ok name =>
    obtain ⟨hfresh, htemp⟩ := mkstemp_eq_ok hname
    rw [Logged.lift_ok_bind]
    rcases writeAndReplace_cases fs answers target data dir name with ⟨e, part, hbody⟩ | hbody
    · rw [hbody]
      cases hunlink : answers.unlinking with
      | error e' => exact .inl ⟨e', rfl, .left hfresh htemp⟩
      | ok _ => exact .inl ⟨e, rfl, .undone hfresh htemp⟩
    · rw [hbody]
      exact .inr ⟨rfl, .renamed hfresh htemp⟩

/-- Without a directory nothing is done. -/
theorem writeFileBytes_of_error {e : PyExn} (hdir : fs.directory target.parent = .error e) :
    writeFileBytes fs answers target data = ⟨.error e, []⟩ := by
  unfold writeFileBytes
  rw [hdir]
  rfl

end Write

end Pytusk.Tusky
