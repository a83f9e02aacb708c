import Mathlib.Data.List.Basic
import Mathlib.Data.List.Infix
import Mathlib.Logic.Function.Basic
import Mathlib.Tactic.TypeStar

/-!
# Replacing files

Directories as maps from names to what they stand for, and the four operations
by which a file is replaced: a new file is created beside it, written, and
renamed over it, or unlinked where something fails. `Replacement` is one such
course of operations, `Replacements` several in a row. What is proved is proved
of every prefix, so it holds wherever the program is stopped.
-/

namespace Pytusk.Lib

/-- What a name stands for. -/
inductive Entry where
  | file (content : List UInt8)
  | directory
  /-- a link, a device, .. -/
  | other
  deriving DecidableEq, Repr

/-- The entries of every directory. -/
abbrev Entries (δ ν : Type*) := δ → ν → Option Entry

inductive FileOp (δ ν : Type*) where
  | create (dir : δ) (name : ν)
  | write (dir : δ) (name : ν) (content : List UInt8)
  | rename (dir : δ) (name target : ν)
  | unlink (dir : δ) (name : ν)
  deriving DecidableEq, Repr

namespace Entries

variable {δ ν : Type*} [DecidableEq δ] [DecidableEq ν]

def put (entries : Entries δ ν) (dir : δ) (name : ν) (entry : Option Entry) : Entries δ ν :=
  Function.update entries dir (Function.update (entries dir) name entry)

@[simp] theorem put_apply (entries : Entries δ ν) (dir d : δ) (name n : ν)
    (entry : Option Entry) :
    entries.put dir name entry d n = if d = dir ∧ n = name then entry else entries d n := by
  unfold put
  by_cases hd : d = dir
  · subst hd
    by_cases hn : n = name <;> simp [hn]
  · simp [hd]

/-- A rename takes the place of what was there. -/
def apply (entries : Entries δ ν) : FileOp δ ν → Entries δ ν
  | .create dir name => entries.put dir name (some (.file []))
  | .write dir name content => entries.put dir name (some (.file content))
  | .rename dir name target => (entries.put dir name none).put dir target (entries dir name)
  | .unlink dir name => entries.put dir name none

def after (entries : Entries δ ν) (ops : List (FileOp δ ν)) : Entries δ ν :=
  ops.foldl apply entries

@[simp] theorem after_nil (entries : Entries δ ν) : entries.after [] = entries := rfl

@[simp] theorem after_cons (entries : Entries δ ν) (op : FileOp δ ν) (ops : List (FileOp δ ν)) :
    entries.after (op :: ops) = (entries.apply op).after ops := rfl

theorem after_append (entries : Entries δ ν) (ops ops' : List (FileOp δ ν)) :
    entries.after (ops ++ ops') = (entries.after ops).after ops' := List.foldl_append

end Entries

section Replacement

variable {δ ν : Type*} [DecidableEq δ] [DecidableEq ν] (Temp : ν → ν → Prop) (dir : δ)

/-- The operations of one replacement, and whether it went through. `Temp` says
what the new file may be called. -/
inductive Replacement (entries : Entries δ ν) (target : ν) (content : List UInt8) :
    List (FileOp δ ν) → Bool → Prop
  | refused : Replacement entries target content [] false
  /-- Some part arrived, and the file was removed again. -/
  | undone {name : ν} {part : List UInt8} (fresh : entries dir name = none)
      (temp : Temp target name) :
      Replacement entries target content
        [.create dir name, .write dir name part, .unlink dir name] false
  /-- It could not even be removed. -/
  | left {name : ν} {part : List UInt8} (fresh : entries dir name = none)
      (temp : Temp target name) :
      Replacement entries target content [.create dir name, .write dir name part] false
  | renamed {name : ν} (fresh : entries dir name = none) (temp : Temp target name) :
      Replacement entries target content
        [.create dir name, .write dir name content, .rename dir name target] true

/-- Replacements in a row, up to the last or to where one stopped. -/
inductive Replacements : Entries δ ν → List (ν × List UInt8) → List (FileOp δ ν) → Bool → Prop
  | nil {entries : Entries δ ν} : Replacements entries [] [] true
  | cons {entries : Entries δ ν} {target : ν} {content : List UInt8}
      {rest : List (ν × List UInt8)} {ops ops' : List (FileOp δ ν)} {through : Bool}
      (first : Replacement Temp dir entries target content ops true)
      (others : Replacements (entries.after ops) rest ops' through) :
      Replacements entries ((target, content) :: rest) (ops ++ ops') through
  | stopped {entries : Entries δ ν} {target : ν} {content : List UInt8}
      {rest : List (ν × List UInt8)} {ops : List (FileOp δ ν)} {through : Bool}
      (first : Replacement Temp dir entries target content ops through) :
      Replacements entries ((target, content) :: rest) ops false

/-- How entries may differ on the way to `files`: a target has the whole of its
content, or a name that nothing had is a new file's. -/
def OnTheWay (entries entries' : Entries δ ν) (files : List (ν × List UInt8)) : Prop :=
  ∀ d n, entries' d n = entries d n ∨
    d = dir ∧ ((∃ content, (n, content) ∈ files ∧ entries' d n = some (.file content)) ∨
      entries d n = none ∧ ∃ file ∈ files, Temp file.1 n)

variable {Temp dir} {entries : Entries δ ν} {target : ν} {content : List UInt8}
  {files : List (ν × List UInt8)} {ops before : List (FileOp δ ν)} {through : Bool}

omit [DecidableEq δ] [DecidableEq ν] in
theorem OnTheWay.refl : OnTheWay Temp dir entries entries files := fun _ _ => .inl rfl

/-- What a replacement that went through comes to. -/
theorem Replacement.after_renamed (h : Replacement Temp dir entries target content ops true)
    (d : δ) (n : ν) :
    entries.after ops d n =
      if d = dir ∧ n = target then some (.file content) else entries d n := by
  cases h with
  | @renamed name fresh temp =>
    simp only [Entries.after_cons, Entries.after_nil, Entries.apply, Entries.put_apply]
    by_cases htarget : d = dir ∧ n = target
    · simp [htarget]
    · by_cases hname : d = dir ∧ n = name
      · obtain ⟨rfl, rfl⟩ := hname
        simp [fresh]
      · simp [htarget, hname]

/-- The entries of a new file, whatever arrived of it. -/
private theorem onTheWay_of_fresh {entries' : Entries δ ν} {name : ν}
    (fresh : entries dir name = none) (temp : Temp target name)
    (h : ∀ d n, ¬ (d = dir ∧ n = name) → entries' d n = entries d n) :
    OnTheWay Temp dir entries entries' [(target, content)] := by
  intro d n
  by_cases hname : d = dir ∧ n = name
  · obtain ⟨rfl, rfl⟩ := hname
    exact .inr ⟨rfl, .inr ⟨fresh, (target, content), by simp, temp⟩⟩
  · exact .inl (h d n hname)

/-- **A replacement is atomic**: wherever it is stopped, the target is as it was
or has the whole content. -/
theorem Replacement.onTheWay (h : Replacement Temp dir entries target content ops through)
    (hbefore : before <+: ops) :
    OnTheWay Temp dir entries (entries.after before) [(target, content)] := by
  -- Until the last operation only the new file is touched.
  have hcreated {name : ν} (fresh : entries dir name = none) (temp : Temp target name)
      {part : List UInt8}
      (hpre : before <+: [.create dir name, .write dir name part]) :
      OnTheWay Temp dir entries (entries.after before) [(target, content)] := by
    refine onTheWay_of_fresh fresh temp fun d n hn => ?_
    simp only [List.prefix_cons_iff, List.prefix_nil] at hpre
    rcases hpre with rfl | ⟨_, rfl, rfl | ⟨_, rfl, rfl⟩⟩ <;> simp [Entries.apply, hn]
  cases h with
  | refused =>
    rw [List.prefix_nil.mp hbefore]
    exact .refl
  | @undone name part fresh temp =>
    rcases List.prefix_concat_iff.mp (show before <+: [_, _] ++ [_] from hbefore) with rfl | hpre
    · exact onTheWay_of_fresh fresh temp fun d n hn => by simp [Entries.apply, hn]
    · exact hcreated fresh temp hpre
  | left fresh temp => exact hcreated fresh temp hbefore
  | @renamed name fresh temp =>
    rcases List.prefix_concat_iff.mp (show before <+: [_, _] ++ [_] from hbefore) with rfl | hpre
    · intro d n
      have hrenamed : Replacement Temp dir entries target content _ true := .renamed fresh temp
      have hafter := hrenamed.after_renamed d n
      by_cases htarget : d = dir ∧ n = target
      · rw [if_pos htarget] at hafter
        exact .inr ⟨htarget.1, .inl ⟨content, by simp [htarget.2], hafter⟩⟩
      · rw [if_neg htarget] at hafter
        exact .inl hafter
    · exact hcreated fresh temp hpre

theorem Replacement.single (h : Replacement Temp dir entries target content ops through) :
    Replacements Temp dir entries [(target, content)] ops through := by
  cases through with
  | false => exact .stopped h
  | true => simpa using Replacements.cons h .nil

omit [DecidableEq δ] [DecidableEq ν] in
/-- What was reached on the way to the first file is on the way to all. -/
theorem OnTheWay.mono {entries' : Entries δ ν} {more : List (ν × List UInt8)}
    (h : OnTheWay Temp dir entries entries' files) (hsub : files ⊆ more) :
    OnTheWay Temp dir entries entries' more := by
  intro d n
  rcases h d n with hsame | ⟨hd, ⟨content, hmem, hfile⟩ | ⟨hnone, file, hmem, htemp⟩⟩
  · exact .inl hsame
  · exact .inr ⟨hd, .inl ⟨content, hsub hmem, hfile⟩⟩
  · exact .inr ⟨hd, .inr ⟨hnone, file, hsub hmem, htemp⟩⟩

/-- The way goes on from where the first file has been replaced. -/
theorem OnTheWay.of_renamed {entries' : Entries δ ν}
    (first : Replacement Temp dir entries target content ops true)
    (h : OnTheWay Temp dir (entries.after ops) entries' files) :
    OnTheWay Temp dir entries entries' ((target, content) :: files) := by
  intro d n
  have hafter := first.after_renamed d n
  rcases h d n with hsame | ⟨hd, ⟨content', hmem, hfile⟩ | ⟨hnone, file, hmem, htemp⟩⟩
  · split at hafter
    · rename_i htarget
      rw [htarget.2] at hsame hafter ⊢
      exact .inr ⟨htarget.1, .inl ⟨content, List.mem_cons_self, hsame.trans hafter⟩⟩
    · exact .inl (hsame.trans hafter)
  · exact .inr ⟨hd, .inl ⟨content', List.mem_cons_of_mem _ hmem, hfile⟩⟩
  · split at hafter
    · exact nomatch hnone.symm.trans hafter
    · exact .inr ⟨hd, .inr ⟨hafter ▸ hnone, file, List.mem_cons_of_mem _ hmem, htemp⟩⟩

/-- **So are several in a row**: wherever they are stopped, no target has a part
of its content, and no other name but a new file's has changed. -/
theorem Replacements.onTheWay (h : Replacements Temp dir entries files ops through)
    (hbefore : before <+: ops) : OnTheWay Temp dir entries (entries.after before) files := by
  induction h generalizing before with
  | nil =>
    rw [List.prefix_nil.mp hbefore]
    exact .refl
  | @cons entries target content rest ops ops' through first others ih =>
    -- It is stopped within the first, or once that went through.
    rcases List.prefix_or_prefix_of_prefix hbefore (List.prefix_append ops ops') with
      hpre | ⟨later, rfl⟩
    · exact (first.onTheWay hpre).mono (by simp)
    · rw [Entries.after_append]
      exact .of_renamed first (ih ((List.prefix_append_right_inj ops).mp hbefore))
  | stopped first => exact (first.onTheWay hbefore).mono (by simp)

/-- **Replacements that all went through**: every target has its content, and
nothing else has changed. -/
theorem Replacements.after_through (h : Replacements Temp dir entries files ops true)
    (hdistinct : (files.map Prod.fst).Nodup) :
    (∀ file ∈ files, entries.after ops dir file.1 = some (.file file.2)) ∧
      ∀ d n, ¬ (d = dir ∧ n ∈ files.map Prod.fst) → entries.after ops d n = entries d n := by
  generalize hthrough : true = through at h
  induction h with
  | nil => simp
  | @cons entries target content rest ops ops' through first others ih =>
    obtain ⟨hfresh, hrest⟩ := List.nodup_cons.mp hdistinct
    obtain ⟨hfiles, hothers⟩ := ih hrest hthrough
    simp only [Entries.after_append]
    constructor
    · intro file hfile
      rcases List.mem_cons.mp hfile with rfl | hfile
      · rw [hothers dir target fun h => hfresh h.2, first.after_renamed]
        simp
      · exact hfiles file hfile
    · intro d n hn
      rw [hothers d n fun h => hn ⟨h.1, List.mem_cons_of_mem _ h.2⟩, first.after_renamed,
        if_neg fun h => hn ⟨h.1, by simp [h.2]⟩]
  | stopped first => cases hthrough

end Replacement

end Pytusk.Lib
