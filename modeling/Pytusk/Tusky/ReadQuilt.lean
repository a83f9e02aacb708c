import Pytusk.Commands.WalrusCommand
import Pytusk.Lib.Script
import Pytusk.Tusky.QuiltSelection

/-!
# `read_quilt`

All patches are read before the first is written: to stdout, to `--file`, or each
under its own name in `--out-dir`.
-/

namespace Pytusk.Tusky

open Pytusk.Lib

def checkQuiltArgs (args : QuiltArgs) : Except CliExn Unit := do
  raiseIf (args.patchIds ≠ [] ∧ (args.hasQuiltId ∨ args.patchKeys ≠ [] ∨ args.tags ≠ []))
    (.systemExit "Error: --patch-id is not combined with --quilt-id/--patch-key/--tag.")
  raiseIf (args.patchIds = [] ∧ ¬ (args.hasQuiltId ∧ (args.patchKeys ≠ [] ∨ args.tags ≠ [])))
    (.systemExit ("Error: provide either --patch-id (repeatable), or " ++
      "--quilt-id with at least one --patch-key/--tag."))
  raiseIf (args.file.isSome ∧ args.outDir.isSome)
    (.systemExit "Error: --file is not combined with --out-dir.")

/-- What answers the output, by directories `δ`. -/
structure Output (δ : Type) where
  isatty : Bool
  /-- `sys.stdout.buffer.write(..)` -/
  stdout : Except PyExn Unit
  fileSystem : FileSystem δ
  /-- `out_dir.mkdir(parents=True, exist_ok=True)`: what the file system then is. -/
  mkdir : PosixPath → Except PyExn (FileSystem δ)
  /-- the `k`-th file -/
  write : Nat → WriteAnswers
  /-- the line that reports the `k`-th file -/
  print : Nat → Except PyExn Unit

section Read

variable {δ : Type} (repr : Json → String) (agg : Aggregator) (args : QuiltArgs)

/-- `_refuse_tty_stdout` -/
def refuseTtyStdout (isatty : Bool) : Except CliExn Unit :=
  raiseIf (isatty = true)
    (.systemExit ("Error: refusing to write binary content to a terminal. " ++
      "Redirect stdout to a file or pipe, or use --file."))

def checkRequests (isatty : Bool) (requests : List PatchRequest) : Except CliExn Unit := do
  raiseIf (requests = []) (.systemExit "Error: no patches matched the given --tag selector(s).")
  raiseIf (1 < requests.length ∧ args.outDir = none)
    (.systemExit "Error: more than one patch was requested; use --out-dir.")
  if requests.length = 1 ∧ args.outDir = none ∧ args.file = none then refuseTtyStdout isatty
  else .ok ()

/-- `_safe_out_name` -/
def safeOutName (identifier : PyStr) : PyStr :=
  let name := (PosixPath.parse identifier).name
  if name = [] ∨ name = PosixPath.dot ∨ name = PosixPath.dotDot then Json.key "patch" else name

/-- `_safe_out_name(identifier)`, of whatever the identifier is. -/
def outName : Json → Except PyExn PyStr
  | .str identifier => .ok (safeOutName identifier)
  | value =>
      let typeName := value.typeName
      .error (.typeError (s!"argument should be a str or an os.PathLike object where __fspath__ " ++
        s!"returns a str, not '{typeName}'"))

/-- The check of `names_seen`. -/
def noteName (namesSeen : Dict PyStr Json) (identifier : Json) :
    Except CliExn (Dict PyStr Json) := do
  let name ← uncaught (outName identifier)
  match Dict.get? namesSeen name with
  | some other =>
      let first := repr other
      let second := repr identifier
      let shown := repr (.str name)
      .error (.systemExit (s!"Error: patches {first} and {second} both sanitize to output " ++
        s!"filename {shown}."))
  | none => return Dict.set namesSeen name identifier

/-- `if args.out_dir is not None`, in the loop that reads. -/
def noteIfPlaced (namesSeen : Dict PyStr Json) (identifier : Json) :
    Except CliExn (Dict PyStr Json) :=
  if args.outDir.isSome then noteName repr namesSeen identifier else .ok namesSeen

/-- The loop that reads, from the `k`-th request on. -/
def fetchPatches (k : Nat) (namesSeen : Dict PyStr Json) :
    List PatchRequest → QuiltReading δ (List (Json × List UInt8))
  | [] => pure []
  | (identifier, command) :: rest => do
      Logged.emit (.read command)
      match ← Logged.lift (uncaught (agg.readPatch k command)) with
      | .error resultString =>
          let shown := Commands.shown repr identifier
          Logged.raise (.systemExit s!"Error reading quilt patch {shown}: {resultString}")
      | .ok content => do
          let namesSeen ← Logged.lift (noteIfPlaced repr args namesSeen identifier)
          let patches ← fetchPatches (k + 1) namesSeen rest
          return (identifier, content) :: patches

end Read

/-! ## Writing -/

section Write

variable {δ : Type} (out : Output δ)

/-- `f"Wrote {len(content)} bytes to {target}"` -/
def wroteLine (content : List UInt8) (target : PosixPath) : PyStr :=
  let size := content.length
  Json.key s!"Wrote {size} bytes to " ++ target.text

/-- Write the `k`-th file and report it. -/
def writeAndReport (fs : FileSystem δ) (k : Nat) (target : PosixPath) (content : List UInt8) :
    QuiltReading δ Unit := do
  ((writeFileBytes fs (out.write k) target content).mapLog .touched).mapError .raised
  Logged.emit (.reported (wroteLine content target))
  Logged.lift (uncaught (out.print k))

def QuiltSeen.op : QuiltSeen δ → Option (FileOp δ (List UInt8))
  | .touched op => some op
  | _ => none

/-- What a run did to the files, in order. -/
abbrev ops {α : Type} (run : QuiltReading δ α) : List (FileOp δ (List UInt8)) :=
  Script.taken QuiltSeen.op run

variable [DecidableEq δ]

/-- What the next file is written into. -/
def FileSystem.after {α : Type} (fs : FileSystem δ) (run : QuiltReading δ α) : FileSystem δ :=
  { fs with entries := fs.entries.after (ops run) }

/-- The loop that writes. -/
def writePatches (outDir : PosixPath) (fs : FileSystem δ) (k : Nat) :
    List (Json × List UInt8) → QuiltReading δ Unit
  | [] => pure ()
  | (identifier, content) :: rest => do
      let name ← Logged.lift (uncaught (outName identifier))
      let written := writeAndReport out fs k (outDir.join (.parse name)) content
      written
      writePatches outDir (fs.after written) (k + 1) rest

variable (repr : Json → String) (agg : Aggregator) (args : QuiltArgs)

/-- What is done with the patches that were read. -/
def deliverPatches (patches : List (Json × List UInt8)) : QuiltReading δ Unit :=
  match args.outDir, patches with
  | some outDir, patches => do
      let fs ← Logged.lift (uncaught (out.mkdir outDir))
      writePatches out outDir fs 0 patches
  | none, [] => Logged.raise (.raised (.indexError "list index out of range"))
  | none, (_, content) :: _ =>
      match args.file with
      | none => do
          Logged.emit (.stdout content)
          Logged.lift (uncaught out.stdout)
      | some file => writeAndReport out out.fileSystem 0 file content

/-- `read_quilt` -/
def readQuilt : QuiltReading δ Unit := do
  Logged.lift (checkQuiltArgs args)
  let requests ← selectPatches repr agg args
  Logged.lift (checkRequests args out.isatty requests)
  let patches ← fetchPatches repr agg args 0 [] requests
  deliverPatches out args patches

end Write

/-! ## Names -/

/-- **A name to write under is one component**, whatever the key is: it has no
separator and names no other directory. -/
theorem safeOutName_isComponent (identifier : PyStr) :
    PosixPath.IsComponent (safeOutName identifier) ∧
      safeOutName identifier ≠ PosixPath.dotDot := by
  have hpatch : PosixPath.IsComponent (Json.key "patch") :=
    ⟨by decide, by decide, by decide⟩
  unfold safeOutName
  dsimp only
  split
  · exact ⟨hpatch, by decide⟩
  · rename_i hname
    simp only [not_or] at hname
    rcases (PosixPath.parse identifier).name_cases with hnil | hcomponent
    · exact absurd hnil hname.1
    · exact ⟨hcomponent, hname.2.2⟩

/-- The name a patch is written under. -/
def nameOf (identifier : Json) : PyStr := ((outName identifier).toOption).getD []

/-- The files of some patches. -/
def filesOf (patches : List (Json × List UInt8)) : List (List UInt8 × List UInt8) :=
  patches.map fun patch => (nameBytes (nameOf patch.1), patch.2)

theorem outName_eq_ok {identifier : Json} {name : PyStr} (h : outName identifier = .ok name) :
    nameOf identifier = name ∧ PosixPath.IsComponent name ∧ name ≠ PosixPath.dotDot := by
  rw [nameOf, h]
  cases identifier with
  | str text =>
    cases h
    exact ⟨rfl, safeOutName_isComponent text⟩
  | _ => cases h

/-! ## Reading -/

section Read

variable {δ : Type} {repr : Json → String} {agg : Aggregator} {args : QuiltArgs}

/-- What the aggregator answered to the requests from the `k`-th on. -/
inductive Answered (agg : Aggregator) :
    Nat → List PatchRequest → List (Json × List UInt8) → Prop
  | nil {k : Nat} : Answered agg k [] []
  | cons {k : Nat} {identifier : Json} {command : PatchCommand} {content : List UInt8}
      {requests : List PatchRequest} {patches : List (Json × List UInt8)}
      (hread : agg.readPatch k command = .ok (.ok content))
      (rest : Answered agg (k + 1) requests patches) :
      Answered agg k ((identifier, command) :: requests) ((identifier, content) :: patches)

/-- Every patch has a name to write it under, which none has twice. -/
structure Named (namesSeen : List PyStr) (patches : List (Json × List UInt8)) : Prop where
  named : ∀ patch ∈ patches, ∃ name, outName patch.1 = .ok name
  nodup : (patches.map fun patch => nameOf patch.1).Nodup
  fresh : ∀ patch ∈ patches, nameOf patch.1 ∉ namesSeen

theorem noteName_eq_ok {namesSeen namesSeen' : Dict PyStr Json} {identifier : Json}
    (h : noteName repr namesSeen identifier = .ok namesSeen') :
    outName identifier = .ok (nameOf identifier) ∧ nameOf identifier ∉ Dict.keys namesSeen ∧
      Dict.keys namesSeen' = Dict.keys namesSeen ++ [nameOf identifier] := by
  obtain ⟨name, hname, h⟩ := bind_eq_ok.mp h
  have hname := mapError_eq_ok.mp hname
  rw [(outName_eq_ok hname).1]
  cases hget : Dict.get? namesSeen name with
  | some other =>
    rw [hget] at h
    cases h
  | none =>
    rw [hget] at h
    cases h
    have hfresh := Dict.get?_eq_none_iff.mp hget
    exact ⟨hname, hfresh, by rw [Dict.set, Dict.keys_alter, if_neg hfresh]⟩

/-- The loop reads every patch, or fails. -/
theorem fetchPatches_eq_ok {k : Nat} {namesSeen : Dict PyStr Json}
    {requests : List PatchRequest} {patches : List (Json × List UInt8)}
    (h : (fetchPatches repr agg args k namesSeen requests : QuiltReading δ _).result =
      .ok patches) :
    Answered agg k requests patches ∧
      (args.outDir.isSome → Named (Dict.keys namesSeen) patches) := by
  induction requests generalizing k namesSeen patches with
  | nil =>
    cases h
    exact ⟨.nil, fun _ => ⟨by simp, by simp, by simp⟩⟩
  | cons request rest ih =>
    obtain ⟨identifier, command⟩ := request
    unfold fetchPatches at h
    obtain ⟨_, -, h⟩ := Logged.result_bind_eq_ok.mp h
    obtain ⟨answer, hanswer, h⟩ := Logged.result_bind_eq_ok.mp h
    split at h
    · cases h
    · rename_i content
      have hread := mapError_eq_ok.mp hanswer
      obtain ⟨namesSeen', hnote, h⟩ := Logged.result_bind_eq_ok.mp h
      obtain ⟨others, hothers, h⟩ := Logged.result_bind_eq_ok.mp h
      cases h
      obtain ⟨hanswered, hnamed⟩ := ih hothers
      refine ⟨.cons hread hanswered, fun houtDir => ?_⟩
      rw [Logged.result_lift, noteIfPlaced, if_pos houtDir] at hnote
      obtain ⟨hname, hfresh, hkeys⟩ := noteName_eq_ok hnote
      obtain ⟨named, nodup, fresh⟩ := hnamed houtDir
      rw [hkeys] at fresh
      constructor
      · exact List.forall_mem_cons.mpr ⟨⟨_, hname⟩, named⟩
      · rw [List.map_cons, List.nodup_cons]
        refine ⟨fun hmem => ?_, nodup⟩
        obtain ⟨patch, hpatch, hsame⟩ := List.mem_map.mp hmem
        exact fresh patch hpatch (by simp [hsame])
      · exact List.forall_mem_cons.mpr ⟨hfresh, fun patch hpatch hmem =>
          fresh patch hpatch (List.mem_append_left _ hmem)⟩

theorem not_emits_fetchPatches (k : Nat) (namesSeen : Dict PyStr Json)
    (requests : List PatchRequest) :
    ¬ Logged.Emits QuiltSeen.isOutput
      (fetchPatches repr agg args k namesSeen requests : QuiltReading δ _) := by
  induction requests generalizing k namesSeen with
  | nil => simp [fetchPatches]
  | cons request rest ih =>
    obtain ⟨identifier, command⟩ := request
    unfold fetchPatches
    rw [Logged.emits_bind]
    rintro (h | ⟨_, -, h⟩)
    · cases Logged.emits_emit.mp h
    · rw [Logged.emits_bind] at h
      rcases h with h | ⟨answer, -, h⟩
      · exact Logged.emits_lift.mp h
      · cases answer with
        | error e => exact Logged.emits_raise.mp h
        | ok content =>
          dsimp only at h
          rw [Logged.emits_bind] at h
          rcases h with h | ⟨namesSeen', -, h⟩
          · exact Logged.emits_lift.mp h
          · exact ih _ _ (Logged.emits_bind_pure.mp h)

end Read

/-! ## Writing -/

section Write

variable {δ : Type} {out : Output δ} {fs : FileSystem δ} {dir : δ}

/-- What is no output does nothing to the files. -/
theorem filterMap_op_of_quiet {events : List (QuiltSeen δ)}
    (hquiet : ∀ event ∈ events, event.isOutput = false) :
    events.filterMap QuiltSeen.op = [] := by
  refine List.filterMap_eq_nil_iff.mpr fun event hevent => ?_
  have hevent := hquiet event hevent
  cases event with
  | touched op => cases hevent
  | _ => rfl

variable (out) in
/-- A file that is written and reported is replaced, or left alone. -/
theorem writeAndReport_replaces (k : Nat) {target : PosixPath} (content : List UInt8)
    (hdir : fs.directory target.parent = .ok dir) :
    ∃ through, Replacement IsTemp dir fs.entries (nameBytes target.name) content
        (ops (writeAndReport out fs k target content)) through ∧
      ((writeAndReport out fs k target content).result = .ok () → through = true) := by
  have hops : ops (writeAndReport out fs k target content) =
      (writeFileBytes fs (out.write k) target content).log := by
    have htouched (log : List (FileOp δ (List UInt8))) :
        (log.map QuiltSeen.touched).filterMap QuiltSeen.op = log := by
      rw [List.filterMap_map]
      exact List.filterMap_some
    unfold ops Script.taken writeAndReport
    generalize writeFileBytes fs (out.write k) target content = written
    obtain ⟨result, log⟩ := written
    cases result with
    | error e => exact htouched log
    | ok _ =>
      show List.filterMap QuiltSeen.op (log.map .touched ++ ([.reported _] ++ [])) = log
      rw [List.append_nil, List.filterMap_append, htouched]
      exact List.append_nil log
  rw [hops]
  rcases writeFileBytes_replaces (out.write k) content hdir with
    ⟨e, hresult, hreplaced⟩ | ⟨-, hreplaced⟩
  · refine ⟨false, hreplaced, fun hok => ?_⟩
    obtain ⟨_, hok, -⟩ := Logged.result_bind_eq_ok.mp hok
    rw [Logged.result_mapError, Logged.result_mapLog, hresult] at hok
    cases hok
  · exact ⟨true, hreplaced, fun _ => rfl⟩

variable [DecidableEq δ]

variable (out fs) in
/-- One turn of the loop that writes. -/
theorem writePatches_cons (outDir : PosixPath) (k : Nat) {identifier : Json} {name : PyStr}
    (hname : outName identifier = .ok name) (content : List UInt8)
    (rest : List (Json × List UInt8)) :
    writePatches out outDir fs k ((identifier, content) :: rest) =
      let written := writeAndReport out fs k (outDir.join (.parse name)) content
      written >>= fun _ => writePatches out outDir (fs.after written) (k + 1) rest := by
  rw [writePatches, hname]
  rfl

variable (out fs) in
/-- **The loop that writes** makes one replacement after the other, all of them
in the directory that `--out-dir` names. -/
theorem writePatches_replaces {outDir : PosixPath} (k : Nat)
    {patches : List (Json × List UInt8)} (hdir : fs.directory outDir = .ok dir)
    (hnamed : ∀ patch ∈ patches, ∃ name, outName patch.1 = .ok name) :
    ∃ through, Replacements IsTemp dir fs.entries (filesOf patches)
        (ops (writePatches out outDir fs k patches)) through ∧
      ((writePatches out outDir fs k patches).result = .ok () → through = true) := by
  induction patches generalizing fs k with
  | nil => exact ⟨true, .nil, fun _ => rfl⟩
  | cons patch rest ih =>
    obtain ⟨identifier, content⟩ := patch
    obtain ⟨⟨name, hname⟩, hrest⟩ := List.forall_mem_cons.mp hnamed
    have hname : outName identifier = .ok name := hname
    rw [writePatches_cons out fs outDir k hname]
    obtain ⟨rfl, hcomponent, -⟩ := outName_eq_ok hname
    -- A name is one component, so the parent of the target is `--out-dir` again.
    obtain ⟨hparent, htargetName⟩ := PosixPath.join_component hcomponent outDir
    obtain ⟨through, hreplaced, hthrough⟩ :=
      writeAndReport_replaces out k content ((congrArg fs.directory hparent).trans hdir)
    rw [htargetName] at hreplaced
    generalize writeAndReport out fs k (outDir.join (.parse (nameOf identifier))) content =
      written at hreplaced hthrough ⊢
    cases hresult : written.result with
    | error e =>
      rw [ops, Script.taken_bind_of_error hresult]
      refine ⟨false, .stopped hreplaced, fun hok => ?_⟩
      obtain ⟨_, hok, -⟩ := Logged.result_bind_eq_ok.mp hok
      exact nomatch hresult.symm.trans hok
    | ok _ =>
      rw [hthrough hresult] at hreplaced
      obtain ⟨through', hothers, hthrough'⟩ := ih (fs.after written) (k + 1) hdir hrest
      rw [ops, Script.taken_bind_of_ok hresult]
      refine ⟨through', .cons hreplaced hothers, fun hok => hthrough' ?_⟩
      obtain ⟨_, -, hok⟩ := Logged.result_bind_eq_ok.mp hok
      exact hok

/-! ## Delivery -/

/-- A run that puts `files` in `dir`. Wherever it is stopped, each of them is as
it was or whole; where it returns, they are all there. -/
structure Fills (fs : FileSystem δ) (dir : δ) (files : List (List UInt8 × List UInt8))
    (run : QuiltReading δ Unit) : Prop where
  onTheWay : ∀ before, before <+: run.log →
    OnTheWay IsTemp dir fs.entries (fs.entries.after (before.filterMap QuiltSeen.op)) files
  through : run.result = .ok () → (files.map Prod.fst).Nodup →
    (∀ file ∈ files, fs.entries.after (ops run) dir file.1 = some (.file file.2)) ∧
      ∀ d n, ¬ (d = dir ∧ n ∈ files.map Prod.fst) →
        fs.entries.after (ops run) d n = fs.entries d n

/-- Where the patches that were read go. -/
inductive Delivered (out : Output δ) (args : QuiltArgs) (patches : List (Json × List UInt8))
    (run : QuiltReading δ Unit) : Prop
  | stdout {identifier : Json} {content : List UInt8}
      (houtDir : args.outDir = none) (hfile : args.file = none)
      (hpatches : patches = [(identifier, content)]) (htty : out.isatty = false)
      (written : run.log.filter QuiltSeen.isOutput = [.stdout content])
  | file {path : PosixPath} {identifier : Json} {content : List UInt8} {dir : δ}
      (houtDir : args.outDir = none) (hfile : args.file = some path)
      (hpatches : patches = [(identifier, content)])
      (hdir : out.fileSystem.directory path.parent = .ok dir)
      (fills : Fills out.fileSystem dir [(nameBytes path.name, content)] run)
  | outDir {path : PosixPath} {fs : FileSystem δ} {dir : δ}
      (houtDir : args.outDir = some path) (hmkdir : out.mkdir path = .ok fs)
      (hdir : fs.directory path = .ok dir)
      (inside : ∀ patch ∈ patches, PosixPath.IsComponent (nameOf patch.1) ∧
        nameOf patch.1 ≠ PosixPath.dotDot)
      (distinct : (patches.map fun patch => nameOf patch.1).Nodup)
      -- A surrogate stands for a byte, and two names with one may be the same bytes.
      (distinctFiles : (∀ patch ∈ patches, (PyStr.encodeUtf8 (nameOf patch.1)).isSome) →
        ((filesOf patches).map Prod.fst).Nodup)
      (fills : Fills fs dir (filesOf patches) run)

/-- How a run ends: with an error and without output, though `--out-dir` may have
been made, or with every patch that was asked for read and delivered. -/
inductive Concluded (out : Output δ) (agg : Aggregator) (args : QuiltArgs)
    (run : QuiltReading δ Unit) : Prop
  | refused {e : CliExn} (quiet : ¬ Logged.Emits QuiltSeen.isOutput run)
      (hresult : run.result = .error e)
  | delivered {requests : List PatchRequest} {patches : List (Json × List UInt8)}
      (selects : Selects agg args requests) (answered : Answered agg 0 requests patches)
      (delivered : Delivered out args patches run)

section Quiet

variable {run : QuiltReading δ Unit} {events : List (QuiltSeen δ)}
  {files : List (List UInt8 × List UInt8)} {args : QuiltArgs} {agg : Aggregator}
  {patches : List (Json × List UInt8)}

theorem Fills.after (h : Fills fs dir files run)
    (hquiet : ∀ event ∈ events, event.isOutput = false) :
    Fills fs dir files (run.after events) := by
  have hnone := filterMap_op_of_quiet hquiet
  constructor
  · intro before hbefore
    -- Stopped among the events that are no output, the files are as they were.
    rcases List.prefix_or_prefix_of_prefix hbefore (List.prefix_append events run.log) with
      hpre | ⟨later, rfl⟩
    · have hbeforeQuiet : ∀ event ∈ before, event.isOutput = false :=
        fun event hevent => hquiet event (hpre.subset hevent)
      rw [filterMap_op_of_quiet hbeforeQuiet]
      exact .refl
    · rw [List.filterMap_append, hnone]
      exact h.onTheWay later ((List.prefix_append_right_inj events).mp hbefore)
  · have hops : ops (run.after events) = ops run := by
      show (events ++ run.log).filterMap QuiltSeen.op = _
      rw [List.filterMap_append, hnone]
      rfl
    rw [hops]
    exact h.through

theorem Delivered.after (h : Delivered out args patches run)
    (hquiet : ∀ event ∈ events, event.isOutput = false) :
    Delivered out args patches (run.after events) := by
  cases h with
  | stdout houtDir hfile hpatches htty written =>
    refine .stdout houtDir hfile hpatches htty ?_
    show (events ++ run.log).filter QuiltSeen.isOutput = _
    rw [List.filter_append, written, List.filter_eq_nil_iff.mpr fun event hevent => by
      simp [hquiet event hevent]]
    rfl
  | file houtDir hfile hpatches hdir fills =>
    exact .file houtDir hfile hpatches hdir (fills.after hquiet)
  | outDir houtDir hmkdir hdir inside distinct distinctFiles fills =>
    exact .outDir houtDir hmkdir hdir inside distinct distinctFiles (fills.after hquiet)

/-- What is done without output comes before the end or is it. -/
theorem Concluded.bind {α : Type} {x : QuiltReading δ α} {f : α → QuiltReading δ Unit}
    (hx : ¬ Logged.Emits QuiltSeen.isOutput x)
    (hf : ∀ a, x.result = .ok a → Concluded out agg args (f a)) :
    Concluded out agg args (x >>= f) := by
  obtain ⟨result, log⟩ := x
  have hquiet : ∀ event ∈ log, event.isOutput = false := by
    intro event hevent
    by_contra hout
    exact hx ⟨event, hevent, by simpa using hout⟩
  cases result with
  | error e => exact .refused hx rfl
  | ok a =>
    rw [Logged.mk_ok_bind]
    cases hf a rfl with
    | refused quiet hresult =>
      refine .refused ?_ hresult
      rintro ⟨event, hevent, hout⟩
      rcases List.mem_append.mp hevent with hmem | hmem
      · exact hx ⟨event, hmem, hout⟩
      · exact quiet ⟨event, hmem, hout⟩
    | delivered selects answered delivered =>
      exact .delivered selects answered (delivered.after hquiet)

theorem Fills.of_replacements {through : Bool}
    (h : Replacements IsTemp dir fs.entries files (ops run) through)
    (hthrough : run.result = .ok () → through = true) : Fills fs dir files run := by
  constructor
  · intro before hbefore
    exact h.onTheWay (hbefore.filterMap QuiltSeen.op)
  · intro hresult hdistinct
    rw [hthrough hresult] at h
    exact h.after_through hdistinct

theorem Answered.length_eq {k : Nat} {requests : List PatchRequest}
    (h : Answered agg k requests patches) : patches.length = requests.length := by
  induction h with
  | nil => rfl
  | cons hread rest ih => exact congrArg Nat.succ ih

/-- Names without surrogates are names of different files. -/
theorem nodup_filesOf (hdistinct : (patches.map fun patch => nameOf patch.1).Nodup)
    (hnamed : ∀ patch ∈ patches, (PyStr.encodeUtf8 (nameOf patch.1)).isSome) :
    ((filesOf patches).map Prod.fst).Nodup := by
  have hfiles : (filesOf patches).map Prod.fst =
      (patches.map fun patch => nameOf patch.1).map nameBytes := by
    simp [filesOf]
  rw [hfiles]
  refine hdistinct.map_on fun name hname name' hname' hsame => ?_
  obtain ⟨patch, hpatch, rfl⟩ := List.mem_map.mp hname
  obtain ⟨patch', hpatch', rfl⟩ := List.mem_map.mp hname'
  have hencoded := hnamed patch hpatch
  have hencoded' := hnamed patch' hpatch'
  refine PosixPath.eq_of_fsencode hencoded hencoded' ?_
  obtain ⟨bytes, hbytes⟩ := Option.isSome_iff_exists.mp hencoded
  obtain ⟨bytes', hbytes'⟩ := Option.isSome_iff_exists.mp hencoded'
  rw [nameBytes, nameBytes, PosixPath.fsencode_of_encodeUtf8 hbytes,
    PosixPath.fsencode_of_encodeUtf8 hbytes'] at hsame
  rw [PosixPath.fsencode_of_encodeUtf8 hbytes, PosixPath.fsencode_of_encodeUtf8 hbytes']
  exact congrArg some hsame

/-- What the checks leave. -/
theorem checkRequests_eq_ok {isatty : Bool} {requests : List PatchRequest}
    (h : checkRequests args isatty requests = .ok ()) :
    requests ≠ [] ∧ (args.outDir = none →
      requests.length = 1 ∧ (args.file = none → isatty = false)) := by
  obtain ⟨_, hempty, h⟩ := bind_eq_ok.mp h
  obtain ⟨_, hmany, h⟩ := bind_eq_ok.mp h
  have hempty := raiseIf_eq_ok.mp hempty
  have hmany := raiseIf_eq_ok.mp hmany
  refine ⟨hempty, fun houtDir => ?_⟩
  have hpos := List.length_pos_iff.mpr hempty
  have hone : requests.length = 1 := by
    have hle : ¬ 1 < requests.length := fun hlt => hmany ⟨hlt, houtDir⟩
    omega
  refine ⟨hone, fun hfile => ?_⟩
  rw [if_pos ⟨hone, houtDir, hfile⟩] at h
  simpa using raiseIf_eq_ok.mp h

end Quiet

section Deliver

variable {repr : Json → String} {agg : Aggregator} {args : QuiltArgs}
  {requests : List PatchRequest} {patches : List (Json × List UInt8)}

omit [DecidableEq δ] in
/-- Without a directory to write to nothing is written. -/
theorem writeAndReport_of_error {k : Nat} {target : PosixPath} {content : List UInt8} {e : PyExn}
    (hdir : fs.directory target.parent = .error e) :
    writeAndReport out fs k target content = ⟨.error (.raised e), []⟩ := by
  unfold writeAndReport
  rw [writeFileBytes_of_error hdir]
  rfl

variable (out) in
theorem writePatches_of_error {outDir : PosixPath} {k : Nat} {patch : Json × List UInt8}
    {rest : List (Json × List UInt8)} {e : PyExn} (hdir : fs.directory outDir = .error e)
    (hnamed : ∃ name, outName patch.1 = .ok name) :
    writePatches out outDir fs k (patch :: rest) = ⟨.error (.raised e), []⟩ := by
  obtain ⟨identifier, content⟩ := patch
  obtain ⟨name, hname⟩ := hnamed
  have hname : outName identifier = .ok name := hname
  have hparent := (PosixPath.join_component (outName_eq_ok hname).2.1 outDir).1
  rw [← hparent] at hdir
  rw [writePatches_cons out fs outDir k hname, writeAndReport_of_error hdir]
  rfl

/-- What cannot be delivered for want of a directory. -/
theorem concluded_of_error {e : CliExn} :
    Concluded out agg args (⟨.error e, []⟩ : QuiltReading δ Unit) :=
  .refused (fun h => Logged.emits_raise.mp h) rfl

/-- Under `--out-dir` every patch has a file of its own. -/
theorem deliver_outDir {path : PosixPath} (houtDir : args.outDir = some path)
    (hmkdir : out.mkdir path = .ok fs) (hdir : fs.directory path = .ok dir)
    (hnamed : Named [] patches) :
    Delivered out args patches (writePatches out path fs 0 patches) := by
  obtain ⟨through, hreplaced, hthrough⟩ :=
    writePatches_replaces out fs 0 hdir hnamed.named
  refine .outDir houtDir hmkdir hdir ?_ hnamed.nodup (nodup_filesOf hnamed.nodup)
    (.of_replacements hreplaced hthrough)
  intro patch hpatch
  obtain ⟨name, hname⟩ := hnamed.named patch hpatch
  obtain ⟨rfl, hinside⟩ := outName_eq_ok hname
  exact hinside

/-- Under `--file` the only patch is written there. -/
theorem deliver_file {path : PosixPath} {identifier : Json} {content : List UInt8}
    (houtDir : args.outDir = none) (hfile : args.file = some path)
    (hdir : out.fileSystem.directory path.parent = .ok dir) :
    Delivered out args [(identifier, content)]
      (writeAndReport out out.fileSystem 0 path content) := by
  obtain ⟨through, hreplaced, hthrough⟩ := writeAndReport_replaces out 0 content hdir
  exact .file houtDir hfile rfl hdir (.of_replacements hreplaced.single hthrough)

/-- Patches that were read are delivered. -/
theorem deliverPatches_concludes (selects : Selects agg args requests)
    (answered : Answered agg 0 requests patches)
    (hchecked : checkRequests args out.isatty requests = .ok ())
    (hnamed : args.outDir.isSome → Named [] patches) :
    Concluded out agg args (deliverPatches out args patches) := by
  obtain ⟨hrequests, hsingle⟩ := checkRequests_eq_ok hchecked
  have hlength := answered.length_eq
  unfold deliverPatches
  cases houtDir : args.outDir with
  | some path =>
    have hnamed := hnamed (by simp [houtDir])
    dsimp only
    cases hmkdir : out.mkdir path with
    | error e => exact concluded_of_error
    | ok fs =>
      show Concluded out agg args (writePatches out path fs 0 patches)
      cases hdir : fs.directory path with
      | error e =>
        -- There is a patch to fail on, since an empty selection was refused.
        obtain ⟨patch, rest, rfl⟩ : ∃ patch rest, patches = patch :: rest := by
          refine List.exists_cons_of_length_pos ?_
          rw [hlength]
          exact List.length_pos_iff.mpr hrequests
        rw [writePatches_of_error out hdir (hnamed.named patch List.mem_cons_self)]
        exact concluded_of_error
      | ok dir => exact .delivered selects answered (deliver_outDir houtDir hmkdir hdir hnamed)
  | none =>
    obtain ⟨hone, htty⟩ := hsingle houtDir
    obtain ⟨⟨identifier, content⟩, rfl⟩ := List.length_eq_one_iff.mp (hlength.trans hone)
    dsimp only
    cases hfile : args.file with
    | none => exact .delivered selects answered (.stdout houtDir hfile rfl (htty hfile) rfl)
    | some path =>
      dsimp only
      cases hdir : out.fileSystem.directory path.parent with
      | error e =>
        rw [writeAndReport_of_error hdir]
        exact concluded_of_error
      | ok dir => exact .delivered selects answered (deliver_file houtDir hfile hdir)

variable (out repr agg args) in
/-- **`read_quilt` writes what was asked for, or nothing**. Whatever a listing
has for keys, no file is written outside `--out-dir`, and none is seen in part. -/
theorem readQuilt_delivers : Concluded out agg args (readQuilt out repr agg args) := by
  unfold readQuilt
  refine .bind (fun h => Logged.emits_lift.mp h) fun _ _ => ?_
  refine .bind not_emits_selectPatches fun requests hrequests => ?_
  refine .bind (fun h => Logged.emits_lift.mp h) fun _ hchecked => ?_
  refine .bind (not_emits_fetchPatches 0 [] requests) fun patches hpatches => ?_
  obtain ⟨answered, hnamed⟩ := fetchPatches_eq_ok hpatches
  exact deliverPatches_concludes (selectPatches_selects hrequests) answered hchecked hnamed

end Deliver

end Write

end Pytusk.Tusky
