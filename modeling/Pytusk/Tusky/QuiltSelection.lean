import Pytusk.Tusky.Files
import Pytusk.Tusky.Sending

/-!
# The patches `read_quilt` is asked for

They are named by their ids, or by a quilt with keys and tags. A tag is looked up
in the quilt's listing. Its keys are what whoever stored the quilt wrote, so they
are taken as the aggregator gives them.
-/

namespace Pytusk.Tusky

open Pytusk.Lib

/-! ## The listing -/

/-- `ReadQuiltPatchById` and `ReadQuiltPatch` -/
inductive PatchCommand where
  | byId (patchId : Json)
  | byKey (quiltId patchKey : PyStr)

/-- `QuiltPatchItem`, with whatever the body has in its place. -/
structure QuiltPatchItem where
  patchKey : Json
  patchId : Json
  tags : Json

/-- `for item in value` -/
def iterate : Json → Except PyExn (List Json)
  | .list xs => .ok xs
  | .str s => .ok (s.map fun c => .str [c])
  | .dict items => .ok ((Dict.keys items).map .str)
  | value =>
      let typeName := value.typeName
      .error (.typeError s!"'{typeName}' object is not iterable")

def quiltPatchItem : Json → Except PyExn QuiltPatchItem
  | .dict fields =>
      .ok {
        patchKey := (Dict.get? fields (Json.key "identifier")).getD (.str [])
        patchId := (Dict.get? fields (Json.key "patch_id")).getD (.str [])
        tags := (Dict.get? fields (Json.key "tags")).getD (.dict []) }
  | value =>
      let typeName := value.typeName
      .error (.attributeError s!"'{typeName}' object has no attribute 'get'")

/-- `ReadQuiltPatches.parse_response`, of the body of a success. -/
def quiltPatchListing (body : Json) : Except PyExn (List QuiltPatchItem) := do
  (← iterate body).mapM quiltPatchItem

/-- The integer a `bool` or an `int` is. -/
def asInt : Json → Option Int
  | .bool b => some (if b then 1 else 0)
  | .int n => some n
  | _ => none

/-- `a is b or a == b`, of values of a JSON text that can be hashed. Every NaN
of the text is the same object. -/
def pyEq (a b : Json) : Bool :=
  match a, b with
  | .none, .none => true
  | .str s, .str t => s = t
  -- The two zeros equal each other.
  | .float x, .float y => (x.isZero && y.isZero) || x = y
  | .float x, other => x.isInteger && (asInt other).any fun n => x.toInt.toOption = some n
  | other, .float x => x.isInteger && (asInt other).any fun n => x.toInt.toOption = some n
  | a, b => (asInt a).any fun n => asInt b = some n

/-- `value in seen`, for a set -/
def seenIn (seen : List Json) (value : Json) : Except PyExn Bool :=
  match value with
  | .list _ => .error (.typeError "unhashable type: 'list'")
  | .dict _ => .error (.typeError "unhashable type: 'dict'")
  | value => .ok (seen.any (pyEq value))

/-! ## Which patches -/

structure QuiltArgs where
  patchIds : List PyStr
  quiltId : Option PyStr
  patchKeys : List PyStr
  tags : List PyStr
  file : Option PosixPath
  outDir : Option PosixPath

/-- `bool(args.quilt_id)` -/
def QuiltArgs.hasQuiltId (args : QuiltArgs) : Bool := (args.quiltId.getD []) ≠ []

/-- One patch to read, and what it is called. -/
abbrev PatchRequest := Json × PatchCommand

/-- `_parse_tag` -/
def parseTag (repr : Json → String) (raw : PyStr) : Except CliExn (PyStr × PyStr) :=
  let shownRaw := repr (.str raw)
  if 61 ∉ raw then .error (.systemExit s!"Error: --tag {shownRaw} is not KEY=VALUE.")
  else .ok (raw.takeWhile (· ≠ 61), (raw.dropWhile (· ≠ 61)).tail)

/-- `any(item.tags.get(key) == value for key, value in wanted)` -/
def matchesTags (wanted : List (PyStr × PyStr)) (tags : Json) : Except PyExn Bool :=
  match wanted, tags with
  | [], _ => .ok false
  | wanted, .dict fields =>
      .ok (wanted.any fun tag => ((Dict.get? fields tag.1).getD .none) |> pyEq (.str tag.2))
  | _, value =>
      let typeName := value.typeName
      .error (.attributeError s!"'{typeName}' object has no attribute 'get'")

/-- The body of the loop over the listing: `requests` and `seen_keys`. -/
def addListed (wanted : List (PyStr × PyStr)) (acc : List PatchRequest × List Json)
    (item : QuiltPatchItem) : Except PyExn (List PatchRequest × List Json) := do
  if ← matchesTags wanted item.tags then
    if ← seenIn acc.2 item.patchKey then return acc
    else return (acc.1 ++ [(item.patchKey, .byId item.patchId)], acc.2 ++ [item.patchKey])
  else return acc

/-! ## Reading -/

/-- What answers the reads: a failure's text, or the content. -/
structure Aggregator where
  /-- the `k`-th patch read -/
  readPatch : Nat → PatchCommand → Except PyExn (Except String (List UInt8))
  /-- the body of the listing of a quilt -/
  listPatches : PyStr → Except PyExn (Except String Json)

inductive QuiltSeen (δ : Type) where
  | listed (quiltId : PyStr)
  | read (command : PatchCommand)
  | touched (op : FileOp δ (List UInt8))
  | stdout (content : List UInt8)
  | reported (line : PyStr)

abbrev QuiltReading (δ : Type) := Logged (QuiltSeen δ) CliExn

/-- The event is output. -/
def QuiltSeen.isOutput : QuiltSeen δ → Bool
  | .listed _ => false
  | .read _ => false
  | .touched _ => true
  | .stdout _ => true
  | .reported _ => true

section Select

variable {δ : Type} (repr : Json → String) (agg : Aggregator) (args : QuiltArgs)

def patchesById : List PatchRequest :=
  args.patchIds.map fun patchId => (.str patchId, .byId (.str patchId))

def patchesByKey (quiltId : PyStr) : List PatchRequest :=
  args.patchKeys.map fun patchKey => (.str patchKey, .byKey quiltId patchKey)

/-- The requests that tags add to those by key. -/
def addTagged (quiltId : PyStr) (body : Json) : Except CliExn (List PatchRequest) := do
  let patches ← uncaught (quiltPatchListing body)
  -- A tag without `=` is an error only here, once the listing was read.
  let wanted ← args.tags.mapM (parseTag repr)
  let named := patchesByKey args quiltId
  let (requests, _) ← uncaught (patches.foldlM (addListed wanted) (named, named.map Prod.fst))
  return requests

/-- `requests` -/
def selectPatches : QuiltReading δ (List PatchRequest) :=
  if args.patchIds ≠ [] then pure (patchesById args)
  else
    let quiltId := args.quiltId.getD []
    if args.tags = [] then pure (patchesByKey args quiltId)
    else do
      Logged.emit (.listed quiltId)
      match ← Logged.lift (uncaught (agg.listPatches quiltId)) with
      | .error resultString =>
          Logged.raise (.systemExit s!"Error listing quilt patches: {resultString}")
      | .ok body => Logged.lift (addTagged repr args quiltId body)

end Select

/-! ## Selecting -/

/-- The item carries one of the tags that were asked for. -/
def Wanted (args : QuiltArgs) (item : QuiltPatchItem) : Prop :=
  ∃ tag ∈ args.tags, ∃ key value fields, tag = key ++ 61 :: value ∧ 61 ∉ key ∧
    item.tags = .dict fields ∧ Dict.get? fields key = some (.str value)

/-- The patches the arguments ask for: by id, by key, and those of the listing
that carry one of the tags, each under a key of its own. -/
inductive Selects (agg : Aggregator) (args : QuiltArgs) : List PatchRequest → Prop
  | byId (hids : args.patchIds ≠ []) : Selects agg args (patchesById args)
  | byKey (hids : args.patchIds = []) (htags : args.tags = []) :
      Selects agg args (patchesByKey args (args.quiltId.getD []))
  | tagged {body : Json} {items : List QuiltPatchItem} {named listed : List PatchRequest}
      (hids : args.patchIds = [])
      (hbody : agg.listPatches (args.quiltId.getD []) = .ok (.ok body))
      (hitems : quiltPatchListing body = .ok items)
      (hnamed : named = patchesByKey args (args.quiltId.getD []))
      (sound : ∀ request ∈ listed, ∃ item ∈ items, Wanted args item ∧
        request = (item.patchKey, .byId item.patchId))
      (complete : ∀ item ∈ items, Wanted args item → ∃ request ∈ named ++ listed,
        request.1 = item.patchKey ∨ pyEq item.patchKey request.1 = true)
      (once : listed.Pairwise fun other request => pyEq request.1 other.1 = false)
      (fresh : ∀ request ∈ listed, ∀ other ∈ named, pyEq request.1 other.1 = false) :
      Selects agg args (named ++ listed)

theorem parseTag_append {repr : Json → String} {key value : PyStr} (h : 61 ∉ key) :
    parseTag repr (key ++ 61 :: value) = .ok (key, value) := by
  have hkey : ∀ c ∈ key, decide (c ≠ (61 : CodePoint)) = true :=
    fun c hc => decide_eq_true fun e => h (e ▸ hc)
  unfold parseTag
  dsimp only
  rw [if_neg (by simp), List.takeWhile_append_of_pos hkey, List.dropWhile_append_of_pos hkey]
  simp

/-- A tag is split at its first `=`. -/
theorem parseTag_eq_ok {repr : Json → String} {raw : PyStr} {tag : PyStr × PyStr}
    (h : parseTag repr raw = .ok tag) : raw = tag.1 ++ 61 :: tag.2 ∧ 61 ∉ tag.1 := by
  by_cases hmem : 61 ∈ raw
  · obtain ⟨key, value, rfl, hkey⟩ := List.eq_append_cons_of_mem hmem
    rw [parseTag_append hkey] at h
    cases h
    exact ⟨rfl, hkey⟩
  · unfold parseTag at h
    rw [if_pos hmem] at h
    cases h

/-- The tags that are wanted are those of the arguments. -/
theorem mem_wanted_iff {repr : Json → String} {tags : List PyStr} {wanted : List (PyStr × PyStr)}
    (h : tags.mapM (parseTag repr) = .ok wanted) {key value : PyStr} :
    (key, value) ∈ wanted ↔ 61 ∉ key ∧ key ++ 61 :: value ∈ tags := by
  constructor
  · intro hmem
    obtain ⟨raw, hraw, hparse⟩ := exists_of_mem_mapM h hmem
    obtain ⟨rfl, hkey⟩ := parseTag_eq_ok hparse
    exact ⟨hkey, hraw⟩
  · rintro ⟨hkey, hmem⟩
    obtain ⟨tag, htag, hparse⟩ := exists_mem_of_mapM h hmem
    rw [parseTag_append hkey] at hparse
    cases hparse
    exact htag

theorem pyEq_str {s : PyStr} {value : Json} : pyEq (.str s) value = true ↔ value = .str s := by
  cases value with
  | str t => simp [pyEq, eq_comm]
  | float x => simp [pyEq, asInt]
  | _ => simp [pyEq, asInt]

/-- An item matches exactly when it carries a tag that was asked for. -/
theorem matchesTags_eq_ok {repr : Json → String} {args : QuiltArgs}
    {wanted : List (PyStr × PyStr)} (hwanted : args.tags.mapM (parseTag repr) = .ok wanted)
    {item : QuiltPatchItem} {matched : Bool} (h : matchesTags wanted item.tags = .ok matched) :
    matched = true ↔ Wanted args item := by
  have hiff : Wanted args item ↔ ∃ tag ∈ wanted, ∃ fields, item.tags = .dict fields ∧
      Dict.get? fields tag.1 = some (.str tag.2) := by
    constructor
    · rintro ⟨_, hmem, key, value, fields, rfl, hkey, htags, hget⟩
      exact ⟨(key, value), (mem_wanted_iff hwanted).mpr ⟨hkey, hmem⟩, fields, htags, hget⟩
    · rintro ⟨⟨key, value⟩, hmem, fields, htags, hget⟩
      obtain ⟨hkey, hmem⟩ := (mem_wanted_iff hwanted).mp hmem
      exact ⟨_, hmem, key, value, fields, rfl, hkey, htags, hget⟩
  rw [hiff]
  unfold matchesTags at h
  split at h
  · cases h
    simp
  · rename_i fields _ htags
    cases h
    rw [List.any_eq_true]
    refine exists_congr fun tag => and_congr_right fun _ => ?_
    rw [pyEq_str, htags]
    cases hget : Dict.get? fields tag.1 with
    | none => simp [hget]
    | some value => simp [hget]
  · cases h

/-- What one item of the listing does. -/
theorem addListed_cases {wanted : List (PyStr × PyStr)} {acc acc' : List PatchRequest × List Json}
    {item : QuiltPatchItem} (h : addListed wanted acc item = .ok acc') :
    (matchesTags wanted item.tags = .ok false ∧ acc' = acc) ∨
    matchesTags wanted item.tags = .ok true ∧
      ((∃ key ∈ acc.2, pyEq item.patchKey key = true) ∧ acc' = acc ∨
        (∀ key ∈ acc.2, pyEq item.patchKey key = false) ∧
          acc' = (acc.1 ++ [(item.patchKey, .byId item.patchId)], acc.2 ++ [item.patchKey])) := by
  obtain ⟨matched, hmatched, h⟩ := bind_eq_ok.mp h
  cases matched with
  | false =>
    cases h
    exact .inl ⟨hmatched, rfl⟩
  | true =>
    obtain ⟨seen, hseen, h⟩ := bind_eq_ok.mp h
    have hany : acc.2.any (pyEq item.patchKey) = seen := by
      unfold seenIn at hseen
      split at hseen
      · cases hseen
      · cases hseen
      · exact Except.ok.inj hseen
    refine .inr ⟨hmatched, ?_⟩
    cases seen with
    | true =>
      cases h
      exact .inl ⟨List.any_eq_true.mp hany, rfl⟩
    | false =>
      cases h
      exact .inr ⟨fun key hkey => by simpa using List.any_eq_false.mp hany key hkey, rfl⟩

/-- The loop over the listing. -/
theorem foldlM_addListed {repr : Json → String} {args : QuiltArgs}
    {wanted : List (PyStr × PyStr)} (hwanted : args.tags.mapM (parseTag repr) = .ok wanted)
    {named : List PatchRequest} {items : List QuiltPatchItem}
    {acc : List PatchRequest × List Json}
    (h : items.foldlM (addListed wanted) (named, named.map Prod.fst) = .ok acc) :
    ∃ listed, acc = (named ++ listed, (named ++ listed).map Prod.fst) ∧
      (∀ request ∈ listed, ∃ item ∈ items, Wanted args item ∧
        request = (item.patchKey, .byId item.patchId)) ∧
      (∀ item ∈ items, Wanted args item → ∃ request ∈ named ++ listed,
        request.1 = item.patchKey ∨ pyEq item.patchKey request.1 = true) ∧
      (listed.Pairwise fun other request => pyEq request.1 other.1 = false) ∧
      ∀ request ∈ listed, ∀ other ∈ named, pyEq request.1 other.1 = false := by
  induction items using List.reverseRecOn generalizing acc with
  | nil =>
    cases h
    exact ⟨[], by simp, by simp, by simp, .nil, by simp⟩
  | append_singleton items item ih =>
    obtain ⟨before, hbefore, hitem⟩ := foldlM_snoc_eq_ok.mp h
    obtain ⟨listed, rfl, sound, complete, once, fresh⟩ := ih hbefore
    have sound' : ∀ request ∈ listed, ∃ item' ∈ items ++ [item], Wanted args item' ∧
        request = (item'.patchKey, .byId item'.patchId) := fun request hrequest =>
      (sound request hrequest).imp fun _ h => ⟨List.mem_append_left _ h.1, h.2⟩
    -- What is complete so far stays so, and of the new item it is said by the cases.
    have extend (later : List PatchRequest)
        (hitem : Wanted args item → ∃ request ∈ named ++ (listed ++ later),
          request.1 = item.patchKey ∨ pyEq item.patchKey request.1 = true) :
        ∀ item' ∈ items ++ [item], Wanted args item' → ∃ request ∈ named ++ (listed ++ later),
          request.1 = item'.patchKey ∨ pyEq item'.patchKey request.1 = true := by
      intro item' hitem' hwants
      rcases List.mem_append.mp hitem' with hmem | hmem
      · obtain ⟨request, hrequest, hkey⟩ := complete item' hmem hwants
        refine ⟨request, ?_, hkey⟩
        rw [← List.append_assoc]
        exact List.mem_append_left _ hrequest
      · rw [List.mem_singleton.mp hmem] at hwants ⊢
        exact hitem hwants
    rcases addListed_cases hitem with ⟨hmatched, rfl⟩ | ⟨hmatched, ⟨hseen, rfl⟩ | ⟨hnew, rfl⟩⟩
    · refine ⟨listed, rfl, sound', ?_, once, fresh⟩
      simpa using extend [] fun hwants =>
        nomatch (matchesTags_eq_ok hwanted hmatched).mpr hwants
    · refine ⟨listed, rfl, sound', ?_, once, fresh⟩
      obtain ⟨key, hkey, heq⟩ := hseen
      obtain ⟨request, hrequest, rfl⟩ := List.mem_map.mp hkey
      simpa using extend [] fun _ => ⟨request, by simpa using hrequest, .inr heq⟩
    · refine ⟨listed ++ [(item.patchKey, .byId item.patchId)], by simp, ?_, ?_, ?_, ?_⟩
      · intro request hrequest
        rcases List.mem_append.mp hrequest with hmem | hmem
        · exact sound' request hmem
        · exact ⟨item, by simp, (matchesTags_eq_ok hwanted hmatched).mp rfl,
            List.mem_singleton.mp hmem⟩
      · exact extend _ fun _ => ⟨(item.patchKey, .byId item.patchId), by simp, .inl rfl⟩
      · refine List.pairwise_append.mpr ⟨once, List.pairwise_singleton _ _, ?_⟩
        intro other hother request hrequest
        rw [List.mem_singleton.mp hrequest]
        exact hnew _ (List.mem_map_of_mem (List.mem_append_right _ hother))
      · intro request hrequest other hother
        rcases List.mem_append.mp hrequest with hmem | hmem
        · exact fresh request hmem other hother
        · rw [List.mem_singleton.mp hmem]
          exact hnew _ (List.mem_map_of_mem (List.mem_append_left _ hother))

section Select

variable {δ : Type} {repr : Json → String} {agg : Aggregator} {args : QuiltArgs}

/-- What is selected is what was asked for. -/
theorem selectPatches_selects {requests : List PatchRequest}
    (h : (selectPatches repr agg args : QuiltReading δ _).result = .ok requests) :
    Selects agg args requests := by
  unfold selectPatches at h
  split at h
  · rename_i hids
    cases h
    exact .byId hids
  · rename_i hids
    have hids := not_not.mp hids
    dsimp only at h
    split at h
    · rename_i htags
      cases h
      exact .byKey hids htags
    · obtain ⟨_, -, h⟩ := Logged.result_bind_eq_ok.mp h
      obtain ⟨answer, hanswer, h⟩ := Logged.result_bind_eq_ok.mp h
      split at h
      · cases h
      · rename_i body
        have hbody := mapError_eq_ok.mp hanswer
        obtain ⟨items, hitems, h⟩ := bind_eq_ok.mp h
        obtain ⟨wanted, hwanted, h⟩ := bind_eq_ok.mp h
        obtain ⟨acc, hacc, h⟩ := bind_eq_ok.mp h
        obtain ⟨listed, rfl, sound, complete, once, fresh⟩ :=
          foldlM_addListed hwanted (mapError_eq_ok.mp hacc)
        cases h
        exact .tagged hids hbody (mapError_eq_ok.mp hitems) rfl sound complete once fresh

theorem not_emits_selectPatches :
    ¬ Logged.Emits QuiltSeen.isOutput
      (selectPatches repr agg args : QuiltReading δ (List PatchRequest)) := by
  unfold selectPatches
  split
  · simp
  · dsimp only
    split
    · simp
    · rw [Logged.emits_bind]
      rintro (h | ⟨_, -, h⟩)
      · cases Logged.emits_emit.mp h
      · rw [Logged.emits_bind] at h
        rcases h with h | ⟨answer, -, h⟩
        · exact Logged.emits_lift.mp h
        · cases answer with
          | error e => exact Logged.emits_raise.mp h
          | ok body => exact Logged.emits_lift.mp h

end Select

end Pytusk.Tusky
