import Pytusk.Encoding.QuiltRoundTrip
import Pytusk.Encoding.QuiltStages

/-!
# The layout is a function of the batch

A batch is a list of patches up to its order, each of them with a map of tags
up to insertion order. Assembly sorts the patches by identifier and the tags
by their serialized keys; both orders are total on what they sort, so every
listing of one batch gives the same bytes and the same ranges, or the same
error.
-/

namespace Pytusk.Quilt

open Pytusk.Lib Pytusk.Lib.Wire

/-! ## Tags in any order -/

/-- Different keys are sorted by different bytes. -/
theorem tagSortKey_inj {a b : PyStr} {key : List Nat} (ha : tagSortKey a = .ok key)
    (hb : tagSortKey b = .ok key) : a = b := by
  obtain ⟨bytes, hbytes, heq⟩ := bind_eq_ok.mp ha
  obtain ⟨bytes', hbytes', heq'⟩ := bind_eq_ok.mp hb
  have hsame : bytes = bytes' := by
    apply List.map_injective_iff.mpr (fun x y => UInt8.toNat.inj)
    exact Except.ok.inj (heq.trans heq'.symm)
  have hread := (reads_stringBcs hbytes).readAll
  rw [hsame, (reads_stringBcs hbytes').readAll] at hread
  exact (Option.some.inj hread).symm

/-- A tag under its sort key. -/
def keyedTag (tag : PyStr × PyStr) : Except QuiltError (List Nat × QuiltTagEntry) := do
  return (← tagSortKey tag.1, { key := tag.1, value := tag.2 : QuiltTagEntry })

theorem sortedTagEntries_eq (tags : Dict PyStr PyStr) : sortedTagEntries tags = (do
    let keyed ← tags.mapM keyedTag
    return (keyed.insertionSort fun a b => a.1 ≤ b.1).map Prod.snd) := rfl

theorem keyedTag_ok {tag : PyStr × PyStr} {item : List Nat × QuiltTagEntry}
    (h : keyedTag tag = .ok item) :
    tagSortKey tag.1 = .ok item.1 ∧ item.2 = { key := tag.1, value := tag.2 } := by
  obtain ⟨key, hkey, heq⟩ := bind_eq_ok.mp h
  cases heq
  exact ⟨hkey, rfl⟩

theorem mapM_keyedTag_eq_error {tags : Dict PyStr PyStr} {e : QuiltError}
    (h : tags.mapM keyedTag = .error e) :
    e = .unicodeEncodeError ∧ ∃ tag ∈ tags, keyedTag tag = .error .unicodeEncodeError := by
  have honly : ∀ tag, OnlyRaises (· = QuiltError.unicodeEncodeError) (keyedTag tag) :=
    fun tag => ((onlyRaises_stringBcs tag.1).bind fun _ _ => onlyRaises_ok _).bind
      fun _ _ => onlyRaises_ok _
  obtain ⟨before, tag, after, rfl, -, htag⟩ := mapM_eq_error.mp h
  obtain rfl := honly tag e htag
  exact ⟨rfl, tag, by simp, htag⟩

/-- The insertion order of a map leaves no trace in its sorted entries. -/
theorem sortedTagEntries_perm {tags tags' : Dict PyStr PyStr}
    (hnodup : (Dict.keys tags).Nodup) (h : tags.Perm tags') :
    sortedTagEntries tags = sortedTagEntries tags' := by
  rw [sortedTagEntries_eq, sortedTagEntries_eq]
  cases hkeyed : tags.mapM keyedTag with
  | error e =>
    obtain ⟨rfl, tag, htag, hfail⟩ := mapM_keyedTag_eq_error hkeyed
    cases hkeyed' : tags'.mapM keyedTag with
    | error e' => rw [(mapM_keyedTag_eq_error hkeyed').1]
    | ok keyed' =>
      obtain ⟨_, -, hok⟩ := exists_mem_of_mapM hkeyed' (h.mem_iff.mp htag)
      rw [hfail] at hok
      cases hok
  | ok keyed =>
    obtain ⟨keyed', hall', hperm⟩ :=
      List.perm_comp_forall₂ h.symm (mapM_eq_ok.mp hkeyed)
    rw [mapM_eq_ok.mpr hall', ok_bind, ok_bind]
    have htotal : Std.Total (fun a b : List Nat × QuiltTagEntry => a.1 ≤ b.1) :=
      ⟨fun a b => le_total a.1 b.1⟩
    have htrans : IsTrans _ (fun a b : List Nat × QuiltTagEntry => a.1 ≤ b.1) :=
      ⟨fun _ _ _ => le_trans⟩
    have hsorted : keyed.insertionSort (fun a b => a.1 ≤ b.1) =
        keyed'.insertionSort (fun a b => a.1 ≤ b.1) := by
      apply List.Perm.eq_of_pairwise _ (List.pairwise_insertionSort _ keyed)
        (List.pairwise_insertionSort _ keyed')
      · exact (List.perm_insertionSort _ keyed).trans
          (hperm.symm.trans (List.perm_insertionSort _ keyed').symm)
      -- entries with one sort key are one tag, since the map has one for each key
      intro a b ha hb hab hba
      have ha := (List.perm_insertionSort _ keyed).mem_iff.mp ha
      have hb := hperm.mem_iff.mp ((List.perm_insertionSort _ keyed').mem_iff.mp hb)
      obtain ⟨⟨key, value⟩, htag, hitem⟩ := exists_of_mem_mapM hkeyed ha
      obtain ⟨⟨key', value'⟩, htag', hitem'⟩ := exists_of_mem_mapM hkeyed hb
      obtain ⟨hkey, hentry⟩ := keyedTag_ok hitem
      obtain ⟨hkey', hentry'⟩ := keyedTag_ok hitem'
      have heq : a.1 = b.1 := le_antisymm hab hba
      rw [← heq] at hkey'
      obtain rfl : key = key' := tagSortKey_inj hkey hkey'
      obtain rfl : value = value' :=
        congrArg Prod.snd (List.inj_on_of_nodup_map hnodup htag htag' rfl)
      exact Prod.ext heq (hentry.trans hentry'.symm)
    rw [hsorted]

/-! ## The same batch -/

/-- A patch with its tags in another insertion order. -/
structure SamePatch (a b : QuiltPatchInput) : Prop where
  identifier : a.identifier = b.identifier
  contents : a.contents = b.contents
  tags : a.tags.Perm b.tags

/-- The patches in another order, each with its tags in another order. -/
def SameBatch (patches patches' : List QuiltPatchInput) : Prop :=
  ∃ listed, patches.Perm listed ∧ List.Forall₂ SamePatch listed patches'

namespace SamePatch

variable {a b : QuiltPatchInput}

theorem sortedTagEntries_eq (h : SamePatch a b) :
    sortedTagEntries a.tags = sortedTagEntries b.tags :=
  sortedTagEntries_perm a.tags_nodup h.tags

theorem blobMetadata_eq (h : SamePatch a b) : blobMetadata a = blobMetadata b := by
  have hempty : a.tags = [] ↔ b.tags = [] := by
    rw [← List.length_eq_zero_iff, ← List.length_eq_zero_iff, h.tags.length_eq]
  have htags : inlineTags a.tags = inlineTags b.tags := by
    simp only [inlineTags, hempty, serializeTags, h.sortedTagEntries_eq]
  simp only [blobMetadata, h.identifier, h.contents, htags]

theorem placeholderEntry_eq (h : SamePatch a b) : placeholderEntry a = placeholderEntry b := by
  simp only [placeholderEntry, h.identifier, h.sortedTagEntries_eq]

end SamePatch

/-! ## The checks -/

theorem checkIdentifiers_congr {seen : List PyStr} {patches patches' : List QuiltPatchInput}
    (h : patches.map (·.identifier) = patches'.map (·.identifier)) :
    checkIdentifiers seen patches = checkIdentifiers seen patches' := by
  induction patches generalizing seen patches' with
  | nil =>
    rw [List.map_nil, eq_comm, List.map_eq_nil_iff] at h
    rw [h]
  | cons patch rest ih =>
    cases patches' with
    | nil => cases h
    | cons patch' rest' =>
      obtain ⟨hhead, hrest⟩ := List.cons_eq_cons.mp h
      have hhead : patch.identifier = patch'.identifier := hhead
      rw [checkIdentifiers, checkIdentifiers, hhead, ih hrest]

theorem map_identifier_of_same {patches patches' : List QuiltPatchInput}
    (h : List.Forall₂ SamePatch patches patches') :
    patches.map (·.identifier) = patches'.map (·.identifier) := by
  induction h with
  | nil => rfl
  | cons hhead _ ih => rw [List.map_cons, List.map_cons, hhead.identifier, ih]

theorem perm_sortedByIdentifier (patches : List QuiltPatchInput) :
    (sortedByIdentifier patches).Perm patches := List.perm_insertionSort _ patches

theorem pairwise_le_sortedByIdentifier (patches : List QuiltPatchInput) :
    (sortedByIdentifier patches).Pairwise fun a b => a.identifier ≤ b.identifier := by
  have htotal : Std.Total (fun a b : QuiltPatchInput => a.identifier ≤ b.identifier) :=
    ⟨fun a b => le_total a.identifier b.identifier⟩
  have htrans : IsTrans _ (fun a b : QuiltPatchInput => a.identifier ≤ b.identifier) :=
    ⟨fun _ _ _ => le_trans⟩
  exact List.pairwise_insertionSort _ patches

/-- Both listings have one sequence of identifiers, repeated ones included. -/
theorem SameBatch.identifiers {patches patches' : List QuiltPatchInput}
    (h : SameBatch patches patches') :
    (sortedByIdentifier patches).map (·.identifier) =
      (sortedByIdentifier patches').map (·.identifier) := by
  obtain ⟨listed, hperm, hsame⟩ := h
  have hsorted := fun ps : List QuiltPatchInput =>
    List.pairwise_map.mpr (pairwise_le_sortedByIdentifier ps)
  apply List.Perm.eq_of_pairwise (fun _ _ _ _ => le_antisymm) (hsorted patches)
    (hsorted patches')
  have hlisted : (sortedByIdentifier patches).Perm listed :=
    (perm_sortedByIdentifier patches).trans hperm
  refine (hlisted.map _).trans ?_
  rw [map_identifier_of_same hsame]
  exact (perm_sortedByIdentifier patches').symm.map _

/-- Without repeated identifiers the sorted patches agree one by one. -/
theorem SameBatch.sorted {patches patches' : List QuiltPatchInput}
    (h : SameBatch patches patches')
    (hnodup : ((sortedByIdentifier patches).map (·.identifier)).Nodup) :
    List.Forall₂ SamePatch (sortedByIdentifier patches) (sortedByIdentifier patches') := by
  have hids := h.identifiers
  obtain ⟨listed, hperm, hsame⟩ := h
  obtain ⟨found, hall, hfound⟩ := List.perm_comp_forall₂
    ((perm_sortedByIdentifier patches).trans hperm) hsame
  change List.Forall₂ SamePatch (sortedByIdentifier patches) found at hall
  have hfoundIds := map_identifier_of_same hall
  have hmatch : found = sortedByIdentifier patches' := by
    have hstrict := pairwise_sortedByIdentifier hnodup
    have hstrict' : found.Pairwise fun a b => a.identifier < b.identifier := by
      rwa [← List.pairwise_map, ← hfoundIds]
    have hstrict'' : (sortedByIdentifier patches').Pairwise
        fun a b => a.identifier < b.identifier := by
      rwa [← List.pairwise_map, ← hids]
    refine List.Perm.eq_of_pairwise ?_ hstrict' hstrict''
      (hfound.trans (perm_sortedByIdentifier patches').symm)
    intro a b _ _ hab hba
    exact absurd (hab.trans hba) (lt_irrefl _)
  rwa [← hmatch]

/-! ## Packing -/

/-- The same patch under the same metadata. -/
structure SameItem (a b : QuiltPatchInput × Bytes) : Prop where
  patch : SamePatch a.1 b.1
  inline : a.2 = b.2

/-- One range of one patch, whose tags may be listed in another order. -/
structure SameLayout (a b : QuiltPatchLayout) : Prop where
  identifier : a.identifier = b.identifier
  startIndex : a.startIndex = b.startIndex
  endIndex : a.endIndex = b.endIndex
  tags : a.tags.Perm b.tags
  tags_nodup : (Dict.keys a.tags).Nodup

/-- The same bytes under the same ranges. -/
structure SameQuilt (a b : AssembledQuilt) : Prop where
  data : a.data = b.data
  patches : List.Forall₂ SameLayout a.patches b.patches
  nShards : a.nShards = b.nShards

theorem SameLayout.fromLayout_eq {a b : QuiltPatchLayout} (h : SameLayout a b) :
    QuiltPatchV1.fromLayout a = QuiltPatchV1.fromLayout b := by
  simp only [QuiltPatchV1.fromLayout, h.identifier, h.endIndex,
    sortedTagEntries_perm h.tags_nodup h.tags]

section Packing

variable {items items' : List (QuiltPatchInput × Bytes)}

theorem sameItem_zip {patches patches' : List QuiltPatchInput}
    (h : List.Forall₂ SamePatch patches patches') (metadata : List Bytes) :
    List.Forall₂ SameItem (patches.zip metadata) (patches'.zip metadata) := by
  induction h generalizing metadata with
  | nil => exact .nil
  | cons hhead _ ih =>
    cases metadata with
    | nil => exact .nil
    | cons inline metadata => exact .cons ⟨hhead, rfl⟩ (ih metadata)

theorem blobSizesOf_congr (h : List.Forall₂ SameItem items items') (indexSize : Nat) :
    blobSizesOf indexSize items = blobSizesOf indexSize items' := by
  have hsizes : items.map (fun item => item.2.length + item.1.contents.length) =
      items'.map (fun item => item.2.length + item.1.contents.length) := by
    induction h with
    | nil => rfl
    | @cons item item' _ _ hhead _ ih =>
      have hsize : item.2.length + item.1.contents.length =
          item'.2.length + item'.1.contents.length := by
        rw [hhead.inline, hhead.patch.contents]
      exact List.cons_eq_cons.mpr ⟨hsize, ih⟩
  exact congrArg (indexSize :: ·) hsizes

theorem writePatches_same (h : List.Forall₂ SameItem items items')
    (rowSize columnSize symbolSize : Nat) (quilt : Bytes) (column : Nat) :
    SameOutcome (fun a b => a.1 = b.1 ∧ List.Forall₂ SameLayout a.2 b.2)
      (writePatches rowSize columnSize symbolSize quilt column items)
      (writePatches rowSize columnSize symbolSize quilt column items') := by
  induction h generalizing quilt column with
  | nil => exact .ok ⟨rfl, .nil⟩
  | @cons item item' rest rest' hhead _ ih =>
    obtain ⟨patch, metadata⟩ := item
    obtain ⟨patch', metadata'⟩ := item'
    obtain ⟨hpatch, rfl⟩ := hhead
    have hcontents : patch.contents = patch'.contents := hpatch.contents
    rw [writePatches, writePatches, hcontents]
    refine .bind_left fun written => (ih _ _).bind ?_
    rintro ⟨quilt₁, layouts⟩ ⟨quilt₂, layouts'⟩ ⟨rfl, hlayouts⟩
    exact .ok ⟨rfl, .cons ⟨hpatch.identifier, rfl, rfl, hpatch.tags, patch.tags_nodup⟩
      hlayouts⟩

theorem sealQuilt_same {layouts layouts' : List QuiltPatchLayout}
    (h : List.Forall₂ SameLayout layouts layouts')
    (rowSize columnSize symbolSize indexSize : Nat) (nShards : Int) (quilt : Bytes) :
    SameOutcome SameQuilt
      (sealQuilt rowSize columnSize symbolSize indexSize nShards quilt layouts)
      (sealQuilt rowSize columnSize symbolSize indexSize nShards quilt layouts') := by
  have hentries : layouts.mapM QuiltPatchV1.fromLayout =
      layouts'.mapM QuiltPatchV1.fromLayout :=
    mapM_congr_of_forall₂ (h.imp fun _ _ => SameLayout.fromLayout_eq)
  rw [sealQuilt, sealQuilt, hentries]
  refine .bind_left fun index => .bind_left fun indexBytes => .bind_left fun lengthField =>
    .bind_left fun _ => .bind_left fun written => ?_
  exact .ok ⟨rfl, h, rfl⟩

theorem packItems_same (h : List.Forall₂ SameItem items items') (indexSize : Nat)
    (nShards : Int) :
    SameOutcome SameQuilt (packItems items indexSize nShards)
      (packItems items' indexSize nShards) := by
  rw [packItems, packItems, blobSizesOf_congr h]
  refine .bind_left fun symbolSize => .bind_left fun _ => .bind_left fun quilt =>
    (writePatches_same h _ _ _ _ _).bind ?_
  rintro ⟨quilt₁, layouts⟩ ⟨quilt₂, layouts'⟩ ⟨rfl, hlayouts⟩
  exact sealQuilt_same hlayouts _ _ _ _ _ _

end Packing

/-- **The layout is a function of the batch.** -/
theorem assembleQuilt_sameBatch (patches patches' : List QuiltPatchInput)
    (h : SameBatch patches patches') (nShards : Int) :
    SameOutcome SameQuilt (assembleQuilt patches nShards) (assembleQuilt patches' nShards) := by
  have hempty : patches = [] ↔ patches' = [] := by
    obtain ⟨listed, hperm, hsame⟩ := h
    rw [← List.length_eq_zero_iff, ← List.length_eq_zero_iff, hperm.length_eq,
      hsame.length_eq]
  rw [assembleQuilt_eq, assembleQuilt_eq]
  simp only [hempty, checkIdentifiers_congr h.identifiers]
  refine .bind_left fun _ => ?_
  cases hcheck : checkIdentifiers [] (sortedByIdentifier patches') with
  | error e => exact .error e
  | ok _ =>
    rw [← checkIdentifiers_congr h.identifiers] at hcheck
    have hsorted := h.sorted (checkIdentifiers_ok hcheck).1
    have hmetadata : (sortedByIdentifier patches).mapM blobMetadata =
        (sortedByIdentifier patches').mapM blobMetadata :=
      mapM_congr_of_forall₂ (hsorted.imp fun _ _ => SamePatch.blobMetadata_eq)
    have hplaceholder : (sortedByIdentifier patches).mapM placeholderEntry =
        (sortedByIdentifier patches').mapM placeholderEntry :=
      mapM_congr_of_forall₂ (hsorted.imp fun _ _ => SamePatch.placeholderEntry_eq)
    rw [hmetadata, hplaceholder]
    refine .bind_left fun _ => .bind_left fun metadata => .bind_left fun entries =>
      .bind_left fun placeholder => ?_
    exact packItems_same (sameItem_zip hsorted metadata) _ _

private theorem nodup_noTags : (Dict.keys ([] : Dict PyStr PyStr)).Nodup := List.nodup_nil

private def plainPatch : QuiltPatchInput where
  identifier := [98]
  contents := [1, 2, 3]
  tags_nodup := nodup_noTags

/-- A patch whose two tags may come in either order. -/
private def taggedPatch (swapped : Bool) : QuiltPatchInput :=
  if swapped then
    { identifier := [97], contents := [9], tags := [([98], [2]), ([97, 97], [1])] }
  else { identifier := [97], contents := [9], tags := [([97, 97], [1]), ([98], [2])] }

theorem assembleQuilt_sameBatch_twoPatches :
    SameOutcome SameQuilt (assembleQuilt [plainPatch, taggedPatch false] 7)
      (assembleQuilt [taggedPatch true, plainPatch] 7) := by
  apply assembleQuilt_sameBatch
  exact ⟨_, List.Perm.swap _ _ _, .cons ⟨rfl, rfl, List.Perm.swap _ _ _⟩
    (.cons ⟨rfl, rfl, List.Perm.refl _⟩ .nil)⟩

end Pytusk.Quilt
