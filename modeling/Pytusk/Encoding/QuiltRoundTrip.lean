import Pytusk.Encoding.QuiltReader

/-!
# Quilt round trip

What `assembleQuilt` packs, `readQuilt` unpacks: the patches in identifier
order with their tags and contents, and an index that names the columns each
of them is found in.
-/

namespace Pytusk.Quilt

open Pytusk.Lib Pytusk.Lib.Wire Pytusk.Lib.ColumnMajor

/-! ## Tags in canonical order -/

/-- The tags of a map, sorted by their serialized keys. -/
structure CanonicalTags (tags : Dict PyStr PyStr) (entries : List QuiltTagEntry) : Prop where
  same : (entries.map fun entry => (entry.key, entry.value)).Perm tags
  sorted : entries.Pairwise fun a b =>
    ∃ ka kb, tagSortKey a.key = .ok ka ∧ tagSortKey b.key = .ok kb ∧ ka ≤ kb

theorem sortedTagEntries_canonical {tags : Dict PyStr PyStr} {entries : List QuiltTagEntry}
    (h : sortedTagEntries tags = .ok entries) : CanonicalTags tags entries := by
  obtain ⟨keyed, hkeyed, heq⟩ := bind_eq_ok.mp h
  cases heq
  have hall := mapM_eq_ok.mp hkeyed
  -- each tag under its sort key
  have hitem : ∀ tag item, (do
      return (← tagSortKey tag.1, { key := tag.1, value := tag.2 : QuiltTagEntry }) :
        Except QuiltError _) = .ok item →
      (item.2.key, item.2.value) = tag ∧ tagSortKey item.2.key = .ok item.1 := by
    intro tag item hitem
    obtain ⟨key, hkey, heq⟩ := bind_eq_ok.mp hitem
    cases heq
    exact ⟨rfl, hkey⟩
  have hsame : keyed.map (fun item => (item.2.key, item.2.value)) = tags := by
    clear h hkeyed
    induction hall with
    | nil => rfl
    | cons hhead _ ih => rw [List.map_cons, ih, (hitem _ _ hhead).1]
  have hkey : ∀ item ∈ keyed, tagSortKey item.2.key = .ok item.1 := by
    intro item hmem
    obtain ⟨tag, _, htag⟩ := exists_of_mem_mapM hkeyed hmem
    exact (hitem tag item htag).2
  have hperm := List.perm_insertionSort (fun a b : List Nat × QuiltTagEntry => a.1 ≤ b.1) keyed
  constructor
  · rw [List.map_map, ← hsame]
    exact hperm.map _
  · rw [List.pairwise_map]
    have htotal : Std.Total (fun a b : List Nat × QuiltTagEntry => a.1 ≤ b.1) :=
      ⟨fun a b => le_total a.1 b.1⟩
    have htrans : IsTrans _ (fun a b : List Nat × QuiltTagEntry => a.1 ≤ b.1) :=
      ⟨fun _ _ _ => le_trans⟩
    have hsorted := List.pairwise_insertionSort
      (fun a b : List Nat × QuiltTagEntry => a.1 ≤ b.1) keyed
    refine hsorted.imp_of_mem ?_
    intro a b ha hb hle
    exact ⟨a.1, b.1, hkey a (hperm.mem_iff.mp ha), hkey b (hperm.mem_iff.mp hb), hle⟩

/-! ## One patch -/

/-- The record read for a patch holds what was packed. -/
structure RecoversPatch (patch : QuiltPatchInput) (record : PatchRecord) : Prop where
  identifier : record.identifier = patch.identifier
  contents : record.contents = patch.contents
  tags : CanonicalTags patch.tags record.tags
  mask : record.mask = if patch.tags = [] then 0 else hasTagsFlag
  payloadLength : ∃ identifierBytes tagBytes,
    stringBcs patch.identifier = .ok identifierBytes ∧
    inlineTags patch.tags = .ok tagBytes ∧
    record.payloadLength = 2 + identifierBytes.length + tagSectionSize tagBytes +
      patch.contents.length

/-- The identifier and the tags are read off the front of the payload. -/
theorem reads_sections {identifier : PyStr} {identifierBytes tagField : Bytes}
    {tags : Dict PyStr PyStr} {tagBytes : Option Bytes} {entries : List QuiltTagEntry}
    (hidentifier : stringBcs identifier = .ok identifierBytes)
    (hshort : identifierBytes.length < 256 ^ 2) (htags : inlineTags tags = .ok tagBytes)
    (hsection : tagSection tagBytes = .ok tagField)
    (hentries : sortedTagEntries tags = .ok entries) :
    Reads (readSections (if tagBytes.isSome then hasTagsFlag else 0))
      (LittleEndian.encode 2 identifierBytes.length ++ (identifierBytes ++ tagField))
      (identifier, entries) := by
  apply (reads_fixed hshort).bind
  apply (reads_take identifierBytes).bind
  have hread := (reads_stringBcs hidentifier).readAll
  rw [← List.nil_append tagField]
  apply (reads_lift hread).bind
  rcases inlineTags_cases htags with ⟨rfl, rfl⟩ | ⟨_, serialized, hserialized, rfl⟩
  · -- without tags the mask is clear and the section is empty
    cases hsection
    cases hentries
    exact Reads.pure _
  · obtain ⟨lengthField, hlength, heq⟩ := bind_eq_ok.mp hsection
    obtain ⟨hlt, rfl⟩ := toBytes_eq_ok.mp hlength
    cases heq
    obtain ⟨entries', hentries', hbcs⟩ := bind_eq_ok.mp hserialized
    obtain rfl : entries = entries' := Except.ok.inj (hentries.symm.trans hentries')
    have hvec := (reads_vectorBcs (fun _ _ => reads_tagEntryBcs) hbcs).readAll
    exact (reads_fixed hlt).bind ((reads_take serialized).bind_nil
      ((reads_lift hvec).bind_nil (Reads.pure _)))

theorem readPatch_ok {item : QuiltPatchInput × Bytes} {entries : List QuiltTagEntry}
    (hmeta : blobMetadata item.1 = .ok item.2)
    (hentries : sortedTagEntries item.1.tags = .ok entries) (n startIndex endIndex : Nat) :
    ∃ record, readPatch (patchBytes item ++ List.replicate n 0) startIndex endIndex =
        some record ∧
      record.startIndex = startIndex ∧ record.endIndex = endIndex ∧
      record.tags = entries ∧ RecoversPatch item.1 record := by
  obtain ⟨identifierBytes, tagBytes, tagField, payloadLength, hidentifier, htags, hsection,
    hsum, hlt, hshort, hbytes⟩ := blobMetadata_ok hmeta
  obtain ⟨mask, hmask⟩ : ∃ mask, (if tagBytes.isSome then hasTagsFlag else 0) = mask :=
    ⟨_, rfl⟩
  obtain ⟨payload, hpayload⟩ : ∃ payload, LittleEndian.encode 2 identifierBytes.length ++
    (identifierBytes ++ tagField) ++ item.1.contents = payload := ⟨_, rfl⟩
  have hsize : payload.length = payloadLength := by
    have := length_tagSection hsection
    rw [← hpayload, hsum]
    simp only [List.length_append, LittleEndian.length_encode]
    omega
  have hflag : mask = 0 ∨ mask = hasTagsFlag := by
    rw [← hmask]
    split
    · exact .inr rfl
    · exact .inl rfl
  -- header and payload
  have hheader : Reads readPatch.header (quiltVersionByte ::
      (LittleEndian.encode 4 payloadLength ++ (mask :: payload)))
      (payloadLength, mask, payload) := by
    have htake := reads_take payload
    rw [hsize] at htake
    exact (reads_byte quiltVersionByte).bind ((reads_expect rfl).bind
      ((reads_fixed hlt).bind ((reads_byte mask).bind ((reads_expect hflag).bind
        (htake.bind_nil (Reads.pure _))))))
  have hpatch : patchBytes item = quiltVersionByte ::
      (LittleEndian.encode 4 payloadLength ++ (mask :: payload)) := by
    rw [patchBytes, hbytes, hmask, ← hpayload]
    simp only [List.cons_append, List.append_assoc]
  have hsections := reads_sections hidentifier hshort htags hsection hentries
    item.1.contents
  rw [hmask, hpayload] at hsections
  have hzeros : (List.replicate n (0 : UInt8)).all (· = 0) = true := by simp
  let record : PatchRecord := {
    startIndex := startIndex
    endIndex := endIndex
    payloadLength := payloadLength
    mask := mask
    identifier := item.1.identifier
    tags := entries
    contents := item.1.contents }
  refine ⟨record, ?_, rfl, rfl, rfl, rfl, rfl, sortedTagEntries_canonical hentries, ?_,
    identifierBytes, tagBytes, hidentifier, htags, hsum⟩
  · rw [readPatch, hpatch, hheader]
    simp only [Option.bind_eq_bind, Option.bind_some, hsections, hzeros, if_true]
    rfl
  · -- the mask is set exactly when there are tags
    show mask = _
    rw [← hmask]
    rcases inlineTags_cases htags with ⟨hempty, rfl⟩ | ⟨hne, _, _, rfl⟩
    · rw [if_pos hempty]
      rfl
    · rw [if_neg hne]
      rfl

/-! ## All patches -/

/-- The index entry that points at a record. -/
def PatchRecord.entry (record : PatchRecord) : QuiltPatchV1 :=
  { endIndex := record.endIndex, identifier := record.identifier, tags := record.tags }

/-- Going through the index from the column where the first patch starts. -/
theorem readPatches_ok {columnSize : Nat} (hpos : 0 < columnSize) (hlt : columnSize < 2 ^ 63)
    {items : List (QuiltPatchInput × Bytes)} {index : List QuiltPatchV1} {column : Nat}
    {before after : Bytes} (hmeta : ∀ item ∈ items, blobMetadata item.1 = .ok item.2)
    (hindex : (layoutsFrom columnSize column items).mapM QuiltPatchV1.fromLayout = .ok index)
    (hbefore : before.length = column * columnSize) :
    ∃ records, readPatches (before ++ items.flatMap (padded columnSize ∘ patchBytes) ++ after)
        columnSize column index = some records ∧
      List.Forall₂ (fun item record => RecoversPatch item.1 record) items records ∧
      index = records.map PatchRecord.entry ∧
      (layoutsFrom columnSize column items).map
          (fun layout => (layout.identifier, layout.startIndex, layout.endIndex)) =
        records.map fun record =>
          (record.identifier, record.startIndex, record.endIndex) := by
  induction items generalizing index column before with
  | nil =>
    cases hindex
    exact ⟨[], rfl, .nil, rfl, rfl⟩
  | cons item rest ih =>
    obtain ⟨hhead, hmeta⟩ := List.forall_mem_cons.mp hmeta
    obtain ⟨taken, htaken⟩ : ∃ taken, patchColumns columnSize item = taken := ⟨_, rfl⟩
    rw [layoutsFrom, htaken, List.mapM_cons] at hindex
    obtain ⟨entry, hentry, hindex⟩ := bind_eq_ok.mp hindex
    obtain ⟨index', hindex', heq⟩ := bind_eq_ok.mp hindex
    cases heq
    obtain ⟨entries, hentries, heq⟩ := bind_eq_ok.mp hentry
    cases heq
    have hsize := length_padded (length_patchBytes_lt hhead) hpos hlt
    change _ = patchColumns columnSize item * columnSize at hsize
    rw [htaken] at hsize
    have hend : (before ++ padded columnSize (patchBytes item)).length =
        (column + taken) * columnSize := by
      rw [List.length_append, hbefore, hsize, Nat.add_mul]
    obtain ⟨records, hrun, hall, hentries', hlayouts⟩ := ih hmeta hindex' hend
    obtain ⟨record, hrecord, hstart, hstop, htags, hrecovers⟩ := readPatch_ok hhead hentries
      (taken * columnSize - (patchBytes item).length) column (column + taken)
    refine ⟨record :: records, ?_, .cons hrecovers hall, ?_, ?_⟩
    · -- the range of the patch is its padded block
      have hblock : padded columnSize (patchBytes item) = patchBytes item ++
          List.replicate (taken * columnSize - (patchBytes item).length) 0 := by
        rw [← htaken]
        rfl
      have hstream : before ++ (item :: rest).flatMap (padded columnSize ∘ patchBytes) ++ after =
          before ++ (padded columnSize (patchBytes item) ++
            (rest.flatMap (padded columnSize ∘ patchBytes) ++ after)) := by
        simp only [List.flatMap_cons, Function.comp_apply, List.append_assoc]
      have hrange : ((before ++ (padded columnSize (patchBytes item) ++
          (rest.flatMap (padded columnSize ∘ patchBytes) ++ after))).drop
            (column * columnSize)).take ((column + taken - column) * columnSize) =
          padded columnSize (patchBytes item) := by
        rw [Nat.add_sub_cancel_left, ← hbefore, ← hsize, List.drop_left, List.take_left]
      rw [← hblock, ← hrange] at hrecord
      rw [List.append_assoc, List.append_assoc] at hrun
      rw [hstream]
      simp only [readPatches, hrecord, hrun, Option.bind_eq_bind, Option.bind_some]
      rfl
    · rw [List.map_cons, ← hentries']
      congr 1
      rw [PatchRecord.entry, hstop, htags, hrecovers.identifier]
    · rw [layoutsFrom, List.map_cons, List.map_cons, htaken, hlayouts, hstart, hstop,
        hrecovers.identifier]

/-! ## The whole quilt -/

/-- What reading a quilt back gives for the patches it was assembled from. -/
structure Recovers (patches : List QuiltPatchInput) (quilt : AssembledQuilt)
    (nShards : Int) (recovered : RecoveredQuilt) : Prop where
  ordered : (recovered.patches.map (·.identifier)).Pairwise (· < ·)
  patches : ∃ ordered, ordered.Perm patches ∧
    List.Forall₂ RecoversPatch ordered recovered.patches
  index : recovered.index = recovered.patches.map PatchRecord.entry
  /-- the quilt starts with the index blob -/
  indexBytes : ∃ bytes rest, quiltIndexV1 recovered.index = .ok bytes ∧
    bytes.length < 256 ^ 4 ∧
    (quiltShape quilt.data.length nShards).columns quilt.data = indexBlob bytes ++ rest
  layouts : quilt.patches.map
      (fun layout => (layout.identifier, layout.startIndex, layout.endIndex)) =
    recovered.patches.map fun record =>
      (record.identifier, record.startIndex, record.endIndex)

theorem map_identifier_of_recovers {patches : List QuiltPatchInput}
    {records : List PatchRecord} (h : List.Forall₂ RecoversPatch patches records) :
    records.map (·.identifier) = patches.map (·.identifier) := by
  induction h with
  | nil => rfl
  | cons hhead _ ih => rw [List.map_cons, List.map_cons, hhead.identifier, ih]

theorem pairwise_sortedByIdentifier {patches : List QuiltPatchInput}
    (h : ((sortedByIdentifier patches).map (·.identifier)).Nodup) :
    ((sortedByIdentifier patches).map (·.identifier)).Pairwise (· < ·) := by
  have htotal : Std.Total (fun a b : QuiltPatchInput => a.identifier ≤ b.identifier) :=
    ⟨fun a b => le_total a.identifier b.identifier⟩
  have htrans : IsTrans _ (fun a b : QuiltPatchInput => a.identifier ≤ b.identifier) :=
    ⟨fun _ _ _ => le_trans⟩
  have hsorted : ((sortedByIdentifier patches).map (·.identifier)).Pairwise (· ≤ ·) := by
    rw [List.pairwise_map]
    exact List.pairwise_insertionSort _ patches
  refine (hsorted.and h).imp ?_
  intro a b hab
  exact lt_of_le_of_ne hab.1 hab.2

/-- **Quilt round trip.** Whatever patches and shard count assembly accepts,
reading the quilt gives the patches back in identifier order, from the
columns that the returned layouts name. -/
theorem assembleQuilt_roundTrip (patches : List QuiltPatchInput) (nShards : Int)
    (quilt : AssembledQuilt) (h : assembleQuilt patches nShards = .ok quilt) :
    ∃ recovered, readQuilt quilt.data nShards = some recovered ∧
      Recovers patches quilt nShards recovered := by
  obtain ⟨items, index, indexBytes, g, hitems, layout⟩ := assembleQuilt_layout h
  obtain ⟨n, hcolumns⟩ := layout.columns_eq
  have hsize : (indexBlob indexBytes).length = quiltIndexPrefixSize + indexBytes.length := by
    rw [indexBlob, List.length_append, List.length_cons, LittleEndian.length_encode]
    rfl
  have hsmall : (indexBlob indexBytes).length < 2 ^ 53 := by
    have := layout.indexBytes_lt
    rw [hsize, quiltIndexPrefixSize]
    omega
  -- the index, then the patches behind its columns
  have hindex := reads_indexBlob layout.indexBytes_eq layout.indexBytes_lt
  have hpatches := layout.index_eq
  rw [layout.patches_eq] at hpatches
  obtain ⟨records, hread, hall, hentries, hlayouts⟩ := readPatches_ok
    layout.columnSize_pos layout.columnSize_lt layout.metadata hpatches
    (length_padded hsmall layout.columnSize_pos layout.columnSize_lt)
  obtain ⟨tail, htail⟩ : ∃ tail,
      g.columns quilt.data = indexBlob indexBytes ++ tail := by
    rw [hcolumns, padded, List.append_assoc, List.append_assoc]
    exact ⟨_, rfl⟩
  have hrecords : readQuilt quilt.data nShards =
      some { index := index, patches := records } := by
    have hrun : readIndexBlob.run (g.columns quilt.data) =
        some ((indexBytes.length, index), tail) := by
      rw [htail]
      exact hindex tail
    have hfirst : mathCeil (indexBlob indexBytes).length g.columnSize =
        (quiltIndexPrefixSize + indexBytes.length) ⌈/⌉ g.columnSize := by
      rw [mathCeil_eq_ceilDiv hsmall layout.columnSize_pos layout.columnSize_lt, hsize]
    rw [hfirst, ← hcolumns] at hread
    simp only [readQuilt, layout.shape, hrun, Option.bind_eq_bind, Option.bind_some, hread]
    rfl
  -- the records are those of the sorted patches
  have hordered : List.Forall₂ RecoversPatch (sortedByIdentifier patches) records := by
    rw [← hitems]
    exact List.forall₂_map_left_iff.mpr hall
  have hnodup : ((sortedByIdentifier patches).map (·.identifier)).Nodup := by
    rw [← hitems, List.map_map]
    exact layout.nodup
  refine ⟨_, hrecords, ?_, ⟨_, List.perm_insertionSort _ patches, hordered⟩, hentries, ?_, ?_⟩
  · rw [map_identifier_of_recovers hordered]
    exact pairwise_sortedByIdentifier hnodup
  · refine ⟨indexBytes, tail, layout.indexBytes_eq, layout.indexBytes_lt, ?_⟩
    rw [layout.shape, htail]
  · rw [layout.patches_eq, hlayouts]

/-- Two patches, listed out of order, one of them with a tag. -/
private def demoPatches : List QuiltPatchInput :=
  [{ identifier := [98], contents := [1, 2, 3], tags := [([97], [98])] },
   { identifier := [97], contents := [9, 8] }]

theorem assembleQuilt_roundTrip_twoPatches :
    ∃ quilt recovered, assembleQuilt demoPatches 7 = .ok quilt ∧
      readQuilt quilt.data 7 = some recovered ∧
      Recovers demoPatches quilt 7 recovered := by
  obtain ⟨quilt, hquilt⟩ : ∃ quilt, assembleQuilt demoPatches 7 = .ok quilt := ⟨_, rfl⟩
  obtain ⟨recovered, hread, hrecovers⟩ := assembleQuilt_roundTrip demoPatches 7 quilt hquilt
  exact ⟨quilt, recovered, hquilt, hread, hrecovers⟩

end Pytusk.Quilt
