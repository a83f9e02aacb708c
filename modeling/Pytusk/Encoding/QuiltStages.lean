import Pytusk.Encoding.SymbolSize

/-!
# The stages of assembly, and what each of them raises

`assembleQuilt` cut into its checks, the sizing and writing of the patches
(`packItems`) and the index that is written last (`sealQuilt`). Each stage
has one lemma for the errors it can raise, and the two later stages have their
outcome as a function of what the earlier ones left.
-/

namespace Pytusk.Quilt

open Pytusk.Lib Pytusk.Lib.ColumnMajor

/-! ## Cutting assembly -/

/-- `blob_sizes` -/
def blobSizesOf (indexSize : Nat) (items : List (QuiltPatchInput × Bytes)) : List Nat :=
  indexSize :: items.map fun (patch, inline) => inline.length + patch.contents.length

/-- From the finished layouts on. -/
def sealQuilt (rowSize columnSize symbolSize indexSize : Nat) (nShards : Int)
    (quilt : Bytes) (layouts : List QuiltPatchLayout) : Except QuiltError AssembledQuilt := do
  let indexBytes ← quiltIndexV1 (← layouts.mapM QuiltPatchV1.fromLayout)
  let indexBlob := quiltVersionByte :: (← toBytes 4 indexBytes.length) ++ indexBytes
  raiseIf (indexBlob.length ≠ indexSize) (.indexSizeChanged indexSize indexBlob.length)
  let (quilt, _) ← writeBlobToQuilt quilt indexBlob rowSize columnSize symbolSize 0
  return { data := quilt, patches := layouts, nShards := nShards }

/-- From the sizes on. -/
def packItems (items : List (QuiltPatchInput × Bytes)) (indexSize : Nat) (nShards : Int) :
    Except QuiltError AssembledQuilt := do
  let nRows := (Redstuff.sourceSymbolCounts nShards).1
  let nColumns := (Redstuff.sourceSymbolCounts nShards).2
  let symbolSize ← computeSymbolSize (blobSizesOf indexSize items) nColumns nRows
  let rowSize := symbolSize * nColumns.toNat
  let columnSize := symbolSize * nRows.toNat
  let indexColumns := mathCeil indexSize columnSize
  raiseIf (indexColumns > maxNumSliversForQuiltIndex) (.indexTooWide indexColumns)
  let quilt ← bytearray (rowSize * nRows.toNat)
  let (quilt, layouts) ← writePatches rowSize columnSize symbolSize quilt indexColumns items
  sealQuilt rowSize columnSize symbolSize indexSize nShards quilt layouts

theorem assembleQuilt_eq (patches : List QuiltPatchInput) (nShards : Int) :
    assembleQuilt patches nShards = (do
      raiseIf (patches = []) .noPatches
      checkIdentifiers [] (sortedByIdentifier patches)
      let metadata ← (sortedByIdentifier patches).mapM blobMetadata
      let placeholder ← quiltIndexV1 (← (sortedByIdentifier patches).mapM placeholderEntry)
      packItems ((sortedByIdentifier patches).zip metadata)
        (quiltIndexPrefixSize + placeholder.length) nShards) := rfl

/-! ## Serializing -/

theorem onlyRaises_stringBcs (s : PyStr) :
    OnlyRaises (· = .unicodeEncodeError) (stringBcs s) := by
  unfold stringBcs
  split
  · exact onlyRaises_error rfl
  · exact onlyRaises_ok _

theorem onlyRaises_vectorBcs {α : Type} {P : QuiltError → Prop}
    {element : α → Except QuiltError Bytes} {xs : List α}
    (h : ∀ x ∈ xs, OnlyRaises P (element x)) : OnlyRaises P (vectorBcs element xs) :=
  (OnlyRaises.mapM h).bind fun _ _ => onlyRaises_ok _

theorem onlyRaises_tagEntryBcs (entry : QuiltTagEntry) :
    OnlyRaises (· = .unicodeEncodeError) entry.bcs :=
  (onlyRaises_stringBcs entry.key).bind fun _ _ =>
    (onlyRaises_stringBcs entry.value).bind fun _ _ => onlyRaises_ok _

theorem onlyRaises_sortedTagEntries (tags : Dict PyStr PyStr) :
    OnlyRaises (· = .unicodeEncodeError) (sortedTagEntries tags) := by
  refine (OnlyRaises.mapM fun tag _ => ?_).bind fun _ _ => onlyRaises_ok _
  exact ((onlyRaises_stringBcs tag.1).bind fun _ _ => onlyRaises_ok _).bind
    fun _ _ => onlyRaises_ok _

theorem onlyRaises_inlineTags (tags : Dict PyStr PyStr) :
    OnlyRaises (· = .unicodeEncodeError) (inlineTags tags) := by
  unfold inlineTags
  split
  · exact onlyRaises_ok _
  · have hserialize : OnlyRaises (· = .unicodeEncodeError) (serializeTags tags) :=
      (onlyRaises_sortedTagEntries tags).bind fun entries _ =>
        onlyRaises_vectorBcs fun entry _ => onlyRaises_tagEntryBcs entry
    exact hserialize.bind fun _ _ => onlyRaises_ok _

theorem onlyRaises_toBytes (width n : Nat) :
    OnlyRaises (· = .overflowError) (toBytes width n) := by
  unfold toBytes
  split
  · exact onlyRaises_ok _
  · exact onlyRaises_error rfl

/-! ## The index entries -/

/-- An index entry of this patch, whatever its end. -/
structure EntryOf (patch : QuiltPatchInput) (entry : QuiltPatchV1) : Prop where
  identifier : entry.identifier = patch.identifier
  tags : sortedTagEntries patch.tags = .ok entry.tags

/-- A patch with metadata has tags in order, and both parts of its entry
serialize. -/
theorem exists_entry_of_metadata {patch : QuiltPatchInput} {bytes : Bytes}
    (h : blobMetadata patch = .ok bytes) :
    ∃ entries identifierBytes tagBytes, sortedTagEntries patch.tags = .ok entries ∧
      stringBcs patch.identifier = .ok identifierBytes ∧
      vectorBcs QuiltTagEntry.bcs entries = .ok tagBytes := by
  obtain ⟨identifierBytes, tagBytes, _, _, hidentifier, htags, -⟩ := blobMetadata_ok h
  rcases inlineTags_cases htags with ⟨hnone, -⟩ | ⟨-, serialized, hserialized, -⟩
  · rw [hnone]
    exact ⟨[], identifierBytes, _, rfl, hidentifier, rfl⟩
  · obtain ⟨entries, hentries, hbytes⟩ := bind_eq_ok.mp hserialized
    exact ⟨entries, identifierBytes, serialized, hentries, hidentifier, hbytes⟩

/-- Two bytes for the end, and a part that does not depend on it. -/
theorem EntryOf.bcs_eq {patch : QuiltPatchInput} {bytes : Bytes}
    (h : blobMetadata patch = .ok bytes) :
    ∃ tail : Bytes, ∀ entry, EntryOf patch entry → entry.bcs =
      if entry.endIndex < 256 ^ 2 then .ok (LittleEndian.encode 2 entry.endIndex ++ tail)
      else .error (.u16OutOfRange entry.endIndex) := by
  obtain ⟨entries, identifierBytes, tagBytes, hentries, hidentifier, htags⟩ :=
    exists_entry_of_metadata h
  refine ⟨identifierBytes ++ tagBytes, ?_⟩
  rintro entry ⟨hid, hsorted⟩
  obtain rfl : entries = entry.tags := Except.ok.inj (hentries.symm.trans hsorted)
  rw [QuiltPatchV1.bcs, hid, hidentifier, u16Bcs]
  split
  · rw [htags]
    simp only [ok_bind, pure_eq_ok, List.append_assoc]
  · rfl

section Index

variable {items : List (QuiltPatchInput × Bytes)}

/-- The entries of the patches with these ends. -/
def EntriesOf (items : List (QuiltPatchInput × Bytes)) (entries : List QuiltPatchV1) : Prop :=
  List.Forall₂ (fun item entry => EntryOf item.1 entry) items entries

theorem exists_placeholder (hmeta : ∀ item ∈ items, blobMetadata item.1 = .ok item.2) :
    ∃ entries, (items.map Prod.fst).mapM placeholderEntry = .ok entries ∧
      EntriesOf items entries ∧ ∀ entry ∈ entries, entry.endIndex = 0 := by
  induction items with
  | nil => exact ⟨[], rfl, .nil, by simp⟩
  | cons item rest ih =>
    obtain ⟨hhead, hmeta⟩ := List.forall_mem_cons.mp hmeta
    obtain ⟨tags, _, _, htags, -, -⟩ := exists_entry_of_metadata hhead
    obtain ⟨entries, hentries, hall, hzero⟩ := ih hmeta
    refine ⟨{ endIndex := 0, identifier := item.1.identifier, tags := tags } :: entries, ?_,
      .cons ⟨rfl, htags⟩ hall, List.forall_mem_cons.mpr ⟨rfl, hzero⟩⟩
    rw [List.map_cons, List.mapM_cons, hentries, placeholderEntry, htags]
    rfl

/-- The layouts of the patches give entries with their ends. -/
theorem exists_index (hmeta : ∀ item ∈ items, blobMetadata item.1 = .ok item.2)
    (columnSize column : Nat) :
    ∃ index, (layoutsFrom columnSize column items).mapM QuiltPatchV1.fromLayout = .ok index ∧
      EntriesOf items index ∧ index.map (·.endIndex) =
        (layoutsFrom columnSize column items).map (·.endIndex) := by
  induction items generalizing column with
  | nil => exact ⟨[], rfl, .nil, rfl⟩
  | cons item rest ih =>
    obtain ⟨hhead, hmeta⟩ := List.forall_mem_cons.mp hmeta
    obtain ⟨tags, _, _, htags, -, -⟩ := exists_entry_of_metadata hhead
    obtain ⟨index, hindex, hall, hends⟩ := ih hmeta (column + patchColumns columnSize item)
    refine ⟨{ endIndex := column + patchColumns columnSize item,
              identifier := item.1.identifier, tags := tags } :: index, ?_,
      .cons ⟨rfl, htags⟩ hall, ?_⟩
    · rw [layoutsFrom, List.mapM_cons, hindex, QuiltPatchV1.fromLayout, htags]
      rfl
    · rw [layoutsFrom, List.map_cons, List.map_cons, hends]

theorem EntriesOf.bcs_eq (hmeta : ∀ item ∈ items, blobMetadata item.1 = .ok item.2)
    {entries : List QuiltPatchV1} (hall : EntriesOf items entries) {entry : QuiltPatchV1}
    (hentry : entry ∈ entries) :
    ∃ tail, entry.bcs =
      if entry.endIndex < 256 ^ 2 then .ok (LittleEndian.encode 2 entry.endIndex ++ tail)
      else .error (.u16OutOfRange entry.endIndex) := by
  obtain ⟨item, hitem, hof⟩ : ∃ item ∈ items, EntryOf item.1 entry := by
    induction hall with
    | nil => cases hentry
    | @cons item' entry' _ _ hhead _ ih =>
      rcases List.mem_cons.mp hentry with rfl | hentry
      · exact ⟨item', by simp, hhead⟩
      · obtain ⟨item, hitem, hof⟩ := ih (fun item h => hmeta item (by simp [h])) hentry
        exact ⟨item, by simp [hitem], hof⟩
  obtain ⟨tail, htail⟩ := EntryOf.bcs_eq (hmeta item hitem)
  exact ⟨tail, htail entry hof⟩

/-- The index serializes exactly when every end is a `U16`. -/
theorem exists_quiltIndexV1 (hmeta : ∀ item ∈ items, blobMetadata item.1 = .ok item.2)
    {entries : List QuiltPatchV1} (hall : EntriesOf items entries)
    (hends : ∀ entry ∈ entries, entry.endIndex < 256 ^ 2) :
    ∃ bytes, quiltIndexV1 entries = .ok bytes := by
  have hparts : ∃ parts, entries.mapM QuiltPatchV1.bcs = .ok parts := by
    apply exists_mapM_ok
    intro entry hentry
    obtain ⟨tail, htail⟩ := hall.bcs_eq hmeta hentry
    exact ⟨_, htail.trans (if_pos (hends entry hentry))⟩
  obtain ⟨parts, hparts⟩ := hparts
  exact ⟨_, bind_eq_ok.mpr ⟨parts, hparts, rfl⟩⟩

theorem quiltIndexV1_eq_error (hmeta : ∀ item ∈ items, blobMetadata item.1 = .ok item.2)
    {entries : List QuiltPatchV1} (hall : EntriesOf items entries) {entry : QuiltPatchV1}
    (hentry : entry ∈ entries) (hend : 256 ^ 2 ≤ entry.endIndex) :
    ∃ value, quiltIndexV1 entries = .error (.u16OutOfRange value) := by
  have honly : OnlyRaises (fun e => ∃ value, e = .u16OutOfRange value)
      (quiltIndexV1 entries) := by
    apply onlyRaises_vectorBcs
    intro entry hentry
    obtain ⟨tail, htail⟩ := hall.bcs_eq hmeta hentry
    rw [htail]
    split
    · exact onlyRaises_ok _
    · exact onlyRaises_error ⟨_, rfl⟩
  cases hrun : quiltIndexV1 entries with
  | error e =>
    obtain ⟨value, rfl⟩ := honly e hrun
    exact ⟨value, rfl⟩
  | ok bytes =>
    -- no entry with such an end serializes
    obtain ⟨parts, hparts, -⟩ := bind_eq_ok.mp hrun
    obtain ⟨part, -, hpart⟩ := exists_mem_of_mapM hparts hentry
    obtain ⟨endIndex, hu16, -⟩ := bind_eq_ok.mp hpart
    rw [u16Bcs, if_neg (by omega)] at hu16
    cases hu16

/-- The ends do not change the length. -/
theorem length_quiltIndexV1 (hmeta : ∀ item ∈ items, blobMetadata item.1 = .ok item.2)
    {entries entries' : List QuiltPatchV1} {bytes bytes' : Bytes}
    (hall : EntriesOf items entries) (hall' : EntriesOf items entries')
    (h : quiltIndexV1 entries = .ok bytes) (h' : quiltIndexV1 entries' = .ok bytes') :
    bytes.length = bytes'.length := by
  obtain ⟨parts, hparts, heq⟩ := bind_eq_ok.mp h
  cases heq
  obtain ⟨parts', hparts', heq⟩ := bind_eq_ok.mp h'
  cases heq
  have hcount : entries.length = entries'.length := hall.length_eq.symm.trans hall'.length_eq
  have hflat : parts.flatten.length = parts'.flatten.length := by
    clear h h' hcount
    induction hall generalizing entries' parts parts' with
    | nil =>
      cases hall'
      cases hparts
      cases hparts'
      rfl
    | @cons item entry items entries hhead _ ih =>
      obtain ⟨hitem, hmeta⟩ := List.forall_mem_cons.mp hmeta
      obtain ⟨tail, htail⟩ := EntryOf.bcs_eq hitem
      cases hall' with
      | @cons _ entry' _ entries' hhead' hrest' =>
        obtain ⟨part, parts, hpart, hrest, rfl⟩ :=
          List.forall₂_cons_left_iff.mp (mapM_eq_ok.mp hparts)
        obtain ⟨part', parts', hpart', hrest'', rfl⟩ :=
          List.forall₂_cons_left_iff.mp (mapM_eq_ok.mp hparts')
        have := ih hmeta hrest' parts (mapM_eq_ok.mpr hrest) parts' (mapM_eq_ok.mpr hrest'')
        rw [htail entry hhead] at hpart
        rw [htail entry' hhead'] at hpart'
        split at hpart
        · split at hpart'
          · cases hpart
            cases hpart'
            simp only [List.flatten_cons, List.length_append, LittleEndian.length_encode, this]
          · cases hpart'
        · cases hpart
  rw [List.length_append, List.length_append, hcount, hflat]

end Index

/-! ## Packing -/

/-- The matrix for this symbol size. -/
def shapeOf (symbolSize : Nat) (nShards : Int) : Shape :=
  { symbolSize := symbolSize
    nRows := (Redstuff.sourceSymbolCounts nShards).1.toNat
    nColumns := (Redstuff.sourceSymbolCounts nShards).2.toNat }

/-- Sizing keeps the index to its ten columns. -/
theorem indexColumns_le {indexSize symbolSize : Nat} {rest : List Nat} {nColumns nRows : Int}
    (h : computeSymbolSize (indexSize :: rest) nColumns nRows = .ok symbolSize) :
    mathCeil indexSize (symbolSize * nRows.toNat) ≤ maxNumSliversForQuiltIndex := by
  obtain ⟨hcolumns, hfit⟩ := computeSymbolSize_ok h
  have hpos := (canBlobsFit_iff.mp hfit).1
  have hrows : 0 < nRows.toNat := Nat.pos_of_mul_pos_left hpos
  have hmin := minSymbolSize_le_of_ok h
  rw [minSymbolSize_le_iff (by omega) hrows (by decide)] at hmin
  have hten : indexSize ≤ maxNumSliversForQuiltIndex * (symbolSize * nRows.toNat) := by
    calc indexSize ≤ nRows.toNat * maxNumSliversForQuiltIndex * symbolSize := hmin.2.1
      _ = maxNumSliversForQuiltIndex * (symbolSize * nRows.toNat) := by ring
  refine Binary64.ceil_trueDiv_le hpos (Nat.lt_of_le_of_lt hten ?_) hten
  exact Nat.mul_lt_mul_of_pos_right (by decide) hpos

section Packing

variable {items : List (QuiltPatchInput × Bytes)} {indexSize symbolSize : Nat} {nShards : Int}

/-- What sizing tells about the matrix. -/
theorem shape_of_ok (h : computeSymbolSize (blobSizesOf indexSize items)
      (Redstuff.sourceSymbolCounts nShards).2 (Redstuff.sourceSymbolCounts nShards).1 =
        .ok symbolSize) :
    0 < (shapeOf symbolSize nShards).columnSize ∧ 0 < (shapeOf symbolSize nShards).nColumns ∧
      mathCeil indexSize (shapeOf symbolSize nShards).columnSize +
        (items.map (patchColumns (shapeOf symbolSize nShards).columnSize)).sum ≤
          (shapeOf symbolSize nShards).nColumns := by
  obtain ⟨hcolumns, hfit⟩ := computeSymbolSize_ok h
  obtain ⟨hpos, hsum⟩ := canBlobsFit_iff.mp hfit
  refine ⟨hpos, ?_, ?_⟩
  · show 0 < (Redstuff.sourceSymbolCounts nShards).2.toNat
    omega
  · rw [blobSizesOf, List.map_cons, List.sum_cons, List.map_map] at hsum
    have hcongr : items.map (patchColumns (shapeOf symbolSize nShards).columnSize) =
        items.map ((mathCeil · (shapeOf symbolSize nShards).columnSize) ∘
          fun (item : QuiltPatchInput × Bytes) =>
            item.2.length + item.1.contents.length) := by
      apply List.map_congr_left
      intro item _
      show mathCeil (item.2 ++ item.1.contents).length _ = _
      rw [List.length_append]
      rfl
    rw [hcongr]
    exact hsum

theorem packItems_eq_error {e : QuiltError}
    (h : computeSymbolSize (blobSizesOf indexSize items)
      (Redstuff.sourceSymbolCounts nShards).2 (Redstuff.sourceSymbolCounts nShards).1 =
        .error e) :
    packItems items indexSize nShards = .error e := by
  simp only [packItems, h, error_bind]

/-- With a symbol size, the next thing to fail is the matrix. -/
theorem packItems_of_ok (h : computeSymbolSize (blobSizesOf indexSize items)
      (Redstuff.sourceSymbolCounts nShards).2 (Redstuff.sourceSymbolCounts nShards).1 =
        .ok symbolSize) :
    packItems items indexSize nShards = (do
      let quilt ← bytearray (shapeOf symbolSize nShards).size
      let (quilt, layouts) ← writePatches (shapeOf symbolSize nShards).rowSize
        (shapeOf symbolSize nShards).columnSize symbolSize quilt
        (mathCeil indexSize (shapeOf symbolSize nShards).columnSize) items
      sealQuilt (shapeOf symbolSize nShards).rowSize (shapeOf symbolSize nShards).columnSize
        symbolSize indexSize nShards quilt layouts) := by
  have hindex := indexColumns_le h
  have hnot : ¬ mathCeil indexSize (symbolSize * (Redstuff.sourceSymbolCounts nShards).1.toNat) >
      maxNumSliversForQuiltIndex := by omega
  simp only [packItems, h, ok_bind, raiseIf, if_neg hnot]
  rfl

theorem packItems_overflow (h : computeSymbolSize (blobSizesOf indexSize items)
      (Redstuff.sourceSymbolCounts nShards).2 (Redstuff.sourceSymbolCounts nShards).1 =
        .ok symbolSize) (hbig : 2 ^ 63 ≤ (shapeOf symbolSize nShards).size) :
    packItems items indexSize nShards = .error .overflowError := by
  rw [packItems_of_ok h, bytearray, if_neg (by omega), error_bind]

/-- No write fails, so only the index can. -/
theorem packItems_write (hmeta : ∀ item ∈ items, blobMetadata item.1 = .ok item.2)
    (h : computeSymbolSize (blobSizesOf indexSize items)
      (Redstuff.sourceSymbolCounts nShards).2 (Redstuff.sourceSymbolCounts nShards).1 =
        .ok symbolSize) (hsmall : (shapeOf symbolSize nShards).size < 2 ^ 63) :
    ∃ quilt, quilt.length = (shapeOf symbolSize nShards).size ∧
      packItems items indexSize nShards =
        sealQuilt (shapeOf symbolSize nShards).rowSize (shapeOf symbolSize nShards).columnSize
          symbolSize indexSize nShards quilt
          (layoutsFrom (shapeOf symbolSize nShards).columnSize
            (mathCeil indexSize (shapeOf symbolSize nShards).columnSize) items) := by
  rw [packItems_of_ok h]
  obtain ⟨hpos, hcolumns, hfit⟩ := shape_of_ok h
  have hsymbol : (shapeOf symbolSize nShards).symbolSize = symbolSize := rfl
  generalize shapeOf symbolSize nShards = g at *
  obtain ⟨taken, htaken⟩ : ∃ taken, mathCeil indexSize g.columnSize = taken := ⟨_, rfl⟩
  rw [htaken] at hfit ⊢
  have hlt : g.columnSize < 2 ^ 63 := by
    refine Nat.lt_of_le_of_lt ?_ hsmall
    rw [Shape.size_eq]
    exact Nat.le_mul_of_pos_left _ hcolumns
  have hroom : taken * g.columnSize ≤ g.size := by
    rw [Shape.size_eq]
    exact Nat.mul_le_mul_right _ (by omega)
  have hblank : g.columns (List.replicate g.size (0 : UInt8)) =
      List.replicate (taken * g.columnSize) 0 ++
        List.replicate (g.size - taken * g.columnSize) 0 := by
    rw [Shape.columns_replicate, ← List.replicate_add]
    congr 1
    omega
  obtain ⟨quilt, _, hwrite, hlen, -⟩ := writePatches_ok hpos hlt
    (fun item hitem => length_patchBytes_lt (hmeta item hitem)) hfit
    List.length_replicate List.length_replicate hblank
  rw [hsymbol] at hwrite
  refine ⟨quilt, hlen, ?_⟩
  rw [bytearray, if_pos hsmall, ok_bind, hwrite]
  rfl

end Packing

/-! ## Where the patches end -/

/-- The column after the last patch. -/
def endColumn (columnSize indexSize : Nat) (items : List (QuiltPatchInput × Bytes)) : Nat :=
  mathCeil indexSize columnSize + (items.map (patchColumns columnSize)).sum

theorem endIndex_le {columnSize column : Nat} {items : List (QuiltPatchInput × Bytes)}
    {layout : QuiltPatchLayout} (h : layout ∈ layoutsFrom columnSize column items) :
    layout.endIndex ≤ column + (items.map (patchColumns columnSize)).sum := by
  induction items generalizing column with
  | nil => cases h
  | cons item rest ih =>
    rw [List.map_cons, List.sum_cons]
    rcases List.mem_cons.mp h with rfl | h
    · exact Nat.add_le_add_left (Nat.le_add_right _ _) _
    · have := ih h
      omega

/-- The last patch ends there. -/
theorem exists_endIndex_eq {columnSize : Nat} {items : List (QuiltPatchInput × Bytes)}
    (hne : items ≠ []) (column : Nat) :
    ∃ layout ∈ layoutsFrom columnSize column items,
      layout.endIndex = column + (items.map (patchColumns columnSize)).sum := by
  induction items generalizing column with
  | nil => exact absurd rfl hne
  | cons item rest ih =>
    rw [List.map_cons, List.sum_cons, ← Nat.add_assoc]
    cases rest with
    | nil => exact ⟨_, List.mem_cons_self, rfl⟩
    | cons next rest =>
      obtain ⟨layout, hlayout, hend⟩ := ih (List.cons_ne_nil _ _)
        (column + patchColumns columnSize item)
      exact ⟨layout, List.mem_cons_of_mem _ hlayout, hend⟩

/-! ## The index at the end -/

section Seal

variable {items : List (QuiltPatchInput × Bytes)} {entries : List QuiltPatchV1}
  {placeholder quilt : Bytes} {rowSize columnSize symbolSize indexSize column : Nat}
  {nShards : Int}

/-- An end that is no `U16` stops the serializer. -/
theorem sealQuilt_eq_error (hmeta : ∀ item ∈ items, blobMetadata item.1 = .ok item.2)
    {layout : QuiltPatchLayout} (hlayout : layout ∈ layoutsFrom columnSize column items)
    (hend : 256 ^ 2 ≤ layout.endIndex) :
    ∃ value, sealQuilt rowSize columnSize symbolSize indexSize nShards quilt
      (layoutsFrom columnSize column items) = .error (.u16OutOfRange value) := by
  obtain ⟨index, hindex, hall, hends⟩ := exists_index hmeta columnSize column
  have hmem : layout.endIndex ∈ index.map (·.endIndex) := by
    rw [hends]
    exact List.mem_map_of_mem hlayout
  obtain ⟨entry, hentry, heq⟩ := List.mem_map.mp hmem
  obtain ⟨value, hvalue⟩ := quiltIndexV1_eq_error hmeta hall hentry (by omega)
  refine ⟨value, ?_⟩
  simp only [sealQuilt, hindex, hvalue, ok_bind, error_bind]

/-- With all ends in range the index has the length it was sized at. -/
theorem sealQuilt_of_u16 (hmeta : ∀ item ∈ items, blobMetadata item.1 = .ok item.2)
    (hentries : EntriesOf items entries) (hplaceholder : quiltIndexV1 entries = .ok placeholder)
    (hends : ∀ layout ∈ layoutsFrom columnSize column items, layout.endIndex < 256 ^ 2)
    (rowSize symbolSize : Nat) (nShards : Int) (quilt : Bytes) :
    ∃ indexBytes, indexBytes.length = placeholder.length ∧
      sealQuilt rowSize columnSize symbolSize (quiltIndexPrefixSize + placeholder.length)
          nShards quilt (layoutsFrom columnSize column items) = (do
        let lengthField ← toBytes 4 placeholder.length
        let (quilt, _) ← writeBlobToQuilt quilt
          (quiltVersionByte :: lengthField ++ indexBytes) rowSize columnSize symbolSize 0
        return { data := quilt, patches := layoutsFrom columnSize column items,
                 nShards := nShards }) := by
  obtain ⟨index, hindex, hall, hsame⟩ := exists_index hmeta columnSize column
  obtain ⟨indexBytes, hbytes⟩ := exists_quiltIndexV1 hmeta hall (by
    intro entry hentry
    have hmem : entry.endIndex ∈ index.map (·.endIndex) := List.mem_map_of_mem hentry
    rw [hsame] at hmem
    obtain ⟨layout, hlayout, heq⟩ := List.mem_map.mp hmem
    rw [← heq]
    exact hends layout hlayout)
  have hlen := length_quiltIndexV1 hmeta hall hentries hbytes hplaceholder
  refine ⟨indexBytes, hlen, ?_⟩
  simp only [sealQuilt, hindex, hbytes, ok_bind, hlen]
  cases htoBytes : toBytes 4 placeholder.length with
  | error e => rfl
  | ok lengthField =>
    obtain ⟨-, rfl⟩ := toBytes_eq_ok.mp htoBytes
    have hsize : ¬ (quiltVersionByte :: LittleEndian.encode 4 placeholder.length ++
        indexBytes).length ≠ quiltIndexPrefixSize + placeholder.length := by
      rw [List.length_append, List.length_cons, LittleEndian.length_encode, hlen]
      simp [quiltIndexPrefixSize]
    simp only [ok_bind, raiseIf, if_neg hsize]

/-- An index too long for its length field. -/
theorem sealQuilt_overflow (hmeta : ∀ item ∈ items, blobMetadata item.1 = .ok item.2)
    (hentries : EntriesOf items entries) (hplaceholder : quiltIndexV1 entries = .ok placeholder)
    (hends : ∀ layout ∈ layoutsFrom columnSize column items, layout.endIndex < 256 ^ 2)
    (hbig : 256 ^ 4 ≤ placeholder.length) :
    sealQuilt rowSize columnSize symbolSize (quiltIndexPrefixSize + placeholder.length)
      nShards quilt (layoutsFrom columnSize column items) = .error .overflowError := by
  obtain ⟨_, -, hrun⟩ :=
    sealQuilt_of_u16 hmeta hentries hplaceholder hends rowSize symbolSize nShards quilt
  rw [hrun, toBytes, if_neg (by omega), error_bind]

/-- The index is written into the columns set aside for it. -/
theorem sealQuilt_ok {g : Shape} (hmeta : ∀ item ∈ items, blobMetadata item.1 = .ok item.2)
    (hentries : EntriesOf items entries) (hplaceholder : quiltIndexV1 entries = .ok placeholder)
    (hends : ∀ layout ∈ layoutsFrom g.columnSize column items, layout.endIndex < 256 ^ 2)
    (hsmall : placeholder.length < 256 ^ 4) (hpos : 0 < g.columnSize)
    (hlt : g.columnSize < 2 ^ 63) (hlen : quilt.length = g.size)
    (hfit : mathCeil (quiltIndexPrefixSize + placeholder.length) g.columnSize ≤ g.nColumns) :
    ∃ data, data.length = g.size ∧
      sealQuilt g.rowSize g.columnSize g.symbolSize
          (quiltIndexPrefixSize + placeholder.length) nShards quilt
          (layoutsFrom g.columnSize column items) =
        .ok { data := data, patches := layoutsFrom g.columnSize column items,
              nShards := nShards } := by
  obtain ⟨indexBytes, hbytes, hrun⟩ := sealQuilt_of_u16 hmeta hentries hplaceholder hends
    g.rowSize g.symbolSize nShards quilt
  obtain ⟨blob, hblob⟩ : ∃ blob, quiltVersionByte :: LittleEndian.encode 4 placeholder.length ++
      indexBytes = blob := ⟨_, rfl⟩
  have hsize : blob.length = quiltIndexPrefixSize + placeholder.length := by
    rw [← hblob, List.length_append, List.length_cons, LittleEndian.length_encode, hbytes]
    rfl
  have hholds := le_mathCeil_mul (n := quiltIndexPrefixSize + placeholder.length)
    (by rw [quiltIndexPrefixSize]; omega) hpos hlt
  have hroom : mathCeil (quiltIndexPrefixSize + placeholder.length) g.columnSize *
      g.columnSize ≤ g.size := by
    rw [Shape.size_eq]
    exact Nat.mul_le_mul_right _ hfit
  obtain ⟨data, hwrite, hdata, -⟩ := writeBlobToQuilt_ok none hlen hpos
    (show 0 * g.columnSize + (none.getD [] ++ blob).length ≤ g.size by
      rw [Nat.zero_mul, Option.getD_none, List.nil_append, hsize]
      omega)
  refine ⟨data, hdata, ?_⟩
  rw [hrun, toBytes, if_pos hsmall, ok_bind, hblob, hwrite]
  rfl

end Seal

/-! ## The checks before packing -/

/-- Everything that packing starts from. -/
structure Prepared (patches : List QuiltPatchInput) (items : List (QuiltPatchInput × Bytes))
    (entries : List QuiltPatchV1) (placeholder : Bytes) : Prop where
  nonempty : patches ≠ []
  identifiers : checkIdentifiers [] (sortedByIdentifier patches) = .ok ()
  ordered : items.map Prod.fst = sortedByIdentifier patches
  metadata : ∀ item ∈ items, blobMetadata item.1 = .ok item.2
  placeholders : (items.map Prod.fst).mapM placeholderEntry = .ok entries
  entriesOf : EntriesOf items entries
  serialized : quiltIndexV1 entries = .ok placeholder

section Prepared

variable {patches : List QuiltPatchInput}

/-- Metadata for every patch is all it takes. -/
theorem exists_prepared (hne : patches ≠ [])
    (hidentifiers : checkIdentifiers [] (sortedByIdentifier patches) = .ok ())
    {metadata : List Bytes} (hmetadata : (sortedByIdentifier patches).mapM blobMetadata =
      .ok metadata) :
    ∃ items entries placeholder, Prepared patches items entries placeholder := by
  have hall := mapM_eq_ok.mp hmetadata
  obtain ⟨items, hitems⟩ : ∃ items, (sortedByIdentifier patches).zip metadata = items :=
    ⟨_, rfl⟩
  have hfst : items.map Prod.fst = sortedByIdentifier patches := by
    rw [← hitems, List.map_fst_zip (le_of_eq hall.length_eq)]
  have hmeta : ∀ item ∈ items, blobMetadata item.1 = .ok item.2 := by
    intro item hitem
    rw [← hitems] at hitem
    exact (List.forall₂_iff_zip.mp hall).2 hitem
  obtain ⟨entries, hrun, hentries, hzero⟩ := exists_placeholder hmeta
  obtain ⟨placeholder, hplaceholder⟩ := exists_quiltIndexV1 hmeta hentries (by
    intro entry hentry
    rw [hzero entry hentry]
    decide)
  exact ⟨items, entries, placeholder, hne, hidentifiers, hfst, hmeta, hrun, hentries,
    hplaceholder⟩

theorem Prepared.assembleQuilt_eq {items : List (QuiltPatchInput × Bytes)}
    {entries : List QuiltPatchV1} {placeholder : Bytes}
    (h : Prepared patches items entries placeholder) (nShards : Int) :
    assembleQuilt patches nShards =
      packItems items (quiltIndexPrefixSize + placeholder.length) nShards := by
  have hmetadata : (sortedByIdentifier patches).mapM blobMetadata =
      .ok (items.map Prod.snd) := by
    rw [← h.ordered, mapM_eq_ok, List.forall₂_map_left_iff, List.forall₂_map_right_iff,
      List.forall₂_same]
    exact h.metadata
  have hzip : (sortedByIdentifier patches).zip (items.map Prod.snd) = items := by
    rw [← h.ordered, List.zip_map', List.map_id'']
    intro item
    rfl
  have hentries : (sortedByIdentifier patches).mapM placeholderEntry = .ok entries := by
    rw [← h.ordered]
    exact h.placeholders
  simp only [Quilt.assembleQuilt_eq, raiseIf, if_neg h.nonempty, h.identifiers, hmetadata,
    hentries, h.serialized, hzip, ok_bind]

theorem Prepared.items_ne {items : List (QuiltPatchInput × Bytes)}
    {entries : List QuiltPatchV1} {placeholder : Bytes}
    (h : Prepared patches items entries placeholder) : items ≠ [] := by
  have hlen := congrArg List.length h.ordered
  rw [List.length_map, sortedByIdentifier, List.length_insertionSort] at hlen
  have hpos := List.length_pos_iff.mpr h.nonempty
  exact List.length_pos_iff.mp (by omega)

/-- How packing ends, and when which way. -/
theorem Prepared.pack_cases {items : List (QuiltPatchInput × Bytes)}
    {entries : List QuiltPatchV1} {placeholder : Bytes}
    (h : Prepared patches items entries placeholder) (nShards : Int) :
    (∃ e, computeSymbolSize (blobSizesOf (quiltIndexPrefixSize + placeholder.length) items)
        (Redstuff.sourceSymbolCounts nShards).2 (Redstuff.sourceSymbolCounts nShards).1 =
          .error e ∧ assembleQuilt patches nShards = .error e) ∨
    ∃ symbolSize g,
      computeSymbolSize (blobSizesOf (quiltIndexPrefixSize + placeholder.length) items)
        (Redstuff.sourceSymbolCounts nShards).2 (Redstuff.sourceSymbolCounts nShards).1 =
          .ok symbolSize ∧ shapeOf symbolSize nShards = g ∧
      (2 ^ 63 ≤ g.size ∧ assembleQuilt patches nShards = .error .overflowError ∨
      g.size < 2 ^ 63 ∧
        (256 ^ 2 ≤ endColumn g.columnSize (quiltIndexPrefixSize + placeholder.length) items ∧
          (∃ value, assembleQuilt patches nShards = .error (.u16OutOfRange value)) ∨
        endColumn g.columnSize (quiltIndexPrefixSize + placeholder.length) items < 256 ^ 2 ∧
          (256 ^ 4 ≤ placeholder.length ∧
            assembleQuilt patches nShards = .error .overflowError ∨
          placeholder.length < 256 ^ 4 ∧ ∃ data, data.length = g.size ∧
            assembleQuilt patches nShards = .ok {
              data := data
              patches := layoutsFrom g.columnSize
                (mathCeil (quiltIndexPrefixSize + placeholder.length) g.columnSize) items
              nShards := nShards }))) := by
  rw [h.assembleQuilt_eq nShards]
  cases hsymbol : computeSymbolSize
      (blobSizesOf (quiltIndexPrefixSize + placeholder.length) items)
      (Redstuff.sourceSymbolCounts nShards).2 (Redstuff.sourceSymbolCounts nShards).1 with
  | error e => exact .inl ⟨e, rfl, packItems_eq_error hsymbol⟩
  | ok symbolSize =>
    refine .inr ⟨symbolSize, _, rfl, rfl, ?_⟩
    rcases Nat.lt_or_ge (shapeOf symbolSize nShards).size (2 ^ 63) with hsmall | hbig
    · refine .inr ⟨hsmall, ?_⟩
      obtain ⟨quilt, hlen, hrun⟩ := packItems_write h.metadata hsymbol hsmall
      rw [hrun]
      obtain ⟨hpos, hcolumns, hfit⟩ := shape_of_ok hsymbol
      have hlt : (shapeOf symbolSize nShards).columnSize < 2 ^ 63 := by
        refine Nat.lt_of_le_of_lt ?_ hsmall
        rw [Shape.size_eq]
        exact Nat.le_mul_of_pos_left _ hcolumns
      rcases Nat.lt_or_ge (endColumn (shapeOf symbolSize nShards).columnSize
        (quiltIndexPrefixSize + placeholder.length) items) (256 ^ 2) with hends | hends
      · have hu16 : ∀ layout ∈ layoutsFrom (shapeOf symbolSize nShards).columnSize
            (mathCeil (quiltIndexPrefixSize + placeholder.length)
              (shapeOf symbolSize nShards).columnSize) items, layout.endIndex < 256 ^ 2 :=
          fun layout hlayout => Nat.lt_of_le_of_lt (endIndex_le hlayout) hends
        refine .inr ⟨hends, ?_⟩
        rcases Nat.lt_or_ge placeholder.length (256 ^ 4) with hindex | hindex
        · exact .inr ⟨hindex, sealQuilt_ok h.metadata h.entriesOf h.serialized hu16 hindex
            hpos hlt hlen (by omega)⟩
        · exact .inl ⟨hindex,
            sealQuilt_overflow h.metadata h.entriesOf h.serialized hu16 hindex⟩
      · obtain ⟨layout, hlayout, hend⟩ := exists_endIndex_eq h.items_ne
          (mathCeil (quiltIndexPrefixSize + placeholder.length)
            (shapeOf symbolSize nShards).columnSize)
        exact .inl ⟨hends, sealQuilt_eq_error h.metadata hlayout (by rw [hend]; exact hends)⟩
    · exact .inl ⟨hbig, packItems_overflow hsymbol hbig⟩

/-- How far assembly gets before it packs. -/
theorem assembleQuilt_cases (patches : List QuiltPatchInput) (nShards : Int) :
    (patches = [] ∧ assembleQuilt patches nShards = .error .noPatches) ∨
    (∃ e, patches ≠ [] ∧ checkIdentifiers [] (sortedByIdentifier patches) = .error e ∧
      assembleQuilt patches nShards = .error e) ∨
    (∃ e, checkIdentifiers [] (sortedByIdentifier patches) = .ok () ∧
      (sortedByIdentifier patches).mapM blobMetadata = .error e ∧
      assembleQuilt patches nShards = .error e) ∨
    ∃ items entries placeholder, Prepared patches items entries placeholder := by
  by_cases hne : patches = []
  · refine .inl ⟨hne, ?_⟩
    simp only [assembleQuilt_eq, raiseIf, if_pos hne, error_bind]
  refine .inr ?_
  cases hidentifiers : checkIdentifiers [] (sortedByIdentifier patches) with
  | error e =>
    refine .inl ⟨e, hne, rfl, ?_⟩
    simp only [assembleQuilt_eq, raiseIf, if_neg hne, hidentifiers, ok_bind, error_bind]
  | ok _ =>
    refine .inr ?_
    cases hmetadata : (sortedByIdentifier patches).mapM blobMetadata with
    | error e =>
      refine .inl ⟨e, rfl, rfl, ?_⟩
      simp only [assembleQuilt_eq, raiseIf, if_neg hne, hidentifiers, hmetadata, ok_bind,
        error_bind]
    | ok metadata => exact .inr (exists_prepared hne hidentifiers hmetadata)

end Prepared

end Pytusk.Quilt
