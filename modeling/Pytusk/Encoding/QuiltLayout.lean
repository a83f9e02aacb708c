import Pytusk.Encoding.Quilt
import Pytusk.Lib.ColumnMajor

/-!
# The layout of an assembled quilt

What the writer does to the matrix, read column after column: a blob becomes
one run at the start of its first column and the columns it takes are filled
up with zeros. The columns of an assembled quilt are then the index and the
patches in identifier order, each padded to whole columns (`Layout`).
-/

namespace Pytusk.Quilt

open Pytusk.Lib Pytusk.Lib.ColumnMajor

/-! ## Whole columns -/

/-- The floating-point quotient is rounded up to the integer ceiling. -/
theorem mathCeil_eq_ceilDiv {n columnSize : Nat} (hn : n < 2 ^ 53) (hpos : 0 < columnSize)
    (hlt : columnSize < 2 ^ 63) : mathCeil n columnSize = n ⌈/⌉ columnSize := by
  have hnormal : columnSize < 2 ^ 1022 := by
    refine hlt.trans_le ?_
    gcongr <;> decide
  exact Binary64.ceil_trueDiv hn hpos hnormal

theorem le_mathCeil_mul {n columnSize : Nat} (hn : n < 2 ^ 53) (hpos : 0 < columnSize)
    (hlt : columnSize < 2 ^ 63) : n ≤ mathCeil n columnSize * columnSize := by
  rw [mathCeil_eq_ceilDiv hn hpos hlt, Nat.mul_comm]
  exact le_smul_ceilDiv hpos

/-- Bytes filled up with zeros to whole columns. -/
def padded (columnSize : Nat) (bytes : Bytes) : Bytes :=
  bytes ++ List.replicate (mathCeil bytes.length columnSize * columnSize - bytes.length) 0

theorem length_padded {columnSize : Nat} {bytes : Bytes} (hn : bytes.length < 2 ^ 53)
    (hpos : 0 < columnSize) (hlt : columnSize < 2 ^ 63) :
    (padded columnSize bytes).length = mathCeil bytes.length columnSize * columnSize := by
  have := le_mathCeil_mul hn hpos hlt
  rw [padded, List.length_append, List.length_replicate]
  omega

/-! ## One write -/

/-- The write loop lays the run down from place `k` of the columns on. -/
theorem writeLoop_ok {g : Shape} {turns : Nat} {quilt data : Bytes} {k : Nat}
    (hlen : quilt.length = g.size) (hfit : k + data.length ≤ g.size)
    (hturns : data.length ≤ turns) :
    ∃ quilt', writeLoop g.rowSize g.symbolSize g.nRows turns quilt data
        (k / g.symbolSize % g.nRows) (k / g.columnSize) (k % g.symbolSize) = .ok quilt' ∧
      quilt'.length = g.size ∧ g.columns quilt' = setSlice (g.columns quilt) k data := by
  induction turns generalizing quilt data k with
  | zero =>
    have hnil : data = [] := List.length_eq_zero_iff.mp (by omega)
    exact ⟨quilt, rfl, hlen, by rw [hnil, setSlice_nil]⟩
  | succ turns ih =>
    rw [writeLoop]
    by_cases hnil : data = []
    · rw [if_pos hnil]
      exact ⟨quilt, rfl, hlen, by rw [hnil, setSlice_nil]⟩
    rw [if_neg hnil]
    have hpos : 0 < data.length := List.length_pos_iff.mpr hnil
    have hs : 0 < g.symbolSize := (Shape.counts_pos (show k < g.size by omega)).1
    have hwithin := Nat.mod_lt k hs
    obtain ⟨n, hn⟩ : ∃ n, min (g.symbolSize - k % g.symbolSize) data.length = n := ⟨_, rfl⟩
    have hchunk : (data.take n).length = n := by rw [List.length_take]; omega
    have hfits : g.cell k + n ≤ quilt.length := by
      rw [hlen]
      exact Shape.cell_add_le (by omega) (by omega) (by omega)
    have hstart : k / g.symbolSize % g.nRows * g.rowSize +
        k / g.columnSize * g.symbolSize + k % g.symbolSize = g.cell k := rfl
    simp only [hn, hstart]
    rw [if_neg (by omega)]
    have hlen' : (setSlice quilt (g.cell k) (data.take n)).length = g.size := by
      rw [length_setSlice (by omega), hlen]
    have hwritten : g.columns (setSlice quilt (g.cell k) (data.take n)) =
        setSlice (g.columns quilt) k (data.take n) :=
      Shape.columns_setSlice hlen (by omega) (by omega)
    -- the rest of the run starts where this symbol ends, unless nothing is left
    rcases Nat.lt_or_ge n data.length with hmore | hdone
    · have hend : k + n = g.symbolSize * (k / g.symbolSize + 1) := by
        have := Nat.div_add_mod k g.symbolSize
        rw [Nat.mul_succ]
        omega
      have hdiv : (k + n) / g.symbolSize = k / g.symbolSize + 1 := by
        rw [hend, Nat.mul_div_cancel_left _ hs]
      have hmod : (k + n) % g.symbolSize = 0 := by rw [hend, Nat.mul_mod_right]
      have hrest : (data.drop n).length = data.length - n := List.length_drop
      obtain ⟨quilt', hrun, hquilt', hcolumns⟩ := ih hlen'
        (show k + n + (data.drop n).length ≤ g.size by omega) (by omega)
      rw [Shape.next_row hdiv, Shape.next_column hdiv, hmod] at hrun
      refine ⟨quilt', hrun, hquilt', ?_⟩
      rw [hcolumns, hwritten]
      have hroom : k + (data.take n).length + (data.drop n).length ≤
          (g.columns quilt).length := by
        rw [Shape.length_columns hlen]
        omega
      have hjoin := setSlice_setSlice hroom
      rwa [hchunk, List.take_append_drop] at hjoin
    · have hall : data.take n = data := List.take_of_length_le hdone
      have hrest : data.drop n = [] := List.drop_of_length_le hdone
      refine ⟨_, ?_, hlen', by rw [hwritten, hall]⟩
      rw [hrest]
      cases turns <;> simp [writeLoop]

/-- One of the two runs of a blob, the first of which has `bytesWritten` bytes. -/
theorem writeBytes_ok {g : Shape} {quilt data : Bytes} {startColumn bytesWritten : Nat}
    (hlen : quilt.length = g.size) (hpos : 0 < g.columnSize)
    (hfit : startColumn * g.columnSize + bytesWritten + data.length ≤ g.size) :
    ∃ quilt', writeBytes g.rowSize g.symbolSize g.nRows startColumn quilt bytesWritten
        data = .ok quilt' ∧
      quilt'.length = g.size ∧
      g.columns quilt' =
        setSlice (g.columns quilt) (startColumn * g.columnSize + bytesWritten) data := by
  have hs : 0 < g.symbolSize := Nat.pos_of_mul_pos_right hpos
  have hr : 0 < g.nRows := Nat.pos_of_mul_pos_left hpos
  -- the skipped columns are whole, so they do not change the row or the offset
  have hplace : startColumn * g.columnSize + bytesWritten =
      g.symbolSize * (g.nRows * startColumn) + bytesWritten := by
    rw [Shape.columnSize]
    ring
  have hdiv : (startColumn * g.columnSize + bytesWritten) / g.symbolSize =
      g.nRows * startColumn + bytesWritten / g.symbolSize := by
    rw [hplace, Nat.mul_add_div hs]
  have hmod : (startColumn * g.columnSize + bytesWritten) % g.symbolSize =
      bytesWritten % g.symbolSize := by
    rw [hplace, Nat.mul_add_mod]
  have hcol : (startColumn * g.columnSize + bytesWritten) / g.columnSize =
      startColumn + bytesWritten / g.symbolSize / g.nRows := by
    rw [Nat.mul_comm, Nat.mul_add_div hpos, Shape.columnSize, Nat.div_div_eq_div_mul]
  have := writeLoop_ok hlen hfit (le_refl data.length)
  rw [hmod, hcol, hdiv, Nat.mul_add_mod] at this
  exact this

/-- A blob is written as one run from the top of its first column on. -/
theorem writeBlobToQuilt_ok {g : Shape} {quilt blob : Bytes} {startColumn : Nat}
    (leading : Option Bytes) (hlen : quilt.length = g.size) (hpos : 0 < g.columnSize)
    (hfit : startColumn * g.columnSize + (leading.getD [] ++ blob).length ≤ g.size) :
    ∃ quilt', writeBlobToQuilt quilt blob g.rowSize g.columnSize g.symbolSize startColumn
        leading = .ok (quilt', mathCeil (leading.getD [] ++ blob).length g.columnSize) ∧
      quilt'.length = g.size ∧
      g.columns quilt' =
        setSlice (g.columns quilt) (startColumn * g.columnSize)
          (leading.getD [] ++ blob) := by
  have hs : 0 < g.symbolSize := Nat.pos_of_mul_pos_right hpos
  have hrow : ¬ g.rowSize % g.symbolSize ≠ 0 := by simp [Shape.rowSize]
  have hcolumn : ¬ g.columnSize % g.symbolSize ≠ 0 := by simp [Shape.columnSize]
  have hrows : g.columnSize / g.symbolSize = g.nRows := Nat.mul_div_cancel_left _ hs
  unfold writeBlobToQuilt
  generalize leading.getD [] = head at hfit ⊢
  rw [List.length_append] at hfit
  obtain ⟨quilt₁, hrun₁, hlen₁, hcolumns₁⟩ := writeBytes_ok hlen hpos
    (show startColumn * g.columnSize + 0 + head.length ≤ g.size by omega)
  obtain ⟨quilt₂, hrun₂, hlen₂, hcolumns₂⟩ := writeBytes_ok hlen₁ hpos
    (show startColumn * g.columnSize + head.length + blob.length ≤ g.size by omega)
  have hroom : startColumn * g.columnSize + head.length + blob.length ≤
      (g.columns quilt).length := by
    rw [Shape.length_columns hlen]
    omega
  refine ⟨quilt₂, ?_, hlen₂, ?_⟩
  · simp only [raiseIf, if_neg hrow, if_neg hcolumn, hrows, hrun₁, hrun₂, ok_bind,
      pure_eq_ok, List.length_append]
  · rw [hcolumns₂, hcolumns₁, Nat.add_zero, setSlice_setSlice hroom]

/-! ## The patches one after another -/

/-- What is written for a patch: its metadata, then its contents. -/
def patchBytes (item : QuiltPatchInput × Bytes) : Bytes := item.2 ++ item.1.contents

/-- The columns a patch takes. -/
def patchColumns (columnSize : Nat) (item : QuiltPatchInput × Bytes) : Nat :=
  mathCeil (patchBytes item).length columnSize

/-- The layouts of patches that follow one another from `column` on. -/
def layoutsFrom (columnSize : Nat) :
    (column : Nat) → List (QuiltPatchInput × Bytes) → List QuiltPatchLayout
  | _, [] => []
  | column, item :: rest =>
      { identifier := item.1.identifier
        tags := item.1.tags
        startIndex := column
        endIndex := column + patchColumns columnSize item } ::
      layoutsFrom columnSize (column + patchColumns columnSize item) rest

/-- Each patch fills up its columns, and the next one starts after them. -/
theorem writePatches_ok {g : Shape} (hpos : 0 < g.columnSize) (hlt : g.columnSize < 2 ^ 63)
    {items : List (QuiltPatchInput × Bytes)} {quilt before : Bytes} {column n : Nat}
    (hsizes : ∀ item ∈ items, (patchBytes item).length < 2 ^ 53)
    (hfit : column + (items.map (patchColumns g.columnSize)).sum ≤ g.nColumns)
    (hlen : quilt.length = g.size) (hbefore : before.length = column * g.columnSize)
    (hcolumns : g.columns quilt = before ++ List.replicate n 0) :
    ∃ quilt' n', writePatches g.rowSize g.columnSize g.symbolSize quilt column items =
        .ok (quilt', layoutsFrom g.columnSize column items) ∧
      quilt'.length = g.size ∧
      g.columns quilt' = before ++ items.flatMap (padded g.columnSize ∘ patchBytes) ++
        List.replicate n' 0 := by
  induction items generalizing quilt before column n with
  | nil => exact ⟨quilt, n, rfl, hlen, by simp [hcolumns]⟩
  | cons item rest ih =>
    obtain ⟨patch, inline⟩ := item
    obtain ⟨hsize, hsizes⟩ := List.forall_mem_cons.mp hsizes
    change (inline ++ patch.contents).length < 2 ^ 53 at hsize
    obtain ⟨taken, htaken⟩ : ∃ taken, patchColumns g.columnSize (patch, inline) = taken :=
      ⟨_, rfl⟩
    rw [List.map_cons, List.sum_cons, htaken] at hfit
    have htaken' : mathCeil (inline ++ patch.contents).length g.columnSize = taken := htaken
    -- the columns it takes hold it and are still free
    have hholds : (inline ++ patch.contents).length ≤ taken * g.columnSize := by
      rw [← htaken']
      exact le_mathCeil_mul hsize hpos hlt
    have hroom : column * g.columnSize + taken * g.columnSize ≤ g.size := by
      rw [← Nat.add_mul, Shape.size_eq]
      exact Nat.mul_le_mul_right _ (by omega)
    have hfree : before.length + n = g.size := by
      have := congrArg List.length hcolumns
      rwa [Shape.length_columns hlen, List.length_append, List.length_replicate,
        eq_comm] at this
    obtain ⟨quilt₁, hrun₁, hlen₁, hcolumns₁⟩ := writeBlobToQuilt_ok (some inline) hlen hpos
      (show column * g.columnSize + (inline ++ patch.contents).length ≤ g.size by omega)
    have hblock : g.columns quilt₁ =
        (before ++ padded g.columnSize (inline ++ patch.contents)) ++
          List.replicate (n - taken * g.columnSize) 0 := by
      have hwrite := setSlice_append_replicate before (inline ++ patch.contents) (0 : UInt8)
        (show (inline ++ patch.contents).length ≤ n by omega) []
      have hzeros : n - (inline ++ patch.contents).length =
          (taken * g.columnSize - (inline ++ patch.contents).length) +
            (n - taken * g.columnSize) := by omega
      rw [List.append_nil, List.append_nil, hbefore, hzeros, List.replicate_add] at hwrite
      rw [hcolumns₁, hcolumns, Option.getD_some, hwrite, padded, htaken']
      simp only [List.append_assoc]
    have hend : (before ++ padded g.columnSize (inline ++ patch.contents)).length =
        (column + taken) * g.columnSize := by
      rw [List.length_append, length_padded hsize hpos hlt, htaken', hbefore, Nat.add_mul]
    obtain ⟨quilt', n', hrun, hlen', hcolumns'⟩ :=
      ih hsizes (by omega) hlen₁ hend hblock
    refine ⟨quilt', n', ?_, hlen', ?_⟩
    · rw [writePatches, hrun₁]
      simp only [ok_bind, Option.getD_some, htaken', hrun, layoutsFrom, htaken, pure_eq_ok]
    · rw [hcolumns', List.flatMap_cons]
      simp only [Function.comp_apply, patchBytes, List.append_assoc]

/-- The patches after room for the index, then the index into that room. -/
theorem writeAll_ok {g : Shape} (hpos : 0 < g.columnSize) (hlt : g.columnSize < 2 ^ 63)
    {items : List (QuiltPatchInput × Bytes)} {blob : Bytes}
    (hsizes : ∀ item ∈ items, (patchBytes item).length < 2 ^ 53)
    (hblob : blob.length < 2 ^ 53)
    (hfit : mathCeil blob.length g.columnSize +
      (items.map (patchColumns g.columnSize)).sum ≤ g.nColumns) :
    ∃ quilt₁ quilt₂ n,
      writePatches g.rowSize g.columnSize g.symbolSize (List.replicate g.size 0)
          (mathCeil blob.length g.columnSize) items =
        .ok (quilt₁, layoutsFrom g.columnSize (mathCeil blob.length g.columnSize) items) ∧
      writeBlobToQuilt quilt₁ blob g.rowSize g.columnSize g.symbolSize 0 =
        .ok (quilt₂, mathCeil blob.length g.columnSize) ∧
      quilt₂.length = g.size ∧
      g.columns quilt₂ = padded g.columnSize blob ++
        items.flatMap (padded g.columnSize ∘ patchBytes) ++ List.replicate n 0 := by
  obtain ⟨taken, htaken⟩ : ∃ taken, mathCeil blob.length g.columnSize = taken := ⟨_, rfl⟩
  rw [htaken] at hfit ⊢
  have hroom : taken * g.columnSize ≤ g.size := by
    rw [Shape.size_eq]
    exact Nat.mul_le_mul_right _ (by omega)
  have hholds : blob.length ≤ taken * g.columnSize := by
    rw [← htaken]
    exact le_mathCeil_mul hblob hpos hlt
  have hblank : g.columns (List.replicate g.size (0 : UInt8)) =
      List.replicate (taken * g.columnSize) 0 ++
        List.replicate (g.size - taken * g.columnSize) 0 := by
    rw [Shape.columns_replicate, ← List.replicate_add]
    congr 1
    omega
  obtain ⟨quilt₁, n, hpatches, hlen₁, hcolumns₁⟩ := writePatches_ok hpos hlt hsizes hfit
    List.length_replicate List.length_replicate hblank
  obtain ⟨quilt₂, hindex, hlen₂, hcolumns₂⟩ := writeBlobToQuilt_ok none hlen₁ hpos
    (show 0 * g.columnSize + (none.getD [] ++ blob).length ≤ g.size by
      rw [Nat.zero_mul, Nat.zero_add, Option.getD_none, List.nil_append]
      omega)
  rw [Option.getD_none, List.nil_append] at hindex hcolumns₂
  rw [htaken] at hindex
  refine ⟨quilt₁, quilt₂, n, hpatches, hindex, hlen₂, ?_⟩
  have hwrite := setSlice_append_replicate [] blob (0 : UInt8) hholds
    (items.flatMap (padded g.columnSize ∘ patchBytes) ++ List.replicate n 0)
  rw [List.length_nil, List.nil_append, List.nil_append] at hwrite
  rw [hcolumns₂, hcolumns₁, Nat.zero_mul, List.append_assoc, hwrite, padded, htaken]
  simp only [List.append_assoc]

/-! ## The assembled quilt -/

theorem canBlobsFit_iff {blobSizes : List Nat} {nColumns columnSize : Nat} :
    canBlobsFit blobSizes nColumns columnSize = true ↔
      0 < columnSize ∧ (blobSizes.map (mathCeil · columnSize)).sum ≤ nColumns := by
  unfold canBlobsFit
  split
  · simp; omega
  · simp; omega

/-- There is a column for every blob, and the symbol size has been tried. -/
theorem computeSymbolSize_ok {blobSizes : List Nat} {nColumns nRows : Int}
    {maxIndexColumns symbolSize : Nat}
    (h : computeSymbolSize blobSizes nColumns nRows maxIndexColumns = .ok symbolSize) :
    0 < nColumns ∧
      canBlobsFit blobSizes nColumns.toNat (symbolSize * nRows.toNat) = true := by
  unfold computeSymbolSize at h
  split at h
  · cases h
  · split at h
    · cases h
    · rename_i hcolumns
      rw [List.length_cons] at hcolumns
      simp only at h
      split at h
      · cases h
      · split at h
        · cases h
        · cases h
          rename_i hfits _
          exact ⟨by omega, by simpa using hfits⟩

theorem toBytes_eq_ok {width n : Nat} {bytes : Bytes} :
    toBytes width n = .ok bytes ↔
      n < 256 ^ width ∧ LittleEndian.encode width n = bytes := by
  unfold toBytes
  split
  · simp [*]
  · simp [*]

/-- Tags stand inline exactly when there are any. -/
theorem inlineTags_cases {tags : Dict PyStr PyStr} {tagBytes : Option Bytes}
    (h : inlineTags tags = .ok tagBytes) :
    (tags = [] ∧ tagBytes = none) ∨
      (tags ≠ [] ∧ ∃ bytes, serializeTags tags = .ok bytes ∧ tagBytes = some bytes) := by
  unfold inlineTags at h
  split at h
  · cases h
    exact .inl ⟨‹_›, rfl⟩
  · rename_i hne
    cases hs : serializeTags tags with
    | error e =>
      rw [hs] at h
      cases h
    | ok bytes =>
      rw [hs] at h
      cases h
      exact .inr ⟨hne, bytes, rfl, rfl⟩

theorem length_tagSection {tagBytes : Option Bytes} {tagField : Bytes}
    (h : tagSection tagBytes = .ok tagField) :
    tagField.length = tagSectionSize tagBytes := by
  cases tagBytes with
  | none =>
    cases h
    rfl
  | some bytes =>
    obtain ⟨lengthField, hlength, heq⟩ := bind_eq_ok.mp h
    obtain ⟨_, rfl⟩ := toBytes_eq_ok.mp hlength
    cases heq
    simp [tagSectionSize]

/-- The header of a patch and what follows it, up to the contents. -/
theorem blobMetadata_ok {patch : QuiltPatchInput} {bytes : Bytes}
    (h : blobMetadata patch = .ok bytes) :
    ∃ identifierBytes tagBytes tagField payloadLength,
      stringBcs patch.identifier = .ok identifierBytes ∧
      inlineTags patch.tags = .ok tagBytes ∧ tagSection tagBytes = .ok tagField ∧
      payloadLength = 2 + identifierBytes.length + tagSectionSize tagBytes +
        patch.contents.length ∧
      payloadLength < 256 ^ 4 ∧ identifierBytes.length < 256 ^ 2 ∧
      bytes = quiltVersionByte :: LittleEndian.encode 4 payloadLength ++
        (if tagBytes.isSome then hasTagsFlag else 0) ::
          LittleEndian.encode 2 identifierBytes.length ++ identifierBytes ++ tagField := by
  simp only [blobMetadata, bind_eq_ok, pure_eq_ok] at h
  obtain ⟨identifierBytes, hidentifier, _, _, tagBytes, htags, _, _, lengthField, hlength,
    identifierField, hfield, tagField, hsection, heq⟩ := h
  obtain ⟨hpayload, rfl⟩ := toBytes_eq_ok.mp hlength
  obtain ⟨hshort, rfl⟩ := toBytes_eq_ok.mp hfield
  cases heq
  exact ⟨identifierBytes, tagBytes, tagField, _, hidentifier, htags, hsection, rfl,
    hpayload, hshort, rfl⟩

theorem length_patchBytes_lt {item : QuiltPatchInput × Bytes}
    (h : blobMetadata item.1 = .ok item.2) : (patchBytes item).length < 2 ^ 53 := by
  obtain ⟨identifierBytes, tagBytes, tagField, payloadLength, _, _, hsection, hsum, hlt, _,
    hbytes⟩ := blobMetadata_ok h
  have := length_tagSection hsection
  simp only [patchBytes, hbytes, List.length_append, List.length_cons,
    LittleEndian.length_encode]
  omega

/-- No two patches have one identifier, and none has one seen before. -/
theorem checkIdentifiers_ok {patches : List QuiltPatchInput} {seen : List PyStr} {u : Unit}
    (h : checkIdentifiers seen patches = .ok u) :
    (patches.map (·.identifier)).Nodup ∧ ∀ patch ∈ patches, patch.identifier ∉ seen := by
  induction patches generalizing seen with
  | nil => exact ⟨List.nodup_nil, by simp⟩
  | cons patch rest ih =>
    simp only [checkIdentifiers, bind_eq_ok, raiseIf_eq_ok] at h
    obtain ⟨_, _, _, hfresh, hrest⟩ := h
    obtain ⟨hnodup, hunseen⟩ := ih hrest
    refine ⟨List.nodup_cons.mpr ⟨?_, hnodup⟩, ?_⟩
    · intro hmem
      obtain ⟨other, hother, heq⟩ := List.mem_map.mp hmem
      exact hunseen other hother (by simp [heq])
    · intro p hp
      rcases List.mem_cons.mp hp with rfl | hp
      · exact hfresh
      · exact fun hmem => hunseen p hp (List.mem_cons_of_mem _ hmem)

/-- The matrix of a quilt of this many bytes. -/
def quiltShape (dataLength : Nat) (nShards : Int) : Shape :=
  let nRows := (Redstuff.sourceSymbolCounts nShards).1.toNat
  let nColumns := (Redstuff.sourceSymbolCounts nShards).2.toNat
  { symbolSize := dataLength / (nRows * nColumns), nRows := nRows, nColumns := nColumns }

/-- The serialized index behind its version byte and length. -/
def indexBlob (indexBytes : Bytes) : Bytes :=
  quiltVersionByte :: LittleEndian.encode 4 indexBytes.length ++ indexBytes

/-- A quilt of `items`, the patches with their metadata, under `index`. -/
structure Layout (nShards : Int) (quilt : AssembledQuilt)
    (items : List (QuiltPatchInput × Bytes)) (index : List QuiltPatchV1)
    (indexBytes : Bytes) (g : Shape) : Prop where
  shape : quiltShape quilt.data.length nShards = g
  columnSize_pos : 0 < g.columnSize
  columnSize_lt : g.columnSize < 2 ^ 63
  metadata : ∀ item ∈ items, blobMetadata item.1 = .ok item.2
  nodup : (items.map (·.1.identifier)).Nodup
  index_eq : quilt.patches.mapM QuiltPatchV1.fromLayout = .ok index
  indexBytes_eq : quiltIndexV1 index = .ok indexBytes
  indexBytes_lt : indexBytes.length < 256 ^ 4
  patches_eq : quilt.patches = layoutsFrom g.columnSize
    (mathCeil (indexBlob indexBytes).length g.columnSize) items
  columns_eq : ∃ n, g.columns quilt.data = padded g.columnSize (indexBlob indexBytes) ++
    items.flatMap (padded g.columnSize ∘ patchBytes) ++ List.replicate n 0

/-- **What an assembled quilt looks like**: the index, then the patches in
identifier order, column after column. -/
theorem assembleQuilt_layout {patches : List QuiltPatchInput} {nShards : Int}
    {quilt : AssembledQuilt} (h : assembleQuilt patches nShards = .ok quilt) :
    ∃ items index indexBytes g, items.map Prod.fst = sortedByIdentifier patches ∧
      Layout nShards quilt items index indexBytes g := by
  simp only [assembleQuilt, bind_eq_ok, raiseIf_eq_ok, pure_eq_ok] at h
  obtain ⟨_, _, _, hidentifiers, metadata, hmetadata, entries, _, placeholder, _,
    symbolSize, hsymbol, _, _, quilt₀, hquilt₀, ⟨quilt₁, layouts⟩, hpatches, index, hindex,
    indexBytes, hbytes, lengthField, hlength, _, hsame, ⟨quilt₂, _⟩, hindexWrite, heq⟩ := h
  cases heq
  obtain ⟨_, rfl⟩ := toBytes_eq_ok.mp hlength
  rw [not_not] at hsame
  -- the matrix, and what has been found to fit into it
  generalize hrows : (Redstuff.sourceSymbolCounts nShards).1 = nRows at *
  generalize hcols : (Redstuff.sourceSymbolCounts nShards).2 = nColumns at *
  obtain ⟨hpositive, hfit⟩ := computeSymbolSize_ok hsymbol
  obtain ⟨hpos, hsum⟩ := canBlobsFit_iff.mp hfit
  let g : Shape := { symbolSize := symbolSize, nRows := nRows.toNat, nColumns := nColumns.toNat }
  have hg : 0 < g.columnSize := hpos
  -- the items
  have hall := mapM_eq_ok.mp hmetadata
  obtain ⟨items, hitems⟩ : ∃ items, (sortedByIdentifier patches).zip metadata = items :=
    ⟨_, rfl⟩
  have hfst : items.map Prod.fst = sortedByIdentifier patches := by
    rw [← hitems, List.map_fst_zip (le_of_eq hall.length_eq)]
  have hmeta : ∀ item ∈ items, blobMetadata item.1 = .ok item.2 := by
    intro item hitem
    rw [← hitems] at hitem
    exact (List.forall₂_iff_zip.mp hall).2 hitem
  have hsizes : ∀ item ∈ items, (patchBytes item).length < 2 ^ 53 :=
    fun item hitem => length_patchBytes_lt (hmeta item hitem)
  -- the index has the size that was set aside for it
  obtain ⟨blob, hblob⟩ : ∃ blob, indexBlob indexBytes = blob := ⟨_, rfl⟩
  have hindexSize : quiltIndexPrefixSize + placeholder.length = blob.length := by
    rw [← hblob, ← hsame]
    rfl
  have hsmall : blob.length < 2 ^ 53 := by
    rw [← hblob, indexBlob, List.length_append, List.length_cons,
      LittleEndian.length_encode]
    omega
  have hcolumns : mathCeil blob.length g.columnSize +
      (items.map (patchColumns g.columnSize)).sum ≤ g.nColumns := by
    rw [hitems, hindexSize, List.map_cons, List.sum_cons, List.map_map] at hsum
    have hcongr : items.map (patchColumns g.columnSize) =
        items.map ((mathCeil · g.columnSize) ∘
          fun item => item.2.length + item.1.contents.length) := by
      apply List.map_congr_left
      intro item _
      show mathCeil (item.2 ++ item.1.contents).length _ = _
      rw [List.length_append]
      rfl
    rw [hcongr]
    exact hsum
  obtain ⟨hsize, hblank⟩ : g.size < 2 ^ 63 ∧ quilt₀ = List.replicate g.size 0 := by
    unfold bytearray at hquilt₀
    split at hquilt₀
    · cases hquilt₀
      exact ⟨‹_›, rfl⟩
    · cases hquilt₀
  have hlt : g.columnSize < 2 ^ 63 := by
    refine Nat.lt_of_le_of_lt ?_ hsize
    rw [Shape.size_eq]
    exact Nat.le_mul_of_pos_left _ (show 0 < nColumns.toNat by omega)
  obtain ⟨quilt₁', quilt₂', n, hwrite₁, hwrite₂, hlen, hstream⟩ :=
    writeAll_ok hg hlt hsizes hsmall hcolumns
  rw [hitems, hindexSize, hblank] at hpatches
  obtain ⟨rfl, rfl⟩ := Prod.mk.inj (Except.ok.inj (hwrite₁.symm.trans hpatches))
  have hblob' : quiltVersionByte :: LittleEndian.encode 4 indexBytes.length ++ indexBytes =
      blob := hblob
  rw [hblob'] at hindexWrite
  obtain ⟨rfl, -⟩ := Prod.mk.inj (Except.ok.inj (hwrite₂.symm.trans hindexWrite))
  refine ⟨items, index, indexBytes, g, hfst, ?_, hg, hlt, hmeta, ?_, hindex, hbytes, ‹_›,
    by rw [hblob], n, by rw [hblob]; exact hstream⟩
  · have hcells : g.size = symbolSize * (nRows.toNat * nColumns.toNat) := by
      simp only [Shape.size, Shape.rowSize, g]
      ring
    have hcount : 0 < nRows.toNat * nColumns.toNat :=
      Nat.mul_pos (Nat.pos_of_mul_pos_left hpos) (by omega)
    rw [quiltShape, hrows, hcols, hlen, hcells, Nat.mul_div_cancel _ hcount]
  · have hids : items.map (·.1.identifier) =
        (sortedByIdentifier patches).map (·.identifier) := by
      rw [← hfst, List.map_map]
      rfl
    rw [hids]
    exact (checkIdentifiers_ok hidentifiers).1

theorem map_identifier_layoutsFrom {columnSize column : Nat}
    {items : List (QuiltPatchInput × Bytes)} :
    (layoutsFrom columnSize column items).map (·.identifier) =
      items.map (·.1.identifier) := by
  induction items generalizing column with
  | nil => rfl
  | cons item rest ih => rw [layoutsFrom, List.map_cons, List.map_cons, ih]

/-- An assembled quilt has the identifiers it was given, in order. -/
theorem map_identifier_of_assembled {patches : List QuiltPatchInput} {nShards : Int}
    {quilt : AssembledQuilt} (h : assembleQuilt patches nShards = .ok quilt) :
    quilt.patches.map (·.identifier) =
      (patches.map (·.identifier)).insertionSort (· ≤ ·) := by
  obtain ⟨items, _, _, _, hfst, layout⟩ := assembleQuilt_layout h
  have hitems : items.map (·.1.identifier) =
      (sortedByIdentifier patches).map (·.identifier) := by
    rw [← hfst, List.map_map]
    rfl
  rw [layout.patches_eq, map_identifier_layoutsFrom, hitems]
  exact List.map_insertionSort _ _ _ _ fun _ _ _ _ => Iff.rfl

end Pytusk.Quilt
