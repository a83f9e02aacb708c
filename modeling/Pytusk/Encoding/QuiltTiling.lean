import Pytusk.Encoding.QuiltStages
import Mathlib.Order.CompletePartialOrder

/-!
# The columns of an assembled quilt

The ranges of an assembled quilt tile the columns behind the index, the buffer
has one length throughout, and the patch ids name the ranges. What assembly
does raise never comes from one of the guards on the layout.
-/

namespace Pytusk.Quilt

open Pytusk.Lib Pytusk.Lib.Wire Pytusk.Lib.ColumnMajor

/-! ## The buffer keeps its length -/

/-- However many turns the loop has taken. -/
theorem length_of_writeLoop {rowSize symbolSize nRows turns row col remainingOffset : Nat}
    {quilt data quilt' : Bytes}
    (h : writeLoop rowSize symbolSize nRows turns quilt data row col remainingOffset =
      .ok quilt') : quilt'.length = quilt.length := by
  induction turns generalizing quilt data row col remainingOffset with
  | zero =>
    cases h
    rfl
  | succ turns ih =>
    rw [writeLoop] at h
    split at h
    · cases h
      rfl
    · simp only at h
      split at h
      · cases h
      · rename_i hfit
        rw [ih h, length_setSlice]
        rw [List.length_take]
        omega

/-! ## The ranges -/

/-- Ranges that follow one another from column `start` on, none of them
empty. -/
def Contiguous : (start : Nat) → List QuiltPatchLayout → Prop
  | _, [] => True
  | start, layout :: rest =>
      layout.startIndex = start ∧ start < layout.endIndex ∧ Contiguous layout.endIndex rest

/-- A patch has metadata, so it takes a column. -/
theorem patchColumns_pos {columnSize : Nat} {item : QuiltPatchInput × Bytes}
    (hmeta : blobMetadata item.1 = .ok item.2) (hpos : 0 < columnSize)
    (hlt : columnSize < 2 ^ 63) : 0 < patchColumns columnSize item := by
  have hlen := length_patchBytes_lt hmeta
  have hholds := le_mathCeil_mul hlen hpos hlt
  obtain ⟨_, _, _, _, -, -, -, -, -, -, hbytes⟩ := blobMetadata_ok hmeta
  have hbytes0 : 0 < (patchBytes item).length := by
    rw [patchBytes, hbytes]
    simp
  by_contra hzero
  have hcolumns : mathCeil (patchBytes item).length columnSize = 0 :=
    Nat.eq_zero_of_not_pos hzero
  rw [hcolumns] at hholds
  omega

theorem contiguous_layoutsFrom {columnSize : Nat} {items : List (QuiltPatchInput × Bytes)}
    (h : ∀ item ∈ items, 0 < patchColumns columnSize item) (column : Nat) :
    Contiguous column (layoutsFrom columnSize column items) := by
  induction items generalizing column with
  | nil => trivial
  | cons item rest ih =>
    obtain ⟨hhead, hrest⟩ := List.forall_mem_cons.mp h
    exact ⟨rfl, Nat.lt_add_of_pos_right hhead, ih hrest _⟩

theorem Contiguous.start_le {start : Nat} {layouts : List QuiltPatchLayout}
    (h : Contiguous start layouts) :
    ∀ layout ∈ layouts, start ≤ layout.startIndex ∧ layout.startIndex < layout.endIndex := by
  induction layouts generalizing start with
  | nil => simp
  | cons layout rest ih =>
    obtain ⟨hstart, hlt, hrest⟩ := h
    refine List.forall_mem_cons.mpr ⟨by omega, ?_⟩
    intro other hother
    have := ih hrest other hother
    omega

/-- A range ends before any later one starts. -/
theorem Contiguous.pairwise {start : Nat} {layouts : List QuiltPatchLayout}
    (h : Contiguous start layouts) :
    layouts.Pairwise fun a b => a.endIndex ≤ b.startIndex := by
  induction layouts generalizing start with
  | nil => exact .nil
  | cons layout rest ih =>
    obtain ⟨-, -, hrest⟩ := h
    exact .cons (fun other hother => (hrest.start_le other hother).1) (ih hrest)

/-! ## The bytes of a range -/

/-- Where the bytes of the columns from `start` up to `stop` are stored. -/
def bytesOf (g : Shape) (start stop : Nat) : Set Nat :=
  g.cell '' Set.Ico (start * g.columnSize) (stop * g.columnSize)

theorem lt_size_of_lt {g : Shape} {stop k : Nat} (hstop : stop ≤ g.nColumns)
    (hk : k < stop * g.columnSize) : k < g.size := by
  have hle := Nat.mul_le_mul_right g.columnSize hstop
  rw [Shape.size_eq]
  omega

theorem bytesOf_lt {g : Shape} {start stop : Nat} (hstop : stop ≤ g.nColumns) :
    ∀ i ∈ bytesOf g start stop, i < g.size := by
  rintro i ⟨k, ⟨-, hk⟩, rfl⟩
  exact Shape.cell_lt (lt_size_of_lt hstop hk)

theorem disjoint_bytesOf {g : Shape} {start stop start' stop' : Nat} (h : stop ≤ start')
    (hinside : start' ≤ g.nColumns) (hinside' : stop' ≤ g.nColumns) :
    Disjoint (bytesOf g start stop) (bytesOf g start' stop') := by
  rw [Set.disjoint_left]
  rintro i ⟨k, ⟨-, hk⟩, rfl⟩ ⟨j, ⟨hj, hj'⟩, hcell⟩
  have heq := Shape.cell_inj (lt_size_of_lt hinside' hj')
    (lt_size_of_lt (Nat.le_trans h hinside) hk) hcell
  have := Nat.mul_le_mul_right g.columnSize h
  omega

/-! ## The patch ids -/

/-- The parts of a patch id: the quilt id and the range. -/
def readPatchId : Reader (Bytes × Nat × Nat) := do
  let quiltId ← take 32
  let version ← byte
  expect (version = quiltVersionByte)
  let startIndex ← fixed 2
  let endIndex ← fixed 2
  return (quiltId, startIndex, endIndex)

def decodePatchId (patchId : String) : Option (Bytes × Nat × Nat) :=
  match Redstuff.blobIdFromUrlBase64 (patchId.toList.map PyStr.ofChar) with
  | .ok raw => readAll readPatchId raw
  | .error _ => none

theorem quiltPatchId_ok {quiltId : Bytes} {layout : QuiltPatchLayout}
    (hid : quiltId.length = 32) (hstart : layout.startIndex < 256 ^ 2)
    (hend : layout.endIndex < 256 ^ 2) :
    ∃ patchId, quiltPatchId quiltId layout = .ok patchId ∧
      decodePatchId patchId = some (quiltId, layout.startIndex, layout.endIndex) := by
  refine ⟨_, by simp only [quiltPatchId, toBytes, hid, if_pos hstart, if_pos hend]; rfl, ?_⟩
  have hread : Reads readPatchId (quiltId ++ ([quiltVersionByte] ++
      (LittleEndian.encode 2 layout.startIndex ++ LittleEndian.encode 2 layout.endIndex)))
      (quiltId, layout.startIndex, layout.endIndex) := by
    have htake := reads_take quiltId
    rw [hid] at htake
    exact htake.bind ((reads_byte quiltVersionByte).bind ((reads_expect rfl).bind
      ((reads_fixed hstart).bind ((reads_fixed hend).bind_nil (Reads.pure _)))))
  rw [decodePatchId, String.toList_ofList, Redstuff.blobIdFromUrlBase64_encodeUrl,
    List.append_assoc]
  exact hread.readAll

/-- Distinct ranges have distinct ids. -/
theorem exists_patchIds {quiltId : Bytes} {layouts : List QuiltPatchLayout}
    (hid : quiltId.length = 32) (hcontiguous : ∃ start, Contiguous start layouts)
    (hends : ∀ layout ∈ layouts, layout.endIndex < 256 ^ 2) :
    ∃ patchIds, layouts.mapM (quiltPatchId quiltId) = .ok patchIds ∧ patchIds.Nodup ∧
      patchIds.map decodePatchId = layouts.map fun layout =>
        some (quiltId, layout.startIndex, layout.endIndex) := by
  obtain ⟨start, hcontiguous⟩ := hcontiguous
  have hone : ∀ layout ∈ layouts, ∃ patchId, quiltPatchId quiltId layout = .ok patchId ∧
      decodePatchId patchId = some (quiltId, layout.startIndex, layout.endIndex) := by
    intro layout hlayout
    have hend := hends layout hlayout
    have hrange := hcontiguous.start_le layout hlayout
    exact quiltPatchId_ok hid (by omega) hend
  obtain ⟨patchIds, hpatchIds⟩ := exists_mapM_ok
    fun layout hlayout => (hone layout hlayout).imp fun _ h => h.1
  have hdecode : patchIds.map decodePatchId = layouts.map fun layout =>
      some (quiltId, layout.startIndex, layout.endIndex) := by
    have hall := mapM_eq_ok.mp hpatchIds
    clear hpatchIds hcontiguous hends
    induction hall with
    | nil => rfl
    | @cons layout patchId layouts patchIds hhead _ ih =>
      obtain ⟨⟨_, hrun, hdecode⟩, hone⟩ := List.forall_mem_cons.mp hone
      obtain rfl := Except.ok.inj (hrun.symm.trans hhead)
      rw [List.map_cons, List.map_cons, hdecode, ih hone]
  refine ⟨patchIds, hpatchIds, List.Nodup.of_map decodePatchId ?_, hdecode⟩
  rw [hdecode, List.nodup_iff_pairwise_ne, List.pairwise_map]
  refine hcontiguous.pairwise.imp_of_mem ?_
  intro a b ha _ hab heq
  -- one range lies before the other, so they cannot be the same
  have hstart := congrArg (·.2.1) (Option.some.inj heq)
  have hrange := hcontiguous.start_le a ha
  change a.startIndex = b.startIndex at hstart
  omega

/-! ## The tiling -/

/-- The columns of the index, and of each patch. -/
def blocks (firstColumn : Nat) (layouts : List QuiltPatchLayout) : List (Nat × Nat) :=
  (0, firstColumn) :: layouts.map fun layout => (layout.startIndex, layout.endIndex)

/-- How the ranges of a quilt lie in its matrix `g`, behind an index of
`indexSize` bytes. -/
structure Tiling (quilt : AssembledQuilt) (g : Shape) (indexSize : Nat) : Prop where
  length : quilt.data.length = g.symbolSize * g.nColumns * g.nRows
  nonempty : quilt.patches ≠ []
  contiguous : Contiguous (indexSize ⌈/⌉ g.columnSize) quilt.patches
  inside : ∀ layout ∈ quilt.patches, layout.endIndex ≤ g.nColumns
  bytes_lt : ∀ block ∈ blocks (indexSize ⌈/⌉ g.columnSize) quilt.patches,
    ∀ i ∈ bytesOf g block.1 block.2, i < quilt.data.length
  disjoint : (blocks (indexSize ⌈/⌉ g.columnSize) quilt.patches).Pairwise fun a b =>
    Disjoint (bytesOf g a.1 a.2) (bytesOf g b.1 b.2)
  patchIds : ∀ quiltId : Bytes, quiltId.length = 32 →
    ∃ patchIds, quilt.patches.mapM (quiltPatchId quiltId) = .ok patchIds ∧ patchIds.Nodup ∧
      patchIds.map decodePatchId = quilt.patches.map fun layout =>
        some (quiltId, layout.startIndex, layout.endIndex)

theorem tiling_of_contiguous {quilt : AssembledQuilt} {g : Shape} {indexSize : Nat}
    (hlen : quilt.data.length = g.size) (hne : quilt.patches ≠ [])
    (hcontiguous : Contiguous (indexSize ⌈/⌉ g.columnSize) quilt.patches)
    (hinside : ∀ layout ∈ quilt.patches, layout.endIndex ≤ g.nColumns)
    (hends : ∀ layout ∈ quilt.patches, layout.endIndex < 256 ^ 2) :
    Tiling quilt g indexSize := by
  have hrange := hcontiguous.start_le
  obtain ⟨first, hfirst⟩ := List.exists_mem_of_ne_nil _ hne
  have hindex : indexSize ⌈/⌉ g.columnSize ≤ g.nColumns := by
    have := hrange first hfirst
    have := hinside first hfirst
    omega
  have hblocks : ∀ block ∈ blocks (indexSize ⌈/⌉ g.columnSize) quilt.patches,
      block.2 ≤ g.nColumns := by
    refine List.forall_mem_cons.mpr ⟨hindex, ?_⟩
    intro block hblock
    obtain ⟨layout, hlayout, rfl⟩ := List.mem_map.mp hblock
    exact hinside layout hlayout
  refine ⟨hlen, hne, hcontiguous, hinside, ?_, ?_, ?_⟩
  · intro block hblock i hi
    rw [hlen]
    exact bytesOf_lt (hblocks block hblock) i hi
  · refine .cons ?_ ?_
    · intro block hblock
      obtain ⟨layout, hlayout, rfl⟩ := List.mem_map.mp hblock
      have hlayout' := hrange layout hlayout
      have hend := hinside layout hlayout
      exact disjoint_bytesOf hlayout'.1 (by omega) hend
    · rw [List.pairwise_map]
      refine hcontiguous.pairwise.imp_of_mem ?_
      intro a b _ hb hab
      have hb' := hrange b hb
      have hend := hinside b hb
      exact disjoint_bytesOf hab (by omega) hend
  · exact fun quiltId hid => exists_patchIds hid ⟨_, hcontiguous⟩ hends

/-! ## The guards on the layout -/

/-- Is it one of the checks of the layout against its own sizing? -/
def QuiltError.isLayoutGuard : QuiltError → Bool
  | .rowSizeNotDivisible => true
  | .columnSizeNotDivisible => true
  | .writePastEnd _ _ _ => true
  | .indexTooWide _ => true
  | .indexSizeChanged _ _ => true
  | _ => false

theorem isLayoutGuard_of_unicode {e : QuiltError} (h : e = .unicodeEncodeError) :
    e.isLayoutGuard = false := by
  rw [h]
  rfl

theorem isLayoutGuard_of_overflow {e : QuiltError} (h : e = .overflowError) :
    e.isLayoutGuard = false := by
  rw [h]
  rfl

theorem validateQuiltIdentifier_noGuard (identifier : PyStr) :
    OnlyRaises (fun e => e.isLayoutGuard = false) (validateQuiltIdentifier identifier) := by
  unfold validateQuiltIdentifier
  split
  · exact onlyRaises_error rfl
  · split
    · exact onlyRaises_error rfl
    · split
      · exact onlyRaises_error rfl
      · split
        · exact onlyRaises_error rfl
        · split
          · exact onlyRaises_error rfl
          · exact onlyRaises_ok _

theorem checkIdentifiers_noGuard (seen : List PyStr) (patches : List QuiltPatchInput) :
    OnlyRaises (fun e => e.isLayoutGuard = false) (checkIdentifiers seen patches) := by
  induction patches generalizing seen with
  | nil => exact onlyRaises_ok _
  | cons patch rest ih =>
    rw [checkIdentifiers]
    refine (validateQuiltIdentifier_noGuard _).bind fun _ _ => ?_
    exact OnlyRaises.bind (onlyRaises_raiseIf (by rfl)) fun _ _ => ih _

theorem blobMetadata_noGuard (patch : QuiltPatchInput) :
    OnlyRaises (fun e => e.isLayoutGuard = false) (blobMetadata patch) := by
  have hsection : ∀ tagBytes, OnlyRaises (fun e => e.isLayoutGuard = false)
      (tagSection tagBytes) := by
    intro tagBytes
    cases tagBytes with
    | none => exact onlyRaises_ok _
    | some bytes =>
      exact ((onlyRaises_toBytes _ _).imp fun _ => isLayoutGuard_of_overflow).bind
        fun _ _ => onlyRaises_ok _
  unfold blobMetadata
  refine ((onlyRaises_stringBcs _).imp fun _ => isLayoutGuard_of_unicode).bind fun _ _ => ?_
  refine OnlyRaises.bind (onlyRaises_raiseIf (by rfl)) fun _ _ => ?_
  refine ((onlyRaises_inlineTags _).imp fun _ => isLayoutGuard_of_unicode).bind fun _ _ => ?_
  refine OnlyRaises.bind (onlyRaises_raiseIf (by rfl)) fun _ _ => ?_
  refine ((onlyRaises_toBytes _ _).imp fun _ => isLayoutGuard_of_overflow).bind fun _ _ => ?_
  refine ((onlyRaises_toBytes _ _).imp fun _ => isLayoutGuard_of_overflow).bind fun _ _ => ?_
  exact (hsection _).bind fun _ _ => onlyRaises_ok _

theorem computeSymbolSize_noGuard (blobSizes : List Nat) (nColumns nRows : Int)
    (maxIndexColumns : Nat) : OnlyRaises (fun e => e.isLayoutGuard = false)
      (computeSymbolSize blobSizes nColumns nRows maxIndexColumns) := by
  unfold computeSymbolSize
  split
  · exact onlyRaises_error rfl
  · split
    · exact onlyRaises_error rfl
    · simp only
      split
      · exact onlyRaises_error rfl
      · split
        · exact onlyRaises_error rfl
        · exact onlyRaises_ok _

theorem assembleQuilt_noGuard (patches : List QuiltPatchInput) (nShards : Int) :
    OnlyRaises (fun e => e.isLayoutGuard = false) (assembleQuilt patches nShards) := by
  rcases assembleQuilt_cases patches nShards with ⟨-, hrun⟩ | ⟨e, -, hcheck, hrun⟩ |
    ⟨e, -, hmetadata, hrun⟩ | ⟨items, entries, placeholder, hprepared⟩
  · rw [hrun]
    exact onlyRaises_error rfl
  · rw [hrun]
    exact onlyRaises_error (checkIdentifiers_noGuard _ _ e hcheck)
  · rw [hrun]
    exact onlyRaises_error
      (OnlyRaises.mapM (fun patch _ => blobMetadata_noGuard patch) e hmetadata)
  · rcases hprepared.pack_cases nShards with ⟨e, hsymbol, hrun⟩ | ⟨_, _, _, _, hrun⟩
    · rw [hrun]
      exact onlyRaises_error (computeSymbolSize_noGuard _ _ _ _ e hsymbol)
    · rcases hrun with ⟨-, hrun⟩ | ⟨-, ⟨-, _, hrun⟩ | ⟨-, ⟨-, hrun⟩ | ⟨-, _, -, hrun⟩⟩⟩
      all_goals rw [hrun]
      · exact onlyRaises_error rfl
      · exact onlyRaises_error rfl
      · exact onlyRaises_error rfl
      · exact onlyRaises_ok _

/-! ## Every assembled quilt -/

/-- Metadata is a function of the patch. -/
theorem items_eq {items items' : List (QuiltPatchInput × Bytes)}
    (hfst : items.map Prod.fst = items'.map Prod.fst)
    (hmeta : ∀ item ∈ items, blobMetadata item.1 = .ok item.2)
    (hmeta' : ∀ item ∈ items', blobMetadata item.1 = .ok item.2) : items = items' := by
  induction items generalizing items' with
  | nil =>
    rw [List.map_nil, eq_comm, List.map_eq_nil_iff] at hfst
    exact hfst.symm
  | cons item rest ih =>
    cases items' with
    | nil => cases hfst
    | cons item' rest' =>
      obtain ⟨hhead, hmeta⟩ := List.forall_mem_cons.mp hmeta
      obtain ⟨hhead', hmeta'⟩ := List.forall_mem_cons.mp hmeta'
      obtain ⟨hpatch, hrest⟩ := List.cons_eq_cons.mp hfst
      rw [hpatch] at hhead
      have hbytes := Except.ok.inj (hhead.symm.trans hhead')
      rw [ih hrest hmeta hmeta', Prod.ext hpatch hbytes]

/-- The matrix is read back off the length of its bytes. -/
theorem quiltShape_size {symbolSize : Nat} {nShards : Int}
    (hpos : 0 < (shapeOf symbolSize nShards).columnSize)
    (hcolumns : 0 < (shapeOf symbolSize nShards).nColumns) :
    quiltShape (shapeOf symbolSize nShards).size nShards = shapeOf symbolSize nShards := by
  have hrows : 0 < (shapeOf symbolSize nShards).nRows := Nat.pos_of_mul_pos_left hpos
  have hcells : (shapeOf symbolSize nShards).size =
      symbolSize *
        ((shapeOf symbolSize nShards).nRows * (shapeOf symbolSize nShards).nColumns) := by
    simp only [Shape.size, Shape.rowSize, shapeOf]
    ring
  have hsymbol : (shapeOf symbolSize nShards).size /
      ((shapeOf symbolSize nShards).nRows * (shapeOf symbolSize nShards).nColumns) =
        symbolSize := by
    rw [hcells, Nat.mul_div_cancel _ (Nat.mul_pos hrows hcolumns)]
  exact congrArg (fun s => shapeOf s nShards) hsymbol

theorem tiling_of_ok {patches : List QuiltPatchInput} {nShards : Int} {quilt : AssembledQuilt}
    (h : assembleQuilt patches nShards = .ok quilt) :
    ∃ items index indexBytes symbolSize,
      items.map Prod.fst = sortedByIdentifier patches ∧
      computeSymbolSize (blobSizesOf (indexBlob indexBytes).length items)
        (Redstuff.sourceSymbolCounts nShards).2 (Redstuff.sourceSymbolCounts nShards).1 =
          .ok symbolSize ∧
      Layout nShards quilt items index indexBytes (shapeOf symbolSize nShards) ∧
      Tiling quilt (shapeOf symbolSize nShards) (indexBlob indexBytes).length := by
  obtain ⟨items, index, indexBytes, g, hfst, layout⟩ := assembleQuilt_layout h
  rcases assembleQuilt_cases patches nShards with ⟨-, hrun⟩ | ⟨_, -, -, hrun⟩ |
    ⟨_, -, -, hrun⟩ | ⟨items', entries, placeholder, hprepared⟩
  iterate 3
    rw [hrun] at h
    cases h
  obtain rfl := items_eq (hfst.trans hprepared.ordered.symm) layout.metadata
    hprepared.metadata
  rcases hprepared.pack_cases nShards with ⟨_, -, hrun⟩ | ⟨symbolSize, g', hsymbol, hg, hrun⟩
  · rw [hrun] at h
    cases h
  rcases hrun with ⟨-, hrun⟩ | ⟨-, ⟨-, _, hrun⟩ | ⟨hends, ⟨-, hrun⟩ | ⟨-, data, hdata, hrun⟩⟩⟩
  iterate 3
    rw [hrun] at h
    cases h
  obtain rfl := Except.ok.inj (hrun.symm.trans h)
  -- the matrix of the layout is the one that sizing found
  obtain ⟨hpos, hcolumns, hfit⟩ := shape_of_ok hsymbol
  have hshape : g = shapeOf symbolSize nShards := by
    rw [← layout.shape]
    show quiltShape data.length nShards = _
    rw [hdata, ← hg]
    exact quiltShape_size hpos hcolumns
  subst hshape
  subst hg
  -- the index has the length that was set aside for it
  have hpatches := layout.patches_eq
  have hindex := layout.index_eq
  rw [hpatches] at hindex
  obtain ⟨index', hindex', hall, -⟩ := exists_index layout.metadata
    (shapeOf symbolSize nShards).columnSize
    (mathCeil (indexBlob indexBytes).length (shapeOf symbolSize nShards).columnSize)
  obtain rfl := Except.ok.inj (hindex.symm.trans hindex')
  have hsize : (indexBlob indexBytes).length = quiltIndexPrefixSize + placeholder.length := by
    rw [indexBlob, List.length_append, List.length_cons, LittleEndian.length_encode,
      length_quiltIndexV1 layout.metadata hall hprepared.entriesOf layout.indexBytes_eq
        hprepared.serialized]
    rfl
  rw [← hsize] at hsymbol hfit hends
  refine ⟨items, index, indexBytes, symbolSize, hfst, hsymbol, layout, ?_⟩
  have hsmall : (indexBlob indexBytes).length < 2 ^ 53 := by
    have := layout.indexBytes_lt
    rw [indexBlob, List.length_append, List.length_cons, LittleEndian.length_encode]
    omega
  have hfirst := mathCeil_eq_ceilDiv hsmall hpos layout.columnSize_lt
  apply tiling_of_contiguous hdata
  · rw [hpatches]
    obtain ⟨last, hlast, -⟩ := exists_endIndex_eq hprepared.items_ne
      (mathCeil (indexBlob indexBytes).length (shapeOf symbolSize nShards).columnSize)
    exact List.ne_nil_of_mem hlast
  · rw [hpatches, hfirst]
    exact contiguous_layoutsFrom (fun item hitem =>
      patchColumns_pos (layout.metadata item hitem) hpos layout.columnSize_lt) _
  · intro range hrange
    rw [hpatches] at hrange
    exact Nat.le_trans (endIndex_le hrange) hfit
  · intro range hrange
    rw [hpatches] at hrange
    exact Nat.lt_of_le_of_lt (endIndex_le hrange) hends

/-- **The columns are tiled, and the guards are unreachable.** -/
theorem assembleQuilt_tiling (patches : List QuiltPatchInput) (nShards : Int) :
    (∀ quilt, assembleQuilt patches nShards = .ok quilt →
      ∃ items index indexBytes symbolSize,
        items.map Prod.fst = sortedByIdentifier patches ∧
        computeSymbolSize (blobSizesOf (indexBlob indexBytes).length items)
          (Redstuff.sourceSymbolCounts nShards).2 (Redstuff.sourceSymbolCounts nShards).1 =
            .ok symbolSize ∧
        Layout nShards quilt items index indexBytes (shapeOf symbolSize nShards) ∧
        Tiling quilt (shapeOf symbolSize nShards) (indexBlob indexBytes).length) ∧
    -- each assignment to the buffer, however far the loop has got, keeps its length
    (∀ size quilt, bytearray size = .ok quilt → quilt.length = size) ∧
    (∀ rowSize symbolSize nRows turns quilt data row col remainingOffset quilt',
      writeLoop rowSize symbolSize nRows turns quilt data row col remainingOffset =
        .ok quilt' → quilt'.length = quilt.length) ∧
    ∀ e, assembleQuilt patches nShards = .error e →
      e ≠ .rowSizeNotDivisible ∧ e ≠ .columnSizeNotDivisible ∧
      (∀ length startIndex matrixSize, e ≠ .writePastEnd length startIndex matrixSize) ∧
      (∀ indexColumns, e ≠ .indexTooWide indexColumns) ∧
      ∀ sized serialized, e ≠ .indexSizeChanged sized serialized := by
  refine ⟨fun quilt => tiling_of_ok, ?_, ?_, ?_⟩
  · intro size quilt h
    unfold bytearray at h
    split at h
    · cases h
      exact List.length_replicate
    · cases h
  · intro _ _ _ _ _ _ _ _ _ _ h
    exact length_of_writeLoop h
  · intro e h
    have hguard := assembleQuilt_noGuard patches nShards e h
    refine ⟨?_, ?_, ?_, ?_, ?_⟩
    all_goals
      intros
      rintro rfl
      cases hguard

end Pytusk.Quilt
