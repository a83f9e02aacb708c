import Pytusk.Encoding.QuiltRoundTrip
import Pytusk.Encoding.QuiltStages
import Pytusk.Lib.Uleb

/-!
# Which exceptions escape assembly

`prepare_quilt_write` turns a `QuiltAssemblyError` into its own error and
nothing else. What assembly raises beside it comes from conversions without a
check before them: a string with a lone surrogate has no UTF-8, a tag section
may be too long for its two-byte length, a matrix for a buffer, a column for
a `U16` and an index for its four-byte length. `FailsCleanly` says that none
of these is met.
-/

namespace Pytusk.Quilt

open Pytusk.Lib

/-! ## Identifiers -/

theorem validateQuiltIdentifier_surrogate {identifier : PyStr}
    (h : PyStr.encodeUtf8 identifier = none) :
    validateQuiltIdentifier identifier = .error .unicodeEncodeError := by
  have hne : identifier ≠ [] := by
    rintro rfl
    cases h
  rw [validateQuiltIdentifier, if_neg hne, h]

theorem validateQuiltIdentifier_eq_error {identifier : PyStr} {e : QuiltError}
    (h : validateQuiltIdentifier identifier = .error e) :
    e.isAssemblyError = true ∨ PyStr.encodeUtf8 identifier = none := by
  unfold validateQuiltIdentifier at h
  split at h
  · cases h
    exact .inl rfl
  · split at h
    · exact .inr ‹_›
    · left
      split at h
      · cases h
        rfl
      · split at h
        · cases h
          rfl
        · split at h
          · cases h
            rfl
          · cases h

theorem encodeUtf8_of_validate {identifier : PyStr} {u : Unit}
    (h : validateQuiltIdentifier identifier = .ok u) :
    PyStr.encodeUtf8 identifier ≠ none := by
  intro hnone
  rw [validateQuiltIdentifier_surrogate hnone] at h
  cases h

/-- The loop goes on behind the patches it has passed. -/
theorem checkIdentifiers_append {seen : List PyStr} {before : List QuiltPatchInput}
    (h : checkIdentifiers seen before = .ok ()) (after : List QuiltPatchInput) :
    ∃ seen', checkIdentifiers seen (before ++ after) = checkIdentifiers seen' after := by
  induction before generalizing seen with
  | nil => exact ⟨seen, rfl⟩
  | cons patch before ih =>
    obtain ⟨_, hvalid, h⟩ := bind_eq_ok.mp h
    obtain ⟨_, hfresh, h⟩ := bind_eq_ok.mp h
    obtain ⟨seen', hseen'⟩ := ih h
    refine ⟨seen', ?_⟩
    rw [List.cons_append, checkIdentifiers, hvalid, ok_bind, hfresh, ok_bind, hseen']

theorem checkIdentifiers_eq_error {seen : List PyStr} {patches : List QuiltPatchInput}
    {e : QuiltError} (h : checkIdentifiers seen patches = .error e) :
    e.isAssemblyError = true ∨ ∃ before patch after, patches = before ++ patch :: after ∧
      checkIdentifiers seen before = .ok () ∧ PyStr.encodeUtf8 patch.identifier = none := by
  induction patches generalizing seen with
  | nil => cases h
  | cons patch rest ih =>
    rw [checkIdentifiers] at h
    rcases bind_eq_error.mp h with hinvalid | ⟨_, hvalid, h⟩
    · refine (validateQuiltIdentifier_eq_error hinvalid).imp_right fun hnone => ?_
      exact ⟨[], patch, rest, rfl, rfl, hnone⟩
    · rcases bind_eq_error.mp h with hduplicate | ⟨_, hfresh, h⟩
      · left
        unfold raiseIf at hduplicate
        split at hduplicate
        · cases hduplicate
          rfl
        · cases hduplicate
      · refine (ih h).imp_right ?_
        rintro ⟨before, patch', after, rfl, hbefore, hnone⟩
        refine ⟨patch :: before, patch', after, rfl, ?_, hnone⟩
        rw [checkIdentifiers, hvalid, ok_bind, hfresh, ok_bind, hbefore]

theorem encodeUtf8_of_checkIdentifiers {seen : List PyStr} {patches : List QuiltPatchInput}
    {u : Unit} (h : checkIdentifiers seen patches = .ok u) :
    ∀ patch ∈ patches, PyStr.encodeUtf8 patch.identifier ≠ none := by
  induction patches generalizing seen with
  | nil => simp
  | cons patch rest ih =>
    obtain ⟨_, hvalid, h⟩ := bind_eq_ok.mp h
    obtain ⟨_, _, h⟩ := bind_eq_ok.mp h
    exact List.forall_mem_cons.mpr ⟨encodeUtf8_of_validate hvalid, ih h⟩

/-! ## Tags -/

/-- A key or a value that UTF-8 does not encode. -/
def HasSurrogate (tags : Dict PyStr PyStr) : Prop :=
  ∃ tag ∈ tags, PyStr.encodeUtf8 tag.1 = none ∨ PyStr.encodeUtf8 tag.2 = none

theorem exists_stringBcs_iff {s : PyStr} :
    (∃ bytes, stringBcs s = .ok bytes) ↔ PyStr.encodeUtf8 s ≠ none := by
  unfold stringBcs
  split <;> simp [*]

theorem exists_sortedTagEntries {tags : Dict PyStr PyStr} (h : ¬ HasSurrogate tags) :
    ∃ entries, sortedTagEntries tags = .ok entries := by
  have hkeyed : ∀ tag ∈ tags, ∃ item, (do
      return (← tagSortKey tag.1, { key := tag.1, value := tag.2 : QuiltTagEntry }) :
        Except QuiltError _) = .ok item := by
    intro tag htag
    obtain ⟨bytes, hbytes⟩ := exists_stringBcs_iff.mpr
      (fun hnone => h ⟨tag, htag, .inl hnone⟩)
    exact ⟨_, by rw [tagSortKey, hbytes]; rfl⟩
  obtain ⟨keyed, hkeyed⟩ := exists_mapM_ok hkeyed
  exact ⟨_, bind_eq_ok.mpr ⟨keyed, hkeyed, rfl⟩⟩

theorem inlineTags_surrogate {tags : Dict PyStr PyStr} (h : HasSurrogate tags) :
    inlineTags tags = .error .unicodeEncodeError := by
  cases hrun : inlineTags tags with
  | error e => rw [onlyRaises_inlineTags tags e hrun]
  | ok tagBytes =>
    -- every tag is among the entries, and every entry serializes
    obtain ⟨tag, htag, hnone⟩ := h
    rcases inlineTags_cases hrun with ⟨rfl, -⟩ | ⟨-, bytes, hbytes, -⟩
    · cases htag
    obtain ⟨entries, hentries, hvector⟩ := bind_eq_ok.mp hbytes
    have hmem := (sortedTagEntries_canonical hentries).same.mem_iff.mpr htag
    obtain ⟨entry, hentry, rfl⟩ := List.mem_map.mp hmem
    obtain ⟨parts, hparts, -⟩ := bind_eq_ok.mp hvector
    obtain ⟨part, -, hpart⟩ := exists_mem_of_mapM hparts hentry
    obtain ⟨key, hkey, hpart⟩ := bind_eq_ok.mp hpart
    obtain ⟨value, hvalue, -⟩ := bind_eq_ok.mp hpart
    rcases hnone with hnone | hnone
    · exact absurd hnone (exists_stringBcs_iff.mp ⟨key, hkey⟩)
    · exact absurd hnone (exists_stringBcs_iff.mp ⟨value, hvalue⟩)

theorem exists_inlineTags {tags : Dict PyStr PyStr} (h : ¬ HasSurrogate tags) :
    ∃ tagBytes, inlineTags tags = .ok tagBytes := by
  unfold inlineTags
  split
  · exact ⟨none, rfl⟩
  · obtain ⟨entries, hentries⟩ := exists_sortedTagEntries h
    have hparts : ∃ parts, entries.mapM QuiltTagEntry.bcs = .ok parts := by
      apply exists_mapM_ok
      intro entry hentry
      have htag : (entry.key, entry.value) ∈ tags :=
        (sortedTagEntries_canonical hentries).same.mem_iff.mp
          (List.mem_map.mpr ⟨entry, hentry, rfl⟩)
      obtain ⟨key, hkey⟩ := exists_stringBcs_iff.mpr
        fun hnone => h ⟨_, htag, .inl hnone⟩
      obtain ⟨value, hvalue⟩ := exists_stringBcs_iff.mpr
        fun hnone => h ⟨_, htag, .inr hnone⟩
      exact ⟨_, bind_eq_ok.mpr ⟨key, hkey, bind_eq_ok.mpr ⟨value, hvalue, rfl⟩⟩⟩
    obtain ⟨parts, hparts⟩ := hparts
    refine ⟨some (Wire.uleb entries.length ++ parts.flatten), ?_⟩
    rw [serializeTags, hentries, ok_bind, vectorBcs, hparts]
    rfl

/-- The metadata of a patch gets as far as its tags, and these do not fit
into their field. -/
def TagsEscape (patch : QuiltPatchInput) : Prop :=
  ∃ identifierBytes, stringBcs patch.identifier = .ok identifierBytes ∧
    identifierBytes.length < maxBlobIdentifierBytesLength ∧
    (HasSurrogate patch.tags ∨ ∃ tagBytes, inlineTags patch.tags = .ok (some tagBytes) ∧
      2 ^ 16 ≤ tagBytes.length ∧
      2 + identifierBytes.length + (2 + tagBytes.length) + patch.contents.length ≤
        maxSerializedBlobSize)

theorem blobMetadata_of_tagsEscape {patch : QuiltPatchInput} (h : TagsEscape patch) :
    ∃ e, blobMetadata patch = .error e ∧ e.isAssemblyError = false := by
  obtain ⟨identifierBytes, hidentifier, hshort, htags⟩ := h
  have hlong : ¬ identifierBytes.length ≥ maxBlobIdentifierBytesLength := by omega
  rcases htags with hsurrogate | ⟨tagBytes, htags, hbig, hpayload⟩
  · refine ⟨.unicodeEncodeError, ?_, rfl⟩
    simp only [blobMetadata, hidentifier, ok_bind, raiseIf, if_neg hlong,
      inlineTags_surrogate hsurrogate, error_bind]
  · refine ⟨.overflowError, ?_, rfl⟩
    have hfits : ¬ 2 + identifierBytes.length + tagSectionSize (some tagBytes) +
        patch.contents.length > maxSerializedBlobSize := by
      simp only [tagSectionSize]
      omega
    have hfour : 2 + identifierBytes.length + tagSectionSize (some tagBytes) +
        patch.contents.length < 256 ^ 4 := by
      simp only [maxSerializedBlobSize] at hfits
      omega
    have htwo : identifierBytes.length < 256 ^ 2 := by
      simp only [maxBlobIdentifierBytesLength] at hshort
      omega
    have htag : ¬ tagBytes.length < 256 ^ 2 := by omega
    simp only [blobMetadata, hidentifier, ok_bind, raiseIf, if_neg hlong, htags,
      if_neg hfits, toBytes, if_pos hfour, if_pos htwo, tagSection, if_neg htag, error_bind]

theorem blobMetadata_eq_error {patch : QuiltPatchInput} {e : QuiltError}
    (h : blobMetadata patch = .error e) (hidentifier : PyStr.encodeUtf8 patch.identifier ≠ none) :
    e.isAssemblyError = true ∨ TagsEscape patch := by
  obtain ⟨identifierBytes, hbytes⟩ := exists_stringBcs_iff.mpr hidentifier
  by_cases hlong : identifierBytes.length ≥ maxBlobIdentifierBytesLength
  · simp only [blobMetadata, hbytes, ok_bind, raiseIf, if_pos hlong, error_bind] at h
    cases h
    exact .inl rfl
  by_cases hsurrogate : HasSurrogate patch.tags
  · exact .inr ⟨identifierBytes, hbytes, by omega, .inl hsurrogate⟩
  obtain ⟨tagBytes, htags⟩ := exists_inlineTags hsurrogate
  by_cases hpayload : 2 + identifierBytes.length + tagSectionSize tagBytes +
      patch.contents.length > maxSerializedBlobSize
  · simp only [blobMetadata, hbytes, ok_bind, raiseIf, if_neg hlong, htags, if_pos hpayload,
      error_bind] at h
    cases h
    exact .inl rfl
  -- both lengths before the tags have room, so it is the tags' own
  have hfour : 2 + identifierBytes.length + tagSectionSize tagBytes +
      patch.contents.length < 256 ^ 4 := by
    simp only [maxSerializedBlobSize] at hpayload
    omega
  have htwo : identifierBytes.length < 256 ^ 2 := by
    simp only [maxBlobIdentifierBytesLength] at hlong
    omega
  simp only [blobMetadata, hbytes, ok_bind, raiseIf, if_neg hlong, htags, if_neg hpayload,
    toBytes, if_pos hfour, if_pos htwo] at h
  cases tagBytes with
  | none => cases h
  | some tagBytes =>
    by_cases hbig : tagBytes.length < 256 ^ 2
    · simp only [tagSection, toBytes, if_pos hbig, ok_bind] at h
      cases h
    · refine .inr ⟨identifierBytes, hbytes, by omega, .inr ⟨tagBytes, htags, by omega, ?_⟩⟩
      simp only [tagSectionSize] at hpayload
      omega

/-! ## The matrix -/

/-- Every size of the quilt fits into the field or the buffer it goes into. -/
structure SizesFit (items : List (QuiltPatchInput × Bytes)) (indexLength : Nat)
    (nShards : Int) (symbolSize : Nat) : Prop where
  matrix : (shapeOf symbolSize nShards).size < 2 ^ 63
  lastColumn : endColumn (shapeOf symbolSize nShards).columnSize
    (quiltIndexPrefixSize + indexLength) items < 2 ^ 16
  index : indexLength < 2 ^ 32

theorem computeSymbolSize_isAssemblyError (blobSizes : List Nat) (nColumns nRows : Int)
    (maxIndexColumns : Nat) : OnlyRaises (fun e => e.isAssemblyError = true)
      (computeSymbolSize blobSizes nColumns nRows maxIndexColumns) := by
  unfold computeSymbolSize
  split
  · exact onlyRaises_error rfl
  · split
    · exact onlyRaises_error rfl
    · simp only
      split
      · exact onlyRaises_error rfl
      · split
        · exact onlyRaises_error rfl
        · exact onlyRaises_ok _

/-- Where there is a column there is a row. -/
theorem one_le_primary {nShards : Int} (h : 1 ≤ (Redstuff.sourceSymbolCounts nShards).2) :
    1 ≤ (Redstuff.sourceSymbolCounts nShards).1 := by
  simp only [Redstuff.sourceSymbolCounts, Redstuff.minNCorrect, Redstuff.maxNFaulty] at h ⊢
  omega

section Sizing

variable {items : List (QuiltPatchInput × Bytes)} {indexSize symbolSize : Nat} {nShards : Int}

/-- What the patches take next to the index. -/
def patchSizes (items : List (QuiltPatchInput × Bytes)) : List Nat :=
  items.map fun (patch, inline) => inline.length + patch.contents.length

/-- **Sizing succeeds** with the least size that the code accepts, if that is
one of the encoding's. -/
theorem computeSymbolSize_eq_ok_iff (hmeta : ∀ item ∈ items, blobMetadata item.1 = .ok item.2) :
    computeSymbolSize (blobSizesOf indexSize items) (Redstuff.sourceSymbolCounts nShards).2
        (Redstuff.sourceSymbolCounts nShards).1 = .ok symbolSize ↔
      (items.length : Int) < (Redstuff.sourceSymbolCounts nShards).2 ∧
      IsLeast (acceptedSizes indexSize (patchSizes items)
        (Redstuff.sourceSymbolCounts nShards).2.toNat
        (Redstuff.sourceSymbolCounts nShards).1.toNat maxNumSliversForQuiltIndex) symbolSize ∧
      symbolSize ≤ Redstuff.rs2MaxSymbolSize := by
  have hcons : blobSizesOf indexSize items = indexSize :: patchSizes items := rfl
  have hlen : (indexSize :: patchSizes items).length = items.length + 1 := by
    rw [List.length_cons, patchSizes, List.length_map]
  rw [hcons]
  by_cases hcolumns : (items.length : Int) < (Redstuff.sourceSymbolCounts nShards).2
  · have hrows := one_le_primary (show 1 ≤ (Redstuff.sourceSymbolCounts nShards).2 by omega)
    generalize (Redstuff.sourceSymbolCounts nShards).2 = nColumns at *
    generalize (Redstuff.sourceSymbolCounts nShards).1 = nRows at *
    have hquot : ∀ size ∈ indexSize :: patchSizes items, size < 2 ^ 53 *
        (minSymbolSize indexSize (patchSizes items) nColumns.toNat nRows.toNat
          maxNumSliversForQuiltIndex * nRows.toNat) := by
      have hlow := minSymbolSize_pos indexSize (patchSizes items)
        (show 0 < nColumns.toNat by omega) (show 0 < nRows.toNat by omega)
        (show 0 < maxNumSliversForQuiltIndex by decide)
      have hmin := (minSymbolSize_le_iff (show 0 < nColumns.toNat by omega)
        (show 0 < nRows.toNat by omega) (show 0 < maxNumSliversForQuiltIndex by decide)).mp
        (Nat.le_refl (minSymbolSize indexSize (patchSizes items) nColumns.toNat nRows.toNat
          maxNumSliversForQuiltIndex))
      generalize minSymbolSize indexSize (patchSizes items) nColumns.toNat nRows.toNat
        maxNumSliversForQuiltIndex = low at hlow hmin ⊢
      have hcolumn : 0 < low * nRows.toNat := Nat.mul_pos hlow (by omega)
      refine List.forall_mem_cons.mpr ⟨?_, ?_⟩
      · -- the index takes at most ten columns
        have hten : indexSize ≤ maxNumSliversForQuiltIndex * (low * nRows.toNat) := by
          calc indexSize ≤ nRows.toNat * maxNumSliversForQuiltIndex * low := hmin.2.1
            _ = maxNumSliversForQuiltIndex * (low * nRows.toNat) := by ring
        exact Nat.lt_of_le_of_lt hten (Nat.mul_lt_mul_of_pos_right (by decide) hcolumn)
      · intro size hsize
        obtain ⟨item, hitem, rfl⟩ := List.mem_map.mp hsize
        have hlt := length_patchBytes_lt (hmeta item hitem)
        rw [patchBytes, List.length_append] at hlt
        exact Nat.lt_of_lt_of_le hlt (Nat.le_mul_of_pos_right _ hcolumn)
    obtain ⟨s, hleast, hrun⟩ := computeSymbolSize_of_le hrows
      (show 1 ≤ maxNumSliversForQuiltIndex by decide)
      (show ((indexSize :: patchSizes items).length : Int) ≤ nColumns by omega) hquot
    rw [hrun]
    constructor
    · intro h
      split at h
      · cases h
        exact ⟨hcolumns, hleast, ‹_›⟩
      · cases h
    · rintro ⟨-, hleast', hle⟩
      rw [hleast.unique hleast', if_pos hle]
  · refine iff_of_false ?_ (fun h => hcolumns h.1)
    intro h
    have hmany : (Redstuff.sourceSymbolCounts nShards).2 <
        (indexSize :: patchSizes items).length := by omega
    rw [computeSymbolSize_tooMany hmany] at h
    cases h

end Sizing

/-! ## The condition -/

/-- No conversion is met that the value does not fit into: of the identifiers,
in order, the first one that is refused is none with a surrogate; of the
patches, in order, the first one without metadata lacks it for another reason
than its tags; and the symbol size that the batch needs, if there is one,
makes a matrix, a last column and an index that fit. -/
structure FailsCleanly (patches : List QuiltPatchInput) (nShards : Int) : Prop where
  identifiers : ∀ before patch after, sortedByIdentifier patches = before ++ patch :: after →
    checkIdentifiers [] before = .ok () → PyStr.encodeUtf8 patch.identifier ≠ none
  tags : checkIdentifiers [] (sortedByIdentifier patches) = .ok () →
    ∀ before patch after, sortedByIdentifier patches = before ++ patch :: after →
      (∀ other ∈ before, ∃ metadata, blobMetadata other = .ok metadata) → ¬ TagsEscape patch
  sizes : ∀ items entries placeholder, Prepared patches items entries placeholder →
    (items.length : Int) < (Redstuff.sourceSymbolCounts nShards).2 →
    ∀ symbolSize ≤ Redstuff.rs2MaxSymbolSize,
      IsLeast (acceptedSizes (quiltIndexPrefixSize + placeholder.length) (patchSizes items)
        (Redstuff.sourceSymbolCounts nShards).2.toNat
        (Redstuff.sourceSymbolCounts nShards).1.toNat maxNumSliversForQuiltIndex) symbolSize →
      SizesFit items placeholder.length nShards symbolSize

theorem isAssemblyError_of_failsCleanly {patches : List QuiltPatchInput} {nShards : Int}
    {e : QuiltError} (hclean : FailsCleanly patches nShards)
    (h : assembleQuilt patches nShards = .error e) : e.isAssemblyError = true := by
  rcases assembleQuilt_cases patches nShards with ⟨-, hrun⟩ | ⟨e', -, hcheck, hrun⟩ |
    ⟨e', hcheck, hmetadata, hrun⟩ | ⟨items, entries, placeholder, hprepared⟩
  · obtain rfl := Except.error.inj (hrun.symm.trans h)
    rfl
  · obtain rfl := Except.error.inj (hrun.symm.trans h)
    rcases checkIdentifiers_eq_error hcheck with hown | ⟨before, patch, after, heq, hbefore, hnone⟩
    · exact hown
    · exact absurd hnone (hclean.identifiers before patch after heq hbefore)
  · obtain rfl := Except.error.inj (hrun.symm.trans h)
    obtain ⟨before, patch, after, heq, hbefore, hpatch⟩ := mapM_eq_error.mp hmetadata
    have hidentifier := encodeUtf8_of_checkIdentifiers hcheck patch (by rw [heq]; simp)
    rcases blobMetadata_eq_error hpatch hidentifier with hown | hescape
    · exact hown
    · exact absurd hescape (hclean.tags hcheck before patch after heq hbefore)
  · rcases hprepared.pack_cases nShards with ⟨e', hsymbol, hrun⟩ |
      ⟨symbolSize, g, hsymbol, rfl, hrun⟩
    · obtain rfl := Except.error.inj (hrun.symm.trans h)
      exact computeSymbolSize_isAssemblyError _ _ _ _ e' hsymbol
    · obtain ⟨hcolumns, hleast, hle⟩ :=
        (computeSymbolSize_eq_ok_iff hprepared.metadata).mp hsymbol
      have hfit := hclean.sizes items entries placeholder hprepared hcolumns symbolSize hle hleast
      have hmatrix := hfit.matrix
      have hlast := hfit.lastColumn
      have hindex := hfit.index
      rcases hrun with ⟨hbig, -⟩ | ⟨-, ⟨hbig, -⟩ | ⟨-, ⟨hbig, -⟩ | ⟨-, _, -, hrun⟩⟩⟩
      · omega
      · omega
      · omega
      · rw [hrun] at h
        cases h

/-- A surrogate, a tag section or a size that the conversions meet escapes. -/
theorem failsCleanly_of_isAssemblyError {patches : List QuiltPatchInput} {nShards : Int}
    (h : ∀ e, assembleQuilt patches nShards = .error e → e.isAssemblyError = true) :
    FailsCleanly patches nShards := by
  have hne : ∀ {before : List QuiltPatchInput} {patch after},
      sortedByIdentifier patches = before ++ patch :: after → patches ≠ [] := by
    rintro before patch after heq rfl
    have := congrArg List.length heq
    rw [List.length_append, List.length_cons] at this
    exact absurd this (by simp [sortedByIdentifier])
  refine ⟨?_, ?_, ?_⟩
  · intro before patch after heq hbefore hnone
    have hcheck : checkIdentifiers [] (sortedByIdentifier patches) =
        .error .unicodeEncodeError := by
      obtain ⟨seen, hseen⟩ := checkIdentifiers_append hbefore (patch :: after)
      rw [heq, hseen, checkIdentifiers, validateQuiltIdentifier_surrogate hnone, error_bind]
    have hrun : assembleQuilt patches nShards = .error .unicodeEncodeError := by
      simp only [assembleQuilt_eq, raiseIf, if_neg (hne heq), hcheck, ok_bind, error_bind]
    cases h _ hrun
  · intro hcheck before patch after heq hbefore hescape
    obtain ⟨e, hpatch, hforeign⟩ := blobMetadata_of_tagsEscape hescape
    have hmetadata : (sortedByIdentifier patches).mapM blobMetadata = .error e :=
      mapM_eq_error.mpr ⟨before, patch, after, heq, hbefore, hpatch⟩
    have hrun : assembleQuilt patches nShards = .error e := by
      simp only [assembleQuilt_eq, raiseIf, if_neg (hne heq), hcheck, hmetadata, ok_bind,
        error_bind]
    rw [h e hrun] at hforeign
    cases hforeign
  · intro items entries placeholder hprepared hcolumns symbolSize hle hleast
    have hsymbol := (computeSymbolSize_eq_ok_iff hprepared.metadata).mpr ⟨hcolumns, hleast, hle⟩
    rcases hprepared.pack_cases nShards with ⟨_, hsymbol', -⟩ |
      ⟨symbolSize', g, hsymbol', rfl, hrun⟩
    · rw [hsymbol] at hsymbol'
      cases hsymbol'
    · obtain rfl := Except.ok.inj (hsymbol.symm.trans hsymbol')
      rcases hrun with ⟨-, hrun⟩ | ⟨hmatrix, ⟨-, _, hrun⟩ | ⟨hlast, ⟨-, hrun⟩ | ⟨hindex, -⟩⟩⟩
      · cases h _ hrun
      · cases h _ hrun
      · cases h _ hrun
      · exact ⟨hmatrix, hlast, hindex⟩

/-- **Assembly fails with its own error** exactly then. -/
theorem assembleQuilt_failsCleanly (patches : List QuiltPatchInput) (nShards : Int) :
    (∀ e, assembleQuilt patches nShards = .error e → e.isAssemblyError = true) ↔
      FailsCleanly patches nShards :=
  ⟨failsCleanly_of_isAssemblyError, fun hclean _ => isAssemblyError_of_failsCleanly hclean⟩

/-! ### A tag too long for its field -/

/-- `"v" * n` is a byte a character. -/
theorem encodeUtf8_replicate (n : Nat) :
    PyStr.encodeUtf8 (List.replicate n 118) = some (List.replicate n 118) := by
  have hchars : (List.replicate n (118 : CodePoint)).mapM PyStr.toChar? =
      some (List.replicate n 'v') := by
    induction n with
    | zero => rfl
    | succ n ih =>
      rw [List.replicate_succ, List.mapM_cons, ih]
      rfl
  have hbytes : (List.replicate n 'v').flatMap String.utf8EncodeChar =
      List.replicate n 118 := by
    clear hchars
    induction n with
    | zero => rfl
    | succ n ih =>
      rw [List.replicate_succ, List.flatMap_cons, ih]
      rfl
  rw [PyStr.encodeUtf8, hchars, Option.map_some, hbytes]

/-- One tag, whose value has 65536 bytes. -/
private def longTagPatch : QuiltPatchInput where
  identifier := [97]
  contents := []
  tags := [([107], List.replicate 65536 118)]
  tags_nodup := List.nodup_singleton _

private theorem tagsEscape_longTagPatch : TagsEscape longTagPatch := by
  obtain ⟨n, hn⟩ : ∃ n, n = 65536 := ⟨_, rfl⟩
  have hvalue : stringBcs (List.replicate n 118) =
      .ok (Wire.uleb n ++ List.replicate n 118) := by
    rw [stringBcs, encodeUtf8_replicate]
    simp only [List.length_replicate]
  have hkey : stringBcs [107] = .ok [1, 107] := rfl
  have htags : inlineTags [([107], List.replicate n 118)] =
      .ok (some ([1] ++ ([1, 107] ++ (Wire.uleb n ++ List.replicate n 118)))) := by
    have hsort : sortedTagEntries [([107], List.replicate n 118)] =
        .ok [{ key := [107], value := List.replicate n 118 }] := rfl
    have hentry : QuiltTagEntry.bcs { key := [107], value := List.replicate n 118 } =
        .ok ([1, 107] ++ (Wire.uleb n ++ List.replicate n 118)) := by
      rw [QuiltTagEntry.bcs, hkey, hvalue]
      rfl
    rw [inlineTags, if_neg (List.cons_ne_nil _ _), serializeTags, hsort, ok_bind, vectorBcs,
      List.mapM_cons, hentry, List.mapM_nil]
    simp only [ok_bind, pure_eq_ok, List.flatten_cons, List.flatten_nil, List.append_nil]
    rfl
  have huleb : (Wire.uleb n).length ≤ 2 + 1 := length_uleb_le (by omega)
  refine ⟨[1, 97], rfl, by decide, .inr ⟨_, by rw [longTagPatch, ← hn]; exact htags, ?_, ?_⟩⟩
  · simp only [List.length_append, List.length_cons, List.length_nil, List.length_replicate]
    omega
  · simp only [List.length_append, List.length_cons, List.length_nil, List.length_replicate,
      longTagPatch, maxSerializedBlobSize]
    omega

/-- The tag section is measured nowhere before its length is written. -/
theorem assembleQuilt_escapes_longTag :
    ∃ e, assembleQuilt [longTagPatch] 7 = .error e ∧ e.isAssemblyError = false := by
  obtain ⟨e, hpatch, hforeign⟩ := blobMetadata_of_tagsEscape tagsEscape_longTagPatch
  have hsorted : sortedByIdentifier [longTagPatch] = [longTagPatch] := rfl
  have hcheck : checkIdentifiers [] [longTagPatch] = .ok () := rfl
  refine ⟨e, ?_, hforeign⟩
  simp only [assembleQuilt_eq, raiseIf, if_neg (List.cons_ne_nil _ _), hsorted, hcheck,
    List.mapM_cons, hpatch, ok_bind, error_bind]

end Pytusk.Quilt
