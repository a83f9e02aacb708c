import Pytusk.Certification

/-!
# What makes a certificate sound

`Sound` is what `certify_blob` relies on besides the signature, stated against
the committee the certificate is for. A certificate built from confirmations
that really are of that committee's members is sound.
-/

namespace Pytusk.Certification

open Pytusk.Lib

/-- The positions are ascending members, the bitmap says the same, and the
weight is theirs and a quorum. -/
structure Sound (c : WalrusCommittee) (cert : Certificate) : Prop where
  ascending : cert.signerPositions.Pairwise (· < ·)
  inside : ∀ p ∈ cert.signerPositions, p < c.committeeSize
  bitmapLength : cert.signersBitmap.length = (c.committeeSize + 7) / 8
  unpacks : unpackSignersBitmap cert.signersBitmap c.committeeSize =
    .ok cert.signerPositions
  weight : ∃ signers, c.membersAt cert.signerPositions = .ok signers ∧
    cert.weight = (signers.map (·.weight)).sum
  quorum : isQuorum cert.weight c.nShards = true

/-- An ascending list is read back from a range by membership. -/
private theorem filter_range_mem {ps : List Nat} {n : Nat}
    (hasc : ps.Pairwise (· < ·)) (hlt : ∀ p ∈ ps, p < n) :
    ((List.range n).filter fun q : Nat => (q : Int) ∈ ps.map Int.ofNat) = ps := by
  apply List.Perm.eq_of_pairwise' (List.pairwise_lt_range.filter _) hasc
  apply (List.perm_ext_iff_of_nodup (List.nodup_range.filter _)
    (hasc.imp Nat.ne_of_lt)).mpr
  intro q
  have hcast : (q : Int) ∈ ps.map Int.ofNat ↔ q ∈ ps := by
    simp only [List.mem_map, Int.ofNat_eq_natCast, Int.natCast_inj, exists_eq_right]
  simp only [List.mem_filter, List.mem_range, hcast, decide_eq_true_eq]
  exact ⟨fun h => h.2, fun h => ⟨hlt q h, h⟩⟩

/-- What a packed bitmap of ascending positions gives. -/
theorem unpack_of_pack_ascending {ps : List Nat} {n : Nat} {b : Bytes}
    (hasc : ps.Pairwise (· < ·)) (h : packSignersBitmap (ps.map Int.ofNat) n = .ok b) :
    (∀ p ∈ ps, p < n) ∧ b.length = (n + 7) / 8 ∧
      unpackSignersBitmap b n = .ok ps := by
  have hlt := (packSignersBitmap_ofNat_eq_ok.mp h).1
  obtain ⟨hlen, hunpack⟩ := unpack_of_pack h
  rw [filter_range_mem hasc hlt] at hunpack
  exact ⟨hlt, hlen, hunpack⟩

theorem ascending_insertionSort {ps : List Nat} (h : ps.Nodup) :
    (ps.insertionSort (· ≤ ·)).Pairwise (· < ·) := by
  have hle := List.pairwise_insertionSort (· ≤ ·) ps
  have hne := (List.perm_insertionSort (· ≤ ·) ps).nodup_iff.mpr h
  exact (hle.and hne).imp fun ⟨hab, hneq⟩ => Nat.lt_of_le_of_ne hab hneq

/-! ## Certificates from confirmations -/

/-- A confirmation carries the data of the member at its position. -/
def FromMember (c : WalrusCommittee) (conf : NodeConfirmation) : Prop :=
  ∃ m, c.members[conf.position]? = some m ∧ conf.weight = m.weight ∧
    conf.publicKey = m.publicKey

/-- The signature check drops confirmations and adds none. -/
theorem checkSignatures_sublist {bls : Bls} {cs : List NodeConfirmation}
    {reference : Bytes} {signed : Signed}
    (h : checkSignatures bls cs reference = .ok signed) :
    signed.confirmations.Sublist cs := by
  unfold checkSignatures at h
  split at h
  · cases h
    exact .refl _
  · simp only [excludeBad] at h
    split at h
    · cases h
    · split at h
      · cases h
      · split at h
        · cases h
        · cases h
          exact List.filter_sublist

theorem buildCertificate_eq_ok {bls : Bls} {cs : List NodeConfirmation}
    {n shards : Nat} {reference : Bytes} {cert : Certificate}
    (h : buildCertificate bls cs n shards (some reference) = .ok cert) :
    checkMessages cs reference = .ok () ∧
      ∃ signed, checkSignatures bls cs reference = .ok signed ∧
        assemble signed n shards reference = .ok cert := by
  cases cs with
  | nil => cases h
  | cons first rest =>
    obtain ⟨⟨⟩, hmessages, hrest⟩ := bind_eq_ok.mp h
    obtain ⟨signed, hsigned, hassemble⟩ := bind_eq_ok.mp hrest
    exact ⟨hmessages, signed, hsigned, hassemble⟩

/-- The weights at the positions of confirmations are those they carry. -/
private theorem weight_at_positions {c : WalrusCommittee} {cs : List NodeConfirmation}
    (hcs : ∀ conf ∈ cs, FromMember c conf) :
    (((cs.map (·.position)).filterMap (c.members[·]?)).map (·.weight)).sum =
      totalWeight cs := by
  induction cs with
  | nil => rfl
  | cons conf rest ih =>
    obtain ⟨⟨m, hm, hweight, -⟩, hrest⟩ := List.forall_mem_cons.mp hcs
    rw [List.map_cons, List.filterMap_cons, hm, List.map_cons, List.sum_cons, ih hrest,
      totalWeight, totalWeight, List.map_cons, List.sum_cons, hweight]

/-- **A certificate built from members' confirmations is sound**, and is over
the reference message. -/
theorem buildCertificate_sound {bls : Bls} {c : WalrusCommittee}
    {cs : List NodeConfirmation} {reference : Bytes} {cert : Certificate}
    (hcs : ∀ conf ∈ cs, FromMember c conf)
    (h : buildCertificate bls cs c.committeeSize c.nShards (some reference) = .ok cert) :
    Sound c cert ∧ cert.serializedMessage = reference := by
  obtain ⟨-, signed, hsigned, hassemble⟩ := buildCertificate_eq_ok h
  obtain ⟨hnodup, hquorum, bitmap, hpack, rfl⟩ := assemble_eq_ok.mp hassemble
  have hmembers : ∀ conf ∈ signed.confirmations, FromMember c conf :=
    fun conf hconf => hcs conf ((checkSignatures_sublist hsigned).subset hconf)
  have hasc := ascending_insertionSort hnodup
  obtain ⟨hinside, hlength, hunpack⟩ := unpack_of_pack_ascending hasc hpack
  refine ⟨⟨hasc, hinside, hlength, hunpack, ?_, hquorum⟩, rfl⟩
  refine ⟨_, WalrusCommittee.membersAt_eq_ok.mpr ⟨hinside, rfl⟩, ?_⟩
  -- sorting the positions only permutes the members
  have hperm := ((List.perm_insertionSort (· ≤ ·)
    (signed.confirmations.map (·.position))).filterMap (c.members[·]?)).map (·.weight)
  exact (weight_at_positions hmembers).symm.trans hperm.sum_nat.symm

/-! ## What is raised instead -/

/-- An aggregate can be built over signatures that verify. -/
def AggregatesVerified (bls : Bls) : Prop :=
  ∀ (signers : List (Bytes × Bytes)) (message : Bytes), signers ≠ [] →
    (∀ s ∈ signers, verifies bls s.1 s.2 message = true) →
    ∃ aggregate, bls.aggregate (signers.map Prod.snd) = .ok aggregate

/-- One of the three errors of a certificate that cannot be built. -/
def isCertificateError : PyExn → Bool
  | .quorumNotReachedError _ | .confirmationMismatchError _ | .invalidConfirmationError _ => true
  | _ => false

private theorem checkSignatures_raises {bls : Bls} (hagg : AggregatesVerified bls)
    (cs : List NodeConfirmation) (reference : Bytes) :
    OnlyRaises (isCertificateError · = true) (checkSignatures bls cs reference) := by
  unfold checkSignatures
  split
  · exact onlyRaises_ok _
  · simp only [excludeBad]
    split
    · exact onlyRaises_error rfl
    · split
      · exact onlyRaises_error rfl
      · rename_i hgood
        -- the second aggregate is over signatures that verified
        have hne : (cs.filter (isGood bls reference)).map
            (fun c => (c.publicKey, c.signature)) ≠ [] := by simpa using hgood
        obtain ⟨aggregate, haggregate⟩ := hagg _ reference hne fun s hs => by
          obtain ⟨c, hc, rfl⟩ := List.mem_map.mp hs
          exact (List.mem_filter.mp hc).2
        rw [List.map_map] at haggregate
        rw [show bls.aggregate ((cs.filter (isGood bls reference)).map (·.signature)) =
          .ok aggregate from haggregate]
        exact onlyRaises_ok _

private theorem assemble_raises {signed : Signed} {n shards : Nat} {reference : Bytes}
    (hnodup : (signed.confirmations.map (·.position)).Nodup)
    (hinside : ∀ conf ∈ signed.confirmations, conf.position < n) :
    OnlyRaises (isCertificateError · = true) (assemble signed n shards reference) := by
  by_cases hquorum : isQuorum (totalWeight signed.confirmations) shards = true
  · obtain ⟨bitmap, hbitmap⟩ : ∃ bitmap, packSignersBitmap
        (((signed.confirmations.map (·.position)).insertionSort (· ≤ ·)).map Int.ofNat) n =
          .ok bitmap := by
      refine ⟨_, packSignersBitmap_ofNat_eq_ok.mpr ⟨?_, rfl⟩⟩
      intro p hp
      obtain ⟨conf, hconf, rfl⟩ := List.mem_map.mp ((List.mem_insertionSort _).mp hp)
      exact hinside conf hconf
    rw [assemble_eq_ok.mpr ⟨hnodup, hquorum, bitmap, hbitmap, rfl⟩]
    exact onlyRaises_ok _
  · have hfold : signed.confirmations.foldlM countWeight ([], 0) =
        .ok (signed.confirmations.map (·.position), totalWeight signed.confirmations) :=
      (foldlM_countWeight List.nodup_nil).mpr ⟨by simpa using hnodup, by simp⟩
    unfold assemble
    rw [hfold, ok_bind]
    simp only [if_neg hquorum]
    refine onlyRaises_error ?_
    unfold quorumNotReached
    dsimp only
    split <;> rfl

/-- **Over distinct members, building a certificate raises only the three
errors its caller wraps.** -/
theorem buildCertificate_raises {bls : Bls} {c : WalrusCommittee}
    {cs : List NodeConfirmation} {reference : Bytes} (hagg : AggregatesVerified bls)
    (hne : cs ≠ []) (hcs : ∀ conf ∈ cs, FromMember c conf)
    (hnodup : (cs.map (·.position)).Nodup) :
    OnlyRaises (isCertificateError · = true)
      (buildCertificate bls cs c.committeeSize c.nShards (some reference)) := by
  cases cs with
  | nil => exact absurd rfl hne
  | cons first rest =>
    have hmessages : OnlyRaises (isCertificateError · = true)
        (checkMessages (first :: rest) reference) := by
      unfold checkMessages
      split
      · exact onlyRaises_error rfl
      · exact onlyRaises_ok _
    refine hmessages.bind fun _ _ => ?_
    refine (checkSignatures_raises hagg _ _).bind fun signed hsigned => ?_
    have hsublist := checkSignatures_sublist hsigned
    refine assemble_raises (hnodup.sublist (hsublist.map _)) fun conf hconf => ?_
    obtain ⟨m, hm, -, -⟩ := hcs conf (hsublist.subset hconf)
    exact (List.getElem?_eq_some_iff.mp hm).1

end Pytusk.Certification
