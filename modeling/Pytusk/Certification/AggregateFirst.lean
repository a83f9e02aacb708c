import Pytusk.Certification.Soundness

/-!
# Aggregate first, or one signature at a time

`build_certificate` verifies one aggregate and looks at single signatures only
when that fails. Here its `aggregate_signature` is optional, as it is in the
source until the assertion before the `return`. Under an ideal scheme the two
paths cannot be told apart: what is built is what the confirmations that
verify on their own make up.
-/

namespace Pytusk.Certification

open Pytusk.Lib

/-! ## The source's variables -/

/-- `confirmations`, `aggregate_signature` and `bad_nodes`, as they are bound
when the two paths meet. -/
structure Narrowed where
  confirmations : List NodeConfirmation
  aggregateSignature : Option Bytes
  badNodes : List String

/-- `if not aggregate_verified:` -/
def narrow (bls : Bls) (confirmations : List NodeConfirmation) (reference : Bytes) :
    Except PyExn Narrowed :=
  let (aggregateSignature, aggregateVerified) := aggregateFirst bls confirmations reference
  if aggregateVerified then .ok ⟨confirmations, aggregateSignature, []⟩
  else do
    let signed ← excludeBad bls confirmations reference
    return ⟨signed.confirmations, some signed.aggregate, signed.badNodes⟩

/-- `assert aggregate_signature is not None` -/
def assertBuilt : Option Bytes → Except PyExn Bytes
  | some aggregate => .ok aggregate
  | none => .error (.builtin .assertionError "")

/-- The shared tail, with the assertion where the source has it. -/
def assembleNarrowed (narrowed : Narrowed) (committeeSize nShards : Nat) (reference : Bytes) :
    Except PyExn Certificate := do
  let (seenPositions, weight) ← narrowed.confirmations.foldlM countWeight ([], 0)
  if isQuorum weight nShards then do
    let signerPositions := seenPositions.insertionSort (· ≤ ·)
    let signersBitmap ← packSignersBitmap (signerPositions.map Int.ofNat) committeeSize
    let aggregateSignature ← assertBuilt narrowed.aggregateSignature
    return {
      serializedMessage := reference
      aggregateSignature := aggregateSignature
      signersBitmap := signersBitmap
      signerPositions := signerPositions
      weight := weight }
  else throw (quorumNotReached weight nShards narrowed.badNodes)

/-- `reference_message`; of no confirmations it is not asked. -/
def referenceMessage (expectedMessage : Option Bytes) : List NodeConfirmation → Bytes
  | [] => expectedMessage.getD []
  | first :: _ => expectedMessage.getD first.serializedMessage

/-- `build_certificate`, assertion included. -/
def buildCertificateAsserting (bls : Bls) (confirmations : List NodeConfirmation)
    (committeeSize nShards : Nat) (expectedMessage : Option Bytes) : Except PyExn Certificate :=
  match confirmations with
  | [] => .error (.valueError "confirmations must not be empty")
  | _ :: _ => do
      let reference := referenceMessage expectedMessage confirmations
      checkMessages confirmations reference
      let narrowed ← narrow bls confirmations reference
      assembleNarrowed narrowed committeeSize nShards reference

/-! ## The assertion holds -/

/-- What was verified was built. -/
private theorem aggregateFirst_built {bls : Bls} {cs : List NodeConfirmation} {reference : Bytes}
    {aggregate : Option Bytes} (h : aggregateFirst bls cs reference = (aggregate, true)) :
    ∃ built, aggregate = some built := by
  unfold aggregateFirst at h
  split at h
  · cases h
  · split at h <;> cases h
    exact ⟨_, rfl⟩

private theorem narrow_eq (bls : Bls) (cs : List NodeConfirmation) (reference : Bytes) :
    narrow bls cs reference = (do
      let signed ← checkSignatures bls cs reference
      return ⟨signed.confirmations, some signed.aggregate, signed.badNodes⟩) := by
  unfold narrow checkSignatures
  cases hfirst : aggregateFirst bls cs reference with
  | mk aggregate verified =>
    cases verified with
    | true =>
      obtain ⟨built, rfl⟩ := aggregateFirst_built hfirst
      rfl
    | false => cases aggregate <;> rfl

private theorem assembleNarrowed_eq (signed : Signed) (n shards : Nat) (reference : Bytes) :
    assembleNarrowed ⟨signed.confirmations, some signed.aggregate, signed.badNodes⟩ n shards
      reference = assemble signed n shards reference := by
  unfold assembleNarrowed assemble assertBuilt
  simp only [ok_bind]

/-- With the assertion or without it, the same is built and the same raised. -/
theorem buildCertificateAsserting_eq (bls : Bls) (cs : List NodeConfirmation) (n shards : Nat)
    (expected : Option Bytes) :
    buildCertificateAsserting bls cs n shards expected =
      buildCertificate bls cs n shards expected := by
  cases cs with
  | nil => rfl
  | cons first rest =>
    unfold buildCertificateAsserting buildCertificate referenceMessage
    dsimp only
    rw [narrow_eq]
    congr 1
    funext _
    cases checkSignatures bls (first :: rest) (expected.getD first.serializedMessage) with
    | error e => rfl
    | ok signed => exact assembleNarrowed_eq signed n shards _

/-- Not an `AssertionError`. -/
private def NoAssertion (e : PyExn) : Prop := ∀ text, e ≠ .builtin .assertionError text

private theorem checkMessages_noAssertion (cs : List NodeConfirmation) (reference : Bytes) :
    OnlyRaises NoAssertion (checkMessages cs reference) := by
  unfold checkMessages
  split
  · exact onlyRaises_error (fun _ h => nomatch h)
  · exact onlyRaises_ok _

private theorem checkSignatures_noAssertion (bls : Bls) (cs : List NodeConfirmation)
    (reference : Bytes) : OnlyRaises NoAssertion (checkSignatures bls cs reference) := by
  unfold checkSignatures
  split
  · exact onlyRaises_ok _
  · unfold excludeBad
    dsimp only
    split
    · exact onlyRaises_error (fun _ h => nomatch h)
    · split
      · exact onlyRaises_error (fun _ h => nomatch h)
      · split
        · exact onlyRaises_error (fun _ h => nomatch h)
        · exact onlyRaises_ok _

private theorem assemble_noAssertion (signed : Signed) (n shards : Nat) (reference : Bytes) :
    OnlyRaises NoAssertion (assemble signed n shards reference) := by
  unfold assemble
  refine OnlyRaises.bind (OnlyRaises.foldlM ?_ _ _) fun r _ => ?_
  · intro seen c
    unfold countWeight
    split
    · exact onlyRaises_error (fun _ h => nomatch h)
    · exact onlyRaises_ok _
  · obtain ⟨seenPositions, weight⟩ := r
    by_cases hquorum : isQuorum weight shards = true
    · simp only [if_pos hquorum]
      refine OnlyRaises.bind (OnlyRaises.foldlM ?_ _ _) fun bitmap _ => onlyRaises_ok _
      intro bitmap position
      split
      · exact onlyRaises_error (fun _ h => nomatch h)
      · exact onlyRaises_ok _
    · simp only [if_neg hquorum]
      refine onlyRaises_error ?_
      unfold quorumNotReached
      dsimp only
      split <;> exact fun _ h => nomatch h

private theorem buildCertificate_noAssertion (bls : Bls) (cs : List NodeConfirmation)
    (n shards : Nat) (expected : Option Bytes) :
    OnlyRaises NoAssertion (buildCertificate bls cs n shards expected) := by
  cases cs with
  | nil => exact onlyRaises_error (fun _ h => nomatch h)
  | cons first rest =>
    refine (checkMessages_noAssertion _ _).bind fun _ _ => ?_
    refine (checkSignatures_noAssertion bls _ _).bind fun signed _ => ?_
    exact assemble_noAssertion signed n shards _

/-! ## An ideal scheme -/

/-- The scheme without its curve: an aggregate verifies exactly when every
signature in it does, and a `ValueError` is raised exactly on what cannot be
parsed. -/
structure Exact (bls : Bls) (keyParses signatureParses : Bytes → Prop) : Prop where
  verifyRaises : ∀ key signature message,
    (∃ text, bls.verify key signature message = .error text) ↔
      ¬ (keyParses key ∧ signatureParses signature)
  aggregateRaises : ∀ signatures, signatures ≠ [] →
    ((∃ text, bls.aggregate signatures = .error text) ↔
      ∃ signature ∈ signatures, ¬ signatureParses signature)
  aggregateVerifyRaises : ∀ aggregate keys message,
    (∃ text, bls.aggregateVerify aggregate keys message = .error text) ↔
      ¬ signatureParses aggregate ∨ ∃ key ∈ keys, ¬ keyParses key
  aggregateVerifies : ∀ (signers : List (Bytes × Bytes)) (message aggregate : Bytes),
    signers ≠ [] → bls.aggregate (signers.map Prod.snd) = .ok aggregate →
    (bls.aggregateVerify aggregate (signers.map Prod.fst) message = .ok true ↔
      ∀ s ∈ signers, verifies bls s.1 s.2 message = true)

/-- What verifies can be parsed. -/
private theorem Exact.parses {bls : Bls} {keyParses signatureParses : Bytes → Prop}
    (exact : Exact bls keyParses signatureParses) {key signature message : Bytes}
    (h : verifies bls key signature message = true) : signatureParses signature := by
  by_contra hnot
  obtain ⟨text, htext⟩ := (exact.verifyRaises key signature message).mpr fun hboth =>
    hnot hboth.2
  unfold verifies at h
  rw [htext] at h
  cases h

/-- Such a scheme is ideal. -/
theorem Exact.ideal {bls : Bls} {keyParses signatureParses : Bytes → Prop}
    (exact : Exact bls keyParses signatureParses) : Ideal bls where
  complete signers message hne hall := by
    cases haggregate : bls.aggregate (signers.map Prod.snd) with
    | ok aggregate =>
      exact ⟨aggregate, rfl, (exact.aggregateVerifies signers message aggregate hne
        haggregate).mpr hall⟩
    | error text =>
      obtain ⟨signature, hmem, hnot⟩ := (exact.aggregateRaises _ (by simpa using hne)).mp
        ⟨text, haggregate⟩
      obtain ⟨s, hs, rfl⟩ := List.mem_map.mp hmem
      exact absurd (exact.parses (hall s hs)) hnot
  sound signers message aggregate haggregate hverify s hs :=
    (exact.aggregateVerifies signers message aggregate (List.ne_nil_of_mem hs) haggregate).mp
      hverify s hs

/-! ## The per-node filter -/

/-- The confirmations that verify on their own. -/
def valid (bls : Bls) (confirmations : List NodeConfirmation) (reference : Bytes) :
    List NodeConfirmation :=
  confirmations.filter fun c => verifyConfirmation bls c reference

/-- The messages agree, and what is valid makes a quorum of distinct members. -/
structure Certifiable (bls : Bls) (confirmations : List NodeConfirmation)
    (committeeSize nShards : Nat) (reference : Bytes) : Prop where
  agreed : ∀ c ∈ confirmations, c.serializedMessage = reference
  nonempty : valid bls confirmations reference ≠ []
  distinct : ((valid bls confirmations reference).map (·.position)).Nodup
  inside : ∀ c ∈ valid bls confirmations reference, c.position < committeeSize
  quorum : isQuorum (totalWeight (valid bls confirmations reference)) nShards = true

/-- The certificate that the given confirmations make up. -/
structure MadeOf (bls : Bls) (confirmations : List NodeConfirmation) (committeeSize : Nat)
    (reference : Bytes) (cert : Certificate) : Prop where
  message : cert.serializedMessage = reference
  aggregate : bls.aggregate (confirmations.map (·.signature)) = .ok cert.aggregateSignature
  ascending : cert.signerPositions.Pairwise (· < ·)
  positions : cert.signerPositions.Perm (confirmations.map (·.position))
  bitmap : packSignersBitmap (cert.signerPositions.map Int.ofNat) committeeSize =
    .ok cert.signersBitmap
  weight : cert.weight = totalWeight confirmations

section Filter

variable {bls : Bls} {cs : List NodeConfirmation} {reference : Bytes} {n shards : Nat}

private theorem valid_eq (hagreed : ∀ c ∈ cs, c.serializedMessage = reference) :
    valid bls cs reference = cs.filter (isGood bls reference) := by
  apply List.filter_congr
  intro c hc
  unfold verifyConfirmation isGood
  rw [if_neg (not_not_intro (hagreed c hc))]

private theorem buildCertificate_reference (hne : cs ≠ []) (expected : Option Bytes) :
    buildCertificate bls cs n shards expected =
      buildCertificate bls cs n shards (some (referenceMessage expected cs)) := by
  cases cs with
  | nil => exact absurd rfl hne
  | cons first rest => rfl

/-- A quorum has someone in it. -/
private theorem ne_nil_of_quorum (h : isQuorum (totalWeight cs) shards = true) : cs ≠ [] := by
  rintro rfl
  simp only [isQuorum, totalWeight, List.map_nil, List.sum_nil, decide_eq_true_eq] at h
  omega

private theorem Ideal.buildCertificate_isOk_iff (ideal : Ideal bls) (hne : cs ≠ []) :
    (∃ cert, buildCertificate bls cs n shards (some reference) = .ok cert) ↔
      Certifiable bls cs n shards reference := by
  rw [ideal.buildCertificate_isOk hne]
  constructor
  · rintro ⟨hagreed, hdistinct, hinside, hquorum⟩
    rw [← valid_eq hagreed] at hdistinct hinside hquorum
    have hq := (isQuorum_iff _ _).mpr hquorum
    exact ⟨hagreed, ne_nil_of_quorum hq, hdistinct, hinside, hq⟩
  · intro h
    rw [← valid_eq h.agreed]
    exact ⟨h.agreed, h.distinct, h.inside, (isQuorum_iff _ _).mp h.quorum⟩

private theorem Ideal.madeOf_valid (ideal : Ideal bls) (hne : cs ≠ []) {cert : Certificate}
    (h : buildCertificate bls cs n shards (some reference) = .ok cert) :
    MadeOf bls (valid bls cs reference) n reference cert ∧
      verifyCertificate bls cert ((valid bls cs reference).map (·.publicKey)) = true := by
  obtain ⟨hmessages, signed, hsigned, hassemble⟩ := buildCertificate_eq_ok h
  rw [valid_eq (checkMessages_eq_ok.mp hmessages)]
  rcases ideal.checkSignatures hne reference with ⟨-, e, he⟩ |
    ⟨-, aggregate, bad, ⟨haggregate, hverify⟩, hok⟩
  · rw [he] at hsigned
    cases hsigned
  · rw [hok] at hsigned
    cases hsigned
    obtain ⟨hnodup, -, bitmap, hpack, rfl⟩ := assemble_eq_ok.mp hassemble
    refine ⟨⟨rfl, haggregate, ascending_insertionSort hnodup,
      List.perm_insertionSort _ _, hpack, rfl⟩, ?_⟩
    unfold verifyCertificate
    dsimp only
    rw [hverify]

end Filter

/-- **Aggregate first is the per-node filter**: under an ideal scheme a
certificate is returned exactly when the confirmations that verify on their own
make one up, it is theirs, it verifies, and the assertion never fails. -/
theorem buildCertificate_aggregateFirst (bls : Bls) (ideal : Ideal bls)
    (confirmations : List NodeConfirmation) (committeeSize nShards : Nat)
    (expectedMessage : Option Bytes) :
    let reference := referenceMessage expectedMessage confirmations
    let kept := valid bls confirmations reference
    let built := buildCertificateAsserting bls confirmations committeeSize nShards expectedMessage
    ((∃ cert, built = .ok cert) ↔
      confirmations ≠ [] ∧ Certifiable bls confirmations committeeSize nShards reference) ∧
    (∀ cert, built = .ok cert →
      MadeOf bls kept committeeSize reference cert ∧
        verifyCertificate bls cert (kept.map (·.publicKey)) = true) ∧
    (∀ text, built ≠ .error (.builtin .assertionError text)) := by
  intro reference kept built
  have hbuilt : built = buildCertificate bls confirmations committeeSize nShards
      expectedMessage := buildCertificateAsserting_eq _ _ _ _ _
  refine ⟨?_, ?_, ?_⟩
  · by_cases hne : confirmations = []
    · subst hne
      constructor
      · rintro ⟨cert, hcert⟩
        rw [hbuilt] at hcert
        cases hcert
      · rintro ⟨hnot, -⟩
        exact absurd rfl hnot
    · rw [hbuilt, buildCertificate_reference hne, ideal.buildCertificate_isOk_iff hne]
      exact ⟨fun h => ⟨hne, h⟩, And.right⟩
  · intro cert hcert
    rw [hbuilt] at hcert
    have hne : confirmations ≠ [] := by
      intro hnil
      rw [hnil] at hcert
      cases hcert
    rw [buildCertificate_reference hne] at hcert
    exact ideal.madeOf_valid hne hcert
  · intro text htext
    rw [hbuilt] at htext
    exact buildCertificate_noAssertion bls _ _ _ _ _ htext text rfl

/-- A scheme whose points are single bytes; only `[1]` is a valid signature. -/
private def byteBls : Bls where
  confirmationBytes epoch blobId _ := epoch.toUInt8 :: blobId
  aggregate signatures :=
    if ∀ s ∈ signatures, s.length = 1 then
      .ok (if ∀ s ∈ signatures, s = [1] then [1] else [0])
    else .error "invalid point"
  aggregateVerify aggregate _ _ :=
    if aggregate.length = 1 then .ok (aggregate = [1]) else .error "invalid point"
  verify _ signature _ :=
    if signature.length = 1 then .ok (signature = [1]) else .error "invalid point"

private theorem byteBls_verifies (key signature message : Bytes) :
    verifies byteBls key signature message = true ↔ signature = [1] := by
  unfold verifies byteBls
  by_cases h : signature.length = 1
  · simp [h]
  · have hnot : signature ≠ [1] := by
      rintro rfl
      exact h rfl
    simp [h, hnot]

private theorem byteBls_exact : Exact byteBls (fun _ => True) (fun s => s.length = 1) where
  verifyRaises key signature message := by
    by_cases h : signature.length = 1 <;> simp [byteBls, h]
  aggregateRaises signatures _ := by
    by_cases h : ∀ s ∈ signatures, s.length = 1
    · simp only [byteBls, if_pos h, reduceCtorEq, exists_false, false_iff]
      rintro ⟨s, hs, hnot⟩
      exact hnot (h s hs)
    · simp only [byteBls, if_neg h, Except.error.injEq, exists_eq', true_iff]
      simpa only [not_forall, exists_prop] using h
  aggregateVerifyRaises aggregate keys message := by
    by_cases h : aggregate.length = 1 <;> simp [byteBls, h]
  aggregateVerifies signers message aggregate _ haggregate := by
    simp only [byteBls_verifies]
    simp only [byteBls, List.forall_mem_map] at haggregate
    split at haggregate
    · cases haggregate
      by_cases hall : ∀ s ∈ signers, s.2 = [1]
      · rw [if_pos hall]
        exact ⟨fun _ => hall, fun _ => rfl⟩
      · rw [if_neg hall]
        constructor
        · intro h
          cases h
        · exact fun h => absurd h hall
    · cases haggregate

/-- Three of four shards sign; the fourth node's signature cannot be parsed. -/
private def confirmationsWithOneBad : List NodeConfirmation :=
  [⟨"b", 1, 1, [11], [7, 5], [1]⟩, ⟨"c", 2, 1, [12], [7, 5], []⟩, ⟨"a", 0, 2, [10], [7, 5], [1]⟩]

theorem buildCertificate_aggregateFirst_oneBad :
    ∃ cert, buildCertificateAsserting byteBls confirmationsWithOneBad 3 4 none = .ok cert ∧
      cert.signerPositions = [0, 1] ∧ cert.weight = 3 ∧
      verifyCertificate byteBls cert
        ((valid byteBls confirmationsWithOneBad [7, 5]).map (·.publicKey)) = true := by
  obtain ⟨cert, hcert, hpositions, hweight⟩ : ∃ cert,
      buildCertificateAsserting byteBls confirmationsWithOneBad 3 4 none = .ok cert ∧
      cert.signerPositions = [0, 1] ∧ cert.weight = 3 := ⟨_, rfl, rfl, rfl⟩
  obtain ⟨-, hmade, -⟩ := buildCertificate_aggregateFirst byteBls byteBls_exact.ideal
    confirmationsWithOneBad 3 4 none
  exact ⟨cert, hcert, hpositions, hweight, (hmade cert hcert).2⟩

end Pytusk.Certification
