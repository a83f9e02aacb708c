import Pytusk.Chain.Committee
import Pytusk.Lib.Bitmap
import Pytusk.Lib.ExceptRules
import Mathlib.Data.List.Sort
import Mathlib.Tactic.Linarith

/-!
# `certification.py`: from confirmations to a certificate

Signer bitmaps, quorum arithmetic, and the aggregate-first construction of a
certificate with its per-node fallback. The BLS extension is a parameter
(`Bls`): each function returns a boolean, or raises `ValueError` on bytes it
cannot parse.
-/

namespace Pytusk

open Pytusk.Lib

/-! ## Data -/

/-- `pysui_fastcrypto`'s BLS functions. An error is the text of the
`ValueError` raised on an input that cannot be parsed. -/
structure Bls where
  /-- `bls_confirmation_bytes(epoch, blob_id, object_id)` -/
  confirmationBytes : Nat → Bytes → Option Bytes → Bytes
  aggregate : List Bytes → Except String Bytes
  aggregateVerify : Bytes → List Bytes → Bytes → Except String Bool
  verify : Bytes → Bytes → Bytes → Except String Bool

structure NodeConfirmation where
  nodeId : String
  position : Nat
  weight : Nat
  publicKey : Bytes
  serializedMessage : Bytes
  signature : Bytes
  deriving DecidableEq, Repr

structure Certificate where
  serializedMessage : Bytes
  aggregateSignature : Bytes
  signersBitmap : Bytes
  signerPositions : List Nat
  weight : Nat
  deriving DecidableEq, Repr

namespace Certification

/-! ## Signer bitmaps -/

def packSignersBitmap (signerPositions : List Int) (committeeSize : Nat) :
    Except PyExn Bytes :=
  signerPositions.foldlM
    (fun bitmap (position : Int) =>
      if position < 0 ∨ position ≥ committeeSize then
        .error (.valueError
          s!"Signer position {position} outside committee of size {committeeSize}")
      else .ok (Bitmap.setBit bitmap position.toNat))
    (List.replicate ((committeeSize + 7) / 8) 0)

def unpackSignersBitmap (bitmap : Bytes) (committeeSize : Nat) :
    Except PyExn (List Nat) :=
  let expectedLength := (committeeSize + 7) / 8
  if bitmap.length < expectedLength then
    .error (.valueError <|
      s!"Bitmap of {bitmap.length} bytes too short for committee of size " ++
      s!"{committeeSize} (expected at least {expectedLength})")
  else .ok (Bitmap.positions bitmap committeeSize)

/-- Packing succeeds exactly on positions inside the committee. -/
theorem packSignersBitmap_eq_ok {ps : List Int} {n : Nat} {b : Bytes} :
    packSignersBitmap ps n = .ok b ↔
      (∀ p ∈ ps, 0 ≤ p ∧ p < n) ∧
        (ps.map Int.toNat).foldl Bitmap.setBit (List.replicate ((n + 7) / 8) 0) = b := by
  unfold packSignersBitmap
  generalize List.replicate ((n + 7) / 8) (0 : UInt8) = b₀
  induction ps generalizing b₀ with
  | nil => simp [pure, Except.pure]
  | cons p ps ih =>
    rw [List.foldlM_cons, List.map_cons, List.foldl_cons]
    by_cases hp : p < 0 ∨ p ≥ n
    · have hnot : ¬ (0 ≤ p ∧ p < n) := by omega
      simp only [hp, if_true, bind, Except.bind, List.forall_mem_cons, hnot, false_and,
        reduceCtorEq]
    · have hlt : 0 ≤ p ∧ p < n := by omega
      simp only [hp, if_false, bind, Except.bind, ih, List.forall_mem_cons, hlt,
        and_self, true_and]

theorem packSignersBitmap_ofNat_eq_ok {ps : List Nat} {n : Nat} {b : Bytes} :
    packSignersBitmap (ps.map Int.ofNat) n = .ok b ↔
      (∀ p ∈ ps, p < n) ∧
        ps.foldl Bitmap.setBit (List.replicate ((n + 7) / 8) 0) = b := by
  have hback : (ps.map Int.ofNat).map Int.toNat = ps := by
    rw [List.map_map]
    exact List.map_id' ps
  rw [packSignersBitmap_eq_ok, hback, List.forall_mem_map]
  simp only [Int.ofNat_eq_natCast, Int.natCast_nonneg, true_and, Int.ofNat_lt]

/-- A packed bitmap has `ceil(n / 8)` bytes and unpacks to the positions it
was given, in ascending order. -/
theorem unpack_of_pack {ps : List Int} {n : Nat} {b : Bytes}
    (h : packSignersBitmap ps n = .ok b) :
    b.length = (n + 7) / 8 ∧
      unpackSignersBitmap b n = .ok ((List.range n).filter fun q => (q : Int) ∈ ps) := by
  obtain ⟨hlt, rfl⟩ := packSignersBitmap_eq_ok.mp h
  have hlen : ((ps.map Int.toNat).foldl Bitmap.setBit
      (List.replicate ((n + 7) / 8) 0)).length = (n + 7) / 8 := by
    rw [Bitmap.length_foldl_setBit, List.length_replicate]
  have hlt' : ∀ q ∈ ps.map Int.toNat, q < n := by
    intro q hq
    obtain ⟨p, hp, rfl⟩ := List.mem_map.mp hq
    have := hlt p hp
    omega
  have hmem : ∀ q : Nat, q ∈ ps.map Int.toNat ↔ (q : Int) ∈ ps := by
    intro q
    constructor
    · intro hq
      obtain ⟨p, hp, rfl⟩ := List.mem_map.mp hq
      rwa [Int.toNat_of_nonneg (hlt p hp).1]
    · intro hq
      exact List.mem_map.mpr ⟨q, hq, Int.toNat_natCast q⟩
  refine ⟨hlen, ?_⟩
  simp only [unpackSignersBitmap, hlen, Nat.lt_irrefl, if_false,
    Bitmap.positions_foldl_setBit hlt', hmem]

/-! ## Quorum arithmetic -/

def isQuorum (weight nShards : Int) : Bool := 3 * weight ≥ 2 * nShards + 1

/-- `ceil((2 * n_shards + 1) / 3)`, as the source writes it. -/
def minWeightForQuorum (nShards : Int) : Int := -(-(2 * nShards + 1) / 3)

def isAboveValidity (weight nShards : Int) : Bool := 3 * weight ≥ nShards + 1

/-- `ceil((n_shards + 1) / 3)`, as the source writes it. -/
def minWeightForValidity (nShards : Int) : Int := -(-(nShards + 1) / 3)

/-- `is_quorum` and `min_weight_for_quorum` draw the same line. -/
theorem isQuorum_iff (weight nShards : Int) :
    isQuorum weight nShards = true ↔ minWeightForQuorum nShards ≤ weight := by
  simp only [isQuorum, minWeightForQuorum, decide_eq_true_eq]
  omega

theorem minWeightForValidity_le_quorum {nShards : Int} (h : 0 ≤ nShards) :
    minWeightForValidity nShards ≤ minWeightForQuorum nShards := by
  simp only [minWeightForValidity, minWeightForQuorum]
  omega

theorem minWeightForValidity_pos {nShards : Int} (h : 0 ≤ nShards) :
    0 < minWeightForValidity nShards := by
  simp only [minWeightForValidity]
  omega

/-! ## Confirmations -/

def confirmationMessage (bls : Bls) (epoch : Nat) (blobId : Bytes)
    (objectId : Option Bytes) : Bytes :=
  bls.confirmationBytes epoch blobId objectId

/-- `bls_verify` with its `ValueError` read as "does not verify". -/
def verifies (bls : Bls) (publicKey signature message : Bytes) : Bool :=
  match bls.verify publicKey signature message with
  | .ok verified => verified
  | .error _ => false

def verifyConfirmation (bls : Bls) (confirmation : NodeConfirmation)
    (expectedMessage : Bytes) : Bool :=
  if confirmation.serializedMessage ≠ expectedMessage then false
  else verifies bls confirmation.publicKey confirmation.signature expectedMessage

/-! ## Building a certificate -/

/-- The aggregate and whether it verified: `(None, False)` when it could not
be built, `(aggregate, False)` when verifying it raised. -/
def aggregateFirst (bls : Bls) (confirmations : List NodeConfirmation)
    (reference : Bytes) : Option Bytes × Bool :=
  match bls.aggregate (confirmations.map (·.signature)) with
  | .error _ => (none, false)
  | .ok aggregate =>
      match bls.aggregateVerify aggregate (confirmations.map (·.publicKey)) reference with
      | .error _ => (some aggregate, false)
      | .ok verified => (some aggregate, verified)

/-- The per-node loop's test of one confirmation. -/
def isGood (bls : Bls) (reference : Bytes) (c : NodeConfirmation) : Bool :=
  verifies bls c.publicKey c.signature reference

/-- What the signature check hands to the quorum check: the surviving
confirmations, their aggregate, and the ids of the excluded nodes. -/
structure Signed where
  confirmations : List NodeConfirmation
  aggregate : Bytes
  badNodes : List String

/-- The fallback: keep what verifies on its own, aggregate it again. -/
def excludeBad (bls : Bls) (confirmations : List NodeConfirmation)
    (reference : Bytes) : Except PyExn Signed :=
  let good := confirmations.filter (isGood bls reference)
  let bad := (confirmations.filter fun c => !isGood bls reference c).map (·.nodeId)
  if bad = [] then
    .error (.invalidConfirmationError <|
      "Aggregate signature failed verification even though every " ++
      "individual confirmation verified")
  else if good = [] then
    let nodes := String.intercalate ", " bad
    .error (.invalidConfirmationError <|
      s!"All {bad.length} confirmation(s) failed verification (nodes: {nodes})")
  else
    match bls.aggregate (good.map (·.signature)) with
    | .error m => .error (.valueError m)
    | .ok aggregate => .ok ⟨good, aggregate, bad⟩

def checkSignatures (bls : Bls) (confirmations : List NodeConfirmation)
    (reference : Bytes) : Except PyExn Signed :=
  match aggregateFirst bls confirmations reference with
  | (some aggregate, true) => .ok ⟨confirmations, aggregate, []⟩
  | _ => excludeBad bls confirmations reference

/-- One iteration of the weight loop, over `(seen_positions, weight)`. -/
def countWeight (seen : List Nat × Nat) (c : NodeConfirmation) :
    Except PyExn (List Nat × Nat) :=
  if c.position ∈ seen.1 then
    .error (.valueError <|
      s!"Duplicate committee position {c.position} " ++
      s!"(node {c.nodeId}); a node may contribute " ++ "weight only once")
  else .ok (seen.1 ++ [c.position], seen.2 + c.weight)

/-- The shortfall report; it names the excluded nodes when there are any. -/
def quorumNotReached (weight nShards : Nat) (badNodes : List String) : PyExn :=
  let required := minWeightForQuorum nShards
  let text :=
    s!"Signer weight {weight} does not reach quorum: requires at " ++
    s!"least {required} for n_shards={nShards}"
  let excluded := String.intercalate ", " badNodes
  if badNodes = [] then .quorumNotReachedError text
  else
    .quorumNotReachedError <| text ++
      s!" (excluded {badNodes.length} confirmation(s) that failed verification: " ++
      s!"{excluded})"

/-- The total shard weight behind a list of confirmations. -/
def totalWeight (confirmations : List NodeConfirmation) : Nat :=
  (confirmations.map (·.weight)).sum

/-- Everything after the signatures: duplicates, quorum, bitmap. -/
def assemble (signed : Signed) (committeeSize nShards : Nat) (reference : Bytes) :
    Except PyExn Certificate := do
  let (seenPositions, weight) ← signed.confirmations.foldlM countWeight ([], 0)
  if isQuorum weight nShards then do
    let signerPositions := seenPositions.insertionSort (· ≤ ·)
    let signersBitmap ← packSignersBitmap (signerPositions.map Int.ofNat) committeeSize
    return {
      serializedMessage := reference
      aggregateSignature := signed.aggregate
      signersBitmap := signersBitmap
      signerPositions := signerPositions
      weight := weight }
  else throw (quorumNotReached weight nShards signed.badNodes)

/-- The weight loop succeeds exactly on distinct positions, which it keeps in
order while it adds up the weights. -/
theorem foldlM_countWeight {cs : List NodeConfirmation} {seen : List Nat} {w : Nat}
    {r : List Nat × Nat} (hseen : seen.Nodup) :
    cs.foldlM countWeight (seen, w) = .ok r ↔
      (seen ++ cs.map (·.position)).Nodup ∧
        (seen ++ cs.map (·.position), w + totalWeight cs) = r := by
  induction cs generalizing seen w with
  | nil => simp [totalWeight, hseen]
  | cons c cs ih =>
    rw [List.foldlM_cons]
    by_cases hc : c.position ∈ seen
    · have hdup : ¬ (seen ++ c.position :: cs.map (·.position)).Nodup := by
        intro hn
        exact (List.nodup_append.mp hn).2.2 _ hc _ (by simp) rfl
      simp [countWeight, hc, hdup]
    · have hseen' : (seen ++ [c.position]).Nodup := by
        rw [← List.concat_eq_append]
        exact hseen.concat hc
      simp only [countWeight, hc, if_false, ok_bind, ih hseen', totalWeight,
        List.map_cons, List.append_assoc, List.singleton_append, List.sum_cons,
        Nat.add_assoc]

/-- When assembly returns a certificate, and which one. -/
theorem assemble_eq_ok {signed : Signed} {n shards : Nat} {reference : Bytes}
    {cert : Certificate} :
    assemble signed n shards reference = .ok cert ↔
      (signed.confirmations.map (·.position)).Nodup ∧
      isQuorum (totalWeight signed.confirmations) shards = true ∧
      ∃ bitmap, packSignersBitmap
          (((signed.confirmations.map (·.position)).insertionSort (· ≤ ·)).map Int.ofNat) n =
        .ok bitmap ∧
      cert =
        { serializedMessage := reference
          aggregateSignature := signed.aggregate
          signersBitmap := bitmap
          signerPositions :=
            (signed.confirmations.map (·.position)).insertionSort (· ≤ ·)
          weight := totalWeight signed.confirmations } := by
  unfold assemble
  rw [bind_eq_ok]
  constructor
  · rintro ⟨r, hfold, hrest⟩
    obtain ⟨hn, rfl⟩ := (foldlM_countWeight List.nodup_nil).mp hfold
    simp only [List.nil_append, Nat.zero_add] at hn hrest
    split at hrest
    · rename_i hq
      obtain ⟨bitmap, hpack, hcert⟩ := bind_eq_ok.mp hrest
      exact ⟨hn, hq, bitmap, hpack, (Except.ok.inj hcert).symm⟩
    · cases hrest
  · rintro ⟨hn, hq, bitmap, hpack, rfl⟩
    refine ⟨_, (foldlM_countWeight List.nodup_nil).mpr ⟨by simpa using hn, rfl⟩, ?_⟩
    simp [hq, hpack]

/-- The first confirmation whose message is not the reference. -/
def checkMessages (confirmations : List NodeConfirmation) (reference : Bytes) :
    Except PyExn Unit :=
  match confirmations.find? fun c => c.serializedMessage ≠ reference with
  | some c =>
      .error (.confirmationMismatchError <|
        s!"Node {c.nodeId} returned a confirmation message " ++
        "that differs from the agreed message")
  | none => .ok ()

def buildCertificate (bls : Bls) (confirmations : List NodeConfirmation)
    (committeeSize nShards : Nat) (expectedMessage : Option Bytes) :
    Except PyExn Certificate :=
  match confirmations with
  | [] => .error (.valueError "confirmations must not be empty")
  | first :: _ => do
      let reference := expectedMessage.getD first.serializedMessage
      checkMessages confirmations reference
      let signed ← checkSignatures bls confirmations reference
      assemble signed committeeSize nShards reference

def verifyCertificate (bls : Bls) (certificate : Certificate)
    (publicKeys : List Bytes) : Bool :=
  match bls.aggregateVerify certificate.aggregateSignature publicKeys
      certificate.serializedMessage with
  | .ok verified => verified
  | .error _ => false

/-! ## An ideal signature scheme -/

/-- An aggregate can be built over valid signatures and verifies, and one that
verifies was built over valid signatures only. The pairs are public key and
signature. -/
structure Ideal (bls : Bls) : Prop where
  complete : ∀ (signers : List (Bytes × Bytes)) (message : Bytes), signers ≠ [] →
    (∀ s ∈ signers, verifies bls s.1 s.2 message = true) →
    ∃ aggregate, bls.aggregate (signers.map Prod.snd) = .ok aggregate ∧
      bls.aggregateVerify aggregate (signers.map Prod.fst) message = .ok true
  sound : ∀ (signers : List (Bytes × Bytes)) (message aggregate : Bytes),
    bls.aggregate (signers.map Prod.snd) = .ok aggregate →
    bls.aggregateVerify aggregate (signers.map Prod.fst) message = .ok true →
    ∀ s ∈ signers, verifies bls s.1 s.2 message = true

section IdealScheme

variable {bls : Bls} {cs : List NodeConfirmation} {reference : Bytes}

/-- The signers behind a list of confirmations. -/
private def signers (cs : List NodeConfirmation) : List (Bytes × Bytes) :=
  cs.map fun c => (c.publicKey, c.signature)

private theorem Ideal.aggregate_ok (ideal : Ideal bls) (hne : cs ≠ [])
    (hgood : ∀ c ∈ cs, isGood bls reference c = true) :
    ∃ aggregate, bls.aggregate (cs.map (·.signature)) = .ok aggregate ∧
      bls.aggregateVerify aggregate (cs.map (·.publicKey)) reference = .ok true := by
  have h := ideal.complete (signers cs) reference (by simpa [signers] using hne)
    (by simpa [signers, isGood] using hgood)
  simpa [signers, Function.comp_def] using h

private theorem Ideal.allGood_of_verified (ideal : Ideal bls) {aggregate : Bytes}
    (h : aggregateFirst bls cs reference = (some aggregate, true)) :
    ∀ c ∈ cs, isGood bls reference c = true := by
  unfold aggregateFirst at h
  split at h
  · simp at h
  · rename_i agg hagg
    split at h
    · simp at h
    · rename_i verified hver
      obtain ⟨rfl, rfl⟩ := by simpa using h
      have hsound := ideal.sound (signers cs) reference agg
        (by simpa [signers, Function.comp_def] using hagg)
        (by simpa [signers, Function.comp_def] using hver)
      intro c hc
      exact hsound (c.publicKey, c.signature) (List.mem_map.mpr ⟨c, hc, rfl⟩)

/-- Under an ideal scheme the signature check keeps exactly the confirmations
that verify on their own, with an aggregate of theirs that verifies, and fails
only when there is none. -/
theorem Ideal.checkSignatures (ideal : Ideal bls) (hne : cs ≠ []) (reference : Bytes) :
    (cs.filter (isGood bls reference) = [] ∧
      ∃ e, checkSignatures bls cs reference = .error e) ∨
    (cs.filter (isGood bls reference) ≠ [] ∧
      ∃ aggregate bad,
        (bls.aggregate ((cs.filter (isGood bls reference)).map (·.signature)) = .ok aggregate ∧
          bls.aggregateVerify aggregate
            ((cs.filter (isGood bls reference)).map (·.publicKey)) reference = .ok true) ∧
        checkSignatures bls cs reference =
          .ok ⟨cs.filter (isGood bls reference), aggregate, bad⟩) := by
  by_cases hall : ∀ c ∈ cs, isGood bls reference c = true
  · obtain ⟨aggregate, hagg, hver⟩ := ideal.aggregate_ok hne hall
    have hfilter : cs.filter (isGood bls reference) = cs := List.filter_eq_self.mpr hall
    refine .inr ⟨by rwa [hfilter], aggregate, [], by rw [hfilter]; exact ⟨hagg, hver⟩, ?_⟩
    simp only [Certification.checkSignatures, aggregateFirst, hagg, hver, hfilter]
  · have hfallback : Certification.checkSignatures bls cs reference =
        excludeBad bls cs reference := by
      unfold Certification.checkSignatures
      split
      · rename_i h
        exact absurd (ideal.allGood_of_verified h) hall
      · rfl
    have hbad : (cs.filter fun c => !isGood bls reference c).map (·.nodeId) ≠ [] := by
      intro h
      refine hall fun c hc => ?_
      have := List.filter_eq_nil_iff.mp (List.map_eq_nil_iff.mp h) c hc
      simpa using this
    rw [hfallback]
    simp only [excludeBad, hbad, if_false]
    by_cases hgood : cs.filter (isGood bls reference) = []
    · exact .inl ⟨hgood, by simp [hgood]⟩
    · have hkept : ∀ c ∈ cs.filter (isGood bls reference), isGood bls reference c = true :=
        fun c hc => (List.mem_filter.mp hc).2
      obtain ⟨aggregate, hagg, hver⟩ := ideal.aggregate_ok hgood hkept
      exact .inr ⟨hgood, aggregate, _, ⟨hagg, hver⟩, by simp only [hgood, if_false, hagg]; rfl⟩

theorem checkMessages_eq_ok : checkMessages cs reference = .ok () ↔
    ∀ c ∈ cs, c.serializedMessage = reference := by
  unfold checkMessages
  split
  · rename_i c hc
    have hne : c.serializedMessage ≠ reference := by simpa using List.find?_some hc
    simp only [reduceCtorEq, false_iff]
    exact fun h => hne (h c (List.mem_of_find?_eq_some hc))
  · rename_i hnone
    simpa using List.find?_eq_none.mp hnone

/-- **When a certificate is built.** Under an ideal scheme: exactly when every
message is the expected one and the confirmations that verify have distinct
positions inside the committee and a quorum of the weight. -/
theorem Ideal.buildCertificate_isOk (ideal : Ideal bls) (hne : cs ≠ [])
    {n shards : Nat} :
    (∃ cert, buildCertificate bls cs n shards (some reference) = .ok cert) ↔
      (∀ c ∈ cs, c.serializedMessage = reference) ∧
      ((cs.filter (isGood bls reference)).map (·.position)).Nodup ∧
      (∀ c ∈ cs.filter (isGood bls reference), c.position < n) ∧
      minWeightForQuorum shards ≤ totalWeight (cs.filter (isGood bls reference)) := by
  have hbuild : buildCertificate bls cs n shards (some reference) = (do
      checkMessages cs reference
      let signed ← Certification.checkSignatures bls cs reference
      assemble signed n shards reference) := by
    cases cs with
    | nil => exact absurd rfl hne
    | cons first rest => rfl
  have hpack : ∀ good : List NodeConfirmation,
      (∃ b, packSignersBitmap
          (((good.map (·.position)).insertionSort (· ≤ ·)).map Int.ofNat) n = .ok b) ↔
        ∀ c ∈ good, c.position < n := by
    intro good
    simp only [packSignersBitmap_ofNat_eq_ok, exists_and_left, exists_eq', and_true,
      List.mem_insertionSort, List.forall_mem_map]
  rw [hbuild]
  constructor
  · rintro ⟨cert, hcert⟩
    obtain ⟨⟨⟩, hmsg, hrest⟩ := bind_eq_ok.mp hcert
    obtain ⟨signed, hsigned, hasm⟩ := bind_eq_ok.mp hrest
    rcases ideal.checkSignatures hne reference with ⟨-, e, he⟩ |
      ⟨-, aggregate, bad, -, hok⟩
    · rw [he] at hsigned; cases hsigned
    · rw [hok] at hsigned
      cases hsigned
      obtain ⟨hnodup, hq, b, hb, -⟩ := assemble_eq_ok.mp hasm
      exact ⟨checkMessages_eq_ok.mp hmsg, hnodup, (hpack _).mp ⟨b, hb⟩,
        (isQuorum_iff _ _).mp hq⟩
  · rintro ⟨hmsg, hnodup, hlt, hq⟩
    have hgood : cs.filter (isGood bls reference) ≠ [] := by
      intro h
      rw [h] at hq
      simp only [minWeightForQuorum, totalWeight, List.map_nil, List.sum_nil] at hq
      omega
    rcases ideal.checkSignatures hne reference with ⟨h, -⟩ |
      ⟨-, aggregate, bad, -, hok⟩
    · exact absurd h hgood
    · obtain ⟨b, hb⟩ := (hpack _).mpr hlt
      refine ⟨_, bind_eq_ok.mpr ⟨(), checkMessages_eq_ok.mpr hmsg,
        bind_eq_ok.mpr ⟨_, hok, assemble_eq_ok.mpr ⟨hnodup, ?_, b, hb, rfl⟩⟩⟩⟩
      exact (isQuorum_iff _ _).mpr hq

end IdealScheme

end Certification

end Pytusk
