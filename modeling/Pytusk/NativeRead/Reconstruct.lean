import Pytusk.Lib.Logged
import Pytusk.NativeRead.FetchRuns

/-!
# `native_read/reconstruct.py`: decoding, and one round of recovery

A call is a computation over the results of its fan-outs, which its log
numbers, together with what it gave each decode. The codec is in the Rust
extension and a parameter.
-/

namespace Pytusk.NativeRead

open Pytusk.Lib Pytusk.CommitteeFanout

/-- `decode_blob` and `verify_sliver`, on one axis of the blob's metadata. -/
structure Codec where
  decodeBlob : List Bytes → Bool → Except ReadExn Bytes
  verifySliver : Bytes → Except ReadExn Unit

/-- What the sliver cap needs of `VerifiedBlobMetadata`. -/
structure BlobMetadata where
  nShards : Nat
  unencodedLength : Nat
  deriving DecidableEq, Repr

/-- `_SLIVER_CAP_SLACK` -/
def sliverCapSlack : Nat := 4096

/-- `_sliver_cap` -/
def sliverCap (metadata : BlobMetadata) : Nat :=
  let (primary, secondary) := Redstuff.sourceSymbolCounts metadata.nShards
  let symbols := (max primary secondary).toNat
  let perSymbol := Redstuff.symbolSize metadata.unencodedLength metadata.nShards
  symbols * perSymbol + sliverCapSlack

/-- What `reconstruct_blob` is called with. -/
structure Read where
  committee : WalrusCommittee
  blobId : Bytes
  axis : Axis
  threshold : Nat
  metadata : BlobMetadata
  verify : Bool
  codec : Codec

/-- What an outside observer sees of a call: its fan-outs, numbered, with the
nodes they skip, and the slivers given to each decode. -/
inductive Event where
  | fanOut (round : Nat) (excludeNodeIds : List String)
  | decode (slivers : List Bytes)
  deriving DecidableEq, Repr

namespace Read

variable (r : Read)

abbrev Node := Fin r.committee.members.length

/-- The arguments of a fan-out. -/
abbrev fetch (excludeNodeIds : List String) : Fetch where
  committee := r.committee
  blobId := r.blobId
  axis := r.axis
  threshold := r.threshold
  excludeNodeIds := excludeNodeIds
  maxSliverBytes := some (sliverCap r.metadata)

/-- `_decode_attributed` -/
def decodeAttributed (attributed : List Attributed) : Logged Event ReadExn (Bytes × Nat) := do
  let slivers := attributed.map Prod.fst
  Logged.emit (.decode slivers)
  let content ← Logged.lift (r.codec.decodeBlob slivers r.verify)
  return (content, slivers.length)

/-- One iteration of the loop over the slivers, on `verified` and `indicted`. -/
def verifyOne (split : List Attributed × List String) (item : Attributed) :
    Except ReadExn (List Attributed × List String) :=
  match r.codec.verifySliver item.1 with
  | .error (.sliverVerificationError _) => .ok (split.1, split.2.insert item.2)
  | .error e => .error e
  | .ok () => .ok (split.1 ++ [item], split.2)

/-- `_partition_by_verification` -/
def partitionByVerification (attributed : List Attributed) :
    Except ReadExn (List Attributed × List String) :=
  attributed.foldlM r.verifyOne ([], [])

/-- `_merge_distinct` -/
def mergeDistinct (first second : List Attributed) : List Attributed :=
  FirstWins.addAll first second

/-- The `except BlobDecodeError` clause. -/
def recover (rounds : Nat → Except ReadExn (List Attributed)) (attributed : List Attributed)
    (failure : ReadExn) : Logged Event ReadExn (Bytes × Nat) := do
  let (verified, indicted) ← Logged.lift (r.partitionByVerification attributed)
  if indicted = [] then Logged.raise failure
  else if r.threshold ≤ verified.length then r.decodeAttributed verified
  else do
    Logged.emit (.fanOut 1 indicted)
    let replacements ← Logged.lift (rounds 1)
    r.decodeAttributed (mergeDistinct verified replacements)

/-- `reconstruct_blob`, given what its fan-outs end in. -/
def reconstructBlob (rounds : Nat → Except ReadExn (List Attributed)) :
    Logged Event ReadExn (Bytes × Nat) := do
  Logged.emit (.fanOut 0 [])
  let attributed ← Logged.lift (rounds 0)
  let decoded ← (r.decodeAttributed attributed).attempt
  match decoded with
  | .ok result => return result
  | .error (.blobDecodeError message) => r.recover rounds attributed (.blobDecodeError message)
  | .error e => Logged.raise e

/-- A call whose fan-outs fold the nodes' answers to them in some order. -/
def Reconstructs (answers : Nat → (r.fetch []).Answers) (orders : Nat → List r.Node)
    (rounds : Nat → Except ReadExn (List Attributed)) : Prop :=
  ∀ k excludeNodeIds, .fanOut k excludeNodeIds ∈ (r.reconstructBlob rounds).log →
    (r.fetch excludeNodeIds).Ends (answers k) (orders k) (rounds k)

end Read

/-! ## An ideal codec -/

/-- The sliver passes `verify_sliver`. -/
def Codec.verifies (codec : Codec) (sliver : Bytes) : Bool :=
  match codec.verifySliver sliver with
  | .ok () => true
  | .error _ => false

/-- Slivers verify or do not; enough distinct ones that do decode to the blob,
and a verified decode gives the blob or a `BlobDecodeError`. -/
structure Codec.Ideal (codec : Codec) (blob : Bytes) (threshold : Nat) : Prop where
  verdict : ∀ sliver, codec.verifySliver sliver = .ok () ∨
    ∃ message, codec.verifySliver sliver = .error (.sliverVerificationError message)
  decodes : ∀ slivers, slivers.Nodup → (∀ s ∈ slivers, codec.verifies s = true) →
    threshold ≤ slivers.length → codec.decodeBlob slivers true = .ok blob
  otherwise : ∀ slivers, codec.decodeBlob slivers true = .ok blob ∨
    ∃ message, codec.decodeBlob slivers true = .error (.blobDecodeError message)

namespace Read

variable {r : Read} {blob : Bytes}

/-- The slivers that verified. -/
def verified (r : Read) (attributed : List Attributed) : List Attributed :=
  attributed.filter fun item => r.codec.verifies item.1

/-- The nodes that are blamed for one that did not. -/
def indicted (r : Read) (attributed : List Attributed) : List String :=
  attributed.foldl
    (fun nodes item => if r.codec.verifies item.1 then nodes else nodes.insert item.2) []

/-- Every sliver is checked, whatever the others are. -/
theorem partitionByVerification_eq (ideal : r.codec.Ideal blob r.threshold)
    (attributed : List Attributed) :
    r.partitionByVerification attributed =
      .ok (r.verified attributed, r.indicted attributed) := by
  have hgen : ∀ (items : List Attributed) (split : List Attributed × List String),
      items.foldlM r.verifyOne split = .ok (split.1 ++ r.verified items,
        items.foldl (fun nodes item =>
          if r.codec.verifies item.1 then nodes else nodes.insert item.2) split.2) := by
    intro items
    induction items with
    | nil => intro split; simp [verified]
    | cons item items ih =>
      intro split
      rw [List.foldlM_cons, List.foldl_cons]
      rcases ideal.verdict item.1 with hok | ⟨message, herr⟩
      · have hverifies : r.codec.verifies item.1 = true := by simp [Codec.verifies, hok]
        have hstep : r.verifyOne split item = .ok (split.1 ++ [item], split.2) := by
          simp [verifyOne, hok]
        rw [hstep, ok_bind, ih]
        simp [verified, hverifies]
      · have hverifies : r.codec.verifies item.1 = false := by simp [Codec.verifies, herr]
        have hstep : r.verifyOne split item = .ok (split.1, split.2.insert item.2) := by
          simp [verifyOne, herr]
        rw [hstep, ok_bind, ih]
        simp [verified, hverifies]
  rw [partitionByVerification, hgen]
  rfl

theorem mem_indicted {attributed : List Attributed} {nodeId : String} :
    nodeId ∈ r.indicted attributed ↔
      ∃ sliver, (sliver, nodeId) ∈ attributed ∧ r.codec.verifies sliver = false := by
  have hgen : ∀ (items : List Attributed) (nodes : List String),
      nodeId ∈ items.foldl (fun nodes item =>
          if r.codec.verifies item.1 then nodes else nodes.insert item.2) nodes ↔
        nodeId ∈ nodes ∨ ∃ sliver, (sliver, nodeId) ∈ items ∧ r.codec.verifies sliver = false := by
    intro items
    induction items with
    | nil => intro nodes; simp
    | cons item items ih =>
      intro nodes
      rw [List.foldl_cons, ih]
      obtain ⟨sliver, node⟩ := item
      cases hverifies : r.codec.verifies sliver with
      | true =>
        constructor
        · rintro (h | ⟨s, hs, hbad⟩)
          · exact .inl (by simpa using h)
          · exact .inr ⟨s, List.mem_cons_of_mem _ hs, hbad⟩
        · rintro (h | ⟨s, hs, hbad⟩)
          · exact .inl (by simpa using h)
          · rcases List.mem_cons.mp hs with heq | hmem
            · cases heq
              rw [hverifies] at hbad
              cases hbad
            · exact .inr ⟨s, hmem, hbad⟩
      | false =>
        constructor
        · rintro (h | ⟨s, hs, hbad⟩)
          · have hinsert : nodeId = node ∨ nodeId ∈ nodes := by simpa using h
            rcases hinsert with rfl | hmem
            · exact .inr ⟨sliver, List.mem_cons_self, hverifies⟩
            · exact .inl hmem
          · exact .inr ⟨s, List.mem_cons_of_mem _ hs, hbad⟩
        · rintro (h | ⟨s, hs, hbad⟩)
          · exact .inl (by simpa using Or.inr h)
          · rcases List.mem_cons.mp hs with heq | hmem
            · cases heq
              exact .inl (by simp)
            · exact .inr ⟨s, hmem, hbad⟩
  rw [indicted, hgen]
  simp

end Read

end Pytusk.NativeRead
