import Pytusk.Certification.Soundness
import Pytusk.Lib.Base64
import Pytusk.Lib.LittleEndian
import Pytusk.Types.Json

/-!
# `relay_upload/relay_certify.py`: the relay's certificate

What the relay sends is any JSON value. Everything that can be wrong with it
is a `RelayCertificateParseError`.
-/

namespace Pytusk.RelayUpload

open Pytusk.Lib Pytusk.Certification

/-- `_EPOCH_OFFSET` -/
def epochOffset : Nat := 3

private def parseError (message : String) : PyExn :=
  .relayUpload .relayCertificateParseError message "parse_relay_certificate" none

/-- `payload[name]` -/
def requiredField (payload : List (PyStr × Json)) (name : String) : Except PyExn Json :=
  match Dict.get? payload (Json.key name) with
  | some value => .ok value
  | none => .error (parseError s!"Relay certificate is missing field '{name}'")

/-- `isinstance(entry, int) and not isinstance(entry, bool)` -/
def asInteger : Json → Option Int
  | .int n => some n
  | _ => none

/-- One entry of `bytes(raw_message)`; a `bool` is an integer here. -/
def asByte : Json → Except String UInt8
  | .int n =>
      if 0 ≤ n ∧ n < 256 then .ok (UInt8.ofNat n.toNat)
      else .error "bytes must be in range(0, 256)"
  | .bool b => .ok (UInt8.ofNat b.toNat)
  | value =>
      let typeName := value.typeName
      .error s!"'{typeName}' object cannot be interpreted as an integer"

def signerEntries (repr : Json → String) (rawSigners : Json) : Except PyExn (List Int) :=
  let notIntegers : Except PyExn (List Int) :=
    .error (parseError <|
      "Relay certificate 'signers' must be a list of integers, got " ++ repr rawSigners)
  match rawSigners with
  | .list entries =>
      match entries.mapM asInteger with
      | some signers => .ok signers
      | none => notIntegers
  | _ => notIntegers

def messageBytes (rawMessage : Json) : Except PyExn Bytes :=
  match rawMessage with
  | .list entries =>
      match entries.mapM asByte with
      | .ok bytes => .ok bytes
      | .error text =>
          .error (parseError
            s!"Relay certificate 'serialized_message' is not a byte sequence: {text}")
  | _ =>
      let typeName := rawMessage.typeName
      .error (parseError <|
        "Relay certificate 'serialized_message' must be a list of byte values, " ++
        s!"not base64, got {typeName}")

def signatureBytes (rawSignature : Json) : Except PyExn Bytes :=
  match rawSignature with
  | .str value =>
      match Base64.decode value with
      | .ok bytes => .ok bytes
      | .error text =>
          .error (parseError
            s!"Relay certificate 'signature' is not valid base64: {text}")
  | _ =>
      let typeName := rawSignature.typeName
      .error (parseError
        s!"Relay certificate 'signature' must be a base64 string, got {typeName}")

/-- `pack_signers_bitmap`, whose only error is a `ValueError`. -/
def packNamedSigners (signerPositions : List Int) (committee : WalrusCommittee) :
    Except PyExn Bytes :=
  match packSignersBitmap signerPositions committee.committeeSize with
  | .ok bitmap => .ok bitmap
  | .error e =>
      let text := e.message
      .error (parseError
        s!"Relay certificate names an invalid signer position: {text}")

/-- `int.from_bytes(serialized_message[3:7], "little")` -/
def signedEpoch (serializedMessage : Bytes) : Nat :=
  LittleEndian.decode ((serializedMessage.drop epochOffset).take 4)

def parseRelayCertificate (bls : Bls) (repr : Json → String) (payload : Json)
    (committee : WalrusCommittee) (blobId : Bytes) (objectId : Option Bytes) :
    Except PyExn Certificate :=
  match payload with
  | .dict fields => do
      let rawSigners ← requiredField fields "signers"
      let rawMessage ← requiredField fields "serialized_message"
      let rawSignature ← requiredField fields "signature"
      let signers ← signerEntries repr rawSigners
      raiseIf (signers = [])
        (parseError "Relay certificate 'signers' is empty; nothing signed it")
      let serializedMessage ← messageBytes rawMessage
      raiseIf (serializedMessage.length < epochOffset + 4)
        (parseError <|
          "Relay certificate 'serialized_message' is too short to be a " ++
          s!"confirmation ({serializedMessage.length} bytes)")
      raiseIf (serializedMessage ≠
          confirmationMessage bls (signedEpoch serializedMessage) blobId objectId)
        (parseError <|
          "Relay certificate does not confirm the blob that was uploaded: its " ++
          "signed message does not match the expected confirmation for this " ++
          "blob id and persistence type")
      let aggregateSignature ← signatureBytes rawSignature
      let positions := signers.dedup.insertionSort (· ≤ ·)
      let signersBitmap ← packNamedSigners positions committee
      -- every position is a natural number from here on
      let signerPositions := positions.map Int.toNat
      let members ← committee.membersAt signerPositions
      let weight : Nat := (members.map (·.weight)).sum
      raiseIf (isQuorum weight committee.nShards = false)
        (parseError <|
          s!"Relay certificate carries {weight} of {committee.nShards} shards, " ++
          "below the quorum required to certify")
      return {
        serializedMessage := serializedMessage
        aggregateSignature := aggregateSignature
        signersBitmap := signersBitmap
        signerPositions := signerPositions
        weight := weight }
  | _ =>
      let typeName := payload.typeName
      .error (parseError s!"Relay certificate must be an object, got {typeName}")

/-! ## What is accepted -/

private theorem packNamedSigners_eq_ok {ps : List Int} {c : WalrusCommittee} {b : Bytes}
    (h : packNamedSigners ps c = .ok b) : packSignersBitmap ps c.committeeSize = .ok b := by
  unfold packNamedSigners at h
  split at h
  · rename_i bitmap hpack
    cases h
    exact hpack
  · cases h

/-- Sorting a set of non-negative integers gives ascending natural numbers. -/
private theorem ascending_toNat {signers : List Int} {n : Nat}
    (h : ∀ p ∈ signers.dedup.insertionSort (· ≤ ·), 0 ≤ p ∧ p < n) :
    ((signers.dedup.insertionSort (· ≤ ·)).map Int.toNat).Pairwise (· < ·) ∧
    ((signers.dedup.insertionSort (· ≤ ·)).map Int.toNat).map Int.ofNat =
      signers.dedup.insertionSort (· ≤ ·) := by
  have hle := List.pairwise_insertionSort (· ≤ ·) signers.dedup
  have hne := (List.perm_insertionSort (· ≤ ·) signers.dedup).nodup_iff.mpr
    signers.nodup_dedup
  generalize signers.dedup.insertionSort (· ≤ ·) = ps at h hle hne
  constructor
  · apply List.pairwise_map.mpr
    refine List.Pairwise.imp_of_mem ?_ (hle.and hne)
    intro a b ha hb hab
    have := h a ha
    have := h b hb
    have := hab.1
    have := hab.2
    omega
  · rw [List.map_map]
    refine (List.map_congr_left fun p hp => ?_).trans (List.map_id ps)
    show ((p.toNat : Nat) : Int) = p
    exact Int.toNat_of_nonneg (h p hp).1

/-- The bitmap of the signers is that of the ascending positions of members. -/
private theorem packNamedSigners_reads {signers : List Int} {c : WalrusCommittee} {b : Bytes}
    (h : packNamedSigners (signers.dedup.insertionSort (· ≤ ·)) c = .ok b) :
    ∃ ps, (signers.dedup.insertionSort (· ≤ ·)).map Int.toNat = ps ∧
      ps.Pairwise (· < ·) ∧ (∀ p ∈ ps, p < c.committeeSize) ∧
      b.length = (c.committeeSize + 7) / 8 ∧
      unpackSignersBitmap b c.committeeSize = .ok ps := by
  have hpack := packNamedSigners_eq_ok h
  obtain ⟨hasc, hback⟩ := ascending_toNat (packSignersBitmap_eq_ok.mp hpack).1
  rw [← hback] at hpack
  exact ⟨_, rfl, hasc, unpack_of_pack_ascending hasc hpack⟩

/-- **A certificate the parser accepts is sound**, and is over the
confirmation message of the uploaded blob for the epoch it names. -/
theorem parseRelayCertificate_sound {bls : Bls} {repr : Json → String} {payload : Json}
    {c : WalrusCommittee} {blobId : Bytes} {objectId : Option Bytes} {cert : Certificate}
    (h : parseRelayCertificate bls repr payload c blobId objectId = .ok cert) :
    Sound c cert ∧
      ∃ epoch, cert.serializedMessage = confirmationMessage bls epoch blobId objectId := by
  unfold parseRelayCertificate at h
  split at h
  · obtain ⟨rawSigners, -, h⟩ := bind_eq_ok.mp h
    obtain ⟨rawMessage, -, h⟩ := bind_eq_ok.mp h
    obtain ⟨rawSignature, -, h⟩ := bind_eq_ok.mp h
    obtain ⟨signers, -, h⟩ := bind_eq_ok.mp h
    obtain ⟨-, -, h⟩ := bind_eq_ok.mp h
    obtain ⟨message, -, h⟩ := bind_eq_ok.mp h
    obtain ⟨-, -, h⟩ := bind_eq_ok.mp h
    obtain ⟨_, hmessage, h⟩ := bind_eq_ok.mp h
    obtain ⟨signature, -, h⟩ := bind_eq_ok.mp h
    obtain ⟨bitmap, hpack, h⟩ := bind_eq_ok.mp h
    obtain ⟨members, hmembers, h⟩ := bind_eq_ok.mp h
    obtain ⟨_, hquorum, h⟩ := bind_eq_ok.mp h
    cases h
    obtain ⟨_, rfl, hasc, hinside, hlength, hunpack⟩ := packNamedSigners_reads hpack
    refine ⟨⟨hasc, hinside, hlength, hunpack, ⟨members, hmembers, rfl⟩, ?_⟩, ?_⟩
    · simpa using raiseIf_eq_ok.mp hquorum
    · exact ⟨_, by simpa using raiseIf_eq_ok.mp hmessage⟩
  · cases h

/-! ## What is refused -/

/-- `RelayCertificateParseError` -/
def IsParseError (e : PyExn) : Prop :=
  ∃ message, e = .relayUpload .relayCertificateParseError message
    "parse_relay_certificate" none

private theorem isParseError (message : String) : IsParseError (parseError message) :=
  ⟨message, rfl⟩

private theorem requiredField_raises (fields : List (PyStr × Json)) (name : String) :
    OnlyRaises IsParseError (requiredField fields name) := by
  unfold requiredField
  split
  · exact onlyRaises_ok _
  · exact onlyRaises_error (isParseError _)

private theorem signerEntries_raises (repr : Json → String) (rawSigners : Json) :
    OnlyRaises IsParseError (signerEntries repr rawSigners) := by
  unfold signerEntries
  dsimp only
  split
  · split
    · exact onlyRaises_ok _
    · exact onlyRaises_error (isParseError _)
  · exact onlyRaises_error (isParseError _)

private theorem messageBytes_raises (rawMessage : Json) :
    OnlyRaises IsParseError (messageBytes rawMessage) := by
  unfold messageBytes
  split
  · split
    · exact onlyRaises_ok _
    · exact onlyRaises_error (isParseError _)
  · exact onlyRaises_error (isParseError _)

private theorem signatureBytes_raises (rawSignature : Json) :
    OnlyRaises IsParseError (signatureBytes rawSignature) := by
  unfold signatureBytes
  split
  · split
    · exact onlyRaises_ok _
    · exact onlyRaises_error (isParseError _)
  · exact onlyRaises_error (isParseError _)

private theorem packNamedSigners_raises (ps : List Int) (c : WalrusCommittee) :
    OnlyRaises IsParseError (packNamedSigners ps c) := by
  unfold packNamedSigners
  split
  · exact onlyRaises_ok _
  · exact onlyRaises_error (isParseError _)

/-- **Whatever the relay sends, only a parse error is raised.** -/
theorem parseRelayCertificate_raises (bls : Bls) (repr : Json → String) (payload : Json)
    (c : WalrusCommittee) (blobId : Bytes) (objectId : Option Bytes) :
    OnlyRaises IsParseError (parseRelayCertificate bls repr payload c blobId objectId) := by
  unfold parseRelayCertificate
  split
  · refine (requiredField_raises _ _).bind fun rawSigners _ => ?_
    refine (requiredField_raises _ _).bind fun rawMessage _ => ?_
    refine (requiredField_raises _ _).bind fun rawSignature _ => ?_
    refine (signerEntries_raises _ _).bind fun signers _ => ?_
    refine (onlyRaises_raiseIf (isParseError _)).bind fun _ _ => ?_
    refine (messageBytes_raises _).bind fun message _ => ?_
    refine (onlyRaises_raiseIf (isParseError _)).bind fun _ _ => ?_
    refine (onlyRaises_raiseIf (isParseError _)).bind fun _ _ => ?_
    refine (signatureBytes_raises _).bind fun signature _ => ?_
    refine (packNamedSigners_raises _ _).bind fun bitmap hpack => ?_
    -- a packed position has a member, so the lookup does not fail
    obtain ⟨_, rfl, -, hinside, -, -⟩ := packNamedSigners_reads hpack
    dsimp only
    rw [WalrusCommittee.membersAt_eq_ok.mpr ⟨hinside, rfl⟩, ok_bind]
    exact (onlyRaises_raiseIf (isParseError _)).bind fun _ _ => onlyRaises_ok _
  · exact onlyRaises_error (isParseError _)

end Pytusk.RelayUpload
