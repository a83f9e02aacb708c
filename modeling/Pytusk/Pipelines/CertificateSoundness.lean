import Pytusk.NativeUpload.ConfirmRuns
import Pytusk.Pipelines.Origins

/-!
# The certificates Tx2 is submitted with

Whatever the storage nodes and the relay answer, a certificate that reaches
`certify_blob` is sound for the committee it was checked against, is over the
confirmation message of the uploaded blob, and its aggregate verified.
-/

namespace Pytusk.Pipelines

open Pytusk.Lib Pytusk.Ops Pytusk.Certification

variable {w : World} {assumed : Event → Prop}

/-- What holds of a certificate of a blob, for a committee, in one of the
epochs `Epoch`. -/
structure SoundFor (w : World) (Epoch : Nat → Prop) (blobId : Bytes)
    (registration : Registration) (committee : WalrusCommittee)
    (certificate : Certificate) : Prop where
  blob : registration.blobId = blobId
  sound : Sound committee certificate
  message : ∃ epoch objectId, Epoch epoch ∧
    RelayDelivery.objectIdBytes registration = .ok objectId ∧
    certificate.serializedMessage = confirmationMessage w.bls epoch blobId objectId
  verified : ∃ signers, committee.membersAt certificate.signerPositions = .ok signers ∧
    w.bls.aggregateVerify certificate.aggregateSignature (signers.map (·.publicKey))
      certificate.serializedMessage = .ok true

/-- Every certificate shown is sound, and Tx2 is submitted with one that was
shown. -/
structure SubmitsSound (w : World) (Epoch : WalrusCommittee → Nat → Prop)
    (prepared : Except PyExn WritePreamble) (log : List Event) : Prop where
  certifying : ∀ committee registration certificate,
    .certifying committee registration certificate ∈ log →
      ∃ p, prepared = .ok p ∧
        SoundFor w (Epoch committee) p.encoded.blobId registration committee certificate
  submitted : ∀ txn, .submitted .tx2 txn ∈ log →
    ∃ p committee registration certificate rest, prepared = .ok p ∧
      .certifying committee registration certificate ∈ log ∧
      txn.calls = certifyBlob p.packageId w.systemObject registration.objectId certificate ::
        rest

/-! ## What a write certifies -/

/-- The native message names the object the relay's would. -/
private theorem expectedMessage_eq_ok {q : Confirm.Query} {message : Bytes}
    (h : q.expectedMessage = .ok message) :
    ∃ objectId, RelayDelivery.objectIdBytes q.registration = .ok objectId ∧
      message = confirmationMessage q.bls q.committee.epoch q.blobId objectId := by
  unfold Confirm.Query.expectedMessage at h
  unfold RelayDelivery.objectIdBytes
  split at h
  · rename_i hdeletable
    obtain ⟨objectId, hobjectId, h⟩ := bind_eq_ok.mp h
    cases h
    exact ⟨some objectId, by rw [if_pos hdeletable, hobjectId]; rfl, rfl⟩
  · rename_i hpermanent
    cases h
    exact ⟨none, by rw [if_neg hpermanent], rfl⟩

private theorem verified_of_verifyCertificate {bls : Bls} {certificate : Certificate}
    {keys : List Bytes} (h : verifyCertificate bls certificate keys = true) :
    bls.aggregateVerify certificate.aggregateSignature keys certificate.serializedMessage =
      .ok true := by
  unfold verifyCertificate at h
  split at h
  · rename_i verified hverified
    rw [hverified, h]
  · cases h

/-- What is sound of every certificate a write can deliver is sound of every
one it submits. -/
private theorem Write.Submits.soundFor {write : Write} {Epoch : Nat → Prop}
    {registration : Registration} {committee : WalrusCommittee} {certificate : Certificate}
    (h : write.Submits w assumed registration committee certificate)
    (hsound : Sound committee certificate ∧
      ∃ epoch objectId, Epoch epoch ∧
        RelayDelivery.objectIdBytes registration = .ok objectId ∧
        certificate.serializedMessage =
          confirmationMessage w.bls epoch write.prepared.encoded.blobId objectId) :
    SoundFor w Epoch write.prepared.encoded.blobId registration committee certificate := by
  obtain ⟨txn, executed, effects, -, -, -, hread⟩ := h.registers
  obtain ⟨-, hblobId, -⟩ := readRegistration_eq_ok hread
  obtain ⟨signers, hsigners, hverify⟩ := h.verified
  refine ⟨?_, hsound.1, hsound.2, signers, hsigners, verified_of_verifyCertificate hverify⟩
  rw [hblobId, write.encoded]

private theorem native_sound {prepared : WritePreamble} {registration : Registration}
    {committee : WalrusCommittee} {certificate : Certificate}
    (hdistinct : ∀ k c, w.committee k = .ok c → c.Distinct)
    (hassumed : ∀ event, assumed event → w.Possible event)
    (h : NativeDelivery.Certifies w assumed prepared registration committee certificate) :
    Sound committee certificate ∧
      ∃ epoch objectId, epoch = committee.epoch ∧
        RelayDelivery.objectIdBytes registration = .ok objectId ∧
        certificate.serializedMessage =
          confirmationMessage w.bls epoch prepared.encoded.blobId objectId := by
  obtain ⟨⟨j, hread⟩, k, hshown, hcollected⟩ := h
  have hcollects : Confirm.Collects
      (NativeUpload.confirmationQuery w k committee prepared.encoded.blobId registration)
      (w.confirmations k) := hassumed _ hshown
  rw [hcollected] at hcollects
  obtain ⟨hsound, hmessage⟩ := hcollects.sound (hdistinct j committee hread) rfl
  obtain ⟨objectId, hobjectId, hserialized⟩ := expectedMessage_eq_ok hmessage
  exact ⟨hsound, committee.epoch, objectId, rfl, hobjectId, hserialized⟩

private theorem relay_sound {prepared : WritePreamble} {registration : Registration}
    {committee : WalrusCommittee} {certificate : Certificate}
    (h : RelayDelivery.Certifies w prepared registration committee certificate) :
    Sound committee certificate ∧
      ∃ epoch objectId, True ∧
        RelayDelivery.objectIdBytes registration = .ok objectId ∧
        certificate.serializedMessage =
          confirmationMessage w.bls epoch prepared.encoded.blobId objectId := by
  obtain ⟨rfl, payload, hparsed⟩ := h
  obtain ⟨objectId, hobjectId, hparsed⟩ := bind_eq_ok.mp hparsed
  obtain ⟨hsound, epoch, hserialized⟩ := RelayUpload.parseRelayCertificate_sound hparsed
  exact ⟨hsound, epoch, objectId, trivial, hobjectId, hserialized⟩

/-- From where events come from to what is submitted. -/
private theorem submitsSound_of_origin (assumed : Event → Prop)
    {Epoch : WalrusCommittee → Nat → Prop} {prepared : Except PyExn WritePreamble}
    {log : List Event} (hshown : ∀ event, assumed event → event ∈ log)
    (horigin : ∀ event ∈ log, ∃ write : Write, prepared = .ok write.prepared ∧
      (∀ registration committee certificate,
        write.Submits w assumed registration committee certificate →
          SoundFor w (Epoch committee) write.prepared.encoded.blobId registration committee
            certificate) ∧
      write.Origin w assumed event) :
    SubmitsSound w Epoch prepared log := by
  constructor
  · intro committee registration certificate hmem
    obtain ⟨write, hprepared, hsound, horigin⟩ := horigin _ hmem
    exact ⟨write.prepared, hprepared, hsound _ _ _ horigin.certifies⟩
  · intro txn hmem
    obtain ⟨write, hprepared, -, horigin⟩ := horigin _ hmem
    obtain ⟨registration, committee, certificate, rest, -, hcertifying, hcalls⟩ :=
      horigin.submitsTx2
    exact ⟨write.prepared, committee, registration, certificate, rest, hprepared,
      hshown _ hcertifying, hcalls⟩

/-- **Certificate soundness at Tx2**, on the native path and on the two relay
paths. The native one knows the epoch that was signed. -/
theorem storeBlob_submitsSound (w : World)
    (hdistinct : ∀ k c, w.committee k = .ok c → c.Distinct) :
    (∀ args : NativeStore, (∀ event ∈ (storeBlobNative w args).log, w.Possible event) →
      SubmitsSound w (fun committee epoch => epoch = committee.epoch)
        (prepareWrite w args.data nativeUploadError) (storeBlobNative w args).log) ∧
    (∀ (args : RelayStore) (data : Bytes),
      SubmitsSound w (fun _ _ => True) (prepareWrite w data relayUploadError)
        (storeBlobRelay w args data).log) ∧
    (∀ (args : RelayStore) (patches : List QuiltPatchInput),
      SubmitsSound w (fun _ _ => True)
        ((prepareQuiltWrite w patches relayUploadError).map (·.toWritePreamble))
        (storeQuiltRelay w args patches).log) := by
  refine ⟨?_, ?_, ?_⟩
  · intro args hpossible
    let assumed := fun event => w.Possible event ∧ event ∈ (storeBlobNative w args).log
    have horigin : Shows assumed _ _ (storeBlobNative w args) := storeBlobNative_origin
    refine submitsSound_of_origin assumed (fun event h => h.2) fun event hmem => ?_
    obtain ⟨prepared, hprepared, h⟩ :=
      (horigin fun event hmem => ⟨hpossible event hmem, hmem⟩).1 event hmem
    refine ⟨Write.native w assumed args prepared, hprepared, ?_, h⟩
    intro registration committee certificate hsubmits
    exact hsubmits.soundFor (native_sound hdistinct (fun event h => h.1) hsubmits.certifies)
  · intro args data
    refine submitsSound_of_origin _ (fun event h => h) fun event hmem => ?_
    obtain ⟨relayUrl, prepared, -, hprepared, plan, -, h⟩ :=
      origin_of_mem_storeBlobRelay hmem
    refine ⟨Write.relay w args data prepared plan relayUrl, hprepared, ?_, h⟩
    intro registration committee certificate hsubmits
    exact hsubmits.soundFor (relay_sound hsubmits.certifies)
  · intro args patches
    refine submitsSound_of_origin _ (fun event h => h) fun event hmem => ?_
    obtain ⟨relayUrl, prepared, -, hprepared, plan, -, h⟩ :=
      origin_of_mem_storeQuiltRelay hmem
    refine ⟨Write.relay w args prepared.data prepared.toWritePreamble plan relayUrl,
      by rw [hprepared]; rfl, ?_, h⟩
    intro registration committee certificate hsubmits
    exact hsubmits.soundFor (relay_sound hsubmits.certifies)

/-- A small write submits a certificate of its blob, on either path. -/
theorem storeBlob_submitsSound_small :
    (∃ committee registration certificate,
      .certifying committee registration certificate ∈
        (storeBlobNative World.small .small).log ∧
      SoundFor World.small (· = 1) (List.replicate 32 7) registration committee
        certificate) ∧
    ∃ committee registration certificate,
      .certifying committee registration certificate ∈
        (storeBlobRelay World.small .small [1, 2, 3]).log ∧
      SoundFor World.small (fun _ => True) (List.replicate 32 7) registration committee
        certificate := by
  obtain ⟨hnative, hrelay, -⟩ := storeBlob_submitsSound World.small fun _ c hc => by
    cases hc
    decide
  constructor
  · obtain ⟨c, r, k, hget, hepoch⟩ : ∃ c r k, (storeBlobNative World.small .small).log[6]? =
        some (.certifying c r k) ∧ c.epoch = 1 := ⟨_, _, _, rfl, rfl⟩
    have hmem := List.mem_of_getElem? hget
    obtain ⟨p, hp, hsound⟩ := (hnative .small SmallWrite.possible).certifying c r k hmem
    cases hp
    exact ⟨c, r, k, hmem, hepoch ▸ hsound⟩
  · obtain ⟨c, r, k, hget⟩ : ∃ c r k, (storeBlobRelay World.small .small [1, 2, 3]).log[4]? =
        some (.certifying c r k) := ⟨_, _, _, rfl⟩
    have hmem := List.mem_of_getElem? hget
    obtain ⟨p, hp, hsound⟩ := (hrelay .small [1, 2, 3]).certifying c r k hmem
    cases hp
    exact ⟨c, r, k, hmem, hsound⟩

end Pytusk.Pipelines
