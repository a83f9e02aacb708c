import Pytusk.Pipelines.Origins

/-!
# Who signs Tx2

`certify_blob` takes the Blob as `&mut`, so Tx2 has to be signed by the address
Tx1 handed the Blob to. The relay pipeline resolves one sender for both
transactions. The native one drops its `sender` on the way to Tx2.
-/

namespace Pytusk.Pipelines

open Pytusk.Lib Pytusk.Ops

variable {w : World}

/-- Tx1 was submitted, and it handed the new Blob to `owner`. -/
def OwnedBy (prepared : Except PyExn WritePreamble) (log : List Event) (owner : String) :
    Prop :=
  ∃ p, prepared = .ok p ∧ (∃ txn, .submitted .tx1 txn ∈ log) ∧
    ∀ txn, .submitted .tx1 txn ∈ log → newBlobRecipient p.packageId txn = some owner

theorem OwnedBy.unique {prepared : Except PyExn WritePreamble} {log : List Event}
    {a b : String} (ha : OwnedBy prepared log a) (hb : OwnedBy prepared log b) : a = b := by
  obtain ⟨p, hp, ⟨txn, hmem⟩, hall⟩ := ha
  obtain ⟨p', hp', -, hall'⟩ := hb
  obtain rfl : p = p' := Except.ok.inj (hp.symm.trans hp')
  exact Option.some.inj ((hall txn hmem).symm.trans (hall' txn hmem))

/-- What a run of a write says about the owner, once it opens Tx2. -/
private theorem ownedBy_of_origin (w : World) (owner signer : String)
    {prepared : Except PyExn WritePreamble} {log : List Event} {sender : String}
    {sponsor : Option String}
    (horigin : ∀ event ∈ log, ∃ write : Write, prepared = .ok write.prepared ∧
      write.strategy.resolvedSender w = owner ∧
      (∀ registration,
        pyOr (write.certifyTerms registration).sender w.activeAddress = signer) ∧
      write.Origin w (· ∈ log) event)
    (hopened : .opened .tx2 sender sponsor ∈ log) :
    sender = signer ∧ OwnedBy prepared log owner := by
  obtain ⟨write, hprepared, -, hsigner, h⟩ := horigin _ hopened
  obtain ⟨registration, _, _, hsubmits, rfl⟩ := h.opensTx2
  obtain ⟨txn, _, _, -, hsubmitted, -⟩ := hsubmits.registers
  refine ⟨hsigner registration, write.prepared, hprepared, ⟨txn, hsubmitted⟩, ?_⟩
  intro txn' hmem
  obtain ⟨write', hprepared', howner, -, h'⟩ := horigin _ hmem
  have hsame : write.prepared = write'.prepared :=
    Except.ok.inj (hprepared.symm.trans hprepared')
  rw [hsame, ← write'.package, ← howner]
  exact h'.submitsTx1.newBlobRecipient

/-- The sender a relay write registers for. -/
theorem planRelay_resolvedSender {args : RelayStore} {data : Bytes}
    {committee : WalrusCommittee} {relayUrl : String} {attributes : List (String × String)}
    {plan : RelayPlan}
    (h : planRelay w args data committee relayUrl (pyOr args.sender w.activeAddress)
      attributes = .ok plan) :
    plan.strategy.resolvedSender w = pyOr args.sender w.activeAddress := by
  obtain ⟨quote, -, h⟩ := bind_eq_ok.mp h
  obtain ⟨-, -, h⟩ := bind_eq_ok.mp h
  obtain ⟨-, -, h⟩ := bind_eq_ok.mp h
  obtain ⟨coin, -, h⟩ := bind_eq_ok.mp h
  cases h
  cases quote.requiresPayment with
  | false => exact pyOr_some_pyOr _ _
  | true => rfl

/-- **Who signs Tx2.** The relay pipeline always opens Tx2 for the owner of the
Blob. The native pipeline does so exactly when its sender is the active
address. -/
theorem storeBlob_ownerSigns (w : World) {sender : String} {sponsor : Option String} :
    (∀ args : NativeStore, .opened .tx2 sender sponsor ∈ (storeBlobNative w args).log →
      (OwnedBy (prepareWrite w args.data nativeUploadError) (storeBlobNative w args).log
          sender ↔
        pyOr args.sender w.activeAddress = w.activeAddress)) ∧
    (∀ (args : RelayStore) (data : Bytes),
      .opened .tx2 sender sponsor ∈ (storeBlobRelay w args data).log →
        OwnedBy (prepareWrite w data relayUploadError) (storeBlobRelay w args data).log
          sender) := by
  constructor
  · intro args hopened
    have hboth : sender = w.activeAddress ∧
        OwnedBy (prepareWrite w args.data nativeUploadError) (storeBlobNative w args).log
          (pyOr args.sender w.activeAddress) := by
      refine ownedBy_of_origin w _ _ (fun event hmem => ?_) hopened
      obtain ⟨prepared, hprepared, h⟩ := origin_of_mem_storeBlobNative hmem
      exact ⟨_, hprepared, rfl, fun _ => rfl, h⟩
    obtain ⟨rfl, howned⟩ := hboth
    constructor
    · intro h
      exact howned.unique h
    · intro h
      rwa [h] at howned
  · intro args data hopened
    have hboth : sender = pyOr args.sender w.activeAddress ∧
        OwnedBy (prepareWrite w data relayUploadError) (storeBlobRelay w args data).log
          (pyOr args.sender w.activeAddress) := by
      refine ownedBy_of_origin w _ _ (fun event hmem => ?_) hopened
      obtain ⟨relayUrl, prepared, -, hprepared, plan, hplan, h⟩ :=
        origin_of_mem_storeBlobRelay hmem
      exact ⟨_, hprepared, planRelay_resolvedSender hplan, fun _ => rfl, h⟩
    obtain ⟨rfl, howned⟩ := hboth
    exact howned

/-! ### A sender that is not the active address -/

/-- The Blob goes to the sender. -/
private def otherWorld : World :=
  { World.small with
    transaction := fun _ => World.succeeding [⟨some "0xb", .created, some ⟨some "0xe"⟩⟩] }

private def otherSender : NativeStore := { NativeStore.small with sender := some "0xe" }

/-- Tx2 is opened for the active address, and the Blob is the sender's. -/
theorem storeBlobNative_otherSigns :
    ∃ sender sponsor,
      .opened .tx2 sender sponsor ∈ (storeBlobNative otherWorld otherSender).log ∧
      ¬ OwnedBy (prepareWrite otherWorld otherSender.data nativeUploadError)
        (storeBlobNative otherWorld otherSender).log sender := by
  obtain ⟨txn, hopened, hsubmitted, hrecipient⟩ : ∃ txn,
      (storeBlobNative otherWorld otherSender).log[7]? = some (.opened .tx2 "0xa" none) ∧
      (storeBlobNative otherWorld otherSender).log[2]? = some (.submitted .tx1 txn) ∧
      newBlobRecipient "0x1" txn = some "0xe" := ⟨_, rfl, rfl, rfl⟩
  refine ⟨"0xa", none, List.mem_of_getElem? hopened, ?_⟩
  rintro ⟨p, hp, -, hall⟩
  cases hp
  have h := hall txn (List.mem_of_getElem? hsubmitted)
  exact absurd (hrecipient.symm.trans h) (by decide)

/-- A small write opens Tx2 for the owner, on either path. -/
theorem storeBlob_ownerSigns_small :
    OwnedBy (prepareWrite World.small NativeStore.small.data nativeUploadError)
      (storeBlobNative World.small .small).log "0xa" ∧
    OwnedBy (prepareWrite World.small [1, 2, 3] relayUploadError)
      (storeBlobRelay World.small .small [1, 2, 3]).log "0xa" := by
  obtain ⟨hnative, hrelay⟩ : _ ∧ _ := storeBlob_ownerSigns World.small
  constructor
  · have hopened : (storeBlobNative World.small .small).log[7]? =
        some (.opened .tx2 "0xa" none) := rfl
    exact (hnative .small (List.mem_of_getElem? hopened)).mpr rfl
  · have hopened : (storeBlobRelay World.small .small [1, 2, 3]).log[5]? =
        some (.opened .tx2 "0xa" none) := rfl
    exact hrelay .small [1, 2, 3] (List.mem_of_getElem? hopened)

end Pytusk.Pipelines
