import Pytusk.Pipelines.Origins

/-!
# Which object a registration names

Sui reports, for a transaction, the objects its commands created, each under
the address it was transferred to, the child objects these own, and objects
that were there before. The lookup takes the first created object of the
sender, and a Tx1 can create two: the Blob and the coin of the tip.
-/

namespace Pytusk.Pipelines

open Pytusk.Lib Pytusk.Ops

variable {w : World} {canon : String → String}

/-! ## What Sui reports -/

/-- An object created for an address, which the chain writes its own way. -/
def createdChange (canon : String → String) (objectId recipient : String) : ChangedObject where
  objectId := some objectId
  idOperation := .created
  outputOwner := some { address := some (canon recipient) }

/-- The changes Sui reports of a Tx1 whose new Blob is `blobId`, in any order:
the Blob, the coins that were split off, child objects under the ids of their
parents, and objects that are not new. -/
def EffectsOf (canon : String → String) (packageId : String) (txn : Txn) (blobId : String)
    (changes : List ChangedObject) : Prop :=
  blobId ≠ "" ∧ ∃ owner coins children others,
    newBlobRecipient packageId txn = some owner ∧
    List.Forall₂ (fun recipient coin => ∃ coinId,
      coinId ≠ "" ∧ coinId ≠ blobId ∧ coin = createdChange canon coinId recipient)
      (coinRecipients txn) coins ∧
    (∀ child ∈ children, ∃ parentId, parentId ≠ canon owner ∧
      child.outputOwner = some { address := some parentId }) ∧
    (∀ other ∈ others, other.idOperation ≠ .created) ∧
    changes.Perm (createdChange canon blobId owner :: coins ++ children ++ others)

/-- The chain writes the sender as the write does, and the tip goes elsewhere. -/
def Distinguishable (canon : String → String) (w : World) (strategy : BlobRegistration) :
    Prop :=
  canon (strategy.resolvedSender w) = strategy.resolvedSender w ∧
    ∀ tip ∈ strategy.tip, canon tip.relayAddress ≠ strategy.resolvedSender w

/-! ## The lookup -/

private theorem createdFor_createdChange (canon : String → String)
    (owner objectId recipient : String) (hid : objectId ≠ "") :
    Effects.createdFor owner (createdChange canon objectId recipient) =
      if canon recipient = owner then some objectId else none := by
  simp [Effects.createdFor, createdChange, hid]

/-- What the lookup takes from a change is owned by the address it looks for. -/
private theorem owner_of_createdFor {owner objectId : String} {change : ChangedObject}
    (h : Effects.createdFor owner change = some objectId) :
    change.idOperation = .created ∧
      change.outputOwner.bind (·.address) = some owner := by
  unfold Effects.createdFor at h
  split at h
  · assumption
  · cases h

private theorem exists_left_of_mem {α β : Type} {R : α → β → Prop} {xs : List α}
    {ys : List β} (h : List.Forall₂ R xs ys) {y : β} (hy : y ∈ ys) : ∃ x ∈ xs, R x y := by
  induction h with
  | nil => cases hy
  | @cons x y' xs ys hxy _ ih =>
    rcases List.mem_cons.mp hy with rfl | hy
    · exact ⟨x, by simp, hxy⟩
    · obtain ⟨x', hx', hxy'⟩ := ih hy
      exact ⟨x', List.mem_cons_of_mem _ hx', hxy'⟩

/-- Where the Blob can be told from the tip, the lookup finds it, in any order. -/
theorem findCreatedObjectId_blob {strategy : BlobRegistration} {terms : RegistrationTerms}
    {txn : Txn} {blobId : String} {effects : TransactionEffects}
    (hcomposes : strategy.Composes w terms txn) (hdist : Distinguishable canon w strategy)
    (heffects : EffectsOf canon terms.packageId txn blobId effects.changedObjects) :
    Effects.findCreatedObjectId effects (strategy.resolvedSender w) = .ok blobId := by
  obtain ⟨hblobId, owner, coins, children, others, howner, hcoins, hchildren, hothers, hperm⟩ :=
    heffects
  obtain rfl : strategy.resolvedSender w = owner :=
    Option.some.inj (hcomposes.newBlobRecipient.symm.trans howner)
  rw [hcomposes.coinRecipients] at hcoins
  obtain ⟨hcanon, htip⟩ := hdist
  have hblob := createdFor_createdChange canon (strategy.resolvedSender w) blobId
    (strategy.resolvedSender w) hblobId
  rw [if_pos hcanon] at hblob
  refine Effects.findCreatedObjectId_eq_ok ?_ ?_
  · exact ⟨_, hperm.mem_iff.mpr (by simp), hblob⟩
  · intro change hchange found hfound
    obtain ⟨hcreated, haddress⟩ := owner_of_createdFor hfound
    have hcases := hperm.mem_iff.mp hchange
    simp only [List.cons_append, List.mem_cons, List.mem_append] at hcases
    rcases hcases with rfl | (hcoin | hchild) | hother
    · exact Option.some.inj (hfound.symm.trans hblob)
    · -- a coin is the tip, and the tip went elsewhere
      obtain ⟨recipient, hrecipient, coinId, -, -, rfl⟩ := exists_left_of_mem hcoins hcoin
      obtain ⟨tip, htipmem, rfl⟩ := List.mem_map.mp hrecipient
      exact absurd (Option.some.inj haddress) (htip tip (Option.mem_toList.mp htipmem))
    · obtain ⟨parentId, hparent, howned⟩ := hchildren change hchild
      rw [howned] at haddress
      rw [hcanon] at hparent
      exact absurd (Option.some.inj haddress) hparent
    · exact absurd hcreated (hothers change hother)

/-- **When the lookup finds the Blob**, in whatever order the changes of the
transaction are listed. -/
theorem findCreatedObjectId_blob_iff {strategy : BlobRegistration}
    {terms : RegistrationTerms} {txn : Txn} (hcomposes : strategy.Composes w terms txn) :
    (∀ blobId effects, EffectsOf canon terms.packageId txn blobId effects.changedObjects →
      Effects.findCreatedObjectId effects (strategy.resolvedSender w) = .ok blobId) ↔
    Distinguishable canon w strategy := by
  constructor
  · intro hfinds
    -- the coins are listed before the Blob
    let coins := (coinRecipients txn).map (createdChange canon "coin")
    let changes := coins ++ [createdChange canon "blob" (strategy.resolvedSender w)]
    have heffects : EffectsOf canon terms.packageId txn "blob" changes := by
      refine ⟨by decide, _, coins, [], [], hcomposes.newBlobRecipient, ?_, by simp, by simp, ?_⟩
      · apply List.forall₂_map_right_iff.mpr
        exact List.forall₂_same.mpr fun _ _ => ⟨"coin", by decide, by decide, rfl⟩
      · simp [changes]
    have hfound := hfinds "blob" ⟨none, changes⟩ heffects
    constructor
    · obtain ⟨change, hchange, hblob⟩ := Effects.exists_of_findCreatedObjectId hfound
      rcases List.mem_append.mp hchange with hcoin | hlast
      · obtain ⟨recipient, -, rfl⟩ := List.mem_map.mp hcoin
        rw [createdFor_createdChange canon _ _ _ (by decide)] at hblob
        split at hblob
        · exact absurd (Option.some.inj hblob) (by decide)
        · cases hblob
      · rw [List.mem_singleton.mp hlast, createdFor_createdChange canon _ _ _ (by decide)]
          at hblob
        split at hblob
        · assumption
        · cases hblob
    · intro tip htip hsame
      -- the coin of the tip is found first
      have hcoin := createdFor_createdChange canon (strategy.resolvedSender w) "coin"
        tip.relayAddress (by decide)
      have hchanges : changes = createdChange canon "coin" tip.relayAddress ::
          [createdChange canon "blob" (strategy.resolvedSender w)] := by
        show (coinRecipients txn).map _ ++ _ = _
        rw [hcomposes.coinRecipients, Option.mem_def.mp htip]
        rfl
      rw [if_pos hsame] at hcoin
      rw [hchanges, Effects.findCreatedObjectId, List.findSome?_cons, hcoin] at hfound
      exact absurd (Except.ok.inj hfound) (by decide)
  · intro hdist blobId effects heffects
    exact findCreatedObjectId_blob hcomposes hdist heffects

/-! ## The runs -/

/-- What an event calls the new Blob, wherever it names one. -/
def Names (w : World) (packageId blobId : String) : Event → Prop
  | .collecting _ query => query.registration.objectId = blobId
  | .posted command =>
      command.deletableBlobObject = none ∨ command.deletableBlobObject = some blobId
  | .certifying _ registration _ => registration.objectId = blobId
  | .submitted .tx2 txn => ∃ certificate rest,
      txn.calls = certifyBlob packageId w.systemObject blobId certificate :: rest
  | _ => True

/-- The effects of the run's Tx1 are those Sui's rules give it, with `blobId`
for its Blob. -/
def HonestEffects (canon : String → String) (w : World) (packageId blobId : String)
    (log : List Event) : Prop :=
  ∀ txn executed effects, .submitted .tx1 txn ∈ log → Succeeded w .tx1 executed effects →
    EffectsOf canon packageId txn blobId effects.changedObjects

/-- The registration of a run with honest effects is the Blob's. -/
private theorem Write.Registers.objectId {write : Write} {blobId : String} {log : List Event}
    {registration : Registration}
    (h : write.Registers w (· ∈ log) registration)
    (hhonest : HonestEffects canon w write.prepared.packageId blobId log)
    (hdist : Distinguishable canon w write.strategy) : registration.objectId = blobId := by
  obtain ⟨txn, executed, effects, hcomposes, hsubmitted, hsucceeded, hread⟩ := h
  have heffects := hhonest txn executed effects hsubmitted hsucceeded
  rw [← write.package] at heffects
  have hblob := findCreatedObjectId_blob hcomposes hdist heffects
  exact Except.ok.inj ((readRegistration_eq_ok hread).1.symm.trans hblob)

private theorem names_of_origin (write : Write) {blobId : String} {log : List Event}
    {event : Event}
    (hhonest : HonestEffects canon w write.prepared.packageId blobId log)
    (hdist : Distinguishable canon w write.strategy)
    (hdelivery : ∀ registration event, write.Delivery registration event →
      Names w write.prepared.packageId registration.objectId event)
    (h : write.Origin w (· ∈ log) event) : Names w write.prepared.packageId blobId event := by
  cases h with
  | openedTx1 => trivial
  | signedTx1 => trivial
  | submittedTx1 => trivial
  | delivery hregisters hevent =>
    rw [← hregisters.objectId hhonest hdist]
    exact hdelivery _ _ hevent
  | certifying hsubmits => exact hsubmits.registers.objectId hhonest hdist
  | openedTx2 => trivial
  | signedTx2 => trivial
  | submittedTx2 hsubmits hshown hcomposes =>
    have horigin : write.Origin w (· ∈ log) (.submitted .tx2 _) :=
      .submittedTx2 hsubmits hshown hcomposes
    obtain ⟨registration, committee, certificate, rest, hsubmits', -, hcalls⟩ :=
      horigin.submitsTx2
    rw [hsubmits'.registers.objectId hhonest hdist] at hcalls
    exact ⟨certificate, rest, hcalls⟩

/-- **Registration names the Blob.** The lookup finds it in every order of the
effects exactly when the chain writes the sender as the write does and no tip
goes to the sender, and then every event of a run that names an object names
the Blob. -/
theorem storeBlob_namesBlob (w : World) (canon : String → String) :
    (∀ (strategy : BlobRegistration) terms txn, strategy.Composes w terms txn →
      ((∀ blobId effects,
          EffectsOf canon terms.packageId txn blobId effects.changedObjects →
          Effects.findCreatedObjectId effects (strategy.resolvedSender w) = .ok blobId) ↔
        Distinguishable canon w strategy)) ∧
    (∀ (args : NativeStore) prepared blobId,
      prepareWrite w args.data nativeUploadError = .ok prepared →
      canon (pyOr args.sender w.activeAddress) = pyOr args.sender w.activeAddress →
      HonestEffects canon w prepared.packageId blobId (storeBlobNative w args).log →
      ∀ event ∈ (storeBlobNative w args).log, Names w prepared.packageId blobId event) ∧
    (∀ (args : RelayStore) data relayUrl prepared plan blobId,
      relayPreflight w args = .ok relayUrl →
      prepareWrite w data relayUploadError = .ok prepared →
      planRelay w args data prepared.committee relayUrl (pyOr args.sender w.activeAddress) [] =
        .ok plan →
      Distinguishable canon w plan.strategy →
      HonestEffects canon w prepared.packageId blobId (storeBlobRelay w args data).log →
      ∀ event ∈ (storeBlobRelay w args data).log, Names w prepared.packageId blobId event) ∧
    (∀ (args : RelayStore) patches relayUrl prepared plan blobId,
      relayPreflight w args = .ok relayUrl →
      prepareQuiltWrite w patches relayUploadError = .ok prepared →
      planRelay w args prepared.data prepared.committee relayUrl
        (pyOr args.sender w.activeAddress) quiltBlobAttributes = .ok plan →
      Distinguishable canon w plan.strategy →
      HonestEffects canon w prepared.packageId blobId (storeQuiltRelay w args patches).log →
      ∀ event ∈ (storeQuiltRelay w args patches).log,
        Names w prepared.packageId blobId event) := by
  have hrelay : ∀ (args : RelayStore) (data : Bytes) prepared plan relayUrl registration event,
      (Write.relay w args data prepared plan relayUrl).Delivery registration event →
      Names w prepared.packageId registration.objectId event := by
    rintro args data prepared plan relayUrl registration event rfl
    show (if registration.deletable then some registration.objectId else none) = none ∨
      (if registration.deletable then some registration.objectId else none) =
        some registration.objectId
    cases registration.deletable with
    | false => exact .inl rfl
    | true => exact .inr rfl
  refine ⟨fun strategy terms txn h => findCreatedObjectId_blob_iff h, ?_, ?_, ?_⟩
  · intro args prepared blobId hprepared hcanon hhonest event hmem
    obtain ⟨prepared', hprepared', h⟩ := origin_of_mem_storeBlobNative hmem
    obtain rfl : prepared = prepared' := Except.ok.inj (hprepared.symm.trans hprepared')
    have hdelivery : ∀ registration event, NativeDelivery.Shown w prepared registration event →
        Names w prepared.packageId registration.objectId event := by
      intro registration event hevent
      cases hevent with
      | collecting => rfl
      | uploading => trivial
      | readEpoch => trivial
      | readCommittee => trivial
    have hdist : Distinguishable canon w
        (.plainBlobRegistration args.paymentCoin args.sender args.sponsor []) :=
      ⟨hcanon, fun tip htip => absurd htip (Option.not_mem_none tip)⟩
    exact names_of_origin (Write.native w _ args prepared) hhonest hdist hdelivery h
  · intro args data relayUrl prepared plan blobId hurl hprepared hplan hdist hhonest event hmem
    obtain ⟨relayUrl', prepared', hurl', hprepared', plan', hplan', h⟩ :=
      origin_of_mem_storeBlobRelay hmem
    obtain rfl : relayUrl = relayUrl' := Except.ok.inj (hurl.symm.trans hurl')
    obtain rfl : prepared = prepared' := Except.ok.inj (hprepared.symm.trans hprepared')
    obtain rfl : plan = plan' := Except.ok.inj (hplan.symm.trans hplan')
    exact names_of_origin (Write.relay w args data prepared plan relayUrl) hhonest hdist
      (hrelay args data prepared plan relayUrl) h
  · intro args patches relayUrl prepared plan blobId hurl hprepared hplan hdist hhonest event hmem
    obtain ⟨relayUrl', prepared', hurl', hprepared', plan', hplan', h⟩ :=
      origin_of_mem_storeQuiltRelay hmem
    obtain rfl : relayUrl = relayUrl' := Except.ok.inj (hurl.symm.trans hurl')
    obtain rfl : prepared = prepared' := Except.ok.inj (hprepared.symm.trans hprepared')
    obtain rfl : plan = plan' := Except.ok.inj (hplan.symm.trans hplan')
    exact names_of_origin
      (Write.relay w args prepared.data prepared.toWritePreamble plan relayUrl) hhonest hdist
      (hrelay args prepared.data prepared.toWritePreamble plan relayUrl) h

/-! ### A tip to the relay, and one to the sender -/

/-- The relay's address is `relay`, and the coin of the tip is listed first. -/
private def tipped (relay : String) : World :=
  { World.small with
    tipConfig := .ok (.ok (some ⟨some relay, some (.constTip 5)⟩))
    transaction := fun _ => World.succeeding
      [createdChange id "0xc1" relay, createdChange id "0xb" "0xa"] }

private theorem honestEffects_of_submitted {packageId blobId : String} {log : List Event}
    {txn : Txn} {changes : List ChangedObject}
    (htxn : ∀ txn', .submitted .tx1 txn' ∈ log → txn' = txn)
    (hanswers : w.transaction .tx1 = World.succeeding changes)
    (heffects : EffectsOf canon packageId txn blobId changes) :
    HonestEffects canon w packageId blobId log := by
  intro txn' executed effects hmem hsucceeded
  obtain ⟨hexecution, label, hrequire⟩ := hsucceeded
  rw [hanswers] at hexecution
  cases hexecution
  obtain ⟨hsome, -⟩ := Effects.requireSuccess_eq_ok.mp hrequire
  cases hsome
  rw [htxn txn' hmem]
  exact heffects

private theorem tipped_honest {relay : String} (h : relay = "0xa" ∨ relay = "0xd") :
    HonestEffects id (tipped relay) "0x1" "0xb"
      (storeBlobRelay (tipped relay) .small [1, 2, 3]).log := by
  obtain ⟨txn, s, command, c, r, k, s', txn', hlog, howner, hcoins⟩ :
      ∃ txn s command c r k s' txn',
        (storeBlobRelay (tipped relay) .small [1, 2, 3]).log =
          [.opened .tx1 s none, .signed .tx1 txn, .submitted .tx1 txn, .posted command,
            .certifying c r k, .opened .tx2 s' none, .signed .tx2 txn', .submitted .tx2 txn'] ∧
        newBlobRecipient "0x1" txn = some "0xa" ∧ coinRecipients txn = [relay] := by
    rcases h with rfl | rfl
    · exact ⟨_, _, _, _, _, _, _, _, rfl, rfl, rfl⟩
    · exact ⟨_, _, _, _, _, _, _, _, rfl, rfl, rfl⟩
  have heffects : EffectsOf id "0x1" txn "0xb"
      [createdChange id "0xc1" relay, createdChange id "0xb" "0xa"] := by
    refine ⟨by decide, "0xa", [createdChange id "0xc1" relay], [], [], howner, ?_, by simp,
      by simp, .swap _ _ _⟩
    rw [hcoins]
    exact .cons ⟨"0xc1", by decide, by decide, rfl⟩ .nil
  refine honestEffects_of_submitted (fun other hmem => ?_) rfl heffects
  rw [hlog] at hmem
  simpa using hmem

/-- The relay quotes the sender's own address: the effects are honest, and the
write certifies the coin of the tip. -/
theorem storeBlobRelay_namesTip :
    HonestEffects id (tipped "0xa") "0x1" "0xb"
      (storeBlobRelay (tipped "0xa") .small [1, 2, 3]).log ∧
    ¬ ∀ event ∈ (storeBlobRelay (tipped "0xa") .small [1, 2, 3]).log,
      Names (tipped "0xa") "0x1" "0xb" event := by
  refine ⟨tipped_honest (.inl rfl), fun h => ?_⟩
  obtain ⟨committee, registration, certificate, hget, hcoin⟩ :
      ∃ committee registration certificate,
        (storeBlobRelay (tipped "0xa") .small [1, 2, 3]).log[4]? =
          some (.certifying committee registration certificate) ∧
        registration.objectId = "0xc1" := ⟨_, _, _, rfl, rfl⟩
  have hblob := h _ (List.mem_of_getElem? hget)
  exact absurd (hcoin.symm.trans hblob) (by decide)

/-- A tip to another address leaves the Blob the only one to find. -/
theorem storeBlob_namesBlob_tipped :
    (∀ event ∈ (storeBlobRelay (tipped "0xd") .small [1, 2, 3]).log,
      Names (tipped "0xd") "0x1" "0xb" event) ∧
    ∃ committee registration certificate,
      .certifying committee registration certificate ∈
        (storeBlobRelay (tipped "0xd") .small [1, 2, 3]).log ∧ registration.objectId = "0xb" := by
  obtain ⟨-, -, hrelay, -⟩ := storeBlob_namesBlob (tipped "0xd") id
  obtain ⟨prepared, plan, hprepared, hplan, hpackage, hsender, htip⟩ : ∃ prepared plan,
      prepareWrite (tipped "0xd") [1, 2, 3] relayUploadError = .ok prepared ∧
      planRelay (tipped "0xd") .small [1, 2, 3] prepared.committee "relay" "0xa" [] = .ok plan ∧
      prepared.packageId = "0x1" ∧ plan.strategy.resolvedSender (tipped "0xd") = "0xa" ∧
      plan.strategy.tip.map (·.relayAddress) = some "0xd" := ⟨_, _, rfl, rfl, rfl, rfl, rfl⟩
  have hdist : Distinguishable id (tipped "0xd") plan.strategy := by
    refine ⟨rfl, fun tip hmem => ?_⟩
    rw [Option.mem_def.mp hmem] at htip
    have haddress : tip.relayAddress = "0xd" := Option.some.inj htip
    rw [haddress, hsender]
    decide
  have hnames := hrelay .small [1, 2, 3] "relay" prepared plan "0xb" rfl hprepared hplan hdist
  rw [hpackage] at hnames
  have hall := hnames (tipped_honest (.inr rfl))
  refine ⟨hall, ?_⟩
  obtain ⟨committee, registration, certificate, hget⟩ : ∃ committee registration certificate,
      (storeBlobRelay (tipped "0xd") .small [1, 2, 3]).log[4]? =
        some (.certifying committee registration certificate) := ⟨_, _, _, rfl⟩
  have hmem := List.mem_of_getElem? hget
  exact ⟨committee, registration, certificate, hmem, hall _ hmem⟩

end Pytusk.Pipelines
