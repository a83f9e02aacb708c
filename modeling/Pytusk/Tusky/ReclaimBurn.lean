import Pytusk.Tusky.Batches

/-!
# `reclaim_storage` and `burn_blob`

The one takes the ids it is given; the other drops repeats and what it cannot
confirm to be a Blob.
-/

namespace Pytusk.Tusky

open Pytusk.Lib Pytusk.Ops

/-! ## Destroying Storage objects -/

/-- What is read of the result of a batch that was executed. -/
structure RebateView where
  /-- `objects.objects`, with the id and the storage rebate of each -/
  objects : Option (List (Option String × Option Nat))
  /-- `effects.gas_used.storage_rebate` -/
  storageRebate : Option Nat
  deriving DecidableEq, Repr

def destroyText : BatchText where
  label := "Destroyed batch"
  doing := "destroying"
  done := "destroyed"
  noun := "storage object(s)"

section Destroy

variable (hexstringToSuiId : String → Except PyExn String) (rebateView : Nat → Option RebateView)

/-- The lines for the objects of a batch. -/
def rebateLines (batch : List String) (view : RebateView) : Except PyExn (List String) := do
  let batchIds ← batch.mapM fun id => String.toLower <$> hexstringToSuiId id
  let lines ← (view.objects.getD []).mapM fun (objectId, storageRebate) =>
    match objectId, storageRebate with
    | some objectId, some storageRebate => do
        let id ← hexstringToSuiId objectId
        return if id.toLower ∈ batchIds then
            some s!"  {objectId}: {storageRebate} MIST storage rebate value"
          else none
    | _, _ => return none
  return lines.reduceOption

/-- The lines and the rebate of a batch; of a simulated one there are none. -/
def batchRebate (k : Nat) (batch : List String) : Except PyExn (List String × Option Nat) :=
  match rebateView k with
  | none => .ok ([], none)
  | some view => do
      let lines ← rebateLines hexstringToSuiId batch view
      return (lines, view.storageRebate)

/-- `total_rebate`, if one was recorded. -/
def totalRebate {α β : Type} (results : List (α × β × Option Nat)) : Option Nat :=
  let recorded := results.filterMap fun result => result.2.2
  if recorded.isEmpty then none else some recorded.sum

/-- `_destroy_storage_batches` -/
def destroyStorageBatches (h : Holdings) (walrusPkg : String) (storageIds : List String)
    (sender : String) (sponsor : Option String) :
    Sending (List ExecutedTransaction × Option Nat) := do
  let batches := slices maxOpsPerPtb storageIds
  let results ← sendBatches destroyText (destroyCall walrusPkg)
    (batchRebate hexstringToSuiId rebateView) h sender sponsor batches.length 0 batches
  return (results.map Prod.fst, totalRebate results)

structure ReclaimArgs where
  all : Bool
  storageId : List String
  sender : Option String
  sponsor : Option String
  deriving DecidableEq, Repr

/-- The ids to destroy: those given, or those of all Storage objects owned. -/
def reclaimIds (parseInt : PyStr → Option Int) (h : Holdings) (args : ReclaimArgs)
    (sender : String) : Except CliExn (List String) :=
  if args.all then do
    let storages ← orExit PyExn.isRuntimeError
      (fun e => s!"Error listing Storage objects: {e.message}")
      (listStorageObjects parseInt h.production sender h.ownedObjects)
    return storages.map (·.objectId)
  else .ok args.storageId

/-- The results of the batches; none if there is nothing to destroy. -/
def reclaimStorage (w : World) (book : AddressBook) (h : Holdings) (args : ReclaimArgs) :
    Sending (Option (List ExecutedTransaction × Option Nat)) := do
  let (sender, sponsor) ← signersOrExit w book args.sender args.sponsor
  let walrusPkg ← walrusPackageId w
  let storageIds ← reclaimIds w.parseInt h args sender
  if args.all ∧ storageIds = [] then return none
  else
    let results ← destroyStorageBatches hexstringToSuiId rebateView h walrusPkg storageIds sender
      sponsor
    return some results

end Destroy

/-! ## Burning Blobs -/

/-- The `blob::burn` call. -/
def burnCall (packageId blobId : String) : BuilderCall :=
  .moveCall (packageId ++ "::blob::burn") [.str blobId]

def burnText (label : String) : BatchText where
  label := label
  doing := "burning"
  done := "burned"
  noun := "blob(s)"

/-- `_burn_blob_batches` -/
def burnBlobBatches (h : Holdings) (walrusPkg : String) (blobIds : List String)
    (sender : String) (sponsor : Option String) (label : String) :
    Sending (List ExecutedTransaction) := do
  let batches := slices maxOpsPerPtb blobIds
  let results ← sendBatches (burnText label) (burnCall walrusPkg) (fun _ _ => .ok ()) h sender
    sponsor batches.length 0 batches
  return results.map Prod.fst

/-- What comes of looking at an id: it is left out, or burned, with a warning
if the blob is not expired. -/
inductive BlobCheck where
  | skipped (line : String)
  | confirmed (warning : Option String)
  deriving DecidableEq, Repr

section Burn

variable (parseInt : PyStr → Option Int) (h : Holdings) (currentEpoch : Int)

def checkBlob (blobId : String) : Except CliExn BlobCheck := do
  match ← uncaught (h.getObject blobId) with
  | .failed resultString => return .skipped s!"Warning: skipping {blobId}: {resultString}"
  | .ok none =>
      .error (.raised (.attributeError "'NoneType' object has no attribute 'object_type'"))
  | .ok (some obj) =>
      if BlobFields.isBlobObject obj then
        match BlobFields.blobDeletableAndEndEpoch parseInt obj with
        | .error e =>
            if e.isValueError then return .skipped s!"Warning: skipping {blobId}: {e.message}"
            else .error (.raised e)
        | .ok (_, endEpoch) =>
            return .confirmed <|
              if currentEpoch < endEpoch then
                some (s!"Warning: {blobId} is not expired (end_epoch={endEpoch}, " ++
                  s!"current_epoch={currentEpoch}); burning it now destroys " ++
                  "an active, paid-for blob irreversibly.")
              else none
      else return .skipped s!"Warning: skipping {blobId}: not a Walrus Blob object."

/-- The loop over the ids. -/
def confirmedIds : List String → Except CliExn (List String)
  | [] => .ok []
  | blobId :: rest => do
      match ← checkBlob parseInt h currentEpoch blobId with
      | .skipped _ => confirmedIds rest
      | .confirmed _ => do
          let confirmed ← confirmedIds rest
          return blobId :: confirmed

/-- `list(dict.fromkeys(ids))` -/
def distinctIds (ids : List String) : List String :=
  Dict.keys (Dict.fromItems id (fun _ => ()) ids)

structure BurnArgs where
  objectId : List String
  sender : Option String
  sponsor : Option String
  deriving DecidableEq, Repr

/-- The results of the batches; none if there is nothing to burn. -/
def burnBlob (w : World) (book : AddressBook) (args : BurnArgs) :
    Sending (Option (List ExecutedTransaction)) := do
  let (sender, sponsor) ← signersOrExit w book args.sender args.sponsor
  let currentEpoch ← orExit PyExn.isRuntimeError
    (fun e => s!"Cannot get current Walrus epoch: {e.message}") h.walrusEpoch
  let walrusPkg ← walrusPackageId w
  let confirmed ← confirmedIds w.parseInt h currentEpoch (distinctIds args.objectId)
  if confirmed = [] then return none
  else
    let results ← burnBlobBatches h walrusPkg confirmed sender sponsor "Burned batch"
    return some results

end Burn

/-! ## What both send -/

/-- Consecutive pieces of a list, none empty and none longer than a
transaction may be. -/
structure CutInto (ids : List String) (batches : List (List String)) : Prop where
  bounded : ∀ batch ∈ batches, batch ≠ [] ∧ batch.length ≤ maxOpsPerPtb
  consecutive : batches.flatten = ids

theorem cutInto_slices (ids : List String) : CutInto ids (slices maxOpsPerPtb ids) where
  bounded _ hbatch := of_mem_slices (by decide) hbatch
  consecutive := flatten_slices (by decide) ids

section Sent

variable {hexstringToSuiId : String → Except PyExn String} {rebateView : Nat → Option RebateView}
  {w : World} {book : AddressBook} {h : Holdings} {sender walrusPkg : String}
  {sponsor : Option String} {ids : List String}

/-- The command stops at the first batch that does not go through. -/
def StopsAt {γ : Type} (text : BatchText) (call : String → BuilderCall) (through : Nat → Prop)
    (sender : String) (sponsor : Option String) (batches : List (List String))
    (run : Sending γ) : Prop :=
  ∃ count failing,
    Stops text call sender sponsor batches.length through 0 batches count failing run

theorem stopsAt_nothing {γ : Type} {text : BatchText} {call : String → BuilderCall}
    {through : Nat → Prop} (c : γ) :
    StopsAt text call through sender sponsor (slices maxOpsPerPtb []) (pure c) :=
  ⟨0, [], le_rfl, rfl, fun i hi => absurd hi (Nat.not_lt_zero i), fun h => absurd rfl h,
    fun _ _ => ⟨rfl, rfl⟩⟩

theorem StopsAt.map {γ δ : Type} {text : BatchText} {call : String → BuilderCall}
    {through : Nat → Prop} {batches : List (List String)} {run : Sending γ}
    (hstops : StopsAt text call through sender sponsor batches run) (f : γ → δ) :
    StopsAt text call through sender sponsor batches (run >>= fun c => pure (f c)) := by
  obtain ⟨count, failing, hstops⟩ := hstops
  exact ⟨count, failing, hstops.map f⟩

/-- A run that stops at the first batch that is not answered also stops at the
first that aborts on the chain exactly if none does. -/
theorem stopsAt_executed_iff {α γ : Type} {text : BatchText} {call : String → BuilderCall}
    {after : Nat → List String → Except PyExn α} {batches : List (List String)} {run : Sending γ}
    (hstops : StopsAt text call (Accepted h) sender sponsor batches run)
    (hlog : run.log =
      (sendBatches text call after h sender sponsor batches.length 0 batches).log) :
    StopsAt text call (Executed h) sender sponsor batches run ↔
      NoneAborts call after h sender sponsor 0 batches := by
  rw [noneAborts_iff text batches.length, ← hlog]
  constructor
  · rintro ⟨count, failing, hexecuted⟩
    rw [hexecuted.reportCount_log]
    exact hexecuted.wentThrough
  · intro hall
    obtain ⟨count, failing, hstops⟩ := hstops
    rw [hstops.reportCount_log] at hall
    exact ⟨count, failing, hstops.strengthen (fun _ => Executed.accepted) hall⟩

theorem stopsAt_destroyStorageBatches :
    StopsAt destroyText (destroyCall walrusPkg) (Accepted h) sender sponsor
      (slices maxOpsPerPtb ids)
      (destroyStorageBatches hexstringToSuiId rebateView h walrusPkg ids sender sponsor) :=
  StopsAt.map (stops_sendBatches destroyText (destroyCall walrusPkg)
    (batchRebate hexstringToSuiId rebateView) h sender sponsor
    (slices maxOpsPerPtb ids).length 0 (slices maxOpsPerPtb ids)) _

theorem stopsAt_burnBlobBatches (label : String) :
    StopsAt (burnText label) (burnCall walrusPkg) (Accepted h) sender sponsor
      (slices maxOpsPerPtb ids) (burnBlobBatches h walrusPkg ids sender sponsor label) :=
  StopsAt.map (stops_sendBatches (burnText label) (burnCall walrusPkg) (fun _ _ => .ok ()) h sender
    sponsor (slices maxOpsPerPtb ids).length 0 (slices maxOpsPerPtb ids)) _

theorem reclaimStorage_eq {args : ReclaimArgs}
    (hsigners : signersOrExit w book args.sender args.sponsor = .ok (sender, sponsor))
    (hpkg : walrusPackageId w = .ok walrusPkg)
    (hids : reclaimIds w.parseInt h args sender = .ok ids) :
    reclaimStorage hexstringToSuiId rebateView w book h args =
      if args.all = true ∧ ids = [] then pure none
      else (do
        let results ← destroyStorageBatches hexstringToSuiId rebateView h walrusPkg ids sender
          sponsor
        pure (some results)) := by
  unfold reclaimStorage
  rw [hsigners, Logged.monadLift_eq, Logged.lift_ok_bind]
  dsimp only
  rw [hpkg, Logged.monadLift_eq, Logged.lift_ok_bind, hids, Logged.monadLift_eq,
    Logged.lift_ok_bind]

variable (hexstringToSuiId rebateView) in
/-- The run is that over the batches of the ids. -/
theorem run_reclaimStorage {args : ReclaimArgs}
    (hsigners : signersOrExit w book args.sender args.sponsor = .ok (sender, sponsor))
    (hpkg : walrusPackageId w = .ok walrusPkg)
    (hids : reclaimIds w.parseInt h args sender = .ok ids) :
    StopsAt destroyText (destroyCall walrusPkg) (Accepted h) sender sponsor
        (slices maxOpsPerPtb ids) (reclaimStorage hexstringToSuiId rebateView w book h args) ∧
      (reclaimStorage hexstringToSuiId rebateView w book h args).log =
        (sendBatches destroyText (destroyCall walrusPkg) (batchRebate hexstringToSuiId rebateView)
          h sender sponsor (slices maxOpsPerPtb ids).length 0 (slices maxOpsPerPtb ids)).log := by
  rw [reclaimStorage_eq hsigners hpkg hids]
  split
  · rename_i hnone
    rw [hnone.2]
    exact ⟨stopsAt_nothing none, rfl⟩
  · refine ⟨stopsAt_destroyStorageBatches.map _, ?_⟩
    rw [Logged.log_bind_pure, destroyStorageBatches, Logged.log_bind_pure]

theorem burnBlob_eq {args : BurnArgs} {currentEpoch : Int}
    (hsigners : signersOrExit w book args.sender args.sponsor = .ok (sender, sponsor))
    (hepoch : h.walrusEpoch = .ok currentEpoch) (hpkg : walrusPackageId w = .ok walrusPkg)
    (hids : confirmedIds w.parseInt h currentEpoch (distinctIds args.objectId) = .ok ids) :
    burnBlob h w book args =
      if ids = [] then pure none
      else (do
        let results ← burnBlobBatches h walrusPkg ids sender sponsor "Burned batch"
        pure (some results)) := by
  unfold burnBlob
  rw [hsigners, Logged.monadLift_eq, Logged.lift_ok_bind]
  dsimp only
  rw [orExit_eq_ok.mpr hepoch, Logged.monadLift_eq, Logged.lift_ok_bind, hpkg,
    Logged.monadLift_eq, Logged.lift_ok_bind, hids, Logged.monadLift_eq, Logged.lift_ok_bind]

theorem run_burnBlob {args : BurnArgs} {currentEpoch : Int}
    (hsigners : signersOrExit w book args.sender args.sponsor = .ok (sender, sponsor))
    (hepoch : h.walrusEpoch = .ok currentEpoch) (hpkg : walrusPackageId w = .ok walrusPkg)
    (hids : confirmedIds w.parseInt h currentEpoch (distinctIds args.objectId) = .ok ids) :
    StopsAt (burnText "Burned batch") (burnCall walrusPkg) (Accepted h) sender sponsor
        (slices maxOpsPerPtb ids) (burnBlob h w book args) ∧
      (burnBlob h w book args).log =
        (sendBatches (burnText "Burned batch") (burnCall walrusPkg)
          (fun _ _ => (.ok () : Except PyExn Unit)) h sender sponsor
          (slices maxOpsPerPtb ids).length 0 (slices maxOpsPerPtb ids)).log := by
  rw [burnBlob_eq hsigners hepoch hpkg hids]
  split
  · rename_i hnone
    rw [hnone]
    exact ⟨stopsAt_nothing none, rfl⟩
  · refine ⟨(stopsAt_burnBlobBatches "Burned batch").map _, ?_⟩
    rw [Logged.log_bind_pure, burnBlobBatches, Logged.log_bind_pure]

end Sent

/-! ## What is burned -/

section Confirmed

variable {parseInt : PyStr → Option Int} {h : Holdings} {currentEpoch : Int}
  {ids confirmed : List String}

/-- The id is that of a Blob that can be read. -/
def Confirms (parseInt : PyStr → Option Int) (h : Holdings) (currentEpoch : Int)
    (blobId : String) : Prop :=
  ∃ warning, checkBlob parseInt h currentEpoch blobId = .ok (.confirmed warning)

theorem mem_distinctIds {id : String} : id ∈ distinctIds ids ↔ id ∈ ids := by
  rw [distinctIds, Dict.mem_keys_fromItems, List.map_id]

theorem nodup_distinctIds (ids : List String) : (distinctIds ids).Nodup :=
  Dict.nodup_keys_fromItems ids

theorem confirmedIds_spec (hids : confirmedIds parseInt h currentEpoch ids = .ok confirmed) :
    confirmed.Sublist ids ∧
      ∀ id, id ∈ confirmed ↔ id ∈ ids ∧ Confirms parseInt h currentEpoch id := by
  induction ids generalizing confirmed with
  | nil =>
    cases hids
    simp
  | cons blobId rest ih =>
    obtain ⟨check, hcheck, hids⟩ := bind_eq_ok.mp hids
    cases check with
    | skipped line =>
      obtain ⟨hsub, hmem⟩ := ih hids
      have hskipped : ¬ Confirms parseInt h currentEpoch blobId := fun ⟨_, hconfirmed⟩ =>
        nomatch hcheck.symm.trans hconfirmed
      refine ⟨hsub.cons blobId, fun id => ?_⟩
      rw [hmem, List.mem_cons]
      constructor
      · exact fun h => ⟨.inr h.1, h.2⟩
      · rintro ⟨rfl | hrest, hconfirms⟩
        · exact absurd hconfirms hskipped
        · exact ⟨hrest, hconfirms⟩
    | confirmed warning =>
      obtain ⟨others, hothers, heq⟩ := bind_eq_ok.mp hids
      cases heq
      obtain ⟨hsub, hmem⟩ := ih hothers
      refine ⟨hsub.cons_cons blobId, fun id => ?_⟩
      rw [List.mem_cons, List.mem_cons, hmem]
      constructor
      · rintro (rfl | ⟨hrest, hconfirms⟩)
        · exact ⟨.inl rfl, warning, hcheck⟩
        · exact ⟨.inr hrest, hconfirms⟩
      · rintro ⟨rfl | hrest, hconfirms⟩
        · exact .inl rfl
        · exact .inr ⟨hrest, hconfirms⟩

end Confirmed

/-! ## Each object once -/

section Once

variable {β : Type} [DecidableEq β] (objectOf : String → β)

/-- Each object that an id names is named once. -/
theorem count_eq_one_iff (ids : List String) :
    (∀ id ∈ ids, (ids.map objectOf).count (objectOf id) = 1) ↔ (ids.map objectOf).Nodup := by
  rw [List.nodup_iff_count_eq_one]
  simp

/-- An object is named once by different ids exactly if one of them names it. -/
theorem count_eq_one_iff_existsUnique {ids : List String} (hnodup : ids.Nodup) (object : β) :
    (ids.map objectOf).count object = 1 ↔ ∃! id, id ∈ ids ∧ objectOf id = object := by
  have hcount : (ids.map objectOf).count object =
      (ids.filter fun id => objectOf id = object).length := by
    rw [List.count_eq_countP, List.countP_map, List.countP_eq_length_filter]
    rfl
  rw [hcount, List.length_eq_one_iff]
  constructor
  · rintro ⟨id, hid⟩
    have hmem : ∀ other, other ∈ ids ∧ objectOf other = object ↔ other = id := fun other => by
      have hfilter : other ∈ ids.filter (fun id => objectOf id = object) ↔ other ∈ [id] := by
        rw [hid]
      simpa using hfilter
    exact ⟨id, (hmem id).mpr rfl, fun other hother => (hmem other).mp hother⟩
  · rintro ⟨id, hid, hunique⟩
    refine ⟨id, List.perm_singleton.mp ?_⟩
    refine (List.perm_ext_iff_of_nodup (hnodup.filter _) (List.nodup_singleton id)).mpr ?_
    intro other
    rw [List.mem_filter, decide_eq_true_eq, List.mem_singleton]
    exact ⟨hunique other, fun heq => heq ▸ hid⟩

/-- The ids that are sent are some of those given, cut into batches that name
each object of the given ones once; and the batches before the first that fails
were executed and reported, and none after it is submitted. -/
structure BatchesOnce {γ : Type} (given sent : List String) (text : BatchText)
    (call : String → BuilderCall) (h : Holdings) (sender : String) (sponsor : Option String)
    (run : Sending γ) : Prop where
  among : ∀ id ∈ sent, id ∈ given
  cut : CutInto sent (slices maxOpsPerPtb sent)
  once : ∀ id ∈ given,
    ((slices maxOpsPerPtb sent).flatten.map objectOf).count (objectOf id) = 1
  stops : StopsAt text call (Executed h) sender sponsor (slices maxOpsPerPtb sent) run

/-- **Batches and repeats.** Both commands stop at the first batch that is not
answered with a result. `reclaim_storage` sends each object once, and stops at
the first batch that is not executed, exactly if no two of its ids name one
object and no batch aborts on the chain. `burn_blob` drops the repeats of an id and
what it cannot confirm to be a Blob; it does so exactly if each object that is
given is that of one confirmed id, and no batch aborts. -/
theorem reclaim_and_burn_batches (hexstringToSuiId : String → Except PyExn String)
    (rebateView : Nat → Option RebateView) (w : World) (book : AddressBook) (h : Holdings)
    {sender walrusPkg : String} {sponsor : Option String}
    (hpkg : walrusPackageId w = .ok walrusPkg) :
    (∀ (args : ReclaimArgs) (ids : List String),
      signersOrExit w book args.sender args.sponsor = .ok (sender, sponsor) →
      reclaimIds w.parseInt h args sender = .ok ids →
      StopsAt destroyText (destroyCall walrusPkg) (Accepted h) sender sponsor
        (slices maxOpsPerPtb ids) (reclaimStorage hexstringToSuiId rebateView w book h args) ∧
      (BatchesOnce objectOf ids ids destroyText (destroyCall walrusPkg) h sender sponsor
          (reclaimStorage hexstringToSuiId rebateView w book h args) ↔
        (ids.map objectOf).Nodup ∧
          NoneAborts (destroyCall walrusPkg) (batchRebate hexstringToSuiId rebateView) h sender
            sponsor 0 (slices maxOpsPerPtb ids))) ∧
    ∀ (args : BurnArgs) (currentEpoch : Int) (confirmed : List String),
      signersOrExit w book args.sender args.sponsor = .ok (sender, sponsor) →
      h.walrusEpoch = .ok currentEpoch →
      confirmedIds w.parseInt h currentEpoch (distinctIds args.objectId) = .ok confirmed →
      (confirmed.Nodup ∧ ∀ id, id ∈ confirmed ↔
        id ∈ args.objectId ∧ Confirms w.parseInt h currentEpoch id) ∧
      StopsAt (burnText "Burned batch") (burnCall walrusPkg) (Accepted h) sender sponsor
        (slices maxOpsPerPtb confirmed) (burnBlob h w book args) ∧
      (BatchesOnce objectOf args.objectId confirmed (burnText "Burned batch")
          (burnCall walrusPkg) h sender sponsor (burnBlob h w book args) ↔
        (∀ id ∈ args.objectId, ∃! other, other ∈ args.objectId ∧
          Confirms w.parseInt h currentEpoch other ∧ objectOf other = objectOf id) ∧
          NoneAborts (burnCall walrusPkg) (fun _ _ => (.ok () : Except PyExn Unit)) h sender
            sponsor 0 (slices maxOpsPerPtb confirmed)) := by
  constructor
  · intro args ids hsigners hids
    obtain ⟨hstops, hlog⟩ :=
      run_reclaimStorage hexstringToSuiId rebateView hsigners hpkg hids
    have hcut := cutInto_slices ids
    rw [← count_eq_one_iff, ← stopsAt_executed_iff hstops hlog]
    refine ⟨hstops, fun honce => ⟨?_, honce.stops⟩, fun ⟨honce, hexecuted⟩ => ?_⟩
    · have hcount := honce.once
      rwa [hcut.consecutive] at hcount
    · refine ⟨fun _ hid => hid, hcut, ?_, hexecuted⟩
      rw [hcut.consecutive]
      exact honce
  · intro args currentEpoch confirmed hsigners hepoch hids
    obtain ⟨hsub, hmem⟩ := confirmedIds_spec hids
    have hconfirmed : ∀ id, id ∈ confirmed ↔
        id ∈ args.objectId ∧ Confirms w.parseInt h currentEpoch id := fun id => by
      rw [hmem, mem_distinctIds]
    have hnodup : confirmed.Nodup := (nodup_distinctIds args.objectId).sublist hsub
    obtain ⟨hstops, hlog⟩ := run_burnBlob hsigners hepoch hpkg hids
    have hcut := cutInto_slices confirmed
    have honce : ∀ id, (confirmed.map objectOf).count (objectOf id) = 1 ↔
        ∃! other, other ∈ args.objectId ∧ Confirms w.parseInt h currentEpoch other ∧
          objectOf other = objectOf id := fun id => by
      rw [count_eq_one_iff_existsUnique objectOf hnodup]
      simp only [hconfirmed, and_assoc]
    rw [← stopsAt_executed_iff hstops hlog]
    refine ⟨⟨hnodup, hconfirmed⟩, hstops, fun hbatches => ⟨?_, hbatches.stops⟩,
      fun ⟨hunique, hexecuted⟩ => ?_⟩
    · intro id hid
      rw [← honce, ← hcut.consecutive]
      exact hbatches.once id hid
    · refine ⟨fun id hid => ((hconfirmed id).mp hid).1, hcut, ?_, hexecuted⟩
      rw [hcut.consecutive]
      exact fun id hid => (honce id).mpr (hunique id hid)

end Once

/-- Every transaction is answered with effects of the given status. -/
def answeringHoldings (success : Bool) : Holdings where
  production := false
  getObject _ := .ok (.failed "not found")
  ownedObjects := .ok (.ok (some []))
  walrusEpoch := .ok 0
  transaction _ :=
    ⟨.ok (), fun _ => .ok (), .ok (),
      .ok (.ok (some ⟨"digest", some ⟨some ⟨success, none⟩, []⟩⟩))⟩

/-- Every transaction goes through. -/
def acceptingHoldings : Holdings := answeringHoldings true

/-- Every transaction aborts on the chain. -/
def abortingHoldings : Holdings := answeringHoldings false

/-- More ids than a transaction takes. -/
def manyIds : List String := (List.range 101).map fun n => s!"0x{n}"

/-- `reclaim_storage --storageid ..` -/
def reclaimGiven (h : Holdings) (ids : List String) :
    Sending (Option (List ExecutedTransaction × Option Nat)) :=
  reclaimStorage .ok (fun _ => none) World.small ⟨fun _ => .ok (), .ok⟩ h ⟨false, ids, none, none⟩

theorem reclaim_and_burn_batches_two :
    BatchesOnce id ["0xc", "0xd"] ["0xc", "0xd"] destroyText (destroyCall "0x1")
      acceptingHoldings "0xa" none (reclaimGiven acceptingHoldings ["0xc", "0xd"]) := by
  have hpkg : walrusPackageId World.small = .ok "0x1" := by decide
  have hsigners : signersOrExit World.small ⟨fun _ => .ok (), .ok⟩ none none =
      .ok ("0xa", none) := by decide
  obtain ⟨-, honce⟩ := (reclaim_and_burn_batches id .ok (fun _ => none) World.small
    ⟨fun _ => .ok (), .ok⟩ acceptingHoldings hpkg).1 ⟨false, ["0xc", "0xd"], none, none⟩
      ["0xc", "0xd"] hsigners rfl
  refine honce.mpr ⟨by decide, fun _ _ => ⟨⟨_, _, _, rfl, rfl, rfl, rfl⟩, fun _ => trivial⟩⟩

/-- What is named twice is to be destroyed twice; and a batch that aborts on the
chain is reported as destroyed, and the next one is submitted. -/
theorem reclaimStorage_repeats :
    ¬ BatchesOnce id ["0xc", "0xc"] ["0xc", "0xc"] destroyText (destroyCall "0x1")
        acceptingHoldings "0xa" none (reclaimGiven acceptingHoldings ["0xc", "0xc"]) ∧
      .submitted ⟨"0xa", none, [destroyCall "0x1" "0xc", destroyCall "0x1" "0xc"]⟩ ∈
        (reclaimGiven acceptingHoldings ["0xc", "0xc"]).log ∧
      ¬ BatchesOnce id manyIds manyIds destroyText (destroyCall "0x1") abortingHoldings "0xa"
        none (reclaimGiven abortingHoldings manyIds) ∧
      .reported "Destroyed batch 1/2 (100 storage object(s))." ∈
        (reclaimGiven abortingHoldings manyIds).log ∧
      .submitted ⟨"0xa", none, [destroyCall "0x1" "0x100"]⟩ ∈
        (reclaimGiven abortingHoldings manyIds).log := by
  refine ⟨fun honce => ?_, by decide, fun honce => ?_, by decide +kernel, by decide +kernel⟩
  · exact absurd (honce.once "0xc" (by decide)) (by decide)
  · obtain ⟨count, failing, hstops⟩ := honce.stops
    have hcount : reportCount (reclaimGiven abortingHoldings manyIds).log = 2 := by
      decide +kernel
    rw [hstops.reportCount_log] at hcount
    obtain ⟨_, _, _, hexecution, heffects, hstatus, hsuccess⟩ := hstops.wentThrough 0 (by omega)
    cases hexecution
    cases heffects
    cases hstatus
    cases hsuccess

end Pytusk.Tusky
