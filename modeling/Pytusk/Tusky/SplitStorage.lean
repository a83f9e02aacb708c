import Pytusk.Ops.StorageChain
import Pytusk.Ops.StorageExecute
import Pytusk.Tusky.FuseStorage
import Pytusk.Tusky.ReclaimBurn

/-!
# `split_storage`, and what the Storage commands do to a ledger

The command splits one object and sends the new one on. Whatever the commands
and wrappers about Storage submit, in whatever order, what is reserved for an
epoch only changes by what is destroyed; and a split is undone by a fusion.
-/

namespace Pytusk.Tusky

open Pytusk.Lib Pytusk.Ops Pytusk.StorageLedger

/-! ## The command -/

/-- Where to split: exactly one of the two is given. -/
inductive SplitPoint where
  | byEpoch (splitEpoch : Int)
  | bySize (splitSize : Int)
  deriving DecidableEq, Repr

structure SplitArgs where
  storageId : String
  point : SplitPoint
  recipient : Option String
  sender : Option String
  sponsor : Option String
  deriving DecidableEq, Repr

def SplitPoint.call (packageId storageId : String) : SplitPoint → BuilderCall
  | .byEpoch splitEpoch => splitByEpochCall packageId storageId splitEpoch
  | .bySize splitSize => splitBySizeCall packageId storageId splitSize

def SplitPoint.detail : SplitPoint → String
  | .byEpoch splitEpoch => s!"at epoch {splitEpoch}"
  | .bySize splitSize => s!"off {splitSize} bytes"

def splitStorage (w : World) (book : AddressBook) (h : Holdings) (args : SplitArgs) :
    Sending ExecutedTransaction := do
  let (sender, sponsor) ← signersOrExit w book args.sender args.sponsor
  let recipient := pyOr args.recipient sender
  let walrusPkg ← walrusPackageId w
  sendOrExit (h.transaction 0) sender sponsor
    (addTransferred (args.point.call walrusPkg args.storageId) recipient)
    (fun resultString => s!"Error in split_storage: {resultString}")
    s!"Split {args.storageId} {args.point.detail}; new Storage sent to {recipient}."

/-! ## What the commands submit -/

section Submitted

variable {w : World} {book : AddressBook} {h : Holdings} {packageId : String} {txn : Txn}

theorem submitted_splitStorage {args : SplitArgs} (hpkg : walrusPackageId w = .ok packageId)
    (hsent : .submitted txn ∈ (splitStorage w book h args).log) :
    ∃ sender sponsor, txn = transferredTxn (args.point.call packageId args.storageId) sender
      sponsor (pyOr args.recipient sender) := by
  unfold splitStorage at hsent
  simp only [Logged.monadLift_eq, Logged.mem_log_bind, Logged.log_lift, Logged.result_lift,
    List.not_mem_nil, false_or] at hsent
  obtain ⟨⟨sender, sponsor⟩, -, walrusPkg, hwalrus, hsent⟩ := hsent
  cases hpkg.symm.trans hwalrus
  exact ⟨sender, sponsor, addTransferred_eq_ok (submitted_sendOrExit hsent)⟩

theorem submitted_fuseStorage {order : SetOrder} {args : FuseArgs}
    (hpkg : walrusPackageId w = .ok packageId)
    (hsent : .submitted txn ∈ (fuseStorage h w book order args).log) :
    ∃ sender sponsor targets,
      signersOrExit w book args.sender args.sponsor = .ok (sender, sponsor) ∧
      fuseTargets w.parseInt h order args sender = .ok targets ∧
      txn = ⟨sender, sponsor,
        targets.pairs.map fun pair => fuseCall packageId pair.1 pair.2⟩ := by
  unfold fuseStorage at hsent
  simp only [Logged.monadLift_eq] at hsent
  simp only [Logged.mem_log_bind (x := Logged.lift _), Logged.log_lift, Logged.result_lift,
    List.not_mem_nil, false_or] at hsent
  obtain ⟨_, -, ⟨sender, sponsor⟩, hsigners, walrusPkg, hwalrus, targets, htargets, hsent⟩ := hsent
  cases hpkg.symm.trans hwalrus
  have hcomposed := submitted_send_bind (fun result => ?_) hsent
  · exact ⟨sender, sponsor, targets, hsigners, htargets, Txn.addEach_eq_ok hcomposed⟩
  · cases result with
    | failed resultString => rfl
    | ok data =>
      dsimp only
      split <;> rfl

end Submitted

/-! ## Runs -/

section Runs

/-- What the commands and wrappers submit that split and fuse, each in the world
as it finds it. -/
inductive Rearranges (packageId : String) : Txn → Prop
  | splitStorage {w : World} {book : AddressBook} {h : Holdings} {args : SplitArgs} {txn : Txn}
      (hpkg : walrusPackageId w = .ok packageId)
      (hsent : .submitted txn ∈ (splitStorage w book h args).log) :
      Rearranges packageId txn
  | fuseStorage {w : World} {book : AddressBook} {h : Holdings} {order : SetOrder}
      {args : FuseArgs} {txn : Txn} (hpkg : walrusPackageId w = .ok packageId)
      (hsent : .submitted txn ∈ (fuseStorage h w book order args).log) :
      Rearranges packageId txn
  | executeSplitByEpoch {w : World} {answers : TxAnswers} {storageObjectId : String}
      {splitEpoch : Int} {sender sponsor recipient : Option String} {txn : Txn}
      (hsent : txn ∈ (executeSplitByEpoch w answers packageId storageObjectId splitEpoch sender
        sponsor recipient).log) : Rearranges packageId txn
  | executeSplitBySize {w : World} {answers : TxAnswers} {storageObjectId : String}
      {splitSize : Int} {sender sponsor recipient : Option String} {txn : Txn}
      (hsent : txn ∈ (executeSplitBySize w answers packageId storageObjectId splitSize sender
        sponsor recipient).log) : Rearranges packageId txn
  | executeFuse {w : World} {answers : TxAnswers} {firstStorageId secondStorageId : String}
      {sender sponsor : Option String} {txn : Txn}
      (hsent : txn ∈ (executeFuse w answers packageId firstStorageId secondStorageId sender
        sponsor).log) : Rearranges packageId txn

/-- What those submit that destroy. -/
inductive Reclaims (packageId : String) : Txn → Prop
  | reclaimStorage {w : World} {book : AddressBook}
      {hexstringToSuiId : String → Except PyExn String}
      {rebateView : Nat → Option RebateView} {h : Holdings} {args : ReclaimArgs} {txn : Txn}
      (hpkg : walrusPackageId w = .ok packageId)
      (hsent : .submitted txn ∈
        (reclaimStorage hexstringToSuiId rebateView w book h args).log) :
      Reclaims packageId txn
  | executeDestroyStorage {w : World} {answers : TxAnswers} {storageObjectId : String}
      {sender sponsor : Option String} {txn : Txn}
      (hsent : txn ∈ (executeDestroyStorage w answers packageId storageObjectId sender
        sponsor).log) : Reclaims packageId txn

variable {packageId : String} {txn : Txn} {ids : Finset String} {chain chain' : ChainState}

/-- No call of the transaction destroys. -/
def Spares (packageId : String) (txn : Txn) : Prop :=
  ∀ call ∈ txn.calls, ∀ id, storageCall packageId call ≠ some (.destroy id)

theorem spares_transferredTxn {call : BuilderCall} {sender recipient : String}
    {sponsor : Option String}
    (hcall : ∀ id, storageCall packageId call ≠ some (.destroy id)) :
    Spares packageId (transferredTxn call sender sponsor recipient) := by
  intro c hc id
  rcases List.mem_cons.mp hc with rfl | hc
  · exact hcall id
  · rw [List.mem_singleton.mp hc]
    exact fun h => nomatch h

theorem storageCall_splitPoint_ne_destroy (point : SplitPoint) (storageId id : String) :
    storageCall packageId (point.call packageId storageId) ≠ some (.destroy id) := by
  cases point with
  | byEpoch splitEpoch => simp [SplitPoint.call]
  | bySize splitSize => simp [SplitPoint.call]

/-- To split and to fuse is not to destroy. -/
theorem spares_of_rearranges (h : Rearranges packageId txn) : Spares packageId txn := by
  cases h with
  | splitStorage hpkg hsent =>
    obtain ⟨sender, sponsor, rfl⟩ := submitted_splitStorage hpkg hsent
    exact spares_transferredTxn (storageCall_splitPoint_ne_destroy _ _)
  | fuseStorage hpkg hsent =>
    obtain ⟨sender, sponsor, targets, -, -, rfl⟩ := submitted_fuseStorage hpkg hsent
    intro call hcall id
    obtain ⟨pair, -, rfl⟩ := List.mem_map.mp hcall
    simp
  | executeSplitByEpoch hsent =>
    rw [submitted_executeSplit hsent]
    exact spares_transferredTxn fun id => by simp
  | executeSplitBySize hsent =>
    rw [submitted_executeSplit hsent]
    exact spares_transferredTxn fun id => by simp
  | executeFuse hsent =>
    rw [submitted_executeOnly hsent]
    intro call hcall id
    rw [List.mem_singleton.mp hcall]
    simp

/-- **What is reserved is conserved.** In whatever order the transactions of
the commands and wrappers about Storage are executed, the objects stay well
formed, and for every epoch the size that is reserved and the size that was
destroyed add up to what they did at first. Only what a reclaiming transaction
names is destroyed; if there is none, what is reserved for an epoch stays what
it was. -/
theorem storage_runs_conserve {actions : List (Txn × (Nat → String))}
    (hfrom : ∀ action ∈ actions, Rearranges packageId action.1 ∨ Reclaims packageId action.1)
    (hwithin : ∀ action ∈ actions, Within packageId ids action.1.calls action.2)
    (hproper : Proper chain.ledger)
    (hrun : Lts.run (ChainState.execute packageId) chain actions = some chain') :
    Proper chain'.ledger ∧
    (∀ epoch, reserved ids chain' epoch + destroyedFor chain' epoch =
      reserved ids chain epoch + destroyedFor chain epoch) ∧
    DestroysOnly (fun storage => ∃ action ∈ actions, Reclaims packageId action.1 ∧
      Names packageId action.1 storage) chain chain' ∧
    ((∀ action ∈ actions, ¬ Reclaims packageId action.1) →
      ∀ epoch, reserved ids chain' epoch = reserved ids chain epoch) := by
  obtain ⟨hkeeps, gone, hgone, hnamed⟩ := keeps_run_execute hproper hwithin hrun
  have hreclaims : ∀ storage ∈ gone, ∃ action ∈ actions, Reclaims packageId action.1 ∧
      Names packageId action.1 storage := by
    intro storage hmem
    obtain ⟨action, haction, call, hcall, hdestroys⟩ := hnamed storage hmem
    rcases hfrom action haction with hrearranges | hreclaims
    · exact absurd hdestroys (spares_of_rearranges hrearranges call hcall _)
    · exact ⟨action, haction, hreclaims, call, hcall, hdestroys⟩
  refine ⟨hkeeps.proper, hkeeps.accounted, ⟨gone, hgone, hreclaims⟩, fun hnone epoch => ?_⟩
  have hempty : gone = [] := by
    refine List.eq_nil_iff_forall_not_mem.mpr fun storage hmem => ?_
    obtain ⟨action, haction, hreclaim, -⟩ := hreclaims storage hmem
    exact hnone action haction hreclaim
  have haccounted := hkeeps.accounted epoch
  unfold destroyedFor at haccounted
  rw [hgone, hempty, List.append_nil] at haccounted
  omega

/-- Two objects of one range. -/
def twoStoragesLedger : Ledger := fun id =>
  if id = "0xa" ∨ id = "0xb" then some ⟨id, 0, 5, 1⟩ else none

theorem proper_twoStoragesLedger : Proper twoStoragesLedger where
  named id storage h := by
    unfold twoStoragesLedger at h
    split at h
    · cases h
      rfl
    · cases h
  range id storage h := by
    unfold twoStoragesLedger at h
    split at h
    · cases h
      simp
    · cases h

/-- One of them is split, the other destroyed. -/
def twoActions : List (Txn × (Nat → String)) :=
  [(transferredTxn (splitByEpochCall "0x1" "0xa" 2) "0xa" none "0xa", fun _ => "0xc"),
    (⟨"0xa", none, [destroyCall "0x1" "0xb"]⟩, fun _ => "0xd")]

theorem storage_runs_conserve_two :
    ∃ chain', Lts.run (ChainState.execute "0x1") ⟨twoStoragesLedger, []⟩ twoActions = some chain' ∧
      ∀ epoch, reserved {"0xa", "0xb", "0xc", "0xd"} chain' epoch + destroyedFor chain' epoch =
        reserved {"0xa", "0xb", "0xc", "0xd"} ⟨twoStoragesLedger, []⟩ epoch := by
  have hfrom : ∀ action ∈ twoActions,
      Rearranges "0x1" action.1 ∨ Reclaims "0x1" action.1 := by
    refine List.forall_mem_cons.mpr ⟨.inl ?_, List.forall_mem_singleton.mpr (.inr ?_)⟩
    · have hsent : transferredTxn (splitByEpochCall "0x1" "0xa" 2) "0xa" none "0xa" ∈
          (executeSplitByEpoch World.small (acceptingHoldings.transaction 0) "0x1" "0xa" 2 none
            none none).log := by decide
      exact .executeSplitByEpoch hsent
    · have hsent : ⟨"0xa", none, [destroyCall "0x1" "0xb"]⟩ ∈
          (executeDestroyStorage World.small (acceptingHoldings.transaction 1) "0x1" "0xb" none
            none).log := by decide
      exact .executeDestroyStorage hsent
  have hwithin : ∀ action ∈ twoActions,
      Within "0x1" {"0xa", "0xb", "0xc", "0xd"} action.1.calls action.2 := by
    refine List.forall_mem_cons.mpr ⟨⟨?_, fun _ _ => by simp⟩,
      List.forall_mem_singleton.mpr ⟨?_, fun _ _ => by simp⟩⟩
    · intro call hcall c hc id hid
      rcases List.mem_cons.mp hcall with rfl | hcall
      · cases (storageCall_splitByEpochCall "0xa" 2).symm.trans hc
        simp [List.mem_singleton.mp hid]
      · rw [List.mem_singleton.mp hcall] at hc
        cases hc
    · intro call hcall c hc id hid
      rw [List.mem_singleton.mp hcall] at hc
      cases (storageCall_destroyCall "0xb").symm.trans hc
      simp [List.mem_singleton.mp hid]
  obtain ⟨chain', hrun⟩ : ∃ chain', Lts.run (ChainState.execute "0x1") ⟨twoStoragesLedger, []⟩
      twoActions = some chain' := ⟨_, rfl⟩
  refine ⟨chain', hrun, fun epoch => ?_⟩
  rw [(storage_runs_conserve hfrom hwithin proper_twoStoragesLedger hrun).2.1 epoch]
  exact Int.add_zero _

end Runs

/-! ## Splitting and fusing -/

section Split

variable {w : World} {book : AddressBook} {h : Holdings} {args : SplitArgs} {packageId : String}
  {txn : Txn} {fresh : Nat → String} {chain chain' : ChainState}
  {storage kept new : StorageObject} {newId : String}

/-- The point lies inside the object: strictly between its epochs, or within
its size. -/
def SplitPoint.Inside (storage : StorageObject) : SplitPoint → Prop
  | .byEpoch splitEpoch => storage.startEpoch < splitEpoch ∧ splitEpoch < storage.endEpoch
  | .bySize splitSize => 0 ≤ splitSize ∧ splitSize ≤ storage.storageSize

/-- What the chain makes of an object at a point. -/
def SplitPoint.rule (point : SplitPoint) (storage : StorageObject) (newId : String) :
    Option (StorageObject × StorageObject) :=
  match point with
  | .byEpoch splitEpoch => splitByEpoch storage splitEpoch newId
  | .bySize splitSize => splitBySize storage splitSize newId

theorem SplitPoint.exists_rule_iff (point : SplitPoint) (newId : String) :
    (∃ halves, point.rule storage newId = some halves) ↔ point.Inside storage := by
  cases point with
  | byEpoch splitEpoch =>
    show (∃ halves, splitByEpoch storage splitEpoch newId = some halves) ↔ _ ∧ _
    unfold splitByEpoch
    split
    · exact iff_of_true ⟨_, rfl⟩ ‹_›
    · exact iff_of_false (fun ⟨_, h⟩ => nomatch h) ‹_›
  | bySize splitSize =>
    show (∃ halves, splitBySize storage splitSize newId = some halves) ↔ _ ∧ _
    unfold splitBySize
    split
    · exact iff_of_true ⟨_, rfl⟩ ‹_›
    · exact iff_of_false (fun ⟨_, h⟩ => nomatch h) ‹_›

/-- The halves fuse, and what comes of it is the whole. -/
theorem fused_of_rule {point : SplitPoint} (h : point.rule storage newId = some (kept, new)) :
    fused kept new = some storage := by
  cases point with
  | byEpoch splitEpoch =>
    have hrule : splitByEpoch storage splitEpoch newId = some (kept, new) := h
    unfold splitByEpoch at hrule
    split at hrule
    · rename_i hinside
      cases hrule
      simp [fused, route, hinside.1.ne, fusePeriods]
    · cases hrule
  | bySize splitSize =>
    have hrule : splitBySize storage splitSize newId = some (kept, new) := h
    unfold splitBySize at hrule
    split at hrule
    · cases hrule
      simp [fused, route, fuseAmount]
    · cases hrule

/-- A pair that the chain fuses is accepted beforehand. -/
theorem fuseIncompatibility_of_fused {survivor : StorageObject}
    (hne : kept.objectId ≠ new.objectId) (h : fused kept new = some survivor) :
    fuseIncompatibility kept new = none := by
  refine fuseIncompatibility_eq_none.mpr ⟨fun hself => hne hself.2, ?_⟩
  unfold fused route at h
  split
  · rename_i hstart
    rw [if_pos hstart] at h
    dsimp only at h
    unfold fuseAmount at h
    split at h
    · rename_i hrange
      exact hrange.2
    · cases h
  · rename_i hstart
    rw [if_neg hstart] at h
    dsimp only at h
    unfold fusePeriods at h
    rw [fusePeriodsIncompatibility_eq_none]
    split at h
    · cases h
    · rename_i hsize
      refine ⟨not_not.mp hsize, ?_⟩
      split at h
      · exact .inl ‹_›
      · split at h
        · exact .inr ‹_›
        · cases h

/-- What a split that goes through has done. -/
theorem split_eq_some {storageObjectId : String}
    {rule : StorageObject → String → Option (StorageObject × StorageObject)} :
    chain.split storageObjectId newId rule = some chain' ↔
      chain.ledger newId = none ∧ ∃ storage kept new,
        chain.ledger storageObjectId = some storage ∧ rule storage newId = some (kept, new) ∧
        chain' = { chain with
          ledger := Function.update (Function.update chain.ledger newId (some new))
            storageObjectId (some kept) } := by
  unfold ChainState.split
  split
  · rename_i hfresh
    simp only [Option.bind_eq_bind, Option.bind_eq_some_iff, Prod.exists, Option.pure_def,
      Option.some.injEq, hfresh, true_and]
    constructor
    · rintro ⟨storage, hstorage, kept, new, hrule, rfl⟩
      exact ⟨storage, kept, new, hstorage, hrule, rfl⟩
    · rintro ⟨storage, kept, new, hstorage, hrule, rfl⟩
      exact ⟨storage, hstorage, kept, new, hrule, rfl⟩
  · rename_i hused
    exact iff_of_false (fun h => nomatch h) fun h => hused h.1

/-- The transaction of the command is carried out as a split. -/
theorem execute_splitTxn {storageId sender recipient : String} {sponsor : Option String}
    (point : SplitPoint) :
    chain.execute packageId
        (transferredTxn (point.call packageId storageId) sender sponsor recipient, fresh) =
      some chain' ↔ chain.split storageId (fresh 0) point.rule = some chain' := by
  have hcall : ∀ split : Option ChainState,
      (∃ newId, split.map (·, some (fresh 0)) = some (chain', some newId)) ↔
        split = some chain' := by
    intro split
    cases split with
    | none => simp
    | some c => simp
  cases point with
  | byEpoch splitEpoch =>
    exact (execute_transferred (storageCall_splitByEpochCall storageId splitEpoch)).trans (hcall _)
  | bySize splitSize =>
    exact (execute_transferred (storageCall_splitBySizeCall storageId splitSize)).trans (hcall _)

/-- When it goes through. -/
theorem exists_execute_splitTxn_iff {storageId sender recipient : String}
    {sponsor : Option String} (point : SplitPoint) (hfresh : chain.ledger (fresh 0) = none) :
    (∃ chain', chain.execute packageId
      (transferredTxn (point.call packageId storageId) sender sponsor recipient, fresh) =
        some chain') ↔
      ∃ storage, chain.ledger storageId = some storage ∧ point.Inside storage := by
  simp only [execute_splitTxn, split_eq_some]
  constructor
  · rintro ⟨_, -, storage, kept, new, hstorage, hrule, -⟩
    exact ⟨storage, hstorage, (point.exists_rule_iff _).mp ⟨_, hrule⟩⟩
  · rintro ⟨storage, hstorage, hinside⟩
    obtain ⟨⟨kept, new⟩, hrule⟩ := (point.exists_rule_iff (fresh 0)).mpr hinside
    exact ⟨_, hfresh, storage, kept, new, hstorage, hrule, rfl⟩

/-- A split, and what is left to fuse. -/
theorem fuse_split {storageId : String} {point : SplitPoint} (hproper : Proper chain.ledger)
    (h : chain.split storageId newId point.rule = some chain') :
    ∃ kept new, chain'.ledger storageId = some kept ∧ chain'.ledger newId = some new ∧
      kept.objectId = storageId ∧ new.objectId = newId ∧
      fuseIncompatibility kept new = none ∧
      fuse chain'.ledger (storageId, newId) = some chain.ledger ∧
      chain'.destroyed = chain.destroyed := by
  obtain ⟨hfresh, storage, kept, new, hstorage, hrule, rfl⟩ := split_eq_some.mp h
  have hne : storageId ≠ newId := by
    rintro rfl
    exact nomatch hfresh.symm.trans hstorage
  have hinto : SplitsInto storage newId kept new := by
    cases point with
    | byEpoch splitEpoch => exact splitsInto_of_splitByEpoch hrule
    | bySize splitSize =>
      exact splitsInto_of_splitBySize (hproper.range _ _ hstorage) hrule
  have hkept : kept.objectId = storageId := hinto.keptId.trans (hproper.named _ _ hstorage)
  have hfused := fused_of_rule hrule
  refine ⟨kept, new, Function.update_self .., ?_, hkept, hinto.newId, ?_, ?_, rfl⟩
  · dsimp only
    rw [Function.update_of_ne (Ne.symm hne), Function.update_self]
  · refine fuseIncompatibility_of_fused ?_ hfused
    rw [hkept, hinto.newId]
    exact hne
  · refine apply_eq_some.mpr ⟨hne, kept, new, storage, Function.update_self .., ?_, hfused, ?_⟩
    · dsimp only
      rw [Function.update_of_ne (Ne.symm hne), Function.update_self]
    · funext id
      by_cases hid : id = storageId
      · rw [hid, Function.update_self, hstorage]
      · dsimp only
        rw [Function.update_of_ne hid]
        by_cases hid' : id = newId
        · rw [hid', Function.update_self, hfresh]
        · rw [Function.update_of_ne hid', Function.update_of_ne hid, Function.update_of_ne hid']

/-- **A split can be undone.** What `split_storage` submits goes through exactly
if the object is there and the point lies inside it, for nothing of what the
split returns is left untaken. Then `fuse_storage` accepts the two halves, and
its transaction leaves all as it was before the split. -/
theorem splitStorage_undone (chain : ChainState) (fresh : Nat → String)
    (hpkg : walrusPackageId w = .ok packageId)
    (hsent : .submitted txn ∈ (splitStorage w book h args).log)
    (hproper : Proper chain.ledger) (hfresh : chain.ledger (fresh 0) = none) :
    ((∃ chain', chain.execute packageId (txn, fresh) = some chain') ↔
      ∃ storage, chain.ledger args.storageId = some storage ∧ args.point.Inside storage) ∧
    ∀ chain', chain.execute packageId (txn, fresh) = some chain' →
      ∃ kept new, chain'.ledger args.storageId = some kept ∧
        chain'.ledger (fresh 0) = some new ∧
        (∀ later, fetchStorageObject w.parseInt later "--fuse-to" args.storageId = .ok kept →
          fetchStorageObject w.parseInt later "--fuse-from" (fresh 0) = .ok new →
          explicitTargets w.parseInt later
            ⟨some args.storageId, [fresh 0], false, false, none, none, none, none⟩ =
              .ok ⟨args.storageId, [(args.storageId, fresh 0)], []⟩) ∧
        ∀ sender sponsor fresh', chain'.execute packageId
          (⟨sender, sponsor, [fuseCall packageId args.storageId (fresh 0)]⟩, fresh') =
            some chain := by
  obtain ⟨sender, sponsor, rfl⟩ := submitted_splitStorage hpkg hsent
  refine ⟨exists_execute_splitTxn_iff args.point hfresh, fun chain' hexecuted => ?_⟩
  obtain ⟨kept, new, hkept, hnew, hkeptId, hnewId, haccepts, hfuse, hdestroyed⟩ :=
    fuse_split hproper ((execute_splitTxn args.point).mp hexecuted)
  refine ⟨kept, new, hkept, hnew, fun later hto hfrom => ?_, fun sender sponsor fresh' => ?_⟩
  · simp only [explicitTargets, Option.getD_some, hto, hfrom, foldFrom, haccepts, ok_bind, hkeptId,
      hnewId]
    rfl
  · have hrun : Lts.run fuse chain'.ledger [(args.storageId, fresh 0)] = some chain.ledger := by
      simpa using hfuse
    refine (execute_fuses [(args.storageId, fresh 0)]).mpr ⟨chain.ledger, hrun, ?_⟩
    obtain ⟨ledger, destroyed⟩ := chain
    cases hdestroyed
    rfl

theorem splitStorage_undone_two :
    ∃ chain', (⟨twoStoragesLedger, []⟩ : ChainState).execute "0x1"
        (transferredTxn (splitByEpochCall "0x1" "0xa" 2) "0xa" none "0xa", fun _ => "0xc") =
          some chain' ∧
      chain'.execute "0x1" (⟨"0xa", none, [fuseCall "0x1" "0xa" "0xc"]⟩, fun _ => "") =
        some ⟨twoStoragesLedger, []⟩ := by
  have hpkg : walrusPackageId World.small = .ok "0x1" := by decide
  have hsent : .submitted (transferredTxn (splitByEpochCall "0x1" "0xa" 2) "0xa" none "0xa") ∈
      (splitStorage World.small ⟨fun _ => .ok (), .ok⟩ acceptingHoldings
        ⟨"0xa", .byEpoch 2, none, none, none⟩).log := by decide
  obtain ⟨hgoes, hundone⟩ := splitStorage_undone ⟨twoStoragesLedger, []⟩ (fun _ => "0xc") hpkg
    hsent proper_twoStoragesLedger (by decide)
  obtain ⟨chain', hexecuted⟩ := hgoes.mpr ⟨⟨"0xa", 0, 5, 1⟩, by decide, by decide, by decide⟩
  obtain ⟨kept, new, -, -, -, hback⟩ := hundone chain' hexecuted
  exact ⟨chain', hexecuted, hback "0xa" none fun _ => ""⟩

end Split

end Pytusk.Tusky
