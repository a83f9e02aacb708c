import Pytusk.Lib.Slabs
import Pytusk.Ops.StorageLedger

/-!
# Storage transactions on the chain

A transaction is carried out call by call. A split returns a new object, which
has to be transferred by a later call, else all is undone; destroying has no
condition. What a transaction does to the amount reserved for an epoch is
nothing, unless it destroys.
-/

namespace Pytusk.StorageLedger

open Pytusk.Lib Pytusk.Ops

/-! ## Splitting -/

/-- What `split_by_epoch` leaves, and what it returns. -/
def splitByEpoch (storage : StorageObject) (splitEpoch : Int) (newId : String) :
    Option (StorageObject × StorageObject) :=
  if storage.startEpoch < splitEpoch ∧ splitEpoch < storage.endEpoch then
    some ({ storage with endEpoch := splitEpoch },
      { storage with objectId := newId, startEpoch := splitEpoch })
  else none

/-- What `split_by_size` leaves, and what it returns; sizes are not negative. -/
def splitBySize (storage : StorageObject) (splitSize : Int) (newId : String) :
    Option (StorageObject × StorageObject) :=
  if 0 ≤ splitSize ∧ splitSize ≤ storage.storageSize then
    some ({ storage with storageSize := splitSize },
      { storage with objectId := newId, storageSize := storage.storageSize - splitSize })
  else none

/-! ## Calls -/

/-- The calls of `storage_resource`. -/
inductive StorageCall where
  | splitByEpoch (storageObjectId : String) (splitEpoch : Int)
  | splitBySize (storageObjectId : String) (splitSize : Int)
  | fuse (firstStorageId secondStorageId : String)
  | destroy (storageObjectId : String)
  deriving DecidableEq, Repr

/-- Which of them a call on the builder is. -/
def storageCall (packageId : String) : BuilderCall → Option StorageCall
  | .moveCall target [.str storageObjectId, .int n] =>
      if target = packageId ++ "::storage_resource::split_by_epoch" then
        some (.splitByEpoch storageObjectId n)
      else if target = packageId ++ "::storage_resource::split_by_size" then
        some (.splitBySize storageObjectId n)
      else none
  | .moveCall target [.str first, .str second] =>
      if target = packageId ++ "::storage_resource::fuse" then some (.fuse first second) else none
  | .moveCall target [.str storageObjectId] =>
      if target = packageId ++ "::storage_resource::destroy" then some (.destroy storageObjectId)
      else none
  | _ => none

/-- What the chain keeps of Storage: the objects, and what was destroyed. -/
structure ChainState where
  ledger : Ledger
  destroyed : List StorageObject

/-- A transaction on its way: for each call made, the Storage that it returned
and that nothing has taken yet. -/
structure Frame where
  chain : ChainState
  results : List (Option String)

/-- One object made two. -/
def ChainState.split (chain : ChainState) (storageObjectId newId : String)
    (rule : StorageObject → String → Option (StorageObject × StorageObject)) : Option ChainState :=
  if chain.ledger newId = none then do
    let storage ← chain.ledger storageObjectId
    let (kept, new) ← rule storage newId
    return { chain with
      ledger := Function.update (Function.update chain.ledger newId (some new)) storageObjectId
        (some kept) }
  else none

/-- One call, with the id that a new object would be given. -/
def ChainState.call (chain : ChainState) (newId : String) :
    StorageCall → Option (ChainState × Option String)
  | .splitByEpoch storageObjectId splitEpoch =>
      (chain.split storageObjectId newId (splitByEpoch · splitEpoch)).map (·, some newId)
  | .splitBySize storageObjectId splitSize =>
      (chain.split storageObjectId newId (splitBySize · splitSize)).map (·, some newId)
  | .fuse first second =>
      (fuse chain.ledger (first, second)).map fun ledger => ({ chain with ledger }, none)
  | .destroy storageObjectId => do
      let storage ← chain.ledger storageObjectId
      return ({ ledger := Function.update chain.ledger storageObjectId none
                destroyed := chain.destroyed ++ [storage] }, none)

/-- Take the result of a call. -/
def Frame.take (frame : Frame) : Argument → Option Frame
  | .result n =>
      match frame.results[n]? with
      | some (some _) => some { frame with results := frame.results.set n none }
      | _ => none
  | _ => none

/-- One call of a transaction. `fresh` names what each call creates. -/
def Frame.step (packageId : String) (fresh : Nat → String) (frame : Frame) (call : BuilderCall) :
    Option Frame :=
  match call with
  | .transferObjects transfers _ => do
      let frame ← transfers.foldlM Frame.take frame
      return { frame with results := frame.results ++ [none] }
  | call => do
      let storageCall ← storageCall packageId call
      let (chain, result) ← frame.chain.call (fresh frame.results.length) storageCall
      return { chain := chain, results := frame.results ++ [result] }

/-- **A transaction**: all its calls, and nothing left untaken, or it aborts. -/
def ChainState.execute (packageId : String) (chain : ChainState) (action : Txn × (Nat → String)) :
    Option ChainState := do
  let frame ← Lts.run (Frame.step packageId action.2) ⟨chain, []⟩ action.1.calls
  if frame.results.all Option.isNone then return frame.chain else none

/-! ## What is reserved -/

def slabOf (storage : StorageObject) : Slab Int Int :=
  ⟨storage.startEpoch, storage.endEpoch, storage.storageSize⟩

/-- The size reserved for an epoch by the objects of some ids. -/
def reserved (ids : Finset String) (chain : ChainState) (epoch : Int) : Int :=
  Slab.held ids (fun id => (chain.ledger id).map slabOf) epoch

/-- The size that was destroyed for an epoch. -/
def destroyedFor (chain : ChainState) (epoch : Int) : Int :=
  (chain.destroyed.map fun storage => (slabOf storage).height epoch).sum

/-- One object holds what two do. -/
def Joins (whole first second : StorageObject) : Prop :=
  ∀ epoch, (slabOf first).height epoch + (slabOf second).height epoch =
    (slabOf whole).height epoch

section Rules

variable {first second survivor storage kept new : StorageObject} {newId : String}

/-- What is fused is where it was, covers a range and holds what both held. -/
theorem fused_spec (hfirst : first.startEpoch < first.endEpoch)
    (hsecond : second.startEpoch < second.endEpoch) (h : fused first second = some survivor) :
    survivor.objectId = first.objectId ∧ survivor.startEpoch < survivor.endEpoch ∧
      Joins survivor first second := by
  unfold fused at h
  cases hroute : route first second with
  | amount =>
    rw [hroute] at h
    dsimp only at h
    unfold fuseAmount at h
    split at h
    · rename_i hrange
      cases h
      refine ⟨rfl, hfirst, fun epoch => ?_⟩
      unfold slabOf
      rw [← hrange.1, ← hrange.2]
      exact Slab.height_add _ _ _ _ _
    · cases h
  | periods =>
    rw [hroute] at h
    dsimp only at h
    unfold fusePeriods at h
    split at h
    · cases h
    · rename_i hsize
      have hsize : first.storageSize = second.storageSize := not_not.mp hsize
      split at h
      · rename_i htouch
        cases h
        refine ⟨rfl, by dsimp only; omega, fun epoch => ?_⟩
        unfold slabOf
        rw [← hsize, ← htouch]
        exact Slab.height_cut hfirst.le (htouch ▸ hsecond.le) _ _
      · split at h
        · rename_i htouch
          cases h
          refine ⟨rfl, by dsimp only; omega, fun epoch => ?_⟩
          unfold slabOf
          rw [← hsize, htouch, add_comm]
          exact Slab.height_cut hsecond.le (htouch ▸ hfirst.le) _ _
        · cases h

/-- What a split leaves and returns: under their ids, each with a range, and
holding together what there was. -/
structure SplitsInto (storage : StorageObject) (newId : String) (kept new : StorageObject) :
    Prop where
  keptId : kept.objectId = storage.objectId
  newId : new.objectId = newId
  keptRange : kept.startEpoch < kept.endEpoch
  newRange : new.startEpoch < new.endEpoch
  joins : Joins storage kept new

theorem splitsInto_of_splitByEpoch {splitEpoch : Int}
    (h : splitByEpoch storage splitEpoch newId = some (kept, new)) :
    SplitsInto storage newId kept new := by
  unfold splitByEpoch at h
  split at h
  · rename_i hinside
    cases h
    exact ⟨rfl, rfl, hinside.1, hinside.2, fun epoch =>
      Slab.height_cut hinside.1.le hinside.2.le _ _⟩
  · cases h

theorem splitsInto_of_splitBySize {splitSize : Int}
    (hrange : storage.startEpoch < storage.endEpoch)
    (h : splitBySize storage splitSize newId = some (kept, new)) :
    SplitsInto storage newId kept new := by
  unfold splitBySize at h
  split at h
  · cases h
    refine ⟨rfl, rfl, hrange, hrange, fun epoch => ?_⟩
    unfold slabOf
    rw [Slab.height_add, add_sub_cancel]
  · cases h

end Rules

/-! ## What a call does -/

section Call

variable {chain chain' : ChainState} {ids : Finset String}

/-- Well formed objects, and nothing of what is accounted for at an epoch is
lost or made. -/
structure Keeps (ids : Finset String) (chain chain' : ChainState) : Prop where
  proper : Proper chain'.ledger
  accounted : ∀ epoch, reserved ids chain' epoch + destroyedFor chain' epoch =
    reserved ids chain epoch + destroyedFor chain epoch

theorem Keeps.refl (h : Proper chain.ledger) : Keeps ids chain chain := ⟨h, fun _ => rfl⟩

theorem Keeps.trans {chain'' : ChainState} (h : Keeps ids chain chain')
    (h' : Keeps ids chain' chain'') : Keeps ids chain chain'' :=
  ⟨h'.proper, fun epoch => (h'.accounted epoch).trans (h.accounted epoch)⟩

/-- Two objects of a ledger are replaced. -/
theorem proper_update₂ {ledger : Ledger} (h : Proper ledger) {a b : String}
    {x y : Option StorageObject}
    (hx : ∀ storage, x = some storage →
      storage.objectId = a ∧ storage.startEpoch < storage.endEpoch)
    (hy : ∀ storage, y = some storage →
      storage.objectId = b ∧ storage.startEpoch < storage.endEpoch) :
    Proper (Function.update (Function.update ledger b y) a x) := by
  have hall : ∀ id storage,
      Function.update (Function.update ledger b y) a x id = some storage →
        storage.objectId = id ∧ storage.startEpoch < storage.endEpoch := by
    intro id storage hid
    by_cases hida : id = a
    · rw [hida, Function.update_self] at hid
      rw [hida]
      exact hx storage hid
    · rw [Function.update_of_ne hida] at hid
      by_cases hidb : id = b
      · rw [hidb, Function.update_self] at hid
        rw [hidb]
        exact hy storage hid
      · rw [Function.update_of_ne hidb] at hid
        exact ⟨h.named id storage hid, h.range id storage hid⟩
  exact ⟨fun id storage hid => (hall id storage hid).1,
    fun id storage hid => (hall id storage hid).2⟩

/-- The amounts of a ledger of which two objects are replaced. -/
theorem held_update₂ {ledger : Ledger} {a b : String} (ha : a ∈ ids) (hb : b ∈ ids) (hne : a ≠ b)
    (x y : Option StorageObject) (epoch : Int)
    (h : Slab.heightOf (x.map slabOf) epoch + Slab.heightOf (y.map slabOf) epoch =
      Slab.heightOf ((ledger a).map slabOf) epoch +
        Slab.heightOf ((ledger b).map slabOf) epoch) :
    Slab.held ids (fun id =>
        (Function.update (Function.update ledger b y) a x id).map slabOf) epoch =
      Slab.held ids (fun id => (ledger id).map slabOf) epoch := by
  have hmap : (fun id => (Function.update (Function.update ledger b y) a x id).map slabOf) =
      Option.map slabOf ∘ Function.update (Function.update ledger b y) a x := rfl
  rw [hmap, Function.comp_update, Function.comp_update]
  exact Slab.held_update₂ ha hb hne _ _ _ _ h

/-- A split keeps what there is, if its rule does. -/
theorem keeps_split {storageObjectId newId : String}
    {rule : StorageObject → String → Option (StorageObject × StorageObject)}
    (hproper : Proper chain.ledger) (hid : storageObjectId ∈ ids) (hnew : newId ∈ ids)
    (hrule : ∀ storage kept new, storage.startEpoch < storage.endEpoch →
      rule storage newId = some (kept, new) → SplitsInto storage newId kept new)
    (h : chain.split storageObjectId newId rule = some chain') : Keeps ids chain chain' := by
  unfold ChainState.split at h
  split at h
  · rename_i hfresh
    obtain ⟨storage, hstorage, h⟩ := Option.bind_eq_some_iff.mp h
    obtain ⟨⟨kept, new⟩, hsplit, heq⟩ := Option.bind_eq_some_iff.mp h
    cases heq
    have hinto := hrule storage kept new (hproper.range _ _ hstorage) hsplit
    have hne : storageObjectId ≠ newId := by
      rintro rfl
      exact nomatch hfresh.symm.trans hstorage
    constructor
    case proper =>
      refine proper_update₂ hproper ?_ ?_
      · intro _ heq
        cases heq
        exact ⟨hinto.keptId.trans (hproper.named _ _ hstorage), hinto.keptRange⟩
      · intro _ heq
        cases heq
        exact ⟨hinto.newId, hinto.newRange⟩
    case accounted =>
      intro epoch
      refine congrArg (· + destroyedFor chain epoch) (held_update₂ hid hnew hne _ _ epoch ?_)
      rw [hstorage, hfresh]
      simpa [Slab.heightOf] using hinto.joins epoch
  · cases h

/-- A fusion does. -/
theorem keeps_fuse {pair : String × String} {ledger' : Ledger} (hproper : Proper chain.ledger)
    (hfirst : pair.1 ∈ ids) (hsecond : pair.2 ∈ ids)
    (h : fuse chain.ledger pair = some ledger') :
    Keeps ids chain { chain with ledger := ledger' } := by
  obtain ⟨hne, first, second, survivor, hf, hs, hrule, rfl⟩ := apply_eq_some.mp h
  obtain ⟨hname, hrange, hjoins⟩ :=
    fused_spec (hproper.range _ _ hf) (hproper.range _ _ hs) hrule
  constructor
  case proper =>
    refine proper_update₂ hproper ?_ (fun _ heq => nomatch heq)
    intro _ heq
    cases heq
    exact ⟨hname.trans (hproper.named _ _ hf), hrange⟩
  case accounted =>
    intro epoch
    refine congrArg (· + destroyedFor chain epoch)
      (held_update₂ hfirst hsecond hne _ _ epoch ?_)
    rw [hf, hs]
    simpa [Slab.heightOf] using (hjoins epoch).symm

/-- What is destroyed is put down as destroyed. -/
theorem keeps_destroy {storageObjectId : String} {storage : StorageObject}
    (hproper : Proper chain.ledger) (hid : storageObjectId ∈ ids)
    (hstorage : chain.ledger storageObjectId = some storage) :
    Keeps ids chain ⟨Function.update chain.ledger storageObjectId none,
      chain.destroyed ++ [storage]⟩ := by
  constructor
  case proper =>
    have htwice := proper_update₂ (x := none) (y := none) hproper (a := storageObjectId)
      (b := storageObjectId) (fun _ heq => nomatch heq) (fun _ heq => nomatch heq)
    rwa [Function.update_idem] at htwice
  case accounted =>
    intro epoch
    have hmap : (fun id => (Function.update chain.ledger storageObjectId none id).map slabOf) =
        Option.map slabOf ∘ Function.update chain.ledger storageObjectId none := rfl
    have hheld := Slab.held_update hid (Option.map slabOf ∘ chain.ledger) none epoch
    have hgone : Slab.heightOf ((Option.map slabOf ∘ chain.ledger) storageObjectId) epoch =
        (slabOf storage).height epoch := by
      rw [Function.comp_apply, hstorage]
      rfl
    unfold reserved destroyedFor
    rw [hmap, Function.comp_update]
    dsimp only [Option.map_none]
    rw [hheld, hgone, List.map_append, List.sum_append]
    simp only [Slab.heightOf, Option.elim_none, List.map_cons, List.map_nil, List.sum_cons,
      List.sum_nil]
    show _ = Slab.held ids (Option.map slabOf ∘ chain.ledger) epoch + _
    omega

end Call

/-! ## What a transaction does -/

section Execute

variable {packageId : String} {ids : Finset String} {chain chain' : ChainState}

/-- The ids a call is about. -/
def StorageCall.mentioned : StorageCall → List String
  | .splitByEpoch storageObjectId _ | .splitBySize storageObjectId _ | .destroy storageObjectId =>
      [storageObjectId]
  | .fuse first second => [first, second]

theorem keeps_call {newId : String} {call : StorageCall} {result : Option String}
    (hproper : Proper chain.ledger) (hids : ∀ id ∈ call.mentioned, id ∈ ids) (hnew : newId ∈ ids)
    (h : chain.call newId call = some (chain', result)) : Keeps ids chain chain' := by
  cases call with
  | splitByEpoch storageObjectId splitEpoch =>
    obtain ⟨_, hsplit, heq⟩ := Option.map_eq_some_iff.mp h
    cases heq
    exact keeps_split hproper (hids _ (.head _)) hnew
      (fun _ _ _ _ hrule => splitsInto_of_splitByEpoch hrule) hsplit
  | splitBySize storageObjectId splitSize =>
    obtain ⟨_, hsplit, heq⟩ := Option.map_eq_some_iff.mp h
    cases heq
    exact keeps_split hproper (hids _ (.head _)) hnew
      (fun _ _ _ hrange hrule => splitsInto_of_splitBySize hrange hrule) hsplit
  | fuse first second =>
    obtain ⟨ledger', hfuse, heq⟩ := Option.map_eq_some_iff.mp h
    cases heq
    exact keeps_fuse hproper (hids _ (.head _)) (hids _ (.tail _ (.head _))) hfuse
  | destroy storageObjectId =>
    obtain ⟨storage, hstorage, heq⟩ := Option.bind_eq_some_iff.mp h
    cases heq
    exact keeps_destroy hproper (hids _ (.head _)) hstorage

/-- Taking a result does nothing on the chain. -/
theorem take_eq_some {frame frame' : Frame} {argument : Argument}
    (h : frame.take argument = some frame') :
    frame'.chain = frame.chain ∧ frame'.results.length = frame.results.length := by
  unfold Frame.take at h
  split at h
  · split at h
    · cases h
      exact ⟨rfl, List.length_set⟩
    · cases h
  · cases h

theorem foldlM_take_eq_some {transfers : List Argument} {frame frame' : Frame}
    (h : transfers.foldlM Frame.take frame = some frame') :
    frame'.chain = frame.chain ∧ frame'.results.length = frame.results.length := by
  induction transfers generalizing frame with
  | nil =>
    cases h
    exact ⟨rfl, rfl⟩
  | cons argument rest ih =>
    obtain ⟨middle, htake, hrest⟩ := Option.bind_eq_some_iff.mp h
    obtain ⟨hchain, hlength⟩ := take_eq_some htake
    obtain ⟨hchain', hlength'⟩ := ih hrest
    exact ⟨hchain'.trans hchain, hlength'.trans hlength⟩

/-- What a call of a transaction is, if the chain carries it out. -/
theorem step_cases {fresh : Nat → String} {frame frame' : Frame} {call : BuilderCall}
    (h : frame.step packageId fresh call = some frame') :
    frame'.results.length = frame.results.length + 1 ∧
      (frame'.chain = frame.chain ∨ ∃ c result, storageCall packageId call = some c ∧
        frame.chain.call (fresh frame.results.length) c = some (frame'.chain, result)) := by
  unfold Frame.step at h
  split at h
  · obtain ⟨taken, htaken, heq⟩ := Option.bind_eq_some_iff.mp h
    obtain ⟨hchain, hlength⟩ := foldlM_take_eq_some htaken
    cases heq
    exact ⟨by simp [hlength], .inl hchain⟩
  · obtain ⟨c, hc, h⟩ := Option.bind_eq_some_iff.mp h
    obtain ⟨⟨chain, result⟩, hcall, heq⟩ := Option.bind_eq_some_iff.mp h
    cases heq
    exact ⟨by simp, .inr ⟨c, result, hc, hcall⟩⟩

/-- The ids a transaction is about are among these, and so are those of what
it creates. -/
structure Within (packageId : String) (ids : Finset String) (calls : List BuilderCall)
    (fresh : Nat → String) : Prop where
  mentioned : ∀ call ∈ calls, ∀ c, storageCall packageId call = some c →
    ∀ id ∈ c.mentioned, id ∈ ids
  created : ∀ n < calls.length, fresh n ∈ ids

/-- What every call does to the chain, a whole transaction does. -/
theorem run_calls {R : ChainState → ChainState → Prop} {fresh : Nat → String} {frame frame' : Frame}
    {calls : List BuilderCall} (hrefl : ∀ chain, R chain chain)
    (htrans : ∀ chain chain' chain'', R chain chain' → R chain' chain'' → R chain chain'')
    (hcall : ∀ call ∈ calls, ∀ c, storageCall packageId call = some c → ∀ n < calls.length,
      ∀ chain chain' result, chain.call (fresh (frame.results.length + n)) c =
        some (chain', result) → R chain chain')
    (h : Lts.run (Frame.step packageId fresh) frame calls = some frame') :
    R frame.chain frame'.chain := by
  induction calls generalizing frame with
  | nil =>
    cases h
    exact hrefl _
  | cons call rest ih =>
    obtain ⟨middle, hstep, hrest⟩ := Option.bind_eq_some_iff.mp h
    obtain ⟨hlength, hcases⟩ := step_cases hstep
    have hmiddle : R frame.chain middle.chain := by
      rcases hcases with hsame | ⟨c, result, hc, hdone⟩
      · rw [hsame]
        exact hrefl _
      · exact hcall call (.head _) c hc 0 (Nat.succ_pos _) _ _ result hdone
    refine htrans _ _ _ hmiddle (ih (fun later hlater c hc n hn => ?_) hrest)
    rw [hlength, Nat.add_assoc, Nat.add_comm 1 n]
    exact hcall later (.tail _ hlater) c hc (n + 1) (Nat.succ_lt_succ hn)

theorem execute_eq_some {action : Txn × (Nat → String)} :
    chain.execute packageId action = some chain' ↔
      ∃ results, Lts.run (Frame.step packageId action.2) ⟨chain, []⟩ action.1.calls =
        some ⟨chain', results⟩ ∧ ∀ result ∈ results, result = none := by
  unfold ChainState.execute
  rw [Option.bind_eq_bind, Option.bind_eq_some_iff]
  constructor
  · rintro ⟨⟨chain'', results⟩, hrun, hall⟩
    split at hall
    · rename_i hnone
      cases hall
      exact ⟨results, hrun, fun result hmem =>
        Option.isNone_iff_eq_none.mp (List.all_eq_true.mp hnone result hmem)⟩
    · cases hall
  · rintro ⟨results, hrun, hnone⟩
    refine ⟨⟨chain', results⟩, hrun, ?_⟩
    exact if_pos (List.all_eq_true.mpr fun result hmem =>
      Option.isNone_iff_eq_none.mpr (hnone result hmem))

/-- What is destroyed between the two is of a kind. -/
def DestroysOnly (kind : StorageObject → Prop) (chain chain' : ChainState) : Prop :=
  ∃ gone, chain'.destroyed = chain.destroyed ++ gone ∧ ∀ storage ∈ gone, kind storage

theorem destroysOnly_of_eq {kind : StorageObject → Prop}
    (h : chain'.destroyed = chain.destroyed) : DestroysOnly kind chain chain' :=
  ⟨[], by rw [h, List.append_nil], List.forall_mem_nil _⟩

theorem DestroysOnly.trans {kind : StorageObject → Prop} {chain'' : ChainState}
    (h : DestroysOnly kind chain chain') (h' : DestroysOnly kind chain' chain'') :
    DestroysOnly kind chain chain'' := by
  obtain ⟨gone, heq, hkind⟩ := h
  obtain ⟨gone', heq', hkind'⟩ := h'
  refine ⟨gone ++ gone', by rw [heq', heq, List.append_assoc], fun storage hmem => ?_⟩
  exact (List.mem_append.mp hmem).elim (hkind storage) (hkind' storage)

/-- A call destroys what it names, or nothing. -/
theorem destroysOnly_call {newId : String} {call : StorageCall} {result : Option String}
    (hproper : Proper chain.ledger) (h : chain.call newId call = some (chain', result)) :
    DestroysOnly (fun storage => call = .destroy storage.objectId) chain chain' := by
  have hsplit : ∀ {id rule}, chain.split id newId rule = some chain' →
      chain'.destroyed = chain.destroyed := by
    intro id rule h
    unfold ChainState.split at h
    split at h
    · obtain ⟨storage, -, h⟩ := Option.bind_eq_some_iff.mp h
      obtain ⟨⟨kept, new⟩, -, heq⟩ := Option.bind_eq_some_iff.mp h
      cases heq
      rfl
    · cases h
  cases call with
  | splitByEpoch storageObjectId splitEpoch =>
    obtain ⟨_, hchain, heq⟩ := Option.map_eq_some_iff.mp h
    cases heq
    exact destroysOnly_of_eq (hsplit hchain)
  | splitBySize storageObjectId splitSize =>
    obtain ⟨_, hchain, heq⟩ := Option.map_eq_some_iff.mp h
    cases heq
    exact destroysOnly_of_eq (hsplit hchain)
  | fuse first second =>
    obtain ⟨_, -, heq⟩ := Option.map_eq_some_iff.mp h
    cases heq
    exact destroysOnly_of_eq rfl
  | destroy storageObjectId =>
    obtain ⟨gone, hgone, heq⟩ := Option.bind_eq_some_iff.mp h
    cases heq
    refine ⟨[gone], rfl, fun storage hmem => ?_⟩
    cases List.mem_singleton.mp hmem
    rw [hproper.named _ _ hgone]

/-- The transaction has a call that destroys the object. -/
def Names (packageId : String) (txn : Txn) (storage : StorageObject) : Prop :=
  ∃ call ∈ txn.calls, storageCall packageId call = some (.destroy storage.objectId)

/-- The step lemma: a transaction that does not abort keeps what is accounted
for, and destroys what it names. -/
theorem keeps_execute {action : Txn × (Nat → String)} (hproper : Proper chain.ledger)
    (hwithin : Within packageId ids action.1.calls action.2)
    (h : chain.execute packageId action = some chain') :
    Keeps ids chain chain' ∧ DestroysOnly (Names packageId action.1) chain chain' := by
  obtain ⟨results, hrun, -⟩ := execute_eq_some.mp h
  refine run_calls (R := fun chain chain' => Proper chain.ledger → Keeps ids chain chain' ∧
    DestroysOnly (Names packageId action.1) chain chain')
    (fun _ hproper => ⟨.refl hproper, destroysOnly_of_eq rfl⟩) ?_ ?_ hrun hproper
  · intro _ _ _ hfirst hsecond hproper
    obtain ⟨hkeeps, hnames⟩ := hfirst hproper
    obtain ⟨hkeeps', hnames'⟩ := hsecond hkeeps.proper
    exact ⟨hkeeps.trans hkeeps', hnames.trans hnames'⟩
  · intro call hmem c hc n hn _ _ result hdone hproper
    rw [List.length_nil, Nat.zero_add] at hdone
    refine ⟨keeps_call hproper (hwithin.mentioned call hmem c hc) (hwithin.created n hn) hdone,
      ?_⟩
    obtain ⟨gone, heq, hkind⟩ := destroysOnly_call hproper hdone
    exact ⟨gone, heq, fun storage hgone => ⟨call, hmem, hkind storage hgone ▸ hc⟩⟩

/-- **The run lemma.** -/
theorem keeps_run_execute {actions : List (Txn × (Nat → String))} (hproper : Proper chain.ledger)
    (hwithin : ∀ action ∈ actions, Within packageId ids action.1.calls action.2)
    (h : Lts.run (ChainState.execute packageId) chain actions = some chain') :
    Keeps ids chain chain' ∧
      DestroysOnly (fun storage => ∃ action ∈ actions, Names packageId action.1 storage)
        chain chain' := by
  refine Lts.run_invariant_on (P := fun c => Keeps ids chain c ∧
      DestroysOnly (fun storage => ∃ action ∈ actions, Names packageId action.1 storage) chain c)
    (Q := fun action => action ∈ actions) ⟨.refl hproper, destroysOnly_of_eq rfl⟩
    (fun _ => id) ?_ h
  rintro middle action after hmem ⟨hkeeps, hnames⟩ hstep
  obtain ⟨hkeeps', gone, heq, hkind⟩ := keeps_execute hkeeps.proper (hwithin action hmem) hstep
  exact ⟨hkeeps.trans hkeeps', hnames.trans ⟨gone, heq, fun storage hgone =>
    ⟨action, hmem, hkind storage hgone⟩⟩⟩

/-! ## The transactions that are composed -/

@[simp] theorem storageCall_splitByEpochCall (id : String) (splitEpoch : Int) :
    storageCall packageId (splitByEpochCall packageId id splitEpoch) =
      some (.splitByEpoch id splitEpoch) :=
  if_pos rfl

@[simp] theorem storageCall_splitBySizeCall (id : String) (splitSize : Int) :
    storageCall packageId (splitBySizeCall packageId id splitSize) =
      some (.splitBySize id splitSize) := by
  have hne : packageId ++ "::storage_resource::split_by_size" ≠
      packageId ++ "::storage_resource::split_by_epoch" := by
    rw [Ne, String.append_right_inj]
    decide
  exact (if_neg hne).trans (if_pos rfl)

@[simp] theorem storageCall_fuseCall (first second : String) :
    storageCall packageId (fuseCall packageId first second) = some (.fuse first second) :=
  if_pos rfl

@[simp] theorem storageCall_destroyCall (id : String) :
    storageCall packageId (destroyCall packageId id) = some (.destroy id) :=
  if_pos rfl

/-- A call whose result is transferred goes through if the call does and
returns something. -/
theorem execute_transferred {sender recipient : String} {sponsor : Option String}
    {call : BuilderCall} {c : StorageCall} {fresh : Nat → String}
    (hc : storageCall packageId call = some c) :
    chain.execute packageId
        (⟨sender, sponsor, [call, .transferObjects [.result 0] recipient]⟩, fresh) =
      some chain' ↔ ∃ newId, chain.call (fresh 0) c = some (chain', some newId) := by
  have hstep : Frame.step packageId fresh ⟨chain, []⟩ call =
      (chain.call (fresh 0) c).map fun done => ⟨done.1, [done.2]⟩ := by
    unfold Frame.step
    split
    · cases hc
    · rw [hc, Option.bind_eq_bind, Option.bind_some]
      cases hcall : chain.call (fresh 0) c with
      | none => simp
      | some done => simp
  rw [execute_eq_some, Lts.run_cons, hstep]
  cases hcall : chain.call (fresh 0) c with
  | none => simp
  | some done =>
    obtain ⟨made, result⟩ := done
    cases result with
    | none => simp [Frame.step, Frame.take]
    | some newId => simp [Frame.step, Frame.take]

/-- A transaction of fusions is a run of `fuse`. -/
theorem run_fuses {fresh : Nat → String} (frame : Frame) (pairs : List (String × String)) :
    Lts.run (Frame.step packageId fresh) frame
        (pairs.map fun pair => fuseCall packageId pair.1 pair.2) =
      (Lts.run fuse frame.chain.ledger pairs).map fun ledger =>
        ⟨{ frame.chain with ledger }, frame.results ++ List.replicate pairs.length none⟩ := by
  induction pairs generalizing frame with
  | nil => simp
  | cons pair rest ih =>
    have hstep : Frame.step packageId fresh frame (fuseCall packageId pair.1 pair.2) =
        (fuse frame.chain.ledger pair).map fun ledger =>
          ⟨{ frame.chain with ledger }, frame.results ++ [none]⟩ := by
      show ((storageCall packageId (fuseCall packageId pair.1 pair.2)).bind _) = _
      rw [storageCall_fuseCall, Option.bind_some]
      cases hfuse : fuse frame.chain.ledger pair with
      | none => simp [ChainState.call, hfuse]
      | some ledger => simp [ChainState.call, hfuse]
    rw [List.map_cons, Lts.run_cons, Lts.run_cons, hstep]
    cases hfuse : fuse frame.chain.ledger pair with
    | none => rfl
    | some ledger =>
      rw [Option.map_some, Option.bind_some, Option.bind_some, ih]
      simp [List.replicate_succ]

theorem execute_fuses {sender : String} {sponsor : Option String} {fresh : Nat → String}
    (pairs : List (String × String)) :
    chain.execute packageId
        (⟨sender, sponsor, pairs.map fun pair => fuseCall packageId pair.1 pair.2⟩, fresh) =
      some chain' ↔ ∃ ledger, Lts.run fuse chain.ledger pairs = some ledger ∧
        chain' = { chain with ledger } := by
  rw [execute_eq_some, run_fuses]
  cases hrun : Lts.run fuse chain.ledger pairs with
  | none => simp
  | some ledger =>
    simp only [Option.map_some, Option.some.injEq, Frame.mk.injEq, List.nil_append,
      exists_eq_left']
    constructor
    · rintro ⟨results, ⟨rfl, -⟩, -⟩
      rfl
    · rintro rfl
      exact ⟨_, ⟨rfl, rfl⟩, fun result hmem => (List.mem_replicate.mp hmem).2⟩

end Execute

end Pytusk.StorageLedger
