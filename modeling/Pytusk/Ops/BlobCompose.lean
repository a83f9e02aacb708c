import Pytusk.Chain.Transaction
import Pytusk.Encoding.Redstuff
import Pytusk.Types.Receipts
import Pytusk.Types.Tips

/-!
# `ops/blob_compose.py`, `ops/tip_compose.py`: composing Tx1 and Tx2

Each function makes its calls on the transaction it is given, in order, and
returns what the transaction has become. The `_calls` theorems say which
calls a composition that succeeds has made.
-/

namespace Pytusk.Ops

open Pytusk.Lib

section Compose

variable (builder : Builder)

/-- Where the tip is split from. -/
def tipSource (paymentCoin : String) : Argument :=
  if paymentCoin = fromGas then .gas else .str paymentCoin

def addTip (txn : Txn) (relayAddress : String) (tipAmount : Nat)
    (authPackage : AuthPackage) (paymentCoin : String) : Except PyExn Txn := do
  raiseIf (txn.inputs ≠ [] ∨ txn.commands ≠ [])
    (.relayUpload .tipPaymentError
      ("add_tip must be the first composition on a transaction: the relay reads " ++
        s!"the authentication package at input 0, and this transaction already " ++
        s!"holds {txn.inputs.length} input(s) and {txn.commands.length} command(s).")
      "add_tip" none)
  let (txn, _) ← txn.add builder (.inputPure authPackage.bcs)
  let (txn, split) ← txn.add builder (.splitCoin (tipSource paymentCoin) [tipAmount])
  let (txn, _) ← txn.add builder (.transferObjects [split] relayAddress)
  return txn

/-- What is registered, and with what it is paid. -/
structure RegistrationTerms where
  encoded : EncodedBlob
  epochs : Int
  deletable : Bool
  packageId : String
  systemObject : String
  deriving DecidableEq, Repr

variable (terms : RegistrationTerms)

/-- `_encoded_storage_amount` -/
def encodedStorageAmount (encoded : EncodedBlob) : Nat :=
  Redstuff.encodedBlobLength encoded.unencodedLength encoded.nShards

/-- The `reserve_space` call. -/
def reserveSpace (paymentCoin : String) : BuilderCall :=
  .moveCall (terms.packageId ++ "::system::reserve_space")
    [.str terms.systemObject, .int (encodedStorageAmount terms.encoded),
      .int terms.epochs, .str paymentCoin]

/-- The `register_blob` call, on the storage reserved before. -/
def registerBlob (storage : Argument) (blobIdU256 rootHashU256 : Nat)
    (paymentCoin : String) : BuilderCall :=
  .moveCall (terms.packageId ++ "::system::register_blob")
    [.str terms.systemObject, storage, .int blobIdU256, .int rootHashU256,
      .int terms.encoded.unencodedLength, .int Redstuff.rs2EncodingType,
      .bool terms.deletable, .str paymentCoin]

/-- The transaction, and the new Blob in it. -/
def addReserveAndRegister (txn : Txn) (paymentCoin : String) :
    Except PyExn (Txn × Argument) := do
  let (txn, storage) ← txn.add builder (reserveSpace terms paymentCoin)
  let blobIdU256 ← Redstuff.blobIdToU256 terms.encoded.blobId
  let rootHashU256 ← Redstuff.rootHashToU256 terms.encoded.rootHash
  txn.add builder (registerBlob terms storage blobIdU256 rootHashU256 paymentCoin)

/-- The call that sets one attribute of the Blob. -/
def insertAttribute (blob : Argument) (pair : String × String) : BuilderCall :=
  .moveCall (terms.packageId ++ "::blob::insert_or_update_metadata_pair")
    [blob, .str pair.1, .str pair.2]

def addAttributes (txn : Txn) (blob : Argument) :
    List (String × String) → Except PyExn Txn
  | [] => .ok txn
  | pair :: rest => do
      let (txn, _) ← txn.add builder (insertAttribute terms blob pair)
      addAttributes txn blob rest

/-- `if tip is not None: await add_tip(..)` -/
def addTipIfAny (txn : Txn) : Option TipComposition → Except PyExn Txn
  | none => .ok txn
  | some tip =>
      addTip builder txn tip.relayAddress tip.tipAmount tip.authPackage tip.paymentCoin

def addRegistrationSequence (txn : Txn) (recipient walPaymentCoin : String)
    (tip : Option TipComposition) (attributes : List (String × String)) :
    Except PyExn Txn := do
  let txn ← addTipIfAny builder txn tip
  let (txn, blob) ← addReserveAndRegister builder terms txn walPaymentCoin
  let txn ← addAttributes builder terms txn blob attributes
  let (txn, _) ← txn.add builder (.transferObjects [blob] recipient)
  return txn

/-- The `certify_blob` call. -/
def certifyBlob (packageId systemObject blobObjectId : String)
    (certificate : Certificate) : BuilderCall :=
  .moveCall (packageId ++ "::system::certify_blob")
    [.str systemObject, .str blobObjectId, .bytes certificate.aggregateSignature,
      .bytes certificate.signersBitmap, .bytes certificate.serializedMessage]

def addCertify (txn : Txn) (packageId systemObject blobObjectId : String)
    (certificate : Certificate) (recipient : Option String) : Except PyExn Txn := do
  let (txn, _) ← txn.add builder
    (certifyBlob packageId systemObject blobObjectId certificate)
  match recipient with
  | none => return txn
  | some recipient => do
      let (txn, _) ← txn.add builder (.transferObjects [.str blobObjectId] recipient)
      return txn

end Compose

/-! ## What a composed transaction holds -/

section Calls

variable {builder : Builder} {terms : RegistrationTerms} {txn txn' : Txn}

/-- The calls that pay a tip. -/
def tipCalls (tip : TipComposition) : List BuilderCall :=
  [.inputPure tip.authPackage.bcs,
    .splitCoin (tipSource tip.paymentCoin) [tip.tipAmount],
    .transferObjects [.result 0] tip.relayAddress]

theorem addTip_calls {tip : TipComposition}
    (h : addTip builder txn tip.relayAddress tip.tipAmount tip.authPackage
      tip.paymentCoin = .ok txn') :
    txn.calls = [] ∧ txn' = { txn with calls := tipCalls tip } := by
  obtain ⟨_, hfresh, h⟩ := bind_eq_ok.mp h
  obtain ⟨r₁, h₁, h⟩ := bind_eq_ok.mp h
  obtain ⟨-, rfl⟩ := Txn.add_eq_ok.mp h₁
  obtain ⟨r₂, h₂, h⟩ := bind_eq_ok.mp h
  obtain ⟨-, rfl⟩ := Txn.add_eq_ok.mp h₂
  obtain ⟨r₃, h₃, h⟩ := bind_eq_ok.mp h
  obtain ⟨-, rfl⟩ := Txn.add_eq_ok.mp h₃
  have hempty : txn.calls = [] := by
    have hnone := raiseIf_eq_ok.mp hfresh
    rw [not_or, not_ne_iff, not_ne_iff] at hnone
    cases hcalls : txn.calls with
    | nil => rfl
    | cons call rest =>
      -- a call is a command unless it adds an input
      rw [Txn.inputs, Txn.commands, hcalls] at hnone
      cases call <;> simp [BuilderCall.inputs, BuilderCall.isCommand] at hnone
  refine ⟨hempty, ?_⟩
  cases h
  simp [Txn.commands, hempty, tipCalls, BuilderCall.isCommand]

theorem addAttributes_calls {blob : Argument} {attributes : List (String × String)}
    (h : addAttributes builder terms txn blob attributes = .ok txn') :
    txn' = { txn with calls := txn.calls ++ attributes.map (insertAttribute terms blob) } := by
  induction attributes generalizing txn with
  | nil =>
    cases h
    simp
  | cons pair rest ih =>
    obtain ⟨r, hadd, hrest⟩ := bind_eq_ok.mp h
    obtain ⟨-, rfl⟩ := Txn.add_eq_ok.mp hadd
    rw [ih hrest]
    simp

/-- The calls that pay the relay before anything else is composed. -/
def leadingCalls : Option TipComposition → List BuilderCall
  | none => []
  | some tip => tipCalls tip

/-- The command that creates the Blob. -/
def blobCommand : Option TipComposition → Nat
  | none => 1
  | some _ => 3

/-- The calls of a whole Tx1. -/
def registrationCalls (terms : RegistrationTerms) (recipient walPaymentCoin : String)
    (tip : Option TipComposition) (attributes : List (String × String))
    (blobIdU256 rootHashU256 : Nat) : List BuilderCall :=
  leadingCalls tip ++
    [reserveSpace terms walPaymentCoin,
      registerBlob terms (.result (blobCommand tip - 1)) blobIdU256 rootHashU256
        walPaymentCoin] ++
    attributes.map (insertAttribute terms (.result (blobCommand tip))) ++
    [.transferObjects [.result (blobCommand tip)] recipient]

private theorem addReserveAndRegister_calls {coin : String} {blob : Argument}
    (h : addReserveAndRegister builder terms txn coin = .ok (txn', blob)) :
    blob = .result (txn.commands.length + 1) ∧
    ∃ blobIdU256 rootHashU256, txn' = { txn with calls := txn.calls ++
      [reserveSpace terms coin,
        registerBlob terms (.result txn.commands.length) blobIdU256 rootHashU256 coin] } := by
  obtain ⟨r, hadd, h⟩ := bind_eq_ok.mp h
  obtain ⟨-, rfl⟩ := Txn.add_eq_ok.mp hadd
  obtain ⟨blobIdU256, -, h⟩ := bind_eq_ok.mp h
  obtain ⟨rootHashU256, -, h⟩ := bind_eq_ok.mp h
  obtain ⟨-, hr⟩ := Txn.add_eq_ok.mp h
  obtain ⟨rfl, rfl⟩ := Prod.mk.inj hr
  refine ⟨?_, blobIdU256, rootHashU256, ?_⟩
  · rw [Txn.commands, List.filter_append, List.length_append]
    rfl
  · simp

/-- **What a composed Tx1 holds**, on a transaction that was empty. -/
theorem addRegistrationSequence_calls {recipient coin : String}
    {tip : Option TipComposition} {attributes : List (String × String)}
    (hempty : txn.calls = [])
    (h : addRegistrationSequence builder terms txn recipient coin tip attributes =
      .ok txn') :
    ∃ blobIdU256 rootHashU256, txn' = ⟨txn.sender, txn.sponsor,
      registrationCalls terms recipient coin tip attributes blobIdU256 rootHashU256⟩ := by
  obtain ⟨paid, htip, h⟩ := bind_eq_ok.mp h
  have hpaid : paid = { txn with calls := leadingCalls tip } ∧
      paid.commands.length = blobCommand tip - 1 := by
    cases tip with
    | none =>
      cases htip
      exact ⟨by simp [leadingCalls, ← hempty], by simp [Txn.commands, hempty, blobCommand]⟩
    | some tip =>
      obtain ⟨-, rfl⟩ := addTip_calls htip
      exact ⟨rfl, rfl⟩
  obtain ⟨⟨registered, blob⟩, hregister, h⟩ := bind_eq_ok.mp h
  obtain ⟨rfl, blobIdU256, rootHashU256, rfl⟩ := addReserveAndRegister_calls hregister
  obtain ⟨named, hnamed, h⟩ := bind_eq_ok.mp h
  have hattributes := addAttributes_calls hnamed
  obtain ⟨r, hadd, h⟩ := bind_eq_ok.mp h
  obtain ⟨-, rfl⟩ := Txn.add_eq_ok.mp hadd
  cases h
  have hblob : blobCommand tip - 1 + 1 = blobCommand tip := by
    cases tip <;> rfl
  refine ⟨blobIdU256, rootHashU256, ?_⟩
  rw [hattributes, hpaid.2, hblob, hpaid.1]
  simp [registrationCalls]

/-! ### Who receives what a Tx1 creates -/

/-- Is it the call that creates the Blob? -/
def isRegisterBlob (packageId : String) : BuilderCall → Bool
  | .moveCall target _ => target = packageId ++ "::system::register_blob"
  | _ => false

/-- The address the result of a command is transferred to. -/
def recipientOf (txn : Txn) (command : Nat) : Option String :=
  txn.commands.findSome? fun
    | .transferObjects objects recipient =>
        if Argument.result command ∈ objects then some recipient else none
    | _ => none

/-- The address a transaction transfers the Blob it registers to. -/
def newBlobRecipient (packageId : String) (txn : Txn) : Option String :=
  recipientOf txn (txn.commands.findIdx (isRegisterBlob packageId))

/-- The commands that pay the relay. -/
def leadingCommands : Option TipComposition → List BuilderCall
  | none => []
  | some tip =>
      [.splitCoin (tipSource tip.paymentCoin) [tip.tipAmount],
        .transferObjects [.result 0] tip.relayAddress]

theorem commands_registrationCalls {sender recipient coin : String}
    {sponsor : Option String} {tip : Option TipComposition}
    {attributes : List (String × String)} {blobIdU256 rootHashU256 : Nat} :
    (Txn.mk sender sponsor (registrationCalls terms recipient coin tip attributes blobIdU256
        rootHashU256)).commands =
      leadingCommands tip ++
      [reserveSpace terms coin, registerBlob terms (.result (blobCommand tip - 1)) blobIdU256
        rootHashU256 coin] ++
      attributes.map (insertAttribute terms (.result (blobCommand tip))) ++
      [.transferObjects [.result (blobCommand tip)] recipient] := by
  have hleading : (leadingCalls tip).filter BuilderCall.isCommand = leadingCommands tip := by
    cases tip <;> rfl
  have hattributes :
      (attributes.map (insertAttribute terms (.result (blobCommand tip)))).filter
        BuilderCall.isCommand =
      attributes.map (insertAttribute terms (.result (blobCommand tip))) := by
    apply List.filter_eq_self.mpr
    intro call hcall
    obtain ⟨pair, -, rfl⟩ := List.mem_map.mp hcall
    rfl
  simp only [Txn.commands, registrationCalls, List.filter_append, hattributes, hleading]
  rfl

/-- A composed Tx1 hands the new Blob to the recipient it was composed for. -/
theorem newBlobRecipient_registrationCalls {sender recipient coin : String}
    {sponsor : Option String} {tip : Option TipComposition}
    {attributes : List (String × String)} {blobIdU256 rootHashU256 : Nat} :
    newBlobRecipient terms.packageId ⟨sender, sponsor, registrationCalls terms recipient coin
      tip attributes blobIdU256 rootHashU256⟩ = some recipient := by
  have hblob : (Txn.mk sender sponsor (registrationCalls terms recipient coin tip attributes
      blobIdU256 rootHashU256)).commands.findIdx (isRegisterBlob terms.packageId) =
        blobCommand tip := by
    rw [commands_registrationCalls]
    cases tip <;>
      simp [leadingCommands, List.findIdx_cons, reserveSpace, registerBlob, isRegisterBlob,
        blobCommand]
  have hattributes : ∀ f : BuilderCall → Option String,
      (∀ pair, f (insertAttribute terms (.result (blobCommand tip)) pair) = none) →
      (attributes.map (insertAttribute terms (.result (blobCommand tip)))).findSome? f =
        none := by
    intro f hf
    apply List.findSome?_eq_none_iff.mpr
    intro call hcall
    obtain ⟨pair, -, rfl⟩ := List.mem_map.mp hcall
    exact hf pair
  unfold newBlobRecipient recipientOf
  rw [hblob, commands_registrationCalls, List.findSome?_append, List.findSome?_append,
    hattributes _ fun _ => rfl]
  cases tip <;> simp [leadingCommands, reserveSpace, registerBlob, blobCommand]

def isSplitCoin : BuilderCall → Bool
  | .splitCoin .. => true
  | _ => false

def isTransferObjects : BuilderCall → Bool
  | .transferObjects .. => true
  | _ => false

/-- Where the coins go that a transaction splits off. -/
def coinRecipients (txn : Txn) : List String :=
  txn.commands.zipIdx.filterMap fun call =>
    if isSplitCoin call.1 then recipientOf txn call.2 else none

/-- A composed Tx1 splits off the tip, for the relay, and no other coin. -/
theorem coinRecipients_registrationCalls {sender recipient coin : String}
    {sponsor : Option String} {tip : Option TipComposition}
    {attributes : List (String × String)} {blobIdU256 rootHashU256 : Nat} :
    coinRecipients ⟨sender, sponsor, registrationCalls terms recipient coin tip attributes
      blobIdU256 rootHashU256⟩ = tip.toList.map (·.relayAddress) := by
  have hother : ∀ (calls : List BuilderCall) (i : Nat) (f : Nat → Option String),
      (∀ call ∈ calls, isSplitCoin call = false) →
      ((calls.zipIdx i).filterMap fun call =>
        if isSplitCoin call.1 then f call.2 else none) = [] := by
    intro calls i f hcalls
    apply List.filterMap_eq_nil_iff.mpr
    intro call hcall
    have hmem : call.1 ∈ calls := List.fst_mem_of_mem_zipIdx hcall
    rw [hcalls call.1 hmem]
    rfl
  have hrest : ∀ call ∈ [reserveSpace terms coin, registerBlob terms
      (.result (blobCommand tip - 1)) blobIdU256 rootHashU256 coin] ++
      attributes.map (insertAttribute terms (.result (blobCommand tip))) ++
      [.transferObjects [.result (blobCommand tip)] recipient], isSplitCoin call = false := by
    intro call hcall
    simp only [List.mem_append, List.mem_cons, List.mem_map, List.not_mem_nil, or_false] at hcall
    rcases hcall with ((rfl | rfl) | ⟨pair, -, rfl⟩) | rfl <;> rfl
  unfold coinRecipients
  rw [commands_registrationCalls, List.append_assoc, List.append_assoc,
    ← List.append_assoc [reserveSpace terms coin, _]]
  cases tip with
  | none => exact hother _ 0 _ hrest
  | some tip =>
    have hfirst : recipientOf ⟨sender, sponsor, registrationCalls terms recipient coin
        (some tip) attributes blobIdU256 rootHashU256⟩ 0 = some tip.relayAddress := by
      rw [recipientOf, commands_registrationCalls]
      rfl
    rw [leadingCommands, List.cons_append, List.zipIdx_cons, List.filterMap_cons]
    simp only [isSplitCoin, if_true, hfirst]
    exact congrArg (tip.relayAddress :: ·)
      (hother _ 1 _ (List.forall_mem_cons.mpr ⟨rfl, hrest⟩))

/-- The commands of a composed Tx1 that pass a test no Move call passes. -/
theorem filter_registrationCalls {sender recipient coin : String}
    {sponsor : Option String} {tip : Option TipComposition}
    {attributes : List (String × String)} {blobIdU256 rootHashU256 : Nat}
    {p : BuilderCall → Bool} (hp : ∀ target arguments, p (.moveCall target arguments) = false) :
    (Txn.mk sender sponsor (registrationCalls terms recipient coin tip attributes blobIdU256
        rootHashU256)).commands.filter p =
      (leadingCommands tip).filter p ++
        [BuilderCall.transferObjects [.result (blobCommand tip)] recipient].filter p := by
  have hattributes : (attributes.map
      (insertAttribute terms (.result (blobCommand tip)))).filter p = [] := by
    apply List.filter_eq_nil_iff.mpr
    intro call hcall
    obtain ⟨pair, -, rfl⟩ := List.mem_map.mp hcall
    simp [insertAttribute, hp]
  rw [commands_registrationCalls]
  simp [List.filter_append, hattributes, reserveSpace, registerBlob, hp]

theorem addCertify_calls {packageId systemObject objectId : String}
    {certificate : Certificate} {recipient : Option String}
    (h : addCertify builder txn packageId systemObject objectId certificate recipient =
      .ok txn') :
    txn' = ⟨txn.sender, txn.sponsor, txn.calls ++
      certifyBlob packageId systemObject objectId certificate ::
        recipient.toList.map fun address => .transferObjects [.str objectId] address⟩ := by
  obtain ⟨r, hadd, h⟩ := bind_eq_ok.mp h
  obtain ⟨-, rfl⟩ := Txn.add_eq_ok.mp hadd
  cases recipient with
  | none =>
    cases h
    rfl
  | some recipient =>
    obtain ⟨r', hadd', h⟩ := bind_eq_ok.mp h
    obtain ⟨-, rfl⟩ := Txn.add_eq_ok.mp hadd'
    cases h
    simp

end Calls

end Pytusk.Ops
