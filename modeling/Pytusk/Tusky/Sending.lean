import Pytusk.Tusky.RelaySimulate

/-!
# The tusky commands that send transactions

What a command that sends transactions asks for, and the course of one such
transaction: it is opened, composed, signed and submitted. Submitting is
executing or simulating, which the commands do not tell apart before they
print the result.
-/

namespace Pytusk.Tusky

open Pytusk.Lib Pytusk.Ops

/-- What the outside sees of a command. -/
inductive Sent where
  /-- `client.transaction(initial_sender=.., initial_sponsor=..)` -/
  | opened (sender : String) (sponsor : Option String)
  /-- `txn.build_and_sign()` -/
  | signed (txn : Txn)
  | submitted (txn : Txn)
  /-- the line that reports a transaction that went through -/
  | reported (line : String)
  deriving DecidableEq, Repr

abbrev Sending := Logged Sent CliExn

/-- What answers a command besides the `World`: objects by the text that names
them, what the sender owns, and each transaction in turn. -/
structure Holdings where
  /-- `network.network_type == NetworkType.PRODUCTION` -/
  production : Bool
  getObject : String → ExecuteOutcome ObjectView
  ownedObjects : ExecuteOutcome (List ObjectView)
  walrusEpoch : Except PyExn Int
  transaction : Nat → TxAnswers

/-- Not caught by the command. -/
def uncaught {α : Type} (r : Except PyExn α) : Except CliExn α := r.mapError .raised

/-- The parties a command signs for. -/
def signersOrExit (w : World) (book : AddressBook) (sender sponsor : Option String) :
    Except CliExn (String × Option String) :=
  orExit PyExn.isValueError
    (fun e => s!"Error resolving --sender/--sponsor: {e.message}") do
      let sender ← resolveSender w book sender
      let sponsor ← resolveSponsor book sponsor
      return (sender, sponsor)

/-- One transaction, up to the result of submitting it. -/
def send (answers : TxAnswers) (sender : String) (sponsor : Option String)
    (compose : Builder → Txn → Except PyExn Txn) :
    Sending (SuiRpcResult ExecutedTransaction) := do
  Logged.emit (.opened sender sponsor)
  Logged.lift (uncaught answers.opening)
  let txn ← Logged.lift <| uncaught <|
    compose answers.builder { sender := sender, sponsor := sponsor, calls := [] }
  Logged.emit (.signed txn)
  Logged.lift (uncaught answers.signing)
  Logged.emit (.submitted txn)
  Logged.lift (uncaught answers.execution)

/-- **What one transaction can come to**: it is not signed, or signed and not
submitted, or submitted and answered. -/
theorem send_cases (answers : TxAnswers) (sender : String) (sponsor : Option String)
    (compose : Builder → Txn → Except PyExn Txn) :
    (∃ e, send answers sender sponsor compose = ⟨.error e, [.opened sender sponsor]⟩) ∨
    (∃ txn e, compose answers.builder ⟨sender, sponsor, []⟩ = .ok txn ∧
      send answers sender sponsor compose =
        ⟨.error e, [.opened sender sponsor, .signed txn]⟩) ∨
    ∃ txn, compose answers.builder ⟨sender, sponsor, []⟩ = .ok txn ∧
      send answers sender sponsor compose =
        ⟨uncaught answers.execution, [.opened sender sponsor, .signed txn, .submitted txn]⟩ := by
  unfold send
  simp only [Logged.emit_bind]
  cases hopening : answers.opening with
  | error e => exact .inl ⟨_, rfl⟩
  | ok _ =>
    cases hcompose : compose answers.builder ⟨sender, sponsor, []⟩ with
    | error e => exact .inl ⟨_, rfl⟩
    | ok txn =>
      cases hsigning : answers.signing with
      | error e => exact .inr (.inl ⟨txn, _, rfl, rfl⟩)
      | ok _ => exact .inr (.inr ⟨txn, rfl, rfl⟩)

/-- `result.result_data.to_json(..)`, which is printed. -/
def printResult (data : Option ExecutedTransaction) : Except CliExn ExecutedTransaction :=
  uncaught (World.resultData "to_json" data)

/-- One transaction with its failure and its report. -/
def sendOrExit (answers : TxAnswers) (sender : String) (sponsor : Option String)
    (compose : Builder → Txn → Except PyExn Txn) (failure : String → String)
    (report : String) : Sending ExecutedTransaction := do
  match ← send answers sender sponsor compose with
  | .failed resultString => Logged.raise (.systemExit (failure resultString))
  | .ok data => do
      Logged.emit (.reported report)
      printResult data

/-- Fetch the Blob object that an argument names. -/
def fetchBlobObject (h : Holdings) (objectId : String) : Except CliExn ObjectView := do
  match ← uncaught (h.getObject objectId) with
  | .failed resultString => .error (.systemExit s!"Error fetching blob object: {resultString}")
  | .ok none =>
      .error (.raised (.attributeError "'NoneType' object has no attribute 'object_type'"))
  | .ok (some obj) =>
      if BlobFields.isBlobObject obj then .ok obj
      else .error (.systemExit s!"{objectId} is not a Walrus Blob object.")

theorem fetchBlobObject_eq_ok {h : Holdings} {objectId : String} {obj : ObjectView} :
    fetchBlobObject h objectId = .ok obj ↔
      h.getObject objectId = .ok (.ok (some obj)) ∧ BlobFields.isBlobObject obj := by
  unfold fetchBlobObject
  rw [bind_eq_ok]
  constructor
  · rintro ⟨result, hresult, hfetch⟩
    have hget := mapError_eq_ok.mp hresult
    split at hfetch
    · cases hfetch
    · cases hfetch
    · split at hfetch
      · rename_i hblob
        cases hfetch
        exact ⟨hget, hblob⟩
      · cases hfetch
  · rintro ⟨hget, hblob⟩
    exact ⟨_, mapError_eq_ok.mpr hget, if_pos hblob⟩

def submittedTxn : Sent → Option Txn
  | .submitted txn => some txn
  | _ => none

/-- What is submitted is what was composed, whatever is done with the answer. -/
theorem submitted_send_bind {α : Type} {answers : TxAnswers} {sender : String}
    {sponsor : Option String} {compose : Builder → Txn → Except PyExn Txn}
    {f : SuiRpcResult ExecutedTransaction → Sending α} {txn : Txn}
    (hquiet : ∀ result, (f result).log.filterMap submittedTxn = [])
    (h : .submitted txn ∈ (send answers sender sponsor compose >>= f).log) :
    compose answers.builder ⟨sender, sponsor, []⟩ = .ok txn := by
  rcases Logged.mem_log_bind.mp h with hmem | ⟨result, -, hmem⟩
  · rcases send_cases answers sender sponsor compose with
      ⟨e, hsend⟩ | ⟨composed, e, -, hsend⟩ | ⟨composed, hcompose, hsend⟩
    · simp [hsend] at hmem
    · simp [hsend] at hmem
    · have htxn : txn = composed := by simpa [hsend] using hmem
      rw [htxn]
      exact hcompose
  · have hin : txn ∈ (f result).log.filterMap submittedTxn :=
      List.mem_filterMap.mpr ⟨_, hmem, rfl⟩
    rw [hquiet result] at hin
    cases hin

theorem submitted_sendOrExit {answers : TxAnswers} {sender : String} {sponsor : Option String}
    {compose : Builder → Txn → Except PyExn Txn} {failure : String → String} {report : String}
    {txn : Txn}
    (h : .submitted txn ∈ (sendOrExit answers sender sponsor compose failure report).log) :
    compose answers.builder ⟨sender, sponsor, []⟩ = .ok txn := by
  refine submitted_send_bind (fun result => ?_) h
  cases result with
  | failed resultString => rfl
  | ok data => rfl

end Pytusk.Tusky
