import Pytusk.Lib.Script
import Pytusk.Tusky.StorageCommands

/-!
# Destroying and burning in batches

`reclaim_storage` and `burn_blob` cut their ids into batches and send one
transaction for each; the first that is not answered with a result ends the
command. The two loops differ in the call, the texts and what is printed after a
batch. Neither looks at the effects, which tell whether the transaction went
through on the chain.
-/

namespace Pytusk.Tusky

open Pytusk.Lib Pytusk.Ops

/-! ## Cutting a list -/

section Slices

variable {α : Type}

/-- `xs[i : i + limit]` for `i` in `range(0, len(xs), limit)` -/
def slices (limit : Nat) (xs : List α) : List (List α) :=
  (List.range ((xs.length + limit - 1) / limit)).map fun k => (xs.drop (k * limit)).take limit

theorem flatten_take_drop (limit : Nat) (xs : List α) (count : Nat) :
    ((List.range count).map fun k => (xs.drop (k * limit)).take limit).flatten =
      xs.take (count * limit) := by
  induction count with
  | zero => simp
  | succ count ih =>
    rw [List.range_succ, List.map_append, List.flatten_append, ih, Nat.succ_mul, List.take_add]
    simp

variable {limit : Nat}

theorem length_le_slices (hpos : 0 < limit) (n : Nat) : n ≤ (n + limit - 1) / limit * limit := by
  have hmod := Nat.mod_lt (n + limit - 1) hpos
  have hdiv := Nat.div_add_mod' (n + limit - 1) limit
  omega

/-- The slices are the list, cut. -/
theorem flatten_slices (hpos : 0 < limit) (xs : List α) : (slices limit xs).flatten = xs := by
  rw [slices, flatten_take_drop, List.take_of_length_le (length_le_slices hpos xs.length)]

theorem of_mem_slices (hpos : 0 < limit) {xs slice : List α} (h : slice ∈ slices limit xs) :
    slice ≠ [] ∧ slice.length ≤ limit := by
  obtain ⟨k, hk, rfl⟩ := List.mem_map.mp h
  have hstart : k * limit < xs.length := by
    have hlt := (Nat.lt_div_iff_mul_lt hpos).mp (List.mem_range.mp hk)
    omega
  refine ⟨?_, List.length_take_le _ _⟩
  rw [← List.length_pos_iff, List.length_take, List.length_drop]
  omega

end Slices

/-! ## The loop -/

/-- `_MAX_STORAGE_OPS_PER_PTB` and `_MAX_BLOB_OPS_PER_PTB` -/
def maxOpsPerPtb : Nat := 100

/-- The texts in which the two commands differ. -/
structure BatchText where
  label : String
  doing : String
  done : String
  noun : String
  deriving DecidableEq, Repr

section Loop

variable {α : Type} (text : BatchText) (call : String → BuilderCall)
  (after : Nat → List String → Except PyExn α) (h : Holdings) (sender : String)
  (sponsor : Option String) (total : Nat)

/-- `batch_num/total_batches (len(batch) ..)` -/
def batchOf (k : Nat) (batch : List String) : String :=
  s!"{k + 1}/{total} ({batch.length} {text.noun})"

/-- What is printed of a batch that did not go through. -/
def batchFailure (k : Nat) (batch : List String) (resultString : String) : String :=
  let batch := batchOf text total k batch
  s!"Error {text.doing} batch {batch}: {resultString}" ++
    if k = 0 then ""
    else s!"\n{k}/{total} batch(es) {text.done} " ++
      "successfully before this failure (see above for their receipts)."

def batchReport (k : Nat) (batch : List String) : String :=
  let batch := batchOf text total k batch
  s!"{text.label} {batch}."

/-- The batches from the `k`-th on, which is counted from zero. -/
def sendBatches (k : Nat) : List (List String) → Sending (List (ExecutedTransaction × α))
  | [] => pure []
  | batch :: rest => do
      match ← send (h.transaction k) sender sponsor (Txn.addEach · call batch) with
      | .failed resultString =>
          Logged.raise (.systemExit (batchFailure text total k batch resultString))
      | .ok data => do
          Logged.emit (.reported (batchReport text total k batch))
          let executed ← Logged.lift (printResult data)
          let printed ← Logged.lift (uncaught (after k batch))
          let results ← sendBatches (k + 1) rest
          return (executed, printed) :: results

/-- What the outside sees of a batch up to the answer. -/
def attempted (batch : List String) : List Sent :=
  let txn : Txn := { sender := sender, sponsor := sponsor, calls := batch.map call }
  [.opened sender sponsor, .signed txn, .submitted txn]

/-- What it sees of a batch that was answered. -/
def settled (batch : List String × Nat) : List Sent :=
  attempted call sender sponsor batch.1 ++ [.reported (batchReport text total batch.2 batch.1)]

/-- `result.is_ok()` -/
def Accepted (k : Nat) : Prop := ∃ data, (h.transaction k).execution = .ok (.ok data)

/-- The effects report that the transaction went through on the chain. -/
def Executed (k : Nat) : Prop :=
  ∃ executed effects status, (h.transaction k).execution = .ok (.ok (some executed)) ∧
    executed.effects = some effects ∧ effects.status = some status ∧ status.success = true

/-- `count` batches went through and were reported; the next one may have failed
on its way, and then it did not go through. What it is to go through is left open. -/
structure Stops {γ : Type} (through : Nat → Prop) (k : Nat) (batches : List (List String))
    (count : Nat) (failing : List Sent) (run : Sending γ) : Prop where
  le : count ≤ batches.length
  log : run.log =
    ((batches.take count).zipIdx k).flatMap (settled text call sender sponsor total) ++ failing
  wentThrough : ∀ i < count, through (k + i)
  failed : failing ≠ [] → ∃ batch, batches[count]? = some batch ∧
    failing.IsPrefix (attempted call sender sponsor batch) ∧
    (failing = attempted call sender sponsor batch → ¬ through (k + count)) ∧
    ∃ e, run.result = .error e
  complete : ∀ c, run.result = .ok c → count = batches.length ∧ failing = []

end Loop

section Stopping

variable {α : Type} {text : BatchText} {call : String → BuilderCall}
  {after : Nat → List String → Except PyExn α} {h : Holdings} {sender : String}
  {sponsor : Option String} {total : Nat}

/-- What `send` leaves of a batch that is submitted. -/
def Submits (call : String → BuilderCall) (h : Holdings) (sender : String)
    (sponsor : Option String) (k : Nat) (batch : List String) : Prop :=
  send (h.transaction k) sender sponsor (Txn.addEach · call batch) =
    ⟨uncaught (h.transaction k).execution, attempted call sender sponsor batch⟩

theorem Executed.accepted {k : Nat} : Executed h k → Accepted h k
  | ⟨executed, _, _, hexecution, _⟩ => ⟨some executed, hexecution⟩

variable (text after total) in
/-- A submitted batch that is not answered with a result. -/
theorem sendBatches_refused {k : Nat} {batch : List String} (rest : List (List String))
    (hsubmits : Submits call h sender sponsor k batch) (hrefused : ¬ Accepted h k) :
    ∃ e, sendBatches text call after h sender sponsor total k (batch :: rest) =
      ⟨.error e, attempted call sender sponsor batch⟩ := by
  rw [sendBatches, hsubmits]
  cases hexecution : (h.transaction k).execution with
  | error e => exact ⟨.raised e, rfl⟩
  | ok result =>
    cases result with
    | ok data => exact absurd ⟨data, hexecution⟩ hrefused
    | failed resultString =>
      refine ⟨.systemExit (batchFailure text total k batch resultString), ?_⟩
      have hanswer : uncaught (.ok (.failed resultString) : ExecuteOutcome ExecutedTransaction) =
          .ok (.failed resultString) := rfl
      rw [hanswer, Logged.mk_ok_bind]
      simp [Logged.after, Logged.raise]

variable (text after total) in
/-- A batch that is answered is reported, whatever its effects say; the others
follow unless printing raises. -/
theorem sendBatches_accepted {k : Nat} {batch : List String} (rest : List (List String))
    (hsubmits : Submits call h sender sponsor k batch) {data : Option ExecutedTransaction}
    (hexecution : (h.transaction k).execution = .ok (.ok data)) :
    sendBatches text call after h sender sponsor total k (batch :: rest) =
      (do
        let executed ← Logged.lift (printResult data)
        let printed ← Logged.lift (uncaught (after k batch))
        let results ← sendBatches text call after h sender sponsor total (k + 1) rest
        return (executed, printed) :: results).after
          (settled text call sender sponsor total (batch, k)) := by
  have hanswer : uncaught (.ok (.ok data) : ExecuteOutcome ExecutedTransaction) =
      .ok (.ok data) := rfl
  rw [sendBatches, hsubmits, hexecution, hanswer, Logged.mk_ok_bind, settled]
  dsimp only
  rw [Logged.emit_bind]
  rfl

variable (text after total) in
theorem sendBatches_reported {k : Nat} {batch : List String} (rest : List (List String))
    (hsubmits : Submits call h sender sponsor k batch) (haccepted : Accepted h k) :
    (∃ e, sendBatches text call after h sender sponsor total k (batch :: rest) =
      ⟨.error e, settled text call sender sponsor total (batch, k)⟩) ∨
    ∃ entry, sendBatches text call after h sender sponsor total k (batch :: rest) =
      (do
        let results ← sendBatches text call after h sender sponsor total (k + 1) rest
        return entry :: results).after (settled text call sender sponsor total (batch, k)) := by
  obtain ⟨data, hexecution⟩ := haccepted
  rw [sendBatches_accepted text after total rest hsubmits hexecution]
  cases hprint : printResult data with
  | error e =>
    refine .inl ⟨e, ?_⟩
    rw [Logged.lift_error_bind]
    simp [Logged.after, Logged.raise]
  | ok executed =>
    cases hafter : after k batch with
    | error e =>
      refine .inl ⟨.raised e, ?_⟩
      have hraised : uncaught (.error e : Except PyExn α) = .error (.raised e) := rfl
      rw [Logged.lift_ok_bind, hraised, Logged.lift_error_bind]
      simp [Logged.after, Logged.raise]
    | ok printed =>
      refine .inr ⟨(executed, printed), ?_⟩
      rw [Logged.lift_ok_bind]
      rfl

variable (text after total) in
/-- A batch that is not submitted, or submitted and not answered with a result. -/
theorem sendBatches_fails {k : Nat} {batch : List String} (rest : List (List String))
    (hfails : ¬ (Submits call h sender sponsor k batch ∧ Accepted h k)) :
    ∃ failing e, failing ≠ [] ∧ failing.IsPrefix (attempted call sender sponsor batch) ∧
      (failing = attempted call sender sponsor batch → ¬ Accepted h k) ∧
      sendBatches text call after h sender sponsor total k (batch :: rest) =
        ⟨.error e, failing⟩ := by
  rcases send_cases (h.transaction k) sender sponsor (Txn.addEach · call batch) with
    ⟨e, hsend⟩ | ⟨txn, e, hcompose, hsend⟩ | ⟨txn, hcompose, hsend⟩
  · refine ⟨[.opened sender sponsor], e, by simp, by simp [attempted], by simp [attempted], ?_⟩
    rw [sendBatches, hsend, Logged.mk_error_bind]
  · refine ⟨[.opened sender sponsor, .signed txn], e, by simp, ?_, by simp [attempted], ?_⟩
    · simp [attempted, Txn.addEach_eq_ok hcompose]
    · rw [sendBatches, hsend, Logged.mk_error_bind]
  · have hsubmits : Submits call h sender sponsor k batch := by
      rw [Submits, hsend]
      simp [attempted, Txn.addEach_eq_ok hcompose]
    have hrefused : ¬ Accepted h k := fun haccepted => hfails ⟨hsubmits, haccepted⟩
    obtain ⟨e, hrun⟩ := sendBatches_refused text after total rest hsubmits hrefused
    exact ⟨_, e, by simp [attempted], List.prefix_refl _, fun _ => hrefused, hrun⟩

variable (text call after h sender sponsor total) in
/-- **A run over the batches stops at the first that is not answered with a
result.** -/
theorem stops_sendBatches (k : Nat) (batches : List (List String)) :
    ∃ count failing, Stops text call sender sponsor total (Accepted h) k batches count failing
      (sendBatches text call after h sender sponsor total k batches) := by
  induction batches generalizing k with
  | nil =>
    refine ⟨0, [], le_rfl, rfl, fun i hi => absurd hi (Nat.not_lt_zero i), fun h => absurd rfl h,
      fun _ _ => ⟨rfl, rfl⟩⟩
  | cons batch rest ih =>
    by_cases hanswered : Submits call h sender sponsor k batch ∧ Accepted h k
    swap
    · -- it fails on its way
      obtain ⟨failing, e, hne, hprefix, hrefused, hrun⟩ :=
        sendBatches_fails text after total rest hanswered
      rw [hrun]
      exact ⟨0, failing, Nat.zero_le _, rfl, fun i hi => absurd hi (Nat.not_lt_zero i),
        fun _ => ⟨batch, rfl, hprefix, hrefused, e, rfl⟩, fun _ h => nomatch h⟩
    obtain ⟨hsubmits, haccepted⟩ := hanswered
    rcases sendBatches_reported text after total rest hsubmits haccepted with
      ⟨e, hrun⟩ | ⟨entry, hrun⟩
    · -- it is answered, and printing it raises
      rw [hrun]
      refine ⟨1, [], by simp, by simp, fun i hi => ?_, fun h => absurd rfl h, fun _ h => nomatch h⟩
      rw [Nat.lt_one_iff.mp hi]
      exact haccepted
    · obtain ⟨count, failing, hstops⟩ := ih (k + 1)
      refine ⟨count + 1, failing, ?_⟩
      rw [hrun]
      constructor
      case le => exact Nat.succ_le_succ hstops.le
      case log =>
        show _ ++ (_ : Logged _ _ _).log = _
        rw [Logged.log_bind_pure, hstops.log, List.take_succ_cons, List.zipIdx_cons,
          List.flatMap_cons, List.append_assoc]
      case wentThrough =>
        intro i hi
        cases i with
        | zero => exact haccepted
        | succ i =>
          rw [Nat.add_succ, ← Nat.succ_add]
          exact hstops.wentThrough i (Nat.lt_of_succ_lt_succ hi)
      case failed =>
        intro hne
        obtain ⟨next, hnext, hprefix, hrefused, e, he⟩ := hstops.failed hne
        refine ⟨next, hnext, hprefix, ?_, e, ?_⟩
        · rwa [Nat.add_succ, ← Nat.succ_add]
        · show (_ >>= _ : Logged _ _ _).result = _
          rw [Logged.result_bind, he, error_bind]
      case complete =>
        intro results hresults
        obtain ⟨rest', hrest, -⟩ := Logged.result_bind_eq_ok.mp hresults
        obtain ⟨hcount, hfailing⟩ := hstops.complete rest' hrest
        exact ⟨by rw [hcount, List.length_cons], hfailing⟩

/-- What is only done to the results changes nothing of it. -/
theorem Stops.map {γ δ : Type} {through : Nat → Prop} {k count : Nat}
    {batches : List (List String)} {failing : List Sent} {run : Sending γ}
    (hstops : Stops text call sender sponsor total through k batches count failing run)
    (f : γ → δ) :
    Stops text call sender sponsor total through k batches count failing
      (run >>= fun c => pure (f c)) where
  le := hstops.le
  log := by rw [Logged.log_bind_pure, hstops.log]
  wentThrough := hstops.wentThrough
  failed hne := by
    obtain ⟨next, hnext, hprefix, hrefused, e, he⟩ := hstops.failed hne
    exact ⟨next, hnext, hprefix, hrefused, e, by rw [Logged.result_bind, he, error_bind]⟩
  complete c hc := by
    obtain ⟨c', hc', -⟩ := Logged.result_bind_eq_ok.mp hc
    exact hstops.complete c' hc'

/-- The same run for a stronger reading of what it is to go through, if the
reported batches go through in that reading too. -/
theorem Stops.strengthen {γ : Type} {through through' : Nat → Prop} {k count : Nat}
    {batches : List (List String)} {failing : List Sent} {run : Sending γ}
    (hstops : Stops text call sender sponsor total through k batches count failing run)
    (hstronger : ∀ i, through' i → through i) (hall : ∀ i < count, through' (k + i)) :
    Stops text call sender sponsor total through' k batches count failing run where
  le := hstops.le
  log := hstops.log
  wentThrough := hall
  failed hne := by
    obtain ⟨next, hnext, hprefix, hrefused, herror⟩ := hstops.failed hne
    exact ⟨next, hnext, hprefix, fun hwhole hthrough => hrefused hwhole (hstronger _ hthrough),
      herror⟩
  complete := hstops.complete

/-! ### Batches that abort on the chain -/

/-- The batches that a log reports. -/
def reportCount (log : List Sent) : Nat :=
  log.countP fun
    | .reported _ => true
    | _ => false

theorem reportCount_settled (batches : List (List String)) (k : Nat) :
    reportCount ((batches.zipIdx k).flatMap (settled text call sender sponsor total)) =
      batches.length := by
  induction batches generalizing k with
  | nil => rfl
  | cons batch rest ih =>
    rw [List.zipIdx_cons, List.flatMap_cons, reportCount, List.countP_append]
    show 1 + reportCount _ = _
    rw [ih, List.length_cons, Nat.add_comm]

/-- What fails on its way is not reported. -/
theorem reportCount_of_prefix {batch : List String} {failing : List Sent}
    (hbefore : failing.IsPrefix (attempted call sender sponsor batch)) :
    reportCount failing = 0 :=
  Nat.le_zero.mp hbefore.sublist.countP_le

theorem reportCount_after_settled {γ : Type} (batch : List String) (k : Nat) (run : Sending γ) :
    reportCount (run.after (settled text call sender sponsor total (batch, k))).log =
      1 + reportCount run.log := by
  show reportCount (settled text call sender sponsor total (batch, k) ++ run.log) = _
  rw [reportCount, List.countP_append]
  rfl

theorem Stops.reportCount_log {γ : Type} {through : Nat → Prop} {k count : Nat}
    {batches : List (List String)} {failing : List Sent} {run : Sending γ}
    (hstops : Stops text call sender sponsor total through k batches count failing run) :
    reportCount run.log = count := by
  have hnone : reportCount failing = 0 := by
    by_cases hfailing : failing = []
    · rw [hfailing]
      rfl
    · obtain ⟨batch, -, hbefore, -⟩ := hstops.failed hfailing
      exact reportCount_of_prefix hbefore
  rw [hstops.log, reportCount, List.countP_append]
  show reportCount _ + reportCount failing = count
  rw [hnone, reportCount_settled, List.length_take, Nat.min_eq_left hstops.le]
  rfl

/-- No batch aborts on the chain, of those that the loop comes to. -/
def NoneAborts (call : String → BuilderCall) (after : Nat → List String → Except PyExn α)
    (h : Holdings) (sender : String) (sponsor : Option String) (k : Nat) :
    List (List String) → Prop
  | [] => True
  | batch :: rest =>
      Submits call h sender sponsor k batch → Accepted h k →
        Executed h k ∧
          ((∃ printed, after k batch = .ok printed) →
            NoneAborts call after h sender sponsor (k + 1) rest)

variable (text total) in
/-- What was reported went through exactly if none aborts. -/
theorem noneAborts_iff (k : Nat) (batches : List (List String)) :
    NoneAborts call after h sender sponsor k batches ↔
      ∀ i < reportCount (sendBatches text call after h sender sponsor total k batches).log,
        Executed h (k + i) := by
  induction batches generalizing k with
  | nil => exact ⟨fun _ i hi => absurd hi (Nat.not_lt_zero i), fun _ => trivial⟩
  | cons batch rest ih =>
    by_cases hanswered : Submits call h sender sponsor k batch ∧ Accepted h k
    swap
    · -- nothing is reported
      obtain ⟨failing, e, -, hprefix, -, hrun⟩ :=
        sendBatches_fails text after total rest hanswered
      have hnone : reportCount failing = 0 := reportCount_of_prefix hprefix
      rw [hrun, hnone]
      exact ⟨fun _ i hi => absurd hi (Nat.not_lt_zero i), fun _ hs ha => absurd ⟨hs, ha⟩ hanswered⟩
    obtain ⟨hsubmits, data, hexecution⟩ := hanswered
    rw [sendBatches_accepted text after total rest hsubmits hexecution, reportCount_after_settled,
      Nat.add_comm, Nat.forall_lt_succ_left]
    have hthen (hexecuted : Executed h k) :
        (∀ i < reportCount (do
            let executed ← Logged.lift (printResult data)
            let printed ← Logged.lift (uncaught (after k batch))
            let results ← sendBatches text call after h sender sponsor total (k + 1) rest
            return (executed, printed) :: results : Sending _).log, Executed h (k + (i + 1))) ↔
          ((∃ printed, after k batch = .ok printed) →
            NoneAborts call after h sender sponsor (k + 1) rest) := by
      obtain ⟨executed, _, _, hsome, -⟩ := hexecuted
      cases hexecution.symm.trans hsome
      have hprint : printResult (some executed) = .ok executed := rfl
      rw [hprint, Logged.lift_ok_bind]
      cases after k batch with
      | error e => exact ⟨fun _ ⟨_, hprinted⟩ => (nomatch hprinted), fun _ i hi => nomatch hi⟩
      | ok printed =>
        have hprinted : uncaught (.ok printed : Except PyExn α) = .ok printed := rfl
        rw [hprinted, Logged.lift_ok_bind, Logged.log_bind_pure]
        have hshift : ∀ i, k + (i + 1) = k + 1 + i := fun i => by omega
        constructor
        · exact fun hrest _ => (ih (k + 1)).mpr fun i hi => hshift i ▸ hrest i hi
        · exact fun hrest i hi => hshift i ▸ (ih (k + 1)).mp (hrest ⟨printed, rfl⟩) i hi
    constructor
    · intro hnone
      obtain ⟨hexecuted, hrest⟩ := hnone hsubmits ⟨data, hexecution⟩
      exact ⟨hexecuted, (hthen hexecuted).mpr hrest⟩
    · rintro ⟨hexecuted, hrest⟩ - -
      exact ⟨hexecuted, (hthen hexecuted).mp hrest⟩

end Stopping

/-! ## What is submitted -/

/-- The command submits the transactions of the script in order, from the
`k`-th on, and none after one that was not answered with a result. -/
abbrev SubmitsInOrder {γ : Type} (h : Holdings) (k : Nat) (script : List Txn)
    (run : Sending γ) : Prop :=
  Script.Follows submittedTxn (Accepted h) k script run

section Batched

variable {text : BatchText} {call : String → BuilderCall} {h : Holdings} {sender : String}
  {sponsor : Option String} {total k : Nat}

theorem mem_of_submitsInOrder {γ : Type} {script : List Txn} {run : Sending γ}
    (hrun : SubmitsInOrder h k script run) {txn : Txn} (htxn : .submitted txn ∈ run.log) :
    txn ∈ script :=
  hrun.inOrder.subset (List.mem_filterMap.mpr ⟨_, htxn, rfl⟩)

/-- The transaction of a batch. -/
def batchTxn (call : String → BuilderCall) (sender : String) (sponsor : Option String)
    (batch : List String) : Txn where
  sender := sender
  sponsor := sponsor
  calls := batch.map call

theorem filterMap_attempted (batch : List String) :
    (attempted call sender sponsor batch).filterMap submittedTxn =
      [batchTxn call sender sponsor batch] := rfl

theorem filterMap_settled (batches : List (List String)) (k : Nat) :
    ((batches.zipIdx k).flatMap (settled text call sender sponsor total)).filterMap submittedTxn =
      batches.map (batchTxn call sender sponsor) := by
  induction batches generalizing k with
  | nil => rfl
  | cons batch rest ih =>
    rw [List.zipIdx_cons, List.flatMap_cons, List.filterMap_append, ih, settled,
      List.filterMap_append, filterMap_attempted]
    rfl

theorem submitsInOrder_of_stops {γ : Type} {count : Nat} {batches : List (List String)}
    {failing : List Sent} {run : Sending γ}
    (hstops : Stops text call sender sponsor total (Accepted h) k batches count failing run) :
    SubmitsInOrder h k (batches.map (batchTxn call sender sponsor)) run := by
  have htaken : Script.taken submittedTxn run =
      (batches.take count).map (batchTxn call sender sponsor) ++
        failing.filterMap submittedTxn := by
    rw [Script.taken, hstops.log, List.filterMap_append, filterMap_settled]
  by_cases hfailing : failing = []
  · -- no batch failed on its way
    rw [hfailing, List.filterMap_nil, List.append_nil] at htaken
    constructor
    case inOrder =>
      rw [htaken]
      exact (List.take_prefix count batches).map _
    case goesOn =>
      intro i hi
      rw [htaken, List.length_map, List.length_take] at hi
      exact hstops.wentThrough i (by omega)
    case complete =>
      intro c hc
      obtain ⟨hcount, -⟩ := hstops.complete c hc
      refine ⟨by rw [htaken, hcount, List.take_length], fun i hi => ?_⟩
      rw [List.length_map, ← hcount] at hi
      exact hstops.wentThrough i hi
  · obtain ⟨batch, hbatch, hprefix, -, e, he⟩ := hstops.failed hfailing
    have hlast : (failing.filterMap submittedTxn).IsPrefix [batchTxn call sender sponsor batch] :=
      hprefix.filterMap submittedTxn
    constructor
    case inOrder =>
      rw [htaken]
      refine ((List.prefix_append_right_inj _).mpr hlast).trans ?_
      have hnext : batches.take (count + 1) = batches.take count ++ [batch] := by
        rw [List.take_add_one, hbatch]
        rfl
      rw [← List.map_singleton, ← List.map_append, ← hnext]
      exact (List.take_prefix (count + 1) batches).map _
    case goesOn =>
      intro i hi
      have hle := hlast.length_le
      rw [htaken, List.length_append, List.length_map, List.length_take] at hi
      rw [List.length_singleton] at hle
      exact hstops.wentThrough i (by omega)
    case complete =>
      intro c hc
      rw [he] at hc
      cases hc

end Batched

end Pytusk.Tusky
