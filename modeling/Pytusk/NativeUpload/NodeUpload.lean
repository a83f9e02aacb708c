import Pytusk.NativeUpload.Fanout

/-!
# What one node's task guarantees

An invariant of `_upload_node` over its whole run (`NodeInv`): sliver PUTs are
sent after the metadata was acknowledged, and a sliver task that returned
`True` was acknowledged. A node that ends with a succeeded outcome has
therefore stored every sliver of its shards (`NodeInv.stored`).
-/

namespace Pytusk.SliverFanout

open Pytusk.Lib Pytusk.Certification Pytusk.CommitteeFanout

variable {u : Upload} {m : WalrusCommitteeMember} {s s' : NodeState}

/-! ## What the wire must have seen -/

/-- No sliver is sent before the node has acknowledged the metadata. -/
def MetadataFirst (u : Upload) (m : WalrusCommitteeMember) (log : List WireEvent) : Prop :=
  ∀ front baseUrl blobId pairIndex sliverType data,
    front ++ [.sent baseUrl (.writeSliver blobId pairIndex sliverType data)] <+: log →
    .acknowledged m.baseUrl (metadataCommand u) ∈ front

/-- Both slivers of every shard the node holds were acknowledged, each under
its own pair index. -/
def Stored (u : Upload) (m : WalrusCommitteeMember) (log : List WireEvent) : Prop :=
  ∀ shard ∈ m.shardIndices, ∃ pair, u.encoded.slivers[shard]? = some pair ∧
    ∀ command ∈ pairCommands u pair, .acknowledged m.baseUrl command ∈ log

/-- What a task's end says about the wire. -/
def TaskSound (m : WalrusCommitteeMember) (log : List WireEvent) :
    WriteCommand × PutState → Prop
  | (command, .done (.returned (true, _))) => .acknowledged m.baseUrl command ∈ log
  | (_, .done (.returned (false, reason))) => reason.isSome = true
  | _ => True

theorem TaskSound.append {log : List WireEvent} {task : WriteCommand × PutState}
    (h : TaskSound m log task) (new : List WireEvent) : TaskSound m (log ++ new) task := by
  rcases task with ⟨command, attempt | attempt | ⟨⟨ok, reason⟩ | e | _⟩⟩
  case done.returned =>
    cases ok with
    | true => exact List.mem_append_left _ h
    | false => exact h
  all_goals trivial

/-- A PUT that ends well was just acknowledged. -/
theorem taskSound_putStep {maxNodeConnections maxRetries : Int} {put put' : PutState}
    {a : PutAction} (h : putStep maxNodeConnections maxRetries put a = some put')
    (log : List WireEvent) (command : WriteCommand) :
    TaskSound m (log ++ wireEvents m.baseUrl command a) (command, put') := by
  cases put with
  | waiting attempt =>
    cases a with
    | send =>
      simp only [putStep, Option.ite_none_left_eq_some, Option.some.injEq] at h
      obtain ⟨-, rfl⟩ := h
      trivial
    | answer outcome => simp [putStep] at h
    | cancel =>
      simp only [putStep, Option.some.injEq] at h
      subst h
      trivial
  | inFlight attempt =>
    cases a with
    | send => simp [putStep] at h
    | cancel =>
      simp only [putStep, Option.some.injEq] at h
      subst h
      trivial
    | answer outcome =>
      rcases outcome with e | result
      · simp only [putStep, Option.some.injEq] at h
        subst h
        trivial
      · cases result with
        | ok data =>
          simp only [putStep, Option.some.injEq] at h
          subst h
          simp [TaskSound, wireEvents]
        | failed text =>
          simp only [putStep] at h
          split at h <;> cases h <;> simp [TaskSound]
  | done result => cases a <;> simp [putStep] at h

/-- An action adds at most one event, about its own command. -/
theorem wireEvents_cases (baseUrl : String) (command : WriteCommand) (a : PutAction) :
    wireEvents baseUrl command a = [] ∨
      wireEvents baseUrl command a = [.sent baseUrl command] ∨
      wireEvents baseUrl command a = [.acknowledged baseUrl command] := by
  unfold wireEvents
  split <;> simp

theorem MetadataFirst.append {log : List WireEvent} (h : MetadataFirst u m log)
    {command : WriteCommand}
    (hready : command = metadataCommand u ∨
      .acknowledged m.baseUrl (metadataCommand u) ∈ log) (a : PutAction) :
    MetadataFirst u m (log ++ wireEvents m.baseUrl command a) := by
  intro front baseUrl blobId pairIndex sliverType data hprefix
  rcases wireEvents_cases m.baseUrl command a with hnew | hnew | hnew
  · rw [hnew, List.append_nil] at hprefix
    exact h _ _ _ _ _ _ hprefix
  · rw [hnew] at hprefix
    rcases List.prefix_concat_iff.mp hprefix with heq | hold
    · obtain ⟨rfl, hlast⟩ := List.append_inj' heq rfl
      rcases hready with rfl | hack
      · simp [metadataCommand] at hlast
      · exact hack
    · exact h _ _ _ _ _ _ hold
  · rw [hnew] at hprefix
    rcases List.prefix_concat_iff.mp hprefix with heq | hold
    · obtain ⟨-, hlast⟩ := List.append_inj' heq rfl
      simp at hlast
    · exact h _ _ _ _ _ _ hold

/-! ## The invariant -/

/-- The metadata has been acknowledged and the sliver tasks are those of the
node's shards. -/
structure Ready (u : Upload) (m : WalrusCommitteeMember) (log : List WireEvent)
    (tasks : List (WriteCommand × PutState)) : Prop where
  acknowledged : .acknowledged m.baseUrl (metadataCommand u) ∈ log
  specs : putSpecs u m = .ok (tasks.map Prod.fst)

/-- The task has returned `True`. -/
def Succeeded (tasks : List (WriteCommand × PutState)) (i : Nat) : Prop :=
  ∃ command reason, tasks[i]? = some (command, .done (.returned (true, reason)))

/-- What a succeeded outcome stands for. -/
structure OutcomeSound (u : Upload) (m : WalrusCommitteeMember) (log : List WireEvent)
    (outcome : NodeUploadOutcome) : Prop where
  nodeId : outcome.nodeId = m.nodeId
  weight : outcome.weight = m.weight
  position : u.committee.positionOf m.nodeId = .ok outcome.position
  reason : outcome.succeeded = outcome.reason.isNone
  stored : outcome.succeeded = true → Stored u m log

def NodeState.AtPhase (u : Upload) (m : WalrusCommitteeMember) (s : NodeState) :
    NodePhase → Prop
  | .metadata put => s.tasks = [] ∧ put.isDone = false
  | .slivers pending =>
      (Ready u m s.log s.tasks ∧ ∀ i ∈ pending, i < s.tasks.length) ∧ pending ≠ [] ∧
        ∀ i < s.tasks.length, i ∉ pending → Succeeded s.tasks i
  | .cleanup pending _ => Ready u m s.log s.tasks ∧ ∀ i ∈ pending, i < s.tasks.length
  | .ended result => ∀ outcome, result = .returned outcome → OutcomeSound u m s.log outcome

structure NodeInv (u : Upload) (m : WalrusCommitteeMember) (s : NodeState) : Prop where
  first : MetadataFirst u m s.log
  sound : ∀ task ∈ s.tasks, TaskSound m s.log task
  phase : s.AtPhase u m s.phase

/-! ## Ends -/

theorem outcomeSound_endNode {log : List WireEvent} {reason : Option String}
    (hstored : reason = none → Stored u m log) {outcome : NodeUploadOutcome}
    (h : endNode u m reason = .returned outcome) : OutcomeSound u m log outcome := by
  unfold endNode at h
  split at h
  · cases h
  · rename_i position hpos
    cases h
    exact ⟨rfl, rfl, hpos, rfl, fun hs => hstored (Option.isNone_iff_eq_none.mp hs)⟩

private theorem outcomeSound_failed {log : List WireEvent} (reason : String)
    (outcome : NodeUploadOutcome) (h : endNode u m (some reason) = .returned outcome) :
    OutcomeSound u m log outcome := by
  refine outcomeSound_endNode (fun hnone => ?_) h
  cases hnone

/-- Once every sliver task has returned `True`, everything is stored. -/
theorem Ready.stored {log : List WireEvent} {tasks : List (WriteCommand × PutState)}
    (h : Ready u m log tasks) (hsound : ∀ task ∈ tasks, TaskSound m log task)
    (hall : ∀ i < tasks.length, Succeeded tasks i) : Stored u m log := by
  have hack : ∀ command ∈ tasks.map Prod.fst, .acknowledged m.baseUrl command ∈ log := by
    intro command hc
    obtain ⟨⟨c, put⟩, htask, rfl⟩ := List.mem_map.mp hc
    obtain ⟨i, hi⟩ := List.getElem?_of_mem htask
    obtain ⟨c', reason, hdone⟩ := hall i (List.getElem?_eq_some_iff.mp hi).1
    have hput := Prod.mk.inj (Option.some.inj (hi.symm.trans hdone))
    have := hsound _ htask
    simpa [TaskSound, hput.2] using this
  obtain ⟨pairs, hpairs, hspecs⟩ := bind_eq_ok.mp h.specs
  intro shard hshard
  obtain ⟨pair, hpair, hfound⟩ := exists_mem_of_mapM hpairs hshard
  refine ⟨pair, ?_, fun command hc => hack command ?_⟩
  · split at hfound
    · rename_i found hget
      cases hfound
      exact hget
    · cases hfound
  · rw [← Except.ok.inj hspecs]
    exact List.mem_flatMap.mpr ⟨pair, hpair, hc⟩

/-- The invariant at the end of a node's task. -/
private theorem nodeInv_ended (hfirst : MetadataFirst u m s.log)
    (hsound : ∀ task ∈ s.tasks, TaskSound m s.log task)
    {result : TaskResult PyExn NodeUploadOutcome}
    (h : ∀ outcome, result = .returned outcome → OutcomeSound u m s.log outcome) :
    NodeInv u m { s with phase := .ended result } :=
  ⟨hfirst, hsound, h⟩

private theorem nodeInv_leaveNode (hinv : NodeInv u m s) (hready : Ready u m s.log s.tasks)
    {pending : List Nat} (hpending : ∀ i ∈ pending, i < s.tasks.length)
    (leaving : Leaving) : NodeInv u m (leaveNode u m pending leaving s) := by
  unfold leaveNode
  split
  · cases leaving with
    | failed reason =>
      exact nodeInv_ended hinv.first hinv.sound (outcomeSound_failed reason)
    | cancelled => exact nodeInv_ended hinv.first hinv.sound fun _ h => nomatch h
  · exact ⟨hinv.first, hinv.sound, hready, hpending⟩

/-! ## Each step keeps it -/

theorem nodeInv_start : NodeInv u m (startNode u) := by
  refine ⟨?_, ?_, ?_⟩
  · intro front _ _ _ _ _ hprefix
    simp [startNode] at hprefix
  · intro task htask
    simp [startNode] at htask
  · simp only [startNode]
    split
    · intro outcome h
      cases h
    · exact ⟨rfl, rfl⟩

/-- The metadata PUT is over; `s` already carries what the wire saw of it. -/
private theorem nodeInv_afterMetadata (hfirst : MetadataFirst u m s.log)
    (htasks : s.tasks = []) {result : PutResult}
    (hack : TaskSound m s.log (metadataCommand u, .done result)) :
    NodeInv u m (afterMetadata u m s result) := by
  have hsound : ∀ task ∈ s.tasks, TaskSound m s.log task := by
    intro task htask
    simp [htasks] at htask
  cases result with
  | raised e => exact nodeInv_ended hfirst hsound fun _ h => nomatch h
  | cancelled => exact nodeInv_ended hfirst hsound fun _ h => nomatch h
  | returned pair =>
    obtain ⟨ok, reason⟩ := pair
    cases ok with
    | false => exact nodeInv_ended hfirst hsound (outcomeSound_failed _)
    | true =>
      -- the metadata is stored: the sliver tasks are created
      simp only [SliverFanout.afterMetadata]
      split
      · exact nodeInv_ended hfirst hsound fun _ h => nomatch h
      · rename_i hspecs
        have hready : Ready u m s.log s.tasks := ⟨hack, by rw [hspecs, htasks]; rfl⟩
        have hnone : ∀ i < s.tasks.length, Succeeded s.tasks i := by
          intro i hi
          simp [htasks] at hi
        exact nodeInv_ended hfirst hsound fun _ h =>
          outcomeSound_endNode (fun _ => hready.stored hsound hnone) h
      · rename_i specs hne hspecs
        refine ⟨hfirst, ?_, ⟨⟨hack, ?_⟩, ?_⟩, ?_, ?_⟩
        · intro task htask
          obtain ⟨command, -, rfl⟩ := List.mem_map.mp htask
          trivial
        · simp [hspecs, Function.comp_def]
        · intro i hi
          rw [List.length_map]
          exact List.mem_range.mp hi
        · have hsome : specs ≠ [] := hne
          simpa using hsome
        · intro i hi hnot
          rw [List.length_map] at hi
          exact absurd (List.mem_range.mpr hi) hnot

private theorem NodeInv.sliver {i : Nat} {command : WriteCommand} {put put' : PutState}
    {a : PutAction} (hinv : NodeInv u m s) (hready : Ready u m s.log s.tasks)
    (hlive : ∀ result, s.phase ≠ .ended result)
    (htask : s.tasks[i]? = some (command, put))
    (hput : putStep u.maxNodeConnections u.maxRetries put a = some put') :
    NodeInv u m { s with
      tasks := s.tasks.set i (command, put')
      log := s.log ++ wireEvents m.baseUrl command a } := by
  obtain ⟨hlt, hget⟩ := List.getElem?_eq_some_iff.mp htask
  have hfst : (s.tasks.set i (command, put')).map Prod.fst = s.tasks.map Prod.fst := by
    apply List.ext_getElem?
    intro j
    by_cases hij : i = j
    · subst hij; simp [hlt, hget]
    · simp [List.getElem?_set_ne hij]
  have hready' : Ready u m (s.log ++ wireEvents m.baseUrl command a)
      (s.tasks.set i (command, put')) :=
    ⟨List.mem_append_left _ hready.acknowledged, by rw [hfst]; exact hready.specs⟩
  refine ⟨hinv.first.append (.inr hready.acknowledged) a, ?_, ?_⟩
  · intro task hmem
    rcases List.mem_or_eq_of_mem_set hmem with hold | rfl
    · exact (hinv.sound task hold).append _
    · exact taskSound_putStep hput s.log command
  · have hp := hinv.phase
    show NodeState.AtPhase u m _ s.phase
    cases hphase : s.phase with
    | metadata p =>
      rw [hphase] at hp
      rw [hp.1] at htask
      cases htask
    | slivers pending =>
      rw [hphase] at hp
      refine ⟨⟨hready', ?_⟩, hp.2.1, fun j hj hnot => ?_⟩
      · rw [List.length_set]
        exact hp.1.2
      rw [List.length_set] at hj
      obtain ⟨c, reason, hdone⟩ := hp.2.2 j hj hnot
      -- a task that has returned takes no further step
      have hne : i ≠ j := by
        rintro rfl
        cases Option.some.inj (htask.symm.trans hdone)
        cases a <;> simp [putStep] at hput
      exact ⟨c, reason, by rw [List.getElem?_set_ne hne, hdone]⟩
    | cleanup pending leaving =>
      rw [hphase] at hp
      refine ⟨hready', ?_⟩
      rw [List.length_set]
      exact hp.2
    | ended result => exact absurd hphase (hlive result)

/-- A scan that finds no failure has seen only tasks that returned `True`. -/
private theorem succeeded_of_failedReason (hsound : ∀ task ∈ s.tasks, TaskSound m s.log task)
    {done : List Nat} (hdone : ∀ i ∈ done, s.isDone i = true)
    (h : failedReason s done = none) : ∀ i ∈ done, Succeeded s.tasks i := by
  induction done with
  | nil => intro i hi; cases hi
  | cons j rest ih =>
    obtain ⟨hj, hrest⟩ := List.forall_mem_cons.mp hdone
    cases htask : s.tasks[j]? with
    | none => simp [NodeState.isDone, htask] at hj
    | some task =>
      have hjsound := hsound task (List.mem_of_getElem? htask)
      rcases task with ⟨command, attempt | attempt | ⟨⟨ok, reason⟩ | e | _⟩⟩
      case done.returned =>
        cases ok with
        | true =>
          simp only [failedReason, htask] at h
          intro i hi
          rcases List.mem_cons.mp hi with rfl | hi
          · exact ⟨command, reason, htask⟩
          · exact ih hrest h i hi
        | false =>
          simp only [failedReason, htask] at h
          rw [h] at hjsound
          cases hjsound
      all_goals simp [NodeState.isDone, PutState.isDone, failedReason, htask] at hj h

private theorem NodeInv.wake {pending done : List Nat} (hinv : NodeInv u m s)
    (hphase : s.phase = .slivers pending) (hdone : done.Perm (pending.filter s.isDone)) :
    NodeInv u m (wakeNode u m pending done s) := by
  have hp := hinv.phase
  rw [hphase] at hp
  obtain ⟨⟨hready, hlt⟩, -, hsucceeded⟩ := hp
  have hlt' : ∀ i ∈ pending.filter (fun i => !s.isDone i), i < s.tasks.length :=
    fun i hi => hlt i (List.mem_filter.mp hi).1
  simp only [wakeNode]
  split
  · exact nodeInv_leaveNode hinv hready hlt' _
  · rename_i hnone
    have hgood : ∀ i < s.tasks.length, i ∉ pending.filter (fun i => !s.isDone i) →
        Succeeded s.tasks i := by
      intro i hi hnot
      by_cases hpending : i ∈ pending
      · have hmem : i ∈ done := hdone.mem_iff.mpr (by simpa [hpending] using hnot)
        exact succeeded_of_failedReason hinv.sound
          (fun j hj => (List.mem_filter.mp (hdone.mem_iff.mp hj)).2) hnone i hmem
      · exact hsucceeded i hi hpending
    split
    · rename_i hnil
      rw [hnil] at hgood
      exact nodeInv_ended hinv.first hinv.sound fun _ h =>
        outcomeSound_endNode (fun _ => hready.stored hinv.sound fun i hi =>
          hgood i hi (by simp)) h
    · rename_i hne
      exact ⟨hinv.first, hinv.sound, ⟨hready, hlt'⟩, hne, hgood⟩

/-- **A node's task keeps its invariant**, whatever it does next. -/
theorem NodeInv.step {a : NodeAction} (hinv : NodeInv u m s)
    (h : nodeStep u m s a = some s') : NodeInv u m s' := by
  cases a with
  | metadata a =>
    cases hphase : s.phase with
    | metadata put =>
      simp only [nodeStep, hphase] at h
      obtain ⟨put', hput, h⟩ := Option.bind_eq_some_iff.mp h
      have hp := hinv.phase
      rw [hphase] at hp
      have hfirst : MetadataFirst u m (s.log ++ wireEvents m.baseUrl (metadataCommand u) a) :=
        hinv.first.append (.inl rfl) a
      have hlive : put'.isDone = false → NodeInv u m { s with
          phase := .metadata put'
          log := s.log ++ wireEvents m.baseUrl (metadataCommand u) a } :=
        fun hnot => ⟨hfirst, fun task htask => by simp [hp.1] at htask, hp.1, hnot⟩
      cases put' with
      | waiting attempt => cases h; exact hlive rfl
      | inFlight attempt => cases h; exact hlive rfl
      | done result =>
        cases h
        refine nodeInv_afterMetadata ?_ ?_ ?_
        · exact hfirst
        · exact hp.1
        · exact taskSound_putStep hput s.log (metadataCommand u)
    | _ => simp [nodeStep, hphase] at h
  | sliver i a =>
    have hp := hinv.phase
    cases htask : s.tasks[i]? with
    | none => cases hphase : s.phase <;> simp [nodeStep, hphase, htask] at h
    | some task =>
      obtain ⟨command, put⟩ := task
      have hready : Ready u m s.log s.tasks ∧ ∀ result, s.phase ≠ .ended result := by
        cases hphase : s.phase with
        | slivers pending => rw [hphase] at hp; exact ⟨hp.1.1, by simp⟩
        | cleanup pending leaving => rw [hphase] at hp; exact ⟨hp.1, by simp⟩
        | _ => simp [nodeStep, hphase] at h
      have hstep : (putStep u.maxNodeConnections u.maxRetries put a).bind (fun put' =>
          some { s with
            tasks := s.tasks.set i (command, put')
            log := s.log ++ wireEvents m.baseUrl command a }) = some s' := by
        cases hphase : s.phase <;> simp_all [nodeStep]
      obtain ⟨put', hput, h⟩ := Option.bind_eq_some_iff.mp hstep
      cases h
      exact hinv.sliver hready.1 hready.2 htask hput
  | wake done =>
    cases hphase : s.phase with
    | slivers pending =>
      simp only [nodeStep, hphase, Option.ite_none_right_eq_some, Option.some.injEq] at h
      obtain ⟨⟨-, hdone⟩, rfl⟩ := h
      exact hinv.wake hphase hdone
    | _ => simp [nodeStep, hphase] at h
  | cleaned =>
    have hp := hinv.phase
    cases hphase : s.phase with
    | cleanup pending leaving =>
      simp only [nodeStep, hphase, Option.ite_none_right_eq_some, Option.some.injEq] at h
      obtain ⟨-, rfl⟩ := h
      rw [hphase] at hp
      exact nodeInv_leaveNode hinv hp.1 (by simp) _
    | _ => simp [nodeStep, hphase] at h
  | cancel =>
    have hp := hinv.phase
    cases hphase : s.phase with
    | metadata put =>
      simp only [nodeStep, hphase, Option.some.injEq] at h
      subst h
      exact nodeInv_ended hinv.first hinv.sound fun _ h => nomatch h
    | slivers pending =>
      simp only [nodeStep, hphase, Option.some.injEq] at h
      subst h
      rw [hphase] at hp
      exact nodeInv_leaveNode hinv hp.1.1 hp.1.2 _
    | cleanup pending leaving =>
      simp only [nodeStep, hphase, Option.some.injEq] at h
      subst h
      rw [hphase] at hp
      exact ⟨hinv.first, hinv.sound, hp⟩
    | ended result => simp [nodeStep, hphase] at h

/-- A task that has ended takes no further step. -/
theorem nodeStep_ended {result : TaskResult PyExn NodeUploadOutcome}
    (hphase : s.phase = .ended result) (a : NodeAction) : nodeStep u m s a = none := by
  cases a with
  | sliver i a => cases htask : s.tasks[i]? <;> simp [nodeStep, hphase]
  | _ => simp [nodeStep, hphase]

/-! ## The task ends -/

/-- What brings a PUT to its end: the next attempt is sent and stored. -/
def PutState.remaining : PutState → List PutAction
  | .waiting _ => [.send, .answer (.ok (.ok none))]
  | .inFlight _ => [.answer (.ok (.ok none))]
  | .done _ => []

theorem run_remaining {maxNodeConnections : Int} (hpermits : maxNodeConnections ≠ 0)
    (maxRetries : Int) (put : PutState) :
    ∃ result, Lts.run (putStep maxNodeConnections maxRetries) put put.remaining =
      some (.done result) := by
  cases put with
  | waiting attempt =>
    refine ⟨.returned (true, none), ?_⟩
    simp [PutState.remaining, Lts.run_cons, putStep, hpermits]
  | inFlight attempt => exact ⟨_, rfl⟩
  | done result => exact ⟨result, rfl⟩

/-- The node waits for its sliver tasks. -/
def NodeState.AwaitsSlivers (s : NodeState) : Prop :=
  (∃ pending, s.phase = .slivers pending) ∨ ∃ pending leaving, s.phase = .cleanup pending leaving

private theorem nodeStep_sliver {i : Nat} {command : WriteCommand} {put put' : PutState}
    {a : PutAction} (hwait : s.AwaitsSlivers) (htask : s.tasks[i]? = some (command, put))
    (hput : putStep u.maxNodeConnections u.maxRetries put a = some put') :
    nodeStep u m s (.sliver i a) = some { s with
      tasks := s.tasks.set i (command, put')
      log := s.log ++ wireEvents m.baseUrl command a } := by
  rcases hwait with ⟨pending, hphase⟩ | ⟨pending, leaving, hphase⟩ <;>
    simp [nodeStep, hphase, htask, hput]

/-- A run of one sliver task inside the node's. -/
private theorem exists_run_sliver {i : Nat} {command : WriteCommand} {put : PutState}
    {as : List PutAction} {put' : PutState} (hwait : s.AwaitsSlivers)
    (htask : s.tasks[i]? = some (command, put))
    (hrun : Lts.run (putStep u.maxNodeConnections u.maxRetries) put as = some put') :
    ∃ log, Lts.run (nodeStep u m) s (as.map (.sliver i)) =
      some { s with tasks := s.tasks.set i (command, put'), log := log } := by
  induction as generalizing s put with
  | nil =>
    cases hrun
    refine ⟨s.log, ?_⟩
    have hsame : s.tasks.set i (command, put') = s.tasks := by
      obtain ⟨hlt, hget⟩ := List.getElem?_eq_some_iff.mp htask
      rw [← hget, List.set_getElem_self]
    rw [hsame]
    rfl
  | cons a rest ih =>
    obtain ⟨next, hnext, hrest⟩ := Option.bind_eq_some_iff.mp hrun
    have hlt := (List.getElem?_eq_some_iff.mp htask).1
    obtain ⟨log, hlog⟩ := ih (s := { s with
      tasks := s.tasks.set i (command, next)
      log := s.log ++ wireEvents m.baseUrl command a }) hwait (by simp [hlt]) hrest
    refine ⟨log, ?_⟩
    rw [List.map_cons, Lts.run_cons, nodeStep_sliver hwait htask hnext, Option.bind_some,
      hlog, List.set_set]

/-- All the tasks of a list can be brought to their ends. -/
private theorem exists_run_slivers (hpermits : u.maxNodeConnections ≠ 0) (l : List Nat)
    (hwait : s.AwaitsSlivers) (hlt : ∀ i ∈ l, i < s.tasks.length) :
    ∃ as v, Lts.run (nodeStep u m) s as = some v ∧ .cancel ∉ as ∧ v.phase = s.phase ∧
      (∀ i ∈ l, v.isDone i = true) ∧ ∀ i, s.isDone i = true → v.isDone i = true := by
  induction l generalizing s with
  | nil => exact ⟨[], s, rfl, by simp, rfl, by simp, fun _ h => h⟩
  | cons i rest ih =>
    obtain ⟨hi, hrest⟩ := List.forall_mem_cons.mp hlt
    obtain ⟨task, htask⟩ : ∃ task, s.tasks[i]? = some task :=
      ⟨_, List.getElem?_eq_getElem hi⟩
    obtain ⟨command, put⟩ := task
    obtain ⟨result, hput⟩ := run_remaining hpermits u.maxRetries put
    obtain ⟨log, hfirst⟩ := exists_run_sliver (m := m) hwait htask hput
    obtain ⟨w, hw⟩ : ∃ w, w = ({ s with
      tasks := s.tasks.set i (command, .done result), log := log } : NodeState) := ⟨_, rfl⟩
    have hmono : ∀ j, s.isDone j = true → w.isDone j = true := by
      intro j hj
      by_cases hij : i = j
      · subst hij; simp [hw, NodeState.isDone, hi, PutState.isDone]
      · simpa [hw, NodeState.isDone, List.getElem?_set_ne hij] using hj
    have hwi : w.isDone i = true := by simp [hw, NodeState.isDone, hi, PutState.isDone]
    rw [← hw] at hfirst
    obtain ⟨as, v, hrun, hcancel, hphase, hdone, hkeep⟩ := ih (s := w)
      (by rw [hw]; exact hwait) (by rw [hw]; simpa using hrest)
    refine ⟨_, v, Lts.run_append_eq_some.mpr ⟨w, hfirst, hrun⟩, ?_, ?_, ?_, ?_⟩
    · simpa using hcancel
    · rw [hphase, hw]
    · exact List.forall_mem_cons.mpr ⟨hkeep i hwi, hdone⟩
    · exact fun j hj => hkeep j (hmono j hj)

/-- From the wait for the slivers, the node's task can be brought to its end. -/
private theorem exists_end_of_awaits (hpermits : u.maxNodeConnections ≠ 0)
    (hinv : NodeInv u m s) (hwait : s.AwaitsSlivers) :
    ∃ as v result, Lts.run (nodeStep u m) s as = some v ∧ .cancel ∉ as ∧
      v.phase = .ended result := by
  have hp := hinv.phase
  have hends : ∀ leaving w, ∃ result, (leaveNode u m [] leaving w).phase = .ended result := by
    intro leaving w
    cases leaving <;> exact ⟨_, rfl⟩
  rcases hwait with ⟨pending, hphase⟩ | ⟨pending, leaving, hphase⟩
  · rw [hphase] at hp
    obtain ⟨as, v, hrun, hcancel, hsame, hdone, -⟩ :=
      exists_run_slivers (m := m) hpermits pending (.inl ⟨pending, hphase⟩) hp.1.2
    have hall : pending.filter v.isDone = pending := List.filter_eq_self.mpr hdone
    have hnone : pending.filter (fun i => !v.isDone i) = [] :=
      List.filter_eq_nil_iff.mpr fun i hi => by simp [hdone i hi]
    have hwake : nodeStep u m v (.wake pending) = some (wakeNode u m pending pending v) := by
      simp [nodeStep, hsame, hphase, hall, hp.2.1]
    obtain ⟨result, hresult⟩ : ∃ result,
        (wakeNode u m pending pending v).phase = .ended result := by
      simp only [wakeNode, hnone, if_true]
      split
      · exact hends _ _
      · exact ⟨_, rfl⟩
    exact ⟨as ++ [.wake pending], _, result, Lts.run_snoc_eq_some.mpr ⟨v, hrun, hwake⟩,
      by simpa using hcancel, hresult⟩
  · rw [hphase] at hp
    obtain ⟨as, v, hrun, hcancel, hsame, hdone, -⟩ :=
      exists_run_slivers (m := m) hpermits pending (.inr ⟨pending, leaving, hphase⟩) hp.2
    have hclean : nodeStep u m v .cleaned = some (leaveNode u m [] leaving v) := by
      simp only [nodeStep, hsame, hphase]
      exact if_pos (List.all_eq_true.mpr hdone)
    obtain ⟨result, hresult⟩ := hends leaving v
    exact ⟨as ++ [.cleaned], _, result, Lts.run_snoc_eq_some.mpr ⟨v, hrun, hclean⟩,
      by simpa using hcancel, hresult⟩

/-- Once the metadata is stored the node has ended or waits for its slivers. -/
private theorem exists_metadata_stored {attempt : Nat}
    (hphase : s.phase = .metadata (.inFlight attempt)) :
    ∃ w, nodeStep u m s (.metadata (.answer (.ok (.ok none)))) = some w ∧
      ((∃ result, w.phase = .ended result) ∨ w.AwaitsSlivers) := by
  refine ⟨_, by simp only [nodeStep, hphase, putStep, Option.bind_eq_bind,
    Option.bind_some]; rfl, ?_⟩
  simp only [afterMetadata]
  split
  · exact .inl ⟨_, rfl⟩
  · exact .inl ⟨_, rfl⟩
  · exact .inr (.inl ⟨_, rfl⟩)

/-- **A node's task can always be brought to its end** by answers alone, from
wherever its run has taken it, where a PUT can be sent at all. -/
theorem NodeInv.exists_end (hpermits : u.maxNodeConnections ≠ 0) (hinv : NodeInv u m s) :
    ∃ as v result, Lts.run (nodeStep u m) s as = some v ∧ .cancel ∉ as ∧
      v.phase = .ended result := by
  cases hphase : s.phase with
  | metadata put =>
    obtain ⟨as, w, hrun, hcancel, hafter⟩ : ∃ as w,
        Lts.run (nodeStep u m) s as = some w ∧ .cancel ∉ as ∧
          ((∃ result, w.phase = .ended result) ∨ w.AwaitsSlivers) := by
      cases put with
      | waiting attempt =>
        obtain ⟨v, hv, hsent⟩ : ∃ v, nodeStep u m s (.metadata .send) = some v ∧
            v.phase = .metadata (.inFlight attempt) :=
          ⟨_, by simp only [nodeStep, hphase, putStep, hpermits, if_false]; rfl, rfl⟩
        obtain ⟨w, hw, hafter⟩ := exists_metadata_stored (u := u) (m := m) hsent
        exact ⟨[.metadata .send, .metadata (.answer (.ok (.ok none)))], w,
          by simp [Lts.run_cons, hv, hw], by simp, hafter⟩
      | inFlight attempt =>
        obtain ⟨w, hw, hafter⟩ := exists_metadata_stored (u := u) (m := m) hphase
        exact ⟨[.metadata (.answer (.ok (.ok none)))], w, by simp [Lts.run_cons, hw],
          by simp, hafter⟩
      | done result =>
        have hp := hinv.phase
        rw [hphase] at hp
        cases hp.2
    have hinv' : NodeInv u m w := Lts.run_invariant hinv (fun _ _ _ h hs => h.step hs) hrun
    rcases hafter with ⟨result, hresult⟩ | hwait
    · exact ⟨as, w, result, hrun, hcancel, hresult⟩
    · obtain ⟨bs, v, result, hrest, hcancel', hresult⟩ := exists_end_of_awaits hpermits hinv' hwait
      exact ⟨as ++ bs, v, result, Lts.run_append_eq_some.mpr ⟨w, hrun, hrest⟩,
        by simp [hcancel, hcancel'], hresult⟩
  | slivers pending => exact exists_end_of_awaits hpermits hinv (.inl ⟨pending, hphase⟩)
  | cleanup pending leaving =>
    exact exists_end_of_awaits hpermits hinv (.inr ⟨pending, leaving, hphase⟩)
  | ended result => exact ⟨[], s, result, rfl, by simp, hphase⟩

end Pytusk.SliverFanout
