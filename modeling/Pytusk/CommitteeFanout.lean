import Pytusk.Lib.Lts
import Mathlib.Data.List.Nodup

/-!
# `committee_fanout.py`: the fan-out choreography

`fan_out_to_committee` as a machine. The environment decides when a task
ends and how, in which order a `done` set is iterated, when the grace window
closes and when the driver's own task is cancelled; everything the driver
does between two `await`s is one step. A task is named by its key in the
`tasks` mapping (`ι`), the caller's accumulators are one value (`σ`), and
the calls made to the two callbacks are kept in `reports`.

The callbacks must not raise (the source's own contract), so they are plain
functions here. `on_threshold_reached` only formats a log line and is left
out.
-/

namespace Pytusk.CommitteeFanout

open Pytusk.Lib

/-! ## The driver's data -/

/-- How an `asyncio.Task` ended. -/
inductive TaskResult (ε ρ : Type*) where
  | returned (value : ρ)
  | raised (exc : ε)
  | cancelled
  deriving DecidableEq, Repr

/-- One call to a callback: `on_completed` or `on_cancelled`. -/
inductive Report (ι ε ρ : Type*) where
  | completed (task : ι) (result : TaskResult ε ρ)
  | cancelled (task : ι)
  deriving DecidableEq, Repr

/-- The task a report is about. -/
def Report.task {ι ε ρ : Type*} : Report ι ε ρ → ι
  | .completed t _ => t
  | .cancelled t => t

/-- `on_completed`, `on_cancelled` and `should_stop`, over the caller's
accumulators. -/
structure Callbacks (ι ε ρ σ : Type*) where
  onCompleted : σ → ι → TaskResult ε ρ → σ
  onCancelled : σ → ι → σ
  shouldStop : σ → Bool

/-- How the call to `fan_out_to_committee` ended. -/
inductive Exit where
  | returned
  | cancelled
  deriving DecidableEq, Repr

/-- The `await` the driver is suspended in. -/
inductive Phase (ι : Type*) where
  /-- `asyncio.wait(pending, return_when=FIRST_COMPLETED)` -/
  | waiting (pending : List ι)
  /-- `asyncio.wait(pending, timeout=extra_time)` -/
  | grace (pending : List ι)
  /-- `gather(*still_pending)`; the flag is a cancellation requested meanwhile -/
  | draining (stillPending : List ι) (cancelRequested : Bool)
  /-- `gather(*leftover)` in the `finally` block, on the way to `exit` -/
  | cleanup (leftover : List ι) (exit : Exit)
  | exited (exit : Exit)
  deriving DecidableEq, Repr

structure State (ι ε ρ σ : Type*) where
  phase : Phase ι
  /-- `none` while the task runs -/
  result : ι → Option (TaskResult ε ρ)
  /-- tasks the driver has called `cancel()` on -/
  cancelRequested : List ι
  reports : List (Report ι ε ρ)
  acc : σ

/-- What the environment does next. The lists are the iteration orders of
the sets `asyncio.wait` returned. -/
inductive Action (ι ε ρ : Type*) where
  | finish (task : ι) (result : TaskResult ε ρ)
  | wake (done : List ι)
  | closeGrace (done stillPending : List ι)
  | drained
  | cleaned
  | cancelDriver
  deriving Repr

section Machine

variable {ι ε ρ σ : Type*} [DecidableEq ι]

/-- `task.done()` -/
def State.isDone (s : State ι ε ρ σ) (t : ι) : Bool := (s.result t).isSome

/-- One iteration of `for task in done: on_completed(task, tasks[task])`. -/
def foldCompleted (cb : Callbacks ι ε ρ σ) (s : State ι ε ρ σ) (t : ι) :
    State ι ε ρ σ :=
  match s.result t with
  | some r =>
      { s with
        acc := cb.onCompleted s.acc t r
        reports := s.reports ++ [.completed t r] }
  | none => s

/-- One iteration of the straggler loop: `task.cancel()`, `on_cancelled`. -/
def foldCancelled (cb : Callbacks ι ε ρ σ) (s : State ι ε ρ σ) (t : ι) :
    State ι ε ρ σ :=
  { s with
    cancelRequested := s.cancelRequested ++ [t]
    acc := cb.onCancelled s.acc t
    reports := s.reports ++ [.cancelled t] }

/-- The `finally` block: cancel every task that is not done, wait for them. -/
def enterFinally (tasks : List ι) (exit : Exit) (s : State ι ε ρ σ) :
    State ι ε ρ σ :=
  let leftover := tasks.filter fun t => !s.isDone t
  if leftover = [] then { s with phase := .exited exit }
  else
    { s with
      phase := .cleanup leftover exit
      cancelRequested := s.cancelRequested ++ leftover }

/-- What follows the `while pending` loop: the grace window if anything is
still pending, otherwise the end of the call. -/
def leaveLoop (tasks pending : List ι) (s : State ι ε ρ σ) : State ι ε ρ σ :=
  if pending = [] then enterFinally tasks .returned s
  else { s with phase := .grace pending }

/-- The state in which the driver first suspends. -/
def start (tasks : List ι) (acc : σ) : State ι ε ρ σ :=
  let s : State ι ε ρ σ :=
    { phase := .waiting tasks, result := fun _ => none, cancelRequested := [],
      reports := [], acc := acc }
  if tasks = [] then leaveLoop tasks [] s else s

/-- `done` is the part of `pending` that has finished. -/
def IsDoneSet (s : State ι ε ρ σ) (pending done : List ι) : Prop :=
  done.Perm (pending.filter s.isDone)

/-- `still` is the part of `pending` that has not. -/
def IsStillPending (s : State ι ε ρ σ) (pending still : List ι) : Prop :=
  still.Perm (pending.filter fun t => !s.isDone t)

instance (s : State ι ε ρ σ) (pending done : List ι) :
    Decidable (IsDoneSet s pending done) :=
  inferInstanceAs (Decidable (done.Perm _))

instance (s : State ι ε ρ σ) (pending still : List ι) :
    Decidable (IsStillPending s pending still) :=
  inferInstanceAs (Decidable (still.Perm _))

/-- `FIRST_COMPLETED` returned: fold the batch, test the threshold, loop. -/
def onWake (cb : Callbacks ι ε ρ σ) (tasks pending done : List ι)
    (s : State ι ε ρ σ) : State ι ε ρ σ :=
  let s' := done.foldl (foldCompleted cb) s
  let pending' := pending.filter fun t => !s.isDone t
  if cb.shouldStop s'.acc = true ∨ pending' = [] then leaveLoop tasks pending' s'
  else { s' with phase := .waiting pending' }

/-- The grace window closed: fold what finished, cancel and report the rest. -/
def onCloseGrace (cb : Callbacks ι ε ρ σ) (tasks done still : List ι)
    (s : State ι ε ρ σ) : State ι ε ρ σ :=
  let s' := still.foldl (foldCancelled cb) (done.foldl (foldCompleted cb) s)
  if still = [] then enterFinally tasks .returned s'
  else { s' with phase := .draining still false }

/-- `CancelledError` is delivered at the driver's `await`. A `gather` that is
cancelled still waits for its children, and the one in the `finally` block
has its `CancelledError` suppressed. -/
def onCancelDriver (tasks : List ι) (s : State ι ε ρ σ) :
    Option (State ι ε ρ σ) :=
  match s.phase with
  | .waiting _ | .grace _ => some (enterFinally tasks .cancelled s)
  | .draining still _ => some { s with phase := .draining still true }
  | .cleanup _ _ => some s
  | .exited _ => none

def step (cb : Callbacks ι ε ρ σ) (tasks : List ι) (s : State ι ε ρ σ) :
    Action ι ε ρ → Option (State ι ε ρ σ)
  | .finish t r =>
      if t ∈ tasks ∧ s.isDone t = false then
        some { s with result := Function.update s.result t (some r) }
      else none
  | .wake done =>
      match s.phase with
      | .waiting pending =>
          if done ≠ [] ∧ IsDoneSet s pending done then
            some (onWake cb tasks pending done s)
          else none
      | _ => none
  | .closeGrace done still =>
      match s.phase with
      | .grace pending =>
          if IsDoneSet s pending done ∧ IsStillPending s pending still then
            some (onCloseGrace cb tasks done still s)
          else none
      | _ => none
  | .drained =>
      match s.phase with
      | .draining still c =>
          if still.all s.isDone then
            some (enterFinally tasks (if c then .cancelled else .returned) s)
          else none
      | _ => none
  | .cleaned =>
      match s.phase with
      | .cleanup leftover exit =>
          if leftover.all s.isDone then some { s with phase := .exited exit }
          else none
      | _ => none
  | .cancelDriver => onCancelDriver tasks s

/-! ## When an action is enabled -/

section Enabled

variable {cb : Callbacks ι ε ρ σ} {tasks : List ι} {s v : State ι ε ρ σ}

theorem step_finish_eq_some {t : ι} {r : TaskResult ε ρ} :
    step cb tasks s (.finish t r) = some v ↔
      (t ∈ tasks ∧ s.isDone t = false) ∧
        { s with result := Function.update s.result t (some r) } = v := by
  simp only [step, Option.ite_none_right_eq_some, Option.some.injEq]

theorem step_wake_eq_some {done : List ι} :
    step cb tasks s (.wake done) = some v ↔
      ∃ pending, s.phase = .waiting pending ∧ done ≠ [] ∧
        IsDoneSet s pending done ∧ onWake cb tasks pending done s = v := by
  cases h : s.phase <;> simp [step, h, and_assoc]

theorem step_closeGrace_eq_some {done still : List ι} :
    step cb tasks s (.closeGrace done still) = some v ↔
      ∃ pending, s.phase = .grace pending ∧ IsDoneSet s pending done ∧
        IsStillPending s pending still ∧ onCloseGrace cb tasks done still s = v := by
  cases h : s.phase <;> simp [step, h, and_assoc]

theorem step_drained_eq_some :
    step cb tasks s .drained = some v ↔
      ∃ still c, s.phase = .draining still c ∧ still.all s.isDone = true ∧
        enterFinally tasks (if c then .cancelled else .returned) s = v := by
  cases h : s.phase with
  | draining still c => cases c <;> simp [step, h]
  | _ => simp [step, h]

theorem step_cleaned_eq_some :
    step cb tasks s .cleaned = some v ↔
      ∃ leftover exit, s.phase = .cleanup leftover exit ∧
        leftover.all s.isDone = true ∧ { s with phase := .exited exit } = v := by
  cases h : s.phase <;> simp [step, h]

end Enabled

/-! ## Where the driver waits next -/

section NextAwait

variable {cb : Callbacks ι ε ρ σ} {tasks pending done : List ι} {s : State ι ε ρ σ}

omit [DecidableEq ι] in
theorem enterFinally_phase {exit : Exit} {phase : Phase ι} (s : State ι ε ρ σ)
    (h : (enterFinally tasks exit s).phase = phase) :
    phase = .exited exit ∨ ∃ left, phase = .cleanup left exit := by
  unfold enterFinally at h
  dsimp only at h
  split at h
  · exact .inl h.symm
  · exact .inr ⟨_, h.symm⟩

omit [DecidableEq ι] in
/-- A driver that goes on waiting has not met its threshold, and waits for what
was not done. -/
theorem onWake_waiting {p : List ι} (h : (onWake cb tasks pending done s).phase = .waiting p) :
    cb.shouldStop (onWake cb tasks pending done s).acc = false ∧
      p = pending.filter fun t => !s.isDone t := by
  unfold onWake leaveLoop at h ⊢
  dsimp only at h ⊢
  split
  · rename_i hleave
    rw [if_pos hleave] at h
    split at h
    · rcases enterFinally_phase _ h with h | ⟨left, h⟩ <;> cases h
    · cases h
  · rename_i hloop
    rw [if_neg hloop] at h
    have hnot : ¬ cb.shouldStop (done.foldl (foldCompleted cb) s).acc = true :=
      fun hstop => hloop (.inl hstop)
    cases h
    exact ⟨by simpa using hnot, rfl⟩

omit [DecidableEq ι] in
theorem onWake_not_draining {still : List ι} {c : Bool} :
    (onWake cb tasks pending done s).phase ≠ .draining still c := by
  intro h
  unfold onWake leaveLoop at h
  dsimp only at h
  split at h
  · split at h
    · rcases enterFinally_phase _ h with h | ⟨left, h⟩ <;> cases h
    · cases h
  · cases h

end NextAwait

/-- A run of the driver from its first `await`. -/
def Runs (cb : Callbacks ι ε ρ σ) (tasks : List ι) (acc : σ)
    (acts : List (Action ι ε ρ)) (s : State ι ε ρ σ) : Prop :=
  Lts.run (step cb tasks) (start tasks acc) acts = some s

end Machine

section Batches

variable {ι ε ρ σ : Type*}

/-- The tasks reported so far, in report order. -/
def State.reported (s : State ι ε ρ σ) : List ι := s.reports.map Report.task

/-! ## What a batch of callbacks does -/

/-- The callback a report stands for. -/
def applyReport (cb : Callbacks ι ε ρ σ) (a : σ) : Report ι ε ρ → σ
  | .completed t r => cb.onCompleted a t r
  | .cancelled t => cb.onCancelled a t

/-- The accumulators after a list of callbacks. -/
def replay (cb : Callbacks ι ε ρ σ) (a : σ) (reports : List (Report ι ε ρ)) : σ :=
  reports.foldl (applyReport cb) a

/-- The `on_completed` calls a `done` set leads to. -/
def State.completions (s : State ι ε ρ σ) (done : List ι) :
    List (Report ι ε ρ) :=
  done.filterMap fun t => (s.result t).map (Report.completed t)

theorem replay_append (cb : Callbacks ι ε ρ σ) (a : σ)
    (xs ys : List (Report ι ε ρ)) :
    replay cb a (xs ++ ys) = replay cb (replay cb a xs) ys :=
  List.foldl_append

/-- A completed batch changes the accumulators and the reports, nothing else. -/
theorem foldl_foldCompleted (cb : Callbacks ι ε ρ σ) (s : State ι ε ρ σ)
    (done : List ι) :
    done.foldl (foldCompleted cb) s =
      { s with
        acc := replay cb s.acc (s.completions done)
        reports := s.reports ++ s.completions done } := by
  induction done generalizing s with
  | nil => simp [State.completions, replay]
  | cons t rest ih =>
    rw [List.foldl_cons, ih]
    cases h : s.result t with
    | none => simp [foldCompleted, State.completions, h]
    | some r => simp [foldCompleted, State.completions, h, replay, applyReport]

/-- A batch of stragglers is cancelled and reported, in order. -/
theorem foldl_foldCancelled (cb : Callbacks ι ε ρ σ) (s : State ι ε ρ σ)
    (still : List ι) :
    still.foldl (foldCancelled cb) s =
      { s with
        cancelRequested := s.cancelRequested ++ still
        acc := replay cb s.acc (still.map .cancelled)
        reports := s.reports ++ still.map .cancelled } := by
  induction still generalizing s with
  | nil => simp [replay]
  | cons t rest ih =>
    rw [List.foldl_cons, ih]
    simp [foldCancelled, replay, applyReport]

/-- When the whole batch is done, each of its tasks is reported once. -/
theorem map_task_completions {s : State ι ε ρ σ} {done : List ι}
    (h : ∀ t ∈ done, s.isDone t = true) :
    (s.completions done).map Report.task = done := by
  induction done with
  | nil => rfl
  | cons t rest ih =>
    obtain ⟨r, hr⟩ := Option.isSome_iff_exists.mp (h t (by simp))
    have hrest := ih fun u hu => h u (List.mem_cons_of_mem _ hu)
    simp only [State.completions, List.filterMap_cons, hr] at hrest ⊢
    simp [Report.task, hrest]

end Batches

end Pytusk.CommitteeFanout
