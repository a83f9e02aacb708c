import Pytusk.CommitteeFanout
import Mathlib.Data.List.Perm.Basic
import Mathlib.Data.List.Perm.Subperm

/-!
# The choreography holds in every run

One invariant (`Inv`) says, for each `await` the driver can be suspended in,
which tasks have been reported and which are still owed a report. Each
action preserves it, so it holds at the end of every run
(`Runs.inv`), and the guarantees of the module's docstring are read off it:
no task is reported twice, none outlives the call, a normal return has
reported them all, and a straggler was pending when the grace window closed.
-/

namespace Pytusk.CommitteeFanout

open Pytusk.Lib

variable {ι ε ρ σ : Type*}

/-! ## The invariant -/

/-- No task has been reported through `on_cancelled`. -/
def State.NoneCancelled (s : State ι ε ρ σ) : Prop :=
  ∀ t, Report.cancelled t ∉ s.reports

/-- What is known at each suspension point. -/
def State.AtPhase (cb : Callbacks ι ε ρ σ) (tasks : List ι)
    (s : State ι ε ρ σ) : Phase ι → Prop
  | .waiting p => (s.reported ++ p).Perm tasks ∧ s.NoneCancelled
  | .grace p =>
      (s.reported ++ p).Perm tasks ∧ s.NoneCancelled ∧
        cb.shouldStop s.acc = true
  | .draining still _ =>
      s.reported.Perm tasks ∧ ∀ t ∈ tasks, s.isDone t = false → t ∈ still
  | .cleanup left exit =>
      exit = .cancelled ∧ ∀ t ∈ tasks, s.isDone t = false → t ∈ left
  | .exited exit =>
      (∀ t ∈ tasks, s.isDone t = true) ∧
        (exit = .returned → s.reported.Perm tasks)

structure Inv (cb : Callbacks ι ε ρ σ) (tasks : List ι) (acc₀ : σ)
    (s : State ι ε ρ σ) : Prop where
  subperm : s.reported.Subperm tasks
  result : ∀ t r, Report.completed t r ∈ s.reports → s.result t = some r
  acc : s.acc = replay cb acc₀ s.reports
  phase : s.AtPhase cb tasks s.phase

/-! ## What was folded -/

/-- The tasks that went through `on_completed`, in order. -/
def folded (reports : List (Report ι ε ρ)) : List ι :=
  reports.filterMap fun
    | .completed t _ => some t
    | .cancelled _ => none

theorem mem_folded {reports : List (Report ι ε ρ)} {t : ι} :
    t ∈ folded reports ↔ ∃ r, Report.completed t r ∈ reports := by
  simp only [folded, List.mem_filterMap]
  constructor
  · rintro ⟨rep, hrep, h⟩
    cases rep with
    | completed u r => cases h; exact ⟨r, hrep⟩
    | cancelled u => cases h
  · rintro ⟨r, hr⟩
    exact ⟨_, hr, rfl⟩

theorem folded_sublist (reports : List (Report ι ε ρ)) :
    (folded reports).Sublist (reports.map Report.task) := by
  induction reports with
  | nil => simp [folded]
  | cons rep rest ih =>
    cases rep with
    | completed t r => simpa [folded, Report.task] using ih
    | cancelled t => exact (by simpa [folded] using ih : List.Sublist _ _).cons _

/-! ## The `finally` block -/

section Finally

variable (tasks : List ι) (exit : Exit) (s : State ι ε ρ σ)

@[simp] theorem enterFinally_reports :
    (enterFinally tasks exit s).reports = s.reports := by
  simp only [enterFinally]; split <;> rfl

@[simp] theorem enterFinally_result :
    (enterFinally tasks exit s).result = s.result := by
  simp only [enterFinally]; split <;> rfl

@[simp] theorem enterFinally_acc : (enterFinally tasks exit s).acc = s.acc := by
  simp only [enterFinally]; split <;> rfl

end Finally

/-- Entering the `finally` block from a state whose reports are in order: a
normal return must come with every task reported and done. -/
private theorem inv_enterFinally {cb : Callbacks ι ε ρ σ} {tasks : List ι}
    {acc₀ : σ} {s : State ι ε ρ σ} {exit : Exit}
    (hsub : s.reported.Subperm tasks)
    (hres : ∀ t r, Report.completed t r ∈ s.reports → s.result t = some r)
    (hacc : s.acc = replay cb acc₀ s.reports)
    (hret : exit = .returned →
      s.reported.Perm tasks ∧ ∀ t ∈ tasks, s.isDone t = true) :
    Inv cb tasks acc₀ (enterFinally tasks exit s) := by
  refine ⟨by simpa [State.reported] using hsub, by simpa using hres,
    by simpa using hacc, ?_⟩
  simp only [enterFinally]
  split
  · rename_i hdone
    refine ⟨fun t ht => ?_, fun he => (hret he).1⟩
    simpa [State.isDone, Option.isSome_iff_ne_none] using
      List.filter_eq_nil_iff.mp hdone t ht
  · rename_i hleft
    refine ⟨?_, fun t ht hrun => ?_⟩
    · cases exit with
      | cancelled => rfl
      | returned =>
        refine absurd (List.filter_eq_nil_iff.mpr fun t ht => ?_) hleft
        simpa using (hret rfl).2 t ht
    · simpa [State.isDone, ht] using hrun

/-! ## One lemma for each action -/

section Steps

variable {cb : Callbacks ι ε ρ σ} {tasks : List ι} {acc₀ : σ}
variable {s : State ι ε ρ σ}

private theorem isDone_update_of_isDone [DecidableEq ι] {t u : ι} {r : TaskResult ε ρ}
    (h : s.isDone u = true) :
    (({ s with result := Function.update s.result t (some r) } :
      State ι ε ρ σ)).isDone u = true := by
  by_cases hu : u = t
  · subst hu; simp [State.isDone]
  · simpa [State.isDone, Function.update_of_ne hu] using h

private theorem Inv.finish [DecidableEq ι] {t : ι} {r : TaskResult ε ρ}
    (hinv : Inv cb tasks acc₀ s) (hrun : s.isDone t = false) :
    Inv cb tasks acc₀
      { s with result := Function.update s.result t (some r) } := by
  refine ⟨hinv.subperm, fun u q hu => ?_, hinv.acc, ?_⟩
  · have hold := hinv.result u q hu
    have hne : u ≠ t := by
      rintro rfl
      simp [State.isDone, hold] at hrun
    simpa [Function.update_of_ne hne] using hold
  · -- a finished task only shrinks the set of running ones
    have hmono : ∀ u, ({ s with result := Function.update s.result t (some r) } :
        State ι ε ρ σ).isDone u = false → s.isDone u = false := by
      intro u hu
      by_contra hdone
      rw [isDone_update_of_isDone (by simpa using hdone)] at hu
      exact absurd hu (by simp)
    have hphase := hinv.phase
    cases hp : s.phase with
    | waiting p => rw [hp] at hphase; exact hphase
    | grace p => rw [hp] at hphase; exact hphase
    | draining still c =>
      rw [hp] at hphase
      exact ⟨hphase.1, fun u hu hr => hphase.2 u hu (hmono u hr)⟩
    | cleanup left e =>
      rw [hp] at hphase
      exact ⟨hphase.1, fun u hu hr => hphase.2 u hu (hmono u hr)⟩
    | exited e =>
      rw [hp] at hphase
      exact ⟨fun u hu => isDone_update_of_isDone (hphase.1 u hu), hphase.2⟩

/-- A `done` set and what is left of `pending` make up `pending`. -/
private theorem IsDoneSet.append_perm {pending done : List ι}
    (h : IsDoneSet s pending done) :
    (done ++ pending.filter fun t => !s.isDone t).Perm pending :=
  (h.append_right _).trans (List.filter_append_perm s.isDone pending)

private theorem IsDoneSet.isDone {pending done : List ι}
    (h : IsDoneSet s pending done) : ∀ t ∈ done, s.isDone t = true :=
  fun _ ht => (List.mem_filter.mp (h.mem_iff.mp ht)).2

theorem mem_completions {done : List ι} {t : ι} {r : TaskResult ε ρ}
    (h : Report.completed t r ∈ s.completions done) : s.result t = some r := by
  obtain ⟨u, -, hu⟩ := List.mem_filterMap.mp h
  obtain ⟨q, hq, heq⟩ := Option.map_eq_some_iff.mp hu
  cases heq
  exact hq

theorem cancelled_notMem_completions (done : List ι) (t : ι) :
    Report.cancelled t ∉ s.completions done := by
  intro h
  obtain ⟨u, -, hu⟩ := List.mem_filterMap.mp h
  obtain ⟨q, -, heq⟩ := Option.map_eq_some_iff.mp hu
  cases heq

/-- The state after a completed batch, before the next `await` is chosen. -/
private def afterBatch (cb : Callbacks ι ε ρ σ) (done : List ι)
    (s : State ι ε ρ σ) : State ι ε ρ σ :=
  { s with
    acc := replay cb s.acc (s.completions done)
    reports := s.reports ++ s.completions done }

private theorem afterBatch_reported (cb : Callbacks ι ε ρ σ) {done : List ι}
    (h : ∀ t ∈ done, s.isDone t = true) :
    (afterBatch cb done s).reported = s.reported ++ done := by
  simp [afterBatch, State.reported, map_task_completions h]

private theorem afterBatch_result (hinv : Inv cb tasks acc₀ s) (done : List ι) :
    ∀ t r, Report.completed t r ∈ (afterBatch cb done s).reports →
      (afterBatch cb done s).result t = some r := by
  intro t r h
  rcases List.mem_append.mp h with h | h
  · exact hinv.result t r h
  · exact mem_completions h

private theorem afterBatch_acc (hinv : Inv cb tasks acc₀ s) (done : List ι) :
    (afterBatch cb done s).acc = replay cb acc₀ (afterBatch cb done s).reports := by
  simp only [afterBatch, replay_append, hinv.acc]

private theorem afterBatch_noneCancelled (cb : Callbacks ι ε ρ σ) (h : s.NoneCancelled)
    (done : List ι) : (afterBatch cb done s).NoneCancelled := by
  intro t ht
  rcases List.mem_append.mp ht with ht | ht
  · exact h t ht
  · exact cancelled_notMem_completions done t ht

/-- `leaveLoop` from a batch that met the threshold or emptied `pending`. -/
private theorem inv_leaveLoop {u : State ι ε ρ σ} {pending : List ι}
    (hres : ∀ t r, Report.completed t r ∈ u.reports → u.result t = some r)
    (hacc : u.acc = replay cb acc₀ u.reports)
    (hperm : (u.reported ++ pending).Perm tasks) (hnone : u.NoneCancelled)
    (hdone : ∀ t ∈ u.reported, u.isDone t = true)
    (hstop : pending ≠ [] → cb.shouldStop u.acc = true) :
    Inv cb tasks acc₀ (leaveLoop tasks pending u) := by
  have hsub : u.reported.Subperm tasks :=
    (List.sublist_append_left _ _).subperm.trans hperm.subperm
  simp only [leaveLoop]
  split
  · rename_i hnil
    subst hnil
    rw [List.append_nil] at hperm
    exact inv_enterFinally hsub hres hacc fun _ =>
      ⟨hperm, fun t ht => hdone t (hperm.mem_iff.mpr ht)⟩
  · rename_i hne
    exact ⟨hsub, hres, hacc, hperm, hnone, hstop hne⟩

private theorem Inv.reported_isDone (hinv : Inv cb tasks acc₀ s)
    (hnone : s.NoneCancelled) : ∀ t ∈ s.reported, s.isDone t = true := by
  intro t ht
  obtain ⟨rep, hrep, rfl⟩ := List.mem_map.mp ht
  cases rep with
  | completed u r => simp [Report.task, State.isDone, hinv.result u r hrep]
  | cancelled u => exact absurd hrep (hnone u)

private theorem Inv.wake {pending done : List ι} (hinv : Inv cb tasks acc₀ s)
    (hphase : s.phase = .waiting pending) (hdone : IsDoneSet s pending done) :
    Inv cb tasks acc₀ (onWake cb tasks pending done s) := by
  have hp := hinv.phase
  rw [hphase] at hp
  obtain ⟨hperm, hnone⟩ := hp
  have hperm' : ((afterBatch cb done s).reported ++
      pending.filter fun t => !s.isDone t).Perm tasks := by
    rw [afterBatch_reported cb hdone.isDone, List.append_assoc]
    exact (hdone.append_perm.append_left _).trans hperm
  have hnone' := afterBatch_noneCancelled cb hnone done
  have hreported : ∀ t ∈ (afterBatch cb done s).reported,
      (afterBatch cb done s).isDone t = true := by
    intro t ht
    rw [afterBatch_reported cb hdone.isDone] at ht
    rcases List.mem_append.mp ht with ht | ht
    · exact hinv.reported_isDone hnone t ht
    · exact hdone.isDone t ht
  simp only [onWake, foldl_foldCompleted]
  split
  · rename_i hstop
    exact inv_leaveLoop (u := afterBatch cb done s) (afterBatch_result hinv done)
      (afterBatch_acc hinv done) hperm' hnone' hreported fun hne =>
        hstop.resolve_right hne
  · exact ⟨(List.sublist_append_left _ _).subperm.trans hperm'.subperm,
      afterBatch_result hinv done, afterBatch_acc hinv done, hperm', hnone'⟩

private theorem Inv.closeGrace {pending done still : List ι}
    (hinv : Inv cb tasks acc₀ s) (hphase : s.phase = .grace pending)
    (hdone : IsDoneSet s pending done) (hstill : IsStillPending s pending still) :
    Inv cb tasks acc₀ (onCloseGrace cb tasks done still s) := by
  have hp := hinv.phase
  rw [hphase] at hp
  obtain ⟨hperm, hnone, -⟩ := hp
  have hall : (done ++ still).Perm pending :=
    (hstill.append_left _).trans hdone.append_perm
  -- every task is now reported, and a running one must be a straggler
  let u : State ι ε ρ σ :=
    { afterBatch cb done s with
      cancelRequested := s.cancelRequested ++ still
      acc := replay cb (afterBatch cb done s).acc (still.map .cancelled)
      reports := (afterBatch cb done s).reports ++ still.map .cancelled }
  have hreported : u.reported = s.reported ++ (done ++ still) := by
    have hbatch := afterBatch_reported cb hdone.isDone
    simp only [State.reported] at hbatch ⊢
    simp [u, hbatch, Report.task, Function.comp_def]
  have hpermu : u.reported.Perm tasks := by
    rw [hreported]
    exact (hall.append_left _).trans hperm
  have hres : ∀ t r, Report.completed t r ∈ u.reports → u.result t = some r := by
    intro t r h
    rcases List.mem_append.mp h with h | h
    · exact afterBatch_result hinv done t r h
    · simp at h
  have hacc : u.acc = replay cb acc₀ u.reports := by
    simp only [u, replay_append, afterBatch_acc hinv done]
  have hrunning : ∀ t ∈ tasks, s.isDone t = false → t ∈ still := by
    intro t ht hrun
    rcases List.mem_append.mp (hperm.mem_iff.mpr ht) with h | h
    · simp [hinv.reported_isDone hnone t h] at hrun
    · exact hstill.mem_iff.mpr (List.mem_filter.mpr ⟨h, by simp [hrun]⟩)
  have hu : onCloseGrace cb tasks done still s =
      if still = [] then enterFinally tasks .returned u
      else { u with phase := .draining still false } := by
    simp only [onCloseGrace, foldl_foldCompleted, foldl_foldCancelled]
    rfl
  rw [hu]
  split
  · rename_i hnil
    refine inv_enterFinally hpermu.subperm hres hacc fun _ => ⟨hpermu, ?_⟩
    intro t ht
    by_contra hrun
    have := hrunning t ht (by simpa [u, afterBatch, State.isDone] using hrun)
    simp [hnil] at this
  · exact ⟨hpermu.subperm, hres, hacc, hpermu, hrunning⟩

private theorem Inv.drained {still : List ι} {c : Bool}
    (hinv : Inv cb tasks acc₀ s) (hphase : s.phase = .draining still c)
    (hdone : still.all s.isDone = true) (exit : Exit) :
    Inv cb tasks acc₀ (enterFinally tasks exit s) := by
  have hp := hinv.phase
  rw [hphase] at hp
  refine inv_enterFinally hinv.subperm hinv.result hinv.acc fun _ => ⟨hp.1, ?_⟩
  intro t ht
  by_contra hrun
  exact hrun (List.all_eq_true.mp hdone t (hp.2 t ht (by simpa using hrun)))

private theorem Inv.cleaned {left : List ι} {exit : Exit}
    (hinv : Inv cb tasks acc₀ s) (hphase : s.phase = .cleanup left exit)
    (hdone : left.all s.isDone = true) :
    Inv cb tasks acc₀ { s with phase := .exited exit } := by
  have hp := hinv.phase
  rw [hphase] at hp
  refine ⟨hinv.subperm, hinv.result, hinv.acc, ?_, fun he => ?_⟩
  · intro t ht
    by_contra hrun
    have hleft := hp.2 t ht (by simpa [State.isDone] using hrun)
    exact hrun (List.all_eq_true.mp hdone t hleft)
  · rw [hp.1] at he
    cases he

private theorem Inv.cancelDriver {v : State ι ε ρ σ}
    (hinv : Inv cb tasks acc₀ s) (h : onCancelDriver tasks s = some v) :
    Inv cb tasks acc₀ v := by
  have hcancel : Inv cb tasks acc₀ (enterFinally tasks .cancelled s) :=
    inv_enterFinally hinv.subperm hinv.result hinv.acc fun he => nomatch he
  have hp := hinv.phase
  cases hphase : s.phase with
  | waiting p => simp only [onCancelDriver, hphase] at h; cases h; exact hcancel
  | grace p => simp only [onCancelDriver, hphase] at h; cases h; exact hcancel
  | draining still c =>
    simp only [onCancelDriver, hphase] at h
    cases h
    rw [hphase] at hp
    exact ⟨hinv.subperm, hinv.result, hinv.acc, hp⟩
  | cleanup left e => simp only [onCancelDriver, hphase] at h; cases h; exact hinv
  | exited e => simp [onCancelDriver, hphase] at h

/-- **Every action preserves the invariant.** -/
theorem Inv.step [DecidableEq ι] {a : Action ι ε ρ} {v : State ι ε ρ σ}
    (hinv : Inv cb tasks acc₀ s)
    (h : CommitteeFanout.step cb tasks s a = some v) : Inv cb tasks acc₀ v := by
  cases a with
  | finish t r =>
    obtain ⟨⟨-, hrun⟩, rfl⟩ := step_finish_eq_some.mp h
    exact hinv.finish hrun
  | wake done =>
    obtain ⟨p, hphase, -, hdone, rfl⟩ := step_wake_eq_some.mp h
    exact hinv.wake hphase hdone
  | closeGrace done still =>
    obtain ⟨p, hphase, hdone, hstill, rfl⟩ := step_closeGrace_eq_some.mp h
    exact hinv.closeGrace hphase hdone hstill
  | drained =>
    obtain ⟨still, c, hphase, hdone, rfl⟩ := step_drained_eq_some.mp h
    exact hinv.drained hphase hdone _
  | cleaned =>
    obtain ⟨left, exit, hphase, hdone, rfl⟩ := step_cleaned_eq_some.mp h
    exact hinv.cleaned hphase hdone
  | cancelDriver => exact hinv.cancelDriver h

end Steps

/-! ## Whole runs -/

section Runs

variable [DecidableEq ι] {cb : Callbacks ι ε ρ σ} {tasks : List ι} {acc₀ : σ}
variable {acts : List (Action ι ε ρ)} {s : State ι ε ρ σ}

omit [DecidableEq ι] in
/-- No report is made before the first `await`. -/
theorem start_reports (tasks : List ι) (acc₀ : σ) :
    (start tasks acc₀ : State ι ε ρ σ).reports = [] := by
  simp only [start]
  split
  · simp [leaveLoop]
  · rfl

omit [DecidableEq ι] in
/-- Nor has any task ended. -/
theorem start_result (tasks : List ι) (acc₀ : σ) (t : ι) :
    (start tasks acc₀ : State ι ε ρ σ).result t = none := by
  simp only [start]
  split
  · simp [leaveLoop]
  · rfl

omit [DecidableEq ι] in
theorem inv_start (cb : Callbacks ι ε ρ σ) (tasks : List ι) (acc₀ : σ) :
    Inv cb tasks acc₀ (start tasks acc₀) := by
  simp only [start]
  split
  · rename_i hnil
    subst hnil
    refine inv_leaveLoop ?_ rfl ?_ ?_ ?_ fun h => absurd rfl h
      <;> simp [State.reported, State.NoneCancelled]
  · refine ⟨?_, ?_, rfl, ?_, ?_⟩ <;> simp [State.reported, State.NoneCancelled]

/-- The invariant holds at the end of every run. -/
theorem Runs.inv (hrun : Runs cb tasks acc₀ acts s) : Inv cb tasks acc₀ s :=
  Lts.run_invariant (inv_start cb tasks acc₀) (fun _ _ _ h hs => h.step hs) hrun

/-! ### What each exit guarantees -/

/-- No task is reported twice, whichever callback it went through. -/
theorem Runs.reported_nodup (hrun : Runs cb tasks acc₀ acts s)
    (hnodup : tasks.Nodup) : s.reported.Nodup := by
  obtain ⟨l, hperm, hsub⟩ := hrun.inv.subperm
  exact hperm.nodup_iff.mp (hnodup.sublist hsub)

/-- A task outlives no exit. -/
theorem Runs.isDone_of_exited (hrun : Runs cb tasks acc₀ acts s) {e : Exit}
    (hexit : s.phase = .exited e) : ∀ t ∈ tasks, s.isDone t = true := by
  have h := hrun.inv.phase
  rw [hexit] at h
  exact h.1

/-- A normal return has reported every task. -/
theorem Runs.reported_perm (hrun : Runs cb tasks acc₀ acts s)
    (hexit : s.phase = .exited .returned) : s.reported.Perm tasks := by
  have h := hrun.inv.phase
  rw [hexit] at h
  exact h.2 rfl

/-- Two reports about one task are the same report. -/
theorem Runs.report_unique (hrun : Runs cb tasks acc₀ acts s)
    (hnodup : tasks.Nodup) {x y : Report ι ε ρ} (hx : x ∈ s.reports)
    (hy : y ∈ s.reports) (h : x.task = y.task) : x = y :=
  List.inj_on_of_nodup_map (hrun.reported_nodup hnodup) hx hy h

omit [DecidableEq ι] in
theorem onWake_reports (cb : Callbacks ι ε ρ σ) (tasks pending done : List ι)
    (s : State ι ε ρ σ) :
    (onWake cb tasks pending done s).reports = s.reports ++ s.completions done := by
  simp only [onWake, foldl_foldCompleted, leaveLoop]
  split
  · split <;> simp
  · rfl

omit [DecidableEq ι] in
@[simp] theorem onWake_result (cb : Callbacks ι ε ρ σ) (tasks pending done : List ι)
    (s : State ι ε ρ σ) : (onWake cb tasks pending done s).result = s.result := by
  simp only [onWake, foldl_foldCompleted, leaveLoop]
  split
  · split <;> simp
  · rfl

omit [DecidableEq ι] in
@[simp] theorem onCloseGrace_result (cb : Callbacks ι ε ρ σ)
    (tasks done still : List ι) (s : State ι ε ρ σ) :
    (onCloseGrace cb tasks done still s).result = s.result := by
  simp only [onCloseGrace, foldl_foldCompleted, foldl_foldCancelled]
  split <;> simp

omit [DecidableEq ι] in
theorem onCloseGrace_reports (cb : Callbacks ι ε ρ σ)
    (tasks done still : List ι) (s : State ι ε ρ σ) :
    (onCloseGrace cb tasks done still s).reports =
      s.reports ++ s.completions done ++ still.map .cancelled := by
  simp only [onCloseGrace, foldl_foldCompleted, foldl_foldCancelled]
  split <;> simp

omit [DecidableEq ι] in
theorem onCancelDriver_reports {v : State ι ε ρ σ}
    (h : onCancelDriver tasks s = some v) : v.reports = s.reports := by
  unfold onCancelDriver at h
  split at h <;> cases h <;> simp

/-- Only closing the grace window reports a task as cancelled. -/
private theorem closeGrace_of_new_cancelled {a : Action ι ε ρ} {v : State ι ε ρ σ}
    {t : ι} (hstep : step cb tasks s a = some v)
    (hold : Report.cancelled t ∉ s.reports) (hnew : Report.cancelled t ∈ v.reports) :
    ∃ pending done still, a = .closeGrace done still ∧ s.phase = .grace pending ∧
      t ∈ still ∧ t ∈ pending ∧ s.isDone t = false := by
  cases a with
  | finish u r =>
    obtain ⟨-, rfl⟩ := step_finish_eq_some.mp hstep
    exact absurd hnew hold
  | wake done =>
    obtain ⟨p, -, -, -, rfl⟩ := step_wake_eq_some.mp hstep
    rw [onWake_reports] at hnew
    rcases List.mem_append.mp hnew with h | h
    · exact absurd h hold
    · exact absurd h (cancelled_notMem_completions done t)
  | closeGrace done still =>
    obtain ⟨p, hphase, -, hstill, rfl⟩ := step_closeGrace_eq_some.mp hstep
    have ht : t ∈ still := by
      rw [onCloseGrace_reports, List.mem_append, List.mem_append] at hnew
      rcases hnew with (h | h) | h
      · exact absurd h hold
      · exact absurd h (cancelled_notMem_completions done t)
      · simpa using h
    have hmem := List.mem_filter.mp (hstill.mem_iff.mp ht)
    exact ⟨p, done, still, rfl, hphase, ht, hmem.1, by simpa using hmem.2⟩
  | drained =>
    obtain ⟨still, c, -, -, rfl⟩ := step_drained_eq_some.mp hstep
    exact absurd (by simpa using hnew) hold
  | cleaned =>
    obtain ⟨left, e, -, -, rfl⟩ := step_cleaned_eq_some.mp hstep
    exact absurd hnew hold
  | cancelDriver =>
    rw [onCancelDriver_reports hstep] at hnew
    exact absurd hnew hold

/-- A task reported as cancelled was still running when the grace window
closed, and the threshold had been met by then. -/
theorem Runs.grace_of_cancelled (hrun : Runs cb tasks acc₀ acts s) {t : ι}
    (ht : Report.cancelled t ∈ s.reports) :
    ∃ as done still bs u pending, acts = as ++ .closeGrace done still :: bs ∧
      Runs cb tasks acc₀ as u ∧ u.phase = .grace pending ∧ t ∈ still ∧
      t ∈ pending ∧ u.isDone t = false ∧ cb.shouldStop u.acc = true := by
  obtain ⟨as, a, bs, u, v, rfl, hu, hstep, hold, hnew⟩ :=
    Lts.exists_switch (P := fun w => Report.cancelled t ∈ w.reports)
      (by simp [start_reports]) hrun ht
  obtain ⟨pending, done, still, rfl, hphase, hst, hmem, hrunning⟩ :=
    closeGrace_of_new_cancelled hstep hold hnew
  have hinv := (Runs.inv hu).phase
  rw [hphase] at hinv
  exact ⟨as, done, still, bs, u, pending, rfl, hu, hphase, hst, hmem, hrunning,
    hinv.2.2⟩

/-- Reports are only ever added. -/
theorem step_reports_extends {a : Action ι ε ρ} {v : State ι ε ρ σ}
    (h : step cb tasks s a = some v) : s.reports <+: v.reports := by
  cases a with
  | finish t r =>
    obtain ⟨-, rfl⟩ := step_finish_eq_some.mp h
    exact List.prefix_rfl
  | wake done =>
    obtain ⟨p, -, -, -, rfl⟩ := step_wake_eq_some.mp h
    rw [onWake_reports]
    exact List.prefix_append _ _
  | closeGrace done still =>
    obtain ⟨p, -, -, -, rfl⟩ := step_closeGrace_eq_some.mp h
    rw [onCloseGrace_reports, List.append_assoc]
    exact List.prefix_append _ _
  | drained =>
    obtain ⟨still, c, -, -, rfl⟩ := step_drained_eq_some.mp h
    simp
  | cleaned =>
    obtain ⟨left, e, -, -, rfl⟩ := step_cleaned_eq_some.mp h
    exact List.prefix_rfl
  | cancelDriver =>
    have hsame := onCancelDriver_reports h
    exact hsame ▸ List.prefix_rfl

theorem run_reports_extends {bs : List (Action ι ε ρ)} {u : State ι ε ρ σ}
    (h : Lts.run (step cb tasks) u bs = some s) : u.reports <+: s.reports :=
  Lts.run_invariant (P := fun v => u.reports <+: v.reports) List.prefix_rfl
    (fun _ _ _ hv hs => hv.trans (step_reports_extends hs)) h

omit [DecidableEq ι] in
theorem onCancelDriver_result {v : State ι ε ρ σ}
    (h : onCancelDriver tasks s = some v) : v.result = s.result := by
  unfold onCancelDriver at h
  split at h <;> cases h <;> simp

/-- A task's result is only ever set by its own end. -/
theorem step_result {a : Action ι ε ρ} {v : State ι ε ρ σ}
    (h : step cb tasks s a = some v) {t : ι} {r : TaskResult ε ρ}
    (hr : v.result t = some r) : s.result t = some r ∨ a = .finish t r := by
  cases a with
  | finish u q =>
    obtain ⟨-, rfl⟩ := step_finish_eq_some.mp h
    by_cases hu : t = u
    · subst hu
      simp only [Function.update_self, Option.some.injEq] at hr
      exact .inr (by rw [hr])
    · simp only [Function.update_of_ne hu] at hr
      exact .inl hr
  | wake done =>
    obtain ⟨p, -, -, -, rfl⟩ := step_wake_eq_some.mp h
    rw [onWake_result] at hr
    exact .inl hr
  | closeGrace done still =>
    obtain ⟨p, -, -, -, rfl⟩ := step_closeGrace_eq_some.mp h
    rw [onCloseGrace_result] at hr
    exact .inl hr
  | drained =>
    obtain ⟨still, c, -, -, rfl⟩ := step_drained_eq_some.mp h
    rw [enterFinally_result] at hr
    exact .inl hr
  | cleaned =>
    obtain ⟨left, e, -, -, rfl⟩ := step_cleaned_eq_some.mp h
    exact .inl hr
  | cancelDriver =>
    rw [onCancelDriver_result h] at hr
    exact .inl hr

/-- A straggler is only ever cancelled after the threshold was met by the
reports made until then. -/
theorem Runs.stopped_of_cancelled (hrun : Runs cb tasks acc₀ acts s) {t : ι}
    (ht : Report.cancelled t ∈ s.reports) :
    ∃ front, front <+: s.reports ∧ cb.shouldStop (replay cb acc₀ front) = true := by
  obtain ⟨as, done, still, bs, u, p, rfl, hu, -, -, -, -, hstop⟩ :=
    hrun.grace_of_cancelled ht
  obtain ⟨u', hu', hrest⟩ := Lts.run_append_eq_some.mp hrun
  obtain rfl : u = u' := Option.some.inj (hu.symm.trans hu')
  exact ⟨u.reports, run_reports_extends hrest, by rw [← hu.inv.acc]; exact hstop⟩

/-- If the threshold is never met, a normal return saw every task complete. -/
theorem Runs.completed_of_never_stopped (hrun : Runs cb tasks acc₀ acts s)
    (hexit : s.phase = .exited .returned)
    (hnever : ∀ as bs u, acts = as ++ bs → Runs cb tasks acc₀ as u →
      cb.shouldStop u.acc = false) :
    ∀ t ∈ tasks, ∃ r, Report.completed t r ∈ s.reports := by
  intro t ht
  obtain ⟨rep, hrep, htask⟩ :=
    List.mem_map.mp ((hrun.reported_perm hexit).mem_iff.mpr ht)
  cases rep with
  | completed u r => exact ⟨r, by simpa [Report.task] using htask ▸ hrep⟩
  | cancelled u =>
    obtain ⟨as, done, still, bs, w, p, heq, hw, -, -, -, -, hstop⟩ :=
      hrun.grace_of_cancelled hrep
    simp [hnever as _ w heq hw] at hstop

/-- **The fan-out choreography.** Whatever the tasks, the environment and the
point at which the driver is cancelled do: a normal return has reported
every task exactly once, through one of the two callbacks; a task reported
through `on_cancelled` was pending when the grace window closed; if
`should_stop` never became true every task went through `on_completed`; and
no exit reports a task twice or leaves one running. -/
theorem fanOutToCommittee_choreography (cb : Callbacks ι ε ρ σ) (tasks : List ι)
    (acc₀ : σ) (acts : List (Action ι ε ρ)) (s : State ι ε ρ σ)
    (hnodup : tasks.Nodup) (hrun : Runs cb tasks acc₀ acts s) :
    (s.phase = .exited .returned →
      (∀ t ∈ tasks, s.reported.count t = 1) ∧
      (∀ t ∈ tasks, Xor (∃ r, Report.completed t r ∈ s.reports)
        (Report.cancelled t ∈ s.reports)) ∧
      ((∀ as bs u, acts = as ++ bs → Runs cb tasks acc₀ as u →
          cb.shouldStop u.acc = false) →
        ∀ t ∈ tasks, ∃ r, Report.completed t r ∈ s.reports)) ∧
    (∀ t, Report.cancelled t ∈ s.reports →
      ∃ as done still bs u pending, acts = as ++ .closeGrace done still :: bs ∧
        Runs cb tasks acc₀ as u ∧ u.phase = .grace pending ∧ t ∈ pending ∧
        u.isDone t = false) ∧
    (∀ e, s.phase = .exited e → ∀ t ∈ tasks, s.isDone t = true) ∧
    (∀ t, s.reported.count t ≤ 1) ∧ (∀ t ∈ s.reported, t ∈ tasks) := by
  have hrep := hrun.reported_nodup hnodup
  refine ⟨fun hexit => ⟨?_, ?_, hrun.completed_of_never_stopped hexit⟩, ?_, ?_, ?_, ?_⟩
  · intro t ht
    exact List.count_eq_one_of_mem hrep ((hrun.reported_perm hexit).mem_iff.mpr ht)
  · intro t ht
    obtain ⟨x, hx, htask⟩ :=
      List.mem_map.mp ((hrun.reported_perm hexit).mem_iff.mpr ht)
    cases x with
    | completed u r =>
      obtain rfl : u = t := htask
      refine .inl ⟨⟨r, hx⟩, fun hc => ?_⟩
      exact nomatch hrun.report_unique hnodup hx hc rfl
    | cancelled u =>
      obtain rfl : u = t := htask
      refine .inr ⟨hx, fun ⟨r, hr⟩ => ?_⟩
      exact nomatch hrun.report_unique hnodup hx hr rfl
  · intro t ht
    obtain ⟨as, done, still, bs, u, p, heq, hu, hphase, -, hp, hd, -⟩ :=
      hrun.grace_of_cancelled ht
    exact ⟨as, done, still, bs, u, p, heq, hu, hphase, hp, hd⟩
  · exact fun e hexit => hrun.isDone_of_exited hexit
  · exact fun t => List.nodup_iff_count_le_one.mp hrep t
  · exact fun t ht => hrun.inv.subperm.subset ht

end Runs

/-- Callbacks that count completions and stop at the first. -/
private def stopAtFirst : Callbacks Nat Empty Unit Nat :=
  ⟨fun n _ _ => n + 1, fun n _ => n, fun n => 1 ≤ n⟩

/-- Two tasks, of which the second is still running when the window closes. -/
private def oneStraggler : List (Action Nat Empty Unit) :=
  [.finish 0 (.returned ()), .wake [0], .closeGrace [] [1],
    .finish 1 .cancelled, .drained]

/-- The straggler is cancelled and the normal return has reported both. -/
theorem fanOutToCommittee_choreography_oneStraggler :
    ∃ s, Runs stopAtFirst [0, 1] 0 oneStraggler s ∧
      s.reports = [.completed 0 (.returned ()), .cancelled 1] ∧
      ∀ t ∈ [0, 1], s.reported.count t = 1 := by
  obtain ⟨s, hrun, hexit, hrep⟩ : ∃ s, Runs stopAtFirst [0, 1] 0 oneStraggler s ∧
      s.phase = .exited .returned ∧
      s.reports = [.completed 0 (.returned ()), .cancelled 1] := ⟨_, rfl, rfl, rfl⟩
  have hall := fanOutToCommittee_choreography _ _ _ _ s (by decide) hrun
  exact ⟨s, hrun, hrep, (hall.1 hexit).1⟩

end Pytusk.CommitteeFanout
