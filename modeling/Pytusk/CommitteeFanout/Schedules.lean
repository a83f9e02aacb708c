import Pytusk.CommitteeFanout.Choreography

/-!
# Which schedules there are

The call ends once its tasks have: an undisturbed run can always be continued
to a normal return (`Runs.exists_return`). And any set of tasks may be the one
that completes (`exists_run`): if it meets the threshold, or is all of them,
there is a run that folds exactly it, in any given order, and cancels the
rest. Callers use the second to show that a condition on the answers is
necessary, not only sufficient.
-/

namespace Pytusk.CommitteeFanout

open Pytusk.Lib

variable {ι ε ρ σ : Type*} [DecidableEq ι] {cb : Callbacks ι ε ρ σ}
variable {tasks : List ι} {acc₀ : σ}

/-- The state after the tasks in `l` have ended as `f` says. -/
def State.finishAll (s : State ι ε ρ σ) (l : List ι) (f : ι → TaskResult ε ρ) :
    State ι ε ρ σ :=
  { s with result := fun t => if t ∈ l then some (f t) else s.result t }

/-- Running tasks can end in any order, each as it likes. -/
theorem run_finishAll (cb : Callbacks ι ε ρ σ) {l : List ι} {s : State ι ε ρ σ}
    (f : ι → TaskResult ε ρ) (hnodup : l.Nodup) (hsub : ∀ t ∈ l, t ∈ tasks)
    (hrun : ∀ t ∈ l, s.isDone t = false) :
    Lts.run (step cb tasks) s (l.map fun t => .finish t (f t)) =
      some (s.finishAll l f) := by
  induction l generalizing s with
  | nil => simp [State.finishAll]
  | cons t rest ih =>
    obtain ⟨ht, hrest⟩ := List.nodup_cons.mp hnodup
    have hstep : step cb tasks s (.finish t (f t)) =
        some { s with result := Function.update s.result t (some (f t)) } :=
      step_finish_eq_some.mpr ⟨⟨hsub t (by simp), hrun t (by simp)⟩, rfl⟩
    rw [List.map_cons, Lts.run_cons, hstep, Option.bind_some,
      ih hrest (fun u hu => hsub u (List.mem_cons_of_mem _ hu))]
    · simp only [State.finishAll, Option.some.injEq, State.mk.injEq, true_and, and_true]
      funext u
      by_cases hu : u = t
      · subst hu; simp [ht]
      · simp [hu]
    · intro u hu
      have hne : u ≠ t := fun e => ht (e ▸ hu)
      simpa [State.isDone, hne] using hrun u (List.mem_cons_of_mem _ hu)

omit [DecidableEq ι] in
theorem enterFinally_of_done {s : State ι ε ρ σ} (exit : Exit)
    (h : ∀ t ∈ tasks, s.isDone t = true) :
    enterFinally tasks exit s = { s with phase := .exited exit } := by
  have hleft : (tasks.filter fun t => !s.isDone t) = [] :=
    List.filter_eq_nil_iff.mpr fun t ht => by simp [h t ht]
  simp only [enterFinally, hleft, if_true]

/-! ## The call ends once its tasks have -/

/-- The suspension points of a driver nobody has cancelled. -/
def Phase.Undisturbed (tasks : List ι) : Phase ι → Prop
  | .waiting pending => pending ≠ []
  | .grace _ => True
  | .draining still cancelRequested =>
      cancelRequested = false ∧ ∀ t ∈ still, t ∈ tasks
  | .cleanup _ _ => False
  | .exited exit => exit = .returned

omit [DecidableEq ι] in
/-- Left normally, the `finally` block finds nothing to cancel. -/
private theorem undisturbed_enterFinally {s : State ι ε ρ σ}
    (hinv : Inv cb tasks acc₀ (enterFinally tasks .returned s)) :
    (enterFinally tasks .returned s).phase.Undisturbed tasks := by
  have hphase := hinv.phase
  simp only [enterFinally] at hphase ⊢
  split at hphase
  · rename_i hleft
    simp [hleft, Phase.Undisturbed]
  · cases hphase.1

omit [DecidableEq ι] in
private theorem undisturbed_leaveLoop {s : State ι ε ρ σ} {pending : List ι}
    (hinv : Inv cb tasks acc₀ (leaveLoop tasks pending s)) :
    (leaveLoop tasks pending s).phase.Undisturbed tasks := by
  unfold leaveLoop at hinv ⊢
  split at hinv
  · rename_i hnil
    rw [if_pos hnil]
    exact undisturbed_enterFinally hinv
  · rename_i hne
    rw [if_neg hne]
    trivial

omit [DecidableEq ι] in
/-- What the driver waits for are tasks. -/
private theorem Inv.mem_of_pending {s : State ι ε ρ σ} (hinv : Inv cb tasks acc₀ s)
    {pending : List ι} (hphase : s.phase = .waiting pending ∨ s.phase = .grace pending)
    {t : ι} (ht : t ∈ pending) : t ∈ tasks := by
  have hp := hinv.phase
  rcases hphase with hphase | hphase <;> rw [hphase] at hp <;>
    exact hp.1.subset (List.mem_append_right _ ht)

theorem undisturbed_step {s v : State ι ε ρ σ} {a : Action ι ε ρ}
    (ha : a ≠ .cancelDriver) (hinv : Inv cb tasks acc₀ s)
    (hs : s.phase.Undisturbed tasks) (h : step cb tasks s a = some v) :
    v.phase.Undisturbed tasks := by
  have hv := hinv.step h
  cases a with
  | finish t r =>
    obtain ⟨-, rfl⟩ := step_finish_eq_some.mp h
    exact hs
  | wake done =>
    obtain ⟨pending, -, -, -, rfl⟩ := step_wake_eq_some.mp h
    simp only [onWake] at hv ⊢
    split at hv
    · rename_i hleave
      rw [if_pos hleave]
      exact undisturbed_leaveLoop hv
    · rename_i hloop
      rw [if_neg hloop]
      exact fun hnil => hloop (.inr hnil)
  | closeGrace done still =>
    obtain ⟨pending, hphase, -, hstill, rfl⟩ := step_closeGrace_eq_some.mp h
    simp only [onCloseGrace] at hv ⊢
    split at hv
    · rename_i hnil
      rw [if_pos hnil]
      exact undisturbed_enterFinally hv
    · rename_i hne
      rw [if_neg hne]
      refine ⟨rfl, fun t ht => hinv.mem_of_pending (.inr hphase) ?_⟩
      exact (List.mem_filter.mp (hstill.mem_iff.mp ht)).1
  | drained =>
    obtain ⟨still, c, hphase, -, rfl⟩ := step_drained_eq_some.mp h
    rw [hphase] at hs
    obtain ⟨rfl, -⟩ := hs
    exact undisturbed_enterFinally hv
  | cleaned =>
    obtain ⟨left, exit, hphase, -, rfl⟩ := step_cleaned_eq_some.mp h
    rw [hphase] at hs
    exact hs.elim
  | cancelDriver => exact absurd rfl ha

omit [DecidableEq ι] in
/-- What closing the grace window leads to: the stragglers are waited for, if
there are any. -/
theorem onCloseGrace_phase {s : State ι ε ρ σ} {done still : List ι}
    (hcalm : (onCloseGrace cb tasks done still s).phase.Undisturbed tasks) :
    (still ≠ [] ∧ (onCloseGrace cb tasks done still s).phase = .draining still false) ∨
      (still = [] ∧ (onCloseGrace cb tasks done still s).phase = .exited .returned) := by
  by_cases hnil : still = []
  · refine .inr ⟨hnil, ?_⟩
    unfold onCloseGrace enterFinally at hcalm ⊢
    dsimp only at hcalm ⊢
    rw [if_pos hnil] at hcalm ⊢
    split
    · rfl
    · rename_i hleft
      rw [if_neg hleft] at hcalm
      exact hcalm.elim
  · refine .inl ⟨hnil, ?_⟩
    unfold onCloseGrace
    dsimp only
    rw [if_neg hnil]

theorem Runs.undisturbed {acts : List (Action ι ε ρ)} {s : State ι ε ρ σ}
    (hrun : Runs cb tasks acc₀ acts s) (hcancel : .cancelDriver ∉ acts) :
    s.phase.Undisturbed tasks := by
  have hstart : (start tasks acc₀ : State ι ε ρ σ).phase.Undisturbed tasks := by
    have hinv := inv_start (ε := ε) (ρ := ρ) cb tasks acc₀
    simp only [start] at hinv ⊢
    split at hinv
    · rename_i hnil
      rw [if_pos hnil]
      exact undisturbed_leaveLoop hinv
    · rename_i hne
      rw [if_neg hne]
      exact hne
  exact (Lts.run_invariant_on
    (P := fun u => Inv cb tasks acc₀ u ∧ u.phase.Undisturbed tasks)
    (Q := fun a => a ≠ .cancelDriver) ⟨inv_start cb tasks acc₀, hstart⟩
    (fun a ha e => hcancel (by rwa [← e]))
    (fun u a v ha hu hs => ⟨hu.1.step hs, undisturbed_step ha hu.1 hu.2 hs⟩) hrun).2

/-- With every task done, the driver's next step is its return. -/
private theorem exists_step_return {s : State ι ε ρ σ} (hinv : Inv cb tasks acc₀ s)
    (hs : s.phase.Undisturbed tasks) (hdone : ∀ t ∈ tasks, s.isDone t = true) :
    ∃ acts v, Lts.run (step cb tasks) s acts = some v ∧ v.phase = .exited .returned ∧
      v.result = s.result ∧ ∀ a ∈ acts, a = .drained ∨ (∃ done, a = .wake done) ∨
        ∃ done still, a = .closeGrace done still := by
  have hall : ∀ pending : List ι, (∀ t ∈ pending, t ∈ tasks) →
      pending.filter s.isDone = pending ∧ pending.filter (fun t => !s.isDone t) = [] :=
    fun pending hp => ⟨List.filter_eq_self.mpr fun t ht => hdone t (hp t ht),
      List.filter_eq_nil_iff.mpr fun t ht => by simp [hdone t (hp t ht)]⟩
  cases hphase : s.phase with
  | waiting pending =>
    rw [hphase] at hs
    obtain ⟨hself, hnil⟩ := hall pending fun _ => hinv.mem_of_pending (.inl hphase)
    have hstep : step cb tasks s (.wake pending) =
        some (onWake cb tasks pending pending s) :=
      step_wake_eq_some.mpr ⟨pending, hphase, hs, by simp [IsDoneSet, hself], rfl⟩
    refine ⟨[.wake pending], _, by rw [Lts.run_cons, hstep]; rfl, ?_, ?_, by simp⟩
    · simp only [onWake, foldl_foldCompleted, hnil, or_true, if_true, leaveLoop]
      refine congrArg State.phase (enterFinally_of_done .returned ?_)
      exact hdone
    · simp [onWake, foldl_foldCompleted, hnil, leaveLoop]
  | grace pending =>
    obtain ⟨hself, hnil⟩ := hall pending fun _ => hinv.mem_of_pending (.inr hphase)
    have hstep : step cb tasks s (.closeGrace pending []) =
        some (onCloseGrace cb tasks pending [] s) :=
      step_closeGrace_eq_some.mpr ⟨pending, hphase, by simp [IsDoneSet, hself],
        by simp [IsStillPending, hnil], rfl⟩
    refine ⟨[.closeGrace pending []], _, by rw [Lts.run_cons, hstep]; rfl, ?_, ?_, by simp⟩
    · simp only [onCloseGrace, foldl_foldCompleted, List.foldl_nil, if_true]
      refine congrArg State.phase (enterFinally_of_done .returned ?_)
      exact hdone
    · simp [onCloseGrace, foldl_foldCompleted]
  | draining still c =>
    rw [hphase] at hs
    obtain ⟨rfl, hsub⟩ := hs
    have hstep : step cb tasks s .drained = some (enterFinally tasks .returned s) :=
      step_drained_eq_some.mpr ⟨still, false, hphase,
        List.all_eq_true.mpr fun t ht => hdone t (hsub t ht), rfl⟩
    refine ⟨[.drained], _, by rw [Lts.run_cons, hstep]; rfl, ?_, by simp, by simp⟩
    rw [enterFinally_of_done _ hdone]
  | cleanup left exit =>
    rw [hphase] at hs
    exact hs.elim
  | exited exit =>
    rw [hphase] at hs
    exact ⟨[], s, rfl, by rw [hphase, hs], rfl, by simp⟩

/-- **An undisturbed call returns once its tasks have ended**: from any state
of a run in which the driver is not cancelled, let the tasks still running end
as `f` says, and it returns. -/
theorem Runs.exists_return {acts : List (Action ι ε ρ)} {s : State ι ε ρ σ}
    (hrun : Runs cb tasks acc₀ acts s) (hcancel : .cancelDriver ∉ acts)
    (htasks : tasks.Nodup) (f : ι → TaskResult ε ρ) :
    ∃ acts' s', Lts.run (step cb tasks) s acts' = some s' ∧
      s'.phase = .exited .returned ∧
      (∀ t r, s'.result t = some r → s.result t = some r ∨ r = f t) ∧
      .cancelDriver ∉ acts' ∧ ∀ t r, .finish t r ∈ acts' → r = f t := by
  obtain ⟨running, hrunning⟩ : ∃ l, l = tasks.filter fun t => !s.isDone t := ⟨_, rfl⟩
  have hmem : ∀ t ∈ running, t ∈ tasks ∧ s.isDone t = false := fun t ht => by
    simpa [hrunning] using ht
  have hfinish := run_finishAll cb f
    (hrunning ▸ htasks.filter _) (fun t ht => (hmem t ht).1) (fun t ht => (hmem t ht).2)
  have hrun' : Runs cb tasks acc₀ (acts ++ running.map fun t => .finish t (f t))
      (s.finishAll running f) :=
    Lts.run_append_eq_some.mpr ⟨s, hrun, hfinish⟩
  have hdone : ∀ t ∈ tasks, (s.finishAll running f).isDone t = true := by
    intro t ht
    by_cases hs : s.isDone t = true
    · have : (s.result t).isSome = true := hs
      simp only [State.isDone, State.finishAll]
      split <;> simp [this]
    · have hmem : t ∈ running := by simp [hrunning, ht, hs]
      simp [State.isDone, State.finishAll, hmem]
  obtain ⟨acts', v, hv, hexit, hresult, hkinds⟩ := exists_step_return hrun'.inv
    (hrun'.undisturbed (by simpa using hcancel)) hdone
  refine ⟨_, v, Lts.run_append_eq_some.mpr ⟨_, hfinish, hv⟩, hexit, fun t r hr => ?_,
    fun h => ?_, fun t r h => ?_⟩
  · rw [hresult] at hr
    simp only [State.finishAll] at hr
    split at hr
    · exact .inr (Option.some.inj hr).symm
    · exact .inl hr
  · rcases List.mem_append.mp h with h | h
    · simp at h
    · have := hkinds _ h
      simp at this
  · rcases List.mem_append.mp h with h | h
    · obtain ⟨u, -, hu⟩ := List.mem_map.mp h
      cases hu
      rfl
    · have := hkinds _ h
      simp at this

/-! ## Chosen completions -/

/-- The tasks of `tasks` outside `l`. -/
def others (tasks l : List ι) : List ι := tasks.filter (· ∉ l)

/-- The tasks in `l` end, and the driver folds them in that order. -/
private theorem exists_run_firstBatch {l : List ι} (f : ι → TaskResult ε ρ)
    (hnodup : l.Nodup) (htasks : tasks.Nodup) (hsub : ∀ t ∈ l, t ∈ tasks) (hne : l ≠ [])
    (hstop : others tasks l ≠ [] →
      cb.shouldStop (replay cb acc₀ (l.map fun t => .completed t (f t))) = true) :
    ∃ acts s, Runs cb tasks acc₀ acts s ∧
      s.reports = l.map (fun t => .completed t (f t)) ∧
      (∀ t, s.isDone t = decide (t ∈ l)) ∧
      s.phase = if others tasks l = [] then .exited .returned
        else .grace (others tasks l) := by
  have htne : tasks ≠ [] := by
    rintro rfl
    obtain ⟨t, ht⟩ := List.exists_mem_of_ne_nil l hne
    exact absurd (hsub t ht) (by simp)
  have hstart : (start tasks acc₀ : State ι ε ρ σ) =
      { phase := .waiting tasks, result := fun _ => none, cancelRequested := [],
        reports := [], acc := acc₀ } := by
    simp [start, htne]
  have hrun := run_finishAll cb f hnodup hsub (fun t _ => by
    simp [hstart, State.isDone] : ∀ t ∈ l, (start tasks acc₀).isDone t = false)
  obtain ⟨s₁, hs₁⟩ : ∃ s₁, s₁ = (start tasks acc₀ : State ι ε ρ σ).finishAll l f := ⟨_, rfl⟩
  have hphase : s₁.phase = .waiting tasks := by simp [hs₁, State.finishAll, hstart]
  have hdone : ∀ t, s₁.isDone t = decide (t ∈ l) := by
    intro t
    by_cases ht : t ∈ l <;> simp [hs₁, State.finishAll, State.isDone, hstart, ht]
  have hcomp : s₁.completions l = l.map fun t => Report.completed t (f t) := by
    rw [State.completions, ← List.filterMap_eq_map]
    apply List.filterMap_congr
    intro t ht
    simp [hs₁, State.finishAll, ht]
  have hpending : (tasks.filter fun t => !s₁.isDone t) = others tasks l := by
    simp [others, hdone]
  have hdoneSet : IsDoneSet s₁ tasks l := by
    refine (List.perm_ext_iff_of_nodup hnodup (htasks.filter _)).mpr fun t => ?_
    simp only [List.mem_filter, hdone, decide_eq_true_eq]
    exact ⟨fun ht => ⟨hsub t ht, ht⟩, And.right⟩
  have hwake : step cb tasks s₁ (.wake l) = some (onWake cb tasks tasks l s₁) :=
    step_wake_eq_some.mpr ⟨tasks, hphase, hne, hdoneSet, rfl⟩
  have hfold : onWake cb tasks tasks l s₁ = leaveLoop tasks (others tasks l)
      { s₁ with
        acc := replay cb s₁.acc (s₁.completions l)
        reports := s₁.reports ++ s₁.completions l } := by
    have hacc : s₁.acc = acc₀ := by simp [hs₁, State.finishAll, hstart]
    simp only [onWake, foldl_foldCompleted, hpending, hcomp, hacc]
    by_cases hrest : others tasks l = []
    · simp [hrest]
    · simp [hstop hrest]
  refine ⟨_, onWake cb tasks tasks l s₁,
    Lts.run_snoc_eq_some.mpr ⟨s₁, hs₁ ▸ hrun, hwake⟩, ?_, ?_, ?_⟩
  · rw [onWake_reports, hcomp]
    simp [hs₁, State.finishAll, hstart]
  · intro t
    rw [hfold]
    simp only [leaveLoop]
    split <;> simpa [State.isDone] using hdone t
  · rw [hfold, leaveLoop]
    by_cases hrest : others tasks l = []
    · have hall : ∀ t ∈ tasks, s₁.isDone t = true := fun t ht => by
        simpa using List.filter_eq_nil_iff.mp (hpending.trans hrest) t ht
      rw [if_pos hrest, if_pos hrest]
      refine congrArg State.phase (enterFinally_of_done _ ?_)
      exact hall
    · rw [if_neg hrest, if_neg hrest]

/-- The window closes on tasks that are all still running: they are
cancelled, end so, and the call returns. -/
private theorem exists_run_closeGrace (cb : Callbacks ι ε ρ σ) {s : State ι ε ρ σ} {rest : List ι}
    (hphase : s.phase = .grace rest) (hne : rest ≠ []) (hnodup : rest.Nodup)
    (hsub : ∀ t ∈ rest, t ∈ tasks) (hdone : ∀ t ∈ tasks, s.isDone t = decide (t ∉ rest)) :
    ∃ acts s', Lts.run (step cb tasks) s acts = some s' ∧
      s'.phase = .exited .returned ∧
      s'.reports = s.reports ++ rest.map .cancelled := by
  have hrunning : ∀ t ∈ rest, s.isDone t = false := fun t ht => by
    simp [hdone t (hsub t ht), ht]
  have hclose : step cb tasks s (.closeGrace [] rest) =
      some (onCloseGrace cb tasks [] rest s) := by
    refine step_closeGrace_eq_some.mpr ⟨rest, hphase, ?_, ?_, rfl⟩
    · have hnone : rest.filter s.isDone = [] :=
        List.filter_eq_nil_iff.mpr fun t ht => by simp [hrunning t ht]
      simp [IsDoneSet, hnone]
    · have hall : rest.filter (fun t => !s.isDone t) = rest :=
        List.filter_eq_self.mpr fun t ht => by simp [hrunning t ht]
      simp [IsStillPending, hall]
  obtain ⟨s₁, hs₁⟩ : ∃ s₁, s₁ = onCloseGrace cb tasks [] rest s := ⟨_, rfl⟩
  have hphase₁ : s₁.phase = .draining rest false := by
    simp [hs₁, onCloseGrace, foldl_foldCancelled, hne]
  have hresult₁ : s₁.result = s.result := by
    simp [hs₁, onCloseGrace, foldl_foldCancelled, hne]
  have hreports₁ : s₁.reports = s.reports ++ rest.map .cancelled := by
    rw [hs₁, onCloseGrace_reports]
    simp [State.completions]
  have hrun := run_finishAll cb (fun _ => .cancelled) hnodup hsub (fun t ht => by
    simpa [State.isDone, hresult₁] using hrunning t ht : ∀ t ∈ rest, s₁.isDone t = false)
  obtain ⟨s₂, hs₂⟩ : ∃ s₂, s₂ = s₁.finishAll rest fun _ => .cancelled := ⟨_, rfl⟩
  have hdone₂ : ∀ t ∈ tasks, s₂.isDone t = true := by
    intro t ht
    by_cases hr : t ∈ rest
    · simp [hs₂, State.finishAll, State.isDone, hr]
    · have := hdone t ht
      simpa [hs₂, State.finishAll, State.isDone, hr, hresult₁] using this
  have hdrain : step cb tasks s₂ .drained = some (enterFinally tasks .returned s₂) :=
    step_drained_eq_some.mpr ⟨rest, false, by rw [hs₂]; exact hphase₁,
      List.all_eq_true.mpr fun t ht => hdone₂ t (hsub t ht), rfl⟩
  refine ⟨.closeGrace [] rest :: ((rest.map fun t => .finish t .cancelled) ++ [.drained]),
    enterFinally tasks .returned s₂, ?_, ?_, ?_⟩
  · rw [Lts.run_cons, hclose, Option.bind_some, ← hs₁]
    exact Lts.run_snoc_eq_some.mpr ⟨s₂, hs₂ ▸ hrun, hdrain⟩
  · rw [enterFinally_of_done _ hdone₂]
  · rw [enterFinally_reports, hs₂]
    exact hreports₁

/-- **Any completion set is possible**: a run that folds exactly `l`, in that
order, and cancels the other tasks, if there are any and the threshold is met
by then. -/
theorem exists_run (cb : Callbacks ι ε ρ σ) (acc₀ : σ) {l : List ι}
    (f : ι → TaskResult ε ρ) (hnodup : l.Nodup)
    (htasks : tasks.Nodup) (hsub : ∀ t ∈ l, t ∈ tasks) (hne : l ≠ [])
    (hstop : others tasks l ≠ [] →
      cb.shouldStop (replay cb acc₀ (l.map fun t => .completed t (f t))) = true) :
    ∃ acts s, Runs cb tasks acc₀ acts s ∧ s.phase = .exited .returned ∧
      s.reports = l.map (fun t => .completed t (f t)) ++
        (others tasks l).map .cancelled := by
  obtain ⟨acts, s, hrun, hreports, hdone, hphase⟩ :=
    exists_run_firstBatch f hnodup htasks hsub hne hstop
  by_cases hrest : others tasks l = []
  · rw [if_pos hrest] at hphase
    exact ⟨acts, s, hrun, hphase, by rw [hreports, hrest]; simp⟩
  · rw [if_neg hrest] at hphase
    have hdone' : ∀ t ∈ tasks, s.isDone t = decide (t ∉ others tasks l) := by
      intro t ht
      simp [hdone, others, ht]
    obtain ⟨acts', s', hrun', hexit, hreports'⟩ := exists_run_closeGrace cb hphase
      hrest (htasks.filter _) (fun t ht => (List.mem_filter.mp ht).1) hdone'
    exact ⟨acts ++ acts', s', Lts.run_append_eq_some.mpr ⟨s, hrun, hrun'⟩, hexit,
      by rw [hreports', hreports]⟩

end Pytusk.CommitteeFanout
