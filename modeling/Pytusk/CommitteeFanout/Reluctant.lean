import Pytusk.CommitteeFanout.Schedules

/-!
# Tasks that never end on their own

`reluctantStep` is the machine of an environment in which it is given how a
task ends, and some end only after the driver has cancelled them. A call still
returns, provided the other tasks alone meet the threshold: then the driver
never waits for a slow task without a deadline.
-/

namespace Pytusk.CommitteeFanout

open Pytusk.Lib

variable {ι ε ρ σ : Type*} [DecidableEq ι] {cb : Callbacks ι ε ρ σ} {tasks : List ι} {acc₀ : σ}

section Machine

variable [DecidableEq ε] [DecidableEq ρ]

/-- A step in which a task ends as `ends` says, if that says anything, or as a
straggler that was cancelled. Nobody cancels the driver. -/
def reluctantStep (cb : Callbacks ι ε ρ σ) (tasks : List ι) (ends : ι → Option (TaskResult ε ρ))
    (s : State ι ε ρ σ) : Action ι ε ρ → Option (State ι ε ρ σ)
  | .finish t r =>
      if ends t = some r ∨ r = .cancelled ∧ .cancelled t ∈ s.reports then
        step cb tasks s (.finish t r)
      else none
  | .cancelDriver => none
  | a => step cb tasks s a

variable {s : State ι ε ρ σ}

/-- Tasks that end, and cancelled ones, can do so in any order. -/
private theorem reluctant_finishAll (cb : Callbacks ι ε ρ σ)
    (ends : ι → Option (TaskResult ε ρ)) (f : ι → TaskResult ε ρ) {l : List ι}
    (hnodup : l.Nodup) (hsub : ∀ t ∈ l, t ∈ tasks) (hrunning : ∀ t ∈ l, s.isDone t = false)
    (hends : ∀ t ∈ l, ends t = some (f t) ∨ f t = .cancelled ∧ .cancelled t ∈ s.reports) :
    Lts.run (reluctantStep cb tasks ends) s (l.map fun t => .finish t (f t)) =
      some (s.finishAll l f) := by
  rw [← run_finishAll cb f hnodup hsub hrunning]
  clear hrunning hsub hnodup
  induction l generalizing s with
  | nil => rfl
  | cons t rest ih =>
    obtain ⟨ht, hrest⟩ := List.forall_mem_cons.mp hends
    have hallowed : reluctantStep cb tasks ends s (.finish t (f t)) =
        step cb tasks s (.finish t (f t)) := if_pos ht
    rw [List.map_cons, Lts.run_cons, Lts.run_cons, hallowed]
    cases hstep : step cb tasks s (.finish t (f t)) with
    | none => rfl
    | some u =>
      obtain ⟨-, rfl⟩ := step_finish_eq_some.mp hstep
      exact ih hrest

end Machine

/-! ## Where the driver can be -/

section Invariants

variable {acts : List (Action ι ε ρ)} {s : State ι ε ρ σ}

/-- What is known of the two phases in which the driver waits for tasks: in the
first the threshold is unmet, in the second the stragglers were cancelled. -/
private def Waits (cb : Callbacks ι ε ρ σ) (s : State ι ε ρ σ) : Prop :=
  (∀ p, s.phase = .waiting p → cb.shouldStop s.acc = false) ∧
    ∀ still c, s.phase = .draining still c → ∀ t ∈ still, .cancelled t ∈ s.reports

omit [DecidableEq ι] in
private theorem waits_enterFinally (exit : Exit) (s : State ι ε ρ σ) :
    Waits cb (enterFinally tasks exit s) := by
  constructor
  · intro p hp
    rcases enterFinally_phase s hp with h | ⟨left, h⟩ <;> cases h
  · intro still c hp
    rcases enterFinally_phase s hp with h | ⟨left, h⟩ <;> cases h

private theorem Waits.step {a : Action ι ε ρ} {v : State ι ε ρ σ} (hw : Waits cb s)
    (h : step cb tasks s a = some v) : Waits cb v := by
  cases a with
  | finish t r =>
    obtain ⟨-, rfl⟩ := step_finish_eq_some.mp h
    exact hw
  | wake done =>
    obtain ⟨pending, -, -, -, rfl⟩ := step_wake_eq_some.mp h
    exact ⟨fun p hp => (onWake_waiting hp).1, fun still c hp => absurd hp onWake_not_draining⟩
  | closeGrace done still =>
    obtain ⟨pending, -, -, -, rfl⟩ := step_closeGrace_eq_some.mp h
    unfold onCloseGrace
    dsimp only
    split
    · exact waits_enterFinally _ _
    · refine ⟨fun p hp => (nomatch hp), fun still' c hp t ht => ?_⟩
      obtain ⟨rfl, rfl⟩ : still = still' ∧ false = c := by simpa using hp
      simp only [foldl_foldCompleted, foldl_foldCancelled]
      exact List.mem_append_right _ (List.mem_map.mpr ⟨t, ht, rfl⟩)
  | drained =>
    obtain ⟨still, c, -, -, rfl⟩ := step_drained_eq_some.mp h
    exact waits_enterFinally _ _
  | cleaned =>
    obtain ⟨left, exit, -, -, rfl⟩ := step_cleaned_eq_some.mp h
    exact ⟨fun p hp => (nomatch hp), fun still c hp => nomatch hp⟩
  | cancelDriver =>
    have hcancel : onCancelDriver tasks s = some v := h
    unfold onCancelDriver at hcancel
    split at hcancel
    case h_1 => cases hcancel; exact waits_enterFinally _ _
    case h_2 => cases hcancel; exact waits_enterFinally _ _
    case h_3 still c hphase =>
      cases hcancel
      refine ⟨fun p hp => (nomatch hp), fun still' c' hp => ?_⟩
      obtain ⟨rfl, -⟩ : still = still' ∧ true = c' := by simpa using hp
      exact hw.2 still c hphase
    case h_4 => cases hcancel; exact hw
    case h_5 => cases hcancel

private theorem Runs.waits (hrun : Runs cb tasks acc₀ acts s)
    (hstart : cb.shouldStop acc₀ = false) : Waits cb s := by
  refine Lts.run_invariant ?_ (fun _ _ _ hw hs => hw.step hs) hrun
  unfold start
  dsimp only
  split
  · unfold leaveLoop
    rw [if_pos rfl]
    exact waits_enterFinally _ _
  · exact ⟨fun _ _ => hstart, fun still c hp => nomatch hp⟩

end Invariants

/-! ## The call returns -/

section Returns

variable [DecidableEq ε] [DecidableEq ρ] {ends : ι → Option (TaskResult ε ρ)} {s : State ι ε ρ σ}

/-- The tasks that end meet the threshold. -/
def Enough (cb : Callbacks ι ε ρ σ) (tasks : List ι) (acc₀ : σ)
    (ends : ι → Option (TaskResult ε ρ)) : Prop :=
  ∀ reports : List (Report ι ε ρ), (∀ t r, .completed t r ∈ reports → ends t = some r) →
    (∀ t ∈ tasks, (ends t).isSome → ∃ r, .completed t r ∈ reports) →
    cb.shouldStop (replay cb acc₀ reports) = true

/-- What was folded ended as `ends` says. -/
def FoldedAs (ends : ι → Option (TaskResult ε ρ)) (s : State ι ε ρ σ) : Prop :=
  ∀ t r, .completed t r ∈ s.reports → ends t = some r

omit [DecidableEq ι] [DecidableEq ε] [DecidableEq ρ] in
/-- The driver does not wait for slow tasks only. -/
private theorem Enough.not_waiting (h : Enough cb tasks acc₀ ends)
    (hinv : Inv cb tasks acc₀ s) (hwaits : Waits cb s) (hfolded : FoldedAs ends s) {p : List ι}
    (hphase : s.phase = .waiting p) : ∃ t ∈ p, (ends t).isSome := by
  by_contra hnone
  have hat := hinv.phase
  rw [hphase] at hat
  have hstop := h s.reports hfolded fun t ht hquick => by
    rcases List.mem_append.mp (hat.1.mem_iff.mpr ht) with hreported | hpending
    · obtain ⟨rep, hrep, rfl⟩ := List.mem_map.mp hreported
      cases rep with
      | completed t r => exact ⟨r, hrep⟩
      | cancelled t => exact absurd hrep (hat.2 t)
    · exact absurd ⟨t, hpending, hquick⟩ hnone
  rw [← hinv.acc, hwaits.1 p hphase] at hstop
  cases hstop

/-- The stragglers end, being cancelled, and the call returns. -/
private theorem exists_return_draining (ends : ι → Option (TaskResult ε ρ)) (htasks : tasks.Nodup)
    (hinv : Inv cb tasks acc₀ s) (hcalm : s.phase.Undisturbed tasks) (hwaits : Waits cb s)
    {still : List ι} {c : Bool} (hphase : s.phase = .draining still c) :
    ∃ acts s', Lts.run (reluctantStep cb tasks ends) s acts = some s' ∧
      s'.phase = .exited .returned ∧ s'.reports = s.reports := by
  have hat := hinv.phase
  rw [hphase] at hat hcalm
  obtain ⟨rfl, hstill⟩ := hcalm
  obtain ⟨running, hrunning⟩ : ∃ l, l = tasks.filter fun t => !s.isDone t := ⟨_, rfl⟩
  have hmem : ∀ t ∈ running, t ∈ tasks ∧ s.isDone t = false := by
    intro t ht
    simpa [hrunning] using ht
  have hfinish := reluctant_finishAll cb ends
    (fun _ => (.cancelled : TaskResult ε ρ)) (hrunning ▸ htasks.filter _)
    (fun t ht => (hmem t ht).1) (fun t ht => (hmem t ht).2) fun t ht =>
      .inr ⟨rfl, hwaits.2 still false hphase t (hat.2 t (hmem t ht).1 (hmem t ht).2)⟩
  obtain ⟨u, hu⟩ : ∃ u, u = s.finishAll running fun _ => (.cancelled : TaskResult ε ρ) :=
    ⟨_, rfl⟩
  have hdone : ∀ t ∈ tasks, u.isDone t = true := by
    intro t ht
    by_cases hs : s.isDone t = true
    · have : (s.result t).isSome = true := hs
      simp only [hu, State.isDone, State.finishAll]
      split <;> simp [this]
    · have hmem' : t ∈ running := by simp [hrunning, ht, hs]
      simp [hu, State.isDone, State.finishAll, hmem']
  have hdrained : step cb tasks u .drained = some (enterFinally tasks .returned u) :=
    step_drained_eq_some.mpr ⟨still, false, by rw [hu]; exact hphase,
      List.all_eq_true.mpr fun t ht => hdone t (hstill t ht), rfl⟩
  have hstep : reluctantStep cb tasks ends u .drained =
      some (enterFinally tasks .returned u) := hdrained
  refine ⟨_, enterFinally tasks .returned u, Lts.run_snoc_eq_some.mpr ⟨u, hu ▸ hfinish, hstep⟩,
    ?_, ?_⟩
  · rw [enterFinally_of_done _ hdone]
  · rw [enterFinally_reports, hu]
    rfl

/-- The grace window closes, and the call returns. -/
private theorem exists_return_grace (htasks : tasks.Nodup)
    (hinv : Inv cb tasks acc₀ s) (hcalm : s.phase.Undisturbed tasks) (hwaits : Waits cb s)
    (hans : ∀ t r, s.result t = some r → ends t = some r ∨ .cancelled t ∈ s.reports)
    (hfolded : FoldedAs ends s) {p : List ι} (hphase : s.phase = .grace p) :
    ∃ acts s', Lts.run (reluctantStep cb tasks ends) s acts = some s' ∧
      s'.phase = .exited .returned ∧ FoldedAs ends s' := by
  have hat := hinv.phase
  rw [hphase] at hat
  obtain ⟨v, hv⟩ : ∃ v, v = onCloseGrace cb tasks (p.filter s.isDone)
      (p.filter fun t => !s.isDone t) s := ⟨_, rfl⟩
  have hstep : step cb tasks s (.closeGrace (p.filter s.isDone)
      (p.filter fun t => !s.isDone t)) = some v :=
    step_closeGrace_eq_some.mpr ⟨p, hphase, .refl _, .refl _, hv.symm⟩
  have hcalm' := undisturbed_step (by simp) hinv hcalm hstep
  have hfolded' : FoldedAs ends v := by
    intro t r hr
    rw [hv, onCloseGrace_reports] at hr
    rcases List.mem_append.mp hr with hbefore | hstraggler
    · rcases List.mem_append.mp hbefore with hold | hcompletion
      · exact hfolded t r hold
      · rcases hans t r (mem_completions hcompletion) with h | h
        · exact h
        · exact absurd h (hat.2.1 t)
    · simp at hstraggler
  rcases onCloseGrace_phase (s := s) (hv ▸ hcalm') with ⟨-, hdraining⟩ | ⟨-, hexited⟩
  · obtain ⟨acts, s', hrun, hexit, hreports⟩ := exists_return_draining ends htasks
      (hinv.step hstep) hcalm' (hwaits.step hstep) (hv ▸ hdraining)
    refine ⟨.closeGrace (p.filter s.isDone) (p.filter fun t => !s.isDone t) :: acts, s', ?_,
      hexit, ?_⟩
    · exact Option.bind_eq_some_iff.mpr ⟨v, hstep, hrun⟩
    · intro t r hr
      exact hfolded' t r (hreports ▸ hr)
  · exact ⟨[.closeGrace (p.filter s.isDone) (p.filter fun t => !s.isDone t)], v,
      Option.bind_eq_some_iff.mpr ⟨v, hstep, rfl⟩, hv ▸ hexited, hfolded'⟩

/-- The first wait ends, once every task has that ends at all. -/
private theorem exists_return_waiting (htasks : tasks.Nodup) (hinv : Inv cb tasks acc₀ s)
    (hcalm : s.phase.Undisturbed tasks) (hwaits : Waits cb s)
    (hans : ∀ t r, s.result t = some r → ends t = some r ∨ .cancelled t ∈ s.reports)
    (hfolded : FoldedAs ends s) (henough : Enough cb tasks acc₀ ends)
    (hquick : ∀ t ∈ tasks, (ends t).isSome → s.isDone t = true) {p : List ι}
    (hphase : s.phase = .waiting p) :
    ∃ acts s', Lts.run (reluctantStep cb tasks ends) s acts = some s' ∧
      s'.phase = .exited .returned ∧ FoldedAs ends s' := by
  have hat := hinv.phase
  rw [hphase] at hat
  obtain ⟨v, hv⟩ : ∃ v, v = onWake cb tasks p (p.filter s.isDone) s := ⟨_, rfl⟩
  have hdone : p.filter s.isDone ≠ [] := by
    obtain ⟨t, ht, hends⟩ := henough.not_waiting hinv hwaits hfolded hphase
    have htask := hat.1.subset (List.mem_append_right _ ht)
    exact List.ne_nil_of_mem (List.mem_filter.mpr ⟨ht, hquick t htask hends⟩)
  have hstep : step cb tasks s (.wake (p.filter s.isDone)) = some v :=
    step_wake_eq_some.mpr ⟨p, hphase, hdone, .refl _, hv.symm⟩
  have hreports := onWake_reports cb tasks p (p.filter s.isDone) s
  have hfolded' : FoldedAs ends v := by
    intro t r hr
    rw [hv, hreports] at hr
    rcases List.mem_append.mp hr with hold | hcompletion
    · exact hfolded t r hold
    · rcases hans t r (mem_completions hcompletion) with h | h
      · exact h
      · exact absurd h (hat.2 t)
  have hcalm' := undisturbed_step (by simp) hinv hcalm hstep
  have hinv' := hinv.step hstep
  have hresult : v.result = s.result := hv ▸ onWake_result _ _ _ _ _
  have hfirst : reluctantStep cb tasks ends s (.wake (p.filter s.isDone)) = some v := hstep
  cases hphase' : v.phase with
  | waiting q =>
    -- what is still pending has not ended, so it never does
    obtain ⟨t, ht, hends⟩ := henough.not_waiting hinv' (hwaits.step hstep) hfolded' hphase'
    have hat' := hinv'.phase
    rw [hphase'] at hat'
    have htask := hat'.1.subset (List.mem_append_right _ ht)
    have hrunning : t ∈ p.filter fun t => !s.isDone t := by
      rw [hv] at hphase'
      exact (onWake_waiting hphase').2 ▸ ht
    simp [hquick t htask hends] at hrunning
  | grace q =>
    have hans' : ∀ t r, v.result t = some r → ends t = some r ∨ .cancelled t ∈ v.reports := by
      intro t r hr
      rw [hresult] at hr
      rcases hans t r hr with h | h
      · exact .inl h
      · exact absurd h (hat.2 t)
    obtain ⟨acts, s', hrun, hexit, hs'⟩ := exists_return_grace htasks hinv' hcalm'
      (hwaits.step hstep) hans' hfolded' hphase'
    exact ⟨.wake (p.filter s.isDone) :: acts, s',
      Option.bind_eq_some_iff.mpr ⟨v, hfirst, hrun⟩, hexit, hs'⟩
  | draining still c => exact absurd (hv ▸ hphase') onWake_not_draining
  | cleanup left exit =>
    rw [hphase'] at hcalm'
    exact hcalm'.elim
  | exited exit =>
    rw [hphase'] at hcalm'
    exact ⟨[.wake (p.filter s.isDone)], v, Option.bind_eq_some_iff.mpr ⟨v, hfirst, rfl⟩,
      hphase'.trans (congrArg _ hcalm'), hfolded'⟩

/-- **A call returns in spite of tasks that never end**: from any state of a
run in which the driver is not cancelled, let the tasks that end do so, and it
returns, if they alone meet the threshold. -/
theorem Runs.exists_return_reluctant {acts : List (Action ι ε ρ)}
    (hrun : Runs cb tasks acc₀ acts s) (hcancel : .cancelDriver ∉ acts) (htasks : tasks.Nodup)
    (hstart : cb.shouldStop acc₀ = false) (henough : Enough cb tasks acc₀ ends)
    (hans : ∀ t r, s.result t = some r → ends t = some r ∨ .cancelled t ∈ s.reports) :
    ∃ acts' s', Lts.run (reluctantStep cb tasks ends) s acts' = some s' ∧
      s'.phase = .exited .returned ∧ FoldedAs ends s' := by
  obtain ⟨f, hf⟩ : ∃ f : ι → TaskResult ε ρ, ∀ t, (ends t).isSome → ends t = some (f t) :=
    ⟨fun t => (ends t).getD .cancelled, fun t hends => by
      obtain ⟨r, hr⟩ := Option.isSome_iff_exists.mp hends
      simp [hr]⟩
  obtain ⟨running, hrunning⟩ :
      ∃ l, l = tasks.filter fun t => !s.isDone t && (ends t).isSome := ⟨_, rfl⟩
  have hmem : ∀ t ∈ running, t ∈ tasks ∧ s.isDone t = false ∧ (ends t).isSome := by
    intro t ht
    simpa [hrunning] using ht
  have hnodup : running.Nodup := hrunning ▸ htasks.filter _
  have hfinish := reluctant_finishAll cb ends f hnodup
    (fun t ht => (hmem t ht).1) (fun t ht => (hmem t ht).2.1) fun t ht =>
      .inl (hf t (hmem t ht).2.2)
  have hrun' : Runs cb tasks acc₀ (acts ++ running.map fun t => .finish t (f t))
      (s.finishAll running f) :=
    Lts.run_append_eq_some.mpr ⟨s, hrun, run_finishAll cb f hnodup
      (fun t ht => (hmem t ht).1) (fun t ht => (hmem t ht).2.1)⟩
  obtain ⟨u, hu⟩ : ∃ u, u = s.finishAll running f := ⟨_, rfl⟩
  rw [← hu] at hrun' hfinish
  have hquick : ∀ t ∈ tasks, (ends t).isSome → u.isDone t = true := by
    intro t ht hends
    by_cases hs : s.isDone t = true
    · have : (s.result t).isSome = true := hs
      simp only [hu, State.isDone, State.finishAll]
      split <;> simp [this]
    · have hmem' : t ∈ running := by simp [hrunning, ht, hs, hends]
      simp [hu, State.isDone, State.finishAll, hmem']
  have hans' : ∀ t r, u.result t = some r → ends t = some r ∨ .cancelled t ∈ u.reports := by
    intro t r hr
    rw [hu] at hr ⊢
    simp only [State.finishAll] at hr
    split at hr
    · rename_i ht
      rw [← Option.some.inj hr]
      exact .inl (hf t (hmem t ht).2.2)
    · exact hans t r hr
  have hfolded : FoldedAs ends u := by
    intro t r hr
    rcases hans' t r (hrun'.inv.result t r hr) with h | h
    · exact h
    · cases hrun'.report_unique htasks hr h rfl
  have hcalm := hrun'.undisturbed (by simpa using hcancel)
  have hwaits := Runs.waits hrun' hstart
  have hrest : ∃ acts' s', Lts.run (reluctantStep cb tasks ends) u acts' = some s' ∧
      s'.phase = .exited .returned ∧ FoldedAs ends s' := by
    cases hphase : u.phase with
    | waiting p =>
      exact exists_return_waiting htasks hrun'.inv hcalm hwaits hans' hfolded henough hquick
        hphase
    | grace p => exact exists_return_grace htasks hrun'.inv hcalm hwaits hans' hfolded hphase
    | draining still c =>
      obtain ⟨acts', s', hs', hexit, hreports⟩ := exists_return_draining ends htasks
        hrun'.inv hcalm hwaits hphase
      exact ⟨acts', s', hs', hexit, fun t r hr => hfolded t r (hreports ▸ hr)⟩
    | cleanup left exit =>
      rw [hphase] at hcalm
      exact hcalm.elim
    | exited exit =>
      rw [hphase] at hcalm
      exact ⟨[], u, rfl, hphase.trans (congrArg _ hcalm), hfolded⟩
  obtain ⟨acts', s', hs', hexit, hs''⟩ := hrest
  exact ⟨_, s', Lts.run_append_eq_some.mpr ⟨u, hfinish, hs'⟩, hexit, hs''⟩

end Returns

end Pytusk.CommitteeFanout
