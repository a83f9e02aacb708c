import Pytusk.CommitteeFanout.Schedules
import Pytusk.Ops.BlobStatusAccounting
import Mathlib.Algebra.Order.Ring.Rat

/-!
# A status query, from its tasks to its report

The fan-out together with what an observer of the nodes notes down: which
nodes the request was sent to, which of them had not answered when the
deadline fired, and which were cancelled once the verdict was settled. The
node tasks exist before the driver does, and the deadline may have passed
before the driver's first step.
-/

namespace Pytusk.BlobStatusQuery

open Pytusk.Lib Pytusk.Certification Pytusk.CommitteeFanout

variable {c : WalrusCommittee}

/-- A node, by its position, which is also its task. -/
abbrev Node (c : WalrusCommittee) := Fin c.members.length

abbrev Driver (c : WalrusCommittee) :=
  State (Node c) PyExn (ExecuteOutcome ReportedStatus) Tally

abbrev DriverAction (c : WalrusCommittee) := Action (Node c) PyExn (ExecuteOutcome ReportedStatus)

structure Session (c : WalrusCommittee) where
  driver : Driver c
  /-- the nodes the request was sent to -/
  queried : List (Node c)
  /-- once the deadline has fired, the nodes that had been queried and had not
  answered by then -/
  overdue : Option (List (Node c))
  /-- the nodes that were cancelled while a quorum was held -/
  cancelledLate : List (Node c)

/-- The driver whose coroutine `wait_for` cancelled before its first step. -/
def unstarted (c : WalrusCommittee) : Driver c where
  phase := .exited .cancelled
  result _ := none
  cancelRequested := []
  reports := []
  acc := .empty

/-- Does `wait_for(.., timeout=max(remaining, 0.0))` let the driver start? -/
def driverStarts (timeoutSeconds elapsed : Rat) : Bool :=
  let remaining := timeoutSeconds - elapsed
  0 < max remaining 0

def Session.started (c : WalrusCommittee) : Session c where
  driver := start (List.finRange c.members.length) .empty
  queried := []
  overdue := none
  cancelledLate := []

def Session.expired (c : WalrusCommittee) : Session c where
  driver := unstarted c
  queried := []
  overdue := some []
  cancelledLate := []

/-- The tasks have been created, `elapsed` seconds after the query began. -/
def Session.begin (c : WalrusCommittee) (timeoutSeconds elapsed : Rat) : Session c :=
  if driverStarts timeoutSeconds elapsed then .started c else .expired c

/-- The node's task ended, and not by a cancellation. -/
def answered (d : Driver c) (i : Node c) : Bool :=
  match d.result i with
  | none | some .cancelled => false
  | some _ => true

theorem driverStarts_iff {timeoutSeconds elapsed : Rat} :
    driverStarts timeoutSeconds elapsed = true ↔ elapsed < timeoutSeconds := by
  unfold driverStarts
  simp

theorem Session.begin_of_lt {timeoutSeconds elapsed : Rat} (h : elapsed < timeoutSeconds) :
    Session.begin c timeoutSeconds elapsed = .started c := by
  unfold Session.begin
  rw [driverStarts_iff.mpr h]
  rfl

theorem Session.begin_of_le {timeoutSeconds elapsed : Rat} (h : timeoutSeconds ≤ elapsed) :
    Session.begin c timeoutSeconds elapsed = .expired c := by
  unfold Session.begin
  rw [if_neg (mt driverStarts_iff.mp (not_lt.mpr h))]

/-- What happens next: a task passes the semaphore and sends its request, or
something the driver's machine knows of. Its `cancelDriver` is the deadline. -/
inductive Occurrence (c : WalrusCommittee) where
  | query (node : Node c)
  | driver (action : DriverAction c)

/-- The tasks an action cancels, besides those the deadline does. -/
def cancels : DriverAction c → List (Node c)
  | .finish i .cancelled => [i]
  | .closeGrace _ still => still
  | _ => []

namespace Session

variable (s : Session c)

/-- A task that was not cancelled has sent its request before it ends. -/
def allows : DriverAction c → Bool
  | .finish _ .cancelled => true
  | .finish i _ => i ∈ s.queried
  | _ => true

/-- What is noted down of an action that took the driver to `d`. -/
def note (a : DriverAction c) (d : Driver c) : Session c where
  driver := d
  queried := s.queried
  overdue :=
    match a with
    | .cancelDriver => s.overdue.or (some (s.queried.filter fun i => !answered s.driver i))
    | _ => s.overdue
  cancelledLate :=
    if (callbacks c).shouldStop s.driver.acc then s.cancelledLate ++ cancels a
    else s.cancelledLate

def step : Occurrence c → Option (Session c)
  | .query i =>
      -- a task with a pending `cancel()` does not pass the semaphore
      if s.driver.isDone i = false ∧ i ∉ s.driver.cancelRequested ∧ i ∉ s.queried then
        some { s with queried := s.queried ++ [i] }
      else none
  | .driver a =>
      if s.allows a then
        (CommitteeFanout.step (callbacks c) (List.finRange c.members.length) s.driver a).map
          (s.note a)
      else none

/-- The report can be built: the driver is done with, one way or another. -/
def Ended : Prop := ∃ exit, s.driver.phase = .exited exit

end Session

/-- A query, as far as some point after its tasks were created. -/
def Session.Runs (c : WalrusCommittee) (timeoutSeconds elapsed : Rat)
    (occurrences : List (Occurrence c)) (s : Session c) : Prop :=
  Lts.run Session.step (Session.begin c timeoutSeconds elapsed) occurrences = some s

/-! ## When an occurrence is enabled -/

section Enabled

variable {s v : Session c}

theorem step_query_eq_some {i : Node c} :
    s.step (.query i) = some v ↔
      (s.driver.isDone i = false ∧ i ∉ s.driver.cancelRequested ∧ i ∉ s.queried) ∧
        { s with queried := s.queried ++ [i] } = v := by
  simp only [Session.step, Option.ite_none_right_eq_some, Option.some.injEq]

theorem step_driver_eq_some {a : DriverAction c} :
    s.step (.driver a) = some v ↔
      s.allows a = true ∧ ∃ d, CommitteeFanout.step (callbacks c)
        (List.finRange c.members.length) s.driver a = some d ∧ s.note a d = v := by
  simp only [Session.step, Option.ite_none_right_eq_some, Option.map_eq_some_iff]

end Enabled

/-! ## A driver that never starts -/

/-- Nothing is reported, and nothing ends the tasks. -/
structure Unawaited (s : Session c) : Prop where
  phase : s.driver.phase = .exited .cancelled
  reports : s.driver.reports = []
  acc : s.driver.acc = .empty
  overdue : s.overdue = some []
  cancelledLate : s.cancelledLate = []

private theorem no_quorum_empty : (callbacks c).shouldStop .empty = false := rfl

private theorem unawaited_expired : Unawaited (Session.expired c) := ⟨rfl, rfl, rfl, rfl, rfl⟩

theorem Unawaited.step {s v : Session c} {o : Occurrence c} (h : Unawaited s)
    (hs : s.step o = some v) : Unawaited v := by
  cases o with
  | query i =>
    obtain ⟨-, rfl⟩ := step_query_eq_some.mp hs
    exact ⟨h.phase, h.reports, h.acc, h.overdue, h.cancelledLate⟩
  | driver a =>
    obtain ⟨-, d, hd, rfl⟩ := step_driver_eq_some.mp hs
    have hlate : (if (callbacks c).shouldStop s.driver.acc then s.cancelledLate ++ cancels a
        else s.cancelledLate) = [] := by
      rw [h.acc, no_quorum_empty, h.cancelledLate]
      rfl
    cases a with
    | finish i r =>
      obtain ⟨-, rfl⟩ := step_finish_eq_some.mp hd
      exact ⟨h.phase, h.reports, h.acc, h.overdue, hlate⟩
    | wake done =>
      obtain ⟨p, hphase, -⟩ := step_wake_eq_some.mp hd
      exact nomatch h.phase.symm.trans hphase
    | closeGrace done still =>
      obtain ⟨p, hphase, -⟩ := step_closeGrace_eq_some.mp hd
      exact nomatch h.phase.symm.trans hphase
    | drained =>
      obtain ⟨still, r, hphase, -⟩ := step_drained_eq_some.mp hd
      exact nomatch h.phase.symm.trans hphase
    | cleaned =>
      obtain ⟨left, e, hphase, -⟩ := step_cleaned_eq_some.mp hd
      exact nomatch h.phase.symm.trans hphase
    | cancelDriver =>
      unfold CommitteeFanout.step onCancelDriver at hd
      rw [h.phase] at hd
      cases hd

theorem Session.Runs.unawaited {timeoutSeconds elapsed : Rat} {occurrences : List (Occurrence c)}
    {s : Session c} (hrun : Session.Runs c timeoutSeconds elapsed occurrences s)
    (hlate : timeoutSeconds ≤ elapsed) : Unawaited s := by
  refine Lts.run_invariant ?_ (fun u o v hu hv => Unawaited.step hu hv) hrun
  rw [Session.begin_of_le hlate]
  exact unawaited_expired

/-! ## A driver that starts -/

/-- The deadline has cut the driver off. -/
def CutOff : Phase (Node c) → Prop
  | .draining _ cancelRequested => cancelRequested = true
  | .cleanup _ _ => True
  | .exited exit => exit = .cancelled
  | _ => False

/-- The driver is past its two waits. -/
def Leaving : Phase (Node c) → Prop
  | .waiting _ | .grace _ => False
  | _ => True

/-- What holds at each point of a query whose driver started. -/
structure Watched (s : Session c) : Prop where
  driver : Inv (callbacks c) (List.finRange c.members.length) .empty s.driver
  calm : s.overdue = none → s.driver.phase.Undisturbed (List.finRange c.members.length)
  cutOff : s.overdue ≠ none → CutOff s.driver.phase
  unsettled : ∀ p, s.driver.phase = .waiting p →
    (callbacks c).shouldStop s.driver.acc = false
  asked : ∀ i, answered s.driver i = true → i ∈ s.queried
  overdueAsked : ∀ l, s.overdue = some l → ∀ i ∈ l, i ∈ s.queried ∧
    ∀ r, .completed i r ∈ s.driver.reports → r = .cancelled
  overdueAll : ∀ l, s.overdue = some l → ∀ i ∈ s.queried,
    i ∈ l ∨ answered s.driver i = true
  requested : Leaving s.driver.phase → ∀ i, s.driver.isDone i = true ∨
    i ∈ s.driver.cancelRequested
  stragglers : ∀ i, .cancelled i ∈ s.driver.reports → i ∈ s.cancelledLate
  lateEnded : ∀ i ∈ s.cancelledLate, s.driver.result i = some .cancelled ∨
    .cancelled i ∈ s.driver.reports
  lateReported : ∀ i ∈ s.cancelledLate, (∀ p, s.driver.phase ≠ .waiting p) ∧
    (i ∈ s.driver.reported → (∃ j, .cancelled j ∈ s.driver.reports) ∨
      s.overdue = none ∧ s.driver.phase = .exited .returned)

private theorem isDone_of_answered {d : Driver c} {i : Node c} (h : answered d i = true) :
    d.isDone i = true := by
  unfold answered at h
  unfold State.isDone
  cases hr : d.result i with
  | none => simp [hr] at h
  | some r => rfl

theorem answered_iff {d : Driver c} {i : Node c} :
    answered d i = true ↔ ∃ r, d.result i = some r ∧ r ≠ .cancelled := by
  unfold answered
  cases hr : d.result i with
  | none => simp
  | some r => cases r <;> simp

private theorem answered_congr {d d' : Driver c} {i : Node c} (h : d'.result = d.result) :
    answered d' i = answered d i := by
  unfold answered
  rw [h]

/-- A task that has not ended is reported only as a straggler. -/
private theorem Watched.straggler_of_reported {s : Session c} (h : Watched s) {i : Node c}
    (hrunning : s.driver.isDone i = false) (hreported : i ∈ s.driver.reported) :
    .cancelled i ∈ s.driver.reports := by
  obtain ⟨rep, hrep, rfl⟩ := List.mem_map.mp hreported
  cases rep with
  | cancelled i => exact hrep
  | completed i r =>
    have hresult := h.driver.result i r hrep
    rw [State.isDone, Report.task, hresult] at hrunning
    cases hrunning

private theorem enterFinally_requested {tasks : List (Node c)} {exit : Exit} {d : Driver c}
    {i : Node c} (hi : i ∈ tasks) :
    (enterFinally tasks exit d).isDone i = true ∨
      i ∈ (enterFinally tasks exit d).cancelRequested := by
  cases hdone : d.isDone i with
  | true =>
    refine .inl ?_
    rw [State.isDone, enterFinally_result]
    exact hdone
  | false =>
    have hmem : i ∈ tasks.filter fun t => !d.isDone t :=
      List.mem_filter.mpr ⟨hi, by simp [hdone]⟩
    refine .inr ?_
    unfold enterFinally
    dsimp only
    rw [if_neg (List.ne_nil_of_mem hmem)]
    exact List.mem_append_right _ hmem

private theorem enterFinally_cutOff {tasks : List (Node c)} {d : Driver c} :
    CutOff (enterFinally tasks .cancelled d).phase := by
  unfold enterFinally
  dsimp only
  split
  · rfl
  · trivial

/-- The deadline has not fired while the driver waits. -/
private theorem Watched.not_overdue {s : Session c} (h : Watched s)
    (hphase : ¬ CutOff s.driver.phase) : s.overdue = none := by
  by_contra hfired
  exact hphase (h.cutOff hfired)

private theorem Watched.query {s : Session c} {i : Node c} (h : Watched s)
    (hrunning : s.driver.isDone i = false) (hnot : i ∉ s.driver.cancelRequested) :
    Watched { s with queried := s.queried ++ [i] } where
  driver := h.driver
  calm := h.calm
  cutOff := h.cutOff
  unsettled := h.unsettled
  asked j hj := List.mem_append_left _ (h.asked j hj)
  overdueAsked l hl j hj :=
    ⟨List.mem_append_left _ (h.overdueAsked l hl j hj).1, (h.overdueAsked l hl j hj).2⟩
  overdueAll l hl j hj := by
    rcases List.mem_append.mp hj with hold | hnew
    · exact h.overdueAll l hl j hold
    · obtain rfl := List.mem_singleton.mp hnew
      have hcut := h.cutOff (by rw [show s.overdue = some l from hl]; simp)
      have hleaving : Leaving s.driver.phase := by
        cases hphase : s.driver.phase with
        | waiting p => rw [hphase] at hcut; exact hcut
        | grace p => rw [hphase] at hcut; exact hcut
        | draining still r => trivial
        | cleanup left e => trivial
        | exited e => trivial
      rcases h.requested hleaving j with hdone | hrequested
      · rw [hrunning] at hdone
        cases hdone
      · exact absurd hrequested hnot
  requested := h.requested
  stragglers := h.stragglers
  lateEnded := h.lateEnded
  lateReported := h.lateReported

private theorem isDone_update {d : Driver c} {i j : Node c}
    {r : TaskResult PyExn (ExecuteOutcome ReportedStatus)} (h : d.isDone j = true) :
    ({ d with result := Function.update d.result i (some r) } : Driver c).isDone j = true := by
  by_cases hj : j = i
  · subst hj
    simp [State.isDone]
  · simpa [State.isDone, hj] using h

private theorem Watched.finish {s : Session c} {i : Node c}
    {r : TaskResult PyExn (ExecuteOutcome ReportedStatus)} {d : Driver c} (h : Watched s)
    (hallows : s.allows (.finish i r) = true)
    (hd : CommitteeFanout.step (callbacks c) (List.finRange c.members.length) s.driver
      (.finish i r) = some d) : Watched (s.note (.finish i r) d) := by
  have hinv := h.driver.step hd
  obtain ⟨⟨-, hrunning⟩, rfl⟩ := step_finish_eq_some.mp hd
  have hold : ∀ j, s.driver.isDone j = true → j ≠ i := by
    rintro j hj rfl
    rw [hrunning] at hj
    cases hj
  have hanswered : ∀ j, answered s.driver j = true →
      answered ({ s.driver with result := Function.update s.driver.result i (some r) } :
        Driver c) j = true := by
    intro j hj
    have hne := hold j (isDone_of_answered hj)
    simpa [answered, hne] using hj
  have hlate : ∀ j ∈ (s.note (.finish i r) { s.driver with
      result := Function.update s.driver.result i (some r) }).cancelledLate,
      j ∈ s.cancelledLate ∨ j = i ∧ r = .cancelled ∧
        (callbacks c).shouldStop s.driver.acc = true := by
    intro j hj
    unfold Session.note at hj
    dsimp only at hj
    split at hj
    · rename_i hstop
      rcases List.mem_append.mp hj with hj | hj
      · exact .inl hj
      · cases r with
        | cancelled => exact .inr ⟨List.mem_singleton.mp hj, rfl, hstop⟩
        | returned v => cases hj
        | raised e => cases hj
    · exact .inl hj
  constructor
  case driver => exact hinv
  case calm => exact h.calm
  case cutOff => exact h.cutOff
  case unsettled => exact h.unsettled
  case asked =>
    intro j hj
    by_cases hji : j = i
    · subst hji
      cases r with
      | cancelled => simp [answered, Session.note] at hj
      | returned v => exact of_decide_eq_true (show decide (j ∈ s.queried) = true from hallows)
      | raised e => exact of_decide_eq_true (show decide (j ∈ s.queried) = true from hallows)
    · refine h.asked j ?_
      simpa [answered, Session.note, hji] using hj
  case overdueAsked => exact h.overdueAsked
  case overdueAll =>
    intro l hl j hj
    rcases h.overdueAll l hl j hj with hmem | hdone
    · exact .inl hmem
    · exact .inr (hanswered j hdone)
  case requested =>
    intro hleaving j
    rcases h.requested hleaving j with hdone | hrequested
    · exact .inl (isDone_update hdone)
    · exact .inr hrequested
  case stragglers =>
    intro j hj
    have hmem := h.stragglers j hj
    unfold Session.note
    dsimp only
    split
    · exact List.mem_append_left _ hmem
    · exact hmem
  case lateEnded =>
    intro j hj
    rcases hlate j hj with hmem | ⟨rfl, rfl, -⟩
    · rcases h.lateEnded j hmem with hcancelled | hstraggler
      · have hne := hold j (by simp [State.isDone, hcancelled])
        exact .inl (by simpa [Session.note, hne] using hcancelled)
      · exact .inr hstraggler
    · exact .inl (by simp [Session.note])
  case lateReported =>
    intro j hj
    rcases hlate j hj with hmem | ⟨rfl, -, hstop⟩
    · exact h.lateReported j hmem
    · constructor
      · intro p hp
        have hnot := h.unsettled p hp
        rw [hstop] at hnot
        cases hnot
      · intro hreported
        exact .inl ⟨j, h.straggler_of_reported hrunning hreported⟩

private theorem Watched.wake {s : Session c} {done : List (Node c)} {d : Driver c}
    (h : Watched s)
    (hd : CommitteeFanout.step (callbacks c) (List.finRange c.members.length) s.driver
      (.wake done) = some d) : Watched (s.note (.wake done) d) := by
  have hinv := h.driver.step hd
  obtain ⟨pending, hphase, -, -, rfl⟩ := step_wake_eq_some.mp hd
  have hnone : s.overdue = none := h.not_overdue (by rw [hphase]; exact id)
  have hcalm := undisturbed_step (by simp) h.driver (h.calm hnone) hd
  have hempty : s.cancelledLate = [] := by
    apply List.eq_nil_iff_forall_not_mem.mpr
    intro i hi
    exact (h.lateReported i hi).1 pending hphase
  have hlate : (s.note (.wake done) (onWake (callbacks c) (List.finRange c.members.length)
      pending done s.driver)).cancelledLate = [] := by
    unfold Session.note
    rw [h.unsettled pending hphase]
    exact hempty
  constructor
  case driver => exact hinv
  case calm => exact fun _ => hcalm
  case cutOff => exact fun hfired => absurd hnone hfired
  case unsettled => exact fun p hp => (onWake_waiting hp).1
  case asked =>
    intro i hi
    exact h.asked i (answered_congr (onWake_result _ _ _ _ _) ▸ hi)
  case overdueAsked => exact fun l hl => nomatch hnone.symm.trans hl
  case overdueAll => exact fun l hl => nomatch hnone.symm.trans hl
  case requested =>
    intro hleaving i
    have hat := hinv.phase
    cases hphase' : (onWake (callbacks c) (List.finRange c.members.length) pending done
      s.driver).phase with
    | waiting p =>
      have : Leaving (Phase.waiting p) := hphase' ▸ hleaving
      exact this.elim
    | grace p =>
      have : Leaving (Phase.grace p) := hphase' ▸ hleaving
      exact this.elim
    | draining still r => exact absurd hphase' onWake_not_draining
    | cleanup left e =>
      rw [hphase'] at hcalm
      exact hcalm.elim
    | exited e =>
      rw [hphase'] at hat
      exact .inl (hat.1 i (List.mem_finRange i))
  case stragglers =>
    intro i hi
    have hnew := (onWake_reports (callbacks c) (List.finRange c.members.length) pending done
      s.driver)
    have hi' : .cancelled i ∈ s.driver.reports ++ s.driver.completions done := hnew ▸ hi
    rcases List.mem_append.mp hi' with hold | hcompletion
    · have hmem := h.stragglers i hold
      rw [hempty] at hmem
      cases hmem
    · exact absurd hcompletion (cancelled_notMem_completions done i)
  case lateEnded =>
    intro i hi
    rw [hlate] at hi
    cases hi
  case lateReported =>
    intro i hi
    rw [hlate] at hi
    cases hi

private theorem mem_onCloseGrace_cancelRequested
    {cb : Callbacks (Node c) PyExn (ExecuteOutcome ReportedStatus) Tally}
    {tasks done still : List (Node c)} {d : Driver c} {i : Node c} (hi : i ∈ still) :
    i ∈ (onCloseGrace cb tasks done still d).cancelRequested := by
  have hne : still ≠ [] := List.ne_nil_of_mem hi
  unfold onCloseGrace
  simp only [foldl_foldCompleted, foldl_foldCancelled, hne, if_false]
  exact List.mem_append_right _ hi

private theorem Watched.closeGrace {s : Session c} {done still : List (Node c)} {d : Driver c}
    (h : Watched s)
    (hd : CommitteeFanout.step (callbacks c) (List.finRange c.members.length) s.driver
      (.closeGrace done still) = some d) : Watched (s.note (.closeGrace done still) d) := by
  have hinv := h.driver.step hd
  obtain ⟨pending, hphase, -, hstill, rfl⟩ := step_closeGrace_eq_some.mp hd
  have hnone : s.overdue = none := h.not_overdue (by rw [hphase]; exact id)
  have hcalm := undisturbed_step (by simp) h.driver (h.calm hnone) hd
  have hgrace := h.driver.phase
  rw [hphase] at hgrace
  have hlate : (s.note (.closeGrace done still) (onCloseGrace (callbacks c)
      (List.finRange c.members.length) done still s.driver)).cancelledLate =
      s.cancelledLate ++ still := by
    unfold Session.note
    rw [hgrace.2.2]
    rfl
  have hreports := onCloseGrace_reports (callbacks c) (List.finRange c.members.length) done still
    s.driver
  -- with stragglers the driver waits for them, without it is done
  have hphase' := onCloseGrace_phase hcalm
  constructor
  case driver => exact hinv
  case calm => exact fun _ => hcalm
  case cutOff => exact fun hfired => absurd hnone hfired
  case unsettled =>
    intro p hp
    rcases hphase' with ⟨-, hdraining⟩ | ⟨-, hexited⟩
    · exact nomatch hdraining.symm.trans hp
    · exact nomatch hexited.symm.trans hp
  case asked =>
    intro i hi
    exact h.asked i (answered_congr (onCloseGrace_result _ _ _ _ _) ▸ hi)
  case overdueAsked => exact fun l hl => nomatch hnone.symm.trans hl
  case overdueAll => exact fun l hl => nomatch hnone.symm.trans hl
  case requested =>
    intro _ i
    have hat := hinv.phase
    rcases hphase' with ⟨-, hdraining⟩ | ⟨-, hexited⟩
    · rw [hdraining] at hat
      by_cases hdone : (onCloseGrace (callbacks c) (List.finRange c.members.length) done still
          s.driver).isDone i = true
      · exact .inl hdone
      · have hmem := hat.2 i (List.mem_finRange i) (by simpa using hdone)
        exact .inr (mem_onCloseGrace_cancelRequested hmem)
    · rw [hexited] at hat
      exact .inl (hat.1 i (List.mem_finRange i))
  case stragglers =>
    intro i hi
    have hi' : .cancelled i ∈ s.driver.reports ++ s.driver.completions done ++
        still.map .cancelled := hreports ▸ hi
    rw [hlate]
    rcases List.mem_append.mp hi' with hbefore | hstraggler
    · rcases List.mem_append.mp hbefore with hold | hcompletion
      · exact List.mem_append_left _ (h.stragglers i hold)
      · exact absurd hcompletion (cancelled_notMem_completions done i)
    · obtain ⟨j, hj, heq⟩ := List.mem_map.mp hstraggler
      cases heq
      exact List.mem_append_right _ hj
  case lateEnded =>
    intro i hi
    rw [hlate] at hi
    show (onCloseGrace _ _ _ _ _).result i = _ ∨ _ ∈ (onCloseGrace _ _ _ _ _).reports
    rw [onCloseGrace_result, hreports]
    rcases List.mem_append.mp hi with hold | hnew
    · rcases h.lateEnded i hold with hcancelled | hstraggler
      · exact .inl hcancelled
      · exact .inr (List.mem_append_left _ (List.mem_append_left _ hstraggler))
    · exact .inr (List.mem_append_right _ (List.mem_map_of_mem hnew))
  case lateReported =>
    intro i _
    show (∀ p, (onCloseGrace _ _ _ _ _).phase ≠ _) ∧ (_ → (∃ j, _ ∈ (onCloseGrace _ _ _ _
      _).reports) ∨ s.overdue = none ∧ (onCloseGrace _ _ _ _ _).phase = _)
    rcases hphase' with ⟨hne, hdraining⟩ | ⟨-, hexited⟩
    · constructor
      · intro p hp
        exact nomatch hdraining.symm.trans hp
      · obtain ⟨j, hj⟩ := List.exists_mem_of_ne_nil still hne
        refine fun _ => .inl ⟨j, ?_⟩
        rw [hreports]
        exact List.mem_append_right _ (List.mem_map_of_mem hj)
    · constructor
      · intro p hp
        exact nomatch hexited.symm.trans hp
      · exact fun _ => .inr ⟨hnone, hexited⟩

/-- The driver leaves, every task having ended. -/
private theorem Watched.exit {s v : Session c} {exit : Exit} (h : Watched s)
    (hleaving : Leaving s.driver.phase) (hrunning : ∀ e, s.driver.phase ≠ .exited e)
    (hinv : Inv (callbacks c) (List.finRange c.members.length) .empty v.driver)
    (hv : v.driver = { s.driver with phase := .exited exit }) (hqueried : v.queried = s.queried)
    (hoverdue : v.overdue = s.overdue) (hlate : v.cancelledLate = s.cancelledLate)
    (hexit : exit = .returned ↔ s.overdue = none) : Watched v where
  driver := hinv
  calm hnone := by
    rw [hv, hexit.mpr (hoverdue ▸ hnone)]
    rfl
  cutOff hfired := by
    rw [hv]
    show exit = .cancelled
    cases exit with
    | cancelled => rfl
    | returned => exact absurd (hoverdue.trans (hexit.mp rfl)) hfired
  unsettled p hp := by
    rw [hv] at hp
    cases hp
  asked i hi := by
    have hsame : answered v.driver i = answered s.driver i := answered_congr (by rw [hv])
    rw [hqueried]
    exact h.asked i (hsame ▸ hi)
  overdueAsked l hl := by
    rw [hv, hqueried]
    exact h.overdueAsked l (hoverdue ▸ hl)
  overdueAll l hl i hi := by
    have hsame : answered v.driver i = answered s.driver i := answered_congr (by rw [hv])
    rw [hsame]
    exact h.overdueAll l (hoverdue ▸ hl) i (hqueried ▸ hi)
  requested _ i := by
    rw [hv]
    exact h.requested hleaving i
  stragglers := by
    rw [hv, hlate]
    exact h.stragglers
  lateEnded := by
    rw [hv, hlate]
    exact h.lateEnded
  lateReported i hi := by
    rw [hv]
    constructor
    · exact fun p hp => nomatch hp
    · intro hreported
      rcases (h.lateReported i (hlate ▸ hi)).2 hreported with hstraggler | ⟨-, hexited⟩
      · exact .inl hstraggler
      · exact absurd hexited (hrunning _)

private theorem note_cancelledLate {s : Session c} {a : DriverAction c} {d : Driver c}
    (h : cancels a = []) : (s.note a d).cancelledLate = s.cancelledLate := by
  unfold Session.note
  dsimp only
  rw [h, List.append_nil, ite_self]

private theorem Watched.drained {s : Session c} {d : Driver c} (h : Watched s)
    (hd : CommitteeFanout.step (callbacks c) (List.finRange c.members.length) s.driver
      .drained = some d) : Watched (s.note .drained d) := by
  have hinv := h.driver.step hd
  obtain ⟨still, r, hphase, hstill, rfl⟩ := step_drained_eq_some.mp hd
  have hat := h.driver.phase
  rw [hphase] at hat
  have hdone : ∀ i ∈ List.finRange c.members.length, s.driver.isDone i = true := by
    intro i hi
    by_contra hrunning
    exact hrunning (List.all_eq_true.mp hstill i (hat.2 i hi (by simpa using hrunning)))
  have hexited : enterFinally (List.finRange c.members.length)
      (if r then .cancelled else .returned) s.driver =
      { s.driver with phase := .exited (if r then .cancelled else .returned) } :=
    enterFinally_of_done _ hdone
  refine h.exit ?_ ?_ hinv hexited rfl rfl (note_cancelledLate rfl) ?_
  · rw [hphase]
    trivial
  · rw [hphase]
    exact fun e he => nomatch he
  · constructor
    · intro hexit
      by_contra hfired
      have hcut := h.cutOff hfired
      rw [hphase] at hcut
      rw [show r = true from hcut] at hexit
      cases hexit
    · intro hnone
      have hcalm := h.calm hnone
      rw [hphase] at hcalm
      rw [hcalm.1]
      rfl

private theorem Watched.cleaned {s : Session c} {d : Driver c} (h : Watched s)
    (hd : CommitteeFanout.step (callbacks c) (List.finRange c.members.length) s.driver
      .cleaned = some d) : Watched (s.note .cleaned d) := by
  have hinv := h.driver.step hd
  obtain ⟨left, exit, hphase, -, rfl⟩ := step_cleaned_eq_some.mp hd
  have hat := h.driver.phase
  rw [hphase] at hat
  refine h.exit ?_ ?_ hinv rfl rfl rfl (note_cancelledLate rfl) ?_
  · rw [hphase]
    trivial
  · rw [hphase]
    exact fun e he => nomatch he
  · constructor
    · intro hreturned
      exact nomatch hat.1.symm.trans hreturned
    · intro hnone
      have hcalm := h.calm hnone
      rw [hphase] at hcalm
      exact hcalm.elim

private theorem onCancelDriver_facts {tasks : List (Node c)} {d d' : Driver c}
    (h : onCancelDriver tasks d = some d') :
    d'.result = d.result ∧ CutOff d'.phase ∧ (∀ e, d.phase ≠ .exited e) := by
  unfold onCancelDriver at h
  split at h
  case h_1 p hphase =>
    cases h
    exact ⟨enterFinally_result _ _ _, enterFinally_cutOff, fun e he => nomatch hphase.symm.trans he⟩
  case h_2 p hphase =>
    cases h
    exact ⟨enterFinally_result _ _ _, enterFinally_cutOff, fun e he => nomatch hphase.symm.trans he⟩
  case h_3 still r hphase =>
    cases h
    exact ⟨rfl, rfl, fun e he => nomatch hphase.symm.trans he⟩
  case h_4 left e hphase =>
    cases h
    exact ⟨rfl, by rw [hphase]; trivial, fun e he => nomatch hphase.symm.trans he⟩
  case h_5 e hphase => cases h

private theorem onCancelDriver_requested {tasks : List (Node c)} {d d' : Driver c} {i : Node c}
    (h : onCancelDriver tasks d = some d') (hi : i ∈ tasks)
    (hold : Leaving d.phase → d.isDone i = true ∨ i ∈ d.cancelRequested) :
    d'.isDone i = true ∨ i ∈ d'.cancelRequested := by
  unfold onCancelDriver at h
  split at h
  case h_1 p hphase =>
    cases h
    exact enterFinally_requested hi
  case h_2 p hphase =>
    cases h
    exact enterFinally_requested hi
  case h_3 still r hphase =>
    cases h
    exact hold (by rw [hphase]; trivial)
  case h_4 left e hphase =>
    cases h
    exact hold (by rw [hphase]; trivial)
  case h_5 e hphase => cases h

/-- The deadline fires: what it finds unanswered is noted down, the first time. -/
private theorem Watched.cancelDriver {s : Session c} {d : Driver c} (h : Watched s)
    (hd : CommitteeFanout.step (callbacks c) (List.finRange c.members.length) s.driver
      .cancelDriver = some d) : Watched (s.note .cancelDriver d) := by
  have hinv := h.driver.step hd
  obtain ⟨hresult, hcut, hrunning⟩ := onCancelDriver_facts hd
  have hreports := onCancelDriver_reports hd
  have hfired : ∀ l, (s.note .cancelDriver d).overdue = some l → s.overdue = some l ∨
      s.overdue = none ∧ s.queried.filter (fun i => !answered s.driver i) = l := by
    intro l hl
    exact Option.or_eq_some_iff.mp hl |>.imp_right (And.imp_right Option.some.inj)
  have hlate : (s.note .cancelDriver d).cancelledLate = s.cancelledLate := note_cancelledLate rfl
  constructor
  case driver => exact hinv
  case calm =>
    intro hnone
    have : s.overdue.or (some (s.queried.filter fun i => !answered s.driver i)) = none := hnone
    simp at this
  case cutOff => exact fun _ => hcut
  case unsettled =>
    intro p hp
    have hwaiting : d.phase = .waiting p := hp
    rw [hwaiting] at hcut
    exact hcut.elim
  case asked =>
    intro i hi
    exact h.asked i (answered_congr hresult ▸ hi)
  case overdueAsked =>
    intro l hl i hi
    show _ ∧ ∀ r, _ ∈ d.reports → _
    rw [hreports]
    rcases hfired l hl with hbefore | ⟨-, rfl⟩
    · exact h.overdueAsked l hbefore i hi
    · obtain ⟨hqueried, hnot⟩ := List.mem_filter.mp hi
      refine ⟨hqueried, fun r hr => ?_⟩
      by_contra hne
      have hanswered := answered_iff.mpr ⟨r, h.driver.result i r hr, hne⟩
      simp [hanswered] at hnot
  case overdueAll =>
    intro l hl i hi
    show _ ∨ answered d i = true
    rw [answered_congr hresult]
    rcases hfired l hl with hbefore | ⟨-, rfl⟩
    · exact h.overdueAll l hbefore i hi
    · by_cases hanswered : answered s.driver i = true
      · exact .inr hanswered
      · exact .inl (List.mem_filter.mpr ⟨hi, by simp [hanswered]⟩)
  case requested =>
    intro _ i
    exact onCancelDriver_requested hd (List.mem_finRange i) fun hleaving =>
      h.requested hleaving i
  case stragglers =>
    rw [hlate]
    show ∀ i, _ ∈ d.reports → _
    rw [hreports]
    exact h.stragglers
  case lateEnded =>
    rw [hlate]
    show ∀ i ∈ _, d.result i = _ ∨ _ ∈ d.reports
    rw [hresult, hreports]
    exact h.lateEnded
  case lateReported =>
    rw [hlate]
    intro i hi
    constructor
    · intro p hp
      have hwaiting : d.phase = .waiting p := hp
      rw [hwaiting] at hcut
      exact hcut
    · intro hreported
      have hreported' : i ∈ s.driver.reported := by
        have : i ∈ d.reports.map Report.task := hreported
        rwa [hreports] at this
      rcases (h.lateReported i hi).2 hreported' with ⟨j, hj⟩ | ⟨-, hexited⟩
      · refine .inl ⟨j, ?_⟩
        show _ ∈ d.reports
        rw [hreports]
        exact hj
      · exact absurd hexited (hrunning _)

theorem Watched.step {s v : Session c} {o : Occurrence c} (h : Watched s)
    (hs : s.step o = some v) : Watched v := by
  cases o with
  | query i =>
    obtain ⟨⟨hrunning, hnot, -⟩, rfl⟩ := step_query_eq_some.mp hs
    exact h.query hrunning hnot
  | driver a =>
    obtain ⟨hallows, d, hd, rfl⟩ := step_driver_eq_some.mp hs
    cases a with
    | finish i r => exact h.finish hallows hd
    | wake done => exact h.wake hd
    | closeGrace done still => exact h.closeGrace hd
    | drained => exact h.drained hd
    | cleaned => exact h.cleaned hd
    | cancelDriver => exact h.cancelDriver hd

private theorem start_acc {tasks : List (Node c)} :
    (start tasks .empty : Driver c).acc = .empty := by
  unfold start leaveLoop
  dsimp only
  split <;> simp

private theorem start_leaving {tasks : List (Node c)} {i : Node c} (hi : i ∈ tasks) :
    ¬ Leaving (start tasks .empty : Driver c).phase := by
  unfold start
  dsimp only
  rw [if_neg (List.ne_nil_of_mem hi)]
  exact id

private theorem watched_started : Watched (Session.started c) where
  driver := inv_start _ _ _
  calm _ := by
    have hrun : CommitteeFanout.Runs (callbacks c) (List.finRange c.members.length) .empty []
      (start (List.finRange c.members.length) .empty) := rfl
    exact hrun.undisturbed (by simp)
  cutOff hfired := absurd rfl hfired
  unsettled p _ := by
    show (callbacks c).shouldStop (start _ _).acc = false
    rw [start_acc]
    exact no_quorum_empty
  asked i hi := by simp [answered, Session.started, start_result] at hi
  overdueAsked l hl := nomatch hl
  overdueAll l hl := nomatch hl
  requested hleaving i := absurd hleaving (start_leaving (List.mem_finRange i))
  stragglers i hi := by
    have hi' : _ ∈ (start (List.finRange c.members.length) .empty : Driver c).reports := hi
    rw [start_reports] at hi'
    cases hi'
  lateEnded i hi := nomatch hi
  lateReported i hi := nomatch hi

theorem Session.Runs.watched {timeoutSeconds elapsed : Rat} {occurrences : List (Occurrence c)}
    {s : Session c} (hrun : Session.Runs c timeoutSeconds elapsed occurrences s)
    (htime : elapsed < timeoutSeconds) : Watched s := by
  refine Lts.run_invariant ?_ (fun u o v hu hv => Watched.step hu hv) hrun
  rw [Session.begin_of_lt htime]
  exact watched_started

end Pytusk.BlobStatusQuery
