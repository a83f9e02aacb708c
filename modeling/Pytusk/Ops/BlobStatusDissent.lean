import Pytusk.Ops.BlobStatusSession
import Mathlib.Tactic.NormNum

/-!
# What the reasons of a status report say, and what outlives it

`DissentReason` documents `TIMEOUT` as "did not answer before the deadline"
and `NOT_CHECKED` as "never queried, or cancelled once the verdict was already
settled". `_cancelled` gives `TIMEOUT` to the stragglers of a settled verdict
instead, and what the deadline cuts off is reconciled as `NOT_CHECKED`. The
second result is about the tasks: the driver that owns them ends them, if it
is ever started.
-/

namespace Pytusk.BlobStatusQuery

open Pytusk.Lib Pytusk.Certification Pytusk.CommitteeFanout

variable {c : WalrusCommittee}

/-! ## Which node carries which reason -/

section Entries

variable {reports : List (StatusReport c)} {blobId : Bytes}

private theorem get_injective (hd : c.Distinct) {i j : Node c}
    (h : (c.members.get i).nodeId = (c.members.get j).nodeId) : i = j := by
  have hinj := List.nodup_iff_injective_get.mp hd
  have := @hinj ⟨i, by simp⟩ ⟨j, by simp⟩ (by simpa using h)
  exact Fin.ext (by simpa using this)

private theorem mem_failures {i : Node c} {reason : DissentReason} (hd : c.Distinct) :
    ⟨nodeRef (c.members.get i), reason⟩ ∈ failures reports ↔
      ∃ rep ∈ reports, rep.task = i ∧ answer rep = none ∧ failure rep = reason := by
  unfold failures
  simp only [List.mem_filterMap, Option.ite_none_right_eq_some, Option.some.injEq]
  constructor
  · rintro ⟨rep, hrep, hnone, heq⟩
    injection heq with hnode hreason
    exact ⟨rep, hrep, get_injective hd (congrArg NodeRef.nodeId hnode), hnone, hreason⟩
  · rintro ⟨rep, hrep, rfl, hnone, rfl⟩
    exact ⟨rep, hrep, hnone, rfl⟩

private theorem mem_unchecked {i : Node c} {reason : DissentReason} (hd : c.Distinct) :
    ⟨nodeRef (c.members.get i), reason⟩ ∈ unchecked c.members (tallyOf reports).answered ↔
      i ∉ reports.map Report.task ∧ reason = .notChecked := by
  rw [← mem_answered_iff hd reports i]
  unfold unchecked
  simp only [List.mem_map, List.mem_filter, decide_eq_true_eq]
  constructor
  · rintro ⟨m, ⟨-, hnot⟩, heq⟩
    injection heq with hnode hreason
    rw [show m.nodeId = (c.members.get i).nodeId from congrArg NodeRef.nodeId hnode] at hnot
    exact ⟨hnot, hreason.symm⟩
  · rintro ⟨hnot, rfl⟩
    exact ⟨c.members.get i, ⟨List.get_mem _ _, hnot⟩, rfl⟩

private theorem mem_disagreeing {i : Node c} {reason : DissentReason} {verdict : BlobStatus}
    (hd : c.Distinct)
    (h : ⟨nodeRef (c.members.get i), reason⟩ ∈
      disagreeing (tallyOf reports).nodesByStatus verdict) :
    (∃ r, .completed i r ∈ reports ∧ r ≠ .cancelled) ∧
      (reason = .notStored ∨ reason = .disagreed) := by
  obtain ⟨item, hitem, hmem⟩ := List.mem_flatMap.mp h
  split at hmem
  · cases hmem
  · obtain ⟨node, hnode, heq⟩ := List.mem_map.mp hmem
    injection heq with hsame hreason
    have hflat : node ∈ (tallyOf reports).nodesByStatus.flatMap Prod.snd :=
      List.mem_flatMap.mpr ⟨item, hitem, hnode⟩
    have hanswers : ((tallyOf reports).nodesByStatus.flatMap Prod.snd).Perm
        ((answers reports).map Prod.snd) := Dict.flatMap_groupFold_append _
    obtain ⟨a, ha, rfl⟩ := List.mem_map.mp (hanswers.mem_iff.mp hflat)
    obtain ⟨rep, hrep, hanswer⟩ := List.mem_filterMap.mp ha
    obtain ⟨st, hst, rfl⟩ := Option.map_eq_some_iff.mp hanswer
    have htask : rep.task = i := get_injective hd (congrArg NodeRef.nodeId hsame)
    constructor
    · cases rep with
      | cancelled j => cases hst
      | completed j r =>
        obtain rfl : j = i := htask
        refine ⟨r, hrep, ?_⟩
        rintro rfl
        cases hst
    · split at hreason
      · exact .inl hreason.symm
      · exact .inr hreason.symm

private theorem mem_dissenting {entry : NodeDissent} :
    entry ∈ (buildReport c blobId (tallyOf reports)).dissenting ↔
      (entry ∈ failures reports ∨
        entry ∈ unchecked c.members (tallyOf reports).answered) ∨
      entry ∈ disagreeing (tallyOf reports).nodesByStatus
        (buildReport c blobId (tallyOf reports)).status := by
  rw [buildReport_tallyOf]
  simp only [List.mem_append]
  rfl

private theorem statusFromNode_error {outcome : ExecuteOutcome ReportedStatus}
    (h : (statusFromNode outcome).1 = none) : (statusFromNode outcome).2 = some .error := by
  cases outcome with
  | error e => rfl
  | ok result =>
    cases result with
    | failed text => rfl
    | ok status =>
      cases status with
      | none => rfl
      | some st => cases h

/-- Where an entry of the report comes from. -/
theorem dissent_cases {i : Node c} {reason : DissentReason} (hd : c.Distinct)
    (h : ⟨nodeRef (c.members.get i), reason⟩ ∈
      (buildReport c blobId (tallyOf reports)).dissenting) :
    (.cancelled i ∈ reports ∧ reason = .timeout) ∨
    (.completed i .cancelled ∈ reports ∧ reason = .notChecked) ∨
    (i ∉ reports.map Report.task ∧ reason = .notChecked) ∨
    (∃ r, .completed i r ∈ reports ∧ r ≠ .cancelled) ∧
      reason ≠ .timeout ∧ reason ≠ .notChecked := by
  rcases mem_dissenting.mp h with (hfailure | hunchecked) | hdisagree
  · obtain ⟨rep, hrep, rfl, hnone, rfl⟩ := (mem_failures hd).mp hfailure
    cases rep with
    | cancelled j => exact .inl ⟨hrep, rfl⟩
    | completed j r =>
      cases r with
      | cancelled => exact .inr (.inl ⟨hrep, rfl⟩)
      | raised e =>
        exact .inr (.inr (.inr ⟨⟨_, hrep, by simp⟩, by simp [failure], by simp [failure]⟩))
      | returned outcome =>
        have herror : failure (.completed j (.returned outcome) : StatusReport c) = .error := by
          unfold failure
          dsimp only
          rw [statusFromNode_error hnone]
          rfl
        exact .inr (.inr (.inr ⟨⟨_, hrep, by simp⟩, by simp [herror], by simp [herror]⟩))
  · exact .inr (.inr (.inl ((mem_unchecked hd).mp hunchecked)))
  · obtain ⟨hanswered, hreason⟩ := mem_disagreeing hd hdisagree
    refine .inr (.inr (.inr ⟨hanswered, ?_⟩))
    rcases hreason with rfl | rfl <;> simp

/-- A straggler is given `TIMEOUT`. -/
theorem dissent_of_straggler {i : Node c} (hd : c.Distinct) (h : .cancelled i ∈ reports) :
    ⟨nodeRef (c.members.get i), .timeout⟩ ∈
      (buildReport c blobId (tallyOf reports)).dissenting :=
  mem_dissenting.mpr (.inl (.inl ((mem_failures hd).mpr ⟨_, h, rfl, rfl, rfl⟩)))

/-- A node whose task was cancelled from outside is given `NOT_CHECKED`. -/
theorem dissent_of_cancelled {i : Node c} (hd : c.Distinct)
    (h : .completed i .cancelled ∈ reports) :
    ⟨nodeRef (c.members.get i), .notChecked⟩ ∈
      (buildReport c blobId (tallyOf reports)).dissenting :=
  mem_dissenting.mpr (.inl (.inl ((mem_failures hd).mpr ⟨_, h, rfl, rfl, rfl⟩)))

/-- So is a node that was never folded. -/
theorem dissent_of_unreported {i : Node c} (hd : c.Distinct)
    (h : i ∉ reports.map Report.task) :
    ⟨nodeRef (c.members.get i), .notChecked⟩ ∈
      (buildReport c blobId (tallyOf reports)).dissenting :=
  mem_dissenting.mpr (.inl (.inr ((mem_unchecked hd).mpr ⟨h, rfl⟩)))

end Entries

/-! ## What the reasons are documented to mean -/

namespace Session

variable (s : Session c)

/-- It had been queried, and had not answered when the deadline fired. -/
def TimedOut (i : Node c) : Prop := ∃ nodes, s.overdue = some nodes ∧ i ∈ nodes

/-- It was never queried, or cancelled after the verdict was settled. -/
def NotChecked (i : Node c) : Prop := i ∉ s.queried ∨ i ∈ s.cancelledLate

/-- Each dissenting node carries `TIMEOUT`, and `NOT_CHECKED`, exactly when
the documentation says so. -/
def Truthful (report : BlobStatusReport) : Prop :=
  ∀ i reason, ⟨nodeRef (c.members.get i), reason⟩ ∈ report.dissenting →
    (reason = .timeout ↔ s.TimedOut i) ∧ (reason = .notChecked ↔ s.NotChecked i)

/-- Nothing but answers decided the report: the grace window left no
straggler, the deadline cut off no node that had been queried, and no queried
node's task was cancelled from outside before the verdict was settled. -/
structure AnswersOnly : Prop where
  noStraggler : ∀ i, .cancelled i ∉ s.driver.reports
  allFolded : ∀ i ∈ s.queried, i ∈ s.driver.reported
  notCancelled : ∀ i ∈ s.queried, .completed i .cancelled ∈ s.driver.reports →
    i ∈ s.cancelledLate

end Session

private theorem Watched.acc_eq {s : Session c} (h : Watched s) :
    s.driver.acc = tallyOf s.driver.reports :=
  h.driver.acc.trans (replay_eq_tallyOf _)

private theorem Watched.report_unique {s : Session c} (h : Watched s) {x y : StatusReport c}
    (hx : x ∈ s.driver.reports) (hy : y ∈ s.driver.reports) (htask : x.task = y.task) :
    x = y := by
  obtain ⟨l, hperm, hsub⟩ := h.driver.subperm
  have hnodup : s.driver.reported.Nodup :=
    hperm.nodup_iff.mp ((List.nodup_finRange _).sublist hsub)
  exact List.inj_on_of_nodup_map hnodup hx hy htask

/-- A node whose answer was folded has neither of the two excuses. -/
private theorem Watched.of_answer {s : Session c} (h : Watched s) {i : Node c}
    {r : TaskResult PyExn (ExecuteOutcome ReportedStatus)}
    (hr : .completed i r ∈ s.driver.reports) (hne : r ≠ .cancelled) :
    ¬ s.TimedOut i ∧ ¬ s.NotChecked i := by
  have hresult := h.driver.result i r hr
  constructor
  · rintro ⟨nodes, hnodes, hi⟩
    exact hne ((h.overdueAsked nodes hnodes i hi).2 r hr)
  · rintro (hunqueried | hlate)
    · exact hunqueried (h.asked i (answered_iff.mpr ⟨r, hresult, hne⟩))
    · rcases h.lateEnded i hlate with hcancelled | hstraggler
      · rw [hresult] at hcancelled
        exact hne (Option.some.inj hcancelled)
      · exact nomatch h.report_unique hr hstraggler rfl

private theorem Watched.truthful_of_answersOnly {s : Session c} (h : Watched s)
    (hd : c.Distinct) (blobId : Bytes) (hplain : s.AnswersOnly) :
    s.Truthful (buildReport c blobId s.driver.acc) := by
  intro i reason hentry
  rw [h.acc_eq] at hentry
  rcases dissent_cases hd hentry with ⟨hstraggler, -⟩ | ⟨hcancelled, rfl⟩ |
    ⟨hunreported, rfl⟩ | ⟨⟨r, hr, hne⟩, hreason⟩
  · exact absurd hstraggler (hplain.noStraggler i)
  · have hlate : i ∈ s.queried → i ∈ s.cancelledLate := fun hi =>
      hplain.notCancelled i hi hcancelled
    have hnot : ¬ s.TimedOut i := by
      rintro ⟨nodes, hnodes, hi⟩
      have hmem := hlate (h.overdueAsked nodes hnodes i hi).1
      rcases (h.lateReported i hmem).2 (List.mem_map_of_mem hcancelled) with
        ⟨j, hstraggler⟩ | ⟨hnone, -⟩
      · exact hplain.noStraggler j hstraggler
      · exact nomatch hnone.symm.trans hnodes
    have hchecked : s.NotChecked i := by
      by_cases hi : i ∈ s.queried
      · exact .inr (hlate hi)
      · exact .inl hi
    simp [hnot, hchecked]
  · have hunqueried : i ∉ s.queried := fun hi => hunreported (hplain.allFolded i hi)
    have hnot : ¬ s.TimedOut i := by
      rintro ⟨nodes, hnodes, hi⟩
      exact hunqueried (h.overdueAsked nodes hnodes i hi).1
    have hchecked : s.NotChecked i := .inl hunqueried
    simp [hnot, hchecked]
  · obtain ⟨hnot, hchecked⟩ := h.of_answer hr hne
    simp [hnot, hchecked, hreason]

private theorem Watched.answersOnly_of_truthful {s : Session c} (h : Watched s)
    (hd : c.Distinct) (blobId : Bytes) (hended : s.Ended)
    (htruthful : s.Truthful (buildReport c blobId s.driver.acc)) : s.AnswersOnly := by
  unfold Session.Truthful at htruthful
  rw [h.acc_eq] at htruthful
  constructor
  case noStraggler =>
    intro i hstraggler
    have hreason := (htruthful i _ (dissent_of_straggler hd hstraggler)).2
    cases hreason.mpr (.inr (h.stragglers i hstraggler))
  case allFolded =>
    intro i hi
    by_contra hunreported
    obtain ⟨htimeout, hchecked⟩ := htruthful i _ (dissent_of_unreported hd hunreported)
    rcases hchecked.mp rfl with hunqueried | hlate
    · exact hunqueried hi
    -- cancelled late and never folded: the deadline must have fired meanwhile
    · have hnot : answered s.driver i = false := by
        rcases h.lateEnded i hlate with hcancelled | hstraggler
        · simp [answered, hcancelled]
        · exact absurd (List.mem_map_of_mem hstraggler) hunreported
      obtain ⟨exit, hexit⟩ := hended
      have hat := h.driver.phase
      rw [hexit] at hat
      cases hoverdue : s.overdue with
      | none =>
        have hcalm := h.calm hoverdue
        rw [hexit] at hcalm
        exact hunreported ((hat.2 hcalm).mem_iff.mpr (List.mem_finRange i))
      | some nodes =>
        rcases h.overdueAll nodes hoverdue i hi with hmem | hanswered
        · cases htimeout.mpr ⟨nodes, hoverdue, hmem⟩
        · rw [hnot] at hanswered
          cases hanswered
  case notCancelled =>
    intro i hi hcancelled
    have hchecked := (htruthful i _ (dissent_of_cancelled hd hcancelled)).2
    exact (hchecked.mp rfl).resolve_left (not_not_intro hi)

private theorem Unawaited.truthful_iff {s : Session c} (h : Unawaited s) (hd : c.Distinct)
    (blobId : Bytes) :
    s.Truthful (buildReport c blobId s.driver.acc) ↔ s.AnswersOnly := by
  have hacc : s.driver.acc = tallyOf ([] : List (StatusReport c)) := h.acc
  have hnot : ∀ i, ¬ s.TimedOut i := by
    rintro i ⟨nodes, hnodes, hi⟩
    rw [h.overdue] at hnodes
    cases hnodes
    cases hi
  have hchecked : ∀ i, s.NotChecked i ↔ i ∉ s.queried := by
    intro i
    unfold Session.NotChecked
    rw [h.cancelledLate]
    simp
  rw [hacc]
  constructor
  · intro htruthful
    constructor
    case noStraggler => simp [h.reports]
    case allFolded =>
      intro i hi
      have hentry : ⟨nodeRef (c.members.get i), .notChecked⟩ ∈
          (buildReport c blobId (tallyOf ([] : List (StatusReport c)))).dissenting :=
        dissent_of_unreported hd (by simp)
      exact absurd hi ((hchecked i).mp ((htruthful i _ hentry).2.mp rfl))
    case notCancelled => simp [h.reports]
  · intro hplain i reason hentry
    have hunqueried : i ∉ s.queried := by
      intro hi
      have hreported := hplain.allFolded i hi
      unfold State.reported at hreported
      rw [h.reports] at hreported
      cases hreported
    rcases dissent_cases hd hentry with ⟨hstraggler, -⟩ | ⟨hcancelled, -⟩ | ⟨-, rfl⟩ |
      ⟨⟨r, hr, -⟩, -⟩
    · cases hstraggler
    · cases hcancelled
    · simp [hnot, hchecked, hunqueried]
    · cases hr

/-- **When the reasons tell the truth**: whenever the deadline falls and
whatever the schedule, exactly in the queries that only answers decided. -/
theorem fetchBlobStatus_reasons (c : WalrusCommittee) (hd : c.Distinct) (blobId : Bytes)
    (timeoutSeconds elapsed : Rat) (occurrences : List (Occurrence c)) (s : Session c)
    (hrun : Session.Runs c timeoutSeconds elapsed occurrences s) (hended : s.Ended) :
    s.Truthful (buildReport c blobId s.driver.acc) ↔ s.AnswersOnly := by
  rcases lt_or_ge elapsed timeoutSeconds with htime | hlate
  · have h := hrun.watched htime
    exact ⟨h.answersOnly_of_truthful hd blobId hended, h.truthful_of_answersOnly hd blobId⟩
  · exact (hrun.unawaited hlate).truthful_iff hd blobId

/-- Two nodes; the first alone holds a quorum of the shards. -/
private def loneQuorum : WalrusCommittee where
  epoch := 1
  nShards := 4
  members := [⟨"a", [0, 1, 2], "a:1", []⟩, ⟨"b", [3], "b:1", []⟩]

private def large : Node loneQuorum := ⟨0, by decide⟩

private def small : Node loneQuorum := ⟨1, by decide⟩

private def answerOf (i : Node loneQuorum) : Occurrence loneQuorum :=
  .driver (.finish i (.returned (.ok (.ok (some .nonexistent)))))

/-- Both nodes are queried, the large one settles the verdict, and the grace
window closes on the small one. No deadline fires. -/
private def straggling : List (Occurrence loneQuorum) :=
  [.query large, .query small, answerOf large, .driver (.wake [large]),
    .driver (.closeGrace [] [small]), .driver (.finish small .cancelled), .driver .drained]

/-- The straggler of a settled verdict is said to have timed out. -/
theorem fetchBlobStatus_stragglerTimesOut :
    ∃ s, Session.Runs loneQuorum 60 1 straggling s ∧ s.Ended ∧ s.overdue = none ∧
      s.NotChecked small ∧
      ⟨nodeRef (loneQuorum.members.get small), .timeout⟩ ∈
        (buildReport loneQuorum [] s.driver.acc).dissenting ∧
      ¬ s.Truthful (buildReport loneQuorum [] s.driver.acc) := by
  obtain ⟨s, hrun, hexit, hoverdue, hlate, hentry⟩ : ∃ s, Session.Runs loneQuorum 60 1
      straggling s ∧ s.driver.phase = .exited .returned ∧ s.overdue = none ∧
      small ∈ s.cancelledLate ∧
      ⟨nodeRef (loneQuorum.members.get small), .timeout⟩ ∈
        (buildReport loneQuorum [] s.driver.acc).dissenting := by
    unfold Session.Runs
    rw [Session.begin_of_lt (by norm_num)]
    exact ⟨_, rfl, rfl, rfl, by decide, by decide⟩
  have hchecked : s.NotChecked small := .inr hlate
  refine ⟨s, hrun, ⟨_, hexit⟩, hoverdue, hchecked, hentry, ?_⟩
  intro htruthful
  exact nomatch (htruthful small _ hentry).2.mpr hchecked

/-- The large node fails, and the deadline fires before the small one has been
queried. -/
private def cutOff : List (Occurrence loneQuorum) :=
  [.query large, .driver (.finish large (.returned (.ok (.failed "timed out")))),
    .driver (.wake [large]), .driver .cancelDriver, .driver (.finish small .cancelled),
    .driver .cleaned]

/-- A node that failed and one that was not asked. -/
theorem fetchBlobStatus_reasons_loneQuorum :
    ∃ s, Session.Runs loneQuorum 60 1 cutOff s ∧ s.Ended ∧
      (buildReport loneQuorum [] s.driver.acc).dissenting =
        [⟨nodeRef (loneQuorum.members.get large), .error⟩,
          ⟨nodeRef (loneQuorum.members.get small), .notChecked⟩] ∧
      s.Truthful (buildReport loneQuorum [] s.driver.acc) := by
  obtain ⟨s, hrun, hexit, hqueried, hreports, hdissenting⟩ : ∃ s,
      Session.Runs loneQuorum 60 1 cutOff s ∧ s.driver.phase = .exited .cancelled ∧
      s.queried = [large] ∧
      s.driver.reports = [.completed large (.returned (.ok (.failed "timed out")))] ∧
      (buildReport loneQuorum [] s.driver.acc).dissenting =
        [⟨nodeRef (loneQuorum.members.get large), .error⟩,
          ⟨nodeRef (loneQuorum.members.get small), .notChecked⟩] := by
    unfold Session.Runs
    rw [Session.begin_of_lt (by norm_num)]
    exact ⟨_, rfl, rfl, rfl, rfl, by decide⟩
  have hreasons := fetchBlobStatus_reasons loneQuorum (by decide) [] 60 1 _ s hrun ⟨_, hexit⟩
  refine ⟨s, hrun, ⟨_, hexit⟩, hdissenting, hreasons.mpr ⟨?_, ?_, ?_⟩⟩
  · simp [hreports]
  · intro i hi
    rw [hqueried, List.mem_singleton] at hi
    simp [State.reported, hreports, Report.task, hi]
  · simp [hreports]

/-! ## No status request outlives the query -/

/-- The driver ends every task, once it has started. -/
private theorem Watched.isDone {s : Session c} (h : Watched s) (hended : s.Ended) (i : Node c) :
    s.driver.isDone i = true := by
  obtain ⟨exit, hexit⟩ := hended
  have hat := h.driver.phase
  rw [hexit] at hat
  exact hat.1 i (List.mem_finRange i)

/-- **No task outlives the query**, whatever the nodes do, exactly when the
committee is read within the deadline or has no members. -/
theorem fetchBlobStatus_leavesNoTask (c : WalrusCommittee) (timeoutSeconds elapsed : Rat) :
    (∀ occurrences s, Session.Runs c timeoutSeconds elapsed occurrences s → s.Ended →
      ∀ i, s.driver.isDone i = true) ↔
    elapsed < timeoutSeconds ∨ c.members = [] := by
  constructor
  · intro hall
    by_contra hnot
    obtain ⟨htime, hmembers⟩ := not_or.mp hnot
    have hbegin := Session.begin_of_le (c := c) (not_lt.mp htime)
    have hlength : 0 < c.members.length := List.length_pos_iff.mpr hmembers
    have hdone := hall [] _ rfl ⟨.cancelled, by rw [hbegin]; rfl⟩ ⟨0, hlength⟩
    rw [hbegin] at hdone
    cases hdone
  · rintro (htime | hmembers) occurrences s hrun hended i
    · exact (hrun.watched htime).isDone hended i
    · have hi := i.isLt
      simp [hmembers] at hi

/-- Reading the committee took longer than the deadline allows. The request
goes out while the driver is being cancelled, and nobody waits for it. -/
theorem fetchBlobStatus_requestOutlives :
    ∃ s, Session.Runs loneQuorum 60 61 [.query large, .query small] s ∧ s.Ended ∧
      s.queried = [large, small] ∧ s.driver.isDone large = false ∧
      s.driver.isDone small = false ∧ s.driver.cancelRequested = [] := by
  unfold Session.Runs
  rw [Session.begin_of_le (by norm_num)]
  exact ⟨_, rfl, ⟨_, rfl⟩, rfl, rfl, rfl, rfl⟩

end Pytusk.BlobStatusQuery
