import Pytusk.Ops.BlobStatus

/-!
# The status report accounts for the whole committee

The accumulators are functions of the reports the fan-out made
(`fetched_tally`): each report is either an answer or a failure, answers are
grouped by status, and what was not reported is reconciled as unchecked. The
two output lists are therefore a rearrangement of the committee, and the
verdict, computed from weights alone, agrees with the lists it splits.
-/

namespace Pytusk.BlobStatusQuery

open Pytusk.Lib Pytusk.Certification Pytusk.CommitteeFanout

variable {c : WalrusCommittee}

/-- What the fan-out of this query reports. -/
abbrev StatusReport (c : WalrusCommittee) :=
  Report (Fin c.members.length) PyExn (ExecuteOutcome ReportedStatus)

/-! ## Answers and failures -/

/-- The node a report is about. -/
def reportNode (c : WalrusCommittee) (rep : StatusReport c) : NodeRef :=
  nodeRef (c.members.get rep.task)

/-- The status a report carries, when the node answered with one. -/
def answer : StatusReport c → Option ReportedStatus
  | .completed _ (.returned outcome) => (statusFromNode outcome).1
  | _ => none

/-- Why a report carries no status. -/
def failure : StatusReport c → DissentReason
  | .completed _ .cancelled => .notChecked
  | .completed _ (.raised _) => .error
  | .completed _ (.returned outcome) => (statusFromNode outcome).2.getD .error
  | .cancelled _ => .timeout

/-- The statuses answered, with the node each came from, in folding order. -/
def answers (reports : List (StatusReport c)) : List (ReportedStatus × NodeRef) :=
  reports.filterMap fun rep => (answer rep).map fun st => (st, reportNode c rep)

/-- The reports that carried no status. -/
def failures (reports : List (StatusReport c)) : List NodeDissent :=
  reports.filterMap fun rep =>
    if answer rep = none then some ⟨reportNode c rep, failure rep⟩ else none

/-- The shard weight of the folded nodes that answered `st`. -/
def statusWeight (reports : List (StatusReport c)) (st : ReportedStatus) : Nat :=
  ((Dict.under st (answers reports)).map (·.weight)).sum

/-- The accumulators, as a function of the reports. -/
def tallyOf (reports : List (StatusReport c)) : Tally where
  weightByStatus := Dict.groupFold (fun w x => w + x) 0
    ((answers reports).map fun a => (a.1, a.2.weight))
  nodesByStatus := Dict.groupFold (fun l x => l ++ [x]) [] (answers reports)
  failures := failures reports
  answered := reports.map fun rep => (reportNode c rep).nodeId

private theorem answers_snoc (reports : List (StatusReport c)) (rep : StatusReport c) :
    answers (reports ++ [rep]) = answers reports ++
      ((answer rep).map fun st => (st, reportNode c rep)).toList := by
  simp only [answers, List.filterMap_append]
  cases h : answer rep <;> simp [h]

private theorem failures_snoc (reports : List (StatusReport c)) (rep : StatusReport c) :
    failures (reports ++ [rep]) = failures reports ++
      if answer rep = none then [⟨reportNode c rep, failure rep⟩] else [] := by
  simp only [failures, List.filterMap_append]
  by_cases h : answer rep = none <;> simp [h]

/-- A report without a status only adds a failure. -/
private theorem tallyOf_snoc_failure {reports : List (StatusReport c)}
    {rep : StatusReport c} (h : answer rep = none) :
    tallyOf (reports ++ [rep]) =
      { tallyOf reports with
        failures := failures reports ++ [⟨reportNode c rep, failure rep⟩]
        answered := (tallyOf reports).answered ++ [(reportNode c rep).nodeId] } := by
  simp [tallyOf, answers_snoc, failures_snoc, h]

/-- A report with a status only adds to the two dictionaries. -/
private theorem tallyOf_snoc_answer {reports : List (StatusReport c)}
    {rep : StatusReport c} {st : ReportedStatus} (h : answer rep = some st) :
    tallyOf (reports ++ [rep]) =
      { tallyOf reports with
        weightByStatus := (tallyOf reports).weightByStatus.alter st fun w =>
          w.getD 0 + (reportNode c rep).weight
        nodesByStatus := (tallyOf reports).nodesByStatus.alter st fun l =>
          l.getD [] ++ [reportNode c rep]
        answered := (tallyOf reports).answered ++ [(reportNode c rep).nodeId] } := by
  simp [tallyOf, answers_snoc, failures_snoc, h, Dict.groupFold_snoc]

/-- One callback, on the accumulators of what was reported before. -/
private theorem applyReport_tallyOf (reports : List (StatusReport c))
    (rep : StatusReport c) :
    applyReport (callbacks c) (tallyOf reports) rep = tallyOf (reports ++ [rep]) := by
  cases rep with
  | cancelled i =>
    rw [tallyOf_snoc_failure rfl]
    rfl
  | completed i r =>
    cases r with
    | cancelled => rw [tallyOf_snoc_failure rfl]; rfl
    | raised e => rw [tallyOf_snoc_failure rfl]; rfl
    | returned outcome =>
      cases hout : statusFromNode outcome with
      | mk status reason =>
        cases status with
        | none =>
          rw [tallyOf_snoc_failure (by simp [answer, hout])]
          simp [applyReport, callbacks, fold, hout, Tally.fail, failure, reportNode,
            Report.task, tallyOf, nodeRef]
        | some st =>
          have hanswer : answer (.completed i (.returned outcome)) = some st := by
            simp [answer, hout]
          rw [tallyOf_snoc_answer hanswer]
          simp [applyReport, callbacks, fold, hout, reportNode, Report.task, nodeRef]

/-- The callbacks build the accumulators of what was reported. -/
theorem replay_eq_tallyOf (reports : List (StatusReport c)) :
    replay (callbacks c) .empty reports = tallyOf reports := by
  induction reports using List.reverseRecOn with
  | nil => rfl
  | append_singleton reports rep ih =>
    rw [replay_append, ih]
    exact applyReport_tallyOf reports rep

/-- The accumulators hold exactly what was reported. -/
theorem fetched_tally {reports : List (StatusReport c)} {t : Tally}
    (h : Fetched c reports t) : t = tallyOf reports := by
  cases h with
  | expired => rfl
  | driven hrun hexit => exact hrun.inv.acc.trans (replay_eq_tallyOf _)

/-! ## The two lists -/

/-- The output lists hold the grouped nodes and the failures, no more. -/
private theorem backing_append_disagreeing {d : Dict ReportedStatus (List NodeRef)}
    (h : d.keys.Nodup) (verdict : BlobStatus) :
    (backing d verdict ++ (disagreeing d verdict).map (·.node)).Perm
      (d.flatMap Prod.snd) := by
  have hnodes : ∀ item : ReportedStatus × List NodeRef,
      ((if .reported item.1 = verdict then []
        else item.2.map fun node =>
          (⟨node, if item.1 = .nonexistent then .notStored else .disagreed⟩ :
            NodeDissent)).map (·.node)) =
        if .reported item.1 = verdict then [] else item.2 := by
    intro item
    split <;> simp [Function.comp_def]
  simp only [disagreeing, List.map_flatMap, hnodes]
  cases verdict with
  | unresolved => simp [backing]
  | reported st =>
    simp only [BlobStatus.reported.injEq, backing]
    exact (Dict.flatMap_split h st).symm

/-- Answers and failures together are the reported nodes. -/
private theorem answers_append_failures (reports : List (StatusReport c)) :
    ((answers reports).map Prod.snd ++ (failures reports).map (·.node)).Perm
      (reports.map (reportNode c)) := by
  induction reports with
  | nil => simp [answers, failures]
  | cons rep rest ih =>
    cases h : answer rep with
    | none =>
      have hf : failures (rep :: rest) =
          ⟨reportNode c rep, failure rep⟩ :: failures rest := by simp [failures, h]
      have ha : answers (rep :: rest) = answers rest := by simp [answers, h]
      rw [hf, ha, List.map_cons, List.map_cons]
      exact List.perm_middle.trans (ih.cons _)
    | some st =>
      have hf : failures (rep :: rest) = failures rest := by simp [failures, h]
      have ha : answers (rep :: rest) = (st, reportNode c rep) :: answers rest := by
        simp [answers, h]
      rw [hf, ha, List.map_cons, List.map_cons, List.cons_append]
      exact ih.cons _

/-- The failures `reconcile` adds for the given members. -/
def unchecked (ms : List WalrusCommitteeMember) (answered : List String) :
    List NodeDissent :=
  (ms.filter fun m => m.nodeId ∉ answered).map fun m => ⟨nodeRef m, .notChecked⟩

private theorem reconcile_eq (c : WalrusCommittee) (t : Tally) :
    reconcile c t =
      { t with failures := t.failures ++ unchecked c.members t.answered } := by
  have hgen : ∀ (ms : List WalrusCommitteeMember) (t' : Tally),
      ms.foldl (fun t' m => if m.nodeId ∈ t.answered then t'
          else t'.fail (nodeRef m) .notChecked) t' =
        { t' with failures := t'.failures ++ unchecked ms t.answered } := by
    intro ms
    induction ms with
    | nil => intro t'; simp [unchecked]
    | cons m ms ih =>
      intro t'
      by_cases hm : m.nodeId ∈ t.answered
      · simp [hm, ih, unchecked]
      · rw [List.foldl_cons, if_neg hm, ih]
        simp [unchecked, Tally.fail, hm]
  exact hgen c.members t

/-- A member's id is among the reported ones exactly when its task is. -/
theorem mem_answered_iff (hd : c.Distinct) (reports : List (StatusReport c))
    (i : Fin c.members.length) :
    (c.members.get i).nodeId ∈ (tallyOf reports).answered ↔
      i ∈ reports.map Report.task := by
  simp only [tallyOf, List.mem_map]
  constructor
  · rintro ⟨rep, hrep, hid⟩
    refine ⟨rep, hrep, Fin.ext ?_⟩
    have hinj := (List.nodup_iff_injective_get.mp hd)
    have := @hinj ⟨rep.task, by simp⟩ ⟨i, by simp⟩ (by simpa [reportNode, nodeRef] using hid)
    simpa using this
  · rintro ⟨rep, hrep, rfl⟩
    exact ⟨rep, hrep, rfl⟩

/-- Reported and unreported tasks make up the committee. -/
private theorem reported_append_unchecked (hd : c.Distinct)
    {reports : List (StatusReport c)} (hnodup : (reports.map Report.task).Nodup) :
    (reports.map (reportNode c) ++
        (unchecked c.members (tallyOf reports).answered).map (·.node)).Perm
      (c.members.map nodeRef) := by
  have hmembers : c.members =
      (List.finRange c.members.length).map c.members.get := by
    rw [List.map_get_finRange]
  have hreported : (reports.map (reportNode c)).Perm
      (((List.finRange c.members.length).filter (· ∈ reports.map Report.task)).map
        fun i => nodeRef (c.members.get i)) := by
    have hperm : (reports.map Report.task).Perm
        ((List.finRange c.members.length).filter (· ∈ reports.map Report.task)) :=
      (List.perm_ext_iff_of_nodup hnodup ((List.nodup_finRange _).filter _)).mpr
        fun i => by simp
    have := hperm.map fun i => nodeRef (c.members.get i)
    rw [List.map_map] at this
    exact this
  have hunchecked : (unchecked c.members (tallyOf reports).answered).map (·.node) =
      ((List.finRange c.members.length).filter
        fun i => !decide (i ∈ reports.map Report.task)).map
        fun i => nodeRef (c.members.get i) := by
    unfold unchecked
    conv_lhs => rw [hmembers]
    rw [List.filter_map, List.map_map, List.map_map]
    congr 1
    apply List.filter_congr
    intro i _
    simp only [Function.comp, mem_answered_iff hd reports i, decide_not]
  have hall := (List.filter_append_perm (· ∈ reports.map Report.task)
    (List.finRange c.members.length)).map fun i => nodeRef (c.members.get i)
  rw [List.map_append] at hall
  rw [hunchecked]
  refine (hreported.append_right _).trans (hall.trans ?_)
  conv_rhs => rw [hmembers, List.map_map]
  exact List.Perm.refl _

/-! ## The verdict -/

section Verdict

variable {d : Dict ReportedStatus Nat} {q v : Int}

private theorem resolve_of_quorum {item : ReportedStatus × Nat}
    (h : d.find? (fun item => decide (q ≤ item.2)) = some item) :
    resolve d q v = (.reported item.1, .quorum) := by
  simp only [resolve, h]

/-- The three outcomes of `_resolve`, each with the weights behind it. -/
theorem resolve_cases (d : Dict ReportedStatus Nat) (q v : Int) :
    (∃ st w, resolve d q v = (.reported st, .quorum) ∧ (st, w) ∈ d ∧ q ≤ w) ∨
    (∃ st w, resolve d q v = (.reported st, .validity) ∧ (st, w) ∈ d ∧ v ≤ w ∧
      ∀ item ∈ d, (item.2 : Int) < q) ∨
    (resolve d q v = (.unresolved, .unresolved) ∧
      ∀ item ∈ d, (item.2 : Int) < q ∧ (item.2 : Int) < v) := by
  cases hfind : d.find? (fun item => decide (q ≤ item.2)) with
  | some item =>
    refine .inl ⟨item.1, item.2, resolve_of_quorum hfind, List.mem_of_find?_eq_some hfind, ?_⟩
    simpa using List.find?_some hfind
  | none =>
    have hbelow : ∀ item ∈ d, (item.2 : Int) < q := by
      intro item hitem
      simpa using List.find?_eq_none.mp hfind item hitem
    right
    simp only [resolve, hfind]
    -- sorting keeps the candidates, so its head is one of them
    have hperm := List.perm_insertionSort (fun a b => certaintyRank a ≤ certaintyRank b)
      ((d.filter fun item => decide (v ≤ item.2)).map Prod.fst)
    cases hsort : ((d.filter fun item => decide (v ≤ item.2)).map Prod.fst).insertionSort
        (fun a b => certaintyRank a ≤ certaintyRank b) with
    | nil =>
      rw [hsort] at hperm
      have hempty := List.map_eq_nil_iff.mp hperm.nil_eq.symm
      refine .inr ⟨rfl, fun item hitem => ⟨hbelow item hitem, ?_⟩⟩
      simpa using List.filter_eq_nil_iff.mp hempty item hitem
    | cons st rest =>
      rw [hsort] at hperm
      obtain ⟨item, hitem, rfl⟩ := List.mem_map.mp (hperm.mem_iff.mp List.mem_cons_self)
      obtain ⟨hmem, hv⟩ := List.mem_filter.mp hitem
      exact .inl ⟨item.1, item.2, rfl, hmem, by simpa using hv, hbelow⟩

end Verdict

/-- The weight kept for a status is the weight of the nodes that gave it. -/
theorem get?_weightByStatus (reports : List (StatusReport c))
    (st : ReportedStatus) :
    (tallyOf reports).weightByStatus.get? st =
      if st ∈ (answers reports).map Prod.fst then some (statusWeight reports st)
      else none := by
  have hunder : Dict.under st ((answers reports).map fun a => (a.1, a.2.weight)) =
      (Dict.under st (answers reports)).map (·.weight) := by
    simp only [Dict.under, List.filterMap_map, List.map_filterMap]
    apply List.filterMap_congr
    intro a _
    by_cases h : a.1 = st <;> simp [h]
  simp only [tallyOf, Dict.get?_groupFold, List.map_map, Function.comp_def, hunder,
    statusWeight, List.sum_eq_foldl]

theorem under_eq_nil {reports : List (StatusReport c)} {st : ReportedStatus}
    (h : st ∉ (answers reports).map Prod.fst) : Dict.under st (answers reports) = [] := by
  simp only [Dict.under, List.filterMap_eq_nil_iff]
  intro a ha
  have hne : a.1 ≠ st := fun e => h (List.mem_map.mpr ⟨a, ha, e⟩)
  simp [hne]

theorem mem_weightByStatus {reports : List (StatusReport c)}
    {st : ReportedStatus} {w : Nat} (h : (st, w) ∈ (tallyOf reports).weightByStatus) :
    w = statusWeight reports st := by
  have hget := (Dict.mem_iff_get? (Dict.nodup_keys_groupFold _)).mp h
  change (tallyOf reports).weightByStatus.get? st = some w at hget
  rw [get?_weightByStatus] at hget
  split at hget
  · exact (Option.some.inj hget).symm
  · cases hget

/-- A bound on every recorded weight bounds the weight of every status. -/
private theorem statusWeight_lt {reports : List (StatusReport c)} {x : Int} (hx : 0 < x)
    (h : ∀ item ∈ (tallyOf reports).weightByStatus, (item.2 : Int) < x)
    (st : ReportedStatus) : (statusWeight reports st : Int) < x := by
  by_cases hmem : st ∈ (answers reports).map Prod.fst
  · have hget := get?_weightByStatus reports st
    rw [if_pos hmem] at hget
    exact h _ (Dict.mem_of_get? hget)
  · simp only [statusWeight, under_eq_nil hmem, List.map_nil, List.sum_nil]
    exact hx

private theorem foldl_snoc {α : Type} (l xs : List α) :
    xs.foldl (fun l x => l ++ [x]) l = l ++ xs := by
  induction xs generalizing l with
  | nil => simp
  | cons x xs ih => simp [ih]

/-- The nodes behind a status are those that answered it. -/
private theorem backing_reported (reports : List (StatusReport c))
    (st : ReportedStatus) :
    backing (tallyOf reports).nodesByStatus (.reported st) =
      Dict.under st (answers reports) := by
  simp only [backing, tallyOf, Dict.get?_groupFold, foldl_snoc, List.nil_append]
  by_cases h : st ∈ (answers reports).map Prod.fst
  · simp [h]
  · simp [h, under_eq_nil h]

private theorem mem_under_answers {reports : List (StatusReport c)}
    {st : ReportedStatus} {node : NodeRef} :
    node ∈ Dict.under st (answers reports) ↔
      ∃ rep ∈ reports, answer rep = some st ∧ reportNode c rep = node := by
  simp only [Dict.under, answers, List.mem_filterMap, Option.map_eq_some_iff]
  constructor
  · rintro ⟨a, ⟨rep, hrep, st', hst, rfl⟩, ha⟩
    by_cases h : st' = st
    · subst h
      simp only [if_true, Option.some.injEq] at ha
      exact ⟨rep, hrep, hst, ha⟩
    · simp [h] at ha
  · rintro ⟨rep, hrep, hst, rfl⟩
    exact ⟨(st, reportNode c rep), ⟨rep, hrep, st, hst, rfl⟩, by simp⟩

/-! ## The report -/

/-- The report, over the reports the fan-out made. -/
theorem buildReport_tallyOf (c : WalrusCommittee) (blobId : Bytes)
    (reports : List (StatusReport c)) :
    buildReport c blobId (tallyOf reports) =
      let t := tallyOf reports
      let verdict := resolve t.weightByStatus (minWeightForQuorum c.nShards)
        (minWeightForValidity c.nShards)
      { blobId := blobId
        status := verdict.1
        resolution := verdict.2
        committeeEpoch := c.epoch
        confirming := backing t.nodesByStatus verdict.1
        dissenting := t.failures ++ unchecked c.members t.answered ++
          disagreeing t.nodesByStatus verdict.1 } := by
  simp only [buildReport, reconcile_eq]

/-- No task is reported twice in a query. -/
private theorem Fetched.nodup {reports : List (StatusReport c)} {t : Tally}
    (h : Fetched c reports t) : (reports.map Report.task).Nodup := by
  cases h with
  | expired => exact List.nodup_nil
  | driven hrun hexit => exact hrun.reported_nodup (List.nodup_finRange _)

/-- Both lists together are a rearrangement of the committee. -/
private theorem confirming_append_dissenting (hd : c.Distinct) (blobId : Bytes)
    {reports : List (StatusReport c)} {t : Tally} (h : Fetched c reports t) :
    ((buildReport c blobId t).confirming ++
        (buildReport c blobId t).dissenting.map (·.node)).Perm
      (c.members.map nodeRef) := by
  rw [fetched_tally h, buildReport_tallyOf]
  simp only [List.map_append]
  generalize (resolve _ _ _).1 = verdict
  have hkeys : (tallyOf reports).nodesByStatus.keys.Nodup := by
    simp only [tallyOf]
    exact Dict.nodup_keys_groupFold (answers reports)
  have hgroups := backing_append_disagreeing hkeys verdict
  have hanswers : ((tallyOf reports).nodesByStatus.flatMap Prod.snd).Perm
      ((answers reports).map Prod.snd) := Dict.flatMap_groupFold_append _
  have hreported := answers_append_failures reports
  refine List.Perm.trans ?_ (reported_append_unchecked hd h.nodup)
  refine List.Perm.trans ?_ (hreported.append_right _)
  refine List.Perm.trans ?_ ((hgroups.trans hanswers).append_right _ |>.append_right _)
  -- only the order of the four parts differs
  simp only [List.append_assoc]
  refine List.Perm.append_left _ ?_
  rw [← List.append_assoc]
  exact List.perm_append_comm

/-- What each resolution stands for, in weights of the folded answers. -/
theorem verdict_cases {blobId : Bytes} {reports : List (StatusReport c)}
    {report : BlobStatusReport} (h : report = buildReport c blobId (tallyOf reports)) :
    (∃ st, report.status = .reported st ∧ report.resolution = .quorum ∧
      report.confirming = Dict.under st (answers reports) ∧
      minWeightForQuorum c.nShards ≤ statusWeight reports st) ∨
    (∃ st, report.status = .reported st ∧ report.resolution = .validity ∧
      report.confirming = Dict.under st (answers reports) ∧
      minWeightForValidity c.nShards ≤ statusWeight reports st ∧
      ∀ st', (statusWeight reports st' : Int) < minWeightForQuorum c.nShards) ∨
    (report.status = .unresolved ∧ report.resolution = .unresolved ∧
      report.confirming = [] ∧
      ∀ st', (statusWeight reports st' : Int) < minWeightForValidity c.nShards) := by
  have hvpos : 0 < minWeightForValidity c.nShards := minWeightForValidity_pos (by omega)
  have hvq : minWeightForValidity c.nShards ≤ minWeightForQuorum c.nShards :=
    minWeightForValidity_le_quorum (by omega)
  have hreport := h.trans (buildReport_tallyOf c blobId reports)
  rcases resolve_cases (tallyOf reports).weightByStatus (minWeightForQuorum c.nShards)
    (minWeightForValidity c.nShards) with
    ⟨st, w, hres, hmem, hq⟩ | ⟨st, w, hres, hmem, hv, hbelow⟩ | ⟨hres, hbelow⟩
  · simp only [hres] at hreport
    refine .inl ⟨st, by rw [hreport], by rw [hreport], ?_, ?_⟩
    · rw [hreport, backing_reported]
    · rw [← mem_weightByStatus hmem]
      exact hq
  · simp only [hres] at hreport
    refine .inr (.inl ⟨st, by rw [hreport], by rw [hreport], ?_, ?_, ?_⟩)
    · rw [hreport, backing_reported]
    · rw [← mem_weightByStatus hmem]
      exact hv
    · exact statusWeight_lt (by omega) hbelow
  · simp only [hres] at hreport
    refine .inr (.inr ⟨by rw [hreport], by rw [hreport], by rw [hreport]; rfl, ?_⟩)
    exact statusWeight_lt hvpos fun item hitem => (hbelow item hitem).2

/-- **Blob-status accounting.** Whatever the nodes answer, in whatever order,
and whenever the deadline or the grace window closes, the report lists every
member exactly once, with its shard count; `confirming` is exactly the folded
nodes that answered the verdict; and each resolution stands for the weight it
claims. -/
theorem fetchBlobStatus_accounting (c : WalrusCommittee) (blobId : Bytes)
    (reports : List (StatusReport c)) (t : Tally) (hd : c.Distinct)
    (h : Fetched c reports t) :
    let report := buildReport c blobId t
    let confirmingWeight := (report.confirming.map (·.weight)).sum
    (report.confirming ++ report.dissenting.map (·.node)).Perm
        (c.members.map nodeRef) ∧
    (∀ node, node ∈ report.confirming ↔ ∃ rep ∈ reports, ∃ st,
        answer rep = some st ∧ .reported st = report.status ∧
          reportNode c rep = node) ∧
    (report.resolution = .quorum →
        minWeightForQuorum c.nShards ≤ confirmingWeight) ∧
    (report.resolution = .validity →
        minWeightForValidity c.nShards ≤ confirmingWeight ∧
        ∀ st, (statusWeight reports st : Int) < minWeightForQuorum c.nShards) ∧
    (report.resolution = .unresolved ↔
        ∀ st, (statusWeight reports st : Int) < minWeightForValidity c.nShards) ∧
    (report.resolution = .unresolved →
        report.status = .unresolved ∧ report.confirming = []) := by
  intro report confirmingWeight
  refine ⟨confirming_append_dissenting hd blobId h, ?_⟩
  have hreport : report = buildReport c blobId (tallyOf reports) := by
    rw [← fetched_tally h]
  rcases verdict_cases hreport with ⟨st, hst, hres, hconf, hw⟩ |
    ⟨st, hst, hres, hconf, hw, hbelow⟩ | ⟨hst, hres, hconf, hbelow⟩
  · have hweight : confirmingWeight = statusWeight reports st := by
      simp only [confirmingWeight, hconf, statusWeight]
    have hvq : minWeightForValidity c.nShards ≤ minWeightForQuorum c.nShards :=
      minWeightForValidity_le_quorum (by omega)
    rw [hst, hres, hconf, hweight]
    refine ⟨fun node => ?_, fun _ => hw, by simp, ?_, by simp⟩
    · rw [mem_under_answers]
      simp
    · simp only [reduceCtorEq, false_iff, not_forall, not_lt]
      exact ⟨st, by omega⟩
  · have hweight : confirmingWeight = statusWeight reports st := by
      simp only [confirmingWeight, hconf, statusWeight]
    rw [hst, hres, hconf, hweight]
    refine ⟨fun node => ?_, by simp, fun _ => ⟨hw, hbelow⟩, ?_, by simp⟩
    · rw [mem_under_answers]
      simp
    · simp only [reduceCtorEq, false_iff, not_forall, not_lt]
      exact ⟨st, hw⟩
  · rw [hst, hres, hconf]
    refine ⟨fun node => by simp, by simp, by simp, by simpa using hbelow, by simp⟩

/-- Two nodes; the first holds a quorum of the shards. -/
private def twoNodes : WalrusCommittee where
  epoch := 1
  nShards := 4
  members := [⟨"a", [0, 1, 2], "a:1", []⟩, ⟨"b", [3], "b:1", []⟩]

private def firstNode : Fin twoNodes.members.length := ⟨0, by decide⟩

private def secondNode : Fin twoNodes.members.length := ⟨1, by decide⟩

/-- The second node is a straggler when the first alone settles the verdict;
the report still accounts for both. -/
theorem fetchBlobStatus_accounting_twoNodes :
    ∃ reports t, Fetched twoNodes reports t ∧
      (buildReport twoNodes [] t).resolution = .quorum ∧
      ((buildReport twoNodes [] t).confirming ++
        (buildReport twoNodes [] t).dissenting.map (·.node)).Perm
        (twoNodes.members.map nodeRef) := by
  obtain ⟨s, hrun, hexit, hres⟩ : ∃ s, Runs (callbacks twoNodes)
      (List.finRange _) .empty
      [.finish firstNode (.returned (.ok (.ok (some .nonexistent)))), .wake [firstNode],
        .closeGrace [] [secondNode], .finish secondNode .cancelled, .drained] s ∧
      s.phase = .exited .returned ∧
      (buildReport twoNodes [] s.acc).resolution = .quorum := ⟨_, rfl, rfl, by decide⟩
  have hfetched : Fetched twoNodes s.reports s.acc := .driven hrun hexit
  have hall := fetchBlobStatus_accounting twoNodes [] s.reports s.acc (by decide) hfetched
  exact ⟨_, _, hfetched, hres, hall.1⟩

end Pytusk.BlobStatusQuery
