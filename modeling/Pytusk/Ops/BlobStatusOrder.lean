import Pytusk.CommitteeFanout.Schedules
import Pytusk.Ops.BlobStatusAccounting
import Mathlib.Algebra.BigOperators.Fin
import Mathlib.Algebra.Order.BigOperators.Group.Finset

/-!
# What the verdict depends on

With every node's answer fixed, `Verdict` says which verdicts the answers
allow, by weight alone. A query that no deadline ends returns one of them
(`verdict_of_returned`): there is more than one exactly when the validity
threshold is cleared by two statuses that are equally certain. Then the one
that is folded first decides (`status_iff_firstLeading`), and either may be
(`exists_returned_of_leads`).
-/

namespace Pytusk.BlobStatusQuery

open Pytusk.Lib Pytusk.Certification Pytusk.CommitteeFanout

variable {c : WalrusCommittee}

/-- What each node of a committee would answer. -/
abbrev NodeAnswers (c : WalrusCommittee) := Fin c.members.length → ExecuteOutcome ReportedStatus

/-- What is folded of a node is the answer it was given. -/
def AnsweredBy (answers : NodeAnswers c) (reports : List (StatusReport c)) : Prop :=
  ∀ i r, Report.completed i r ∈ reports → r = .returned (answers i)

/-- A query that no deadline ended, over these answers. -/
def Returned (c : WalrusCommittee) (answers : NodeAnswers c)
    (reports : List (StatusReport c)) (t : Tally) : Prop :=
  ∃ acts s, Runs (callbacks c) (List.finRange c.members.length) .empty acts s ∧
    s.phase = .exited .returned ∧ s.reports = reports ∧ s.acc = t ∧
    AnsweredBy answers reports

/-! ## The weights of the answers -/

/-- The nodes that answer a status. -/
def answering (answers : NodeAnswers c) (st : ReportedStatus) :
    Finset (Fin c.members.length) :=
  Finset.univ.filter fun i => (statusFromNode (answers i)).1 = some st

/-- The shard weight of the nodes that answer a status. -/
def weightOf (answers : NodeAnswers c) (st : ReportedStatus) : Nat :=
  ∑ i ∈ answering answers st, (c.members.get i).weight

/-- The folded nodes that answered a status. -/
private def foldedOn (reports : List (StatusReport c)) (st : ReportedStatus) :
    List (Fin c.members.length) :=
  (reports.filter fun rep => answer rep = some st).map Report.task

private theorem statusWeight_eq (reports : List (StatusReport c)) (st : ReportedStatus) :
    statusWeight reports st =
      ((foldedOn reports st).map fun i => (c.members.get i).weight).sum := by
  unfold statusWeight Dict.under answers foldedOn
  induction reports with
  | nil => rfl
  | cons rep rest ih =>
    cases h : answer rep with
    | none => simpa [h] using ih
    | some st' =>
      by_cases hst : st' = st
      · simpa [h, hst, reportNode, nodeRef] using ih
      · simpa [h, hst] using ih

private theorem statusWeight_le_append (xs ys : List (StatusReport c)) (st : ReportedStatus) :
    statusWeight xs st ≤ statusWeight (xs ++ ys) st := by
  rw [statusWeight_eq, statusWeight_eq, foldedOn, foldedOn, List.filter_append, List.map_append,
    List.map_append, List.sum_append]
  omega

private theorem foldedOn_subset {answers : NodeAnswers c} {reports : List (StatusReport c)}
    (hans : AnsweredBy answers reports) {st : ReportedStatus} {i : Fin c.members.length}
    (hi : i ∈ foldedOn reports st) : i ∈ answering answers st := by
  obtain ⟨rep, hrep, rfl⟩ := List.mem_map.mp hi
  obtain ⟨hmem, hst⟩ := List.mem_filter.mp hrep
  have hst' : answer rep = some st := by simpa using hst
  cases rep with
  | cancelled i => cases hst'
  | completed i r =>
    obtain rfl := hans i r hmem
    simpa [answering, Report.task, answer] using hst'

private theorem nodup_foldedOn {reports : List (StatusReport c)}
    (h : (reports.map Report.task).Nodup) (st : ReportedStatus) :
    (foldedOn reports st).Nodup :=
  h.sublist (List.filter_sublist.map _)

private theorem statusWeight_eq_sum {reports : List (StatusReport c)}
    (h : (reports.map Report.task).Nodup) (st : ReportedStatus) :
    statusWeight reports st =
      ∑ i ∈ (foldedOn reports st).toFinset, (c.members.get i).weight := by
  rw [statusWeight_eq, List.sum_toFinset _ (nodup_foldedOn h st)]

/-- No more is folded than was answered. -/
private theorem statusWeight_le {answers : NodeAnswers c} {reports : List (StatusReport c)}
    (h : (reports.map Report.task).Nodup) (hans : AnsweredBy answers reports)
    (st : ReportedStatus) : statusWeight reports st ≤ weightOf answers st := by
  rw [statusWeight_eq_sum h]
  apply Finset.sum_le_sum_of_subset
  intro i hi
  exact foldedOn_subset hans (List.mem_toFinset.mp hi)

/-- Where every node was folded, all that was answered is. -/
private theorem statusWeight_of_completed {answers : NodeAnswers c}
    {reports : List (StatusReport c)} (h : (reports.map Report.task).Nodup)
    (hans : AnsweredBy answers reports) (hall : ∀ i, ∃ r, Report.completed i r ∈ reports)
    (st : ReportedStatus) : statusWeight reports st = weightOf answers st := by
  rw [statusWeight_eq_sum h, weightOf]
  congr 1
  ext i
  rw [List.mem_toFinset]
  constructor
  · exact foldedOn_subset hans
  · intro hi
    obtain ⟨r, hr⟩ := hall i
    obtain rfl := hans i r hr
    have hst : (statusFromNode (answers i)).1 = some st := by
      simpa [answering] using hi
    exact List.mem_map.mpr ⟨_, List.mem_filter.mpr ⟨hr, decide_eq_true hst⟩, rfl⟩

/-- The shards of two statuses are different ones. -/
private theorem weightOf_add_le (hp : c.PartitionsShards) (answers : NodeAnswers c)
    {st st' : ReportedStatus} (hne : st ≠ st') :
    weightOf answers st + weightOf answers st' ≤ c.nShards := by
  have hdisjoint : Disjoint (answering answers st) (answering answers st') := by
    rw [Finset.disjoint_left]
    intro i hi hi'
    have h : (statusFromNode (answers i)).1 = some st := by simpa [answering] using hi
    have h' : (statusFromNode (answers i)).1 = some st' := by simpa [answering] using hi'
    exact hne (Option.some.inj (h.symm.trans h'))
  have htotal : ∑ i, (c.members.get i).weight = c.nShards := by
    have hlength := hp.length_eq
    rw [List.length_flatMap, List.length_range] at hlength
    rw [← hlength, Fin.sum_univ_def, ← Function.comp_def, ← List.map_map, List.map_get_finRange]
    rfl
  calc weightOf answers st + weightOf answers st'
      = ∑ i ∈ answering answers st ∪ answering answers st', (c.members.get i).weight :=
        (Finset.sum_union hdisjoint).symm
    _ ≤ ∑ i, (c.members.get i).weight := Finset.sum_le_sum_of_subset (Finset.subset_univ _)
    _ = c.nShards := htotal

/-! ## The verdicts the answers allow -/

/-- A status that clears the validity threshold, and none is more certain that
does. -/
def Leads (answers : NodeAnswers c) (st : ReportedStatus) : Prop :=
  minWeightForValidity c.nShards ≤ weightOf answers st ∧
    ∀ st', minWeightForValidity c.nShards ≤ weightOf answers st' →
      certaintyRank st ≤ certaintyRank st'

/-- No status holds a quorum of the shards. -/
def NoQuorum (answers : NodeAnswers c) : Prop :=
  ∀ st, (weightOf answers st : Int) < minWeightForQuorum c.nShards

/-- What can be said of a blob on these answers. -/
inductive Verdict (answers : NodeAnswers c) : BlobStatus → Resolution → Prop where
  | quorum {st} (h : minWeightForQuorum c.nShards ≤ weightOf answers st) :
      Verdict answers (.reported st) .quorum
  | validity {st} (hnone : NoQuorum answers) (hleads : Leads answers st) :
      Verdict answers (.reported st) .validity
  | unresolved (h : ∀ st, (weightOf answers st : Int) < minWeightForValidity c.nShards) :
      Verdict answers .unresolved .unresolved

/-- Two statuses lead, so either can be the verdict. -/
def Tied (answers : NodeAnswers c) : Prop :=
  NoQuorum answers ∧ ∃ st st', st ≠ st' ∧ Leads answers st ∧ Leads answers st'

/-- Two verdicts on the same answers agree, up to a tie. -/
theorem Verdict.agree (hp : c.PartitionsShards) {answers : NodeAnswers c}
    {status status' : BlobStatus} {resolution resolution' : Resolution}
    (h : Verdict answers status resolution) (h' : Verdict answers status' resolution') :
    resolution = resolution' ∧ (status = status' ∨ Tied answers) := by
  have hvq : minWeightForValidity c.nShards ≤ minWeightForQuorum c.nShards :=
    minWeightForValidity_le_quorum (by omega)
  cases h with
  | @quorum st hq =>
    cases h' with
    | @quorum st' hq' =>
      refine ⟨rfl, .inl ?_⟩
      by_contra hne
      have hsum := weightOf_add_le hp answers fun heq => hne (congrArg _ heq)
      simp only [minWeightForQuorum] at hq hq'
      omega
    | validity hnone => exact absurd (hnone st) (by omega)
    | unresolved hnone => exact absurd (hnone st) (by omega)
  | @validity st hnone hleads =>
    cases h' with
    | @quorum st' hq => exact absurd (hnone st') (by omega)
    | @validity st' hnone' hleads' =>
      refine ⟨rfl, ?_⟩
      by_cases heq : st = st'
      · exact .inl (congrArg _ heq)
      · exact .inr ⟨hnone, st, st', heq, hleads, hleads'⟩
    | unresolved hbelow => exact absurd (hbelow st) (by have := hleads.1; omega)
  | unresolved hbelow =>
    cases h' with
    | @quorum st hq => exact absurd (hbelow st) (by omega)
    | @validity st hnone hleads => exact absurd (hbelow st) (by have := hleads.1; omega)
    | unresolved => exact ⟨rfl, .inl rfl⟩

/-! ## A query returns one of them -/

private theorem Returned.fetched {answers : NodeAnswers c} {reports : List (StatusReport c)}
    {t : Tally} (h : Returned c answers reports t) :
    t = tallyOf reports ∧ (reports.map Report.task).Nodup := by
  obtain ⟨acts, s, hrun, hexit, rfl, rfl, -⟩ := h
  exact ⟨fetched_tally (.driven hrun hexit), hrun.reported_nodup (List.nodup_finRange _)⟩

/-- Either a quorum was folded, or every node was and there is none. -/
private theorem Returned.settled {answers : NodeAnswers c} {reports : List (StatusReport c)}
    {t : Tally} (h : Returned c answers reports t) :
    (∃ st, minWeightForQuorum c.nShards ≤ statusWeight reports st) ∨
      NoQuorum answers ∧ ∀ st, statusWeight reports st = weightOf answers st := by
  have hnodup := h.fetched.2
  obtain ⟨acts, s, hrun, hexit, rfl, -, hans⟩ := h
  by_cases hquorum : ∃ st, minWeightForQuorum c.nShards ≤ statusWeight s.reports st
  · exact .inl hquorum
  · push Not at hquorum
    have hnever : ∀ as bs u, acts = as ++ bs →
        Runs (callbacks c) (List.finRange c.members.length) .empty as u →
        (callbacks c).shouldStop u.acc = false := by
      rintro as bs u rfl hu
      obtain ⟨u', hu', hrest⟩ := Lts.run_append_eq_some.mp hrun
      obtain rfl : u = u' := Option.some.inj (hu.symm.trans hu')
      obtain ⟨later, hlater⟩ := run_reports_extends hrest
      show quorumReached _ u.acc = false
      rw [hu.inv.acc, replay_eq_tallyOf, quorumReached, List.any_eq_false]
      rintro ⟨st, weight⟩ hmem
      rw [mem_weightByStatus hmem, decide_eq_true_eq, not_le]
      have hbelow := hquorum st
      rw [← hlater] at hbelow
      have := statusWeight_le_append u.reports later st
      omega
    have hall := hrun.completed_of_never_stopped hexit hnever
    have hsame := statusWeight_of_completed hnodup hans fun i => hall i (List.mem_finRange i)
    exact .inr ⟨fun st => hsame st ▸ hquorum st, hsame⟩

/-- Among the candidates, the verdict is one of the most certain. -/
private theorem certaintyRank_le_of_resolve {d : Dict ReportedStatus Nat} {q v : Int}
    {st : ReportedStatus} (h : resolve d q v = (.reported st, .validity))
    {item : ReportedStatus × Nat} (hitem : item ∈ d) (hv : v ≤ item.2) :
    certaintyRank st ≤ certaintyRank item.1 := by
  unfold resolve at h
  split at h
  · cases h
  · have htotal : Std.Total fun a b => certaintyRank a ≤ certaintyRank b :=
      ⟨fun a b => Nat.le_total _ _⟩
    have htrans : IsTrans ReportedStatus fun a b => certaintyRank a ≤ certaintyRank b :=
      ⟨fun a b c => Nat.le_trans⟩
    have hsorted := List.pairwise_insertionSort
      (fun a b => certaintyRank a ≤ certaintyRank b)
      ((d.filter fun item => v ≤ item.2).map Prod.fst)
    have hmem : item.1 ∈ ((d.filter fun item => v ≤ item.2).map Prod.fst).insertionSort
        (fun a b => certaintyRank a ≤ certaintyRank b) := by
      rw [List.mem_insertionSort]
      exact List.mem_map_of_mem (List.mem_filter.mpr ⟨hitem, decide_eq_true hv⟩)
    dsimp only at h
    split at h
    · rename_i first rest hsort
      cases h
      rw [hsort] at hsorted hmem
      rcases List.mem_cons.mp hmem with heq | hrest
      · rw [heq]
      · exact (List.pairwise_cons.mp hsorted).1 _ hrest
    · cases h

/-- The weights recorded are those of the statuses that have any. -/
private theorem mem_weightByStatus_of_pos {reports : List (StatusReport c)}
    {st : ReportedStatus} (hpos : 0 < statusWeight reports st) :
    (st, statusWeight reports st) ∈ (tallyOf reports).weightByStatus := by
  have hget := get?_weightByStatus reports st
  split at hget
  · exact Dict.mem_of_get? hget
  · rename_i hmissing
    have hzero : statusWeight reports st = 0 := by
      rw [statusWeight, under_eq_nil hmissing]
      rfl
    omega

/-- **A query that no deadline ends returns a verdict of its answers.** -/
theorem verdict_of_returned {answers : NodeAnswers c} {reports : List (StatusReport c)}
    {t : Tally} (h : Returned c answers reports t) (blobId : Bytes) :
    Verdict answers (buildReport c blobId t).status (buildReport c blobId t).resolution := by
  obtain ⟨htally, hnodup⟩ := h.fetched
  have hvpos : 0 < minWeightForValidity c.nShards := minWeightForValidity_pos (by omega)
  have hle : ∀ st, statusWeight reports st ≤ weightOf answers st := by
    obtain ⟨_, _, -, -, -, -, hans⟩ := h
    exact statusWeight_le hnodup hans
  have hreport : buildReport c blobId t = buildReport c blobId (tallyOf reports) := by
    rw [htally]
  rcases verdict_cases hreport with ⟨st, hstatus, hres, -, hq⟩ |
    ⟨st, hstatus, hres, -, hv, hbelow⟩ | ⟨hstatus, hres, -, hbelow⟩
  · rw [hstatus, hres]
    have := hle st
    exact .quorum (by omega)
  · rw [hstatus, hres]
    rcases h.settled with ⟨st', hq⟩ | ⟨hnone, hsame⟩
    · exact absurd (hbelow st') (by omega)
    · refine .validity hnone ⟨hsame st ▸ hv, ?_⟩
      intro st' hv'
      rw [← hsame st'] at hv'
      have hresolve : resolve (tallyOf reports).weightByStatus (minWeightForQuorum c.nShards)
          (minWeightForValidity c.nShards) = (.reported st, .validity) := by
        rw [hreport, buildReport_tallyOf] at hstatus hres
        exact Prod.ext hstatus hres
      have hpos : 0 < statusWeight reports st' := by omega
      exact certaintyRank_le_of_resolve hresolve (mem_weightByStatus_of_pos hpos) hv'
  · rw [hstatus, hres]
    have hvq : minWeightForValidity c.nShards ≤ minWeightForQuorum c.nShards :=
      minWeightForValidity_le_quorum (by omega)
    rcases h.settled with ⟨st', hq⟩ | ⟨-, hsame⟩
    · exact absurd (hbelow st') (by omega)
    · exact .unresolved fun st => hsame st ▸ hbelow st

/-! ## Which of them it is -/

/-- The first of the leading statuses that were folded. -/
def FirstLeading (answers : NodeAnswers c) (reports : List (StatusReport c))
    (st : ReportedStatus) : Prop :=
  Leads answers st ∧ ∃ prior rep later, reports = prior ++ rep :: later ∧
    answer rep = some st ∧ ∀ rep' ∈ prior, ∀ st', answer rep' = some st' → ¬ Leads answers st'

/-- Before one that leads, none of those that come first leads. -/
private theorem eq_of_split {answers : NodeAnswers c} {rep rep' : StatusReport c}
    {later between later' : List (StatusReport c)} {st st' : ReportedStatus}
    (hsplit : rep :: later = between ++ rep' :: later') (hst : answer rep = some st)
    (hst' : answer rep' = some st') (hleads : Leads answers st)
    (hfirst : ∀ r ∈ between, ∀ st', answer r = some st' → ¬ Leads answers st') : st = st' := by
  cases between with
  | nil =>
    obtain rfl : rep = rep' := (List.cons.inj hsplit).1
    exact Option.some.inj (hst.symm.trans hst')
  | cons next between =>
    obtain rfl : rep = next := (List.cons.inj hsplit).1
    exact absurd hleads (hfirst rep List.mem_cons_self st hst)

private theorem FirstLeading.unique {answers : NodeAnswers c} {reports : List (StatusReport c)}
    {st st' : ReportedStatus} (h : FirstLeading answers reports st)
    (h' : FirstLeading answers reports st') : st = st' := by
  obtain ⟨hleads, prior, rep, later, rfl, hst, hfirst⟩ := h
  obtain ⟨hleads', prior', rep', later', heq, hst', hfirst'⟩ := h'
  rcases List.append_eq_append_iff.mp heq with ⟨between, rfl, hrest⟩ | ⟨between, rfl, hrest⟩
  · exact eq_of_split hrest hst hst' hleads fun r hr => hfirst' r (List.mem_append_right _ hr)
  · exact (eq_of_split hrest hst' hst hleads' fun r hr =>
      hfirst r (List.mem_append_right _ hr)).symm

/-- A stable sort puts first the first of the most certain. -/
private theorem exists_first_of_insertionSort {l rest : List ReportedStatus} {st : ReportedStatus}
    (h : l.insertionSort (fun a b => certaintyRank a ≤ certaintyRank b) = st :: rest) :
    ∃ prior later, l = prior ++ st :: later ∧
      ∀ st' ∈ prior, certaintyRank st < certaintyRank st' := by
  induction l generalizing st rest with
  | nil => cases h
  | cons a l ih =>
    rw [List.insertionSort_cons] at h
    cases hsorted : l.insertionSort fun a b => certaintyRank a ≤ certaintyRank b with
    | nil =>
      rw [hsorted] at h
      cases h
      exact ⟨[], l, rfl, fun _ h => nomatch h⟩
    | cons head tail =>
      rw [hsorted, List.orderedInsert_cons] at h
      split at h
      · cases h
        exact ⟨[], l, rfl, fun _ h => nomatch h⟩
      · rename_i hlater
        cases h
        obtain ⟨prior, later, rfl, hprior⟩ := ih hsorted
        exact ⟨a :: prior, later, rfl, List.forall_mem_cons.mpr ⟨not_le.mp hlater, hprior⟩⟩

/-- What `resolve` settles on by validity is the first of the most certain
candidates. -/
private theorem exists_first_of_resolve {d : Dict ReportedStatus Nat} {q v : Int}
    {st : ReportedStatus} (h : resolve d q v = (.reported st, .validity)) :
    ∃ prior weight later, d = prior ++ (st, weight) :: later ∧
      ∀ item ∈ prior, v ≤ item.2 → certaintyRank st < certaintyRank item.1 := by
  unfold resolve at h
  split at h
  · cases h
  · dsimp only at h
    split at h
    · rename_i first rest hsort
      cases h
      obtain ⟨before, after, hcandidates, hbefore⟩ := exists_first_of_insertionSort hsort
      obtain ⟨kept, others, hsplit, rfl, hothers⟩ := List.map_eq_append_iff.mp hcandidates
      obtain ⟨item, others', rfl, rfl, -⟩ := List.map_eq_cons_iff.mp hothers
      obtain ⟨d₁, d₂, rfl, rfl, hrest⟩ := List.filter_eq_append_iff.mp hsplit
      obtain ⟨d₃, d₄, rfl, hskipped, -, -⟩ := List.filter_eq_cons_iff.mp hrest
      refine ⟨d₁ ++ d₃, item.2, d₄, by rw [List.append_assoc], fun item' hitem' hv => ?_⟩
      rcases List.mem_append.mp hitem' with hkept | hbelow
      · exact hbefore _ (List.mem_map_of_mem (List.mem_filter.mpr ⟨hkept, decide_eq_true hv⟩))
      · exact absurd (decide_eq_true hv) (hskipped _ hbelow)
    · cases h

/-- The statuses are recorded in the order in which they were first folded. -/
private theorem exists_first_of_weightByStatus {reports : List (StatusReport c)}
    {prior later : Dict ReportedStatus Nat} {st : ReportedStatus} {weight : Nat}
    (h : (tallyOf reports).weightByStatus = prior ++ (st, weight) :: later) :
    ∃ before rep after, reports = before ++ rep :: after ∧ answer rep = some st ∧
      ∀ rep' ∈ before, ∀ st', answer rep' = some st' → st' ∈ prior.keys := by
  have hkeys : Dict.keys (tallyOf reports).weightByStatus = prior.keys ++ st :: later.keys := by
    rw [h]
    simp [Dict.keys]
  obtain ⟨met, x, rest, hmet, hfirst⟩ := Dict.exists_first_of_keys_groupFold hkeys
  rw [answers, List.map_filterMap] at hmet
  obtain ⟨before, tail, rfl, rfl, htail⟩ := List.filterMap_eq_append_iff.mp hmet
  obtain ⟨silent, rep, after, rfl, hsilent, hrep, -⟩ := List.filterMap_eq_cons_iff.mp htail
  have hanswer : answer rep = some st := by
    cases hst : answer rep with
    | none => simp [hst] at hrep
    | some st' =>
      rw [hst] at hrep
      cases hrep
      rfl
  refine ⟨before ++ silent, rep, after, by rw [List.append_assoc], hanswer, ?_⟩
  intro rep' hrep' st' hst'
  rcases List.mem_append.mp hrep' with hbefore | hbetween
  · refine hfirst (st', (reportNode c rep').weight) (List.mem_filterMap.mpr ⟨rep', hbefore, ?_⟩)
    rw [hst']
    rfl
  · have hnone := hsilent rep' hbetween
    rw [hst'] at hnone
    cases hnone

private theorem Returned.firstLeading {answers : NodeAnswers c} {reports : List (StatusReport c)}
    {t : Tally} (h : Returned c answers reports t) (hnone : NoQuorum answers) {blobId : Bytes}
    {st : ReportedStatus} (hstatus : (buildReport c blobId t).status = .reported st) :
    FirstLeading answers reports st := by
  have hverdict := verdict_of_returned h blobId
  rw [hstatus] at hverdict
  obtain ⟨hleads, hresolution⟩ : Leads answers st ∧
      (buildReport c blobId t).resolution = .validity := by
    cases hres : (buildReport c blobId t).resolution with
    | quorum =>
      rw [hres] at hverdict
      cases hverdict with
      | quorum hq => exact absurd (hnone st) (not_lt.mpr hq)
    | validity =>
      rw [hres] at hverdict
      cases hverdict with
      | validity _ hleads => exact ⟨hleads, rfl⟩
    | unresolved =>
      rw [hres] at hverdict
      cases hverdict
  obtain ⟨htally, hnodup⟩ := h.fetched
  have hsame : ∀ st', statusWeight reports st' = weightOf answers st' := by
    rcases h.settled with ⟨st', hq⟩ | ⟨-, hsame⟩
    · obtain ⟨_, _, -, -, -, -, hans⟩ := h
      have := statusWeight_le hnodup hans st'
      exact absurd (hnone st') (by omega)
    · exact hsame
  have hresolve : resolve (tallyOf reports).weightByStatus (minWeightForQuorum c.nShards)
      (minWeightForValidity c.nShards) = (.reported st, .validity) := by
    rw [htally, buildReport_tallyOf] at hstatus hresolution
    exact Prod.ext hstatus hresolution
  obtain ⟨prior, weight, later, hdict, hprior⟩ := exists_first_of_resolve hresolve
  obtain ⟨before, rep, after, hreports, hanswer, hbefore⟩ := exists_first_of_weightByStatus hdict
  refine ⟨hleads, before, rep, after, hreports, hanswer, fun rep' hrep' st' hst' hleads' => ?_⟩
  obtain ⟨item, hitem, rfl⟩ := List.mem_map.mp (hbefore rep' hrep' st' hst')
  have hmem : item ∈ (tallyOf reports).weightByStatus := hdict ▸ List.mem_append_left _ hitem
  have hclears : minWeightForValidity c.nShards ≤ item.2 := by
    rw [mem_weightByStatus hmem, hsame]
    exact hleads'.1
  exact absurd (hleads'.2 st hleads.1) (not_le.mpr (hprior item hitem hclears))

/-- **The first that leads decides**, where there is no quorum. -/
theorem status_iff_firstLeading {answers : NodeAnswers c} {reports : List (StatusReport c)}
    {t : Tally} (h : Returned c answers reports t) (hnone : NoQuorum answers) (blobId : Bytes)
    (st : ReportedStatus) :
    (buildReport c blobId t).status = .reported st ↔ FirstLeading answers reports st := by
  constructor
  · exact h.firstLeading hnone
  · intro hfirst
    have hverdict := verdict_of_returned h blobId
    cases hstatus : (buildReport c blobId t).status with
    | reported st' => rw [hfirst.unique (h.firstLeading hnone hstatus)]
    | unresolved =>
      rw [hstatus] at hverdict
      generalize (buildReport c blobId t).resolution = resolution at hverdict
      cases hverdict with
      | unresolved hbelow => exact absurd (hbelow st) (not_lt.mpr hfirst.1.1)

/-! ## It may be any of them -/

/-- The nodes that answer `st` first, then the others. -/
private def arrival (answers : NodeAnswers c) (st : ReportedStatus) :
    List (Fin c.members.length) :=
  (List.finRange c.members.length).filter (fun i => (statusFromNode (answers i)).1 = some st) ++
    (List.finRange c.members.length).filter
      (fun i => !decide ((statusFromNode (answers i)).1 = some st))

private theorem arrival_perm (answers : NodeAnswers c) (st : ReportedStatus) :
    (arrival answers st).Perm (List.finRange c.members.length) :=
  List.filter_append_perm _ _

/-- A run in which a node that answers `st` is folded first. -/
private theorem exists_returned (answers : NodeAnswers c) {st : ReportedStatus}
    (hpos : 0 < weightOf answers st) :
    ∃ first later t, Returned c answers (first :: later) t ∧ answer first = some st := by
  have hperm := arrival_perm answers st
  have hfirst : ∃ first rest, arrival answers st = first :: rest ∧
      (statusFromNode (answers first)).1 = some st := by
    obtain ⟨i, hi⟩ : ∃ i, i ∈ answering answers st := by
      by_contra hnone
      push Not at hnone
      rw [weightOf, Finset.eq_empty_of_forall_notMem hnone, Finset.sum_empty] at hpos
      omega
    have hmem : i ∈ (List.finRange c.members.length).filter
        (fun i => (statusFromNode (answers i)).1 = some st) :=
      List.mem_filter.mpr ⟨List.mem_finRange i, by simpa [answering] using hi⟩
    unfold arrival
    cases hfilter : (List.finRange c.members.length).filter
        (fun i => (statusFromNode (answers i)).1 = some st) with
    | nil =>
      rw [hfilter] at hmem
      cases hmem
    | cons first rest =>
      have hin : first ∈ (List.finRange c.members.length).filter
          (fun i => (statusFromNode (answers i)).1 = some st) := by
        rw [hfilter]
        exact List.mem_cons_self
      exact ⟨first, _, rfl, of_decide_eq_true (List.mem_filter.mp hin).2⟩
  obtain ⟨first, rest, harrival, hstatus⟩ := hfirst
  have hothers : others (List.finRange c.members.length) (arrival answers st) = [] := by
    apply List.filter_eq_nil_iff.mpr
    intro i hi
    simp [hperm.mem_iff.mpr hi]
  obtain ⟨acts, s, hrun, hexit, hreports⟩ := exists_run (callbacks c) .empty
    (fun i => .returned (answers i)) (hperm.nodup_iff.mpr (List.nodup_finRange _))
    (List.nodup_finRange _) (fun i _ => List.mem_finRange i)
    (by rw [harrival]; exact List.cons_ne_nil _ _) (fun h => absurd hothers h)
  rw [hothers, List.map_nil, List.append_nil, harrival, List.map_cons] at hreports
  refine ⟨.completed first (.returned (answers first)), _, s.acc,
    ⟨acts, s, hrun, hexit, hreports, rfl, ?_⟩, hstatus⟩
  intro i r hr
  rw [← List.map_cons (f := fun i => Report.completed i (.returned (answers i)))] at hr
  obtain ⟨j, -, hj⟩ := List.mem_map.mp hr
  cases hj
  rfl

/-- **A query may return any status that leads.** -/
theorem exists_returned_of_leads {answers : NodeAnswers c} {st : ReportedStatus}
    (hnone : NoQuorum answers) (hleads : Leads answers st) (blobId : Bytes) :
    ∃ reports t, Returned c answers reports t ∧
      (buildReport c blobId t).status = .reported st := by
  have hvpos : 0 < minWeightForValidity c.nShards := minWeightForValidity_pos (by omega)
  have hpos : 0 < weightOf answers st := by
    have := hleads.1
    omega
  obtain ⟨first, later, t, hreturned, hfirst⟩ := exists_returned answers hpos
  refine ⟨_, t, hreturned, (status_iff_firstLeading hreturned hnone blobId st).mpr ?_⟩
  exact ⟨hleads, [], first, later, rfl, hfirst, fun _ h => nomatch h⟩

/-- **The verdict and the order of arrival.** Two queries over the same
answers come to the same resolution, and to the same status unless two
statuses lead. Without a quorum it is the leading status that was folded
first, and any of them may be. -/
theorem fetchBlobStatus_arrivalOrder (c : WalrusCommittee) (hp : c.PartitionsShards)
    (answers : NodeAnswers c) (blobId : Bytes) :
    (∀ reports t reports' t', Returned c answers reports t → Returned c answers reports' t' →
      (buildReport c blobId t).resolution = (buildReport c blobId t').resolution ∧
      ((buildReport c blobId t).status = (buildReport c blobId t').status ∨ Tied answers)) ∧
    (NoQuorum answers →
      (∀ reports t, Returned c answers reports t → ∀ st,
        (buildReport c blobId t).status = .reported st ↔ FirstLeading answers reports st) ∧
      ∀ st, Leads answers st → ∃ reports t, Returned c answers reports t ∧
        (buildReport c blobId t).status = .reported st) := by
  constructor
  · intro reports t reports' t' h h'
    exact (verdict_of_returned h blobId).agree hp (verdict_of_returned h' blobId)
  · intro hnone
    constructor
    · intro reports t h st
      exact status_iff_firstLeading h hnone blobId st
    · intro st hleads
      exact exists_returned_of_leads hnone hleads blobId

/-! ### Two nodes that disagree on the end epoch -/

private def evenNodes : WalrusCommittee where
  epoch := 1
  nShards := 4
  members := [⟨"a", [0, 1], "a:1", []⟩, ⟨"b", [2, 3], "b:1", []⟩]

private def storedUntil (endEpoch : Int) : ReportedStatus :=
  .permanent endEpoch true ⟨[116, 120], 0⟩ ⟨0, 0⟩ none

private def disagreement : NodeAnswers evenNodes
  | ⟨0, _⟩ => .ok (.ok (some (storedUntil 7)))
  | _ => .ok (.ok (some (storedUntil 9)))

private def nodeA : Fin evenNodes.members.length := ⟨0, by decide⟩

private def nodeB : Fin evenNodes.members.length := ⟨1, by decide⟩

/-- The nodes answer one after the other. -/
private def inTurn (answers : NodeAnswers evenNodes) (i j : Fin evenNodes.members.length) :
    List (Action (Fin evenNodes.members.length) PyExn (ExecuteOutcome ReportedStatus)) :=
  [.finish i (.returned (answers i)), .wake [i], .finish j (.returned (answers j)), .wake [j]]

private theorem returned_inTurn {answers : NodeAnswers evenNodes}
    {i j : Fin evenNodes.members.length}
    {s : State (Fin evenNodes.members.length) PyExn (ExecuteOutcome ReportedStatus) Tally}
    (hrun : Runs (callbacks evenNodes) (List.finRange _) .empty (inTurn answers i j) s)
    (hexit : s.phase = .exited .returned)
    (hreports : s.reports = [.completed i (.returned (answers i)),
      .completed j (.returned (answers j))]) :
    Returned evenNodes answers s.reports s.acc := by
  refine ⟨_, s, hrun, hexit, rfl, rfl, ?_⟩
  intro k r hr
  rw [hreports] at hr
  rcases List.mem_cons.mp hr with h | h
  · cases h
    rfl
  · cases List.mem_singleton.mp h
    rfl

/-- The node that answers first decides. -/
theorem fetchBlobStatus_firstDecides :
    evenNodes.PartitionsShards ∧
    (∃ reports t, Returned evenNodes disagreement reports t ∧
      (buildReport evenNodes [] t).status = .reported (storedUntil 7)) ∧
    (∃ reports t, Returned evenNodes disagreement reports t ∧
      (buildReport evenNodes [] t).status = .reported (storedUntil 9)) := by
  refine ⟨by decide, ?_, ?_⟩
  · obtain ⟨s, hrun, hexit, hreports, hstatus⟩ : ∃ s, Runs (callbacks evenNodes)
        (List.finRange _) .empty (inTurn disagreement nodeA nodeB) s ∧
        s.phase = .exited .returned ∧
        s.reports = [.completed nodeA (.returned (disagreement nodeA)),
          .completed nodeB (.returned (disagreement nodeB))] ∧
        (buildReport evenNodes [] s.acc).status = .reported (storedUntil 7) :=
      ⟨_, rfl, rfl, rfl, by decide⟩
    exact ⟨_, _, returned_inTurn hrun hexit hreports, hstatus⟩
  · obtain ⟨s, hrun, hexit, hreports, hstatus⟩ : ∃ s, Runs (callbacks evenNodes)
        (List.finRange _) .empty (inTurn disagreement nodeB nodeA) s ∧
        s.phase = .exited .returned ∧
        s.reports = [.completed nodeB (.returned (disagreement nodeB)),
          .completed nodeA (.returned (disagreement nodeA))] ∧
        (buildReport evenNodes [] s.acc).status = .reported (storedUntil 9) :=
      ⟨_, rfl, rfl, rfl, by decide⟩
    exact ⟨_, _, returned_inTurn hrun hexit hreports, hstatus⟩

private def agreement : NodeAnswers evenNodes := fun _ => .ok (.ok (some (storedUntil 7)))

/-- Nodes that agree can answer in any order. -/
theorem fetchBlobStatus_arrivalOrder_evenNodes :
    (∃ reports t, Returned evenNodes agreement reports t) ∧
    ∀ reports t reports' t', Returned evenNodes agreement reports t →
      Returned evenNodes agreement reports' t' →
      (buildReport evenNodes [] t).status = (buildReport evenNodes [] t').status := by
  obtain ⟨hsame, -⟩ := fetchBlobStatus_arrivalOrder evenNodes (by decide) agreement []
  constructor
  · obtain ⟨s, hrun, hexit, hreports⟩ : ∃ s, Runs (callbacks evenNodes)
        (List.finRange _) .empty (inTurn agreement nodeA nodeB) s ∧
        s.phase = .exited .returned ∧
        s.reports = [.completed nodeA (.returned (agreement nodeA)),
          .completed nodeB (.returned (agreement nodeB))] := ⟨_, rfl, rfl, rfl⟩
    exact ⟨_, _, returned_inTurn hrun hexit hreports⟩
  · intro reports t reports' t' h h'
    rcases (hsame reports t reports' t' h h').2 with heq | ⟨hnone, -⟩
    · exact heq
    · exact absurd (hnone (storedUntil 7)) (by decide)

end Pytusk.BlobStatusQuery
