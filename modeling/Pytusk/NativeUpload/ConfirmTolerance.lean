import Pytusk.NativeUpload.ConfirmRuns
import Pytusk.CommitteeFanout.Schedules
import Mathlib.Algebra.Order.BigOperators.Group.Finset
import Mathlib.Data.Fintype.Basic

/-!
# Which nodes can make confirmation collection fail

The certificate is built from the confirmations folded before the fan-out
returned, and the fan-out stops on weight that nothing has verified yet. So
a node that signs another message, or enough weight behind invalid
signatures, can turn a committee whose valid confirmations reach quorum into
a failure. `Poll.Tolerable` says exactly when that cannot happen.
-/

namespace Pytusk.Confirm

open Pytusk.Lib Pytusk.Certification Pytusk.CommitteeFanout

namespace Poll

variable (p : Poll)

/-! ## How the requests would be answered -/

/-- Requests answered with a valid confirmation: expected message, verifying
signature. -/
def valid : Finset p.Request :=
  Finset.univ.filter fun i =>
    (p.confirmation i).any (verifyConfirmation p.bls · p.expectedMessage)

/-- Requests answered with the expected message and a signature that does not
verify. -/
def invalid : Finset p.Request :=
  Finset.univ.filter fun i =>
    (p.confirmation i).any fun conf =>
      conf.serializedMessage = p.expectedMessage &&
        !isGood p.bls p.expectedMessage conf

/-- Requests answered with a confirmation of another message. -/
def other : Finset p.Request :=
  Finset.univ.filter fun i =>
    (p.confirmation i).any fun conf => conf.serializedMessage ≠ p.expectedMessage

/-- The shard weight of the nodes behind some requests. -/
def weight (s : Finset p.Request) : Nat := ∑ i ∈ s, (p.candidates.get i).weight

/-- No node signs another message, the valid nodes are different nodes, and
no set of them is below quorum that invalid signatures would lift over it. -/
structure Tolerable : Prop where
  other_empty : p.other = ∅
  distinct : ∀ i ∈ p.valid, ∀ j ∈ p.valid, p.position i = p.position j → i = j
  enough : ∀ s ⊆ p.valid, p.requiredWeight ≤ p.weight s + p.weight p.invalid →
    p.requiredWeight ≤ p.weight s

variable {p}

private theorem isGood_of_message {conf : NodeConfirmation}
    (h : conf.serializedMessage = p.expectedMessage) :
    verifyConfirmation p.bls conf p.expectedMessage =
      isGood p.bls p.expectedMessage conf := by
  simp [verifyConfirmation, isGood, h]

/-! ## Weights of what was folded -/

/-- Filtering confirmations is filtering the requests that brought them. -/
private theorem map_filter_confirmations {γ : Type*} {g : NodeConfirmation → γ}
    {w : p.Request → γ}
    (hg : ∀ i conf, p.confirmation i = some conf → g conf = w i)
    (keep : NodeConfirmation → Bool) (l : List p.Request) :
    ((l.filterMap p.confirmation).filter keep).map g =
      (l.filter fun i => (p.confirmation i).any keep).map w := by
  induction l with
  | nil => rfl
  | cons i rest ih =>
    cases hi : p.confirmation i with
    | none => simp [hi, ih]
    | some conf =>
      by_cases hkeep : keep conf = true
      · simp [hi, hkeep, ih, hg i conf hi]
      · simp [hi, hkeep, ih]

private theorem totalWeight_filter {l : List p.Request} (hl : l.Nodup)
    (keep : NodeConfirmation → Bool) :
    totalWeight ((l.filterMap p.confirmation).filter keep) =
      p.weight (l.toFinset.filter fun i => (p.confirmation i).any keep) := by
  have hmap := map_filter_confirmations (g := (·.weight))
    (w := fun i => (p.candidates.get i).weight)
    (fun i conf h => (confirmation_eq_some h).1) keep l
  rw [totalWeight, hmap, weight, ← List.toFinset_filter,
    List.sum_toFinset _ (hl.filter _)]

/-- The position the certificate would count a confirmation under. -/
private theorem map_position_filter (l : List p.Request)
    (keep : NodeConfirmation → Bool) :
    ((l.filterMap p.confirmation).filter keep).map
        (fun conf => (Except.ok conf.position : Except PyExn Nat)) =
      (l.filter fun i => (p.confirmation i).any keep).map p.position :=
  map_filter_confirmations (fun _ _ h => (confirmation_eq_some h).2.2.symm) keep l

theorem mem_valid {i : p.Request} : i ∈ p.valid ↔
    (p.confirmation i).any (verifyConfirmation p.bls · p.expectedMessage) = true := by
  simp [valid]

theorem mem_invalid {i : p.Request} : i ∈ p.invalid ↔
    (p.confirmation i).any (fun conf =>
      conf.serializedMessage = p.expectedMessage &&
        !isGood p.bls p.expectedMessage conf) = true := by
  simp [invalid]

/-- The confirmations a good signature keeps are those of the valid requests,
once every message is the expected one. -/
private theorem any_isGood {i : p.Request} (hi : i ∉ p.other) :
    (p.confirmation i).any (isGood p.bls p.expectedMessage) = decide (i ∈ p.valid) := by
  cases hconf : p.confirmation i with
  | none => simp [mem_valid, hconf]
  | some conf =>
    have hmsg : conf.serializedMessage = p.expectedMessage := by
      simpa [other, hconf] using hi
    simp [mem_valid, hconf, isGood_of_message hmsg]

theorem requiredWeight_pos (p : Poll) : 0 < p.requiredWeight := by
  simp only [requiredWeight, minWeightForQuorum]
  omega

private theorem messages_iff {l : List p.Request} :
    (∀ conf ∈ l.filterMap p.confirmation, conf.serializedMessage = p.expectedMessage) ↔
      ∀ i ∈ l, i ∉ p.other := by
  simp only [List.mem_filterMap, forall_exists_index, and_imp]
  constructor
  · intro h i hi hother
    obtain ⟨conf, hconf, hne⟩ := (Option.any_eq_true _ _).mp (Finset.mem_filter.mp hother).2
    exact absurd (h conf i hi hconf) (by simpa using hne)
  · intro h conf i hi hconf
    by_contra hne
    exact h i hi (by simp [other, hconf, hne])

/-- Only the certificate decides, once something was folded. -/
private theorem finish_isOk_iff_build {l : List p.Request}
    (hne : l.filterMap p.confirmation ≠ []) :
    (∃ cert, p.finish (p.collect l) = .ok cert) ↔
      ∃ cert, buildCertificate p.bls (l.filterMap p.confirmation)
        p.committee.committeeSize p.committee.nShards (some p.expectedMessage) =
          .ok cert := by
  simp only [finish, collect, hne, if_false]
  split <;> simp_all

/-- **When the folded answers make a certificate**: no other message among
them, no two valid ones from one position, and a quorum of valid weight. -/
theorem finish_isOk (ideal : Ideal p.bls) {l : List p.Request} (hl : l.Nodup) :
    (∃ cert, p.finish (p.collect l) = .ok cert) ↔
      (∀ i ∈ l, i ∉ p.other) ∧
      (∀ i ∈ l, i ∈ p.valid → ∀ j ∈ l, j ∈ p.valid →
        p.position i = p.position j → i = j) ∧
      p.requiredWeight ≤ p.weight (l.toFinset ∩ p.valid) := by
  by_cases hne : l.filterMap p.confirmation = []
  · -- nothing usable was folded: no valid weight either
    have hnone : l.toFinset ∩ p.valid = ∅ := by
      refine Finset.eq_empty_of_forall_notMem fun i hi => ?_
      obtain ⟨hi, hvalid⟩ := Finset.mem_inter.mp hi
      have hconf := List.filterMap_eq_nil_iff.mp hne i (List.mem_toFinset.mp hi)
      simp [mem_valid, hconf] at hvalid
    have hpos := p.requiredWeight_pos
    constructor
    · rintro ⟨cert, hcert⟩
      simp [finish, collect, hne] at hcert
    · rintro ⟨-, -, hweight⟩
      rw [hnone] at hweight
      simp only [weight, Finset.sum_empty] at hweight
      omega
  · rw [finish_isOk_iff_build hne, ideal.buildCertificate_isOk hne, messages_iff]
    refine and_congr_right fun hmsg => ?_
    have hgood : (l.filter fun i =>
        (p.confirmation i).any (isGood p.bls p.expectedMessage)) =
        l.filter (· ∈ p.valid) :=
      List.filter_congr fun i hi => any_isGood (hmsg i hi)
    have hposition := map_position_filter l (isGood p.bls p.expectedMessage)
    have hlt : ∀ conf ∈ (l.filterMap p.confirmation).filter
        (isGood p.bls p.expectedMessage), conf.position < p.committee.committeeSize := by
      intro conf hconf
      obtain ⟨i, -, hi⟩ := List.mem_filterMap.mp (List.mem_filter.mp hconf).1
      exact WalrusCommittee.positionOf_lt (confirmation_eq_some hi).2.2
    have hweight : totalWeight ((l.filterMap p.confirmation).filter
        (isGood p.bls p.expectedMessage)) = p.weight (l.toFinset ∩ p.valid) := by
      rw [totalWeight_filter hl, ← List.toFinset_filter, hgood, List.toFinset_filter]
      congr 1
      ext i
      simp
    have hnodup : (((l.filterMap p.confirmation).filter
        (isGood p.bls p.expectedMessage)).map (·.position)).Nodup ↔
        ∀ i ∈ l, i ∈ p.valid → ∀ j ∈ l, j ∈ p.valid →
          p.position i = p.position j → i = j := by
      have hok : Function.Injective (Except.ok : Nat → Except PyExn Nat) :=
        fun a b h => Except.ok.inj h
      rw [← List.nodup_map_iff hok, List.map_map]
      show (((l.filterMap p.confirmation).filter _).map
        fun conf => (Except.ok conf.position : Except PyExn Nat)).Nodup ↔ _
      rw [hposition, hgood, List.nodup_map_iff_inj_on (hl.filter _)]
      simp only [List.mem_filter, decide_eq_true_eq, and_imp]
    rw [hnodup, hweight]
    exact and_congr_right fun _ => ⟨fun h => h.2, fun h => ⟨hlt, h⟩⟩

/-! ## From the schedule to the folded requests -/

variable {acts : List (Action p.Request PyExn (ExecuteOutcome SignedConfirmation))}
variable {s : State p.Request PyExn (ExecuteOutcome SignedConfirmation) Collected}

theorem notMem_valid_of_mem_invalid {i : p.Request} (hinv : i ∈ p.invalid) :
    i ∉ p.valid := by
  intro hi
  have hvalid := mem_valid.mp hi
  have hinvalid := mem_invalid.mp hinv
  cases hconf : p.confirmation i with
  | none => simp [hconf] at hvalid
  | some conf =>
    simp only [hconf, Option.any_some, Bool.and_eq_true, decide_eq_true_eq,
      Bool.not_eq_true'] at hvalid hinvalid
    rw [isGood_of_message hinvalid.1, hinvalid.2] at hvalid
    cases hvalid

theorem weight_union_invalid {t : Finset p.Request} (ht : t ⊆ p.valid) :
    p.weight (t ∪ p.invalid) = p.weight t + p.weight p.invalid :=
  Finset.sum_union <| Finset.disjoint_left.mpr fun _ hi hinv =>
    notMem_valid_of_mem_invalid hinv (ht hi)

private theorem isSome_of_any {α : Type*} {keep : α → Bool} {x : Option α}
    (h : x.any keep = true) : x.isSome = true := by
  cases x with
  | none => cases h
  | some a => rfl

theorem weight_mono {t u : Finset p.Request} (h : t ⊆ u) : p.weight t ≤ p.weight u :=
  Finset.sum_le_sum_of_subset h

/-- The weight counted so far, before anything has been verified. -/
private theorem weightConfirmed_collect {l : List p.Request} (hl : l.Nodup) :
    (p.collect l).weightConfirmed =
      p.weight (l.toFinset.filter fun i => (p.confirmation i).isSome) := by
  have h := totalWeight_filter hl fun _ => true
  simpa [collect, Option.any_true] using h

/-- Counted weight is valid or invalid weight when no other message came. -/
private theorem weightConfirmed_le (hother : p.other = ∅) {l : List p.Request}
    (hl : l.Nodup) :
    (p.collect l).weightConfirmed ≤
      p.weight (l.toFinset ∩ p.valid) + p.weight p.invalid := by
  rw [weightConfirmed_collect hl,
    ← weight_union_invalid (p := p) Finset.inter_subset_right]
  refine weight_mono fun i hi => ?_
  obtain ⟨hil, hsome⟩ := Finset.mem_filter.mp hi
  obtain ⟨conf, hconf⟩ := Option.isSome_iff_exists.mp hsome
  have hmsg : conf.serializedMessage = p.expectedMessage := by
    have hnot : i ∉ p.other := by simp [hother]
    simpa [other, hconf] using hnot
  by_cases hgood : isGood p.bls p.expectedMessage conf = true
  · refine Finset.mem_union_left _ (Finset.mem_inter.mpr ⟨hil, mem_valid.mpr ?_⟩)
    simpa [hconf, isGood_of_message hmsg] using hgood
  · refine Finset.mem_union_right _ (mem_invalid.mpr ?_)
    simpa [hconf, hmsg] using hgood

/-- Harmless bad nodes cannot keep a quorum of valid ones from a certificate,
whatever the schedule. -/
theorem Tolerable.finish_isOk (h : p.Tolerable) (ideal : Ideal p.bls)
    (hquorum : p.requiredWeight ≤ p.weight p.valid)
    (hrun : Runs p.callbacks (List.finRange p.candidates.length) .empty acts s)
    (hexit : s.phase = .exited .returned)
    (hans : ∀ i r, Report.completed i r ∈ s.reports → r = .returned (p.answers i)) :
    ∃ cert, p.finish s.acc = .ok cert := by
  obtain ⟨hacc, hnodup⟩ := acc_eq_collect hrun hans
  rw [hacc, Poll.finish_isOk ideal hnodup]
  refine ⟨fun i _ => by simp [h.other_empty],
    fun i _ hi j _ hj => h.distinct i hi j hj, ?_⟩
  by_cases hcancel : ∃ t, Report.cancelled t ∈ s.reports
  · -- a straggler was cancelled: the threshold was met by what came before
    obtain ⟨t, ht⟩ := hcancel
    obtain ⟨front, hfront, hstop⟩ := hrun.stopped_of_cancelled ht
    have hans' := fun i r hr => hans i r (hfront.subset hr)
    rw [replay_eq_collect front hans'] at hstop
    have hnodup' : (folded front).Nodup :=
      hnodup.sublist (hfront.sublist.filterMap _)
    have hcounted : p.requiredWeight ≤ (p.collect (folded front)).weightConfirmed :=
      of_decide_eq_true hstop
    have hle := weightConfirmed_le h.other_empty hnodup'
    have henough := h.enough ((folded front).toFinset ∩ p.valid)
      Finset.inter_subset_right (by omega)
    have hsub : (folded front).toFinset ∩ p.valid ⊆
        (folded s.reports).toFinset ∩ p.valid := by
      refine Finset.inter_subset_inter_right fun i hi => ?_
      exact List.mem_toFinset.mpr
        ((hfront.sublist.filterMap _).subset (List.mem_toFinset.mp hi))
    have hmono := weight_mono hsub
    omega
  · -- nothing was cancelled: every answer was folded
    have hall : ∀ i : p.Request, i ∈ folded s.reports := by
      intro i
      obtain ⟨rep, hrep, htask⟩ := List.mem_map.mp
        ((hrun.reported_perm hexit).mem_iff.mpr (List.mem_finRange i))
      cases rep with
      | completed u r => obtain rfl : u = i := htask; exact mem_folded.mpr ⟨r, hrep⟩
      | cancelled u => exact absurd ⟨u, hrep⟩ hcancel
    have huniv : (folded s.reports).toFinset ∩ p.valid = p.valid :=
      Finset.inter_eq_right.mpr fun i _ => List.mem_toFinset.mpr (hall i)
    rwa [huniv]

/-- The runs of the fan-out so far: nobody cancelled the driver, and a request
that has ended brought its answer or was cancelled as a straggler. -/
def Underway (p : Poll)
    (acts : List (Action p.Request PyExn (ExecuteOutcome SignedConfirmation)))
    (s : State p.Request PyExn (ExecuteOutcome SignedConfirmation) Collected) : Prop :=
  Runs p.callbacks (List.finRange p.candidates.length) .empty acts s ∧
    .cancelDriver ∉ acts ∧
    ∀ i r, s.result i = some r → r = .returned (p.answers i) ∨ .cancelled i ∈ s.reports

/-- What is underway returns once the requests still running are answered. -/
theorem Underway.exists_return (h : p.Underway acts s) :
    ∃ acts' s', Runs p.callbacks (List.finRange p.candidates.length) .empty
        (acts ++ acts') s' ∧ s'.phase = .exited .returned ∧
      ∀ i r, Report.completed i r ∈ s'.reports → r = .returned (p.answers i) := by
  obtain ⟨hrun, hcancel, hans⟩ := h
  obtain ⟨acts', s', hrest, hexit, hresult, -, -⟩ :=
    hrun.exists_return hcancel (List.nodup_finRange _) fun i => .returned (p.answers i)
  have hrun' := Lts.run_append_eq_some.mpr ⟨s, hrun, hrest⟩
  refine ⟨acts', s', hrun', hexit, fun i r hr => ?_⟩
  rcases hresult i r (Runs.inv hrun' |>.result i r hr) with hold | hnew
  · rcases hans i r hold with hr' | hcancelled
    · exact hr'
    · -- a straggler already reported is not reported again
      have hmem := (run_reports_extends hrest).subset hcancelled
      exact nomatch Runs.report_unique hrun' (List.nodup_finRange _) hr hmem rfl
  · exact hnew

/-- The reports of a fan-out that folds the answers to `l` in order. -/
private def answered (p : Poll) (l : List p.Request) :
    List (Report p.Request PyExn (ExecuteOutcome SignedConfirmation)) :=
  l.map fun i => .completed i (.returned (p.answers i))

private theorem replay_answered (l : List p.Request) :
    replay p.callbacks .empty (p.answered l) = p.collect l := by
  induction l using List.reverseRecOn with
  | nil => rfl
  | append_singleton front i ih =>
    rw [answered, List.map_append, replay_append, ← answered, ih, ← fold_collect]
    rfl

private theorem replay_cancelled (acc : Collected) (l : List p.Request) :
    replay p.callbacks acc (l.map .cancelled) = acc := by
  induction l with
  | nil => rfl
  | cons i rest ih => exact ih

/-- A run that folds exactly a set of requests, if it is all of them or meets
the threshold. -/
private theorem exists_run_folding {t : Finset p.Request} (hne : t.Nonempty)
    (hstop : t ≠ Finset.univ → p.requiredWeight ≤ (p.collect
      ((List.finRange p.candidates.length).filter (· ∈ t))).weightConfirmed) :
    ∃ acts s, Runs p.callbacks (List.finRange p.candidates.length) .empty acts s ∧
      s.phase = .exited .returned ∧
      (∀ i r, Report.completed i r ∈ s.reports → r = .returned (p.answers i)) ∧
      s.acc = p.collect ((List.finRange p.candidates.length).filter (· ∈ t)) := by
  obtain ⟨l, hl⟩ : ∃ l, l = (List.finRange p.candidates.length).filter (· ∈ t) := ⟨_, rfl⟩
  have hmem : ∀ i, i ∈ l ↔ i ∈ t := fun i => by simp [hl]
  rw [← hl] at hstop ⊢
  obtain ⟨first, hfirst⟩ := hne
  obtain ⟨acts, s, hrun, hexit, hreports⟩ := exists_run p.callbacks .empty
    (fun i => .returned (p.answers i)) (hl ▸ (List.nodup_finRange _).filter _)
    (List.nodup_finRange _) (fun i _ => List.mem_finRange i)
    (List.ne_nil_of_mem ((hmem first).mpr hfirst))
    (fun hothers => by
      rw [← answered, replay_answered]
      refine decide_eq_true (hstop fun huniv => hothers ?_)
      exact List.filter_eq_nil_iff.mpr fun i _ => by simp [hmem, huniv])
  refine ⟨acts, s, hrun, hexit, fun i r hr => ?_, ?_⟩
  · rw [hreports] at hr
    rcases List.mem_append.mp hr with hr | hr
    · obtain ⟨j, -, hj⟩ := List.mem_map.mp hr
      cases hj
      rfl
    · obtain ⟨j, -, hj⟩ := List.mem_map.mp hr
      cases hj
  · rw [hrun.inv.acc, hreports, replay_append, ← answered, replay_answered,
      replay_cancelled]

/-- If every schedule ends in a certificate, bad nodes are harmless. -/
theorem tolerable_of_always (ideal : Ideal p.bls)
    (hquorum : p.requiredWeight ≤ p.weight p.valid)
    (halways : ∀ acts s,
      Runs p.callbacks (List.finRange p.candidates.length) .empty acts s →
      s.phase = .exited .returned →
      (∀ i r, Report.completed i r ∈ s.reports → r = .returned (p.answers i)) →
      ∃ cert, p.finish s.acc = .ok cert) : p.Tolerable := by
  have hrequired := p.requiredWeight_pos
  -- fold one set of requests, and read what its certificate says about them
  have hfold : ∀ t : Finset p.Request, t.Nonempty →
      (t ≠ Finset.univ → p.requiredWeight ≤ (p.collect
        ((List.finRange p.candidates.length).filter (· ∈ t))).weightConfirmed) →
      (∀ i ∈ t, i ∉ p.other) ∧
      (∀ i ∈ t, i ∈ p.valid → ∀ j ∈ t, j ∈ p.valid →
        p.position i = p.position j → i = j) ∧
      p.requiredWeight ≤ p.weight (t ∩ p.valid) := by
    intro t hne hstop
    obtain ⟨acts, s, hrun, hexit, hans, hacc⟩ := exists_run_folding hne hstop
    have hok := halways acts s hrun hexit hans
    rw [hacc, Poll.finish_isOk ideal ((List.nodup_finRange _).filter _)] at hok
    have hset : ((List.finRange p.candidates.length).filter (· ∈ t)).toFinset = t := by
      ext i
      simp
    simpa [hset] using hok
  have hnonempty : ∀ t : Finset p.Request, p.requiredWeight ≤ p.weight t → t.Nonempty := by
    intro t ht
    rw [Finset.nonempty_iff_ne_empty]
    rintro rfl
    simp only [weight, Finset.sum_empty] at ht
    omega
  have hall := hfold Finset.univ
    ((hnonempty _ hquorum).mono (Finset.subset_univ _)) fun h => absurd rfl h
  refine ⟨?_, fun i hi j hj => hall.2.1 i (Finset.mem_univ i) hi j (Finset.mem_univ j) hj, ?_⟩
  · exact Finset.eq_empty_of_forall_notMem fun i => hall.1 i (Finset.mem_univ i)
  · intro t ht hreach
    have hlifted : p.requiredWeight ≤ p.weight (t ∪ p.invalid) := by
      rw [weight_union_invalid ht]
      omega
    have hinter : (t ∪ p.invalid) ∩ p.valid ⊆ t := by
      intro i hi
      obtain ⟨hi, hvalid⟩ := Finset.mem_inter.mp hi
      rcases Finset.mem_union.mp hi with hi | hinv
      · exact hi
      · exact absurd hvalid (notMem_valid_of_mem_invalid hinv)
    have hgood := (hfold (t ∪ p.invalid) (hnonempty _ hlifted) fun _ => ?_).2.2
    · exact hgood.trans (by exact_mod_cast weight_mono hinter)
    · rw [weightConfirmed_collect ((List.nodup_finRange _).filter _)]
      refine hlifted.trans (Int.ofNat_le.mpr (weight_mono fun i hi => ?_))
      have hsome : (p.confirmation i).isSome := by
        rcases Finset.mem_union.mp hi with hi | hi
        · exact isSome_of_any (mem_valid.mp (ht hi))
        · exact isSome_of_any (mem_invalid.mp hi)
      simp [Finset.mem_union.mp hi, hsome]

end Poll

/-! ## Tolerating bad nodes -/

namespace Query

variable (q : Query)

/-- The shard weight of the queried nodes that would answer with a valid
confirmation. No node is queried when the query cannot be dispatched. -/
def validWeight : Nat :=
  match q.poll with
  | .ok p => p.weight p.valid
  | .error _ => 0

/-- Bad nodes are tolerated: the stage raises `ConfirmationCollectionError` only
below quorum, returns a certificate otherwise, and does return. -/
structure ToleratesBadNodes : Prop where
  belowQuorum : ∀ message stage, Collects q
      (.error (.nativeUpload .confirmationCollectionError message stage none)) →
    q.validWeight < minWeightForQuorum q.committee.nShards
  certificate : minWeightForQuorum q.committee.nShards ≤ q.validWeight →
    ∀ result, Collects q result → ∃ cert, result = .ok cert
  returns : ∀ p acts s, q.poll = .ok p → p.Underway acts s →
    ∃ acts' s', Runs p.callbacks (List.finRange p.candidates.length) .empty
      (acts ++ acts') s' ∧ s'.phase = .exited .returned ∧ Collects q (p.finish s'.acc)

/-- A quorum of valid weight comes with bad nodes that cannot spoil it. -/
def BadNodesHarmless : Prop :=
  ∀ p, q.poll = .ok p → minWeightForQuorum q.committee.nShards ≤ q.validWeight →
    p.Tolerable

variable {q}

private theorem poll_eq {p : Poll} (h : q.poll = .ok p) :
    p.bls = q.bls ∧ p.requiredWeight = minWeightForQuorum q.committee.nShards ∧
      q.validWeight = p.weight p.valid := by
  refine ⟨?_, ?_, by simp only [validWeight, h]⟩
  all_goals
    obtain ⟨message, -, hrest⟩ := bind_eq_ok.mp h
    obtain ⟨candidates, -, hp⟩ := bind_eq_ok.mp hrest
    cases hp
    rfl

/-- Harmless bad nodes leave every schedule with a certificate. -/
private theorem BadNodesHarmless.certificate (h : q.BadNodesHarmless)
    (ideal : Ideal q.bls)
    (hquorum : minWeightForQuorum q.committee.nShards ≤ q.validWeight)
    {result : Except PyExn Certificate} (hc : Collects q result) :
    ∃ cert, result = .ok cert := by
  cases hc with
  | undispatched herr =>
    simp only [validWeight, herr, minWeightForQuorum] at hquorum
    omega
  | collected hp hrun hexit hans =>
    obtain ⟨hbls, hrequired, hvalid⟩ := poll_eq hp
    exact (h _ hp hquorum).finish_isOk (hbls ▸ ideal)
      (by rw [hrequired, ← hvalid]; exact hquorum) hrun hexit hans

end Query

/-- **Confirmation collection and bad nodes.** With an ideal signature scheme,
a valid quorum always ends in a certificate, and its absence alone in
`ConfirmationCollectionError`, exactly when the queried nodes that answer
badly are harmless: none signs another message, and no set of valid nodes is
below quorum that invalid signatures would lift over it. -/
theorem collectConfirmations_toleratesBadNodes (q : Query) (ideal : Ideal q.bls) :
    q.ToleratesBadNodes ↔ q.BadNodesHarmless := by
  constructor
  · intro h p hp hquorum
    obtain ⟨hbls, hrequired, hvalid⟩ := Query.poll_eq hp
    refine p.tolerable_of_always (hbls ▸ ideal)
      (by rw [hrequired, ← hvalid]; exact hquorum) ?_
    intro acts s hrun hexit hans
    exact h.certificate hquorum _ (.collected hp hrun hexit hans)
  · intro h
    refine ⟨fun message stage hc => ?_, fun hquorum result hc => ?_, ?_⟩
    · by_contra hquorum
      obtain ⟨cert, hcert⟩ := h.certificate ideal (by omega) hc
      cases hcert
    · exact h.certificate ideal hquorum hc
    · intro p acts s hp hunder
      obtain ⟨acts', s', hrun, hexit, hans⟩ := hunder.exists_return
      exact ⟨acts', s', hrun, hexit, .collected hp hrun hexit hans⟩

/-! ### One bad node among three -/

/-- A scheme in which `[1]` is the one good signature. -/
private def toyBls : Bls where
  confirmationBytes epoch blobId _ := epoch.toUInt8 :: blobId
  aggregate signatures := .ok (if signatures.all (· = [1]) then [1] else [0])
  aggregateVerify aggregate _ _ := .ok (aggregate = [1])
  verify _ signature _ := .ok (signature = [1])

private theorem toyBls_ideal : Ideal toyBls := by
  have hver : ∀ k s m, verifies toyBls k s m = decide (s = [1]) := fun _ _ _ => rfl
  refine ⟨fun signers message hne hall => ?_, fun signers message aggregate hagg hok => ?_⟩
  · refine ⟨[1], ?_, rfl⟩
    have : (signers.map Prod.snd).all (· = [1]) = true := by
      simpa [hver] using hall
    simp only [toyBls, this, if_true]
  · intro s hs
    rw [hver]
    simp only [toyBls, Except.ok.injEq, decide_eq_true_eq] at hagg hok
    rw [hok] at hagg
    split at hagg
    · rename_i hall
      exact List.all_eq_true.mp hall s.2 (List.mem_map_of_mem hs)
    · cases hagg

/-- Nodes `a`, `b` and `c` hold two, one and one of four shards. -/
private def threeNodes : WalrusCommittee where
  epoch := 7
  nShards := 4
  members := [⟨"a", [0, 1], "", [10]⟩, ⟨"b", [2], "", [11]⟩, ⟨"c", [3], "", [12]⟩]

private def signed (message signature : Bytes) : ExecuteOutcome SignedConfirmation :=
  .ok (.ok (some ⟨message, signature⟩))

/-- Nodes `a` and `b` confirm the blob; node `c` answers as given. -/
private def queryWith (answer : ExecuteOutcome SignedConfirmation) : Query where
  bls := toyBls
  committee := threeNodes
  blobId := [5]
  registration :=
    { objectId := "0x1", blobId := [5], endEpoch := 9, deletable := false, digest := "" }
  positions := none
  answers i := if i = 2 then answer else signed [7, 5] [1]

private def pollWith (answer : ExecuteOutcome SignedConfirmation) : Poll where
  bls := toyBls
  committee := threeNodes
  expectedMessage := [7, 5]
  candidates := threeNodes.members
  answers := (queryWith answer).answers

private theorem queryWith_poll (answer : ExecuteOutcome SignedConfirmation) :
    (queryWith answer).poll = .ok (pollWith answer) := rfl

/-- The request to the `i`-th of the three nodes. -/
private def request (answer : ExecuteOutcome SignedConfirmation) (i : Nat) (hi : i < 3) :
    (pollWith answer).Request := ⟨i, hi⟩

private def requestA (answer : ExecuteOutcome SignedConfirmation) : (pollWith answer).Request :=
  request answer 0 (by decide)

private def requestB (answer : ExecuteOutcome SignedConfirmation) : (pollWith answer).Request :=
  request answer 1 (by decide)

private def requestC (answer : ExecuteOutcome SignedConfirmation) : (pollWith answer).Request :=
  request answer 2 (by decide)

/-- `c` and `a` answer first, which is three shards; the window closes on `b`. -/
private def stragglerB (answer : ExecuteOutcome SignedConfirmation) :
    List (Action (pollWith answer).Request PyExn (ExecuteOutcome SignedConfirmation)) :=
  [.finish (requestC answer) (.returned answer),
    .finish (requestA answer) (.returned (signed [7, 5] [1])),
    .wake [requestC answer, requestA answer],
    .closeGrace [] [requestB answer], .finish (requestB answer) .cancelled, .drained]

private theorem not_tolerates_of_stragglerB {answer : ExecuteOutcome SignedConfirmation}
    {s : State (pollWith answer).Request PyExn (ExecuteOutcome SignedConfirmation) Collected}
    {message : String}
    (hquorum : minWeightForQuorum 4 ≤ (queryWith answer).validWeight)
    (hrun : Runs (pollWith answer).callbacks (List.finRange 3) .empty (stragglerB answer) s)
    (hexit : s.phase = .exited .returned)
    (hreports : s.reports = [.completed (requestC answer) (.returned answer),
      .completed (requestA answer) (.returned (signed [7, 5] [1])),
      .cancelled (requestB answer)])
    (hfinish : (pollWith answer).finish s.acc =
      .error (.nativeUpload .confirmationCollectionError message Poll.stage none)) :
    ¬ (queryWith answer).ToleratesBadNodes := by
  have hc := Collects.collected (queryWith_poll answer) hrun hexit fun i r hr => by
    rw [hreports] at hr
    simp only [List.mem_cons, Report.completed.injEq, reduceCtorEq, List.not_mem_nil,
      or_false] at hr
    rcases hr with ⟨rfl, rfl⟩ | ⟨rfl, rfl⟩ <;> rfl
  rw [hfinish] at hc
  exact fun h => absurd (h.belowQuorum _ _ hc) (not_lt.mpr hquorum)

/-- `c` signs another message, or signs the right one badly: the valid nodes
hold a quorum, and the stage raises `ConfirmationCollectionError`. -/
theorem collectConfirmations_oneBadNode :
    ¬ (queryWith (signed [7, 5] [0])).ToleratesBadNodes ∧
      ¬ (queryWith (signed [9] [1])).ToleratesBadNodes := by
  constructor
  · exact not_tolerates_of_stragglerB (by decide) rfl rfl rfl rfl
  · exact not_tolerates_of_stragglerB (by decide) rfl rfl rfl rfl

/-- A node that only fails is harmless: `a` and `b` make the certificate. -/
theorem collectConfirmations_toleratesBadNodes_oneFailing :
    (queryWith (.ok (.failed "503"))).ToleratesBadNodes := by
  refine (collectConfirmations_toleratesBadNodes _ toyBls_ideal).mpr fun p hp _ => ?_
  obtain rfl : pollWith (.ok (.failed "503")) = p :=
    Except.ok.inj ((queryWith_poll _).symm.trans hp)
  refine ⟨by decide, by decide, fun t _ hreach => ?_⟩
  have hnone : (pollWith (.ok (.failed "503"))).invalid = ∅ := by decide
  simpa [hnone, Poll.weight] using hreach

end Pytusk.Confirm
