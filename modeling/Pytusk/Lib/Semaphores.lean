import Pytusk.Lib.Lts
import Mathlib.Data.Finset.Card
import Mathlib.Data.Finset.Range
import Mathlib.Data.Nat.Find

/-!
# Jobs under two semaphores

Jobs queue for a permit of one shared semaphore and, holding it, for a permit
of the semaphore of their group; both serve in the order of the queue. A job
that has both permits runs, and gives them back when it ends. Some jobs never
end: `Passes` says which of the others end all the same.
-/

namespace Pytusk.Lib.Semaphores

/-- The jobs in the order of the queue. -/
structure Jobs (γ : Type*) where
  count : Nat
  group : Nat → γ
  /-- The job never ends. -/
  lasting : Nat → Bool
  /-- permits of the shared semaphore -/
  shared : Nat
  /-- permits of the semaphore of each group -/
  perGroup : Nat

structure State where
  /-- The first so many jobs have been given a permit of the shared semaphore. -/
  entered : Nat
  started : Finset Nat
  ended : Finset Nat
  deriving DecidableEq

def State.start : State := ⟨0, ∅, ∅⟩

inductive Action where
  | enter
  | begin (job : Nat)
  | finish (job : Nat)
  deriving DecidableEq, Repr

namespace Jobs

variable {γ : Type*} [DecidableEq γ] (jobs : Jobs γ)

/-- The jobs that hold the permits of a group. -/
def running (s : State) (g : γ) : Finset Nat :=
  s.started.filter fun q => jobs.group q = g ∧ q ∉ s.ended

def step (s : State) : Action → Option State
  | .enter =>
      if s.entered < jobs.count ∧ s.entered < s.ended.card + jobs.shared then
        some { s with entered := s.entered + 1 }
      else none
  | .begin q =>
      if q < s.entered ∧ q ∉ s.started ∧
          (∀ p < q, jobs.group p = jobs.group q → p ∈ s.started) ∧
          (jobs.running s (jobs.group q)).card < jobs.perGroup then
        some { s with started := insert q s.started }
      else none
  | .finish q =>
      if q ∈ s.started ∧ q ∉ s.ended ∧ jobs.lasting q = false then
        some { s with ended := insert q s.ended }
      else none

/-! ## Which jobs keep their permits -/

/-- The lasting jobs of the same group that come before. -/
def lastingBefore (q : Nat) : Finset Nat :=
  (Finset.range q).filter fun p => jobs.group p = jobs.group q ∧ jobs.lasting p = true

/-- The job keeps its shared permit for ever: it lasts, or lasting ones keep all
the permits of its group. -/
def Holds (q : Nat) : Prop :=
  jobs.lasting q = true ∨ jobs.perGroup ≤ (jobs.lastingBefore q).card

instance (q : Nat) : Decidable (jobs.Holds q) := inferInstanceAs (Decidable (_ ∨ _))

def holdsBefore (q : Nat) : Finset Nat := (Finset.range q).filter jobs.Holds

/-- The job is given both permits in the end, and gives them back. -/
def Passes (q : Nat) : Prop := ¬ jobs.Holds q ∧ (jobs.holdsBefore q).card < jobs.shared

instance (q : Nat) : Decidable (jobs.Passes q) := inferInstanceAs (Decidable (_ ∧ _))

variable {jobs}

theorem holdsBefore_mono {p q : Nat} (h : p ≤ q) : jobs.holdsBefore p ⊆ jobs.holdsBefore q :=
  Finset.filter_subset_filter _ (Finset.range_subset_range.mpr h)

/-- Of a group, only lasting jobs can keep their permits before one that does not. -/
theorem lasting_of_holds {p q : Nat} (hq : ¬ jobs.Holds q) (hp : jobs.Holds p) (hle : p ≤ q)
    (hgroup : jobs.group p = jobs.group q) : jobs.lasting p = true := by
  rcases hp with hlasting | hfull
  · exact hlasting
  · refine absurd (Or.inr (hfull.trans (Finset.card_le_card fun r hr => ?_))) hq
    obtain ⟨hr, hsame, hlasting⟩ := Finset.mem_filter.mp hr
    refine Finset.mem_filter.mpr ⟨?_, hsame.trans hgroup, hlasting⟩
    exact Finset.mem_range.mpr ((Finset.mem_range.mp hr).trans_le hle)

variable (jobs) in
theorem card_notHolds (n : Nat) :
    (jobs.holdsBefore n).card + ((Finset.range n).filter fun p => ¬ jobs.Holds p).card = n := by
  rw [holdsBefore, Finset.card_filter_add_card_filter_not, Finset.card_range]

/-! ## The invariant -/

variable (jobs) in
structure Inv (s : State) : Prop where
  entered_le : s.entered ≤ jobs.count
  started_lt : ∀ q ∈ s.started, q < s.entered
  ended_started : ∀ q ∈ s.ended, q ∈ s.started
  ended_lasting : ∀ q ∈ s.ended, jobs.lasting q = false
  inOrder : ∀ q ∈ s.started, ∀ p < q, jobs.group p = jobs.group q → p ∈ s.started
  few : ∀ q ∈ s.started, (jobs.lastingBefore q).card < jobs.perGroup
  room : ∀ q < s.entered, (jobs.holdsBefore q).card < jobs.shared

theorem inv_start : jobs.Inv .start := by
  constructor <;> simp [State.start]

variable {s v : State}

theorem Inv.not_holds (h : jobs.Inv s) {q : Nat} (hq : q ∈ s.ended) : ¬ jobs.Holds q := by
  rintro (hlasting | hfull)
  · rw [h.ended_lasting q hq] at hlasting
    cases hlasting
  · exact absurd (h.few q (h.ended_started q hq)) (not_lt.mpr hfull)

/-- **Only what passes has ended.** -/
theorem Inv.passes (h : jobs.Inv s) {q : Nat} (hq : q ∈ s.ended) : jobs.Passes q :=
  ⟨h.not_holds hq, h.room q (h.started_lt q (h.ended_started q hq))⟩

private theorem Inv.enter (h : jobs.Inv s)
    (hguard : s.entered < jobs.count ∧ s.entered < s.ended.card + jobs.shared) :
    jobs.Inv { s with entered := s.entered + 1 } where
  entered_le := hguard.1
  started_lt q hq := (h.started_lt q hq).trans (Nat.lt_succ_self _)
  ended_started := h.ended_started
  ended_lasting := h.ended_lasting
  inOrder := h.inOrder
  few := h.few
  room q hq := by
    rcases Nat.lt_succ_iff_lt_or_eq.mp hq with hlt | rfl
    · exact h.room q hlt
    · -- those that ended are not among the jobs that keep their permits
      have hended : s.ended.card ≤
          ((Finset.range s.entered).filter fun p => ¬ jobs.Holds p).card := by
        refine Finset.card_le_card fun p hp => Finset.mem_filter.mpr ⟨?_, h.not_holds hp⟩
        exact Finset.mem_range.mpr (h.started_lt p (h.ended_started p hp))
      have hsplit := card_notHolds jobs s.entered
      omega

private theorem Inv.begin (h : jobs.Inv s) {q : Nat}
    (hguard : q < s.entered ∧ q ∉ s.started ∧
      (∀ p < q, jobs.group p = jobs.group q → p ∈ s.started) ∧
      (jobs.running s (jobs.group q)).card < jobs.perGroup) :
    jobs.Inv { s with started := insert q s.started } := by
  obtain ⟨hentered, -, hinOrder, hfew⟩ := hguard
  refine ⟨h.entered_le, ?_, fun p hp => Finset.mem_insert_of_mem (h.ended_started p hp),
    h.ended_lasting, ?_, ?_, h.room⟩
  · intro p hp
    rcases Finset.mem_insert.mp hp with rfl | hp
    · exact hentered
    · exact h.started_lt p hp
  · intro p hp r hr hgroup
    rcases Finset.mem_insert.mp hp with rfl | hp
    · exact Finset.mem_insert_of_mem (hinOrder r hr hgroup)
    · exact Finset.mem_insert_of_mem (h.inOrder p hp r hr hgroup)
  · intro p hp
    rcases Finset.mem_insert.mp hp with rfl | hp
    · -- the lasting jobs before it have started and are running
      refine (Finset.card_le_card fun r hr => ?_).trans_lt hfew
      obtain ⟨hr, hgroup, hlasting⟩ := Finset.mem_filter.mp hr
      refine Finset.mem_filter.mpr ⟨hinOrder r (Finset.mem_range.mp hr) hgroup, hgroup, ?_⟩
      intro hended
      rw [h.ended_lasting r hended] at hlasting
      cases hlasting
    · exact h.few p hp

private theorem Inv.finish (h : jobs.Inv s) {q : Nat}
    (hguard : q ∈ s.started ∧ q ∉ s.ended ∧ jobs.lasting q = false) :
    jobs.Inv { s with ended := insert q s.ended } := by
  refine ⟨h.entered_le, h.started_lt, ?_, ?_, h.inOrder, h.few, h.room⟩
  · intro p hp
    rcases Finset.mem_insert.mp hp with rfl | hp
    · exact hguard.1
    · exact h.ended_started p hp
  · intro p hp
    rcases Finset.mem_insert.mp hp with rfl | hp
    · exact hguard.2.2
    · exact h.ended_lasting p hp

theorem Inv.step {a : Action} (h : jobs.Inv s) (hstep : jobs.step s a = some v) :
    jobs.Inv v := by
  cases a with
  | enter =>
    obtain ⟨hguard, heq⟩ := Option.ite_none_right_eq_some.mp hstep
    cases heq
    exact h.enter hguard
  | begin q =>
    obtain ⟨hguard, heq⟩ := Option.ite_none_right_eq_some.mp hstep
    cases heq
    exact h.begin hguard
  | finish q =>
    obtain ⟨hguard, heq⟩ := Option.ite_none_right_eq_some.mp hstep
    cases heq
    exact h.finish hguard

/-- What has ended stays so. -/
theorem ended_subset {a : Action} (hstep : jobs.step s a = some v) : s.ended ⊆ v.ended := by
  cases a with
  | enter =>
    obtain ⟨-, heq⟩ := Option.ite_none_right_eq_some.mp hstep
    cases heq
    exact Finset.Subset.refl _
  | begin q =>
    obtain ⟨-, heq⟩ := Option.ite_none_right_eq_some.mp hstep
    cases heq
    exact Finset.Subset.refl _
  | finish q =>
    obtain ⟨-, heq⟩ := Option.ite_none_right_eq_some.mp hstep
    cases heq
    exact Finset.subset_insert q s.ended

/-! ## What passes can end -/

variable (jobs) in
/-- What is left to do. -/
def left (s : State) : Nat :=
  (jobs.count - s.entered) + (jobs.count - s.started.card) + (jobs.count - s.ended.card)

omit [DecidableEq γ] in
private theorem card_lt_count {xs : Finset Nat} (hsub : ∀ p ∈ xs, p < jobs.count) {q : Nat}
    (hq : q < jobs.count) (hnot : q ∉ xs) : xs.card < jobs.count := by
  have hproper : xs ⊂ Finset.range jobs.count := by
    refine Finset.ssubset_iff_of_subset (fun p hp => Finset.mem_range.mpr (hsub p hp)) |>.mpr ?_
    exact ⟨q, Finset.mem_range.mpr hq, hnot⟩
  have hlt := Finset.card_lt_card hproper
  rwa [Finset.card_range] at hlt

/-- The first of its kind. -/
private theorem exists_first {P : Nat → Prop} {q : Nat} (hq : P q) :
    ∃ p ≤ q, P p ∧ ∀ r < p, ¬ P r := by
  classical
  have hsome : ∃ p, P p := ⟨q, hq⟩
  exact ⟨Nat.find hsome, Nat.find_min' hsome hq, Nat.find_spec hsome,
    fun r hr => Nat.find_min hsome hr⟩

private theorem Inv.started_lt_count (h : jobs.Inv s) : ∀ p ∈ s.started, p < jobs.count :=
  fun p hp => (h.started_lt p hp).trans_le h.entered_le

private theorem Inv.exists_finish (h : jobs.Inv s) {q : Nat} (hnot : ¬ jobs.Holds q)
    (hopen : q ∉ s.ended) (hstarted : q ∈ s.started) :
    ∃ a v, jobs.step s a = some v ∧ jobs.left v < jobs.left s := by
  have hlasting : jobs.lasting q = false := by
    by_contra hlasting
    exact hnot (.inl (by simpa using hlasting))
  refine ⟨.finish q, _, if_pos ⟨hstarted, hopen, hlasting⟩, ?_⟩
  have hlt := card_lt_count (fun p hp => h.started_lt_count p (h.ended_started p hp))
    (h.started_lt_count q hstarted) hopen
  simp only [left, Finset.card_insert_of_notMem hopen]
  omega

/-- Of the group of a job that does not keep its permits, the first that has not
started can start. -/
private theorem Inv.exists_begin (h : jobs.Inv s) {q : Nat} (hnot : ¬ jobs.Holds q)
    (hfirst : ∀ p < q, ¬ jobs.Holds p → p ∈ s.ended) (hentered : q < s.entered)
    (hwaits : q ∉ s.started) :
    ∃ a v, jobs.step s a = some v ∧ jobs.left v < jobs.left s := by
  obtain ⟨p, hle, ⟨hgroup, hnew⟩, hbefore⟩ :=
    exists_first (P := fun p => jobs.group p = jobs.group q ∧ p ∉ s.started) ⟨rfl, hwaits⟩
  have hinOrder : ∀ r < p, jobs.group r = jobs.group p → r ∈ s.started := fun r hr hsame => by
    by_contra hr'
    exact hbefore r hr ⟨hsame.trans hgroup, hr'⟩
  have hroom : (jobs.running s (jobs.group p)).card < jobs.perGroup := by
    -- what runs in the group was started before, and lasts
    refine (Finset.card_le_card fun r hr => ?_).trans_lt (not_le.mp fun hfull => hnot (.inr hfull))
    obtain ⟨hstarted, hsame, hopen⟩ := Finset.mem_filter.mp hr
    have hlt : r < p := by
      by_contra hge
      rcases (not_lt.mp hge).eq_or_lt with rfl | hgt
      · exact hnew hstarted
      · exact hnew (h.inOrder r hstarted p hgt hsame.symm)
    have hlt' : r < q := hlt.trans_le hle
    have hholds : jobs.Holds r := by
      by_contra hr'
      exact hopen (hfirst r hlt' hr')
    exact Finset.mem_filter.mpr ⟨Finset.mem_range.mpr hlt', hsame.trans hgroup,
      lasting_of_holds hnot hholds hlt'.le (hsame.trans hgroup)⟩
  have hentered' : p < s.entered := hle.trans_lt hentered
  refine ⟨.begin p, _, if_pos ⟨hentered', hnew, hinOrder, hroom⟩, ?_⟩
  have hlt := card_lt_count h.started_lt_count (hentered'.trans_le h.entered_le) hnew
  simp only [left, Finset.card_insert_of_notMem hnew]
  omega

private theorem exists_enter {q : Nat} (hq : q < jobs.count)
    (hpasses : jobs.Passes q) (hfirst : ∀ p < q, ¬ jobs.Holds p → p ∈ s.ended)
    (hwaits : s.entered ≤ q) :
    ∃ a v, jobs.step s a = some v ∧ jobs.left v < jobs.left s := by
  have hended : ((Finset.range s.entered).filter fun p => ¬ jobs.Holds p).card ≤ s.ended.card := by
    refine Finset.card_le_card fun p hp => ?_
    obtain ⟨hp, hnot⟩ := Finset.mem_filter.mp hp
    exact hfirst p ((Finset.mem_range.mp hp).trans_le hwaits) hnot
  have hsplit := card_notHolds jobs s.entered
  have hfew := (Finset.card_le_card (holdsBefore_mono hwaits)).trans_lt hpasses.2
  have hlt : s.entered < jobs.count := hwaits.trans_lt hq
  refine ⟨.enter, _, if_pos ⟨hlt, by omega⟩, ?_⟩
  simp only [left]
  omega

/-- Something can be done for the first job that passes and has not ended. -/
private theorem Inv.exists_step (h : jobs.Inv s) {q : Nat} (hq : q < jobs.count)
    (hpasses : jobs.Passes q) (hopen : q ∉ s.ended)
    (hfirst : ∀ p < q, ¬ jobs.Holds p → p ∈ s.ended) :
    ∃ a v, jobs.step s a = some v ∧ jobs.left v < jobs.left s := by
  by_cases hstarted : q ∈ s.started
  · exact h.exists_finish hpasses.1 hopen hstarted
  · by_cases hentered : q < s.entered
    · exact h.exists_begin hpasses.1 hfirst hentered hstarted
    · exact exists_enter hq hpasses hfirst (not_lt.mp hentered)

/-- **Whatever has happened, all that passes can end.** -/
theorem Inv.exists_run (h : jobs.Inv s) :
    ∃ acts v, Lts.run jobs.step s acts = some v ∧
      ∀ q < jobs.count, jobs.Passes q → q ∈ v.ended := by
  induction hn : jobs.left s using Nat.strong_induction_on generalizing s with
  | _ n ih =>
    by_cases hall : ∀ q < jobs.count, jobs.Passes q → q ∈ s.ended
    · exact ⟨[], s, rfl, hall⟩
    · push Not at hall
      obtain ⟨q, hq, hpasses, hopen⟩ := hall
      obtain ⟨p, hle, ⟨hnot, hopen'⟩, hbefore⟩ :=
        exists_first (P := fun p => ¬ jobs.Holds p ∧ p ∉ s.ended) ⟨hpasses.1, hopen⟩
      have hfirst : ∀ r < p, ¬ jobs.Holds r → r ∈ s.ended := fun r hr hr' => by
        by_contra hr''
        exact hbefore r hr ⟨hr', hr''⟩
      have hpasses' : jobs.Passes p :=
        ⟨hnot, (Finset.card_le_card (holdsBefore_mono hle)).trans_lt hpasses.2⟩
      obtain ⟨a, v, hstep, hleft⟩ := h.exists_step (hle.trans_lt hq) hpasses' hopen' hfirst
      obtain ⟨acts, v', hrun, hall⟩ := ih _ (hn ▸ hleft) (h.step hstep) rfl
      exact ⟨a :: acts, v', Option.bind_eq_some_iff.mpr ⟨v, hstep, hrun⟩, hall⟩

end Jobs

end Pytusk.Lib.Semaphores
