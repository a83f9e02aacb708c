import Pytusk.CommitteeFanout.Schedules
import Pytusk.NativeRead.Fetch
import Mathlib.Data.Finset.Union

/-!
# What a sliver fan-out collects

A call is determined by the order in which the answers were folded: it has
collected the distinct slivers of those nodes, each attributed to the first
that served it, and it either folded everyone it asked or met the threshold.
-/

namespace Pytusk.NativeRead.Fetch

open Pytusk.Lib Pytusk.CommitteeFanout

variable {f : Fetch} {answers : f.Answers}

/-! ## The accumulators, from the order -/

variable (f answers) in
/-- What the nodes served, in order, with who served it. -/
def served (order : List f.Node) : List Attributed :=
  order.flatMap fun i => (f.slivers answers i).map fun sliver => (sliver, (f.member i).nodeId)

variable (f answers) in
/-- The accumulators once the answers of `order` have been folded. -/
def collect (order : List f.Node) : Collected where
  collected := FirstWins.addAll [] (f.served answers order)
  nodesAnswered := (order.filter fun i => f.slivers answers i ≠ []).length

variable (f answers) in
/-- The distinct slivers some nodes serve. -/
def contents (nodes : List f.Node) : Finset Bytes :=
  (nodes.flatMap (f.slivers answers)).toFinset

theorem mem_contents {nodes : List f.Node} {sliver : Bytes} :
    sliver ∈ f.contents answers nodes ↔ ∃ i ∈ nodes, sliver ∈ f.slivers answers i := by
  simp [contents]

theorem contents_mono {nodes nodes' : List f.Node} (h : ∀ i ∈ nodes, i ∈ nodes') :
    f.contents answers nodes ⊆ f.contents answers nodes' := by
  intro sliver hsliver
  obtain ⟨i, hi, hmem⟩ := mem_contents.mp hsliver
  exact mem_contents.mpr ⟨i, h i hi, hmem⟩

private theorem keys_served (order : List f.Node) :
    FirstWins.keys (f.served answers order) = order.flatMap (f.slivers answers) := by
  unfold FirstWins.keys served
  rw [List.map_flatMap]
  simp [Function.comp_def]

/-- No sliver is collected twice. -/
theorem nodup_collected (order : List f.Node) :
    (FirstWins.keys (f.collect answers order).collected).Nodup := by
  have hnil : (FirstWins.keys ([] : List Attributed)).Nodup := List.nodup_nil
  exact FirstWins.nodup_addAll hnil _

theorem mem_keys_collected {order : List f.Node} {sliver : Bytes} :
    sliver ∈ FirstWins.keys (f.collect answers order).collected ↔
      ∃ i ∈ order, sliver ∈ f.slivers answers i := by
  unfold collect
  dsimp only
  rw [FirstWins.mem_keys_addAll, keys_served]
  simp [FirstWins.keys]

theorem keys_collected_toFinset (order : List f.Node) :
    (FirstWins.keys (f.collect answers order).collected).toFinset = f.contents answers order := by
  ext sliver
  rw [List.mem_toFinset, mem_keys_collected, mem_contents]

/-- The running count is that of the distinct slivers. -/
theorem length_collected (order : List f.Node) :
    (f.collect answers order).collected.length = (f.contents answers order).card := by
  rw [FirstWins.length_eq_card (nodup_collected order), keys_collected_toFinset]

variable (f answers) in
/-- What one node served. -/
private def own (i : f.Node) : List Attributed :=
  (f.slivers answers i).map fun sliver => (sliver, (f.member i).nodeId)

private theorem find?_own_of_mem {sliver : Bytes} {i : f.Node}
    (hi : sliver ∈ f.slivers answers i) :
    (f.own answers i).find? (·.1 = sliver) = some (sliver, (f.member i).nodeId) := by
  cases hfind : (f.own answers i).find? (·.1 = sliver) with
  | none =>
    have hnone := List.find?_eq_none.mp hfind (sliver, (f.member i).nodeId)
      (List.mem_map.mpr ⟨sliver, hi, rfl⟩)
    simp at hnone
  | some item =>
    have hkey : item.1 = sliver := by simpa using List.find?_some hfind
    obtain ⟨s, -, rfl⟩ := List.mem_map.mp (List.mem_of_find?_eq_some hfind)
    obtain rfl : s = sliver := hkey
    rfl

private theorem find?_own_of_notMem {sliver : Bytes} {i : f.Node}
    (hi : sliver ∉ f.slivers answers i) : (f.own answers i).find? (·.1 = sliver) = none := by
  apply List.find?_eq_none.mpr
  intro item hitem
  obtain ⟨s, hs, rfl⟩ := List.mem_map.mp hitem
  have hne : s ≠ sliver := by
    rintro rfl
    exact hi hs
  simpa using hne

private theorem find?_served {sliver : Bytes} {nodeId : String} (order : List f.Node) :
    (f.served answers order).find? (·.1 = sliver) = some (sliver, nodeId) ↔
      ∃ before i after, order = before ++ i :: after ∧ sliver ∈ f.slivers answers i ∧
        (∀ j ∈ before, sliver ∉ f.slivers answers j) ∧ (f.member i).nodeId = nodeId := by
  induction order with
  | nil => simp [served]
  | cons i rest ih =>
    have hcons : f.served answers (i :: rest) = f.own answers i ++ f.served answers rest := rfl
    rw [hcons, List.find?_append]
    by_cases hi : sliver ∈ f.slivers answers i
    · rw [find?_own_of_mem hi, Option.some_or]
      constructor
      · intro h
        cases h
        exact ⟨[], i, rest, rfl, hi, by simp, rfl⟩
      · rintro ⟨before, j, after, horder, hj, hbefore, rfl⟩
        cases before with
        | nil =>
          obtain ⟨rfl, -⟩ := List.cons.inj horder
          rfl
        | cons b before =>
          obtain ⟨rfl, -⟩ := List.cons.inj horder
          exact absurd hi (hbefore i (by simp))
    · rw [find?_own_of_notMem hi, Option.none_or, ih]
      constructor
      · rintro ⟨before, j, after, rfl, hj, hbefore, hid⟩
        exact ⟨i :: before, j, after, rfl, hj, List.forall_mem_cons.mpr ⟨hi, hbefore⟩, hid⟩
      · rintro ⟨before, j, after, horder, hj, hbefore, hid⟩
        cases before with
        | nil =>
          obtain ⟨rfl, -⟩ := List.cons.inj horder
          exact absurd hj hi
        | cons b before =>
          obtain ⟨-, rfl⟩ := List.cons.inj horder
          exact ⟨before, j, after, rfl, hj, (List.forall_mem_cons.mp hbefore).2, hid⟩

/-- A sliver is attributed to the first node that served it. -/
theorem mem_collected {order : List f.Node} {sliver : Bytes} {nodeId : String} :
    (sliver, nodeId) ∈ (f.collect answers order).collected ↔
      ∃ before i after, order = before ++ i :: after ∧ sliver ∈ f.slivers answers i ∧
        (∀ j ∈ before, sliver ∉ f.slivers answers j) ∧ (f.member i).nodeId = nodeId := by
  rw [← find?_served]
  unfold collect
  dsimp only
  rw [FirstWins.mem_addAll]
  simp [FirstWins.keys]

/-! ## The fan-out folds in some order -/

private theorem fold_collect (order : List f.Node) (i : f.Node) :
    fold (f.member i) (f.collect answers order) (.returned (f.slivers answers i)) =
      f.collect answers (order ++ [i]) := by
  have hserved : f.served answers (order ++ [i]) = f.served answers order ++
      (f.slivers answers i).map fun sliver => (sliver, (f.member i).nodeId) := by
    simp [served]
  unfold fold collect
  dsimp only
  rw [hserved, FirstWins.addAll_append, List.filter_append]
  by_cases hnil : f.slivers answers i = []
  · simp [hnil]
  · simp [hnil]

private theorem replay_eq_collect (reports : List (Report f.Node PyExn (List Bytes)))
    (hans : ∀ i r, Report.completed i r ∈ reports → r = .returned (f.slivers answers i)) :
    replay f.callbacks .empty reports = f.collect answers (folded reports) := by
  induction reports using List.reverseRecOn with
  | nil => rfl
  | append_singleton front last ih =>
    rw [replay_append, ih fun i r h => hans i r (List.mem_append_left _ h)]
    cases last with
    | cancelled i => simp [replay, applyReport, callbacks, folded]
    | completed i r =>
      obtain rfl := hans i r (by simp)
      have hfolded : folded (front ++ [.completed i (.returned (f.slivers answers i))]) =
          folded front ++ [i] := by
        simp [folded]
      rw [hfolded, ← fold_collect]
      rfl

/-- The order of a fan-out: no node twice, only nodes that were asked, and all
of them unless the threshold was met. -/
structure Complete (f : Fetch) (answers : f.Answers) (order : List f.Node) : Prop where
  nodup : order.Nodup
  asked : ∀ i ∈ order, i ∈ f.tasks
  enough : (∀ i ∈ f.tasks, i ∈ order) ∨ f.threshold ≤ (f.contents answers order).card

theorem nodup_tasks (f : Fetch) : f.tasks.Nodup := (List.nodup_finRange _).filter _

/-- **What a call has collected** is what the nodes in `order` served. -/
theorem Ends.complete {order : List f.Node} {result : Except ReadExn (List Attributed)}
    (h : f.Ends answers order result) :
    f.Complete answers order ∧ result = f.finish (f.collect answers order) := by
  cases h with
  | @collected acts s hrun hexit hans =>
    have hacc : s.acc = f.collect answers (folded s.reports) :=
      hrun.inv.acc.trans (replay_eq_collect s.reports hans)
    refine ⟨⟨?_, ?_, ?_⟩, by rw [hacc]⟩
    · exact (hrun.reported_nodup f.nodup_tasks).sublist (folded_sublist _)
    · intro i hi
      exact (hrun.reported_perm hexit).subset ((folded_sublist _).subset hi)
    · by_contra hnot
      obtain ⟨hsome, hless⟩ := not_or.mp hnot
      obtain ⟨i, hi, hunfolded⟩ : ∃ i ∈ f.tasks, i ∉ folded s.reports := by
        simpa using hsome
      obtain ⟨rep, hrep, htask⟩ := List.mem_map.mp
        ((hrun.reported_perm hexit).mem_iff.mpr hi)
      cases rep with
      | completed j r =>
        obtain rfl : j = i := htask
        exact hunfolded (mem_folded.mpr ⟨r, hrep⟩)
      | cancelled j =>
        -- a straggler: the threshold was met by the reports made until then
        obtain ⟨front, ⟨back, hfront⟩, hstop⟩ := hrun.stopped_of_cancelled hrep
        have hans' : ∀ i r, Report.completed i r ∈ front →
            r = .returned (f.slivers answers i) := fun i r hr =>
          hans i r (hfront ▸ List.mem_append_left _ hr)
        have hthreshold : f.threshold ≤ (f.collect answers (folded front)).collected.length := by
          rw [replay_eq_collect front hans'] at hstop
          exact of_decide_eq_true hstop
        rw [length_collected] at hthreshold
        refine hless (hthreshold.trans (Finset.card_le_card (contents_mono fun j hj => ?_)))
        obtain ⟨r, hr⟩ := mem_folded.mp hj
        exact mem_folded.mpr ⟨r, hfront ▸ List.mem_append_left _ hr⟩

/-- What a call returns. -/
theorem Ends.ok {order : List f.Node} {attributed : List Attributed}
    (h : f.Ends answers order (.ok attributed)) :
    attributed = (f.collect answers order).collected ∧
      f.threshold ≤ (f.contents answers order).card := by
  obtain ⟨-, hresult⟩ := h.complete
  unfold finish at hresult
  split at hresult
  · cases hresult
  · rename_i henough
    rw [length_collected] at henough
    exact ⟨Except.ok.inj hresult, by omega⟩

/-- A call raises `SliverFetchError`, and only when everyone it asked together
serves too little. -/
theorem Ends.error {order : List f.Node} {e : ReadExn} (h : f.Ends answers order (.error e)) :
    (∃ message, e = .sliverFetchError message "fetch_slivers") ∧
      (f.contents answers f.tasks).card < f.threshold := by
  obtain ⟨hcomplete, hresult⟩ := h.complete
  unfold finish at hresult
  split at hresult
  · rename_i hless
    rw [length_collected] at hless
    refine ⟨⟨_, Except.error.inj hresult⟩, ?_⟩
    rcases hcomplete.enough with hall | henough
    · exact (Finset.card_le_card (contents_mono hall)).trans_lt hless
    · omega
  · cases hresult

/-- The other way: with enough to be served, a call returns. -/
theorem Ends.isOk {order : List f.Node} {result : Except ReadExn (List Attributed)}
    (h : f.Ends answers order result)
    (henough : f.threshold ≤ (f.contents answers f.tasks).card) :
    ∃ attributed, result = .ok attributed := by
  cases result with
  | ok attributed => exact ⟨attributed, rfl⟩
  | error e =>
    have := h.error.2
    omega

/-- Every order is possible that folds everyone or meets the threshold. -/
theorem exists_ends {order : List f.Node} (hnodup : order.Nodup) (hne : order ≠ [])
    (hasked : ∀ i ∈ order, i ∈ f.tasks)
    (henough : (∀ i ∈ f.tasks, i ∈ order) ∨ f.threshold ≤ (f.contents answers order).card) :
    f.Ends answers order (f.finish (f.collect answers order)) := by
  obtain ⟨reports, hreports⟩ : ∃ reports : List (Report f.Node PyExn (List Bytes)), reports =
      order.map fun i => .completed i (.returned (f.slivers answers i)) := ⟨_, rfl⟩
  have hans : ∀ i r, Report.completed i r ∈ reports → r = .returned (f.slivers answers i) := by
    intro i r hr
    rw [hreports] at hr
    obtain ⟨j, -, heq⟩ := List.mem_map.mp hr
    cases heq
    rfl
  have hfolded : folded reports = order := by
    rw [hreports]
    simp [folded, List.filterMap_map]
  have hstop : others f.tasks order ≠ [] →
      f.callbacks.shouldStop (replay f.callbacks .empty reports) = true := by
    intro hothers
    rw [replay_eq_collect reports hans, hfolded]
    refine decide_eq_true ?_
    rw [length_collected]
    rcases henough with hall | henough
    · exact absurd (List.filter_eq_nil_iff.mpr fun i hi => by simpa using hall i hi) hothers
    · exact henough
  obtain ⟨acts, s, hrun, hexit, hs⟩ := exists_run f.callbacks .empty
    (fun i => .returned (f.slivers answers i)) hnodup f.nodup_tasks hasked hne
    (hreports ▸ hstop)
  have hans' : ∀ i r, Report.completed i r ∈ s.reports →
      r = .returned (f.slivers answers i) := by
    intro i r hr
    rw [hs, ← hreports] at hr
    rcases List.mem_append.mp hr with h | h
    · exact hans i r h
    · simp at h
  have hfolded' : folded s.reports = order := by
    rw [hs, ← hreports]
    have happend : ∀ xs ys : List (Report f.Node PyExn (List Bytes)),
        folded (xs ++ ys) = folded xs ++ folded ys := fun xs ys => List.filterMap_append
    rw [happend, hfolded]
    simp [folded, List.filterMap_map]
  have hends := Ends.collected hrun hexit hans'
  have hacc : s.acc = f.collect answers order := by
    rw [hrun.inv.acc, replay_eq_collect s.reports hans', hfolded']
  rw [hfolded', hacc] at hends
  exact hends

/-- Whoever serves something is asked, unless it is excluded. -/
theorem mem_tasks_of_serves {i : f.Node} {sliver : Bytes} (h : sliver ∈ f.slivers answers i)
    (hallowed : (f.member i).nodeId ∉ f.excludeNodeIds) : i ∈ f.tasks := by
  unfold tasks
  simp only [List.mem_filter, List.mem_finRange, true_and, decide_eq_true_eq]
  refine ⟨?_, hallowed⟩
  intro hnone
  simp [slivers, fetchNodeSlivers, hnone] at h

/-- The runs of the driver so far: nobody cancelled it, and a node's task that has
ended brought its answer or was cancelled as a straggler. -/
structure Underway (f : Fetch) (answers : f.Answers) (acts : List f.DriverAction)
    (s : f.Driver) : Prop where
  run : Runs f.callbacks f.tasks .empty acts s
  undisturbed : .cancelDriver ∉ acts
  answered : ∀ i r, s.result i = some r →
    r = .returned (f.slivers answers i) ∨ .cancelled i ∈ s.reports

theorem underway_start (f : Fetch) (answers : f.Answers) :
    f.Underway answers [] (start f.tasks .empty) where
  run := rfl
  undisturbed := List.not_mem_nil
  answered i r hr := by
    rw [start_result] at hr
    cases hr

/-- A call that has returned, from where it was underway. -/
theorem Underway.ends {acts : List f.DriverAction} {s : f.Driver} (h : f.Underway answers acts s)
    (hexit : s.phase = .exited .returned) :
    f.Ends answers (folded s.reports) (f.finish s.acc) := by
  refine .collected h.run hexit fun i r hr => ?_
  rcases h.answered i r (h.run.inv.result i r hr) with hreturned | hcancelled
  · exact hreturned
  · exact nomatch h.run.report_unique f.nodup_tasks hr hcancelled rfl

/-- The driver stops early only after the threshold was met. -/
theorem enough_of_folded {reports : List (Report f.Node PyExn (List Bytes))} {ready : f.Node → Bool}
    (hans : ∀ i r, .completed i r ∈ reports → r = .returned (f.slivers answers i))
    (henough : f.threshold ≤ (f.contents answers (f.tasks.filter ready)).card)
    (hfolded : ∀ i ∈ f.tasks, ready i → ∃ r, .completed i r ∈ reports) :
    f.callbacks.shouldStop (replay f.callbacks .empty reports) = true := by
  rw [replay_eq_collect reports hans]
  refine decide_eq_true ?_
  rw [length_collected]
  refine henough.trans (Finset.card_le_card (contents_mono fun i hi => ?_))
  obtain ⟨htask, hready⟩ := List.mem_filter.mp hi
  exact mem_folded.mpr (hfolded i htask hready)

end Pytusk.NativeRead.Fetch
