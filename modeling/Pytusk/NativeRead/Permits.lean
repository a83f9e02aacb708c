import Pytusk.CommitteeFanout.Reluctant
import Pytusk.Lib.Semaphores
import Pytusk.NativeRead.FetchRuns
import Mathlib.Algebra.BigOperators.Fin
import Mathlib.Algebra.Order.BigOperators.Group.Finset

/-!
# The permits of a sliver fan-out

`_one` holds a permit of the semaphore that all nodes share, and one of its
node's own, from before its request until the answer. A node that does not answer
keeps its permits, and a node that holds many shards can keep so many that
others are never asked.
-/

namespace Pytusk.NativeRead

open Pytusk.Lib Pytusk.CommitteeFanout

/-- `max_node_connections` and `max_concurrent_requests` -/
structure Limits where
  maxNodeConnections : Nat
  maxConcurrentRequests : Nat
  deriving DecidableEq, Repr

/-- The default of `max_concurrent_requests`. -/
def defaultMaxConcurrentRequests : Nat := 512

/-- The limits of the fan-outs of a read. -/
def readLimits (maxNodeConnections : Nat) : Limits where
  maxNodeConnections := maxNodeConnections
  maxConcurrentRequests := defaultMaxConcurrentRequests

namespace Fetch

variable (f : Fetch)

/-- The places of a node's shards; one whose request cannot be composed asks for
no permit. -/
def places (i : f.Node) : List Nat :=
  ((f.member i).shardIndices.zipIdx.filter fun shard =>
    (f.request (f.member i) shard.1).isOk).map Prod.snd

/-- The requests of a node. -/
def nodeRequests (i : f.Node) : List (f.Node × Nat) := (f.places i).map (i, ·)

/-- All requests, in the order in which they ask for permits. -/
def queue : List (f.Node × Nat) := f.tasks.flatMap f.nodeRequests

/-- The requests to which no answer ever comes. -/
abbrev Silence := f.Node → Nat → Bool

def jobs (limits : Limits) (silent : f.Silence) : Semaphores.Jobs (Option f.Node) where
  count := f.queue.length
  group q := (f.queue[q]?).map Prod.fst
  lasting q := (f.queue[q]?).any fun request => silent request.1 request.2
  shared := limits.maxConcurrentRequests
  perGroup := limits.maxNodeConnections

/-! ## The fan-out with its permits -/

/-- The permits, beside the driver. A straggler that is cancelled gives its
permits back, when nobody waits for the answers any more; they are left as they
were. -/
structure Permitted where
  permits : Semaphores.State
  driver : f.Driver

def Permitted.start : f.Permitted := ⟨.start, CommitteeFanout.start f.tasks .empty⟩

inductive PermittedAction where
  | permit (action : Semaphores.Action)
  | driver (action : f.DriverAction)

/-- Every request to the node was answered. -/
def Answered (permits : Semaphores.State) (i : f.Node) : Prop :=
  ∀ q < f.queue.length, (f.queue[q]?).map Prod.fst = some i → q ∈ permits.ended

instance (permits : Semaphores.State) (i : f.Node) : Decidable (f.Answered permits i) :=
  inferInstanceAs (Decidable (∀ q < f.queue.length, _ → _))

/-- A node's task returns when its requests were answered, and ends otherwise only
as a straggler that was cancelled. Nobody cancels the driver. -/
def Allows (answers : f.Answers) (s : f.Permitted) : f.DriverAction → Prop
  | .finish i r =>
      r = .returned (f.slivers answers i) ∧ f.Answered s.permits i ∨
        r = .cancelled ∧ .cancelled i ∈ s.driver.reports
  | .cancelDriver => False
  | _ => True

instance (answers : f.Answers) (s : f.Permitted) (a : f.DriverAction) :
    Decidable (f.Allows answers s a) := by
  cases a <;> unfold Allows <;> infer_instance

def permittedStep (limits : Limits) (silent : f.Silence) (answers : f.Answers)
    (s : f.Permitted) : f.PermittedAction → Option f.Permitted
  | .permit a =>
      ((f.jobs limits silent).step s.permits a).map fun permits => { s with permits := permits }
  | .driver a =>
      if f.Allows answers s a then
        (step f.callbacks f.tasks s.driver a).map fun driver => { s with driver := driver }
      else none

/-- A run of a fan-out from its start. -/
def PermittedRuns (limits : Limits) (silent : f.Silence) (answers : f.Answers)
    (acts : List f.PermittedAction) (s : f.Permitted) : Prop :=
  Lts.run (f.permittedStep limits silent answers) (Permitted.start f) acts = some s

/-- From here, the fan-out can return. -/
def CanReturn (limits : Limits) (silent : f.Silence) (answers : f.Answers)
    (s : f.Permitted) : Prop :=
  ∃ acts s', Lts.run (f.permittedStep limits silent answers) s acts = some s' ∧
    s'.driver.phase = .exited .returned ∧
    f.Ends answers (folded s'.driver.reports) (f.finish s'.driver.acc)

/-- Each of the node's requests is sent and answered in the end. -/
def NodePasses (limits : Limits) (silent : f.Silence) (i : f.Node) : Prop :=
  ∀ q < f.queue.length, (f.queue[q]?).map Prod.fst = some i → (f.jobs limits silent).Passes q

instance (limits : Limits) (silent : f.Silence) (i : f.Node) :
    Decidable (f.NodePasses limits silent i) :=
  inferInstanceAs (Decidable (∀ q < f.queue.length, _ → _))

/-- The nodes that come to answer in full. -/
def passing (limits : Limits) (silent : f.Silence) : List f.Node :=
  f.tasks.filter fun i => f.NodePasses limits silent i

variable {f} {limits : Limits} {silent : f.Silence} {answers : f.Answers}
variable {acts : List f.PermittedAction} {s : f.Permitted}

theorem mem_passing {i : f.Node} :
    i ∈ f.passing limits silent ↔ i ∈ f.tasks ∧ f.NodePasses limits silent i := by
  unfold passing
  rw [List.mem_filter, decide_eq_true_eq]

/-! ## What holds in every run -/

/-- The driver's part is a run of the fan-out, in which a node's task returned
only once all its requests were answered. -/
structure PermittedInv (limits : Limits) (silent : f.Silence) (answers : f.Answers)
    (s : f.Permitted) : Prop where
  permits : (f.jobs limits silent).Inv s.permits
  driver : ∃ acts, f.Underway answers acts s.driver
  answered : ∀ i slivers, s.driver.result i = some (.returned slivers) →
    f.Answered s.permits i

private theorem Underway.step {acts : List f.DriverAction} {driver v : f.Driver}
    {a : f.DriverAction} (h : f.Underway answers acts driver) (hcalm : a ≠ .cancelDriver)
    (hallowed : ∀ i r, a = .finish i r →
      r = .returned (f.slivers answers i) ∨ .cancelled i ∈ driver.reports)
    (hstep : CommitteeFanout.step f.callbacks f.tasks driver a = some v) :
    f.Underway answers (acts ++ [a]) v where
  run := Lts.run_snoc_eq_some.mpr ⟨driver, h.run, hstep⟩
  undisturbed := by
    rw [List.mem_append, List.mem_singleton]
    exact not_or.mpr ⟨h.undisturbed, hcalm.symm⟩
  answered i r hr := by
    have hmore := (step_reports_extends hstep).subset
    rcases step_result hstep hr with hold | rfl
    · exact (h.answered i r hold).imp_right fun hcancelled => hmore hcancelled
    · exact (hallowed i r rfl).imp_right fun hcancelled => hmore hcancelled

private theorem permittedInv_step {a : f.PermittedAction} {v : f.Permitted}
    (h : PermittedInv limits silent answers s)
    (hstep : f.permittedStep limits silent answers s a = some v) :
    PermittedInv limits silent answers v := by
  cases a with
  | permit a =>
    obtain ⟨permits, hpermits, rfl⟩ := Option.map_eq_some_iff.mp hstep
    refine ⟨h.permits.step hpermits, h.driver, fun i slivers hi q hq hnode => ?_⟩
    exact Semaphores.Jobs.ended_subset hpermits (h.answered i slivers hi q hq hnode)
  | driver a =>
    obtain ⟨hallows, hmapped⟩ := Option.ite_none_right_eq_some.mp hstep
    obtain ⟨driver, hdriver, rfl⟩ := Option.map_eq_some_iff.mp hmapped
    obtain ⟨acts, hunderway⟩ := h.driver
    refine ⟨h.permits, ⟨_, hunderway.step ?_ ?_ hdriver⟩, fun i slivers hi => ?_⟩
    · rintro rfl
      exact hallows
    · rintro i r rfl
      exact hallows.imp And.left And.right
    · rcases step_result hdriver hi with hold | rfl
      · exact h.answered i slivers hold
      · rcases hallows with ⟨-, hanswered⟩ | ⟨hcancelled, -⟩
        · exact hanswered
        · cases hcancelled

theorem PermittedRuns.inv (hrun : f.PermittedRuns limits silent answers acts s) :
    PermittedInv limits silent answers s := by
  refine Lts.run_invariant ⟨Semaphores.Jobs.inv_start, ⟨[], f.underway_start answers⟩, ?_⟩
    (fun _ _ _ h hstep => permittedInv_step h hstep) hrun
  intro i slivers hi
  exact nomatch (start_result f.tasks Collected.empty i).symm.trans hi

/-- A node whose task returned is one that passes. -/
theorem PermittedInv.nodePasses (h : PermittedInv limits silent answers s) {i : f.Node}
    {slivers : List Bytes} (hi : s.driver.result i = some (.returned slivers)) :
    f.NodePasses limits silent i :=
  fun q hq hnode => h.permits.passes (h.answered i slivers hi q hq hnode)

/-- **A fan-out that has returned** folded nodes that pass: all that it asked, or
enough of them. -/
theorem PermittedRuns.enough (hrun : f.PermittedRuns limits silent answers acts s)
    (hexit : s.driver.phase = .exited .returned) :
    (∀ i ∈ f.tasks, f.NodePasses limits silent i) ∨
      f.threshold ≤ (f.contents answers (f.passing limits silent)).card := by
  have hinv := hrun.inv
  obtain ⟨acts', hunderway⟩ := hinv.driver
  have hcomplete := (hunderway.ends hexit).complete.1
  have hpasses : ∀ i ∈ folded s.driver.reports, f.NodePasses limits silent i := by
    intro i hi
    obtain ⟨r, hr⟩ := mem_folded.mp hi
    have hresult := hunderway.run.inv.result i r hr
    rcases hunderway.answered i r hresult with rfl | hcancelled
    · exact hinv.nodePasses hresult
    · exact nomatch hunderway.run.report_unique f.nodup_tasks hr hcancelled rfl
  refine hcomplete.enough.imp (fun hall i hi => hpasses i (hall i hi)) fun henough => ?_
  refine henough.trans (Finset.card_le_card (contents_mono fun i hi => ?_))
  exact mem_passing.mpr ⟨hcomplete.asked i hi, hpasses i hi⟩

/-! ## A fan-out returns -/

private theorem run_permits {permits : Semaphores.State} {acts : List Semaphores.Action}
    (hrun : Lts.run (f.jobs limits silent).step s.permits acts = some permits) :
    Lts.run (f.permittedStep limits silent answers) s (acts.map .permit) =
      some { s with permits := permits } := by
  have hlift := Lts.run_lift (f.permittedStep limits silent answers)
    (fun permits => { s with permits := permits }) PermittedAction.permit (fun _ _ => trivial)
    (fun u a v (_ : True) hstep => by simp [permittedStep, hstep]) hrun
  exact hlift

/-- A step in which tasks end as they can is one of the fan-out. -/
private theorem permittedStep_of_reluctantStep
    {ends : f.Node → Option (TaskResult PyExn (List Bytes))} {permits : Semaphores.State}
    {driver v : f.Driver} {a : f.DriverAction}
    (hends : ∀ i r, ends i = some r →
      r = .returned (f.slivers answers i) ∧ f.Answered permits i)
    (hstep : reluctantStep f.callbacks f.tasks ends driver a = some v) :
    f.permittedStep limits silent answers ⟨permits, driver⟩ (.driver a) = some ⟨permits, v⟩ := by
  have hboth : f.Allows answers ⟨permits, driver⟩ a ∧
      step f.callbacks f.tasks driver a = some v := by
    cases a with
    | finish i r =>
      obtain ⟨hallowed, hdriver⟩ := Option.ite_none_right_eq_some.mp hstep
      exact ⟨hallowed.imp_left (hends i r), hdriver⟩
    | cancelDriver => cases hstep
    | wake done => exact ⟨trivial, hstep⟩
    | closeGrace done still => exact ⟨trivial, hstep⟩
    | drained => exact ⟨trivial, hstep⟩
    | cleaned => exact ⟨trivial, hstep⟩
  exact Option.ite_none_right_eq_some.mpr
    ⟨hboth.1, Option.map_eq_some_iff.mpr ⟨v, hboth.2, rfl⟩⟩

/-- **From wherever it is, a fan-out can return**, if those that pass serve enough. -/
theorem PermittedRuns.canReturn (hrun : f.PermittedRuns limits silent answers acts s)
    (hpos : 0 < f.threshold)
    (henough : f.threshold ≤ (f.contents answers (f.passing limits silent)).card) :
    f.CanReturn limits silent answers s := by
  obtain ⟨ends, hends⟩ : ∃ ends : f.Node → Option (TaskResult PyExn (List Bytes)), ends = fun i =>
      if f.NodePasses limits silent i then some (.returned (f.slivers answers i)) else none :=
    ⟨_, rfl⟩
  have hends_iff : ∀ {i r}, ends i = some r ↔
      f.NodePasses limits silent i ∧ r = .returned (f.slivers answers i) := fun {i r} => by
    rw [hends, Option.ite_none_right_eq_some, Option.some.injEq, eq_comm (a := r)]
  -- first let every request be answered that can be
  obtain ⟨permitActs, permits, hpermits, hended⟩ := hrun.inv.permits.exists_run
  have hfirst : Lts.run (f.permittedStep limits silent answers) s (permitActs.map .permit) =
      some { s with permits := permits } := run_permits hpermits
  have hanswered : ∀ i r, ends i = some r →
      r = .returned (f.slivers answers i) ∧ f.Answered permits i := fun i r hr => by
    obtain ⟨hpasses, rfl⟩ := hends_iff.mp hr
    exact ⟨rfl, fun q hq hnode => hended q hq (hpasses q hq hnode)⟩
  -- then let the nodes that pass return
  obtain ⟨underwayActs, hunderway⟩ := hrun.inv.driver
  have hstart : f.callbacks.shouldStop .empty = false := by
    simpa [callbacks, Collected.empty] using hpos.ne'
  have hquick : Enough f.callbacks f.tasks .empty ends := fun reports hreports hall =>
    enough_of_folded (fun i r hr => (hends_iff.mp (hreports i r hr)).2) henough
      fun i hi hready => hall i hi (by simpa [hends] using hready)
  obtain ⟨driverActs, driver, hdriver, hexit, hfolded⟩ :=
    hunderway.run.exists_return_reluctant hunderway.undisturbed f.nodup_tasks hstart hquick
      fun i r hr => by
        rcases hunderway.answered i r hr with rfl | hcancelled
        · exact .inl (hends_iff.mpr ⟨hrun.inv.nodePasses hr, rfl⟩)
        · exact .inr hcancelled
  have hsecond := Lts.run_lift (f.permittedStep limits silent answers)
    (fun driver => (⟨permits, driver⟩ : f.Permitted)) PermittedAction.driver (fun _ _ => trivial)
    (fun u a v (_ : True) hstep => permittedStep_of_reluctantStep hanswered hstep) hdriver
  have hrest : Lts.run (f.permittedStep limits silent answers) s
      (permitActs.map .permit ++ driverActs.map .driver) = some ⟨permits, driver⟩ :=
    Lts.run_append_eq_some.mpr ⟨_, hfirst, hsecond⟩
  have hwhole : f.PermittedRuns limits silent answers _ ⟨permits, driver⟩ :=
    Lts.run_append_eq_some.mpr ⟨s, hrun, hrest⟩
  obtain ⟨wholeActs, hwholeUnderway⟩ := hwhole.inv.driver
  exact ⟨_, _, hrest, hexit, hwholeUnderway.ends hexit⟩

/-! ## Which nodes pass -/

variable (f) in
/-- The requests that stand in the queue before those of a node. -/
def before (i : f.Node) : List (f.Node × Nat) := (f.tasks.takeWhile (· ≠ i)).flatMap f.nodeRequests

theorem mem_nodeRequests {i : f.Node} {request : f.Node × Nat} (h : request ∈ f.nodeRequests i) :
    request.1 = i := by
  obtain ⟨place, -, rfl⟩ := List.mem_map.mp h
  rfl

theorem length_places_le (i : f.Node) : (f.places i).length ≤ (f.member i).shardIndices.length := by
  unfold places
  rw [List.length_map]
  exact (List.length_filter_le _ _).trans_eq List.length_zipIdx

/-- Of a kind of nodes, the requests before those of a node are no more than all
shards of that kind. -/
theorem countP_before_le (slow : f.Node → Bool) (i : f.Node) :
    (f.before i).countP (fun request => slow request.1) ≤
      ∑ j with slow j = true, (f.member j).shardIndices.length := by
  have hnodup : (f.tasks.takeWhile (· ≠ i)).Nodup :=
    f.nodup_tasks.sublist (List.takeWhile_sublist _)
  have hown : ∀ j, (f.nodeRequests j).countP (fun request => slow request.1) ≤
      if slow j = true then (f.member j).shardIndices.length else 0 := by
    intro j
    split
    · refine List.countP_le_length.trans ?_
      rw [nodeRequests, List.length_map]
      exact length_places_le j
    · rename_i hquick
      refine (List.countP_eq_zero.mpr fun request hrequest => ?_).le
      rw [mem_nodeRequests hrequest]
      exact hquick
  rw [before, List.countP_flatMap, ← List.sum_toFinset _ hnodup, Finset.sum_filter]
  exact (Finset.sum_le_sum fun j _ => hown j).trans
    (Finset.sum_le_sum_of_subset (Finset.subset_univ _))

/-- The queue around the requests of a node. -/
theorem queue_eq {i : f.Node} (hi : i ∈ f.tasks) :
    ∃ after, f.queue = f.before i ++ f.nodeRequests i ++ after ∧
      ∀ request ∈ after, request.1 ≠ i := by
  obtain ⟨earlier, later, htasks, hearlier⟩ := List.eq_append_cons_of_mem hi
  have hbefore : f.tasks.takeWhile (· ≠ i) = earlier := by
    have hall : ∀ j ∈ earlier, decide (j ≠ i) = true := fun j hj =>
      decide_eq_true fun heq => hearlier (heq ▸ hj)
    rw [htasks, List.takeWhile_append_of_pos hall, List.takeWhile_cons_of_neg (by simp),
      List.append_nil]
  refine ⟨later.flatMap f.nodeRequests, ?_, ?_⟩
  · rw [before, hbefore, queue, htasks, List.flatMap_append, List.flatMap_cons, List.append_assoc]
  · rintro request hrequest rfl
    obtain ⟨j, hj, hmem⟩ := List.mem_flatMap.mp hrequest
    have hnodup := htasks ▸ f.nodup_tasks
    rw [mem_nodeRequests hmem] at hnodup
    exact (List.nodup_cons.mp (List.nodup_append.mp hnodup).2.1).1 hj

/-- The positions in a list that hold something of a kind. -/
private theorem card_filter_range {α : Type} (xs : List α) (p : α → Bool) (n : Nat) :
    ((Finset.range n).filter fun q => (xs[q]?).any p = true).card = (xs.take n).countP p := by
  induction n with
  | zero => rfl
  | succ n ih =>
    rw [Finset.range_add_one, Finset.filter_insert, List.take_add_one, List.countP_append, ← ih]
    cases xs[n]? with
    | none => simp
    | some x => cases hx : p x <;> simp [hx]

/-- Only requests to nodes that may not answer keep their permits. -/
private theorem slow_of_holds {slow : f.Node → Bool}
    (hsilent : ∀ j place, silent j place = true → slow j = true)
    (hconnections : 0 < limits.maxNodeConnections) {p : Nat}
    (hholds : (f.jobs limits silent).Holds p) :
    (f.queue[p]?).any (fun request => slow request.1) = true := by
  have hslow : ∀ r, (f.jobs limits silent).lasting r = true →
      ∃ request, f.queue[r]? = some request ∧ slow request.1 = true := fun r hr => by
    obtain ⟨request, hrequest, hlasting⟩ := (Option.any_eq_true _ _).mp hr
    exact ⟨request, hrequest, hsilent _ _ hlasting⟩
  rcases hholds with hlasting | hfull
  · exact (Option.any_eq_true _ _).mpr (hslow p hlasting)
  · -- a lasting request to the same node comes before
    obtain ⟨r, hr⟩ := Finset.card_pos.mp (hconnections.trans_le hfull)
    obtain ⟨-, hgroup, hlasting⟩ := Finset.mem_filter.mp hr
    obtain ⟨request, hrequest, hslow⟩ := hslow r hlasting
    have hsame : (f.queue[p]?).map Prod.fst = some request.1 := by
      rw [← show (f.queue[r]?).map Prod.fst = (f.queue[p]?).map Prod.fst from hgroup, hrequest]
      rfl
    obtain ⟨other, hother, heq⟩ := Option.map_eq_some_iff.mp hsame
    exact (Option.any_eq_true _ _).mpr ⟨other, hother, heq ▸ hslow⟩

/-- A node that answers passes, if few enough requests before its own are to
nodes that may not. -/
theorem nodePasses_of_few (slow : f.Node → Bool) {i : f.Node} (hi : i ∈ f.tasks)
    (hsilent : ∀ j place, silent j place = true → slow j = true) (hquick : slow i = false)
    (hconnections : 0 < limits.maxNodeConnections)
    (hfew : (f.before i).countP (fun request => slow request.1) < limits.maxConcurrentRequests) :
    f.NodePasses limits silent i := by
  intro q hq hnode
  obtain ⟨request, hrequest, rfl⟩ := Option.map_eq_some_iff.mp hnode
  obtain ⟨after, hqueue, hafter⟩ := queue_eq hi
  have hown : (f.nodeRequests request.1).countP (fun request => slow request.1) = 0 := by
    rw [List.countP_eq_zero]
    intro own hown
    rw [mem_nodeRequests hown, hquick]
    exact Bool.false_ne_true
  have hinside : q < (f.before request.1 ++ f.nodeRequests request.1).length := by
    by_contra hpast
    rw [hqueue, List.getElem?_append_right (not_lt.mp hpast)] at hrequest
    exact hafter request (List.mem_of_getElem? hrequest) rfl
  constructor
  · intro hholds
    have hslow := slow_of_holds hsilent hconnections hholds
    rw [hrequest, Option.any_some, hquick] at hslow
    cases hslow
  · calc ((f.jobs limits silent).holdsBefore q).card
      _ ≤ ((Finset.range q).filter fun p =>
            (f.queue[p]?).any (fun request => slow request.1) = true).card :=
          Finset.card_le_card fun p hp => by
            obtain ⟨hp, hholds⟩ := Finset.mem_filter.mp hp
            exact Finset.mem_filter.mpr ⟨hp, slow_of_holds hsilent hconnections hholds⟩
      _ = (f.queue.take q).countP (fun request => slow request.1) := card_filter_range _ _ _
      _ ≤ (f.before request.1 ++ f.nodeRequests request.1).countP
            (fun request => slow request.1) := by
          rw [hqueue, List.take_append_of_le_length hinside.le]
          exact (List.take_sublist _ _).countP_le
      _ = (f.before request.1).countP (fun request => slow request.1) := by
          rw [List.countP_append, hown, Nat.add_zero]
      _ < limits.maxConcurrentRequests := hfew

/-- A node that is asked for something passes only then, where nodes may not answer
any request. -/
theorem few_of_nodePasses (slow : f.Node → Bool) {i : f.Node} (hi : i ∈ f.tasks)
    (hsilent : ∀ j place, slow j = true → silent j place = true) (hsome : f.places i ≠ [])
    (hpasses : f.NodePasses limits silent i) :
    0 < limits.maxNodeConnections ∧ slow i = false ∧
      (f.before i).countP (fun request => slow request.1) < limits.maxConcurrentRequests := by
  obtain ⟨place, rest, hplaces⟩ := List.exists_cons_of_ne_nil hsome
  obtain ⟨after, hqueue, -⟩ := queue_eq hi
  have hfirst : f.queue[(f.before i).length]? = some (i, place) := by
    rw [hqueue, List.append_assoc, List.getElem?_append_right le_rfl, Nat.sub_self,
      nodeRequests,
      hplaces]
    rfl
  have hinside : (f.before i).length < f.queue.length := (List.getElem?_eq_some_iff.mp hfirst).1
  obtain ⟨hnot, hroom⟩ := hpasses _ hinside (by rw [hfirst]; rfl)
  obtain ⟨hquick, hfree⟩ := not_or.mp hnot
  refine ⟨Nat.zero_lt_of_lt (not_le.mp hfree), ?_, ?_⟩
  · by_contra hslow
    refine hquick ((Option.any_eq_true _ _).mpr ⟨_, hfirst, hsilent i place (by simpa using hslow)⟩)
  · calc (f.before i).countP (fun request => slow request.1)
      _ = (f.queue.take (f.before i).length).countP (fun request => slow request.1) := by
          rw [hqueue, List.append_assoc, List.take_left]
      _ = ((Finset.range (f.before i).length).filter fun p =>
            (f.queue[p]?).any (fun request => slow request.1) = true).card :=
          (card_filter_range _ _ _).symm
      _ ≤ ((f.jobs limits silent).holdsBefore (f.before i).length).card :=
          Finset.card_le_card fun p hp => by
            obtain ⟨hp, hslow⟩ := Finset.mem_filter.mp hp
            obtain ⟨request, hrequest, hslow⟩ := (Option.any_eq_true _ _).mp hslow
            exact Finset.mem_filter.mpr ⟨hp, .inl
              ((Option.any_eq_true _ _).mpr ⟨request, hrequest, hsilent _ _ hslow⟩)⟩
      _ < limits.maxConcurrentRequests := hroom

/-- Whoever serves something is asked for something. -/
theorem places_ne_nil {i : f.Node} {sliver : Bytes} (h : sliver ∈ f.slivers answers i) :
    f.places i ≠ [] := by
  obtain ⟨shard, hshard, hserved⟩ := List.mem_filterMap.mp h
  have hcomposed : (f.request (f.member i) shard.1).isOk = true := by
    cases hrequest : f.request (f.member i) shard.1 with
    | ok command => rfl
    | error e =>
      rw [one, hrequest, error_bind] at hserved
      cases hserved
  exact List.ne_nil_of_mem
    (List.mem_map.mpr ⟨shard, List.mem_filter.mpr ⟨hshard, hcomposed⟩, rfl⟩)

end Fetch

end Pytusk.NativeRead
