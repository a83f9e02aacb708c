import Pytusk.Lib.Lts
import Pytusk.Lib.WaitQueue
import Mathlib.Algebra.BigOperators.Group.List.Basic
import Mathlib.Algebra.GroupWithZero.Nat

/-!
# `native_upload/fanout.py`: the byte throttle

`_BytesInFlightThrottle`, under tasks that call `acquire`, later `release` what
they were admitted with, and may be cancelled while they wait. Nothing is
awaited with the condition's lock held, so the lock is free whenever a task
runs, and what a task does until it next waits is one step.
-/

namespace Pytusk.SliverFanout

open Pytusk.Lib

/-- The throttle with its condition's waiters. `held` records who was admitted
with how much and has not released it. -/
structure BytesThrottle (τ : Type) where
  inFlight : Int
  held : List (τ × Nat)
  waiters : WaitQueue τ Nat

/-- What the event loop can do next. -/
inductive ThrottleAction (τ : Type) where
  /-- a task calls `acquire(size=..)` -/
  | acquire (task : τ) (size : Nat)
  /-- a notified task runs -/
  | wake (task : τ)
  /-- a task is cancelled in `acquire` -/
  | cancel (task : τ)
  /-- a cancelled task runs; newer conditions notify another waiter then -/
  | leave (task : τ) (notifies : Bool)
  /-- a task calls `release(size=..)` -/
  | release (task : τ) (size : Nat)
  deriving DecidableEq, Repr

namespace BytesThrottle

variable {τ : Type}

/-- `__init__` -/
def init : BytesThrottle τ where
  inFlight := 0
  held := []
  waiters := []

section Step

variable [DecidableEq τ] (maxBytes : Nat)

/-- The `while` of `acquire` up to the next `wait`, or through it. -/
def enter (s : BytesThrottle τ) (task : τ) (size : Nat) : BytesThrottle τ :=
  if s.inFlight > 0 ∧ s.inFlight + size > maxBytes then
    { s with waiters := s.waiters.wait task size }
  else
    { s with
      inFlight := s.inFlight + size
      held := s.held ++ [(task, size)] }

def step (s : BytesThrottle τ) : ThrottleAction τ → Option (BytesThrottle τ)
  | .acquire task size =>
      if task ∈ s.waiters.tasks then none else some (s.enter maxBytes task size)
  | .wake task =>
      match s.waiters.find task with
      | some ⟨_, size, .notified⟩ =>
          some ({ s with waiters := s.waiters.leave task }.enter maxBytes task size)
      | _ => none
  | .cancel task =>
      if task ∈ s.waiters.tasks then some { s with waiters := s.waiters.cancel task } else none
  | .leave task notifies =>
      match s.waiters.find task with
      | some ⟨_, _, .cancelled⟩ =>
          let waiters := s.waiters.leave task
          some { s with waiters := if notifies then waiters.notifyOne else waiters }
      | _ => none
  | .release task size =>
      if (task, size) ∈ s.held then some {
        inFlight := s.inFlight - size
        held := s.held.erase (task, size)
        waiters := s.waiters.notifyAll }
      else none

end Step

/-! ## The invariant -/

/-- `in_flight > 0 and in_flight + size > max_bytes` -/
def Blocked (maxBytes : Nat) (s : BytesThrottle τ) (size : Nat) : Prop :=
  0 < s.inFlight ∧ (maxBytes : Int) < s.inFlight + size

/-- The reservations that count. -/
def nonzero (held : List (τ × Nat)) : List (τ × Nat) := held.filter fun r => r.2 ≠ 0

/-- The bytes that were reserved. -/
def reserved (held : List (τ × Nat)) : Nat := (held.map Prod.snd).sum

structure Accounted (maxBytes : Nat) (s : BytesThrottle τ) : Prop where
  tasks : s.waiters.tasks.Nodup
  inFlight : s.inFlight = reserved s.held
  bounded : s.inFlight ≤ maxBytes ∨ ∃ r, nonzero s.held = [r]
  blocked : ∀ w ∈ s.waiters, w.future = .pending → s.Blocked maxBytes w.request

theorem reserved_eq_nonzero (held : List (τ × Nat)) : reserved held = reserved (nonzero held) := by
  induction held with
  | nil => rfl
  | cons r rest ih =>
    unfold reserved nonzero at ih ⊢
    by_cases hzero : r.2 = 0
    · simp [hzero, ih]
    · simp [hzero, ih]

theorem nonzero_eq_nil_of_reserved {held : List (τ × Nat)} (h : reserved held = 0) :
    nonzero held = [] := by
  have hall := List.sum_eq_zero_iff_forall_eq_nat.mp h
  refine List.filter_eq_nil_iff.mpr fun r hr => ?_
  simpa using hall r.2 (List.mem_map_of_mem hr)

theorem accounted_init (maxBytes : Nat) : (init : BytesThrottle τ).Accounted maxBytes where
  tasks := List.nodup_nil
  inFlight := rfl
  bounded := .inl (Int.natCast_nonneg maxBytes)
  blocked := by
    intro w hw
    cases hw

variable {maxBytes : Nat} {s s' : BytesThrottle τ}

/-- A task that is not in the queue is admitted, or waits for a reason. -/
theorem Accounted.enter (h : s.Accounted maxBytes) {task : τ} (hnew : task ∉ s.waiters.tasks)
    (size : Nat) : (s.enter maxBytes task size).Accounted maxBytes := by
  unfold BytesThrottle.enter
  split
  · rename_i hblocked
    exact {
      tasks := WaitQueue.nodup_tasks_wait h.tasks hnew size
      inFlight := h.inFlight
      bounded := h.bounded
      blocked := by
        intro w hw hpending
        rcases WaitQueue.mem_of_mem_wait hw with hold | rfl
        · exact h.blocked w hold hpending
        · exact hblocked }
  · rename_i hadmitted
    have hinFlight := h.inFlight
    exact {
      tasks := h.tasks
      inFlight := by
        simp only [reserved, List.map_append, List.sum_append, List.map_cons, List.map_nil,
          List.sum_cons, List.sum_nil] at hinFlight ⊢
        omega
      bounded := by
        by_cases hfits : s.inFlight + size ≤ maxBytes
        · exact .inl hfits
        · -- the idle throttle admits any size, next to empty reservations only
          have hnone : nonzero s.held = [] := nonzero_eq_nil_of_reserved (by omega)
          have hsize : size ≠ 0 := by omega
          refine .inr ⟨(task, size), ?_⟩
          unfold nonzero at hnone ⊢
          rw [List.filter_append, hnone]
          simp [hsize]
      blocked := by
        intro w hw hpending
        obtain ⟨hpos, hfull⟩ := h.blocked w hw hpending
        constructor
        · show 0 < s.inFlight + size
          omega
        · show (maxBytes : Int) < s.inFlight + size + w.request
          omega }

/-- The throttle with fewer tasks that wait. -/
theorem Accounted.waiters (h : s.Accounted maxBytes) {q : WaitQueue τ Nat}
    (hnodup : q.tasks.Nodup) (hold : ∀ w ∈ q, w.future = .pending → w ∈ s.waiters) :
    ({ s with waiters := q } : BytesThrottle τ).Accounted maxBytes where
  tasks := hnodup
  inFlight := h.inFlight
  bounded := h.bounded
  blocked := by
    intro w hw hpending
    exact h.blocked w (hold w hw hpending) hpending

variable [DecidableEq τ]

/-- What is left when a reservation is released. -/
theorem reserved_erase {held : List (τ × Nat)} {r : τ × Nat} (hr : r ∈ held) :
    reserved held = r.2 + reserved (held.erase r) := by
  unfold reserved
  rw [((List.perm_cons_erase hr).map Prod.snd).sum_eq, List.map_cons, List.sum_cons]

theorem Accounted.release (h : s.Accounted maxBytes) {task : τ} {size : Nat}
    (hheld : (task, size) ∈ s.held) :
    ({ inFlight := s.inFlight - size
       held := s.held.erase (task, size)
       waiters := s.waiters.notifyAll } : BytesThrottle τ).Accounted maxBytes := by
  have hreserved := reserved_erase hheld
  have hinFlight := h.inFlight
  exact {
    tasks := by
      rw [WaitQueue.tasks_notifyAll]
      exact h.tasks
    inFlight := by
      dsimp only at hreserved ⊢
      omega
    bounded := by
      rcases h.bounded with hfits | ⟨r, hsingle⟩
      · left
        dsimp only
        omega
      · have hperm := (List.perm_cons_erase hheld).filter fun r => r.2 ≠ 0
        change (nonzero s.held).Perm _ at hperm
        rw [hsingle] at hperm
        by_cases hsize : size = 0
        · right
          refine ⟨r, ?_⟩
          rw [List.filter_cons_of_neg (by simp [hsize])] at hperm
          exact List.perm_singleton.mp hperm.symm
        · -- the one reservation that counts is released
          left
          rw [List.filter_cons_of_pos (by simp [hsize])] at hperm
          have hnone : nonzero (s.held.erase (task, size)) = [] := by
            simpa [nonzero] using hperm.length_eq
          have hzero : reserved (s.held.erase (task, size)) = 0 := by
            rw [reserved_eq_nonzero, hnone]
            rfl
          dsimp only at hreserved ⊢
          omega
    blocked := by
      intro w hw hpending
      exact absurd hpending (WaitQueue.not_pending_of_mem_notifyAll hw) }

theorem Accounted.leave (h : s.Accounted maxBytes) (task : τ) :
    ({ s with waiters := s.waiters.leave task } : BytesThrottle τ).Accounted maxBytes :=
  h.waiters (WaitQueue.nodup_tasks_leave h.tasks task) fun _ hw _ => WaitQueue.mem_of_mem_leave hw

/-- **One step** of the event loop keeps the account. -/
theorem Accounted.step (h : s.Accounted maxBytes) {a : ThrottleAction τ}
    (hstep : s.step maxBytes a = some s') : s'.Accounted maxBytes := by
  cases a with
  | acquire task size =>
    obtain ⟨hnew, hs'⟩ := Option.ite_none_left_eq_some.mp hstep
    cases hs'
    exact h.enter hnew size
  | wake task =>
    simp only [BytesThrottle.step] at hstep
    split at hstep
    · cases hstep
      exact (h.leave task).enter (WaitQueue.not_mem_tasks_leave _ _) _
    · cases hstep
  | cancel task =>
    obtain ⟨-, hs'⟩ := Option.ite_none_right_eq_some.mp hstep
    cases hs'
    refine h.waiters ?_ fun w => WaitQueue.mem_of_mem_cancel
    rw [WaitQueue.tasks_cancel]
    exact h.tasks
  | leave task notifies =>
    simp only [BytesThrottle.step] at hstep
    split at hstep
    · cases hstep
      have hleave := h.leave task
      split
      · refine hleave.waiters ?_ fun w => WaitQueue.mem_of_mem_notifyOne
        rw [WaitQueue.tasks_notifyOne]
        exact hleave.tasks
      · exact hleave
    · cases hstep
  | release task size =>
    obtain ⟨hheld, hs'⟩ := Option.ite_none_right_eq_some.mp hstep
    cases hs'
    exact h.release hheld

theorem accounted_of_run {acts : List (ThrottleAction τ)}
    (hrun : Lts.run (BytesThrottle.step maxBytes) init acts = some s) : s.Accounted maxBytes :=
  Lts.run_invariant (accounted_init maxBytes) (fun _ _ _ h hstep => h.step hstep) hrun

/-! ## Running the notified tasks -/

omit [DecidableEq τ] in
theorem notifiedCount_enter (maxBytes : Nat) (s : BytesThrottle τ) (task : τ) (size : Nat) :
    (s.enter maxBytes task size).waiters.notifiedCount = s.waiters.notifiedCount := by
  unfold enter
  split
  · exact WaitQueue.notifiedCount_wait _ _ _
  · rfl

/-- A notified task can run, and is not notified any more. -/
theorem Accounted.exists_wake (h : s.Accounted maxBytes) (hsome : s.waiters.notifiedCount ≠ 0) :
    ∃ task s', s.step maxBytes (.wake task) = some s' ∧
      s'.waiters.notifiedCount < s.waiters.notifiedCount := by
  obtain ⟨⟨task, size, future⟩, hw, hnotified⟩ := WaitQueue.exists_notified hsome
  obtain rfl : future = .notified := hnotified
  have hfind := WaitQueue.find_of_mem h.tasks hw
  refine ⟨task, ({ s with waiters := s.waiters.leave task } : BytesThrottle τ).enter maxBytes
    task size, by simp [BytesThrottle.step, hfind], ?_⟩
  rw [notifiedCount_enter]
  exact WaitQueue.notifiedCount_leave_lt hw rfl

/-- **All notified tasks can run**, one after the other. -/
theorem Accounted.exists_settled (h : s.Accounted maxBytes) :
    ∃ (tasks : List τ) (s' : BytesThrottle τ),
      Lts.run (BytesThrottle.step maxBytes) s (tasks.map .wake) = some s' ∧
        s'.waiters.notifiedCount = 0 := by
  generalize hcount : s.waiters.notifiedCount = n
  induction n using Nat.strongRecOn generalizing s with
  | ind n ih =>
    by_cases hzero : n = 0
    · exact ⟨[], s, rfl, hcount.trans hzero⟩
    · obtain ⟨task, m, hstep, hlt⟩ := h.exists_wake (hcount ▸ hzero)
      obtain ⟨tasks, s', hrun, hsettled⟩ := ih _ (hcount ▸ hlt) (h.step hstep) rfl
      exact ⟨task :: tasks, s', by simp [hstep, hrun], hsettled⟩

/-! ## What the throttle promises -/

/-- The account of the bytes in flight, and who may wait: once the notified
tasks have run, which they can, only those that do not fit beside others. -/
structure Throttles (maxBytes : Nat) (s : BytesThrottle τ) : Prop where
  inFlight : s.inFlight = reserved s.held
  nonneg : 0 ≤ s.inFlight
  bounded : s.inFlight ≤ maxBytes ∨ ∃ r, nonzero s.held = [r]
  waiting : s.waiters.notifiedCount = 0 → ∀ w ∈ s.waiters, w.future ≠ .cancelled →
    0 < s.inFlight ∧ (maxBytes : Int) < s.inFlight + w.request
  idle : s.waiters.notifiedCount = 0 → s.inFlight = 0 →
    ∀ w ∈ s.waiters, w.future = .cancelled
  settles : ∃ (tasks : List τ) (s' : BytesThrottle τ),
    Lts.run (BytesThrottle.step maxBytes) s (tasks.map .wake) = some s' ∧
      s'.waiters.notifiedCount = 0

/-- **The byte throttle**, in every state that calls and cancellations reach in
any order. -/
theorem throttles_of_run (maxBytes : Nat) (acts : List (ThrottleAction τ)) (s : BytesThrottle τ)
    (hrun : Lts.run (BytesThrottle.step maxBytes) init acts = some s) :
    s.Throttles maxBytes := by
  have h := accounted_of_run hrun
  have hwaiting : s.waiters.notifiedCount = 0 → ∀ w ∈ s.waiters, w.future ≠ .cancelled →
      s.Blocked maxBytes w.request := by
    intro hsettled w hw hcancelled
    refine h.blocked w hw ?_
    have hnotified : w.future ≠ .notified := by
      simpa using List.countP_eq_zero.mp hsettled w hw
    cases hfuture : w.future with
    | pending => rfl
    | notified => exact absurd hfuture hnotified
    | cancelled => exact absurd hfuture hcancelled
  exact {
    inFlight := h.inFlight
    nonneg := h.inFlight ▸ Int.natCast_nonneg _
    bounded := h.bounded
    waiting := hwaiting
    idle := by
      intro hsettled hidle w hw
      by_contra hcancelled
      have hpos := (hwaiting hsettled w hw hcancelled).1
      omega
    settles := h.exists_settled }

/-- An oversize sliver is let through alone; two tasks wait for it, and one of
them is cancelled. -/
private def oversizeCalls : List (ThrottleAction Nat) :=
  [.acquire 0 9, .acquire 1 0, .acquire 2 3, .cancel 1, .release 0 9, .leave 1 true, .wake 2]

theorem throttles_of_run_oversize :
    ∃ s : BytesThrottle Nat,
      Lts.run (BytesThrottle.step 4) init oversizeCalls = some s ∧ s.inFlight = 3 ∧
        s.Throttles 4 := by
  refine ⟨⟨3, [(2, 3)], []⟩, rfl, rfl, throttles_of_run 4 oversizeCalls _ rfl⟩

end BytesThrottle

end Pytusk.SliverFanout
