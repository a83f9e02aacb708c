import Mathlib.Data.List.Basic
import Mathlib.Data.List.Nodup

/-!
# The waiters of a condition variable

Tasks that wait on a condition, in the order in which they came, each with the
future it waits on. A notification makes a future done and leaves the task in
the queue until it runs; so does a cancellation, which also reaches a task that
was notified and has not run yet. The rules say who still waits: nobody starts
to wait but by `wait`.
-/

namespace Pytusk.Lib

/-- What became of the future a task waits on. -/
inductive WaitFuture where
  | pending
  | notified
  | cancelled
  deriving DecidableEq, Repr

/-- A task in the queue, and what it waits for. -/
structure Waiter (τ ρ : Type*) where
  task : τ
  request : ρ
  future : WaitFuture
  deriving DecidableEq, Repr

abbrev WaitQueue (τ ρ : Type*) := List (Waiter τ ρ)

namespace WaitQueue

variable {τ ρ : Type*}

def tasks (q : WaitQueue τ ρ) : List τ := q.map Waiter.task

def wait (q : WaitQueue τ ρ) (task : τ) (request : ρ) : WaitQueue τ ρ :=
  q ++ [⟨task, request, .pending⟩]

/-- `notify` of one waiter; a future that is done stays as it is. -/
def notifyWaiter (w : Waiter τ ρ) : Waiter τ ρ :=
  if w.future = .pending then { w with future := .notified } else w

def notifyAll (q : WaitQueue τ ρ) : WaitQueue τ ρ := q.map notifyWaiter

/-- `notify(1)`: the first waiter whose future is not done. -/
def notifyOne : WaitQueue τ ρ → WaitQueue τ ρ
  | [] => []
  | w :: rest =>
      if w.future = .pending then { w with future := .notified } :: rest
      else w :: notifyOne rest

section Lookup

variable [DecidableEq τ]

def cancel (q : WaitQueue τ ρ) (task : τ) : WaitQueue τ ρ :=
  q.map fun w => if w.task = task then { w with future := .cancelled } else w

/-- The task runs and takes its future out of the queue. -/
def leave (q : WaitQueue τ ρ) (task : τ) : WaitQueue τ ρ := q.filter fun w => w.task ≠ task

def find (q : WaitQueue τ ρ) (task : τ) : Option (Waiter τ ρ) := q.find? fun w => w.task = task

end Lookup

/-! ## The tasks of a queue -/

@[simp] theorem tasks_wait (q : WaitQueue τ ρ) (task : τ) (request : ρ) :
    tasks (wait q task request) = tasks q ++ [task] := by
  simp [tasks, wait]

@[simp] theorem tasks_notifyAll (q : WaitQueue τ ρ) : tasks (notifyAll q) = tasks q := by
  rw [tasks, notifyAll, List.map_map]
  refine List.map_congr_left fun w _ => ?_
  simp only [Function.comp_apply, notifyWaiter]
  split
  · rfl
  · rfl

@[simp] theorem tasks_notifyOne (q : WaitQueue τ ρ) : tasks (notifyOne q) = tasks q := by
  induction q with
  | nil => rfl
  | cons w rest ih =>
    unfold notifyOne
    split
    · rfl
    · exact congrArg (w.task :: ·) ih

variable [DecidableEq τ]

@[simp] theorem tasks_cancel (q : WaitQueue τ ρ) (task : τ) :
    tasks (cancel q task) = tasks q := by
  rw [tasks, cancel, List.map_map]
  refine List.map_congr_left fun w _ => ?_
  simp only [Function.comp_apply]
  split
  · rfl
  · rfl

theorem tasks_leave (q : WaitQueue τ ρ) (task : τ) :
    tasks (leave q task) = (tasks q).filter (· ≠ task) := by
  rw [tasks, tasks, leave, List.filter_map]
  rfl

theorem not_mem_tasks_leave (q : WaitQueue τ ρ) (task : τ) : task ∉ tasks (leave q task) := by
  simp [tasks_leave]

theorem nodup_tasks_leave {q : WaitQueue τ ρ} (h : (tasks q).Nodup) (task : τ) :
    (tasks (leave q task)).Nodup := by
  rw [tasks_leave]
  exact h.filter _

omit [DecidableEq τ] in
theorem nodup_tasks_wait {q : WaitQueue τ ρ} {task : τ} (h : (tasks q).Nodup)
    (hnew : task ∉ tasks q) (request : ρ) : (tasks (wait q task request)).Nodup := by
  rw [tasks_wait, ← List.concat_eq_append]
  exact h.concat hnew

/-- A waiter is found by its task. -/
theorem find_of_mem {q : WaitQueue τ ρ} {w : Waiter τ ρ} (hnodup : (tasks q).Nodup) (h : w ∈ q) :
    find q w.task = some w := by
  induction q with
  | nil => cases h
  | cons head rest ih =>
    obtain ⟨hhead, hrest⟩ := List.nodup_cons.mp hnodup
    rcases List.mem_cons.mp h with rfl | hmem
    · simp [find]
    · have hne : head.task ≠ w.task := fun heq => hhead (heq ▸ List.mem_map_of_mem hmem)
      simpa [find, hne] using ih hrest hmem

/-! ## Who still waits -/

section Pending

variable {q : WaitQueue τ ρ} {w : Waiter τ ρ} {task : τ}

omit [DecidableEq τ] in
theorem mem_of_mem_wait {request : ρ} (h : w ∈ wait q task request) :
    w ∈ q ∨ w = ⟨task, request, .pending⟩ := by
  simpa [wait] using h

omit [DecidableEq τ] in
/-- After `notify_all`, nobody. -/
theorem not_pending_of_mem_notifyAll (h : w ∈ notifyAll q) : w.future ≠ .pending := by
  obtain ⟨v, -, rfl⟩ := List.mem_map.mp h
  unfold notifyWaiter
  split
  · simp
  · assumption

omit [DecidableEq τ] in
theorem mem_of_mem_notifyOne (h : w ∈ notifyOne q) (hpending : w.future = .pending) : w ∈ q := by
  induction q with
  | nil => exact h
  | cons head rest ih =>
    unfold notifyOne at h
    split at h
    · rcases List.mem_cons.mp h with rfl | hmem
      · cases hpending
      · exact List.mem_cons_of_mem _ hmem
    · rcases List.mem_cons.mp h with rfl | hmem
      · exact List.mem_cons_self
      · exact List.mem_cons_of_mem _ (ih hmem)

theorem mem_of_mem_cancel (h : w ∈ cancel q task) (hpending : w.future = .pending) : w ∈ q := by
  obtain ⟨v, hv, rfl⟩ := List.mem_map.mp h
  split at hpending
  · cases hpending
  · rename_i hne
    rwa [if_neg hne]

theorem mem_of_mem_leave (h : w ∈ leave q task) : w ∈ q := List.mem_of_mem_filter h

end Pending

/-! ## Running the notified tasks -/

/-- How many tasks were notified and have not run. -/
def notifiedCount (q : WaitQueue τ ρ) : Nat := q.countP fun w => w.future = .notified

omit [DecidableEq τ] in
@[simp] theorem notifiedCount_wait (q : WaitQueue τ ρ) (task : τ) (request : ρ) :
    notifiedCount (wait q task request) = notifiedCount q := by
  simp [notifiedCount, wait]

omit [DecidableEq τ] in
theorem exists_notified {q : WaitQueue τ ρ} (h : notifiedCount q ≠ 0) :
    ∃ w ∈ q, w.future = .notified := by
  simpa using List.countP_pos_iff.mp (Nat.pos_of_ne_zero h)

/-- A notified task that runs is one less. -/
theorem notifiedCount_leave_lt {q : WaitQueue τ ρ} {w : Waiter τ ρ} (h : w ∈ q)
    (hnotified : w.future = .notified) : notifiedCount (leave q w.task) < notifiedCount q := by
  unfold notifiedCount leave
  rw [List.countP_eq_countP_filter_add q _ fun v => v.task ≠ w.task]
  have hpos : 0 < (q.filter fun v => !decide (v.task ≠ w.task)).countP
      fun v => v.future = .notified :=
    List.countP_pos_iff.mpr ⟨w, List.mem_filter.mpr ⟨h, by simp⟩, by simpa using hnotified⟩
  omega

end WaitQueue

end Pytusk.Lib
