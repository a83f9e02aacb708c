import Mathlib.Data.List.Basic

/-!
# Runs of a partial labelled step

A system is a step function `σ → α → Option σ`: the environment picks the
action, `none` means the action is not enabled. `run` performs a list of
actions. Everything here is about an arbitrary step; the induction on runs
is packaged once (`run_invariant`), and so is the argument that a property
which holds at the end of a run and not at its start was switched on by one
particular step (`exists_switch`).
-/

namespace Pytusk.Lib.Lts

variable {σ α : Type*} {step : σ → α → Option σ}

/-- Perform the actions in order; `none` as soon as one is not enabled. -/
def run (step : σ → α → Option σ) : σ → List α → Option σ
  | s, [] => some s
  | s, a :: as => (step s a).bind fun s' => run step s' as

@[simp] theorem run_nil (s : σ) : run step s [] = some s := rfl

@[simp] theorem run_cons (s : σ) (a : α) (as : List α) :
    run step s (a :: as) = (step s a).bind fun s' => run step s' as := rfl

theorem run_append (s : σ) (as bs : List α) :
    run step s (as ++ bs) = (run step s as).bind fun s' => run step s' bs := by
  induction as generalizing s with
  | nil => rfl
  | cons a as ih =>
    simp only [List.cons_append, run_cons]
    cases h : step s a with
    | none => rfl
    | some s' => simp [ih]

/-- A run splits at any point into a run to the middle state and one from it. -/
theorem run_append_eq_some {s t : σ} {as bs : List α} :
    run step s (as ++ bs) = some t ↔
      ∃ m, run step s as = some m ∧ run step m bs = some t := by
  rw [run_append, Option.bind_eq_some_iff]

/-- The last step of a run. -/
theorem run_snoc_eq_some {s t : σ} {as : List α} {a : α} :
    run step s (as ++ [a]) = some t ↔
      ∃ m, run step s as = some m ∧ step m a = some t := by
  simp [run_append_eq_some]

/-- The invariant rule for runs whose actions are all of one kind. -/
theorem run_invariant_on {P : σ → Prop} {Q : α → Prop} {s t : σ} {as : List α}
    (h0 : P s) (hQ : ∀ a ∈ as, Q a)
    (hstep : ∀ u a v, Q a → P u → step u a = some v → P v)
    (hrun : run step s as = some t) : P t := by
  induction as generalizing s with
  | nil => cases hrun; exact h0
  | cons a as ih =>
    obtain ⟨m, hm, hrest⟩ := Option.bind_eq_some_iff.mp hrun
    obtain ⟨ha, has⟩ := List.forall_mem_cons.mp hQ
    exact ih (hstep s a m ha h0 hm) has hrest

/-- **The invariant rule**: what holds at the start and is preserved by every
enabled step holds at the end of every run. -/
theorem run_invariant {P : σ → Prop} {s t : σ} {as : List α} (h0 : P s)
    (hstep : ∀ u a v, P u → step u a = some v → P v)
    (hrun : run step s as = some t) : P t :=
  run_invariant_on (Q := fun _ => True) h0 (fun _ _ => trivial)
    (fun u a v _ hu => hstep u a v hu) hrun

/-- A run of one machine is a run of another into which its states and actions
embed. -/
theorem run_lift {τ β : Type*} (step' : τ → β → Option τ) (f : σ → τ) (g : α → β)
    {Q : α → Prop} {s t : σ} {as : List α} (hQ : ∀ a ∈ as, Q a)
    (hstep : ∀ u a v, Q a → step u a = some v → step' (f u) (g a) = some (f v))
    (hrun : run step s as = some t) : run step' (f s) (as.map g) = some (f t) := by
  induction as generalizing s with
  | nil => cases hrun; rfl
  | cons a as ih =>
    obtain ⟨m, hm, hrest⟩ := Option.bind_eq_some_iff.mp hrun
    obtain ⟨ha, has⟩ := List.forall_mem_cons.mp hQ
    rw [List.map_cons, run_cons, hstep s a m ha hm, Option.bind_some]
    exact ih has hrest

/-- A property absent at the start of a run and present at its end was
switched on by one of its steps. -/
theorem exists_switch {P : σ → Prop} {s t : σ} {as : List α} (h0 : ¬ P s)
    (hrun : run step s as = some t) (ht : P t) :
    ∃ as₁ a as₂ u v, as = as₁ ++ a :: as₂ ∧ run step s as₁ = some u ∧
      step u a = some v ∧ ¬ P u ∧ P v := by
  induction as generalizing s with
  | nil => cases hrun; exact absurd ht h0
  | cons a as ih =>
    obtain ⟨m, hm, hrest⟩ := Option.bind_eq_some_iff.mp hrun
    by_cases hP : P m
    · exact ⟨[], a, as, s, m, rfl, rfl, hm, h0, hP⟩
    · obtain ⟨as₁, b, as₂, u, v, rfl, hu, hb, hnu, hv⟩ := ih hP hrest
      exact ⟨a :: as₁, b, as₂, u, v, rfl, by simp [hm, hu], hb, hnu, hv⟩

end Pytusk.Lib.Lts
