import Mathlib.Data.List.Basic

/-!
# `while` loops

A loop is a test and a body on a state. `WhileEnds` is what the loop means:
the states it can be started in and the one it ends in. `whileRun` computes it
when it is given enough turns, and a measure that every turn lowers says how
many are enough. An invariant of the body is one of the loop.
-/

namespace Pytusk.Lib

section While

variable {σ : Type*} (guard : σ → Bool) (body : σ → σ)

/-- `while guard: body` started in a state ends in another one. -/
inductive WhileEnds : σ → σ → Prop
  | done {s : σ} (h : guard s = false) : WhileEnds s s
  | turn {s t : σ} (h : guard s = true) (rest : WhileEnds (body s) t) : WhileEnds s t

/-- The loop, for so many turns at most. -/
def whileRun : Nat → σ → σ
  | 0, s => s
  | turns + 1, s => if guard s then whileRun turns (body s) else s

variable {guard body} {s t : σ}

/-- The loop ends in one state only. -/
theorem WhileEnds.unique {t' : σ} (h : WhileEnds guard body s t)
    (h' : WhileEnds guard body s t') : t = t' := by
  induction h with
  | done hguard =>
    cases h' with
    | done _ => rfl
    | turn hturn _ => exact nomatch hguard.symm.trans hturn
  | turn hguard _ ih =>
    cases h' with
    | done hdone => exact nomatch hdone.symm.trans hguard
    | turn _ rest => exact ih rest

/-- **The loop terminates**, within as many turns as the measure counts. -/
theorem whileEnds_whileRun (measure : σ → Nat)
    (hdec : ∀ s, guard s = true → measure (body s) < measure s) {turns : Nat}
    (h : measure s ≤ turns) : WhileEnds guard body s (whileRun guard body turns s) := by
  induction turns generalizing s with
  | zero =>
    cases hguard : guard s with
    | false => exact .done hguard
    | true =>
      have hlt := hdec s hguard
      omega
  | succ turns ih =>
    unfold whileRun
    cases hguard : guard s with
    | false => exact .done hguard
    | true =>
      have hlt := hdec s hguard
      exact .turn hguard (ih (by omega))

/-- **The invariant rule.** The test fails where the loop ends, and what the
body preserves holds there. -/
theorem WhileEnds.invariant {P : σ → Prop} (h : WhileEnds guard body s t) (h0 : P s)
    (hbody : ∀ s, guard s = true → P s → P (body s)) : guard t = false ∧ P t := by
  induction h with
  | done hguard => exact ⟨hguard, h0⟩
  | turn hguard _ ih => exact ih (hbody _ hguard h0)

end While

end Pytusk.Lib
