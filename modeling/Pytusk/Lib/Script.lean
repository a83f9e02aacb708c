import Pytusk.Lib.Logged

/-!
# Runs that carry out a script

A computation is to take some steps in order, and to go on only after a step
was done. Which events are steps, and whether the one of a given number was
done, is left open.
-/

namespace Pytusk.Lib.Script

variable {ω ε α β τ : Type} (step : ω → Option τ) (done : Nat → Prop)

/-- The steps among the events. -/
def taken (x : Logged ω ε α) : List τ := x.log.filterMap step

/-- `x` takes the steps of the script in order, the first of them being the
`k`-th of all, and none after one that was not done. If it returns, all of
them were taken and done. -/
structure Follows (k : Nat) (script : List τ) (x : Logged ω ε α) : Prop where
  inOrder : (taken step x).IsPrefix script
  goesOn : ∀ i, i + 1 < (taken step x).length → done (k + i)
  complete : ∀ a, x.result = .ok a →
    taken step x = script ∧ ∀ i < script.length, done (k + i)

variable {step done} {k : Nat} {script : List τ}

@[simp] theorem taken_mk (r : Except ε α) (log : List ω) :
    taken step (⟨r, log⟩ : Logged ω ε α) = log.filterMap step := rfl

theorem taken_bind_of_ok {x : Logged ω ε α} {a : α} (h : x.result = .ok a)
    (f : α → Logged ω ε β) : taken step (x >>= f) = taken step x ++ taken step (f a) := by
  obtain ⟨result, log⟩ := x
  cases h
  rw [Logged.mk_ok_bind, taken, taken, taken, ← List.filterMap_append]
  rfl

theorem taken_bind_of_error {x : Logged ω ε α} {e : ε} (h : x.result = .error e)
    (f : α → Logged ω ε β) : taken step (x >>= f) = taken step x := by
  obtain ⟨result, log⟩ := x
  cases h
  rfl

/-- What takes no step follows every script, as long as it does not return. -/
theorem follows_error {x : Logged ω ε α} {e : ε} (hnone : taken step x = [])
    (herror : x.result = .error e) : Follows step done k script x where
  inOrder := by
    rw [hnone]
    exact List.nil_prefix
  goesOn i hi := by
    rw [hnone] at hi
    exact absurd hi (Nat.not_lt_zero _)
  complete a ha := nomatch herror.symm.trans ha

theorem follows_nil {x : Logged ω ε α} (hnone : taken step x = []) :
    Follows step done k [] x where
  inOrder := List.prefix_nil.mpr hnone
  goesOn i hi := by
    rw [hnone] at hi
    exact absurd hi (Nat.not_lt_zero _)
  complete _ _ := ⟨hnone, fun i hi => absurd hi (Nat.not_lt_zero i)⟩

theorem follows_pure (a : α) : Follows step done k [] (pure a : Logged ω ε α) := follows_nil rfl

theorem follows_raise (e : ε) : Follows step done k script (Logged.raise e : Logged ω ε α) :=
  follows_error rfl rfl

/-- A computation with one step left to take, which it takes. -/
theorem follows_last {x : Logged ω ε α} {t : τ} (htaken : taken step x = [t])
    (hdone : ∀ a, x.result = .ok a → done k) : Follows step done k [t] x where
  inOrder := htaken.symm ▸ List.prefix_rfl
  goesOn i hi := by
    rw [htaken, List.length_singleton] at hi
    omega
  complete a ha := by
    refine ⟨htaken, fun i hi => ?_⟩
    rw [Nat.lt_one_iff.mp hi]
    exact hdone a ha

/-- One script after another: the second is begun when all of the first is done. -/
theorem Follows.bind {x : Logged ω ε α} {f : α → Logged ω ε β} {script' : List τ}
    (hx : Follows step done k script x)
    (hf : ∀ a, x.result = .ok a → Follows step done (k + script.length) script' (f a)) :
    Follows step done k (script ++ script') (x >>= f) := by
  cases hresult : x.result with
  | error e =>
    have htaken : taken step (x >>= f) = taken step x := taken_bind_of_error hresult f
    constructor
    case inOrder =>
      rw [htaken]
      exact hx.inOrder.trans (List.prefix_append _ _)
    case goesOn =>
      rw [htaken]
      exact hx.goesOn
    case complete =>
      intro b hb
      obtain ⟨a, ha, -⟩ := Logged.result_bind_eq_ok.mp hb
      exact nomatch hresult.symm.trans ha
  | ok a =>
    obtain ⟨hall, hdone⟩ := hx.complete a hresult
    have hthen := hf a hresult
    have htaken : taken step (x >>= f) = script ++ taken step (f a) := by
      rw [taken_bind_of_ok hresult, hall]
    have hlater : ∀ {i}, ¬ i < script.length → k + script.length + (i - script.length) = k + i := by
      intro i hi
      omega
    constructor
    case inOrder =>
      rw [htaken]
      exact (List.prefix_append_right_inj _).mpr hthen.inOrder
    case goesOn =>
      intro i hi
      rw [htaken, List.length_append] at hi
      by_cases hfirst : i < script.length
      · exact hdone i hfirst
      · rw [← hlater hfirst]
        exact hthen.goesOn _ (by omega)
    case complete =>
      intro b hb
      obtain ⟨a', ha', hb'⟩ := Logged.result_bind_eq_ok.mp hb
      cases hresult.symm.trans ha'
      obtain ⟨hall', hdone'⟩ := hthen.complete b hb'
      refine ⟨by rw [htaken, hall'], fun i hi => ?_⟩
      rw [List.length_append] at hi
      by_cases hfirst : i < script.length
      · exact hdone i hfirst
      · rw [← hlater hfirst]
        exact hdone' _ (by omega)

/-- What comes before the script and takes no step of it. -/
theorem Follows.before {x : Logged ω ε α} {f : α → Logged ω ε β} (hnone : taken step x = [])
    (hf : ∀ a, x.result = .ok a → Follows step done k script (f a)) :
    Follows step done k script (x >>= f) :=
  (follows_nil hnone).bind hf

/-- What comes after it and takes none. -/
theorem Follows.andThen {x : Logged ω ε α} {f : α → Logged ω ε β}
    (hx : Follows step done k script x) (hnone : ∀ a, taken step (f a) = []) :
    Follows step done k script (x >>= f) := by
  rw [← List.append_nil script]
  exact hx.bind fun a _ => follows_nil (hnone a)

/-- The steps of a part, counted within it. -/
theorem Follows.shift {x : Logged ω ε α} {n : Nat}
    (hx : Follows step (fun i => done (n + i)) 0 script x) : Follows step done n script x where
  inOrder := hx.inOrder
  goesOn i hi := by
    rw [← Nat.zero_add i]
    exact hx.goesOn i hi
  complete a ha := by
    obtain ⟨hall, hdone⟩ := hx.complete a ha
    refine ⟨hall, fun i hi => ?_⟩
    rw [← Nat.zero_add i]
    exact hdone i hi

end Pytusk.Lib.Script
