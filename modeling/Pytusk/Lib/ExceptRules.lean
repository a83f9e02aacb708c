import Mathlib.Data.List.Forall2

/-!
# Rules for computations that may raise

How `do` blocks over `Except` compute, and the inversion rules that take a
successful or failed computation apart without unfolding the monad.
-/

namespace Pytusk.Lib

universe u v

variable {ε : Type u} {α β : Type v}

@[simp] theorem ok_bind (a : α) (f : α → Except ε β) : (Except.ok a >>= f) = f a := rfl

@[simp] theorem error_bind (e : ε) (f : α → Except ε β) :
    (Except.error e >>= f) = Except.error e := rfl

@[simp] theorem pure_eq_ok (a : α) : (pure a : Except ε α) = .ok a := rfl

theorem bind_eq_ok {x : Except ε α} {f : α → Except ε β} {b : β} :
    (x >>= f) = .ok b ↔ ∃ a, x = .ok a ∧ f a = .ok b := by
  cases x with
  | error e => simp
  | ok a => simp

theorem bind_eq_error {x : Except ε α} {f : α → Except ε β} {e : ε} :
    (x >>= f) = .error e ↔ x = .error e ∨ ∃ a, x = .ok a ∧ f a = .error e := by
  cases x with
  | error e' => simp
  | ok a => simp

theorem mapError_eq_ok {ε' : Type u} {f : ε → ε'} {x : Except ε α} {a : α} :
    x.mapError f = .ok a ↔ x = .ok a := by
  cases x <;> simp [Except.mapError]

/-- `if p: raise e` -/
def raiseIf (p : Prop) [Decidable p] (e : ε) : Except ε Unit :=
  if p then .error e else .ok ()

theorem raiseIf_eq_ok {p : Prop} [Decidable p] {e : ε} {u : Unit} :
    raiseIf p e = .ok u ↔ ¬ p := by
  by_cases hp : p <;> simp [raiseIf, hp]

/-- A check that raises, before the rest. -/
theorem ite_error_eq_ok {p : Prop} [Decidable p] {e : ε} {x : Except ε α} {a : α} :
    (if p then .error e else x) = .ok a ↔ ¬ p ∧ x = .ok a := by
  by_cases hp : p <;> simp [hp]

/-! ## Which errors are raised -/

/-- Whatever `x` raises satisfies `P`. -/
def OnlyRaises (P : ε → Prop) (x : Except ε α) : Prop := ∀ e, x = .error e → P e

theorem onlyRaises_ok {P : ε → Prop} (a : α) : OnlyRaises P (.ok a : Except ε α) := by
  intro e h
  cases h

theorem onlyRaises_error {P : ε → Prop} {e : ε} (he : P e) :
    OnlyRaises P (.error e : Except ε α) := by
  intro e' h
  cases h
  exact he

theorem onlyRaises_raiseIf {P : ε → Prop} {p : Prop} [Decidable p] {e : ε} (he : P e) :
    OnlyRaises P (raiseIf p e) := by
  unfold raiseIf
  split
  · exact onlyRaises_error he
  · exact onlyRaises_ok ()

theorem OnlyRaises.imp {P Q : ε → Prop} {x : Except ε α} (hx : OnlyRaises P x)
    (h : ∀ e, P e → Q e) : OnlyRaises Q x :=
  fun e he => h e (hx e he)

/-- The continuation is only asked about the values it can be given. -/
theorem OnlyRaises.bind {P : ε → Prop} {x : Except ε α} {f : α → Except ε β}
    (hx : OnlyRaises P x) (hf : ∀ a, x = .ok a → OnlyRaises P (f a)) :
    OnlyRaises P (x >>= f) := by
  intro e h
  rcases bind_eq_error.mp h with herr | ⟨a, ha, herr⟩
  · exact hx e herr
  · exact hf a ha e herr

/-! ## Loops -/

theorem OnlyRaises.foldlM {P : ε → Prop} {f : β → α → Except ε β}
    (h : ∀ b a, OnlyRaises P (f b a)) (b : β) (as : List α) :
    OnlyRaises P (as.foldlM f b) := by
  induction as generalizing b with
  | nil => exact onlyRaises_ok b
  | cons a as ih =>
    rw [List.foldlM_cons]
    exact (h b a).bind fun b' _ => ih b'

theorem OnlyRaises.mapM {P : ε → Prop} {f : α → Except ε β} {xs : List α}
    (h : ∀ x ∈ xs, OnlyRaises P (f x)) : OnlyRaises P (xs.mapM f) := by
  induction xs with
  | nil => exact onlyRaises_ok []
  | cons x rest ih =>
    obtain ⟨hx, hrest⟩ := List.forall_mem_cons.mp h
    rw [List.mapM_cons]
    exact hx.bind fun y _ => (ih hrest).bind fun ys _ => onlyRaises_ok (y :: ys)

/-- A loop of fallible calls succeeds exactly when each call does. -/
theorem mapM_eq_ok {f : α → Except ε β} {xs : List α} {ys : List β} :
    xs.mapM f = .ok ys ↔ List.Forall₂ (fun x y => f x = .ok y) xs ys := by
  induction xs generalizing ys with
  | nil => cases ys <;> simp
  | cons x rest ih =>
    rw [List.mapM_cons, bind_eq_ok]
    constructor
    · rintro ⟨y, hy, h⟩
      obtain ⟨zs, hzs, h⟩ := bind_eq_ok.mp h
      cases h
      exact .cons hy (ih.mp hzs)
    · rintro (_ | ⟨hy, hrest⟩)
      exact ⟨_, hy, bind_eq_ok.mpr ⟨_, ih.mpr hrest, rfl⟩⟩

theorem exists_mapM_ok {f : α → Except ε β} {xs : List α}
    (h : ∀ x ∈ xs, ∃ y, f x = .ok y) : ∃ ys, xs.mapM f = .ok ys := by
  induction xs with
  | nil => exact ⟨[], rfl⟩
  | cons x rest ih =>
    obtain ⟨⟨y, hy⟩, hrest⟩ := List.forall_mem_cons.mp h
    obtain ⟨ys, hys⟩ := ih hrest
    exact ⟨y :: ys, mapM_eq_ok.mpr (.cons hy (mapM_eq_ok.mp hys))⟩

/-- A loop fails with the first call that does. -/
theorem mapM_eq_error {f : α → Except ε β} {xs : List α} {e : ε} :
    xs.mapM f = .error e ↔ ∃ before x after, xs = before ++ x :: after ∧
      (∀ y ∈ before, ∃ z, f y = .ok z) ∧ f x = .error e := by
  induction xs with
  | nil => simp
  | cons x rest ih =>
    rw [List.mapM_cons, bind_eq_error]
    constructor
    · rintro (hx | ⟨y, hy, h⟩)
      · exact ⟨[], x, rest, rfl, by simp, hx⟩
      · rcases bind_eq_error.mp h with h | ⟨_, _, h⟩
        · obtain ⟨before, x', after, rfl, hbefore, hx'⟩ := ih.mp h
          exact ⟨x :: before, x', after, rfl,
            List.forall_mem_cons.mpr ⟨⟨y, hy⟩, hbefore⟩, hx'⟩
        · cases h
    · rintro ⟨before, x', after, heq, hbefore, hx'⟩
      cases before with
      | nil =>
        cases heq
        exact .inl hx'
      | cons y before =>
        cases heq
        obtain ⟨⟨z, hz⟩, hbefore⟩ := List.forall_mem_cons.mp hbefore
        exact .inr ⟨z, hz, bind_eq_error.mpr
          (.inl (ih.mpr ⟨before, x', after, rfl, hbefore, hx'⟩))⟩

/-- A loop, and one more turn of it. -/
theorem foldlM_snoc_eq_ok {f : β → α → Except ε β} {xs : List α} {x : α} {b c : β} :
    (xs ++ [x]).foldlM f b = .ok c ↔ ∃ b', xs.foldlM f b = .ok b' ∧ f b' x = .ok c := by
  rw [List.foldlM_append, bind_eq_ok]
  simp only [List.foldlM_cons, List.foldlM_nil, pure_eq_ok]
  constructor
  · rintro ⟨b', hfront, hlast⟩
    obtain ⟨c', hc', hsame⟩ := bind_eq_ok.mp hlast
    exact ⟨b', hfront, hc'.trans hsame⟩
  · rintro ⟨b', hfront, hlast⟩
    exact ⟨b', hfront, bind_eq_ok.mpr ⟨c, hlast, rfl⟩⟩

/-- What each call of a successful loop returned is in its result. -/
theorem exists_mem_of_mapM {f : α → Except ε β} {xs : List α} {ys : List β}
    (h : xs.mapM f = .ok ys) {x : α} (hx : x ∈ xs) : ∃ y ∈ ys, f x = .ok y := by
  induction mapM_eq_ok.mp h with
  | nil => cases hx
  | @cons x' y' rest ys' hy hrest ih =>
    rcases List.mem_cons.mp hx with rfl | hx
    · exact ⟨y', by simp, hy⟩
    · obtain ⟨y, hmem, hfx⟩ := ih (mapM_eq_ok.mpr hrest) hx
      exact ⟨y, List.mem_cons_of_mem _ hmem, hfx⟩

/-- What is in the result of a successful loop was returned by one call. -/
theorem exists_of_mem_mapM {f : α → Except ε β} {xs : List α} {ys : List β}
    (h : xs.mapM f = .ok ys) {y : β} (hy : y ∈ ys) : ∃ x ∈ xs, f x = .ok y := by
  induction mapM_eq_ok.mp h with
  | nil => cases hy
  | @cons x' y' rest ys' hfx hrest ih =>
    rcases List.mem_cons.mp hy with rfl | hy
    · exact ⟨x', by simp, hfx⟩
    · obtain ⟨x, hmem, hfx⟩ := ih (mapM_eq_ok.mpr hrest) hy
      exact ⟨x, List.mem_cons_of_mem _ hmem, hfx⟩

/-! ## Two computations side by side -/

/-- The same error, or related values. -/
inductive SameOutcome {α β : Type v} (R : α → β → Prop) : Except ε α → Except ε β → Prop
  | ok {a : α} {b : β} (h : R a b) : SameOutcome R (.ok a) (.ok b)
  | error (e : ε) : SameOutcome R (.error e) (.error e)

section SameOutcome

variable {α' β' : Type v} {R : α → β → Prop} {S : α' → β' → Prop}

theorem SameOutcome.bind {x : Except ε α} {y : Except ε β} {f : α → Except ε α'}
    {g : β → Except ε β'} (h : SameOutcome R x y)
    (hf : ∀ a b, R a b → SameOutcome S (f a) (g b)) : SameOutcome S (x >>= f) (y >>= g) := by
  cases h with
  | ok hab => exact hf _ _ hab
  | error e => exact .error e

/-- A computation that both share, before two that differ. -/
theorem SameOutcome.bind_left {x : Except ε α} {f : α → Except ε α'} {g : α → Except ε β'}
    (hf : ∀ a, SameOutcome S (f a) (g a)) : SameOutcome S (x >>= f) (x >>= g) := by
  cases x with
  | error e => exact .error e
  | ok a => exact hf a

end SameOutcome

theorem mapM_congr_of_forall₂ {f : α → Except ε β} {xs ys : List α}
    (h : List.Forall₂ (fun x y => f x = f y) xs ys) : xs.mapM f = ys.mapM f := by
  induction h with
  | nil => rfl
  | cons hhead _ ih => rw [List.mapM_cons, List.mapM_cons, hhead, ih]

end Pytusk.Lib
