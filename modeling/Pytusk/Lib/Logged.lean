import Pytusk.Lib.ExceptRules

/-!
# Computations that leave a trace

A computation that raises or returns, together with the events it emitted on
the way. Raising keeps what was emitted before, and so does catching. `Meets`
is the logic over it: what every event satisfies, and what a returned value
or a raised error does, provided the outside behaves on the events as assumed.
-/

namespace Pytusk.Lib

structure Logged (ω ε α : Type) where
  result : Except ε α
  log : List ω

namespace Logged

variable {ω ω' ε ε' α β : Type}

protected def pure (a : α) : Logged ω ε α := ⟨.ok a, []⟩

protected def bind (x : Logged ω ε α) (f : α → Logged ω ε β) : Logged ω ε β :=
  match x.result with
  | .error e => ⟨.error e, x.log⟩
  | .ok a => ⟨(f a).result, x.log ++ (f a).log⟩

instance : Monad (Logged ω ε) where
  pure := Logged.pure
  bind := Logged.bind

/-- A computation that emits nothing. -/
def lift (r : Except ε α) : Logged ω ε α := ⟨r, []⟩

instance : MonadLift (Except ε) (Logged ω ε) := ⟨lift⟩

def raise (e : ε) : Logged ω ε α := ⟨.error e, []⟩

def emit (event : ω) : Logged ω ε Unit := ⟨.ok (), [event]⟩

/-- Turn what is raised into something else. -/
def mapError (f : ε → ε') (x : Logged ω ε α) : Logged ω ε' α := ⟨x.result.mapError f, x.log⟩

/-- The events under other names. -/
def mapLog (f : ω → ω') (x : Logged ω ε α) : Logged ω' ε α := ⟨x.result, x.log.map f⟩

/-- Run `x` and look at how it ended: the body of a `try`. -/
def attempt (x : Logged ω ε α) : Logged ω ε (Except ε α) := ⟨.ok x.result, x.log⟩

@[simp] theorem result_pure (a : α) : (pure a : Logged ω ε α).result = .ok a := rfl

@[simp] theorem log_pure (a : α) : (pure a : Logged ω ε α).log = [] := rfl

@[simp] theorem result_raise (e : ε) : (raise e : Logged ω ε α).result = .error e := rfl

@[simp] theorem log_raise (e : ε) : (raise e : Logged ω ε α).log = [] := rfl

@[simp] theorem result_emit (e : ω) : (emit e : Logged ω ε Unit).result = .ok () := rfl

@[simp] theorem log_emit (e : ω) : (emit e : Logged ω ε Unit).log = [e] := rfl

@[simp] theorem result_lift (r : Except ε α) : (lift r : Logged ω ε α).result = r := rfl

@[simp] theorem log_lift (r : Except ε α) : (lift r : Logged ω ε α).log = [] := rfl

@[simp] theorem result_attempt (x : Logged ω ε α) : x.attempt.result = .ok x.result := rfl

@[simp] theorem log_attempt (x : Logged ω ε α) : x.attempt.log = x.log := rfl

@[simp] theorem result_mapError (f : ε → ε') (x : Logged ω ε α) :
    (x.mapError f).result = x.result.mapError f := rfl

@[simp] theorem log_mapError (f : ε → ε') (x : Logged ω ε α) : (x.mapError f).log = x.log := rfl

@[simp] theorem result_mapLog (f : ω → ω') (x : Logged ω ε α) : (x.mapLog f).result = x.result :=
  rfl

@[simp] theorem log_mapLog (f : ω → ω') (x : Logged ω ε α) : (x.mapLog f).log = x.log.map f := rfl

/-- A lifted computation is written by its coercion. -/
@[simp] theorem monadLift_eq (r : Except ε α) :
    (liftM r : Logged ω ε α) = lift r := rfl

@[simp] theorem lift_ok_bind (a : α) (f : α → Logged ω ε β) :
    (lift (.ok a) >>= f) = f a := rfl

@[simp] theorem lift_error_bind (e : ε) (f : α → Logged ω ε β) :
    (lift (.error e) >>= f) = raise e := rfl

@[simp] theorem result_bind (x : Logged ω ε α) (f : α → Logged ω ε β) :
    (x >>= f).result = x.result >>= fun a => (f a).result := by
  show (Logged.bind x f).result = _
  unfold Logged.bind
  cases x.result with
  | error e => rfl
  | ok a => rfl

theorem result_bind_eq_ok {x : Logged ω ε α} {f : α → Logged ω ε β} {b : β} :
    (x >>= f).result = .ok b ↔ ∃ a, x.result = .ok a ∧ (f a).result = .ok b := by
  rw [result_bind, bind_eq_ok]

/-- The events of `x`, and those of what follows if `x` returned. -/
theorem mem_log_bind {x : Logged ω ε α} {f : α → Logged ω ε β} {event : ω} :
    event ∈ (x >>= f).log ↔
      event ∈ x.log ∨ ∃ a, x.result = .ok a ∧ event ∈ (f a).log := by
  show event ∈ (Logged.bind x f).log ↔ _
  unfold Logged.bind
  cases x.result with
  | error e => simp
  | ok a => simp

/-- Events are counted over the two parts of a computation. -/
theorem countP_log_bind_le {p : ω → Bool} {x : Logged ω ε α} {f : α → Logged ω ε β} {m n : Nat}
    (hx : x.log.countP p ≤ m) (hf : ∀ a, x.result = .ok a → (f a).log.countP p ≤ n) :
    (x >>= f).log.countP p ≤ m + n := by
  show (Logged.bind x f).log.countP p ≤ m + n
  unfold Logged.bind
  cases hresult : x.result with
  | error e => exact Nat.le_add_right_of_le hx
  | ok a =>
    dsimp only
    rw [List.countP_append]
    exact Nat.add_le_add hx (hf a hresult)

/-- What is only done to the value emits nothing. -/
theorem log_bind_pure (x : Logged ω ε α) (f : α → β) : (x >>= fun a => pure (f a)).log = x.log := by
  show (Logged.bind x fun a => pure (f a)).log = x.log
  unfold Logged.bind
  cases x.result with
  | error e => rfl
  | ok a => exact List.append_nil _

/-- A computation with some events before it. -/
def after (events : List ω) (x : Logged ω ε α) : Logged ω ε α := ⟨x.result, events ++ x.log⟩

theorem mk_ok_bind (a : α) (log : List ω) (f : α → Logged ω ε β) :
    ((⟨.ok a, log⟩ : Logged ω ε α) >>= f) = (f a).after log := rfl

theorem mk_error_bind (e : ε) (log : List ω) (f : α → Logged ω ε β) :
    ((⟨.error e, log⟩ : Logged ω ε α) >>= f) = ⟨.error e, log⟩ := rfl

theorem emit_bind (event : ω) (f : Unit → Logged ω ε β) :
    (emit event >>= f) = (f ()).after [event] := rfl

theorem after_mk (events log : List ω) (r : Except ε α) :
    after events ⟨r, log⟩ = ⟨r, events ++ log⟩ := rfl

theorem pure_eq_mk (a : α) : (pure a : Logged ω ε α) = ⟨.ok a, []⟩ := rfl

theorem attempt_mk (r : Except ε α) (log : List ω) :
    (⟨r, log⟩ : Logged ω ε α).attempt = ⟨.ok r, log⟩ := rfl

/-! ## Kinds of events -/

section Emits

variable {p : ω → Bool}

/-- An event of the kind is emitted. -/
def Emits (p : ω → Bool) (x : Logged ω ε α) : Prop := ∃ event ∈ x.log, p event = true

@[simp] theorem emits_pure {a : α} : Emits p (pure a : Logged ω ε α) ↔ False :=
  iff_of_false (fun ⟨_, h, _⟩ => nomatch h) id

@[simp] theorem emits_raise {e : ε} : Emits p (raise e : Logged ω ε α) ↔ False :=
  iff_of_false (fun ⟨_, h, _⟩ => nomatch h) id

@[simp] theorem emits_lift {r : Except ε α} : Emits p (lift r : Logged ω ε α) ↔ False :=
  iff_of_false (fun ⟨_, h, _⟩ => nomatch h) id

@[simp] theorem emits_emit {event : ω} :
    Emits p (emit event : Logged ω ε Unit) ↔ p event = true := by
  simp [Emits]

@[simp] theorem emits_attempt {x : Logged ω ε α} : Emits p x.attempt ↔ Emits p x := Iff.rfl

theorem emits_bind {x : Logged ω ε α} {f : α → Logged ω ε β} :
    Emits p (x >>= f) ↔ Emits p x ∨ ∃ a, x.result = .ok a ∧ Emits p (f a) := by
  simp only [Emits, mem_log_bind]
  constructor
  · rintro ⟨event, hmem | ⟨a, ha, hmem⟩, hp⟩
    · exact .inl ⟨event, hmem, hp⟩
    · exact .inr ⟨a, ha, event, hmem, hp⟩
  · rintro (⟨event, hmem, hp⟩ | ⟨a, ha, event, hmem, hp⟩)
    · exact ⟨event, .inl hmem, hp⟩
    · exact ⟨event, .inr ⟨a, ha, hmem⟩, hp⟩

/-- What follows a value that is known. -/
theorem emits_bind_of_ok {x : Logged ω ε α} {f : α → Logged ω ε β} {a : α}
    (h : x.result = .ok a) : Emits p (x >>= f) ↔ Emits p x ∨ Emits p (f a) := by
  rw [emits_bind]
  simp [h]

theorem emits_bind_of_error {x : Logged ω ε α} {f : α → Logged ω ε β} {e : ε}
    (h : x.result = .error e) : Emits p (x >>= f) ↔ Emits p x := by
  rw [emits_bind]
  simp [h]

theorem emits_bind_pure {x : Logged ω ε α} {f : α → β} :
    Emits p (x >>= fun a => pure (f a)) ↔ Emits p x := by
  rw [Emits, log_bind_pure, Emits]

/-- What follows the body of a `try` and emits nothing of the kind. -/
theorem emits_attempt_bind {x : Logged ω ε α} {f : Except ε α → Logged ω ε β}
    (hf : ∀ r, ¬ Emits p (f r)) : Emits p (x.attempt >>= f) ↔ Emits p x := by
  rw [emits_bind_of_ok (result_attempt x), emits_attempt, or_iff_left (hf x.result)]

end Emits

/-! ## What a computation meets -/

section Rules

variable {assumed guaranteed : ω → Prop} {raises raises' : ε → Prop}
  {returns : α → Prop} {returns' : β → Prop}

/-- How a computation may end. -/
def EndsIn (raises : ε → Prop) (returns : α → Prop) : Except ε α → Prop
  | .error e => raises e
  | .ok a => returns a

/-- If the outside behaves as assumed on every event, then every event is as
guaranteed, and the computation ends in an error or a value as stated. -/
def Meets (assumed guaranteed : ω → Prop) (raises : ε → Prop) (returns : α → Prop)
    (x : Logged ω ε α) : Prop :=
  (∀ event ∈ x.log, assumed event) →
    (∀ event ∈ x.log, guaranteed event) ∧ EndsIn raises returns x.result

theorem meets_pure {a : α} (h : returns a) :
    Meets assumed guaranteed raises returns (pure a) :=
  fun _ => ⟨List.forall_mem_nil _, h⟩

theorem meets_raise {e : ε} (h : raises e) :
    Meets assumed guaranteed raises returns (raise e) :=
  fun _ => ⟨List.forall_mem_nil _, h⟩

theorem meets_lift {r : Except ε α} (h : EndsIn raises returns r) :
    Meets assumed guaranteed raises returns (lift r) :=
  fun _ => ⟨List.forall_mem_nil _, h⟩

theorem meets_emit {event : ω} (h : assumed event → guaranteed event) :
    Meets assumed guaranteed raises (fun _ => assumed event) (emit event) := by
  intro hall
  have hevent : assumed event := hall event (by simp)
  refine ⟨?_, hevent⟩
  intro other hmem
  rw [List.mem_singleton.mp hmem]
  exact h hevent

theorem Meets.bind {x : Logged ω ε α} {f : α → Logged ω ε β}
    (hx : Meets assumed guaranteed raises returns x)
    (hf : ∀ a, returns a → Meets assumed guaranteed raises returns' (f a)) :
    Meets assumed guaranteed raises returns' (x >>= f) := by
  intro hall
  have hleft := hx fun event hmem => hall event (mem_log_bind.mpr (.inl hmem))
  cases hresult : x.result with
  | error e =>
    refine ⟨?_, ?_⟩
    · intro event hmem
      rcases mem_log_bind.mp hmem with h | ⟨a, ha, -⟩
      · exact hleft.1 event h
      · exact nomatch hresult.symm.trans ha
    · rw [result_bind, hresult]
      have hend := hleft.2
      rwa [hresult] at hend
  | ok a =>
    have hend := hleft.2
    rw [hresult] at hend
    have hright := hf a hend fun event hmem =>
      hall event (mem_log_bind.mpr (.inr ⟨a, hresult, hmem⟩))
    refine ⟨?_, ?_⟩
    · intro event hmem
      rcases mem_log_bind.mp hmem with h | ⟨b, hb, h⟩
      · exact hleft.1 event h
      · cases hresult.symm.trans hb
        exact hright.1 event h
    · rw [result_bind, hresult, ok_bind]
      exact hright.2

/-- The body of a `try` hands both ends on. -/
theorem Meets.attempt {x : Logged ω ε α}
    (hx : Meets assumed guaranteed raises returns x) :
    Meets assumed guaranteed raises' (EndsIn raises returns) x.attempt :=
  hx

theorem Meets.weaken {x : Logged ω ε α} {stronger : ε → Prop} {narrower : α → Prop}
    (hx : Meets assumed guaranteed stronger narrower x)
    (hraise : ∀ e, stronger e → raises e) (hreturn : ∀ a, narrower a → returns a) :
    Meets assumed guaranteed raises returns x := by
  intro hall
  obtain ⟨hevents, hend⟩ := hx hall
  refine ⟨hevents, ?_⟩
  cases hresult : x.result with
  | error e =>
    rw [hresult] at hend
    exact hraise e hend
  | ok a =>
    rw [hresult] at hend
    exact hreturn a hend

theorem Meets.mono {x : Logged ω ε α} {narrower : ω → Prop}
    (hx : Meets assumed narrower raises returns x)
    (h : ∀ event, narrower event → guaranteed event) :
    Meets assumed guaranteed raises returns x := by
  intro hall
  obtain ⟨hevents, hend⟩ := hx hall
  exact ⟨fun event hmem => h event (hevents event hmem), hend⟩

end Rules

end Logged

end Pytusk.Lib
