import TemplateLayout.Event

/-! # Laws of logged computations
What two steps of a computation that notes events and may fail come to: its value, its failure and
its notes from those of the steps.

* `Logged.value_bind_eq_ok_iff` — two steps succeed exactly if both do;
* `Logged.value_bind_of_ok`, `Logged.value_bind_of_error` — the first step decides what follows;
* `Logged.value_bind_congr`, `Logged.bind_congr_value`, `Logged.bind_congr_ok` — steps that agree
  where it matters come to the same;
* `Logged.run_bind_of_run` — values and notes together.
-/

namespace TemplateLayout.Logged

variable {ε α β : Type} {x : ExceptT ε Logged α} {a : α} {g g' : α → ExceptT ε Logged β}

/-! ## Values -/

/-- Two steps succeed exactly if both do. -/
theorem value_bind_eq_ok_iff {b : β} :
    (x >>= g).run.value = .ok b ↔ ∃ a, x.run.value = .ok a ∧ (g a).run.value = .ok b := by
  have hbind : (x >>= g).run.value = (ExceptT.bindCont g x.run.value).value := rfl
  rw [hbind]
  cases x.run.value with
  | ok a =>
    rw [ExceptT.bindCont]
    constructor
    · exact fun h => ⟨a, rfl, h⟩
    · rintro ⟨a', ha, h⟩
      rwa [Except.ok.inj ha]
  | error e => simp [ExceptT.bindCont]

/-- Another name for the failure does not change the success. -/
theorem value_adapt_eq_ok_iff {ε' : Type} {k : ε → ε'} :
    (x.adapt k).run.value = .ok a ↔ x.run.value = .ok a := by
  rw [ExceptT.run_adapt, value_map]
  cases x.run.value with
  | ok b =>
    show (Except.ok b : Except ε' α) = .ok a ↔ (Except.ok b : Except ε α) = .ok a
    rw [Except.ok.injEq, Except.ok.injEq]
  | error e =>
    show (Except.error (k e) : Except ε' α) = .ok a ↔ (Except.error e : Except ε α) = .ok a
    simp only [reduceCtorEq]

/-- A step that fails does not succeed. -/
theorem value_throw_ne_ok (e : ε) (a : α) : (throw e : ExceptT ε Logged α).run.value ≠ .ok a :=
  fun h => nomatch (h : Except.error e = Except.ok a)

/-- A success is known by what it gives. -/
theorem eq_ok_of_toOption {y : Except ε α} (h : y.toOption = some a) : y = .ok a := by
  cases y with
  | ok b => exact congrArg Except.ok (Option.some.inj h)
  | error e => exact absurd h (by simp [Except.toOption])

/-- A step that cannot fail hands its value on. -/
theorem value_liftM_bind (x : Logged α) (g : α → ExceptT ε Logged β) :
    (liftM x >>= g : ExceptT ε Logged β).run.value = (g x.value).run.value := rfl

/-- A step that succeeds leaves its notes and hands its value on. -/
theorem run_bind_of_ok (h : x.run.value = .ok a) (g : α → ExceptT ε Logged β) :
    (x >>= g).run = ⟨x.run.events ++ (g a).run.events, (g a).run.value⟩ := by
  have hbind : (x >>= g).run = x.run >>= ExceptT.bindCont g := rfl
  have hcont : ExceptT.bindCont g x.run.value = (g a).run := by
    rw [h]
    rfl
  rw [hbind, ← hcont]
  rfl

theorem value_bind_of_ok (h : x.run.value = .ok a) (g : α → ExceptT ε Logged β) :
    (x >>= g).run.value = (g a).run.value := by
  rw [run_bind_of_ok h]

/-- A step that fails leaves its notes, and nothing is run behind it. -/
theorem run_bind_of_error {e : ε} (h : x.run.value = .error e) (g : α → ExceptT ε Logged β) :
    (x >>= g).run = ⟨x.run.events, .error e⟩ := by
  have hbind : (x >>= g).run = ⟨x.run.events ++ (ExceptT.bindCont g x.run.value).events,
    (ExceptT.bindCont g x.run.value).value⟩ := rfl
  have hcont : ExceptT.bindCont g x.run.value = pure (.error e) := by
    rw [h]
    rfl
  rw [hbind, hcont, events_pure, value_pure, List.append_nil]

/-- A step that fails is the failure of all that begins with it. -/
theorem value_bind_of_error {e : ε} (h : x.run.value = .error e) (g : α → ExceptT ε Logged β) :
    (x >>= g).run.value = .error e := by
  rw [run_bind_of_error h]

/-- Two steps give what their values say, whatever is noted. -/
theorem value_bind_congr {x' : ExceptT ε Logged α} (hx : x.run.value = x'.run.value)
    (hg : ∀ a, (g a).run.value = (g' a).run.value) :
    (x >>= g).run.value = (x' >>= g').run.value := by
  cases h : x'.run.value with
  | ok a => rw [value_bind_of_ok (hx.trans h), value_bind_of_ok h, hg]
  | error e => rw [value_bind_of_error (hx.trans h), value_bind_of_error h]

/-! ## Notes -/

/-- What is noted first is noted in the end, failure or not. -/
theorem mem_events_bind {e : Event} (h : e ∈ x.run.events) (g : α → ExceptT ε Logged β) :
    e ∈ (x >>= g).run.events :=
  List.mem_append_left _ h

/-- A step that cannot fail keeps its notes. -/
theorem events_liftM (x : Logged α) : (liftM x : ExceptT ε Logged α).run.events = x.events :=
  events_map ..

/-- What is made without a note is its value. -/
theorem eq_pure_of_events {x : Logged α} (h : x.events = []) : x = pure x.value := by
  obtain ⟨events, value⟩ := x
  obtain rfl : events = [] := h
  rfl

/-- What follows a step that cannot fail counts only at the value that the step gives. -/
theorem bind_congr_value {x : Logged α} {k k' : α → Logged β} (h : k x.value = k' x.value) :
    x >>= k = x >>= k' := by
  have hbind (k : α → Logged β) :
      x >>= k = ⟨x.events ++ (k x.value).events, (k x.value).value⟩ := rfl
  rw [hbind, hbind, h]

/-- Two steps with their notes. -/
theorem run_bind_of_run {y : Except ε β} {es es' : List Event} (hx : x.run = ⟨es, .ok a⟩)
    (hg : (g a).run = ⟨es', y⟩) : (x >>= g).run = ⟨es ++ es', y⟩ := by
  rw [run_bind_of_ok (congrArg value hx), hx, hg]

/-- A last step without a note. -/
theorem run_bind_pure_of_run {es : List Event} (hx : x.run = ⟨es, .ok a⟩) (k : α → β) :
    (x >>= fun a => pure (k a)).run = ⟨es, .ok (k a)⟩ :=
  (run_bind_of_run hx rfl).trans (by rw [List.append_nil])

/-- What follows a step that succeeds counts only at the value that the step gives. -/
theorem bind_congr_of_ok (h : x.run.value = .ok a) (hg : g a = g' a) : x >>= g = x >>= g' := by
  refine ExceptT.ext ?_
  rw [run_bind_of_ok h, run_bind_of_ok h, hg]

/-- What follows a step counts only at the values that the step can give. -/
theorem bind_congr_ok (hg : ∀ a, x.run.value = .ok a → g a = g' a) : x >>= g = x >>= g' := by
  cases hx : x.run.value with
  | ok a => exact bind_congr_of_ok hx (hg a hx)
  | error e =>
    -- Neither of the two is run.
    have hbind (g : α → ExceptT ε Logged β) : (x >>= g).run = x.run >>= ExceptT.bindCont g := rfl
    refine ExceptT.ext ?_
    rw [hbind, hbind]
    refine bind_congr_value ?_
    rw [hx]
    rfl

end TemplateLayout.Logged
