import EnvTemplates.Error
import EnvTemplates.Event

/-!
# Runs

A `Run` is a computation that may fail and that logs events on the way. The events logged before a
failure are kept.
-/

namespace EnvTemplates

/-- The result of a computation that may fail, with the events that it logged. -/
structure Run (α : Type) where
  result : Except Error α
  events : List Event := []

namespace Run

variable {α β : Type}

protected def pure (a : α) : Run α := ⟨.ok a, []⟩

/-- Go on with the value, unless the first part failed. -/
protected def bind (r : Run α) (f : α → Run β) : Run β :=
  match r.result with
  | .error e => ⟨.error e, r.events⟩
  | .ok a => ⟨(f a).result, r.events ++ (f a).events⟩

instance : Monad Run where
  pure := Run.pure
  bind := Run.bind

def log (e : Event) : Run Unit := ⟨.ok (), [e]⟩

def logAll (es : List Event) : Run Unit := ⟨.ok (), es⟩

def fail (e : Error) : Run α := ⟨.error e, []⟩

/-- A result that was obtained without logging. -/
def ofExcept (r : Except Error α) : Run α := ⟨r, []⟩

/-! ### What the operations give and log -/

@[simp] theorem result_pure (a : α) : (pure a : Run α).result = .ok a := rfl

@[simp] theorem events_pure (a : α) : (pure a : Run α).events = [] := rfl

theorem result_bind (r : Run α) (f : α → Run β) :
    (r >>= f).result = r.result.bind fun a => (f a).result := by
  show (Run.bind r f).result = _
  unfold Run.bind
  cases r.result <;> rfl

theorem result_bind_eq_ok {r : Run α} {f : α → Run β} {b : β} :
    (r >>= f).result = .ok b ↔ ∃ a, r.result = .ok a ∧ (f a).result = .ok b := by
  rw [result_bind]
  cases r.result <;> simp [Except.bind]

theorem result_bind_eq_error {r : Run α} {f : α → Run β} {e : Error} :
    (r >>= f).result = .error e ↔
      r.result = .error e ∨ ∃ a, r.result = .ok a ∧ (f a).result = .error e := by
  rw [result_bind]
  cases r.result <;> simp [Except.bind]

theorem events_bind_of_ok {r : Run α} {f : α → Run β} {a : α} (h : r.result = .ok a) :
    (r >>= f).events = r.events ++ (f a).events := by
  show (Run.bind r f).events = _
  unfold Run.bind
  rw [h]

@[simp] theorem result_log (e : Event) : (log e).result = .ok () := rfl

@[simp] theorem result_logAll (es : List Event) : (logAll es).result = .ok () := rfl

@[simp] theorem result_fail (e : Error) : (fail e : Run α).result = .error e := rfl

@[simp] theorem result_ofExcept (r : Except Error α) : (ofExcept r).result = r := rfl

end Run

end EnvTemplates
