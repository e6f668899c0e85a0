import GrammarText.Log

/-!
# Values with their log

`Logged α` is a value together with the events that led to it, in order.  Chaining two steps chains their logs, so the
log never bears on the value: `value_bind` and `events_bind` say so for one step.

`Attempt ε α` is a logged computation that may fail with an `ε`; the events up to the failure are kept.
-/

namespace GrammarText

/-- A value and the events on the way to it. -/
structure Logged (α : Type) where
  value : α
  events : List Event
  deriving DecidableEq

namespace Logged

variable {α β : Type}

/-- The log of one event. -/
def log (e : Event) : Logged Unit :=
  ⟨(), [e]⟩

/-- The events of two steps, one after the other.  The first list is left as it is where the second is empty. -/
def chain (first second : List Event) : List Event :=
  if second.isEmpty then first else first ++ second

theorem chain_eq_append (first second : List Event) : chain first second = first ++ second := by
  cases second <;> simp [chain]

instance : Monad Logged where
  pure a := ⟨a, []⟩
  bind x f :=
    let y := f x.value
    ⟨y.value, chain x.events y.events⟩

@[simp] theorem value_pure (a : α) : (pure a : Logged α).value = a := rfl

@[simp] theorem events_pure (a : α) : (pure a : Logged α).events = [] := rfl

@[simp] theorem value_bind (x : Logged α) (f : α → Logged β) : (x >>= f).value = (f x.value).value := rfl

@[simp] theorem events_bind (x : Logged α) (f : α → Logged β) :
    (x >>= f).events = x.events ++ (f x.value).events :=
  chain_eq_append _ _

@[ext] theorem ext {x y : Logged α} (value : x.value = y.value) (events : x.events = y.events) : x = y := by
  cases x; cases y; simp_all

instance : LawfulMonad Logged :=
  LawfulMonad.mk' _
    (fun x => by apply Logged.ext <;> simp [Functor.map, chain])
    (fun a f => by apply Logged.ext <;> simp)
    (fun x f g => by apply Logged.ext <;> simp)

end Logged

/-- A logged computation that may fail. -/
abbrev Attempt (ε : Type) : Type → Type :=
  ExceptT ε Logged

namespace Attempt

variable {ε α : Type}

/-- Writes an event. -/
def log (e : Event) : Attempt ε Unit :=
  ExceptT.lift (Logged.log e)

/-- A computation that logs nothing. -/
def ofExcept (x : Except ε α) : Attempt ε α :=
  ExceptT.mk (pure x)

/-- The same computation with its failure put into another type. -/
def mapError {ε' : Type} (f : ε → ε') (x : Attempt ε α) : Attempt ε' α :=
  ExceptT.adapt f x

/-- What a computation comes to, without its log. -/
def result (x : Attempt ε α) : Except ε α :=
  x.run.value

/-- The events of a computation, up to its end or its failure. -/
def events (x : Attempt ε α) : List Event :=
  x.run.events

/-! ## One step at a time -/

variable {β : Type}

@[simp] theorem result_pure (a : α) : (pure a : Attempt ε α).result = .ok a := rfl

@[simp] theorem events_pure (a : α) : (pure a : Attempt ε α).events = [] := rfl

@[simp] theorem result_throw (e : ε) : (throw e : Attempt ε α).result = .error e := rfl

@[simp] theorem events_throw (e : ε) : (throw e : Attempt ε α).events = [] := rfl

@[simp] theorem result_log (e : Event) : (log e : Attempt ε Unit).result = .ok () := rfl

@[simp] theorem events_log (e : Event) : (log e : Attempt ε Unit).events = [e] := rfl

@[simp] theorem result_ofExcept (x : Except ε α) : (ofExcept x).result = x := rfl

@[simp] theorem events_ofExcept (x : Except ε α) : (ofExcept x).events = [] := rfl

@[simp] theorem result_mapError {ε' : Type} (f : ε → ε') (x : Attempt ε α) :
    (x.mapError f).result = x.result.mapError f := rfl

@[simp] theorem events_mapError {ε' : Type} (f : ε → ε') (x : Attempt ε α) :
    (x.mapError f).events = x.events := rfl

/-- The second step is taken only if the first succeeds. -/
theorem result_bind (x : Attempt ε α) (f : α → Attempt ε β) :
    (x >>= f).result = x.result.bind fun a => (f a).result := by
  change (ExceptT.run (x >>= f)).value = _
  rw [ExceptT.run_bind]
  cases h : x.run.value <;> simp [result, h, Except.bind]

/-- The second step adds its events to those of the first. -/
theorem events_bind (x : Attempt ε α) (f : α → Attempt ε β) :
    (x >>= f).events = x.events ++ match x.result with
      | .ok a => (f a).events
      | .error _ => [] := by
  change (ExceptT.run (x >>= f)).events = _
  rw [ExceptT.run_bind]
  cases h : x.run.value <;> simp [result, events, h]

end Attempt

end GrammarText
