import GrammarText.Logged

/-!
# What a command does, act by act

A command tells the log its events and writes its output piece by piece, and it may fail on the way.  What was written
before a failure stays written: a performance keeps all acts up to its end or its failure.

* `Act` is one act, and `Performance ε α` is a computation with its acts, which may fail with an `ε`;
* `Performance.ofAttempt` performs a computation that writes nothing, and `Performance.writeAll` writes texts in order;
* `Performance.events`, `Performance.output` and `Performance.work` are what is seen of a performance in the end.
-/

namespace GrammarText.CommandLine

/-- One act of a command. -/
inductive Act where
  /-- Tells the log an event. -/
  | log (event : Event)
  /-- Writes a piece of the output. -/
  | write (text : String)
  deriving DecidableEq, Repr

/-- The event that an act tells the log, if it does. -/
def Act.event? : Act → Option Event
  | log e => some e
  | write _ => none

/-- The text that an act writes, if it does. -/
def Act.text? : Act → Option String
  | log _ => none
  | write text => some text

/-- A computation that may fail, with its acts up to its end or its failure. -/
structure Performance (ε α : Type) where
  acts : List Act
  result : Except ε α

namespace Performance

variable {ε α β : Type}

@[ext] theorem ext {p q : Performance ε α} (acts : p.acts = q.acts) (result : p.result = q.result) : p = q := by
  cases p; cases q; simp_all

instance : Monad (Performance ε) where
  pure a := ⟨[], .ok a⟩
  bind p f :=
    match p.result with
    | .ok a => ⟨p.acts ++ (f a).acts, (f a).result⟩
    | .error e => ⟨p.acts, .error e⟩

/-- Performs a computation of which only the log is seen. -/
def ofAttempt (x : Attempt ε α) : Performance ε α :=
  ⟨x.events.map .log, x.result⟩

/-- Tells the log an event. -/
def log (e : Event) : Performance ε Unit :=
  ofAttempt (Attempt.log e)

/-- Writes texts, one after the other. -/
def writeAll (texts : List String) : Performance ε Unit :=
  ⟨texts.map .write, .ok ()⟩

/-! ## What is seen in the end -/

/-- The events told to the log, in order. -/
def events (p : Performance ε α) : List Event :=
  p.acts.filterMap Act.event?

/-- All that was written. -/
def output (p : Performance ε α) : String :=
  String.join (p.acts.filterMap Act.text?)

/-- What a performance comes to: the whole of its output if it ends, and its log. -/
def work (p : Performance ε Unit) : Attempt ε String :=
  ExceptT.mk ⟨p.result.map fun _ => p.output, p.events⟩

/-! ## One step at a time -/

theorem bind_of_ok {p : Performance ε α} {a : α} (h : p.result = .ok a) (f : α → Performance ε β) :
    p >>= f = ⟨p.acts ++ (f a).acts, (f a).result⟩ := by
  show (match p.result with | .ok a => _ | .error e => _) = _
  rw [h]

theorem bind_of_error {p : Performance ε α} {e : ε} (h : p.result = .error e) (f : α → Performance ε β) :
    p >>= f = ⟨p.acts, .error e⟩ := by
  show (match p.result with | .ok a => _ | .error e => _) = _
  rw [h]

instance : LawfulMonad (Performance ε) :=
  LawfulMonad.mk' _
    (fun p => by
      cases h : p.result with
      | ok a => exact (bind_of_ok h _).trans (ext (List.append_nil _) h.symm)
      | error e => exact (bind_of_error h _).trans (ext rfl h.symm))
    (fun a f => rfl)
    (fun p f g => by
      cases h : p.result with
      | error e => rw [bind_of_error h, bind_of_error h, bind_of_error rfl]
      | ok a =>
        rw [bind_of_ok h, bind_of_ok h]
        cases hf : (f a).result with
        | error e => rw [bind_of_error hf, bind_of_error rfl]
        | ok b => rw [bind_of_ok hf, bind_of_ok rfl, List.append_assoc])

end Performance

end GrammarText.CommandLine
