import GrammarText.Document
import GrammarText.Line.Tokens
import GrammarText.Logged

/-!
# Lexing a document

A document is lexed line by line, in order, and its tokens are those of its lines one after the other.  The first line
with a flaw ends the reading: the answer is then the violation on that line and no token.

* `Document.lexing` is the reading with its log: one event at the start, one for each line whose kind is known, and
  one at the end unless a line had a flaw;
* `Document.tokens` is what it comes to.
-/

namespace GrammarText.Document

/-- The tokens of the line with number `n`, after an event that tells its kind. -/
def lexLine (settings : Settings) (n : Nat) (line : String) : Attempt Violation (List Token) := do
  match (Line.shape line).kind? with
  | some kind => Attempt.log (.lineSeen n kind)
  | none => pure ()
  Attempt.ofExcept ((Line.tokens settings.keepComments line).mapError fun flaw => flaw.at n settings.grammar)

/-- A line comes to its tokens, or to its flaw at the line's place. -/
theorem result_lexLine (settings : Settings) (n : Nat) (line : String) :
    (lexLine settings n line).result =
      (Line.tokens settings.keepComments line).mapError fun flaw => flaw.at n settings.grammar := by
  unfold lexLine
  cases (Line.shape line).kind? <;> rfl

/-- A line is announced by its kind, if it has one, whether it has a flaw or not. -/
theorem events_lexLine (settings : Settings) (n : Nat) (line : String) :
    (lexLine settings n line).events = ((Line.shape line).kind?.map (Event.lineSeen n)).toList := by
  unfold lexLine
  cases (Line.shape line).kind? <;> rfl

/-- The tokens of lines of which the first has number `n`. -/
def lexLines (settings : Settings) : Nat → List String → Attempt Violation (List Token)
  | _, [] => pure []
  | n, line :: rest => do
    let tokens ← lexLine settings n line
    let others ← lexLines settings (n + 1) rest
    return tokens ++ others

/-- Reading some lines and then others is reading them all. -/
theorem lexLines_append (settings : Settings) (n : Nat) (xs ys : List String) :
    lexLines settings n (xs ++ ys) = do
      let tokens ← lexLines settings n xs
      let others ← lexLines settings (n + xs.length) ys
      return tokens ++ others := by
  induction xs generalizing n with
  | nil => simp [lexLines]
  | cons x xs ih =>
    simp only [List.cons_append, lexLines, ih, List.length_cons, bind_assoc, pure_bind, List.append_assoc,
      Nat.add_assoc, Nat.add_comm 1]

/-- The tokens of a document, with the log of the reading. -/
def lexing (d : Document) : Attempt Violation (List Token) := do
  Attempt.log (.lexingStarted d.settings.grammar d.lines.length)
  let tokens ← lexLines d.settings 0 d.lines
  Attempt.log (.lexingFinished d.settings.grammar tokens.length)
  return tokens

/-- The tokens of a document, or the violation on its first line with a flaw. -/
def tokens (d : Document) : Except Violation (List Token) :=
  d.lexing.result

end GrammarText.Document
