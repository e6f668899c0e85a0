/-!
# Violations of the notation

A line that does not follow the notation is reported with the reason and the offending fragment of the line; the
report on a whole grammar adds the number of the line, counted from 0, and the grammar's name.

* `Flaw` is what is wrong with a line taken by itself;
* `Violation` is a flaw with its place, and `Violation.message` the text of the report.
-/

namespace GrammarText

/-- Why a line was refused. -/
inductive Reason where
  /-- A bracket that is never closed. -/
  | missingBracket
  /-- A text between brackets that is no rule name. -/
  | invalidName
  /-- No `::=` after the name that a rule line defines. -/
  | missingAssignment
  /-- A character that starts nothing, or a quote that is never closed. -/
  | unexpectedCharacter
  /-- A line that is neither blank nor a comment nor a rule. -/
  | notARule
  deriving DecidableEq, Repr

/-- The words for a reason. -/
def Reason.text : Reason → String
  | missingBracket => "missing close-bracket in rule name"
  | invalidName => "invalid rule name"
  | missingAssignment => "missing assignment"
  | unexpectedCharacter => "unexpected character"
  | notARule => "unknown value"

/-- What is wrong with a line: the reason and the fragment of the line that shows it. -/
structure Flaw where
  reason : Reason
  fragment : String
  deriving DecidableEq, Repr

/-- A flaw in a grammar: the line, counted from 0, and the grammar's name. -/
structure Violation extends Flaw where
  line : Nat
  grammar : String
  deriving DecidableEq, Repr

/-- The violation that a flaw is on a line of a grammar. -/
def Flaw.at (f : Flaw) (line : Nat) (grammar : String) : Violation :=
  ⟨f, line, grammar⟩

/-- The report on a violation. -/
def Violation.message (v : Violation) : String :=
  "Specification [" ++ v.grammar ++ "] has invalid syntax on line " ++ toString v.line ++
    " <" ++ v.reason.text ++ ">: " ++ v.fragment

end GrammarText
