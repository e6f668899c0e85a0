import GrammarText.Text.Blank

/-!
# Lines of a text

A line ends at a line feed, and a carriage return directly before that line feed belongs to the line end.  What
follows the last line feed is a line too, unless it is empty; a carriage return at the very end of the text is
then an ordinary character.  The rule is stated for any alphabet with these two symbols, so that it serves
characters and bytes alike.

* `lines lf cr xs` are the lines of `xs`, without their ends;
* `trimmedLines` takes the lines of a text and trims each;
* `trimEach` trims lines that somebody else has cut; a line feed inside one of them does not cut it again.
-/

namespace GrammarText.Text

variable {α : Type} [DecidableEq α]

/-- A line that a line feed ended, without the carriage return that belongs to its end. -/
def dropReturn (cr : α) (line : List α) : List α :=
  if line.getLast? = some cr then line.dropLast else line

/-- The lines of a text over any alphabet with a line feed and a carriage return. -/
def lines (lf cr : α) (xs : List α) : List (List α) :=
  let pieces := xs.splitOn lf
  let ended := pieces.dropLast.map (dropReturn cr)
  match pieces.getLast? with
  | some (x :: rest) => ended ++ [x :: rest]
  | _ => ended

/-- Each line trimmed. -/
def trimEach (ls : List String) : List String :=
  ls.map trimmed

/-- The lines of a text, each trimmed. -/
def trimmedLines (s : String) : List String :=
  (lines '\n' '\r' s.toList).map fun line => String.ofList (trim line)

end GrammarText.Text
