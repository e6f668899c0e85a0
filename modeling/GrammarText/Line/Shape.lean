import GrammarText.Text.Blank

/-!
# The shape of a line

A trimmed line is told apart by its first character alone: nothing at all is a blank line, a semicolon opens a
comment, an opening bracket opens a rule, and anything else is astray.

* `Shape.of` is that classification; it keeps what follows the first character of a comment or a rule;
* `Shape.kind?` names the three shapes that a grammar admits.
-/

namespace GrammarText.Line

/-- The three kinds of line that a grammar is made of. -/
inductive Kind where
  | comment
  | definition
  | blank
  deriving DecidableEq, Repr

/-- The words for a kind of line. -/
def Kind.label : Kind → String
  | comment => "comment"
  | definition => "rule definition"
  | blank => "blank"

/-- What a trimmed line is, with the characters after the one that tells. -/
inductive Shape where
  | blank
  | comment (text : List Char)
  | definition (afterBracket : List Char)
  | stray
  deriving DecidableEq, Repr

/-- The shape of a trimmed line. -/
def Shape.of : List Char → Shape
  | [] => .blank
  | ';' :: text => .comment text
  | '<' :: afterBracket => .definition afterBracket
  | _ => .stray

/-- The kind of a line, unless the line is astray. -/
def Shape.kind? : Shape → Option Kind
  | blank => some .blank
  | comment _ => some .comment
  | definition _ => some .definition
  | stray => none

/-- The shape of a line as it was given, blank characters at its ends included. -/
def shape (line : String) : Shape :=
  Shape.of (Text.trim line.toList)

end GrammarText.Line
