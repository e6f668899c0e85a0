import GrammarText.Line.Definition
import GrammarText.Line.Shape

/-!
# The tokens of a line

A line of a grammar is lexed by itself: nothing is carried over from one line to the next.  A blank line gives an
end of line, a comment gives a comment token or nothing, a rule line gives its name, assignment, body and end of
line, and any other line is a flaw as a whole.
-/

namespace GrammarText.Line

/-- The tokens of a line, or what is wrong with it; `keepComments` tells whether a comment gives a token. -/
def tokens (keepComments : Bool) (line : String) : Except Flaw (List Token) :=
  match shape line with
  | .blank => .ok [.endOfLine]
  | .comment text => .ok (if keepComments then [.comment (String.ofList (Text.trim text))] else [])
  | .definition afterBracket => definition afterBracket
  | .stray => .error ⟨.notARule, Text.trimmed line⟩

end GrammarText.Line
