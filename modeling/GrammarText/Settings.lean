/-!
# Settings

What a reader of grammars can choose: the grammar's name, which only labels reports, whether comments become
tokens, and what becomes of a second definition of a name.
-/

namespace GrammarText

/-- What becomes of a second definition of a name. -/
inductive Repeats where
  /-- It is an error. -/
  | refused
  /-- Its alternatives are added to those of the first. -/
  | merged
  deriving DecidableEq, Repr

/-- The name of a grammar that was given none. -/
def unnamedGrammar : String := "Extended BNF"

/-- The choices under which a grammar is lexed and its table built. -/
structure Settings where
  /-- The label of the grammar in reports. -/
  grammar : String := unnamedGrammar
  /-- Whether a comment line gives a comment token. -/
  keepComments : Bool := false
  /-- What becomes of a repeated definition. -/
  repeats : Repeats := .refused
  deriving DecidableEq, Repr

end GrammarText
