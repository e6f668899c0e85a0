import GrammarText.Token

/-!
# Rules

A rule has a name and a list of alternatives, each a list of terms; a term is a literal, the name of a rule or a
builtin class.  Rules that come from a grammar have at least one alternative and no empty one, but the type admits
the others too, and they are printed like any.

* `Term.token` embeds terms into tokens and `Token.term?` is its partial inverse (`term?_eq_some_iff`);
* `Rule.chars` and `Rule.render` print a rule on one line in grammar notation;
* `Rule.references` are the rule names its terms mention, in order.
-/

namespace GrammarText

/-- One element of an alternative. -/
inductive Term where
  | literal (text : String)
  | name (name : String)
  | builtin (builtin : Builtin)
  deriving DecidableEq, Repr

/-- The token that stands for a term. -/
def Term.token : Term → Token
  | literal text => .literal text
  | name n => .name n
  | builtin b => .builtin b

/-- The term that a token stands for; markers, separators and comments stand for none. -/
def Token.term? : Token → Option Term
  | .literal text => some (.literal text)
  | .name n => some (.name n)
  | .builtin b => some (.builtin b)
  | _ => none

theorem Token.term?_eq_some_iff {t : Token} {x : Term} : t.term? = some x ↔ t = x.token := by
  cases t <;> cases x <;> simp [Token.term?, Term.token]

/-- A named production with its alternatives. -/
structure Rule where
  name : String
  alternatives : List (List Term)
  deriving DecidableEq, Repr

namespace Rule

/-- The terms of an alternative, each after a space. -/
def alternativeChars (terms : List Term) : List Char :=
  terms.flatMap fun x => ' ' :: x.token.chars

/-- The characters of a rule in grammar notation, without a line end. -/
def chars (r : Rule) : List Char :=
  (Token.name r.name).chars ++ ' ' :: Token.assignment.chars ++
    [' ', '|'].intercalate (r.alternatives.map alternativeChars)

/-- A rule on one line in grammar notation. -/
def render (r : Rule) : String :=
  String.ofList r.chars

/-- The rule names that the terms of a rule mention, in order and with repetitions. -/
def references (r : Rule) : List String :=
  r.alternatives.flatten.filterMap fun
    | .name n => some n
    | _ => none

end Rule

end GrammarText
