import GrammarText.Builtin
import GrammarText.Text.Quoted

/-!
# Tokens

A grammar is lexed into a flat list of tokens.  Names, literals, builtin classes and bars are what a rule's body is
made of; the markers `::=` and end of line frame a rule; comments stand between rules.

* `Marker` is the punctuation with a fixed meaning; only two markers, the assignment and the end of line, come out
  of lexing, but a token can carry any;
* `Token` is the type of tokens, `Token.kind` its rough classification, in which a marker counts as a literal;
* `Token.chars` and `Token.render` spell a token the way a grammar writes it.
-/

namespace GrammarText

/-! ## Markers -/

/-- Punctuation with a fixed meaning in a grammar. -/
inductive Marker where
  | openBracket
  | closeBracket
  | singleQuote
  | doubleQuote
  | bar
  | hyphen
  | semicolon
  | assignment
  /-- Ends a rule, or stands for a blank line. -/
  | endOfLine
  deriving DecidableEq, Repr

namespace Marker

/-- The characters of a marker. -/
def text : Marker → String
  | openBracket => "<"
  | closeBracket => ">"
  | singleQuote => "'"
  | doubleQuote => "\""
  | bar => "|"
  | hyphen => "-"
  | semicolon => ";"
  | assignment => "::="
  | endOfLine => "\r\n"

end Marker

/-! ## Tokens and their kinds -/

/-- A lexed token. -/
inductive Token where
  /-- The name of a rule, where it is defined or where it is referred to. -/
  | name (name : String)
  /-- The text between two quotes, as it stands. -/
  | literal (text : String)
  /-- Punctuation that frames a rule; different from a literal with the same characters. -/
  | marker (marker : Marker)
  /-- The bar between two alternatives. -/
  | separator (bar : Char)
  /-- The trimmed text of a comment line. -/
  | comment (text : String)
  /-- A reference to a builtin class. -/
  | builtin (builtin : Builtin)
  deriving DecidableEq, Repr

/-- The rough classification of tokens. -/
inductive Token.Kind where
  | name
  | literal
  | separator
  | comment
  | builtin
  deriving DecidableEq, Repr

/-- The word for a kind in a listing of tokens. -/
def Token.Kind.label : Token.Kind → String
  | name => "Name"
  | literal => "Literal"
  | separator => "Separator"
  | comment => "Comment"
  | builtin => "Builtin"

namespace Token

/-- The token that ends a rule. -/
@[match_pattern] abbrev endOfLine : Token := .marker .endOfLine

/-- The token between a rule's name and its body. -/
@[match_pattern] abbrev assignment : Token := .marker .assignment

/-- The kind of a token; a marker counts as a literal. -/
def kind : Token → Kind
  | name _ => .name
  | literal _ => .literal
  | marker _ => .literal
  | separator _ => .separator
  | comment _ => .comment
  | builtin _ => .builtin

/-- Tells whether a token is the marker that ends a rule; the literal with its two characters is not. -/
def isEndOfLine (t : Token) : Bool :=
  t == endOfLine

@[simp] theorem isEndOfLine_iff {t : Token} : t.isEndOfLine = true ↔ t = endOfLine :=
  beq_iff_eq

/-- Tells whether a token is the assignment marker; the literal `::=` is not. -/
def isAssignment (t : Token) : Bool :=
  t == assignment

@[simp] theorem isAssignment_iff {t : Token} : t.isAssignment = true ↔ t = assignment :=
  beq_iff_eq

/-! ## Spelling -/

/-- The characters of a token as a grammar writes it; the end of line is spelled out. -/
def chars : Token → List Char
  | name n => '<' :: n.toList ++ ['>']
  | literal text => (Text.quoted text).toList
  | endOfLine => ['E', 'O', 'L']
  | marker m => m.text.toList
  | separator bar => [bar]
  | comment text => ';' :: ' ' :: text.toList
  | builtin b => b.reference.toList

/-- A token as a grammar writes it. -/
def render (t : Token) : String :=
  String.ofList t.chars

end Token

end GrammarText
