import GrammarText.Text.Alphanumeric
import GrammarText.Text.Blank

/-!
# Builtin classes

Eight character classes can be referred to in a rule's body without being defined.  Each has a spelling, which
between brackets is a reference to it, and a set of characters:

* `Builtin.spelling` and its inverse `Builtin.ofSpelling?` (`ofSpelling?_eq_some_iff`);
* `Builtin.reference`, the spelling between brackets;
* `Builtin.contains`, membership of a character.

Four classes are ASCII only; `word` takes the letters and numbers of every script and `whitespace` every blank
character.
-/

namespace GrammarText

/-- The classes that need no definition. -/
inductive Builtin where
  | digit
  | letter
  | uppercaseLetter
  | lowercaseLetter
  | endOfLine
  | word
  | whitespace
  | symbol
  deriving DecidableEq, Repr

namespace Builtin

/-- All classes, in their customary order. -/
def all : List Builtin :=
  [digit, letter, uppercaseLetter, lowercaseLetter, endOfLine, word, whitespace, symbol]

/-- The name of the class as it stands between brackets. -/
def spelling : Builtin → String
  | digit => "digit"
  | letter => "letter"
  | uppercaseLetter => "uppercase-letter"
  | lowercaseLetter => "lowercase-letter"
  | endOfLine => "EOL"
  | word => "word"
  | whitespace => "whitespace"
  | symbol => "symbol"

/-- The reference to the class in a rule's body. -/
def reference (b : Builtin) : String :=
  "<" ++ b.spelling ++ ">"

/-- The class with this spelling; case and every character count. -/
def ofSpelling? (s : String) : Option Builtin :=
  all.find? fun b => b.spelling == s

/-- No two classes have the same spelling, and no other text spells one. -/
theorem ofSpelling?_eq_some_iff {s : String} {b : Builtin} : ofSpelling? s = some b ↔ b.spelling = s := by
  constructor
  · intro h
    simpa using List.find?_some h
  · rintro rfl
    cases b <;> decide

/-- The ASCII punctuation marks are the four runs of visible characters around the digits and the letters. -/
def isPunctuation (c : Char) : Bool :=
  Text.inRanges [⟨0x21, 0x2F⟩, ⟨0x3A, 0x40⟩, ⟨0x5B, 0x60⟩, ⟨0x7B, 0x7E⟩] c

/-- Tells whether a class has a character. -/
def contains : Builtin → Char → Bool
  | digit, c => c.isDigit
  | letter, c => c.isAlpha
  | uppercaseLetter, c => c.isUpper
  | lowercaseLetter, c => c.isLower
  | endOfLine, c => c == '\n' || c == '\r'
  | word, c => Text.isAlphanumeric c || c == '_'
  | whitespace, c => Text.isBlank c
  | symbol, c => isPunctuation c || c == ' '

end Builtin

/-- A text that was looked up among the builtin spellings and is none of them. -/
structure NoSuchBuiltin where
  spelling : String
  deriving DecidableEq, Repr

/-- The report on a text that spells no builtin class. -/
def NoSuchBuiltin.message (u : NoSuchBuiltin) : String :=
  "not a builtin: " ++ u.spelling

/-- The class with this spelling, or the report that there is none. -/
def Builtin.ofSpelling (s : String) : Except NoSuchBuiltin Builtin :=
  match ofSpelling? s with
  | some b => .ok b
  | none => .error ⟨s⟩

end GrammarText
