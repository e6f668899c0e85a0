/-!
# Quoted text

A grammar writes a piece of text between two double quotes or between two single quotes, and nothing inside is
escaped, so a quoted text holds any character but its own delimiter.  `quoteFor` picks the delimiter for
printing: single quotes where the text holds a double quote and no single one, double quotes everywhere else.
A text with both quotes has no quoted form; it is printed between double quotes all the same.
-/

namespace GrammarText.Text

/-- The character `"`. -/
def doubleQuote : Char := '"'

/-- The character `'`. -/
def singleQuote : Char := '\''

/-- Tells whether a character opens a quoted text. -/
def isQuote (c : Char) : Bool :=
  c == singleQuote || c == doubleQuote

/-- The delimiter in which a text is printed. -/
def quoteFor (text : List Char) : Char :=
  if doubleQuote ∈ text ∧ singleQuote ∉ text then singleQuote else doubleQuote

/-- The text between the delimiters chosen for it. -/
def quoted (text : String) : String :=
  let q := (quoteFor text.toList).toString
  q ++ text ++ q

/-- Tells whether a text holds both quote characters, so that no quoting can carry it. -/
def holdsBothQuotes (text : List Char) : Bool :=
  text.contains doubleQuote && text.contains singleQuote

end GrammarText.Text
