import GrammarText.Settings
import GrammarText.Text.Lines

/-!
# Documents

A document is a grammar ready to be lexed: its lines and the settings to lex it under.  The lines come from a *source*,
which is one block of text or a list of lines that are cut already; both are brought to trimmed lines.
-/

namespace GrammarText

/-- The forms in which a grammar is handed in. -/
inductive Source where
  /-- One block of text, to be cut into lines. -/
  | text (text : String)
  /-- Lines that are cut already. -/
  | lines (lines : List String)
  deriving Repr

/-- The trimmed lines of a source. -/
def Source.trimmedLines : Source → List String
  | text s => Text.trimmedLines s
  | lines ls => Text.trimEach ls

/-- A grammar's lines with the settings under which it is lexed. -/
structure Document where
  settings : Settings
  lines : List String
  deriving DecidableEq, Repr

/-- The document that a source makes under some settings. -/
def Document.ofSource (settings : Settings) (source : Source) : Document :=
  ⟨settings, source.trimmedLines⟩

end GrammarText
