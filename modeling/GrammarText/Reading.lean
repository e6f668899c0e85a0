import GrammarText.Lexing
import GrammarText.RuleTable

/-!
# From text to rule table

Reading a grammar is lexing its lines and building a table from the tokens, both under the same settings.

* `Document.reading` does both, with the log of both, and `Document.table` is what it comes to;
* `RuleTable.ofSource` reads a source under a name and otherwise the usual settings;
* `RuleTable.ofText` reads a text under the usual settings altogether, and so is the way back from
  `RuleTable.render`.
-/

namespace GrammarText

/-- Why a grammar has no rule table. -/
inductive GrammarError where
  | violation (violation : Violation)
  | table (error : TableError)
  deriving DecidableEq, Repr

/-- The report on a grammar that has no rule table. -/
def GrammarError.message : GrammarError → String
  | violation v => v.message
  | table e => e.message

/-- The rule table of a document, with the log of its lexing and building. -/
def Document.reading (d : Document) : Attempt GrammarError RuleTable := do
  let tokens ← d.lexing.mapError .violation
  (RuleTable.building d.settings tokens).mapError .table

/-- The rule table of a document, or why it has none. -/
def Document.table (d : Document) : Except GrammarError RuleTable :=
  d.reading.result

/-- The rule table of a source under a name and otherwise the usual settings. -/
def RuleTable.ofSource (name : String) (source : Source) : Attempt GrammarError RuleTable :=
  (Document.ofSource { grammar := name } source).reading

/-- The rule table of a text under the usual settings. -/
def RuleTable.ofText (text : String) : Attempt GrammarError RuleTable :=
  RuleTable.ofSource unnamedGrammar (.text text)

/-! ## Printing and reading back -/

/-- What became of a table that was printed and read back. -/
structure Reread where
  /-- The table is the same as before. -/
  sameTable : Bool
  /-- The table prints the same as before. -/
  sameText : Bool
  /-- The number of rules it has now. -/
  size : Nat
  deriving DecidableEq, Repr

/-- Prints a table, reads the text back and compares. -/
def RuleTable.reread (t : RuleTable) : Attempt GrammarError Reread := do
  let again ← RuleTable.ofText t.render
  return ⟨again == t, again.render == t.render, again.size⟩

end GrammarText
