import GrammarText.Grouping
import GrammarText.Logged
import GrammarText.Settings
import Std.Data.ExtTreeMap

/-!
# Rule tables

A rule table holds rules in order of declaration, each name once, and an index from names to places that makes
look-up by name direct.  It is built from the tokens of a grammar: the tokens are grouped into definitions, and the
definitions are added one by one.  A name that is there already is refused or merged, as the settings say.

* `RuleTable.add` adds one definition and `RuleTable.building` a whole list of tokens, with its log;
  `RuleTable.ofTokens` is what the building comes to;
* `get?`, `contains`, `names`, `size`, `isEmpty` look into a table;
* `undefinedNames` are the names that rules refer to and that no rule defines;
* `render` prints the rules in grammar notation, one a line.
-/

namespace GrammarText

/-- Why tokens make no rule table. -/
inductive TableError where
  /-- The tokens cannot be grouped into definitions. -/
  | grouping (error : GroupingError)
  /-- A name is defined again where that is refused. -/
  | redefinition (grammar : String) (name : String)
  deriving DecidableEq, Repr

/-- The report on tokens that make no rule table. -/
def TableError.message : TableError → String
  | grouping e => e.message
  | redefinition grammar n => "Specification [" ++ grammar ++ "] redefines rule <" ++ n ++ ">"

/-- Rules in order of declaration, with the place of each name. -/
structure RuleTable where
  rules : Array Rule
  index : Std.ExtTreeMap String Nat
  deriving DecidableEq

namespace RuleTable

/-- The table without rules. -/
def empty : RuleTable :=
  ⟨#[], ∅⟩

instance : EmptyCollection RuleTable := ⟨empty⟩

/-! ## Looking into a table -/

/-- The place of the rule with this name. -/
def position? (t : RuleTable) (name : String) : Option Nat :=
  t.index[name]?

/-- The rule with this name. -/
def get? (t : RuleTable) (name : String) : Option Rule :=
  (t.position? name).bind fun i => t.rules[i]?

/-- Tells whether a rule has this name. -/
def contains (t : RuleTable) (name : String) : Bool :=
  (t.position? name).isSome

/-- The names of the rules, in order of declaration. -/
def names (t : RuleTable) : List String :=
  t.rules.toList.map Rule.name

/-- The number of rules. -/
def size (t : RuleTable) : Nat :=
  t.rules.size

/-- Tells whether there is no rule. -/
def isEmpty (t : RuleTable) : Bool :=
  t.rules.isEmpty

/-- The names that rules refer to and that no rule has, each once, in order of first reference. -/
def undefinedNames (t : RuleTable) : List String :=
  ((t.rules.toList.flatMap Rule.references).filter fun n => !t.contains n).eraseDups

/-! ## Printing -/

/-- The characters of a table: each rule in grammar notation and a line feed after it. -/
def chars (t : RuleTable) : List Char :=
  t.rules.toList.flatMap fun r => r.chars ++ ['\n']

/-- A table in grammar notation, one rule a line. -/
def render (t : RuleTable) : String :=
  String.ofList t.chars

/-! ## Building -/

/-- The table with one more rule at its end. -/
def push (t : RuleTable) (r : Rule) : RuleTable :=
  ⟨t.rules.push r, t.index.insert r.name t.rules.size⟩

/-- The table with more alternatives for the rule at a place. -/
def extend (t : RuleTable) (i : Nat) (more : List (List Term)) : RuleTable :=
  ⟨t.rules.modify i fun r => ⟨r.name, r.alternatives ++ more⟩, t.index⟩

/-- Adds a definition; the settings say what happens to a name that is there already. -/
def add (settings : Settings) (t : RuleTable) (r : Rule) : Attempt TableError RuleTable :=
  match t.position? r.name with
  | none => return t.push r
  | some i =>
    match settings.repeats with
    | .refused => throw (.redefinition settings.grammar r.name)
    | .merged => do
      Attempt.log (.definitionMerged settings.grammar r.name)
      return t.extend i r.alternatives

/-- Builds a table from tokens, with the log of the building. -/
def building (settings : Settings) (tokens : List Token) : Attempt TableError RuleTable := do
  let rules ← (Attempt.ofExcept (Grouping.rules tokens)).mapError .grouping
  let t ← rules.foldlM (add settings) empty
  Attempt.log (.tableBuilt settings.grammar t.size)
  return t

/-- The table that tokens make, or why they make none. -/
def ofTokens (settings : Settings) (tokens : List Token) : Except TableError RuleTable :=
  (building settings tokens).result

end RuleTable

end GrammarText
