import GrammarText.Line.Shape

/-!
# The log

Lexing a grammar, building its table and running the program report what they do as a list of events.  An event has a
level, a part of the program it comes from and a message.

* `Level` orders events by gravity, and a `Threshold` admits those that are grave enough;
* `Threshold.ofSetting?` reads the threshold that the environment asks for;
* `Event` is the type of events, with `Event.level`, `Event.origin` and `Event.message`;
* `Event.line` is the line of a log on which an event is written, but for the time at its front, which is left out; the
  further lines of a message that has line feeds are indented.
-/

namespace GrammarText

/-! ## Levels -/

/-- How grave an event is, the gravest first. -/
inductive Level where
  | error
  | warn
  | info
  | debug
  | trace
  deriving DecidableEq, Repr

namespace Level

/-- The place of a level, the gravest being 0. -/
def rank : Level → Nat
  | error => 0
  | warn => 1
  | info => 2
  | debug => 3
  | trace => 4

/-- The word for a level. -/
def label : Level → String
  | error => "ERROR"
  | warn => "WARN"
  | info => "INFO"
  | debug => "DEBUG"
  | trace => "TRACE"

/-- The word for a level in a column of five. -/
def column (l : Level) : String :=
  l.label.pushn ' ' (5 - l.label.length)

end Level

/-- Which events a log takes: none, or those at least as grave as a level. -/
inductive Threshold where
  | off
  | upTo (level : Level)
  deriving DecidableEq, Repr

namespace Threshold

/-- Tells whether a log with this threshold takes events of a level. -/
def admits : Threshold → Level → Bool
  | off, _ => false
  | upTo least, l => decide (l.rank ≤ least.rank)

/-- The threshold that a word asks for, in letters of either case. -/
def ofWord? (word : String) : Option Threshold :=
  match word.toLower with
  | "off" => some off
  | "error" => some (upTo .error)
  | "warn" => some (upTo .warn)
  | "info" => some (upTo .info)
  | "debug" => some (upTo .debug)
  | "trace" => some (upTo .trace)
  | _ => none

/-- The words that a setting lists between commas, without the blank characters around them. -/
def listed (setting : String) : List String :=
  (((setting.toList.splitOn ',').map Text.trim).filter fun word => !word.isEmpty).map String.ofList

/-- The threshold that a setting of the environment asks for: that of the last word it lists, or errors only if it lists
none.  A setting that lists anything else than such words, for instance a threshold for one part of the program or a
filter on the messages, is left out: it counts as if nothing were set. -/
def ofSetting? (setting : String) : Option Threshold :=
  ((listed setting).mapM ofWord?).map fun thresholds => thresholds.getLast?.getD (upTo .error)

end Threshold

/-! ## Events -/

/-- The part of the program that an event comes from. -/
inductive Origin where
  | lexer
  | rules
  | program
  deriving DecidableEq, Repr

/-- The name under which a part of the program writes to the log. -/
def Origin.label : Origin → String
  | lexer => "bnf::lexer"
  | rules => "bnf::rules"
  | program => "bnfc"

/-- Something worth a line in the log. -/
inductive Event where
  /-- A grammar with so many lines is about to be lexed. -/
  | lexingStarted (grammar : String) (lines : Nat)
  /-- The line with this number, counted from 0, is of this kind. -/
  | lineSeen (line : Nat) (kind : Line.Kind)
  /-- A grammar was lexed into so many tokens. -/
  | lexingFinished (grammar : String) (tokens : Nat)
  /-- A repeated definition of a name adds to the first one. -/
  | definitionMerged (grammar : String) (name : String)
  /-- A table with so many rules was built. -/
  | tableBuilt (grammar : String) (rules : Nat)
  /-- The program is about to list the tokens of a grammar. -/
  | listingTokens (grammar : String) (lines : Nat) (keepComments : Bool)
  /-- The program found so many rules in a file. -/
  | rulesFound (rules : Nat) (path : String)
  /-- A name is referred to and has no definition. -/
  | neverDefined (name : String)
  deriving DecidableEq, Repr

namespace Event

/-- The level of an event. -/
def level : Event → Level
  | lexingStarted .. => .debug
  | lineSeen .. => .trace
  | lexingFinished .. => .debug
  | definitionMerged .. => .warn
  | tableBuilt .. => .debug
  | listingTokens .. => .info
  | rulesFound .. => .info
  | neverDefined .. => .warn

/-- The part of the program an event comes from. -/
def origin : Event → Origin
  | lexingStarted .. => .lexer
  | lineSeen .. => .lexer
  | lexingFinished .. => .lexer
  | definitionMerged .. => .rules
  | tableBuilt .. => .rules
  | listingTokens .. => .program
  | rulesFound .. => .program
  | neverDefined .. => .program

/-- The text of an event. -/
def message : Event → String
  | lexingStarted grammar lines =>
    "lexing grammar [" ++ grammar ++ "] with " ++ toString lines ++ " lines"
  | lineSeen line kind => "line " ++ toString line ++ ": " ++ kind.label
  | lexingFinished grammar tokens =>
    "lexed grammar [" ++ grammar ++ "] into " ++ toString tokens ++ " tokens"
  | definitionMerged grammar name =>
    "grammar [" ++ grammar ++ "]: merging repeated definition of <" ++ name ++ ">"
  | tableBuilt grammar rules =>
    "built rule table for [" ++ grammar ++ "] with " ++ toString rules ++ " rules"
  | listingTokens grammar lines keepComments =>
    "lexing [" ++ grammar ++ "]: " ++ toString lines ++ " lines, keep comments: " ++ toString keepComments
  | rulesFound rules path => toString rules ++ " rules in " ++ path
  | neverDefined name => "<" ++ name ++ "> is referenced but never defined"

/-- A message with every line but its first indented by four. -/
def indented (message : String) : String :=
  String.ofList (message.toList.flatMap fun c =>
    if c = '\n' then ['\n', ' ', ' ', ' ', ' '] else [c])

/-- The line of the log on which an event is written, without the time at which it was. -/
def line (e : Event) : String :=
  "[" ++ e.level.column ++ " " ++ e.origin.label ++ "] " ++ indented e.message ++ "\n"

end Event

end GrammarText
