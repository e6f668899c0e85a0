import GrammarText.CommandLine.Arguments
import GrammarText.CommandLine.Performance
import GrammarText.Reading
import GrammarText.File

/-!
# Running a command

A run ends with a status, a text for the standard output and a text for the standard error.  A command writes its
output line by line while it runs, a token or a rule on each, and tells its log what it does; on the standard error
stand the events that the log takes, and after them the report on a failure.

* `Invocation.perform` is what a command does, from what its file gave, and `Invocation.working` what that comes to;
* `Outcome.ofPerformance` makes the outcome of a run out of that, under a threshold for the log;
* `run` is the whole program, from its arguments and its environment.
-/

namespace GrammarText.CommandLine

/-! ## The work of a command -/

/-- Why a command fails. -/
inductive Failure where
  /-- The lines of the file at this path cannot be read. -/
  | unreadable (path : String) (failure : ReadFailure)
  /-- The file's grammar is faulty. -/
  | grammar (error : GrammarError)
  deriving DecidableEq, Repr

/-- The report on a failed command. -/
def Failure.report : Failure → String
  | unreadable path f =>
    "Error: read " ++ path ++ "\n\nCaused by:\n    0: " ++ f.report ++ "\n    1: " ++ f.message ++ "\n"
  | grammar e => "Error: " ++ e.message ++ "\n"

/-- The last part of a path that names a file; the parts between slashes that are empty or a dot do not count. -/
def fileName? (path : String) : Option String :=
  match ((path.toList.splitOn '/').filter fun part => part ≠ [] ∧ part ≠ ['.']).getLast? with
  | some part => if part = ['.', '.'] then none else some (String.ofList part)
  | none => none

namespace Invocation

/-- The grammar's name: the one given, or the name of the file. -/
def grammarName (i : Invocation) : String :=
  i.name.getD ((fileName? i.path).getD unnamedGrammar)

/-- The settings under which a command reads its file. -/
def settings (i : Invocation) : Settings :=
  match i.command with
  | .tokens => { grammar := i.grammarName, keepComments := i.ownFlag }
  | .rules => { grammar := i.grammarName, repeats := if i.ownFlag then .merged else .refused }

end Invocation

/-- The line of a listing that shows a token: its kind, a tab and the token as a grammar writes it. -/
def listingLine (t : Token) : List Char :=
  t.kind.label.toList ++ '\t' :: t.chars ++ ['\n']

/-- The listing of tokens, one a line. -/
def listing (ts : List Token) : String :=
  String.ofList (ts.flatMap listingLine)

/-- Reads the document of an invocation from what its file gave. -/
def Invocation.document (i : Invocation) (contents : Except ReadFailure ByteArray) :
    Attempt Failure Document := do
  let lines ← (Attempt.ofExcept (linesOfFile contents)).mapError (.unreadable i.path)
  return Document.ofSource i.settings (.lines lines)

/-- Lists a document's tokens, one a line. -/
def listTokens (d : Document) : Performance Failure Unit := do
  Performance.log (.listingTokens d.settings.grammar d.lines.length d.settings.keepComments)
  let tokens ← Performance.ofAttempt (d.lexing.mapError fun v => .grammar (.violation v))
  Performance.writeAll (tokens.map fun t => String.ofList (listingLine t))

/-- Prints the rules of a document, one a line; names without a definition go to the log. -/
def printRules (path : String) (d : Document) : Performance Failure Unit := do
  let t ← Performance.ofAttempt (d.reading.mapError .grammar)
  Performance.log (.rulesFound t.size path)
  t.undefinedNames.forM fun name => Performance.log (.neverDefined name)
  Performance.writeAll (t.rules.toList.map fun r => String.ofList (r.chars ++ ['\n']))

/-- What a command does, from what its file gave. -/
def Invocation.perform (i : Invocation) (contents : Except ReadFailure ByteArray) :
    Performance Failure Unit := do
  let d ← Performance.ofAttempt (i.document contents)
  match i.command with
  | .tokens => listTokens d
  | .rules => printRules i.path d

/-- What the work of a command comes to: the text of its output, with its log. -/
def Invocation.working (i : Invocation) (contents : Except ReadFailure ByteArray) :
    Attempt Failure String :=
  (i.perform contents).work

/-! ## The outcome of a run -/

/-- How a run of the program ends. -/
structure Outcome where
  status : Nat
  output : String
  errors : String
  deriving DecidableEq, Repr

namespace Outcome

/-- The outcome of what a command does, under a threshold for the log.  Whatever was written stands in the output, also
where the command failed later. -/
def ofPerformance (threshold : Threshold) (p : Performance Failure Unit) : Outcome :=
  let logged := String.join ((p.events.filter fun e => threshold.admits e.level).map Event.line)
  match p.result with
  | .ok _ => ⟨0, p.output, logged⟩
  | .error failure => ⟨1, p.output, logged ++ failure.report⟩

/-- The outcome when help is asked for. -/
def help (topic : Topic) : Outcome :=
  ⟨0, topic.text, ""⟩

/-- The outcome when the version is asked for. -/
def version : Outcome :=
  ⟨0, "bnfc 0.1.0\n", ""⟩

/-- The outcome of a usage error. -/
def usageError : Outcome :=
  ⟨2, "", "usage: bnfc [-v] tokens|rules PATH [--name NAME] [--keep-comments|--merge-duplicates]\n"⟩

end Outcome

/-- What the program finds around it. -/
structure Environment where
  /-- The threshold that the environment asks for; it goes before the arguments. -/
  threshold : Option Threshold
  /-- What reading the file at a path gives. -/
  contents : String → Except ReadFailure ByteArray

/-- The threshold of an invocation that the environment does not decide. -/
def Invocation.threshold (i : Invocation) : Threshold :=
  .upTo (if i.verbose then .debug else .warn)

/-- The program: from its arguments to its outcome. -/
def run (env : Environment) (arguments : List String) : Outcome :=
  match Request.ofArguments? arguments with
  | none => .usageError
  | some (.help topic) => .help topic
  | some .version => .version
  | some (.invoke i) =>
    .ofPerformance (env.threshold.getD i.threshold) (i.perform (env.contents i.path))

end GrammarText.CommandLine
