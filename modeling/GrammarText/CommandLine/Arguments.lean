/-!
# The arguments of the program

The program is called as

    [-v] tokens PATH [--name NAME] [--keep-comments] [-v]
    [-v] rules  PATH [--name NAME] [--merge-duplicates] [-v]
    [-v] help [tokens | rules | help]
    --version

with options and path after the command in any order.  An option may be given once at each of its places.  A word
that starts with a hyphen is an option, a lone hyphen is not, and after `--` every word is a path; the value
of `--name` is the next word or follows an equals sign.  Exactly one path is needed, and it must not be empty.

The arguments are read from left to right.  `-h` and `--help`, before a command or after it, ask for help at once, and
so do `-V` and `--version` before a command for the version: what is wrong before them counts, and what follows them does
not.

* `Request` is what the arguments ask for;
* `Request.ofArguments?` reads the arguments; it gives nothing on a usage error.
-/

namespace GrammarText.CommandLine

/-! ## What can be asked for -/

/-- The two commands. -/
inductive Command where
  /-- List the tokens of a grammar. -/
  | tokens
  /-- Print the rule table of a grammar. -/
  | rules
  deriving DecidableEq, Repr

/-- The command with this word. -/
def Command.ofWord? : String → Option Command
  | "tokens" => some .tokens
  | "rules" => some .rules
  | _ => none

/-- The option that only this command has. -/
def Command.ownFlag : Command → String
  | tokens => "--keep-comments"
  | rules => "--merge-duplicates"

/-- A command with all that it was given. -/
structure Invocation where
  command : Command
  /-- The path of the file; a system's path that is no Unicode text is left out. -/
  path : String
  /-- The name for the grammar, if one was given. -/
  name : Option String
  /-- Whether the command's own option was given. -/
  ownFlag : Bool
  /-- Whether more of the log was asked for. -/
  verbose : Bool
  deriving DecidableEq, Repr

/-- What help can be about. -/
inductive Topic where
  /-- The program as a whole. -/
  | program
  /-- One of its commands. -/
  | command (command : Command)
  /-- The asking for help. -/
  | help
  deriving DecidableEq, Repr

/-- The topic of a request for help that these words follow, if there is such a topic. -/
def Topic.ofWords? : List String → Option Topic
  | [] => some .program
  | ["help"] => some .help
  | [word] => (Command.ofWord? word).map .command
  | _ => none

/-- The text of the help on a topic. -/
def Topic.text : Topic → String
  | program =>
    "Lex and group BNF grammar files\n\nUsage: bnfc [OPTIONS] <COMMAND>\n\nCommands:\n" ++
    "  tokens  Print the token stream, one token per line\n" ++
    "  rules   Print the grouped rule table\n" ++
    "  help    Print this message or the help of the given subcommand(s)\n\nOptions:\n" ++
    "  -v, --verbose  Log at debug level unless RUST_LOG says otherwise\n" ++
    "  -h, --help     Print help\n" ++
    "  -V, --version  Print version\n"
  | command .tokens =>
    "Print the token stream, one token per line\n\nUsage: bnfc tokens [OPTIONS] <PATH>\n\n" ++
    "Arguments:\n  <PATH>  \n\nOptions:\n" ++
    "      --name <NAME>    Grammar name used in diagnostics. Defaults to the file name\n" ++
    "  -v, --verbose        Log at debug level unless RUST_LOG says otherwise\n" ++
    "      --keep-comments  \n" ++
    "  -h, --help           Print help\n"
  | command .rules =>
    "Print the grouped rule table\n\nUsage: bnfc rules [OPTIONS] <PATH>\n\n" ++
    "Arguments:\n  <PATH>  \n\nOptions:\n" ++
    "      --name <NAME>       \n" ++
    "  -v, --verbose           Log at debug level unless RUST_LOG says otherwise\n" ++
    "      --merge-duplicates  Combine repeated definitions of a rule instead of failing\n" ++
    "  -h, --help              Print help\n"
  | help =>
    "Print this message or the help of the given subcommand(s)\n\nUsage: bnfc help [COMMAND]...\n\n" ++
    "Arguments:\n  [COMMAND]...  Print help for the subcommand(s)\n"

/-- What the arguments ask for. -/
inductive Request where
  /-- Give help. -/
  | help (topic : Topic)
  /-- Tell the version. -/
  | version
  /-- Run a command. -/
  | invoke (invocation : Invocation)
  deriving DecidableEq, Repr

/-! ## One-letter options -/

/-- What a run of one-letter options comes to. -/
inductive Letters where
  /-- Something is asked for at once, whatever follows. -/
  | asked (request : Request)
  /-- All letters were read, with or without the one for more of the log, here or before. -/
  | verbose (given : Bool)

/-- Reads one-letter options after a command, or before any; `given` tells whether more of the log was asked for there. -/
def Letters.of? (after : Option Command) (given : Bool) : List Char → Option Letters
  | [] => some (.verbose given)
  | 'v' :: cs => if given then none else Letters.of? after true cs
  | 'h' :: _ => some (.asked (.help (after.elim .program .command)))
  | 'V' :: _ => if after.isNone then some (.asked .version) else none
  | _ => none

/-! ## After the command -/

/-- What a word after the command is. -/
inductive Word where
  | help
  | verbose
  | ownFlag
  /-- The option that takes its value from the next word. -/
  | name
  /-- The same option with its value. -/
  | nameValue (value : String)
  | endOfOptions
  /-- A word that is no option. -/
  | plain
  /-- What follows the hyphen of any other word. -/
  | letters (letters : List Char)
  deriving DecidableEq, Repr

/-- Tells whether a word is no option: it does not start with a hyphen, or is one. -/
def isPlain (word : String) : Bool :=
  word == "-" || word.toList.head? != some '-'

/-- What a word after a command is. -/
def Word.of (command : Command) (word : String) : Word :=
  if isPlain word then .plain
  else if word = "--help" then .help
  else if word = "--verbose" then .verbose
  else if word = command.ownFlag then .ownFlag
  else if word = "--name" then .name
  else if word = "--" then .endOfOptions
  else
    match "--name=".toList.isPrefixOf? word.toList with
    | some value => .nameValue (String.ofList value)
    | none => .letters word.toList.tail

/-- What was gathered from the words after the command. -/
structure Gathered where
  path : Option String := none
  name : Option String := none
  ownFlag : Bool := false
  verbose : Bool := false

namespace Gathered

/-- Takes a path, if it is the first and not empty. -/
def withPath (g : Gathered) (path : String) : Option Gathered :=
  if path = "" ∨ g.path.isSome then none else some { g with path := some path }

/-- Takes a name, if it is the first. -/
def withName (g : Gathered) (name : String) : Option Gathered :=
  if g.name.isSome then none else some { g with name := some name }

/-- Takes the command's own option, if it is the first time. -/
def withOwnFlag (g : Gathered) : Option Gathered :=
  if g.ownFlag then none else some { g with ownFlag := true }

/-- Takes the option for more of the log, if it is the first time. -/
def withVerbose (g : Gathered) : Option Gathered :=
  if g.verbose then none else some { g with verbose := true }

/-- The invocation of a command with what was gathered, once there is a path; `verbose` tells of an option before the
command. -/
def invocation? (g : Gathered) (command : Command) (verbose : Bool) : Option Invocation :=
  g.path.map fun path => ⟨command, path, g.name, g.ownFlag, verbose || g.verbose⟩

/-- What the words after a command ask for, with what was gathered from the words before them. -/
def gather (command : Command) (verbose : Bool) (g : Gathered) : List String → Option Request
  | [] => (g.invocation? command verbose).map .invoke
  | word :: rest =>
    match Word.of command word with
    | .plain => do gather command verbose (← g.withPath word) rest
    | .help => some (.help (.command command))
    | .verbose => do gather command verbose (← g.withVerbose) rest
    | .letters cs =>
      match Letters.of? (some command) g.verbose cs with
      | none => none
      | some (.asked request) => some request
      | some (.verbose given) => gather command verbose { g with verbose := given } rest
    | .ownFlag => do gather command verbose (← g.withOwnFlag) rest
    | .nameValue value => do gather command verbose (← g.withName value) rest
    | .name =>
      match rest with
      | [] => none
      | value :: rest => if isPlain value then do gather command verbose (← g.withName value) rest else none
    | .endOfOptions => do
      let all ← rest.foldlM withPath g
      return .invoke (← all.invocation? command verbose)

end Gathered

/-! ## Before the command -/

/-- What the arguments ask for, when `verbose` tells of the options before them. -/
def Request.ofWords? (verbose : Bool) : List String → Option Request
  | [] => none
  | word :: rest =>
    match Command.ofWord? word with
    | some command => Gathered.gather command verbose {} rest
    | none =>
      match word with
      | "help" => (Topic.ofWords? rest).map .help
      | "--help" => some (.help .program)
      | "--version" => some .version
      | "--verbose" => if verbose then none else Request.ofWords? true rest
      | _ =>
        match word.toList with
        | '-' :: c :: cs =>
          match Letters.of? none verbose (c :: cs) with
          | none => none
          | some (.asked request) => some request
          | some (.verbose given) => Request.ofWords? given rest
        | _ => none

/-- What the arguments ask for, or nothing on a usage error. -/
def Request.ofArguments? (arguments : List String) : Option Request :=
  Request.ofWords? false arguments

end GrammarText.CommandLine
