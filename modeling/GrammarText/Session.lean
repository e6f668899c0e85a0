import GrammarText.Reading

/-!
# Sessions

A session keeps what somebody works on: the settings, a document once one is loaded, a list of tokens to edit and the
last table built.  Each step of a session answers with a reply and may change the state.

* `Session.step` is one step; a step that fails replies with its failure and leaves the state as it was;
* `Session.run` takes steps in order, each from the state that the one before it left.

A document keeps the settings it was loaded under, whatever happens to the session's settings later.
-/

namespace GrammarText

/-- The state of a session. -/
structure Session where
  settings : Settings
  document : Option Document
  tokens : List Token
  table : RuleTable

/-- The state in which a session starts. -/
def Session.initial : Session :=
  ⟨{}, none, [], RuleTable.empty⟩

/-- One request to a session. -/
inductive Step where
  /-- Replaces the settings. -/
  | configure (settings : Settings)
  /-- Changes whether comments are kept. -/
  | keepComments (keep : Bool)
  /-- Changes what becomes of repeated definitions. -/
  | repeats (repeats : Repeats)
  /-- Makes a document under the settings of the moment. -/
  | load (source : Source)
  /-- Lexes the document, to the end of the tokens held or in their place. -/
  | lex (append : Bool)
  /-- Adds tokens at the end. -/
  | push (tokens : List Token)
  /-- Puts a token before a place. -/
  | insert (place : Nat) (token : Token)
  /-- Takes the token at a place away. -/
  | remove (place : Nat)
  /-- Keeps so many tokens. -/
  | truncate (count : Nat)
  /-- Groups the tokens into rules. -/
  | group
  /-- Builds a table from the tokens and keeps it. -/
  | build
  /-- Looks a rule up in the table. -/
  | get (name : String)
  /-- Asks whether the table has a rule. -/
  | contains (name : String)
  /-- Asks for the table. -/
  | table
  /-- Prints the table and reads it back. -/
  | reread

/-- Why a step failed. -/
inductive StepFailure where
  | violation (violation : Violation)
  | grouping (error : GroupingError)
  | table (error : TableError)
  | grammar (error : GrammarError)
  /-- There is no document to lex. -/
  | noDocument
  /-- There is no token at the place. -/
  | outOfRange

/-- What a step answers. -/
inductive Reply where
  | settings (settings : Settings)
  | document (document : Document)
  | tokens (tokens : List Token)
  | token (token : Token)
  | rules (rules : List Rule)
  | table (table : RuleTable)
  | rule (rule : Option Rule)
  | truth (holds : Bool)
  | reread (reread : Reread)
  | failed (failure : StepFailure)

namespace Session

/-- A reply with the state that follows it. -/
abbrev Turn := Reply × Session

/-- Replies with the settings and goes on with them. -/
def withSettings (s : Session) (settings : Settings) : Turn :=
  (.settings settings, { s with settings := settings })

/-- Replies with the tokens and goes on with them. -/
def withTokens (s : Session) (tokens : List Token) : Turn :=
  (.tokens tokens, { s with tokens := tokens })

/-- The turn after a computation: what its value says, or a failure that changes nothing. -/
def settle {ε α : Type} (s : Session) (onError : ε → StepFailure) (onValue : α → Turn) (x : Attempt ε α) :
    Logged Turn :=
  ⟨match x.result with
    | .ok a => onValue a
    | .error e => (.failed (onError e), s), x.events⟩

/-- One step of a session. -/
def step (s : Session) : Step → Logged Turn
  | .configure settings => pure (s.withSettings settings)
  | .keepComments keep => pure (s.withSettings { s.settings with keepComments := keep })
  | .repeats repeats => pure (s.withSettings { s.settings with repeats := repeats })
  | .load source =>
    let d := Document.ofSource s.settings source
    pure (.document d, { s with document := some d })
  | .lex append =>
    match s.document with
    | none => pure (.failed .noDocument, s)
    | some d =>
      s.settle .violation (fun ts => s.withTokens (if append then s.tokens ++ ts else ts)) d.lexing
  | .push ts => pure (s.withTokens (s.tokens ++ ts))
  | .insert place t =>
    if place ≤ s.tokens.length then pure (s.withTokens (s.tokens.insertIdx place t))
    else pure (.failed .outOfRange, s)
  | .remove place =>
    match s.tokens[place]? with
    | some t => pure (.token t, { s with tokens := s.tokens.eraseIdx place })
    | none => pure (.failed .outOfRange, s)
  | .truncate count => pure (s.withTokens (s.tokens.take count))
  | .group =>
    s.settle .grouping (fun rules => (.rules rules, s)) (Attempt.ofExcept (Grouping.rules s.tokens))
  | .build =>
    s.settle .table (fun t => (.table t, { s with table := t })) (RuleTable.building s.settings s.tokens)
  | .get name => pure (.rule (s.table.get? name), s)
  | .contains name => pure (.truth (s.table.contains name), s)
  | .table => pure (.table s.table, s)
  | .reread => s.settle .grammar (fun r => (.reread r, s)) s.table.reread

/-- The replies to steps taken in order from a state. -/
def run (s : Session) : List Step → Logged (List Reply)
  | [] => pure []
  | request :: requests => do
    let (reply, after) ← s.step request
    let replies ← run after requests
    return reply :: replies

end Session

end GrammarText
