import GrammarText.Line.Body

/-!
# Rule lines

A rule line is `<name> ::= body`.  After the opening bracket comes the name up to the first closing bracket, then any
number of blank characters, then `::=` and the body.

* `head` reads the name and gives the body that follows the assignment;
* `definition` is the list of tokens of the whole line: the name, the assignment, the tokens of the body and the
  end of the line.

The name that a line defines is always a name token, also where it spells a builtin class.
-/

namespace GrammarText.Line

/-- The name that a rule line defines and its body, from the characters after the opening bracket. -/
def head (afterBracket : List Char) : Except Flaw (String × List Char) :=
  match Text.cutAt '>' afterBracket with
  | none => .error ⟨.missingBracket, String.ofList ('<' :: afterBracket)⟩
  | some (name, rest) =>
    if isRuleName name then
      match Text.trimStart rest with
      | ':' :: ':' :: '=' :: body => .ok (String.ofList name, body)
      | _ => .error ⟨.missingAssignment, String.ofList (Text.trim rest)⟩
    else .error ⟨.invalidName, String.ofList name⟩

/-- The tokens of a rule line, from the characters after the opening bracket. -/
def definition (afterBracket : List Char) : Except Flaw (List Token) := do
  let (name, rest) ← head afterBracket
  let tokens ← body rest
  return .name name :: .assignment :: (tokens ++ [.endOfLine])

end GrammarText.Line
