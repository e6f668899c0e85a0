import GrammarText.Rule

/-!
# Grouping tokens into rules

A list of tokens is grouped into rules by the markers.  Between rules stand ends of line and comments; a rule is a
name, the assignment, alternatives with a separator between two of them, and an end of line.  Every alternative has
a term.

* `leadingTerms` splits a list of tokens after the terms it starts with;
* `alternatives` and `body` read alternatives up to the end of line that ends the rule;
* `rules` gives one rule for each definition, in order, with repeated names repeated.

The first token at which the list stops being the beginning of a grouped one decides the error, and a list that just
stops too early is `unterminated`.
-/

namespace GrammarText

/-- Why a list of tokens cannot be grouped into rules. -/
inductive GroupingError where
  /-- The end of line follows the assignment. -/
  | emptyRule (name : String)
  /-- A separator has no term before it or none after it. -/
  | emptyAlternative (name : String)
  /-- A token that cannot stand where it does. -/
  | unexpectedToken (token : Token)
  /-- The tokens end inside a rule. -/
  | unterminated (name : String)
  deriving DecidableEq, Repr

/-- The report on tokens that cannot be grouped. -/
def GroupingError.message : GroupingError → String
  | emptyRule n => "rule <" ++ n ++ "> has no alternatives"
  | emptyAlternative n => "rule <" ++ n ++ "> has an empty alternative"
  | unexpectedToken t => "unexpected token " ++ t.render
  | unterminated n => "rule <" ++ n ++ "> is missing its end of line"

namespace Grouping

/-! ## The body of a rule -/

/-- The terms that a list of tokens starts with, and the tokens from the first that is no term on. -/
def leadingTerms : List Token → List Term × List Token
  | [] => ([], [])
  | t :: ts =>
    match t.term? with
    | some x => (x :: (leadingTerms ts).1, (leadingTerms ts).2)
    | none => ([], t :: ts)

/-- Nothing is added to the tokens after the terms. -/
theorem length_leadingTerms_le (ts : List Token) : (leadingTerms ts).2.length ≤ ts.length := by
  fun_induction leadingTerms ts with
  | case1 => simp
  | case2 t ts x h ih => simp only [List.length_cons]; omega
  | case3 t ts h => simp

/-- The alternatives up to the end of line that ends the rule `name`, and the tokens after it. -/
def alternatives (name : String) (tokens : List Token) :
    Except GroupingError (List (List Term) × List Token) :=
  match _hsplit : leadingTerms tokens with
  | (_, []) => .error (.unterminated name)
  | ([], .endOfLine :: _) => .error (.emptyAlternative name)
  | (terms, .endOfLine :: rest) => .ok ([terms], rest)
  | ([], .separator _ :: _) => .error (.emptyAlternative name)
  | (terms, .separator _ :: rest) => (alternatives name rest).map fun p => (terms :: p.1, p.2)
  | (_, t :: _) => .error (.unexpectedToken t)
termination_by tokens.length
decreasing_by
  have := length_leadingTerms_le tokens
  simp_all only [List.length_cons]
  omega

/-- What is read depends on the token after the leading terms. -/
theorem alternatives_eq (name : String) (tokens : List Token) :
    alternatives name tokens =
      match leadingTerms tokens with
      | (_, []) => .error (.unterminated name)
      | ([], .endOfLine :: _) => .error (.emptyAlternative name)
      | (terms, .endOfLine :: rest) => .ok ([terms], rest)
      | ([], .separator _ :: _) => .error (.emptyAlternative name)
      | (terms, .separator _ :: rest) => (alternatives name rest).map fun p => (terms :: p.1, p.2)
      | (_, t :: _) => .error (.unexpectedToken t) := by
  rw [alternatives]
  split <;> simp_all

/-- The body of the rule `name` and the tokens after its end of line. -/
def body (name : String) : List Token → Except GroupingError (List (List Term) × List Token)
  | .endOfLine :: _ => .error (.emptyRule name)
  | tokens => alternatives name tokens

/-- Reading alternatives takes at least the end of line. -/
theorem length_lt_of_alternatives {name : String} {tokens : List Token}
    {p : List (List Term) × List Token} (h : alternatives name tokens = .ok p) :
    p.2.length < tokens.length := by
  fun_induction alternatives name tokens generalizing p with
  | case3 tokens terms rest hne hsplit =>
    have hle := length_leadingTerms_le tokens
    cases h
    rw [hsplit, List.length_cons] at hle
    exact hle
  | case5 tokens terms c rest hne hsplit ih =>
    have hle := length_leadingTerms_le tokens
    cases hrest : alternatives name rest with
    | error e => simp [hrest, Except.map] at h
    | ok q =>
      obtain rfl : (terms :: q.1, q.2) = p := by simpa [hrest, Except.map] using h
      have hlt : q.2.length < rest.length := ih hrest
      rw [hsplit, List.length_cons] at hle
      exact Nat.lt_trans hlt hle
  | _ => simp at h

/-- Reading a body takes at least the end of line. -/
theorem length_lt_of_body {name : String} {tokens : List Token} {p : List (List Term) × List Token}
    (h : body name tokens = .ok p) : p.2.length < tokens.length := by
  unfold body at h
  split at h
  · simp at h
  · exact length_lt_of_alternatives h

/-! ## The whole list -/

/-- The rules that a list of tokens defines, one for each definition. -/
def rules : List Token → Except GroupingError (List Rule)
  | [] => .ok []
  | .endOfLine :: ts => rules ts
  | .comment _ :: ts => rules ts
  | .name n :: .assignment :: ts =>
    match _hbody : body n ts with
    | .error e => .error e
    | .ok (found, rest) => (rules rest).map (⟨n, found⟩ :: ·)
  | [.name n] => .error (.unterminated n)
  | .name _ :: t :: _ => .error (.unexpectedToken t)
  | t :: _ => .error (.unexpectedToken t)
termination_by tokens => tokens.length
decreasing_by
  · simp
  · simp
  · have hlt : rest.length < ts.length := length_lt_of_body ‹_›
    simp only [List.length_cons]
    omega

@[simp] theorem rules_nil : rules [] = .ok [] := by
  rw [rules]

@[simp] theorem rules_endOfLine (ts : List Token) : rules (.endOfLine :: ts) = rules ts := by
  rw [rules]

@[simp] theorem rules_comment (text : String) (ts : List Token) :
    rules (.comment text :: ts) = rules ts := by
  rw [rules]

/-- A definition is read up to the end of line that ends it, and then the rest. -/
theorem rules_name_assignment (n : String) (ts : List Token) :
    rules (.name n :: .assignment :: ts) =
      (body n ts).bind fun p => (rules p.2).map (⟨n, p.1⟩ :: ·) := by
  rw [rules]
  split <;> simp_all [Except.bind]

@[simp] theorem rules_name_nil (n : String) :
    rules [.name n] = .error (.unterminated n) := by
  rw [rules]

end Grouping

end GrammarText
