import GrammarText.RuleName
import GrammarText.Text.Cut
import GrammarText.Token
import GrammarText.Violation

/-!
# The body of a rule line

What stands after `::=` is a sequence of *items*: a blank character, a bar, a text between two equal quotes, or a
name between brackets.  Each item that is not blank gives one token.

* `reference` is the token for a name between brackets: a builtin class where the name spells one, a name
  otherwise;
* `item` reads the item that starts with a given character and gives the rest of the body;
* `body` reads items until nothing is left.

An item always takes at least its first character (`length_le_of_item`), so reading comes to an end.
-/

namespace GrammarText.Line

/-- The token for a name between brackets. -/
def reference (name : List Char) : Except Flaw Token :=
  if isRuleName name then
    match Builtin.ofSpelling? (String.ofList name) with
    | some b => .ok (.builtin b)
    | none => .ok (.name (String.ofList name))
  else .error ⟨.invalidName, String.ofList name⟩

/-- Reads the item that starts with `c`: its token, if it is not blank, and what follows it in `cs`. -/
def item (c : Char) (cs : List Char) : Except Flaw (Option Token × List Char) :=
  if Text.isBlank c then .ok (none, cs)
  else if c = '|' then .ok (some (.separator c), cs)
  else if Text.isQuote c then
    match Text.cutAt c cs with
    | some (text, rest) => .ok (some (.literal (String.ofList text)), rest)
    | none => .error ⟨.unexpectedCharacter, String.ofList (c :: cs)⟩
  else if c = '<' then
    match Text.cutAt '>' cs with
    | some (name, rest) => (reference name).map fun t => (some t, rest)
    | none => .error ⟨.missingBracket, String.ofList (c :: cs)⟩
  else .error ⟨.unexpectedCharacter, String.ofList [c]⟩

/-- What follows an item is no longer than what follows its first character. -/
theorem length_le_of_item {c : Char} {cs rest : List Char} {t : Option Token}
    (h : item c cs = .ok (t, rest)) : rest.length ≤ cs.length := by
  unfold item at h
  split at h
  · simp_all
  split at h
  · simp_all
  split at h
  · split at h
    · next hcut =>
      obtain ⟨-, rfl⟩ : some (Token.literal _) = t ∧ _ = rest := by simpa using h
      exact Nat.le_of_lt (Text.length_lt_of_cutAt hcut)
    · simp at h
  split at h
  · split at h
    · next name rest' hcut =>
      cases hr : reference name with
      | error f => simp [hr, Except.map] at h
      | ok u =>
        obtain ⟨-, rfl⟩ : some u = t ∧ rest' = rest := by simpa [hr, Except.map] using h
        exact Nat.le_of_lt (Text.length_lt_of_cutAt hcut)
    · simp at h
  · simp at h

/-- The tokens of a rule's body. -/
def body : List Char → Except Flaw (List Token)
  | [] => .ok []
  | c :: cs =>
    match _hitem : item c cs with
    | .error f => .error f
    | .ok (t, rest) => (body rest).map (t.toList ++ ·)
termination_by cs => cs.length
decreasing_by exact Nat.lt_succ_of_le (length_le_of_item (by assumption))

@[simp] theorem body_nil : body [] = .ok [] := by
  rw [body]

/-- A body is read item after item. -/
theorem body_cons (c : Char) (cs : List Char) :
    body (c :: cs) = (item c cs).bind fun p => (body p.2).map (p.1.toList ++ ·) := by
  rw [body]
  split <;> simp_all [Except.bind]

end GrammarText.Line
