import GrammarText.Proofs.Document.FirstFlaw
import GrammarText.Proofs.Grouping.Bars
import GrammarText.Proofs.Rule.Printing

/-!
# A printed rule is read back

A rule can have no alternative at all, and alternatives without a term.  No grammar has such rules, but they are printed
like any, and nothing is lost in print: the tokens of the line say how many alternatives there are and what is in each.

* `isBarred_bodyTokens`: the tokens of a body fall into the alternatives again, the empty ones included;
* `bodyTokens_eq_nil_iff`: only the rules without alternatives and with a single empty one have a body without tokens;
* `rules_tokens_append`: the tokens of a rule are grouped into that rule again, or refused for the empty alternative,
  whatever follows; hence `rules_flatMap_tokens` for rules one after the other;
* `readBack_render`: the printed line of a rule is lexed into the rule's tokens, and these are grouped so.
-/

namespace GrammarText.Rule

variable {r : Rule}

/-- The tokens of a rule's body are its alternatives with a bar between two, if there is one. -/
theorem isBarred_bodyTokens (hsome : r.alternatives ≠ []) : Grouping.IsBarred r.alternatives r.bodyTokens := by
  rw [bodyTokens]
  generalize r.alternatives = alternatives at hsome
  induction alternatives with
  | nil => exact absurd rfl hsome
  | cons terms alternatives ih =>
    cases alternatives with
    | nil =>
      rw [List.map_singleton, List.intercalate_singleton]
      exact .last terms
    | cons more alternatives =>
      have hrest := ih (by simp)
      rw [List.map_cons, List.map_cons, List.intercalate_cons_cons, List.append_assoc]
      exact .cons terms '|' hrest

/-- A bar or a term shows that there are two alternatives or that one is not empty. -/
theorem bodyTokens_eq_nil_iff : r.bodyTokens = [] ↔ r.alternatives = [] ∨ r.alternatives = [[]] := by
  rw [bodyTokens]
  cases r.alternatives with
  | nil => simp
  | cons terms alternatives =>
    cases alternatives with
    | nil => simp
    | cons more alternatives =>
      rw [List.map_cons, List.map_cons, List.intercalate_cons_cons]
      simp

/-- **What becomes of the tokens of a rule**, with any tokens after them. -/
theorem rules_tokens_append (r : Rule) (ts : List Token) :
    Grouping.rules (r.tokens ++ ts) =
      if r.alternatives = [] ∨ r.alternatives = [[]] then .error (.emptyRule r.name)
      else if [] ∈ r.alternatives then .error (.emptyAlternative r.name)
      else (Grouping.rules ts).map (r :: ·) := by
  have htokens : r.tokens ++ ts = .name r.name :: .assignment :: (r.bodyTokens ++ .endOfLine :: ts) := by
    simp [tokens]
  rw [htokens, Grouping.rules_name_assignment]
  by_cases hnil : r.bodyTokens = []
  · rw [if_pos (bodyTokens_eq_nil_iff.mp hnil), hnil]
    rfl
  · have hnone := fun h => hnil (bodyTokens_eq_nil_iff.mpr h)
    have hsome : r.alternatives ≠ [] := fun h => hnone (.inl h)
    rw [(isBarred_bodyTokens hsome).body_append, if_neg hnil, if_neg hnone]
    by_cases hempty : [] ∈ r.alternatives
    · rw [if_pos hempty, if_pos hempty]
      rfl
    · rw [if_neg hempty, if_neg hempty]
      rfl

/-- The tokens of rules one after the other are grouped into these rules, if they are as a grammar can have them. -/
theorem rules_flatMap_tokens {rs : List Rule}
    (h : ∀ r ∈ rs, r.alternatives ≠ [] ∧ ∀ alternative ∈ r.alternatives, alternative ≠ []) :
    Grouping.rules (rs.flatMap tokens) = .ok rs := by
  induction rs with
  | nil => exact Grouping.rules_nil
  | cons r rs ih =>
    obtain ⟨hsome, hterms⟩ := h r List.mem_cons_self
    have hnone : [] ∉ r.alternatives := fun hmem => hterms [] hmem rfl
    have hshape : ¬(r.alternatives = [] ∨ r.alternatives = [[]]) := by
      rintro (hnil | hone)
      · exact hsome hnil
      · exact hnone (by simp [hone])
    rw [List.flatMap_cons, rules_tokens_append, if_neg hshape, if_neg hnone,
      ih fun s hs => h s (List.mem_cons_of_mem r hs)]
    rfl

/-- **A printed rule is read back token for token**, whatever its alternatives.  The line has the name, the assignment,
the terms of each alternative with one bar between two alternatives, and the end of line; and the tokens make the rule
again if there is an alternative and none is empty, and otherwise the error tells why they do not. -/
theorem readBack_render (settings : Settings) (r : Rule) (hname : isRuleName r.name.toList = true)
    (hterms : ∀ terms ∈ r.alternatives, ∀ x ∈ terms, x.token.InBody) :
    Document.tokensOf settings [r.render] =
      .ok (.name r.name :: .assignment ::
        ([Token.separator '|'].intercalate (r.alternatives.map fun terms => terms.map Term.token) ++ [.endOfLine])) ∧
    Grouping.rules r.tokens =
      if r.alternatives = [] ∨ r.alternatives = [[]] then .error (.emptyRule r.name)
      else if [] ∈ r.alternatives then .error (.emptyAlternative r.name)
      else .ok [r] := by
  constructor
  · rw [Document.tokensOf_singleton_eq_ok_iff, Line.tokens_eq_ok_iff]
    exact isLine_render hname hterms
  · have hall := rules_tokens_append r []
    rwa [List.append_nil, Grouping.rules_nil] at hall

/-- An empty alternative at either end and in the middle, beside a literal that holds a quote, a bar, a bracket, the
assignment and a line feed. -/
theorem readBack_render_empty_alternatives :
    Document.tokensOf {}
        [(⟨"a", [[], [.literal "it's | <b> ::=\n", .builtin .digit], [], [.name "b"], []]⟩ : Rule).render] =
      .ok [.name "a", .assignment, .separator '|', .literal "it's | <b> ::=\n", .builtin .digit, .separator '|',
        .separator '|', .name "b", .separator '|', .endOfLine] ∧
    Grouping.rules [.name "a", .assignment, .separator '|', .literal "it's | <b> ::=\n", .builtin .digit, .separator '|',
        .separator '|', .name "b", .separator '|', .endOfLine] = .error (.emptyAlternative "a") := by
  have hliteral : (Token.literal "it's | <b> ::=\n").InBody := by
    show Text.holdsBothQuotes "it's | <b> ::=\n".toList = false
    decide +kernel
  have hdigit : (Token.builtin .digit).InBody := trivial
  have hname : (Token.name "b").InBody := ⟨by decide +kernel, fun b => by cases b <;> decide⟩
  have hterms : ∀ terms ∈ [[], [Term.literal "it's | <b> ::=\n", .builtin .digit], [], [.name "b"], []],
      ∀ x ∈ terms, x.token.InBody := by
    simp [Term.token, hliteral, hdigit, hname]
  exact readBack_render {} ⟨"a", [[], [.literal "it's | <b> ::=\n", .builtin .digit], [], [.name "b"], []]⟩
    (by decide +kernel) hterms

end GrammarText.Rule
