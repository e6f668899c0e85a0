import GrammarText.Proofs.Document.Segments
import GrammarText.Proofs.Text.LineCuts
import GrammarText.Rule

/-!
# The printed form of a rule

A rule is printed on one line, and `Rule.tokens` are the tokens that this line should have: the name, the assignment,
the terms of its alternatives with a bar between two alternatives, and the end of line.

* `Rule.isLine_render`: the printed line has exactly these tokens, if the name is valid and the terms are tokens that
  a body can hold; alternatives may be missing or empty;
* `Rule.isDocument_render`: rules printed one a line have the tokens of all of them;
* `Term.Printable` adds to the first condition what keeps the line one line: no literal with a line feed.
-/

namespace GrammarText

/-! ## What can be printed -/

/-- A term that grammar notation carries on one line: a valid name that no class has, a text with at most one kind of
quotes and no line feed, or a class. -/
def Term.Printable : Term → Prop
  | .literal text => '\n' ∉ text.toList ∧ Text.holdsBothQuotes text.toList = false
  | .name n => isRuleName n.toList = true ∧ ∀ b : Builtin, b.spelling ≠ n
  | .builtin _ => True

/-- A rule with a valid name and terms that can be printed. -/
structure Rule.Printable (r : Rule) : Prop where
  name : isRuleName r.name.toList = true
  terms : ∀ alternative ∈ r.alternatives, ∀ x ∈ alternative, x.Printable

theorem Term.Printable.inBody {x : Term} (h : x.Printable) : x.token.InBody := by
  cases x with
  | literal text => exact h.2
  | name n => exact h
  | builtin b => trivial

theorem Term.Printable.newline_not_mem_chars {x : Term} (h : x.Printable) : '\n' ∉ x.token.chars := by
  cases x with
  | literal text =>
    show '\n' ∉ (Text.quoted text).toList
    rw [Text.toList_quoted]
    have hquote : '\n' ≠ Text.quoteFor text.toList := by
      intro heq
      have hisQuote := (Text.quoteFor_free h.2).1
      rw [← heq] at hisQuote
      revert hisQuote
      decide
    simp [h.1, hquote]
  | name n =>
    have hn : '\n' ∉ n.toList := Line.not_mem_of_isRuleName h.1 (by decide)
    simp [Term.token, Token.chars, hn]
  | builtin b => cases b <;> decide

namespace Rule

/-! ## The tokens of a rule -/

/-- The tokens of a rule's alternatives, with a bar between two alternatives. -/
def bodyTokens (r : Rule) : List Token :=
  [Token.separator '|'].intercalate (r.alternatives.map fun terms => terms.map Term.token)

/-- The tokens of a rule on a line. -/
def tokens (r : Rule) : List Token :=
  .name r.name :: .assignment :: (r.bodyTokens ++ [.endOfLine])

variable {r : Rule}

/-- Each token of a rule's body is the bar or one of its terms. -/
theorem mem_bodyTokens {t : Token} (h : t ∈ r.bodyTokens) :
    t = .separator '|' ∨ ∃ alternative ∈ r.alternatives, ∃ x ∈ alternative, x.token = t := by
  rcases Text.mem_intercalate h with hbar | hterm
  · exact .inl (List.mem_singleton.mp hbar)
  · obtain ⟨l, hl, ht⟩ := hterm
    obtain ⟨alternative, halternative, rfl⟩ := List.mem_map.mp hl
    obtain ⟨x, hx, hxt⟩ := List.mem_map.mp ht
    exact .inr ⟨alternative, halternative, x, hx, hxt⟩

theorem inBody_bodyTokens (h : ∀ alternative ∈ r.alternatives, ∀ x ∈ alternative, x.token.InBody) :
    ∀ t ∈ r.bodyTokens, t.InBody := by
  intro t ht
  rcases mem_bodyTokens ht with rfl | hterm
  · rfl
  · obtain ⟨alternative, halternative, x, hx, rfl⟩ := hterm
    exact h alternative halternative x hx

/-- A rule is printed as its name, the assignment and a space before each token of its body. -/
theorem chars_eq (r : Rule) :
    r.chars =
      '<' :: (r.name.toList ++ '>' :: ([' '] ++ ':' :: ':' :: '=' :: r.bodyTokens.flatMap fun t => ' ' :: t.chars)) := by
  have hassignment : Token.assignment.chars = [':', ':', '='] := by decide
  have hbody : (r.bodyTokens.flatMap fun t => ' ' :: t.chars)
      = [' ', '|'].intercalate (r.alternatives.map alternativeChars) := by
    rw [bodyTokens, Text.flatMap_intercalate, List.map_map]
    congr 1
    apply List.map_congr_left
    intro terms hterms
    rw [Function.comp_apply, List.flatMap_map, alternativeChars]
  have hname : (Token.name r.name).chars = '<' :: (r.name.toList ++ ['>']) := rfl
  rw [hbody, chars, hassignment, hname]
  simp

/-- **The printed line of a rule has the rule's tokens**, also where the rule makes no sense. -/
theorem isLine_render {keepComments : Bool} (hname : isRuleName r.name.toList = true)
    (hterms : ∀ alternative ∈ r.alternatives, ∀ x ∈ alternative, x.token.InBody) :
    Line.IsLine keepComments (Text.trim r.render.toList) r.tokens := by
  have hbody := inBody_bodyTokens hterms
  have hline : (Segment.definition r.name r.bodyTokens hname hbody).line = r.render := by
    rw [← String.toList_inj, Segment.toList_line_definition_eq, render, String.toList_ofList, chars_eq]
  rw [← hline]
  exact Segment.isLine_line_definition r.name r.bodyTokens hname hbody

/-- A rule that can be printed is printed on one line. -/
theorem Printable.newline_not_mem_chars (h : r.Printable) : '\n' ∉ r.chars := by
  have hname : '\n' ∉ r.name.toList := Line.not_mem_of_isRuleName h.name (by decide)
  have hbody : '\n' ∉ r.bodyTokens.flatMap fun t => ' ' :: t.chars := by
    intro hmem
    obtain ⟨t, ht, hc⟩ := List.mem_flatMap.mp hmem
    rcases mem_bodyTokens ht with rfl | hterm
    · revert hc
      decide
    · obtain ⟨alternative, halternative, x, hx, rfl⟩ := hterm
      have hx' := (h.terms alternative halternative x hx).newline_not_mem_chars
      simp [hx'] at hc
  rw [chars_eq]
  simp [hname, hbody]

/-! ## Several rules -/

theorem isDocument_render {keepComments : Bool} {rs : List Rule} (h : ∀ r ∈ rs, r.Printable) :
    Document.IsDocument keepComments (rs.map render) (rs.flatMap tokens) := by
  induction rs with
  | nil => exact .nil
  | cons r rs ih =>
    have hr := h r List.mem_cons_self
    have hline : Line.IsLine keepComments (Text.trim r.render.toList) r.tokens :=
      isLine_render hr.name fun alternative halternative x hx => (hr.terms alternative halternative x hx).inBody
    exact .cons hline (ih fun s hs => h s (List.mem_cons_of_mem r hs))

end Rule

end GrammarText
