import GrammarText.Proofs.Document.Segments
import GrammarText.Proofs.Grouping.Bars

/-!
# Grouping what was lexed

The tokens of a document are segments, and grouping them makes rules of the segments that are definitions.  The body of
a segment is terms and bars, so it falls into alternatives, and the end of line that closes the segment is the one that
closes its rule (`rules_definition_append`).  So the rules have valid names, and their terms are tokens that a body can
hold (`Rule.MadeOf`, `madeOf_of_mem_rules`).
-/

namespace GrammarText

theorem Token.InBody.isTerm_or_bar {t : Token} (h : t.InBody) :
    (∃ x : Term, x.token = t) ∨ ∃ bar, .separator bar = t := by
  cases t with
  | name n => exact .inl ⟨.name n, rfl⟩
  | literal text => exact .inl ⟨.literal text, rfl⟩
  | builtin b => exact .inl ⟨.builtin b, rfl⟩
  | separator bar => exact .inr ⟨bar, rfl⟩
  | marker m => exact h.elim
  | comment text => exact h.elim

namespace Segment

theorem exists_isBarred {body : List Token} (hbody : ∀ t ∈ body, t.InBody) :
    ∃ alternatives, Grouping.IsBarred alternatives body :=
  Grouping.exists_isBarred fun t ht => (hbody t ht).isTerm_or_bar

/-- A definition in front of other tokens is grouped as one rule, and then the others. -/
theorem rules_definition_append {name : String} {body : List Token} (hbody : ∀ t ∈ body, t.InBody)
    {rest : List Token} {rs : List Rule}
    (h : Grouping.rules (.name name :: .assignment :: (body ++ .endOfLine :: rest)) = .ok rs) :
    ∃ alternatives others, Grouping.IsAlternatives alternatives body ∧ Grouping.rules rest = .ok others ∧
      rs = ⟨name, alternatives⟩ :: others := by
  obtain ⟨alternatives, hbarred⟩ := exists_isBarred hbody
  by_cases hwell : Grouping.WellBarred body
  · rw [hbarred.rules_append hwell] at h
    obtain ⟨others, hothers, rfl⟩ := Except.map_eq_ok_iff.mp h
    exact ⟨alternatives, others, hbarred.isAlternatives (hbarred.wellBarred_iff.mp hwell), hothers, rfl⟩
  · rw [hbarred.rules_append_of_not_wellBarred hwell] at h
    cases h

end Segment

/-! ## What the rules are made of -/

/-- A rule as lexing lets it be: its name is valid, and its terms are among some tokens and can stand in a body. -/
structure Rule.MadeOf (r : Rule) (ts : List Token) : Prop where
  name : isRuleName r.name.toList = true
  terms : ∀ alternative ∈ r.alternatives, ∀ x ∈ alternative, x.token.InBody ∧ x.token ∈ ts

namespace Rule.MadeOf

variable {r : Rule} {ts us : List Token}

theorem mono (h : r.MadeOf ts) (hsub : ts ⊆ us) : r.MadeOf us := by
  refine ⟨h.name, fun alternative halternative x hx => ?_⟩
  obtain ⟨hbody, hmem⟩ := h.terms alternative halternative x hx
  exact ⟨hbody, hsub hmem⟩

theorem of_isAlternatives {name : String} {alternatives : List (List Term)} (hvalid : isRuleName name.toList = true)
    (hbody : ∀ t ∈ ts, t.InBody) (h : Grouping.IsAlternatives alternatives ts) :
    (⟨name, alternatives⟩ : Rule).MadeOf ts := by
  refine ⟨hvalid, fun alternative halternative x hx => ?_⟩
  have hmem := Grouping.token_mem_of_isAlternatives h alternative halternative x hx
  exact ⟨hbody _ hmem, hmem⟩

end Rule.MadeOf

namespace Segment

/-- **The rules of lexed tokens are made of these tokens**, with valid names. -/
theorem madeOf_of_mem_rules {segs : List Segment} {rs : List Rule}
    (h : Grouping.rules (segs.flatMap tokens) = .ok rs) : ∀ r ∈ rs, r.MadeOf (segs.flatMap tokens) := by
  induction segs generalizing rs with
  | nil =>
    obtain rfl : [] = rs := by simpa using h
    simp
  | cons s segs ih =>
    have hlater : segs.flatMap tokens ⊆ (s :: segs).flatMap tokens := List.subset_append_right s.tokens _
    intro r hr
    cases s with
    | comment text _ =>
      have hrest : Grouping.rules (segs.flatMap tokens) = .ok rs := by
        rw [← Grouping.rules_comment text]
        exact h
      exact (ih hrest r hr).mono hlater
    | blank =>
      have hrest : Grouping.rules (segs.flatMap tokens) = .ok rs := by
        rw [← Grouping.rules_endOfLine]
        exact h
      exact (ih hrest r hr).mono hlater
    | definition name body hvalid hbody =>
      have hwhole : (definition name body hvalid hbody :: segs).flatMap tokens
          = .name name :: .assignment :: (body ++ .endOfLine :: segs.flatMap tokens) := by
        simp [tokens]
      rw [hwhole] at h hlater ⊢
      obtain ⟨alternatives, others, halternatives, hothers, rfl⟩ := rules_definition_append hbody h
      rcases List.mem_cons.mp hr with rfl | hr
      · have hfirst : (⟨name, alternatives⟩ : Rule).MadeOf body := .of_isAlternatives hvalid hbody halternatives
        exact hfirst.mono fun t ht => by simp [ht]
      · exact (ih hothers r hr).mono hlater

end Segment

end GrammarText
