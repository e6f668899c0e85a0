import GrammarText.Grouping
import GrammarText.Proofs.Outcomes

/-!
# The grammar of token lists

Which token lists can be grouped into rules is said here without reading them one token after the other.

* `IsAlternatives alts ts`: the tokens `ts` are the terms of the alternatives `alts` with a separator between two of
  them, and no alternative is empty;
* `IsGrammar rs ts`: the tokens `ts` are ends of line, comments and the definitions `rs`, in this order; a definition
  is a name, the assignment, alternatives and an end of line.

`alternatives_eq_ok_iff` and `rules_eq_ok_iff` say that grouping accepts exactly these lists and gives exactly these
rules.  What decides is that no term and no separator is an end of line, so that the first one ends the definition.
-/

namespace GrammarText.Grouping

/-- Terms of alternatives, none of them empty, with a separator between two. -/
inductive IsAlternatives : List (List Term) → List Token → Prop where
  | last {terms : List Term} (nonempty : terms ≠ []) : IsAlternatives [terms] (terms.map Term.token)
  | cons {terms : List Term} {alts : List (List Term)} {ts : List Token} (bar : Char) (nonempty : terms ≠ [])
      (others : IsAlternatives alts ts) :
      IsAlternatives (terms :: alts) (terms.map Term.token ++ .separator bar :: ts)

/-- Ends of line, comments and definitions, with the rules that are defined. -/
inductive IsGrammar : List Rule → List Token → Prop where
  | nil : IsGrammar [] []
  | endOfLine {rs : List Rule} {ts : List Token} (others : IsGrammar rs ts) : IsGrammar rs (.endOfLine :: ts)
  | comment {rs : List Rule} {ts : List Token} (text : String) (others : IsGrammar rs ts) :
      IsGrammar rs (.comment text :: ts)
  | definition {rs : List Rule} {ts us : List Token} {alts : List (List Term)} (name : String)
      (body : IsAlternatives alts ts) (others : IsGrammar rs us) :
      IsGrammar (⟨name, alts⟩ :: rs) (.name name :: .assignment :: (ts ++ .endOfLine :: us))

/-! ## Leading terms -/

@[simp] theorem term?_token (x : Term) : x.token.term? = some x :=
  Token.term?_eq_some_iff.mpr rfl

theorem append_leadingTerms (ts : List Token) : (leadingTerms ts).1.map Term.token ++ (leadingTerms ts).2 = ts := by
  fun_induction leadingTerms ts with
  | case1 => rfl
  | case2 t ts x hx ih =>
    have ht : t = x.token := Token.term?_eq_some_iff.mp hx
    rw [List.map_cons, List.cons_append, ih, ht]
  | case3 t ts hnone => rfl

/-- Terms in front of a token that is none are what is split off. -/
theorem leadingTerms_append (terms : List Term) {t : Token} (ht : t.term? = none) (rest : List Token) :
    leadingTerms (terms.map Term.token ++ t :: rest) = (terms, t :: rest) := by
  induction terms with
  | nil => simp [leadingTerms, ht]
  | cons x terms ih =>
    rw [List.map_cons, List.cons_append, leadingTerms, term?_token]
    simp only [ih]

/-! ## Alternatives -/

theorem ne_nil_of_isAlternatives {alts : List (List Term)} {ts : List Token} (h : IsAlternatives alts ts) :
    alts ≠ [] ∧ ∀ terms ∈ alts, terms ≠ [] := by
  induction h with
  | last nonempty =>
    refine ⟨by simp, fun terms hterms => ?_⟩
    rwa [List.mem_singleton.mp hterms]
  | cons bar nonempty _ ih =>
    refine ⟨by simp, fun terms hterms => ?_⟩
    rcases List.mem_cons.mp hterms with rfl | hterms
    · exact nonempty
    · exact ih.2 terms hterms

theorem token_mem_of_isAlternatives {alts : List (List Term)} {ts : List Token} (h : IsAlternatives alts ts) :
    ∀ terms ∈ alts, ∀ x ∈ terms, x.token ∈ ts := by
  induction h with
  | last nonempty =>
    intro terms hterms x hx
    rw [List.mem_singleton.mp hterms] at hx
    exact List.mem_map_of_mem hx
  | cons bar nonempty _ ih =>
    intro terms hterms x hx
    rcases List.mem_cons.mp hterms with rfl | hterms
    · exact List.mem_append_left _ (List.mem_map_of_mem hx)
    · exact List.mem_append_right _ (List.mem_cons_of_mem _ (ih terms hterms x hx))

/-- Alternatives start with a term, so that an end of line does not follow the assignment. -/
theorem exists_cons_of_isAlternatives {alts : List (List Term)} {ts : List Token} (h : IsAlternatives alts ts) :
    ∃ x us, ts = Term.token x :: us := by
  cases h with
  | last nonempty =>
    obtain ⟨x, terms, rfl⟩ := List.exists_cons_of_ne_nil nonempty
    exact ⟨x, terms.map Term.token, rfl⟩
  | @cons _ _ ts bar nonempty others =>
    obtain ⟨x, terms, rfl⟩ := List.exists_cons_of_ne_nil nonempty
    exact ⟨x, terms.map Term.token ++ .separator bar :: ts, rfl⟩

/-- Alternatives and the end of line after them are read as these alternatives. -/
theorem alternatives_of_isAlternatives {alts : List (List Term)} {ts : List Token} (h : IsAlternatives alts ts)
    (name : String) (rest : List Token) : alternatives name (ts ++ .endOfLine :: rest) = .ok (alts, rest) := by
  induction h with
  | @last terms nonempty =>
    obtain ⟨x, terms, rfl⟩ := List.exists_cons_of_ne_nil nonempty
    rw [alternatives_eq, leadingTerms_append _ rfl]
  | @cons terms alts ts bar nonempty others ih =>
    obtain ⟨x, terms, rfl⟩ := List.exists_cons_of_ne_nil nonempty
    rw [List.append_assoc, List.cons_append, alternatives_eq, leadingTerms_append _ rfl]
    simp only [ih]
    rfl

/-- What is read as alternatives is alternatives, up to the end of line after them. -/
theorem isAlternatives_of_alternatives {name : String} {tokens rest : List Token} {alts : List (List Term)}
    (h : alternatives name tokens = .ok (alts, rest)) :
    ∃ ts, IsAlternatives alts ts ∧ tokens = ts ++ .endOfLine :: rest := by
  fun_induction alternatives name tokens generalizing alts with
  | case3 tokens terms after hne hsplit =>
    obtain ⟨rfl, rfl⟩ : [terms] = alts ∧ after = rest := by simpa using h
    have hwhole := append_leadingTerms tokens
    rw [hsplit] at hwhole
    exact ⟨terms.map Term.token, .last hne, hwhole.symm⟩
  | case5 tokens terms bar after hne hsplit ih =>
    obtain ⟨⟨others, rest'⟩, hafter, hfound⟩ := Except.map_eq_ok_iff.mp h
    obtain ⟨rfl, rfl⟩ := Prod.mk.inj hfound
    obtain ⟨ts, hts, rfl⟩ := ih hafter
    have hwhole := append_leadingTerms tokens
    rw [hsplit] at hwhole
    refine ⟨terms.map Term.token ++ .separator bar :: ts, .cons bar hne hts, ?_⟩
    rw [← hwhole, List.append_assoc, List.cons_append]
  | _ => simp at h

/-- **Alternatives are read exactly where they stand**, up to the first end of line. -/
theorem alternatives_eq_ok_iff {name : String} {tokens rest : List Token} {alts : List (List Term)} :
    alternatives name tokens = .ok (alts, rest) ↔
      ∃ ts, IsAlternatives alts ts ∧ tokens = ts ++ .endOfLine :: rest := by
  constructor
  · exact isAlternatives_of_alternatives
  · intro h
    obtain ⟨ts, hts, rfl⟩ := h
    exact alternatives_of_isAlternatives hts name rest

/-- The check for an end of line right after the assignment refuses nothing that could be read. -/
theorem body_eq_ok_iff {name : String} {tokens rest : List Token} {alts : List (List Term)} :
    body name tokens = .ok (alts, rest) ↔
      ∃ ts, IsAlternatives alts ts ∧ tokens = ts ++ .endOfLine :: rest := by
  unfold body
  split
  · next ts =>
    constructor
    · intro h
      cases h
    · intro h
      obtain ⟨us, hus, heq⟩ := h
      obtain ⟨x, vs, rfl⟩ := exists_cons_of_isAlternatives hus
      cases x <;> simp [Term.token] at heq
  · exact alternatives_eq_ok_iff

/-! ## Whole lists -/

theorem rules_of_isGrammar {rs : List Rule} {ts : List Token} (h : IsGrammar rs ts) : rules ts = .ok rs := by
  induction h with
  | nil => exact rules_nil
  | endOfLine _ ih => rwa [rules_endOfLine]
  | comment text _ ih => rwa [rules_comment]
  | definition name hbody _ ih =>
    rw [rules_name_assignment, body_eq_ok_iff.mpr ⟨_, hbody, rfl⟩]
    simp only [Except.bind, ih]
    rfl

theorem isGrammar_of_rules {rs : List Rule} {tokens : List Token} (h : rules tokens = .ok rs) :
    IsGrammar rs tokens := by
  fun_induction rules tokens generalizing rs with
  | case1 =>
    obtain rfl : [] = rs := by simpa using h
    exact .nil
  | case2 ts ih => exact .endOfLine (ih h)
  | case3 text ts ih => exact .comment text (ih h)
  | case5 n ts found rest hbody ih =>
    obtain ⟨others, hrest, rfl⟩ := Except.map_eq_ok_iff.mp h
    obtain ⟨us, hus, rfl⟩ := body_eq_ok_iff.mp hbody
    exact .definition n hus (ih hrest)
  | _ => simp at h

theorem ne_nil_of_isGrammar {rs : List Rule} {ts : List Token} (h : IsGrammar rs ts) :
    ∀ r ∈ rs, r.alternatives ≠ [] ∧ ∀ alternative ∈ r.alternatives, alternative ≠ [] := by
  induction h with
  | nil => simp
  | endOfLine _ ih => exact ih
  | comment _ _ ih => exact ih
  | definition name body _ ih =>
    intro r hr
    rcases List.mem_cons.mp hr with rfl | hr
    · exact ne_nil_of_isAlternatives body
    · exact ih r hr

/-- **Token lists are grouped exactly if they are grammars**, and into the rules that they define. -/
theorem rules_eq_ok_iff {rs : List Rule} {tokens : List Token} : rules tokens = .ok rs ↔ IsGrammar rs tokens :=
  ⟨isGrammar_of_rules, rules_of_isGrammar⟩

/-- Tokens after a list that can be grouped are grouped by themselves. -/
theorem rules_append_of_ok {rs : List Rule} {ts : List Token} (h : rules ts = .ok rs) (us : List Token) :
    rules (ts ++ us) = (rules us).map (rs ++ ·) := by
  induction isGrammar_of_rules h with
  | nil =>
    show rules us = (rules us).map fun vs => vs
    cases rules us <;> rfl
  | endOfLine others ih =>
    rw [List.cons_append, rules_endOfLine, ih (rules_of_isGrammar others)]
  | comment text others ih =>
    rw [List.cons_append, rules_comment, ih (rules_of_isGrammar others)]
  | definition name hbody others ih =>
    rw [List.cons_append, List.cons_append, List.append_assoc, List.cons_append, rules_name_assignment,
      body_eq_ok_iff.mpr ⟨_, hbody, rfl⟩]
    simp only [Except.bind, ih (rules_of_isGrammar others)]
    cases rules us <;> rfl

end GrammarText.Grouping
