import GrammarText.Proofs.Grouping.Bars

/-!
# Token lists as sequences of items

The grammar of token lists, once more as data: an `Item` is an end of line, a comment or a whole definition, and
`Item.tokens` spells it.  A definition has a `Body` of alternatives that each have a term, and each alternative but the
first comes with the separator in front of it, whatever its character.

* `isGrammar_iff_items`: the token lists that can be grouped are the spellings of sequences of items;
* `Body.eq_of_tokens_append`: the spelling of a body and its end of line tell where the body ends and what it is, hence
  `Item.eq_of_flatMap_tokens`: no two sequences of items have the same spelling;
* `Item.literals_flatMap_tokens`: a literal is a term wherever it stands and whatever it holds, also `::=` or a line
  end;
* `Item.of_mem_definition`: a definition ends at its first end of line, and only terms and separators stand before it;
* `rules_eq_ok_iff_items` says all this of `rules`.
-/

namespace GrammarText

/-- The text of a literal; a marker with the same characters has none. -/
def Token.literal? : Token → Option String
  | .literal text => some text
  | _ => none

/-- The text of a literal term. -/
def Term.literal? : Term → Option String
  | .literal text => some text
  | _ => none

theorem Term.literal?_token (x : Term) : x.token.literal? = x.literal? := by
  cases x <;> rfl

namespace Grouping

/-! ## Bodies -/

/-- The terms of an alternative; there is always one. -/
@[ext] structure Alternative where
  terms : List Term
  nonempty : terms ≠ []

/-- The alternatives of a definition: the first, and each other one with the separator in front of it. -/
structure Body where
  first : Alternative
  others : List (Char × Alternative)

namespace Alternative

def tokens (a : Alternative) : List Token :=
  a.terms.map Term.token

/-- The terms of an alternative end where a token is none. -/
theorem eq_of_tokens_append {a b : Alternative} {t u : Token} {ts us : List Token} (ht : t.term? = none)
    (hu : u.term? = none) (h : a.tokens ++ t :: ts = b.tokens ++ u :: us) : a = b ∧ t = u ∧ ts = us := by
  have hsplit := congrArg leadingTerms h
  rw [tokens, tokens, leadingTerms_append a.terms ht ts, leadingTerms_append b.terms hu us] at hsplit
  obtain ⟨hterms, hrest⟩ := Prod.mk.inj hsplit
  obtain ⟨rfl, rfl⟩ := List.cons.inj hrest
  exact ⟨Alternative.ext hterms, rfl, rfl⟩

end Alternative

namespace Body

def tokens (b : Body) : List Token :=
  b.first.tokens ++ b.others.flatMap fun p => .separator p.1 :: p.2.tokens

/-- The terms of all alternatives, without the separators. -/
def alternatives (b : Body) : List (List Term) :=
  b.first.terms :: b.others.map fun p => p.2.terms

theorem tokens_last (a : Alternative) : (⟨a, []⟩ : Body).tokens = a.tokens := by
  simp [tokens]

theorem tokens_cons (a : Alternative) (bar : Char) (b : Body) :
    (⟨a, (bar, b.first) :: b.others⟩ : Body).tokens = a.tokens ++ .separator bar :: b.tokens := by
  simp [tokens]

/-- The spelling of a body is alternatives. -/
theorem isAlternatives_tokens (a : Alternative) (others : List (Char × Alternative)) :
    IsAlternatives (⟨a, others⟩ : Body).alternatives (⟨a, others⟩ : Body).tokens := by
  induction others generalizing a with
  | nil =>
    rw [tokens_last]
    exact .last a.nonempty
  | cons p others ih =>
    obtain ⟨bar, next⟩ := p
    rw [tokens_cons a bar ⟨next, others⟩]
    exact .cons bar a.nonempty (ih next)

theorem exists_of_isAlternatives {alts : List (List Term)} {ts : List Token} (h : IsAlternatives alts ts) :
    ∃ b : Body, b.tokens = ts ∧ b.alternatives = alts := by
  induction h with
  | @last terms nonempty => exact ⟨⟨⟨terms, nonempty⟩, []⟩, tokens_last _, rfl⟩
  | @cons terms _ _ bar nonempty _ ih =>
    obtain ⟨b, rfl, rfl⟩ := ih
    exact ⟨⟨⟨terms, nonempty⟩, (bar, b.first) :: b.others⟩, tokens_cons _ bar b, rfl⟩

/-- A body and the end of line after it are told apart from what follows: the token after the terms of an
alternative says whether another one comes. -/
theorem eq_of_tokens_append (b c : Body) {ts us : List Token}
    (h : b.tokens ++ .endOfLine :: ts = c.tokens ++ .endOfLine :: us) : b = c ∧ ts = us := by
  obtain ⟨a, others⟩ := b
  obtain ⟨a', others'⟩ := c
  induction others generalizing a a' others' with
  | nil =>
    rw [tokens_last] at h
    cases others' with
    | nil =>
      rw [tokens_last] at h
      obtain ⟨rfl, -, rfl⟩ := Alternative.eq_of_tokens_append rfl rfl h
      exact ⟨rfl, rfl⟩
    | cons p' others' =>
      rw [tokens_cons a' p'.1 ⟨p'.2, others'⟩, List.append_assoc, List.cons_append] at h
      obtain ⟨-, hbar, -⟩ := Alternative.eq_of_tokens_append rfl rfl h
      cases hbar
  | cons p others ih =>
    rw [tokens_cons a p.1 ⟨p.2, others⟩, List.append_assoc, List.cons_append] at h
    cases others' with
    | nil =>
      rw [tokens_last] at h
      obtain ⟨-, hbar, -⟩ := Alternative.eq_of_tokens_append rfl rfl h
      cases hbar
    | cons p' others' =>
      rw [tokens_cons a' p'.1 ⟨p'.2, others'⟩, List.append_assoc, List.cons_append] at h
      obtain ⟨rfl, hbar, hlater⟩ := Alternative.eq_of_tokens_append rfl rfl h
      obtain ⟨hnext, rfl⟩ := ih p.2 p'.2 others' hlater
      have hp : p = p' := Prod.ext (Token.separator.inj hbar) (Body.mk.inj hnext).1
      exact ⟨by rw [hp, (Body.mk.inj hnext).2], rfl⟩

theorem isBarred_tokens (b : Body) : IsBarred b.alternatives b.tokens :=
  (isAlternatives_tokens b.first b.others).isBarred

theorem literals_tokens (b : Body) :
    b.tokens.filterMap Token.literal? = b.alternatives.flatten.filterMap Term.literal? := by
  have hterms : ∀ a : Alternative, a.tokens.filterMap Token.literal? = a.terms.filterMap Term.literal? := by
    intro a
    simp only [Alternative.tokens, List.filterMap_map, Function.comp_def, Term.literal?_token]
  have hothers : ∀ p : Char × Alternative,
      (Token.separator p.1 :: p.2.tokens).filterMap Token.literal? = p.2.terms.filterMap Term.literal? := by
    intro p
    rw [List.filterMap_cons_none rfl, hterms]
  simp only [tokens, alternatives, List.filterMap_append, List.filterMap_flatMap, hothers, hterms, List.flatten_cons,
    ← List.flatMap_def]

end Body

/-! ## Items -/

/-- What a token list that can be grouped is made of. -/
inductive Item where
  | endOfLine
  | comment (text : String)
  | definition (name : String) (body : Body)

namespace Item

def tokens : Item → List Token
  | endOfLine => [.endOfLine]
  | comment text => [.comment text]
  | definition name body => .name name :: .assignment :: (body.tokens ++ [.endOfLine])

/-- The rule that a definition defines. -/
def rule? : Item → Option Rule
  | definition name body => some ⟨name, body.alternatives⟩
  | _ => none

theorem tokens_definition_append (name : String) (body : Body) (ts : List Token) :
    (definition name body).tokens ++ ts = .name name :: .assignment :: (body.tokens ++ .endOfLine :: ts) := by
  simp [tokens]

/-- The first token of an item tells its kind, and the end of line where a definition ends. -/
theorem eq_of_tokens_append {i j : Item} {ts us : List Token} (h : i.tokens ++ ts = j.tokens ++ us) :
    i = j ∧ ts = us := by
  cases i with
  | endOfLine =>
    cases j with
    | endOfLine => exact ⟨rfl, (List.cons.inj h).2⟩
    | comment text => cases (List.cons.inj h).1
    | definition name body => cases (List.cons.inj h).1
  | comment text =>
    cases j with
    | endOfLine => cases (List.cons.inj h).1
    | comment text' =>
      obtain ⟨hhead, hrest⟩ := List.cons.inj h
      exact ⟨by rw [Token.comment.inj hhead], hrest⟩
    | definition name body => cases (List.cons.inj h).1
  | definition name body =>
    cases j with
    | endOfLine => cases (List.cons.inj h).1
    | comment text => cases (List.cons.inj h).1
    | definition name' body' =>
      rw [tokens_definition_append, tokens_definition_append] at h
      obtain ⟨hhead, htail⟩ := List.cons.inj h
      obtain ⟨rfl, hrest⟩ := Body.eq_of_tokens_append body body' (List.cons.inj htail).2
      exact ⟨by rw [Token.name.inj hhead], hrest⟩

theorem tokens_ne_nil (i : Item) : i.tokens ≠ [] := by
  cases i <;> simp [tokens]

/-- Items at the front of the spelling of items are the first of these. -/
theorem exists_of_flatMap_tokens_append {items others : List Item} {ts : List Token}
    (h : items.flatMap tokens ++ ts = others.flatMap tokens) :
    ∃ rest, others = items ++ rest ∧ rest.flatMap tokens = ts := by
  induction items generalizing others with
  | nil => exact ⟨others, rfl, h.symm⟩
  | cons i items ih =>
    cases others with
    | nil => simp [i.tokens_ne_nil] at h
    | cons j others =>
      rw [List.flatMap_cons, List.flatMap_cons, List.append_assoc] at h
      obtain ⟨rfl, hrest⟩ := eq_of_tokens_append h
      obtain ⟨rest, rfl, hts⟩ := ih hrest
      exact ⟨rest, rfl, hts⟩

/-- **No two sequences of items have the same tokens.** -/
theorem eq_of_flatMap_tokens {items others : List Item} (h : items.flatMap tokens = others.flatMap tokens) :
    items = others := by
  obtain ⟨rest, rfl, hrest⟩ := exists_of_flatMap_tokens_append ((List.append_nil _).trans h)
  cases rest with
  | nil => rw [List.append_nil]
  | cons i rest => simp [i.tokens_ne_nil] at hrest

/-- A definition that starts some items ends at the first end of line, and only terms and separators stand before
it. -/
theorem of_mem_definition {items : List Item} {name : String} {inside after : List Token} {t : Token}
    (h : items.flatMap tokens = .name name :: .assignment :: (inside ++ t :: after))
    (hinside : Token.endOfLine ∉ inside) (ht : t ≠ .endOfLine) :
    (∃ x : Term, x.token = t) ∨ ∃ bar, .separator bar = t := by
  cases items with
  | nil => simp at h
  | cons i items =>
    rw [List.flatMap_cons] at h
    cases i with
    | endOfLine => cases (List.cons.inj h).1
    | comment text => cases (List.cons.inj h).1
    | definition name' body =>
      rw [tokens_definition_append] at h
      have hbody : body.tokens ++ .endOfLine :: items.flatMap tokens = inside ++ t :: after :=
        (List.cons.inj (List.cons.inj h).2).2
      apply body.isBarred_tokens.of_mem
      rcases List.append_eq_append_iff.mp hbody with ⟨cs, rfl, hlater⟩ | ⟨cs, hcs, hlater⟩
      · -- the end of line would stand among the tokens inside
        cases cs with
        | nil => exact absurd (List.cons.inj hlater).1.symm ht
        | cons c cs =>
          obtain rfl := (List.cons.inj hlater).1
          simp at hinside
      · cases cs with
        | nil => exact absurd (List.cons.inj hlater).1 ht
        | cons c cs =>
          obtain rfl := (List.cons.inj hlater).1
          simp [hcs]

theorem literals_flatMap_tokens (items : List Item) :
    (items.flatMap tokens).filterMap Token.literal? =
      ((items.filterMap rule?).flatMap fun r => r.alternatives.flatten).filterMap Term.literal? := by
  induction items with
  | nil => rfl
  | cons i items ih =>
    rw [List.flatMap_cons, List.filterMap_append, ih]
    cases i with
    | endOfLine => rfl
    | comment text => rfl
    | definition name body =>
      have hfirst : (definition name body).tokens.filterMap Token.literal?
          = body.alternatives.flatten.filterMap Term.literal? := by
        rw [← body.literals_tokens, tokens, List.filterMap_cons_none rfl, List.filterMap_cons_none rfl,
          List.filterMap_append, List.filterMap_cons_none rfl, List.filterMap_nil, List.append_nil]
      rw [hfirst, ← List.filterMap_append]
      rfl

end Item

/-- **The grammar of token lists is the sequences of items**, and its rules are those of the definitions. -/
theorem isGrammar_iff_items {rs : List Rule} {ts : List Token} :
    IsGrammar rs ts ↔ ∃ items : List Item, items.flatMap Item.tokens = ts ∧ items.filterMap Item.rule? = rs := by
  constructor
  · intro h
    induction h with
    | nil => exact ⟨[], rfl, rfl⟩
    | endOfLine _ ih =>
      obtain ⟨items, rfl, rfl⟩ := ih
      exact ⟨.endOfLine :: items, rfl, rfl⟩
    | comment text _ ih =>
      obtain ⟨items, rfl, rfl⟩ := ih
      exact ⟨.comment text :: items, rfl, rfl⟩
    | definition name hbody _ ih =>
      obtain ⟨items, rfl, rfl⟩ := ih
      obtain ⟨body, rfl, rfl⟩ := Body.exists_of_isAlternatives hbody
      exact ⟨.definition name body :: items, by simp [Item.tokens], rfl⟩
  · intro h
    obtain ⟨items, rfl, rfl⟩ := h
    induction items with
    | nil => exact .nil
    | cons i items ih =>
      cases i with
      | endOfLine => exact .endOfLine ih
      | comment text => exact .comment text ih
      | definition name body =>
        rw [List.flatMap_cons, Item.tokens_definition_append]
        exact .definition name (Body.isAlternatives_tokens body.first body.others) ih

/-- **Token lists are grouped exactly if they are sequences of items**, into the rules of the definitions, and the items
are unique.  The literals among the tokens are, one for one, literal terms of the rules, whatever they hold.  After a
name and the assignment no comment comes before an end of line, and no marker does. -/
theorem rules_eq_ok_iff_items :
    (∀ (ts : List Token) (rs : List Rule), rules ts = .ok rs ↔
      ∃ items : List Item, items.flatMap Item.tokens = ts ∧ items.filterMap Item.rule? = rs) ∧
    (∀ items others : List Item, items.flatMap Item.tokens = others.flatMap Item.tokens → items = others) ∧
    (∀ (ts : List Token) (rs : List Rule), rules ts = .ok rs →
      ts.filterMap Token.literal? = (rs.flatMap fun r => r.alternatives.flatten).filterMap Term.literal?) ∧
    ∀ (items : List Item) (name : String) (inside after : List Token) (t : Token), Token.endOfLine ∉ inside →
      (∃ text, t = .comment text) ∨ (∃ m, t = .marker m ∧ m ≠ .endOfLine) →
      ∀ rs, rules (items.flatMap Item.tokens ++ .name name :: .assignment :: (inside ++ t :: after)) ≠ .ok rs := by
  refine ⟨fun ts rs => ?_, fun items others => Item.eq_of_flatMap_tokens, fun ts rs h => ?_, ?_⟩
  · rw [rules_eq_ok_iff, isGrammar_iff_items]
  · obtain ⟨items, rfl, rfl⟩ := isGrammar_iff_items.mp (rules_eq_ok_iff.mp h)
    exact Item.literals_flatMap_tokens items
  · intro items name inside after t hinside ht rs h
    obtain ⟨others, hothers, -⟩ := isGrammar_iff_items.mp (rules_eq_ok_iff.mp h)
    obtain ⟨rest, -, hrest⟩ := Item.exists_of_flatMap_tokens_append hothers.symm
    have hne : t ≠ .endOfLine := by
      rintro rfl
      rcases ht with ⟨text, h⟩ | ⟨m, h, hm⟩
      · cases h
      · exact hm (Token.marker.inj h).symm
    rcases Item.of_mem_definition hrest hinside hne with ⟨x, rfl⟩ | ⟨bar, rfl⟩
    · cases x <;> simp [Term.token] at ht
    · simp at ht

/-- A definition of which a literal spells a line end and another the assignment, with a slash between them, and the
same definition with a marker in place of a literal. -/
theorem rules_eq_ok_iff_items_lookalikes :
    rules [.comment "c", .name "a", .assignment, .literal "\r\n", .separator '/', .literal "::=", .endOfLine]
      = .ok [⟨"a", [[.literal "\r\n"], [.literal "::="]]⟩] ∧
    ∀ rs, rules [.comment "c", .name "a", .assignment, .literal "\r\n", .separator '/', .assignment, .endOfLine]
      ≠ .ok rs := by
  obtain ⟨haccepted, -, -, hrefused⟩ := rules_eq_ok_iff_items
  constructor
  · exact (haccepted _ _).mpr ⟨[.comment "c", .definition "a" ⟨⟨[.literal "\r\n"], by simp⟩,
      [('/', ⟨[.literal "::="], by simp⟩)]⟩], rfl, rfl⟩
  · exact hrefused [.comment "c"] "a" [.literal "\r\n", .separator '/'] [.endOfLine] .assignment (by decide)
      (.inr ⟨.assignment, rfl, by decide⟩)

end Grouping

end GrammarText
