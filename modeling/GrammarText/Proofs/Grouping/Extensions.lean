import GrammarText.Proofs.Grouping.Items
import Mathlib.Data.List.Induction

/-!
# Token lists that go on

Grouping reads from the front, so its answers for a token list and for the extensions of the list hang together.  A list
that cannot be grouped either stops inside a definition, which more tokens can complete, or holds a token after which
nothing helps.

* `IsOpen name ts`: the tokens `ts` begin a definition of `name` and stop at some place before its end of line;
* `rules_eq_unterminated_iff`: the lists that are unterminated are those that stop inside a definition, under its name,
  and `EndsInside.exists_rules_append` completes them;
* `rules_append_of_error`: any other error stays whatever follows, so there is a shortest beginning that settles it
  (`existsUnique_settles`);
* `rules_append_outcomes` is all this of a list and its extensions, with the rules of a list in two parts.
-/

namespace GrammarText

/-- An error that is more than a definition without its end of line. -/
def GroupingError.IsFinal (e : GroupingError) : Prop :=
  ∀ n : String, e ≠ .unterminated n

namespace Grouping

/-! ## Definitions that are left open -/

/-- A body up to some place before its end of line: alternatives with a separator after each, and then terms. -/
inductive IsOpenBody : List Token → Prop where
  | last (terms : List Term) : IsOpenBody (terms.map Term.token)
  | cons {terms : List Term} {ts : List Token} (bar : Char) (nonempty : terms ≠ []) (others : IsOpenBody ts) :
      IsOpenBody (terms.map Term.token ++ .separator bar :: ts)

/-- A definition up to some place after its name and before its end of line. -/
inductive IsOpen (name : String) : List Token → Prop where
  | name : IsOpen name [.name name]
  | body {ts : List Token} (isOpenBody : IsOpenBody ts) : IsOpen name (.name name :: .assignment :: ts)

/-- Tokens that can be grouped, and after them a definition that is left open. -/
inductive EndsInside (name : String) : List Token → Prop where
  | intro {rs : List Rule} {front rest : List Token} (grouped : IsGrammar rs front) (isOpen : IsOpen name rest) :
      EndsInside name (front ++ rest)

variable {name m : String} {ts : List Token} {e : GroupingError}

/-- One more term makes alternatives of a body that is left open, also right after a separator. -/
theorem IsOpenBody.exists_isAlternatives (h : IsOpenBody ts) (x : Term) :
    ∃ alts, IsAlternatives alts (ts ++ [x.token]) := by
  induction h with
  | last terms =>
    refine ⟨[terms ++ [x]], ?_⟩
    rw [show terms.map Term.token ++ [x.token] = (terms ++ [x]).map Term.token by simp]
    exact .last (by simp)
  | cons bar nonempty _ ih =>
    obtain ⟨alts, halts⟩ := ih
    rw [List.append_assoc, List.cons_append]
    exact ⟨_, .cons bar nonempty halts⟩

theorem IsOpenBody.endOfLine_not_mem (h : IsOpenBody ts) : Token.endOfLine ∉ ts := by
  obtain ⟨alts, halts⟩ := h.exists_isAlternatives (.literal "")
  exact fun hmem => halts.isBarred.marker_not_mem .endOfLine (List.mem_append_left _ hmem)

/-- A definition that is left open can be completed. -/
theorem IsOpen.exists_rules_append (h : IsOpen name ts) : ∃ us rs, rules (ts ++ us) = .ok rs := by
  have hcomplete : ∀ us, IsOpenBody us → ∃ rs,
      rules (.name name :: .assignment :: (us ++ [Term.token (.literal ""), .endOfLine])) = .ok rs := by
    intro us hus
    obtain ⟨alts, halts⟩ := hus.exists_isAlternatives (.literal "")
    have hgrammar := IsGrammar.definition name halts .nil
    rw [List.append_assoc, List.singleton_append] at hgrammar
    exact ⟨_, rules_of_isGrammar hgrammar⟩
  cases h with
  | name =>
    obtain ⟨rs, hrs⟩ := hcomplete [] (.last [])
    exact ⟨[.assignment, Term.token (.literal ""), .endOfLine], rs, hrs⟩
  | @body us hus =>
    obtain ⟨rs, hrs⟩ := hcomplete us hus
    exact ⟨[Term.token (.literal ""), .endOfLine], rs, hrs⟩

theorem EndsInside.exists_rules_append (h : EndsInside name ts) : ∃ us rs, rules (ts ++ us) = .ok rs := by
  cases h with
  | @intro rs front rest grouped isOpen =>
    obtain ⟨us, ss, hss⟩ := isOpen.exists_rules_append
    refine ⟨us, rs ++ ss, ?_⟩
    rw [List.append_assoc, rules_append_of_ok (rules_of_isGrammar grouped), hss]
    rfl

/-! ## What is unterminated -/

theorem leadingTerms_map (terms : List Term) : leadingTerms (terms.map Term.token) = (terms, []) := by
  induction terms with
  | nil => rfl
  | cons x terms ih => simp only [List.map_cons, leadingTerms, term?_token, ih]

/-- Alternatives are unterminated exactly if they are left open. -/
theorem alternatives_eq_unterminated_iff :
    alternatives name ts = .error (.unterminated m) ↔ IsOpenBody ts ∧ m = name := by
  constructor
  · intro h
    fun_induction alternatives name ts with
    | case1 ts terms hsplit =>
      have hwhole := append_leadingTerms ts
      rw [hsplit, List.append_nil] at hwhole
      rw [← hwhole]
      exact ⟨.last terms, (GroupingError.unterminated.inj (Except.error.inj h)).symm⟩
    | case5 ts terms bar after hne hsplit ih =>
      obtain ⟨hopen, hname⟩ := ih (Except.map_eq_error_iff.mp h)
      have hwhole := append_leadingTerms ts
      rw [hsplit] at hwhole
      rw [← hwhole]
      exact ⟨.cons bar hne hopen, hname⟩
    | _ => simp at h
  · rintro ⟨hopen, rfl⟩
    induction hopen with
    | last terms => rw [alternatives_eq, leadingTerms_map]
    | @cons terms ts bar nonempty others ih =>
      obtain ⟨x, terms, rfl⟩ := List.exists_cons_of_ne_nil nonempty
      rw [alternatives_eq, leadingTerms_append (x :: terms) rfl]
      simp only [ih]
      rfl

theorem body_eq_unterminated_iff : body name ts = .error (.unterminated m) ↔ IsOpenBody ts ∧ m = name := by
  unfold body
  split
  · next ts =>
    constructor
    · intro h
      cases h
    · intro h
      exact absurd List.mem_cons_self h.1.endOfLine_not_mem
  · exact alternatives_eq_unterminated_iff

theorem EndsInside.of_rules (h : rules ts = .error (.unterminated m)) : EndsInside m ts := by
  fun_induction rules ts with
  | case2 ts ih =>
    cases ih h with
    | intro grouped isOpen => exact .intro grouped.endOfLine isOpen
  | case3 text ts ih =>
    cases ih h with
    | intro grouped isOpen => exact .intro (grouped.comment text) isOpen
  | case4 n ts e hbody =>
    obtain rfl := Except.error.inj h
    obtain ⟨hopen, rfl⟩ := body_eq_unterminated_iff.mp hbody
    exact .intro .nil (.body hopen)
  | case5 n ts found rest hbody ih =>
    obtain ⟨us, hus, rfl⟩ := body_eq_ok_iff.mp hbody
    cases ih (Except.map_eq_error_iff.mp h) with
    | @intro rs front rest grouped isOpen =>
      have hfront := EndsInside.intro (grouped.definition n hus) isOpen
      rwa [List.cons_append, List.cons_append, List.append_assoc, List.cons_append] at hfront
  | case6 n =>
    obtain rfl := GroupingError.unterminated.inj (Except.error.inj h)
    exact .intro .nil .name
  | _ => simp at h

/-- **A list is unterminated exactly if it stops inside a definition**, and the error names that definition. -/
theorem rules_eq_unterminated_iff : rules ts = .error (.unterminated m) ↔ EndsInside m ts := by
  constructor
  · exact EndsInside.of_rules
  · intro h
    cases h with
    | @intro rs front rest grouped isOpen =>
      have hrest : rules rest = .error (.unterminated m) := by
        cases isOpen with
        | name => exact rules_name_nil m
        | body hopen =>
          rw [rules_name_assignment, body_eq_unterminated_iff.mpr ⟨hopen, rfl⟩]
          rfl
      rw [rules_append_of_ok (rules_of_isGrammar grouped), hrest]
      rfl

/-! ## Errors that stay -/

/-- The token that ends the leading terms is seen whatever follows it. -/
theorem leadingTerms_append_of_eq_cons {terms : List Term} {t : Token} {rest : List Token}
    (h : leadingTerms ts = (terms, t :: rest)) (us : List Token) :
    leadingTerms (ts ++ us) = (terms, t :: (rest ++ us)) := by
  fun_induction leadingTerms ts generalizing terms with
  | case1 => cases h
  | case2 u ts x hx ih =>
    obtain ⟨rfl, hrest⟩ := Prod.mk.inj h
    have hlater : leadingTerms (ts ++ us) = ((leadingTerms ts).1, t :: (rest ++ us)) := ih (Prod.ext rfl hrest)
    rw [List.cons_append, leadingTerms, hx]
    simp only [hlater]
  | case3 u ts hnone =>
    obtain ⟨rfl, hrest⟩ := Prod.mk.inj h
    obtain ⟨rfl, rfl⟩ := List.cons.inj hrest
    rw [List.cons_append, leadingTerms, hnone]

theorem alternatives_append_of_error (h : alternatives name ts = .error e) (he : e.IsFinal) (us : List Token) :
    alternatives name (ts ++ us) = .error e := by
  fun_induction alternatives name ts with
  | case1 ts terms hsplit => exact absurd (Except.error.inj h).symm (he name)
  | case2 ts rest hsplit =>
    rw [alternatives_eq, leadingTerms_append_of_eq_cons hsplit]
    exact h
  | case3 ts terms rest hne hsplit => cases h
  | case4 ts bar rest hsplit =>
    rw [alternatives_eq, leadingTerms_append_of_eq_cons hsplit]
    exact h
  | case5 ts terms bar rest hne hsplit ih =>
    obtain ⟨x, terms, rfl⟩ := List.exists_cons_of_ne_nil hne
    rw [alternatives_eq, leadingTerms_append_of_eq_cons hsplit]
    simp only [ih (Except.map_eq_error_iff.mp h)]
    rfl
  | case6 ts terms t rest _ hend _ hbar hsplit =>
    -- the token is no end of line and no separator, so the same row of the reading applies
    rw [alternatives_eq, leadingTerms_append_of_eq_cons hsplit]
    cases t with
    | marker m => cases m <;> simp_all
    | separator bar => exact absurd rfl (hbar bar)
    | _ => simp_all

theorem body_append_of_error (h : body name ts = .error e) (he : e.IsFinal) (us : List Token) :
    body name (ts ++ us) = .error e := by
  cases ts with
  | nil =>
    have hnil : IsOpenBody [] := .last []
    rw [body_eq_unterminated_iff.mpr ⟨hnil, rfl⟩] at h
    exact absurd (Except.error.inj h).symm (he name)
  | cons t ts =>
    by_cases ht : t = .endOfLine
    · rw [ht] at h ⊢
      exact h
    · have hbody : ∀ vs, body name (t :: vs) = alternatives name (t :: vs) := by
        intro vs
        unfold body
        split
        · next heq => exact absurd (List.cons.inj heq).1 ht
        · rfl
      rw [hbody] at h
      rw [List.cons_append, hbody]
      exact alternatives_append_of_error h he us

/-- **An error other than a missing end of line stays**, whatever follows. -/
theorem rules_append_of_error (h : rules ts = .error e) (he : e.IsFinal) (us : List Token) :
    rules (ts ++ us) = .error e := by
  fun_induction rules ts with
  | case1 => cases h
  | case2 ts ih => rw [List.cons_append, rules_endOfLine, ih h]
  | case3 text ts ih => rw [List.cons_append, rules_comment, ih h]
  | case4 n ts e' hbody =>
    obtain rfl := Except.error.inj h
    rw [List.cons_append, List.cons_append, rules_name_assignment, body_append_of_error hbody he]
    rfl
  | case5 n ts found rest hbody ih =>
    obtain ⟨vs, hvs, rfl⟩ := body_eq_ok_iff.mp hbody
    have hlonger : body n (vs ++ .endOfLine :: (rest ++ us)) = .ok (found, rest ++ us) :=
      body_eq_ok_iff.mpr ⟨vs, hvs, rfl⟩
    rw [List.cons_append, List.cons_append, List.append_assoc, List.cons_append, rules_name_assignment, hlonger]
    show (rules (rest ++ us)).map _ = .error e
    rw [ih (Except.map_eq_error_iff.mp h)]
    rfl
  | case6 n => exact absurd (Except.error.inj h).symm (he n)
  | case7 n t ts ht =>
    rw [List.cons_append, List.cons_append, rules]
    · exact h
    · exact ht
  | case8 t ts hend hcomment hdefinition hlone hname =>
    have hnone : ∀ n, t ≠ .name n := by
      intro n hn
      cases ts with
      | nil => exact hlone n hn rfl
      | cons u ts => exact hname n u ts hn rfl
    rw [List.cons_append, rules]
    · exact h
    · exact hend
    · exact hcomment
    · exact fun n _ hn _ => hnone n hn
    · exact fun n hn _ => hnone n hn
    · exact fun n _ _ hn _ => hnone n hn

/-! ## Where an error is settled -/

/-- The shortest beginning of a list that settles an error: whatever follows it the error is the same, and any shorter
beginning can still be completed. -/
structure Settles (e : GroupingError) (front ts : List Token) : Prop where
  isPrefix : front <+: ts
  always : ∀ us, rules (front ++ us) = .error e
  shortest : ∀ p, p <+: front → p ≠ front → ∃ us rs, rules (p ++ us) = .ok rs

/-- A list that has no final error can be completed. -/
theorem exists_rules_append (h : ∀ e, rules ts = .error e → ¬e.IsFinal) : ∃ us rs, rules (ts ++ us) = .ok rs := by
  cases hts : rules ts with
  | ok rs => exact ⟨[], rs, by rwa [List.append_nil]⟩
  | error e =>
    obtain ⟨n, hn⟩ : ∃ n, e = .unterminated n := by
      simpa only [GroupingError.IsFinal, ne_eq, not_forall, not_not] using h e hts
    rw [hn] at hts
    exact (EndsInside.of_rules hts).exists_rules_append

theorem exists_settles (h : rules ts = .error e) (he : e.IsFinal) : ∃ front, Settles e front ts := by
  -- from the back: either the list without its last token has a final error already, or the whole list is shortest
  induction ts using List.reverseRecOn with
  | nil =>
    rw [rules_nil] at h
    cases h
  | append_singleton ts t ih =>
    by_cases hts : ∃ e', rules ts = .error e' ∧ e'.IsFinal
    · obtain ⟨e', he', hfinal⟩ := hts
      have hsame := rules_append_of_error he' hfinal [t]
      rw [h] at hsame
      obtain rfl := Except.error.inj hsame
      obtain ⟨front, hfront⟩ := ih he'
      exact ⟨front, hfront.isPrefix.trans (List.prefix_append ts [t]), hfront.always, hfront.shortest⟩
    · refine ⟨ts ++ [t], List.prefix_rfl, fun us => rules_append_of_error h he us, fun p hp hne => ?_⟩
      have hshort : p <+: ts := by
        rcases List.prefix_concat_iff.mp hp with heq | hp
        · exact absurd heq hne
        · exact hp
      obtain ⟨vs, rfl⟩ := hshort
      obtain ⟨us, rs, hrs⟩ := exists_rules_append fun e' he' hfinal => hts ⟨e', he', hfinal⟩
      exact ⟨vs ++ us, rs, by rwa [← List.append_assoc]⟩

theorem Settles.length_le {front other : List Token} (h : Settles e front ts) (hother : Settles e other ts) :
    front.length ≤ other.length := by
  by_contra hlt
  have hprefix := List.prefix_of_prefix_length_le hother.isPrefix h.isPrefix (by omega)
  obtain ⟨us, rs, hrs⟩ := h.shortest other hprefix fun heq => hlt (by rw [heq])
  rw [hother.always us] at hrs
  cases hrs

/-- **A final error is settled by exactly one beginning of the list.** -/
theorem existsUnique_settles (h : rules ts = .error e) (he : e.IsFinal) : ∃! front, Settles e front ts := by
  obtain ⟨front, hfront⟩ := exists_settles h he
  refine ⟨front, hfront, fun other hother => ?_⟩
  have hle := hother.length_le hfront
  have hge := hfront.length_le hother
  exact (List.prefix_of_prefix_length_le hother.isPrefix hfront.isPrefix hle).eq_of_length (by omega)

/-- **What grouping makes of a list and of its extensions.**  A list is unterminated exactly if it cannot be grouped but
some extension of it can, and the error names the definition that is open at its end.  Any other error stays whatever
follows, and the shortest beginning of the list that settles it is unique.  After a list that can be grouped, others are
grouped by themselves. -/
theorem rules_append_outcomes :
    (∀ ts : List Token,
      ((∃ n, rules ts = .error (.unterminated n)) ↔
        (∀ rs, rules ts ≠ .ok rs) ∧ ∃ us rs, rules (ts ++ us) = .ok rs) ∧
      ∀ n, rules ts = .error (.unterminated n) ↔ EndsInside n ts) ∧
    (∀ (ts : List Token) (e : GroupingError), rules ts = .error e → (∀ n, e ≠ .unterminated n) →
      (∀ us, rules (ts ++ us) = .error e) ∧ ∃! front, Settles e front ts) ∧
    ∀ (ts : List Token) (rs : List Rule), rules ts = .ok rs → ∀ us,
      rules (ts ++ us) =
        match rules us with
        | .ok ss => .ok (rs ++ ss)
        | .error e => .error e := by
  refine ⟨fun ts => ⟨⟨?_, ?_⟩, fun n => rules_eq_unterminated_iff⟩, fun ts e h he => ?_, fun ts rs h us => ?_⟩
  · intro h
    obtain ⟨n, hn⟩ := h
    refine ⟨fun rs hrs => ?_, (EndsInside.of_rules hn).exists_rules_append⟩
    rw [hn] at hrs
    cases hrs
  · intro h
    obtain ⟨hnone, us, rs, hrs⟩ := h
    cases hts : rules ts with
    | ok ss => exact absurd hts (hnone ss)
    | error e =>
      by_contra hother
      have hfinal : e.IsFinal := fun n hn => hother ⟨n, by rw [hn]⟩
      rw [rules_append_of_error hts hfinal] at hrs
      cases hrs
  · exact ⟨rules_append_of_error h he, existsUnique_settles h he⟩
  · rw [rules_append_of_ok h]
    cases rules us <;> rfl

/-- A bar without a term before it decides the error, not the comment after it; a definition that stops after a bar can
be completed; and what follows a whole definition is grouped by itself. -/
theorem rules_append_outcomes_misplaced_bar :
    (∀ us, rules ([.name "a", .assignment, .separator '|', .comment "c"] ++ us) = .error (.emptyAlternative "a")) ∧
    (∃! front, Settles (.emptyAlternative "a") front [.name "a", .assignment, .separator '|', .comment "c"]) ∧
    (∃ us rs, rules ([.comment "c", .name "a", .assignment, .literal "x", .separator '|'] ++ us) = .ok rs) ∧
    rules ([.name "a", .assignment, .literal "x", .endOfLine] ++ [.name "b"]) = .error (.unterminated "b") := by
  obtain ⟨hopen, hfinal, hparts⟩ := rules_append_outcomes
  have hbar : rules [.name "a", .assignment, .separator '|', .comment "c"] = .error (.emptyAlternative "a") := by
    decide +kernel
  have hstops : rules [.comment "c", .name "a", .assignment, .literal "x", .separator '|'] = .error (.unterminated "a") := by
    decide +kernel
  have hwhole : rules [.name "a", .assignment, .literal "x", .endOfLine] = .ok [⟨"a", [[.literal "x"]]⟩] := by
    decide +kernel
  obtain ⟨halways, hsettled⟩ := hfinal _ _ hbar (by simp)
  have hrest : rules [.name "b"] = .error (.unterminated "b") := rules_name_nil "b"
  refine ⟨halways, hsettled, ((hopen _).1.mp ⟨"a", hstops⟩).2, ?_⟩
  rw [hparts _ _ hwhole, hrest]

end Grouping

end GrammarText
