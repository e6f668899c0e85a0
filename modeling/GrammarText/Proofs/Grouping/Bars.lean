import GrammarText.Proofs.Grouping.Grammar
import Mathlib.Data.List.Chain

/-!
# Bodies with empty alternatives

Terms and separators in any order fall into alternatives some of which may be empty: `IsBarred alts ts`.  Every list of
terms and separators is like that (`exists_isBarred`), and up to its end of line it is read as the rule of these
alternatives exactly if none of them is empty (`IsBarred.rules_append`); otherwise the error tells a body without any
token from one with an empty alternative.

`WellBarred` says the same of the tokens alone (`IsBarred.wellBarred_iff`): there is one, and no separator stands first,
last or next to another.
-/

namespace GrammarText

/-- Tells whether a token separates alternatives, whatever its character. -/
def Token.isBar : Token → Bool
  | .separator _ => true
  | _ => false

theorem Term.isBar_token (x : Term) : x.token.isBar = false := by
  cases x <;> rfl

namespace Grouping

/-- Terms of alternatives, empty ones among them, with a separator between two. -/
inductive IsBarred : List (List Term) → List Token → Prop where
  | last (terms : List Term) : IsBarred [terms] (terms.map Term.token)
  | cons {alts : List (List Term)} {ts : List Token} (terms : List Term) (bar : Char) (others : IsBarred alts ts) :
      IsBarred (terms :: alts) (terms.map Term.token ++ .separator bar :: ts)

/-- Tokens among which separators do not stand first, last or side by side. -/
structure WellBarred (ts : List Token) : Prop where
  nonempty : ts ≠ []
  first : ∀ t ∈ ts.head?, t.isBar = false
  last : ∀ t ∈ ts.getLast?, t.isBar = false
  apart : ts.IsChain fun t u => ¬(t.isBar = true ∧ u.isBar = true)

instance (ts : List Token) : Decidable (WellBarred ts) :=
  decidable_of_iff (ts ≠ [] ∧ (∀ t ∈ ts.head?, t.isBar = false) ∧ (∀ t ∈ ts.getLast?, t.isBar = false) ∧
      ts.IsChain fun t u => ¬(t.isBar = true ∧ u.isBar = true))
    ⟨fun ⟨hne, hfirst, hlast, hapart⟩ => ⟨hne, hfirst, hlast, hapart⟩,
      fun h => ⟨h.nonempty, h.first, h.last, h.apart⟩⟩

/-- Terms and separators are alternatives, some of which may be empty. -/
theorem exists_isBarred {ts : List Token} (h : ∀ t ∈ ts, (∃ x : Term, x.token = t) ∨ ∃ bar, .separator bar = t) :
    ∃ alts, IsBarred alts ts := by
  induction ts with
  | nil => exact ⟨[[]], .last []⟩
  | cons t ts ih =>
    obtain ⟨alts, halts⟩ := ih fun u hu => h u (List.mem_cons_of_mem t hu)
    rcases h t List.mem_cons_self with ⟨x, rfl⟩ | ⟨bar, rfl⟩
    · -- a term goes to the first of the alternatives after it
      cases halts with
      | last terms => exact ⟨[x :: terms], .last (x :: terms)⟩
      | cons terms bar others => exact ⟨_, .cons (x :: terms) bar others⟩
    · exact ⟨[] :: alts, .cons [] bar halts⟩

theorem IsAlternatives.isBarred {alts : List (List Term)} {ts : List Token} (h : IsAlternatives alts ts) :
    IsBarred alts ts := by
  induction h with
  | @last terms _ => exact .last terms
  | @cons terms _ _ bar _ _ ih => exact .cons terms bar ih

/-! ## Where the separators stand -/

theorem isBar_of_mem_map {terms : List Term} {t : Token} (h : t ∈ terms.map Term.token) : t.isBar = false := by
  obtain ⟨x, -, rfl⟩ := List.mem_map.mp h
  exact x.isBar_token

theorem wellBarred_last_iff (terms : List Term) : WellBarred (terms.map Term.token) ↔ terms ≠ [] := by
  constructor
  · intro h
    simpa using h.nonempty
  · intro hne
    refine ⟨by simpa using hne, fun t ht => ?_, fun t ht => ?_, ?_⟩
    · exact isBar_of_mem_map (List.mem_of_mem_head? ht)
    · exact isBar_of_mem_map (List.mem_of_mem_getLast? ht)
    · apply List.Pairwise.isChain
      apply List.pairwise_of_forall_mem_list
      intro t ht u hu hbars
      rw [isBar_of_mem_map ht] at hbars
      exact absurd hbars.1 (by simp)

/-- A separator after the terms of an alternative asks for a term before it and for a well placed rest. -/
theorem wellBarred_cons_iff (terms : List Term) (bar : Char) (ts : List Token) :
    WellBarred (terms.map Term.token ++ .separator bar :: ts) ↔ terms ≠ [] ∧ WellBarred ts := by
  have hbar : (Token.separator bar).isBar = true := rfl
  constructor
  · intro h
    have hne : ts ≠ [] := by
      rintro rfl
      have hlast := h.last (.separator bar) (by simp)
      rw [hbar] at hlast
      cases hlast
    obtain ⟨-, hchain, -⟩ := List.isChain_append.mp h.apart
    obtain ⟨hnext, hrest⟩ := List.isChain_cons.mp hchain
    refine ⟨?_, hne, fun t ht => ?_, fun t ht => ?_, hrest⟩
    · rintro rfl
      have hfirst := h.first (.separator bar) (by simp)
      rw [hbar] at hfirst
      cases hfirst
    · exact Bool.eq_false_iff.mpr fun htrue => hnext t ht ⟨hbar, htrue⟩
    · apply h.last t
      rw [List.getLast?_append_of_ne_nil _ (by simp), List.getLast?_cons_of_ne_nil hne]
      exact ht
  · intro h
    obtain ⟨hne, hrest⟩ := h
    have hterms := (wellBarred_last_iff terms).mpr hne
    refine ⟨by simp, fun t ht => ?_, fun t ht => ?_, ?_⟩
    · rw [List.head?_append_of_ne_nil _ hterms.nonempty] at ht
      exact hterms.first t ht
    · rw [List.getLast?_append_of_ne_nil _ (by simp), List.getLast?_cons_of_ne_nil hrest.nonempty] at ht
      exact hrest.last t ht
    · refine List.isChain_append.mpr ⟨hterms.apart, List.isChain_cons.mpr ⟨fun t ht hbars => ?_, hrest.apart⟩,
        fun t ht u _ hbars => ?_⟩
      · rw [hrest.first t ht] at hbars
        exact absurd hbars.2 (by simp)
      · rw [hterms.last t ht] at hbars
        exact absurd hbars.1 (by simp)

namespace IsBarred

variable {alts : List (List Term)} {ts : List Token}

/-- **No alternative is empty exactly if the separators are well placed.** -/
theorem wellBarred_iff (h : IsBarred alts ts) : WellBarred ts ↔ [] ∉ alts := by
  induction h with
  | last terms =>
    rw [wellBarred_last_iff]
    simp [eq_comm]
  | cons terms bar others ih =>
    rw [wellBarred_cons_iff, ih]
    simp [eq_comm]

/-! ## What is read -/

/-- Only terms and separators stand in a body. -/
theorem of_mem (h : IsBarred alts ts) {t : Token} (ht : t ∈ ts) :
    (∃ x : Term, x.token = t) ∨ ∃ bar, .separator bar = t := by
  have hterms : ∀ terms : List Term, t ∈ terms.map Term.token → ∃ x : Term, x.token = t := by
    intro terms hmem
    obtain ⟨x, -, hx⟩ := List.mem_map.mp hmem
    exact ⟨x, hx⟩
  induction h with
  | last terms => exact .inl (hterms terms ht)
  | cons terms bar _ ih =>
    rcases List.mem_append.mp ht with hmem | hmem
    · exact .inl (hterms terms hmem)
    rcases List.mem_cons.mp hmem with rfl | hmem
    · exact .inr ⟨bar, rfl⟩
    · exact ih hmem

/-- No marker stands in a body, the end of line and the assignment included. -/
theorem marker_not_mem (h : IsBarred alts ts) (m : Marker) : Token.marker m ∉ ts := by
  intro hmem
  rcases h.of_mem hmem with ⟨x, hx⟩ | ⟨bar, hbar⟩
  · cases x <;> cases hx
  · cases hbar

theorem isAlternatives (h : IsBarred alts ts) (hnone : [] ∉ alts) : IsAlternatives alts ts := by
  induction h with
  | last terms => exact .last fun hempty => hnone (by simp [hempty])
  | cons terms bar _ ih =>
    have hlater := ih fun hmem => hnone (List.mem_cons_of_mem terms hmem)
    exact .cons bar (fun hempty => hnone (by simp [hempty])) hlater

theorem alternatives_append (h : IsBarred alts ts) (name : String) (rest : List Token) :
    alternatives name (ts ++ .endOfLine :: rest) =
      if [] ∈ alts then .error (.emptyAlternative name) else .ok (alts, rest) := by
  induction h with
  | last terms =>
    rw [alternatives_eq, leadingTerms_append terms rfl]
    cases terms with
    | nil => rfl
    | cons x terms => simp
  | @cons alts ts terms bar others ih =>
    rw [List.append_assoc, List.cons_append, alternatives_eq, leadingTerms_append terms rfl]
    cases terms with
    | nil => simp
    | cons x terms =>
      simp only [ih, List.mem_cons]
      by_cases hempty : [] ∈ alts <;> simp [hempty, Except.map]

/-- The check for an end of line right after the assignment is the one for a body without tokens. -/
theorem body_append (h : IsBarred alts ts) (name : String) (rest : List Token) :
    body name (ts ++ .endOfLine :: rest) =
      if ts = [] then .error (.emptyRule name)
      else if [] ∈ alts then .error (.emptyAlternative name)
      else .ok (alts, rest) := by
  by_cases hnil : ts = []
  · rw [if_pos hnil, hnil]
    rfl
  · rw [if_neg hnil, ← h.alternatives_append name rest]
    obtain ⟨t, us, rfl⟩ := List.exists_cons_of_ne_nil hnil
    unfold body
    split
    · next heq =>
      have hmem := h.marker_not_mem .endOfLine
      rw [(List.cons.inj heq).1] at hmem
      exact absurd List.mem_cons_self hmem
    · rfl

/-- **A definition of which no alternative is empty is one rule**, and the tokens after it are read on. -/
theorem rules_append (h : IsBarred alts ts) (hwell : WellBarred ts) (name : String) (rest : List Token) :
    rules (.name name :: .assignment :: (ts ++ .endOfLine :: rest)) = (rules rest).map (⟨name, alts⟩ :: ·) := by
  rw [rules_name_assignment, h.body_append, if_neg hwell.nonempty, if_neg (h.wellBarred_iff.mp hwell)]
  rfl

/-- **A definition with an empty alternative is refused**, whatever follows it, and one without any token apart. -/
theorem rules_append_of_not_wellBarred (h : IsBarred alts ts) (hwell : ¬WellBarred ts) (name : String)
    (rest : List Token) :
    rules (.name name :: .assignment :: (ts ++ .endOfLine :: rest)) =
      .error (if ts = [] then .emptyRule name else .emptyAlternative name) := by
  have hempty : [] ∈ alts := by
    by_contra hnone
    exact hwell (h.wellBarred_iff.mpr hnone)
  rw [rules_name_assignment, h.body_append]
  by_cases hnil : ts = []
  · rw [if_pos hnil, if_pos hnil]
    rfl
  · rw [if_neg hnil, if_neg hnil, if_pos hempty]
    rfl

end IsBarred

end Grouping

end GrammarText
