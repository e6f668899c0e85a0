import GrammarText.Proofs.Grouping.Grammar

/-!
# Tokens grouped one by one

Grouping splits a list of tokens at its markers.  A machine that takes the tokens one by one comes to the same: it
remembers whether it is between two definitions, behind the name of one or in its body, and there the alternatives that
are complete and the terms of the one that is open.

* `Machine.step` takes one token and asks only for the end of line, the assignment and the kinds of tokens, and
  `Machine.finish` says what the end of the list means where the machine is;
* `Machine.run_leadingTerms`: terms are added to the open alternative;
* `Machine.run_body`: the body of a definition is taken as `body` reads it;
* `Machine.run_eq_rules`: so the machine gives the rules, or the error, that grouping gives.
-/

namespace GrammarText.Grouping

/-- Where a machine is in a list of tokens. -/
inductive Place where
  /-- Between two definitions. -/
  | between
  /-- After the name of a definition. -/
  | named (name : String)
  /-- In the body of a definition, after these alternatives and these terms of the next one. -/
  | inBody (name : String) (alternatives : List (List Term)) (current : List Term)
  deriving DecidableEq, Repr

/-- What a machine knows after some tokens. -/
structure Machine where
  place : Place
  /-- The rules that are complete. -/
  found : List Rule
  deriving DecidableEq, Repr

namespace Machine

/-- Takes one token. -/
def step (m : Machine) (t : Token) : Except GroupingError Machine :=
  match m.place with
  | .between =>
    if t.isEndOfLine then .ok m
    else match t with
      | .comment _ => .ok m
      | .name n => .ok ⟨.named n, m.found⟩
      | other => .error (.unexpectedToken other)
  | .named n =>
    if t.isAssignment then .ok ⟨.inBody n [] [], m.found⟩ else .error (.unexpectedToken t)
  | .inBody n alternatives current =>
    if t.isEndOfLine then
      if current = [] then .error (if alternatives = [] then .emptyRule n else .emptyAlternative n)
      else .ok ⟨.between, m.found ++ [⟨n, alternatives ++ [current]⟩]⟩
    else match t with
      | .separator _ =>
        if current = [] then .error (.emptyAlternative n)
        else .ok ⟨.inBody n (alternatives ++ [current]) [], m.found⟩
      | .literal text => .ok ⟨.inBody n alternatives (current ++ [.literal text]), m.found⟩
      | .name m' => .ok ⟨.inBody n alternatives (current ++ [.name m']), m.found⟩
      | .builtin b => .ok ⟨.inBody n alternatives (current ++ [.builtin b]), m.found⟩
      | other => .error (.unexpectedToken other)

/-- The rules of the list that ends where the machine is. -/
def finish (m : Machine) : Except GroupingError (List Rule) :=
  match m.place with
  | .between => .ok m.found
  | .named n => .error (.unterminated n)
  | .inBody n _ _ => .error (.unterminated n)

/-- Takes the rest of a list, token by token. -/
def run (m : Machine) (ts : List Token) : Except GroupingError (List Rule) :=
  (ts.foldlM step m).bind finish

variable {name : String} {alts : List (List Term)} {current : List Term} {rs : List Rule}

theorem run_nil (m : Machine) : m.run [] = m.finish := rfl

theorem run_cons (m : Machine) (t : Token) (ts : List Token) :
    m.run (t :: ts) = (m.step t).bind fun after => after.run ts := by
  show ((m.step t).bind fun after => ts.foldlM step after).bind finish = _
  cases m.step t <;> rfl

/-! ## The body of a definition -/

theorem step_term {t : Token} {x : Term} (h : t.term? = some x) :
    step ⟨.inBody name alts current, rs⟩ t = .ok ⟨.inBody name alts (current ++ [x]), rs⟩ := by
  obtain rfl := Token.term?_eq_some_iff.mp h
  cases x <;> rfl

theorem step_other {t : Token} (hterm : t.term? = none) (hline : t ≠ .endOfLine) (hbar : ∀ bar, t ≠ .separator bar) :
    step ⟨.inBody name alts current, rs⟩ t = .error (.unexpectedToken t) := by
  cases t with
  | marker m => simp [step, hline]
  | comment text => rfl
  | separator bar => exact absurd rfl (hbar bar)
  | _ => cases hterm

/-- What stands behind the leading terms is no term. -/
theorem term?_of_leadingTerms {ts : List Token} {terms : List Term} {t : Token} {rest : List Token}
    (h : leadingTerms ts = (terms, t :: rest)) : t.term? = none := by
  fun_induction leadingTerms ts generalizing terms with
  | case1 => cases h
  | case2 u ts x hx ih => exact ih (Prod.ext rfl (Prod.mk.inj h).2)
  | case3 u ts hnone =>
    obtain ⟨-, hcons⟩ := Prod.mk.inj h
    obtain ⟨rfl, -⟩ := List.cons.inj hcons
    exact hnone

/-- Terms are added to the alternative that is open. -/
theorem run_leadingTerms (current : List Term) (ts : List Token) :
    run ⟨.inBody name alts current, rs⟩ ts =
      run ⟨.inBody name alts (current ++ (leadingTerms ts).1), rs⟩ (leadingTerms ts).2 := by
  fun_induction leadingTerms ts generalizing current with
  | case1 => rw [List.append_nil]
  | case2 t ts x hx ih =>
    rw [run_cons, step_term hx]
    show run ⟨.inBody name alts (current ++ [x]), rs⟩ ts = _
    rw [ih, List.append_assoc, List.singleton_append]
  | case3 t ts hnone => rw [List.append_nil]

/-- **Alternatives are taken as they are read**, and added to those before them.  An end of line right after the
assignment is left to `run_body`, because it has an error of its own. -/
theorem run_alternatives (ts : List Token) (alts : List (List Term))
    (h : alts ≠ [] ∨ ts.head? ≠ some .endOfLine) :
    run ⟨.inBody name alts [], rs⟩ ts =
      (alternatives name ts).bind fun p => run ⟨.between, rs ++ [⟨name, alts ++ p.1⟩]⟩ p.2 := by
  rw [run_leadingTerms, List.nil_append]
  fun_induction alternatives name ts generalizing alts with
  | case1 ts terms hsplit =>
    rw [hsplit]
    rfl
  | case2 ts rest hsplit =>
    have hwhole := append_leadingTerms ts
    rw [hsplit] at hwhole
    have halts : alts ≠ [] := h.resolve_right fun hother => hother (by rw [← hwhole]; rfl)
    rw [hsplit, run_cons]
    show (Except.error (if alts = [] then GroupingError.emptyRule name else .emptyAlternative name)).bind _ = _
    rw [if_neg halts]
    rfl
  | case3 ts terms rest hne hsplit =>
    have hterms : terms ≠ [] := hne
    rw [hsplit, run_cons]
    show (if terms = [] then _ else _ : Except GroupingError Machine).bind _ = _
    rw [if_neg hterms]
    rfl
  | case4 ts bar rest hsplit =>
    rw [hsplit]
    rfl
  | case5 ts terms bar rest hne hsplit ih =>
    have hterms : terms ≠ [] := hne
    have hstep : step ⟨.inBody name alts terms, rs⟩ (.separator bar) = .ok ⟨.inBody name (alts ++ [terms]) [], rs⟩ :=
      if_neg hterms
    rw [hsplit, run_cons, hstep]
    show run ⟨.inBody name (alts ++ [terms]) [], rs⟩ rest = _
    rw [run_leadingTerms, List.nil_append, ih (alts ++ [terms]) (.inl (by simp))]
    cases alternatives name rest with
    | error e => rfl
    | ok p =>
      show run ⟨.between, rs ++ [⟨name, alts ++ [terms] ++ p.1⟩]⟩ p.2 =
        run ⟨.between, rs ++ [⟨name, alts ++ terms :: p.1⟩]⟩ p.2
      rw [List.append_assoc, List.singleton_append]
  | case6 ts terms t rest _ hline _ hbar hsplit =>
    rw [hsplit, run_cons, step_other (term?_of_leadingTerms hsplit) hline hbar]
    rfl

/-- A body is taken as it is read, also one that is empty. -/
theorem run_body (ts : List Token) :
    run ⟨.inBody name [] [], rs⟩ ts =
      (body name ts).bind fun p => run ⟨.between, rs ++ [⟨name, p.1⟩]⟩ p.2 := by
  by_cases h : ts.head? = some .endOfLine
  · obtain ⟨rest, rfl⟩ := List.head?_eq_some_iff.mp h
    rfl
  · have hbody : body name ts = alternatives name ts := by
      unfold body
      split
      · exact absurd rfl h
      · rfl
    rw [run_alternatives ts [] (.inr h), hbody]
    rfl

/-! ## The whole list -/

/-- What is grouped after some rules is added to them. -/
theorem run_between (rs : List Rule) (ts : List Token) :
    run ⟨.between, rs⟩ ts = (rules ts).map (rs ++ ·) := by
  induction ts using rules.induct generalizing rs with
  | case1 =>
    rw [rules_nil, run_nil]
    show Except.ok rs = .ok (rs ++ [])
    rw [List.append_nil]
  | case2 ts ih =>
    rw [rules_endOfLine, ← ih]
    rfl
  | case3 text ts ih =>
    rw [rules_comment, ← ih]
    rfl
  | case4 n ts e hbody =>
    rw [rules_name_assignment, hbody]
    show run ⟨.inBody n [] [], rs⟩ ts = _
    rw [run_body, hbody]
    rfl
  | case5 n ts alts rest hbody ih =>
    rw [rules_name_assignment, hbody]
    show run ⟨.inBody n [] [], rs⟩ ts = ((rules rest).map (⟨n, alts⟩ :: ·)).map (rs ++ ·)
    rw [run_body, hbody]
    show run ⟨.between, rs ++ [⟨n, alts⟩]⟩ rest = _
    rw [ih]
    cases rules rest with
    | error e => rfl
    | ok others =>
      show Except.ok (rs ++ [⟨n, alts⟩] ++ others) = .ok (rs ++ ⟨n, alts⟩ :: others)
      rw [List.append_assoc, List.singleton_append]
  | case6 n =>
    rw [rules_name_nil]
    rfl
  | case7 n t ts hother =>
    have hrules : rules (.name n :: t :: ts) = .error (.unexpectedToken t) := by
      rw [rules]
      exact hother
    have hassignment : t ≠ .assignment := hother
    have hstep : step ⟨.named n, rs⟩ t = .error (.unexpectedToken t) := by
      simp [step, hassignment]
    rw [hrules]
    show run ⟨.named n, rs⟩ (t :: ts) = _
    rw [run_cons, hstep]
    rfl
  | case8 t ts hline hcomment _ hlast hnext =>
    have hrules : rules (t :: ts) = .error (.unexpectedToken t) := by
      rw [rules] <;> assumption
    have hend : t ≠ .endOfLine := hline
    have hstep : step ⟨.between, rs⟩ t = .error (.unexpectedToken t) := by
      cases t with
      | comment text => exact absurd rfl (hcomment text)
      | name n =>
        cases ts with
        | nil => exact absurd rfl (hlast n rfl)
        | cons u ts => exact absurd rfl (hnext n u ts rfl)
      | marker m => simp [step, hend]
      | _ => rfl
    rw [hrules, run_cons, hstep]
    rfl

/-- **Taking the tokens one by one gives the rules that grouping gives**, or its error. -/
theorem run_eq_rules (ts : List Token) : run ⟨.between, []⟩ ts = rules ts := by
  rw [run_between]
  cases rules ts <;> rfl

end Machine

end GrammarText.Grouping
