import GrammarText.Document
import GrammarText.Proofs.Document.Grouping
import Mathlib.Data.List.Forall2

/-!
# Grouping a document line by line

Grouping does not see the lines of a document any more, yet its answer is one line's after the other.  A line that
opens a rule has a name and a body (`RuleLine.IsOf`), and the tokens of a document are grouped like those of its rule
lines alone (`exists_ruleLines_of_isDocument`).

* `RuleLine.rules_flatMap_tokens`: rule lines with well placed bars are one rule each;
* `RuleLine.rules_flatMap_tokens_of_not`: the first other one decides the error, which carries its name;
* `rules_of_ruleLines`: lexed tokens are never unterminated, none of them is unexpected, and whether they make rules is
  a matter of the bars in each line.
-/

namespace GrammarText

/-- Tells whether a line opens a rule, once it is trimmed. -/
def Line.opensRule (line : String) : Bool :=
  (Text.trim line.toList).head? == some '<'

/-- The name that a rule line defines and the tokens of its body. -/
structure RuleLine where
  name : String
  body : List Token

namespace RuleLine

/-- The tokens of the whole line. -/
def tokens (d : RuleLine) : List Token :=
  .name d.name :: .assignment :: (d.body ++ [.endOfLine])

/-- The name is what stands between the line's opening bracket and the first closing one, and lexing the line alone
gives the name and the body. -/
structure IsOf (keepComments : Bool) (line : String) (d : RuleLine) : Prop where
  name : ∃ rest, Text.trim line.toList = '<' :: (d.name.toList ++ '>' :: rest)
  first : '>' ∉ d.name.toList
  tokens : Line.tokens keepComments line = .ok d.tokens

/-- The rule has the name of the line, and its alternatives are the body. -/
structure IsRule (d : RuleLine) (r : Rule) : Prop where
  name : r.name = d.name
  alternatives : Grouping.IsAlternatives r.alternatives d.body

/-- A line has one name and one body. -/
theorem IsOf.unique {keepComments : Bool} {line : String} {d e : RuleLine} (hd : d.IsOf keepComments line)
    (he : e.IsOf keepComments line) : d = e := by
  have htokens : d.tokens = e.tokens := Except.ok.inj (hd.tokens.symm.trans he.tokens)
  obtain ⟨hname, hrest⟩ := List.cons.inj htokens
  have hbody : d.body = e.body := List.append_cancel_right (List.cons.inj hrest).2
  cases d
  cases e
  cases Token.name.inj hname
  cases hbody
  rfl

/-! ## Grouping rule lines -/

/-- A body that lexing can give. -/
def InBody (d : RuleLine) : Prop :=
  ∀ t ∈ d.body, t.InBody

variable {d : RuleLine} {defs : List RuleLine}

theorem tokens_append (d : RuleLine) (ts : List Token) :
    d.tokens ++ ts = .name d.name :: .assignment :: (d.body ++ .endOfLine :: ts) := by
  simp [tokens]

theorem exists_rule_append (hbody : d.InBody) (hwell : Grouping.WellBarred d.body) :
    ∃ r, d.IsRule r ∧ ∀ ts, Grouping.rules (d.tokens ++ ts) = (Grouping.rules ts).map (r :: ·) := by
  obtain ⟨alternatives, hbarred⟩ := Segment.exists_isBarred hbody
  have halternatives := hbarred.isAlternatives (hbarred.wellBarred_iff.mp hwell)
  refine ⟨⟨d.name, alternatives⟩, ⟨rfl, halternatives⟩, fun ts => ?_⟩
  rw [tokens_append, hbarred.rules_append hwell]

/-- A line with ill placed bars decides the error, whatever follows it. -/
theorem rules_append_of_not_wellBarred (hbody : d.InBody) (hwell : ¬Grouping.WellBarred d.body) (ts : List Token) :
    Grouping.rules (d.tokens ++ ts) =
      .error (if d.body = [] then .emptyRule d.name else .emptyAlternative d.name) := by
  obtain ⟨alternatives, hbarred⟩ := Segment.exists_isBarred hbody
  rw [tokens_append, hbarred.rules_append_of_not_wellBarred hwell]

/-- Lines with well placed bars are one rule each, and what follows them is grouped by itself. -/
theorem exists_rules_append (hbody : ∀ d ∈ defs, d.InBody) (hwell : ∀ d ∈ defs, Grouping.WellBarred d.body) :
    ∃ rs, List.Forall₂ IsRule defs rs ∧
      ∀ ts, Grouping.rules (defs.flatMap tokens ++ ts) = (Grouping.rules ts).map (rs ++ ·) := by
  induction defs with
  | nil =>
    refine ⟨[], .nil, fun ts => ?_⟩
    show Grouping.rules ts = (Grouping.rules ts).map fun rs => rs
    cases Grouping.rules ts <;> rfl
  | cons d defs ih =>
    obtain ⟨r, hr, hfirst⟩ := exists_rule_append (hbody d List.mem_cons_self) (hwell d List.mem_cons_self)
    obtain ⟨rs, hrs, hrest⟩ := ih (fun e he => hbody e (List.mem_cons_of_mem d he))
      fun e he => hwell e (List.mem_cons_of_mem d he)
    refine ⟨r :: rs, .cons hr hrs, fun ts => ?_⟩
    rw [List.flatMap_cons, List.append_assoc, hfirst, hrest]
    cases Grouping.rules ts <;> rfl

/-- If the bars of some line are ill placed, there is a first such line. -/
theorem exists_first_not_wellBarred (h : ¬∀ d ∈ defs, Grouping.WellBarred d.body) :
    ∃ before d after, defs = before ++ d :: after ∧ (∀ e ∈ before, Grouping.WellBarred e.body) ∧
      ¬Grouping.WellBarred d.body := by
  have hfound : (defs.find? fun d => ¬Grouping.WellBarred d.body).isSome = true := by
    rw [List.find?_isSome]
    simpa using h
  obtain ⟨d, hd⟩ := Option.isSome_iff_exists.mp hfound
  obtain ⟨hill, before, after, hdefs, hbefore⟩ := List.find?_eq_some_iff_append.mp hd
  exact ⟨before, d, after, hdefs, by simpa using hbefore, by simpa using hill⟩

/-- Lines with well placed bars are grouped as one rule each. -/
theorem rules_flatMap_tokens (hbody : ∀ d ∈ defs, d.InBody) (hwell : ∀ d ∈ defs, Grouping.WellBarred d.body) :
    ∃ rs, Grouping.rules (defs.flatMap tokens) = .ok rs ∧ List.Forall₂ IsRule defs rs := by
  obtain ⟨rs, hrs, happend⟩ := exists_rules_append hbody hwell
  have hall := happend []
  rw [List.append_nil, Grouping.rules_nil] at hall
  refine ⟨rs, hall.trans ?_, hrs⟩
  show Except.ok (rs ++ []) = Except.ok rs
  rw [List.append_nil]

/-- Otherwise the first line with ill placed bars decides the error. -/
theorem rules_flatMap_tokens_of_not (hbody : ∀ d ∈ defs, d.InBody) (h : ¬∀ d ∈ defs, Grouping.WellBarred d.body) :
    ∃ before d after, defs = before ++ d :: after ∧ (∀ e ∈ before, Grouping.WellBarred e.body) ∧
      ¬Grouping.WellBarred d.body ∧
      Grouping.rules (defs.flatMap tokens) =
        .error (if d.body = [] then .emptyRule d.name else .emptyAlternative d.name) := by
  obtain ⟨before, d, after, rfl, hbefore, hd⟩ := exists_first_not_wellBarred h
  obtain ⟨rs, -, happend⟩ := exists_rules_append (fun e he => hbody e (List.mem_append_left _ he)) hbefore
  have hfirst := rules_append_of_not_wellBarred (hbody d (by simp)) hd (after.flatMap tokens)
  refine ⟨before, d, after, rfl, hbefore, hd, ?_⟩
  rw [List.flatMap_append, List.flatMap_cons, happend, hfirst]
  rfl

/-- Whether the tokens after a line can be grouped does not hang on how they came about. -/
theorem rules_append_congr (hbody : d.InBody) {ts us : List Token} (h : Grouping.rules ts = Grouping.rules us) :
    Grouping.rules (d.tokens ++ ts) = Grouping.rules (d.tokens ++ us) := by
  by_cases hwell : Grouping.WellBarred d.body
  · obtain ⟨r, -, hfirst⟩ := exists_rule_append hbody hwell
    rw [hfirst, hfirst, h]
  · rw [rules_append_of_not_wellBarred hbody hwell, rules_append_of_not_wellBarred hbody hwell]

end RuleLine

/-! ## Whole documents -/

namespace Document

/-- **The tokens of a document are grouped like those of its rule lines**: comments and blank lines do not matter. -/
theorem exists_ruleLines_of_isDocument {keepComments : Bool} {lines : List String} {ts : List Token}
    (h : IsDocument keepComments lines ts) :
    ∃ defs : List RuleLine, List.Forall₂ (RuleLine.IsOf keepComments) (lines.filter Line.opensRule) defs ∧
      (∀ d ∈ defs, d.InBody) ∧ Grouping.rules ts = Grouping.rules (defs.flatMap RuleLine.tokens) := by
  induction h with
  | nil => exact ⟨[], .nil, by simp, rfl⟩
  | @cons line lines ts us first _ ih =>
    obtain ⟨defs, hdefs, hbody, hrules⟩ := ih
    generalize hcs : Text.trim line.toList = cs at first
    cases first with
    | comment text =>
      have hclosed : ¬Line.opensRule line = true := by simp [Line.opensRule, hcs]
      refine ⟨defs, ?_, hbody, ?_⟩
      · rwa [List.filter_cons_of_neg hclosed]
      · rw [← hrules]
        cases keepComments with
        | true => exact Grouping.rules_comment _ us
        | false => rfl
    | blank =>
      have hclosed : ¬Line.opensRule line = true := by simp [Line.opensRule, hcs]
      refine ⟨defs, ?_, hbody, ?_⟩
      · rwa [List.filter_cons_of_neg hclosed]
      · rw [← hrules]
        exact Grouping.rules_endOfLine us
    | @definition n w b body hvalid hgap hisBody =>
      have hopens : Line.opensRule line = true := by simp [Line.opensRule, hcs]
      have hinBody : RuleLine.InBody ⟨String.ofList n, body⟩ := Token.inBody_of_isBody hisBody
      have hof : RuleLine.IsOf keepComments line ⟨String.ofList n, body⟩ := by
        refine ⟨⟨w ++ ':' :: ':' :: '=' :: b, ?_⟩, ?_, ?_⟩
        · rw [hcs, String.toList_ofList]
        · rw [String.toList_ofList]
          exact Line.not_mem_of_isRuleName hvalid (by decide)
        · rw [Line.tokens_eq_ok_iff, hcs]
          exact .definition hvalid hgap hisBody
      refine ⟨⟨String.ofList n, body⟩ :: defs, ?_, ?_, ?_⟩
      · rw [List.filter_cons_of_pos hopens]
        exact .cons hof hdefs
      · intro d hd
        rcases List.mem_cons.mp hd with rfl | hd
        · exact hinBody
        · exact hbody d hd
      · rw [List.flatMap_cons]
        exact RuleLine.rules_append_congr hinBody hrules

/-- **What grouping makes of lexed tokens, line by line.**  No token is unexpected, and no rule is unterminated.  If the
bars of every rule line are well placed, the rules are those of the lines that open one, in order and under the names
that stand there.  Otherwise the error carries the name of the first line of which they are not, and tells a line
without a body from one with an empty alternative. -/
theorem rules_of_ruleLines (settings : Settings) (source : Source) (ts : List Token)
    (h : (ofSource settings source).tokens = .ok ts) :
    ∃ defs : List RuleLine,
      List.Forall₂ (RuleLine.IsOf settings.keepComments) (source.trimmedLines.filter Line.opensRule) defs ∧
      (∀ e, Grouping.rules ts = .error e → (∀ t, e ≠ .unexpectedToken t) ∧ ∀ n, e ≠ .unterminated n) ∧
      ((∀ d ∈ defs, Grouping.WellBarred d.body) →
        ∃ rs, Grouping.rules ts = .ok rs ∧ List.Forall₂ RuleLine.IsRule defs rs) ∧
      ((¬∀ d ∈ defs, Grouping.WellBarred d.body) →
        ∃ before d after, defs = before ++ d :: after ∧ (∀ e ∈ before, Grouping.WellBarred e.body) ∧
          ¬Grouping.WellBarred d.body ∧
          Grouping.rules ts = .error (if d.body = [] then .emptyRule d.name else .emptyAlternative d.name)) := by
  obtain ⟨defs, hdefs, hbody, hrules⟩ := exists_ruleLines_of_isDocument (tokens_eq_ok_iff.mp h)
  rw [hrules]
  refine ⟨defs, hdefs, fun e he => ?_, RuleLine.rules_flatMap_tokens hbody, RuleLine.rules_flatMap_tokens_of_not hbody⟩
  by_cases hwell : ∀ d ∈ defs, Grouping.WellBarred d.body
  · obtain ⟨rs, hrs, -⟩ := RuleLine.rules_flatMap_tokens hbody hwell
    rw [hrs] at he
    cases he
  · obtain ⟨-, d, -, -, -, -, herror⟩ := RuleLine.rules_flatMap_tokens_of_not hbody hwell
    obtain rfl := Except.error.inj (herror.symm.trans he)
    by_cases hnil : d.body = []
    · simp [hnil]
    · simp [hnil]

/-- The second of three rule lines has no body, and the third one only a bar. -/
theorem rules_of_ruleLines_empty_body :
    (ofSource {} (.text "; c\n<a> ::= 'x' | <b>\n\n<b> ::=\n<c> ::= |")).tokens =
      .ok [.name "a", .assignment, .literal "x", .separator '|', .name "b", .endOfLine, .endOfLine,
        .name "b", .assignment, .endOfLine, .name "c", .assignment, .separator '|', .endOfLine] ∧
    Grouping.rules [.name "a", .assignment, .literal "x", .separator '|', .name "b", .endOfLine, .endOfLine,
        .name "b", .assignment, .endOfLine, .name "c", .assignment, .separator '|', .endOfLine] =
      .error (.emptyRule "b") := by
  have hlexed : (ofSource {} (.text "; c\n<a> ::= 'x' | <b>\n\n<b> ::=\n<c> ::= |")).tokens =
      .ok [.name "a", .assignment, .literal "x", .separator '|', .name "b", .endOfLine, .endOfLine,
        .name "b", .assignment, .endOfLine, .name "c", .assignment, .separator '|', .endOfLine] := by decide +kernel
  obtain ⟨defs, hdefs, -, -, hbad⟩ := rules_of_ruleLines {} _ _ hlexed
  have hlines : (Source.text "; c\n<a> ::= 'x' | <b>\n\n<b> ::=\n<c> ::= |").trimmedLines.filter Line.opensRule
      = ["<a> ::= 'x' | <b>", "<b> ::=", "<c> ::= |"] := by decide +kernel
  rw [hlines] at hdefs
  have ha : RuleLine.IsOf false "<a> ::= 'x' | <b>" ⟨"a", [.literal "x", .separator '|', .name "b"]⟩ :=
    ⟨⟨" ::= 'x' | <b>".toList, by decide +kernel⟩, by decide +kernel, by decide +kernel⟩
  have hb : RuleLine.IsOf false "<b> ::=" ⟨"b", []⟩ :=
    ⟨⟨" ::=".toList, by decide +kernel⟩, by decide +kernel, by decide +kernel⟩
  have hawell : Grouping.WellBarred [.literal "x", .separator '|', .name "b"] := by decide
  rcases hdefs with _ | ⟨hfirst, _ | ⟨hsecond, hlater⟩⟩
  obtain rfl := hfirst.unique ha
  obtain rfl := hsecond.unique hb
  have hill : ∀ defs : List RuleLine, ⟨"b", []⟩ ∈ defs → ¬∀ d ∈ defs, Grouping.WellBarred d.body :=
    fun defs hmem hall => (hall _ hmem).nonempty rfl
  obtain ⟨before, d, after, hdefs, hbefore, hd, herror⟩ := hbad (hill _ (by simp))
  refine ⟨hlexed, ?_⟩
  rcases before with _ | ⟨a, _ | ⟨b, before⟩⟩
  · obtain ⟨rfl, -⟩ := List.cons.inj hdefs
    exact absurd hawell hd
  · obtain ⟨rfl, -⟩ := List.cons.inj (List.cons.inj hdefs).2
    exact herror
  · obtain ⟨rfl, -⟩ := List.cons.inj (List.cons.inj hdefs).2
    exact absurd hbefore (hill _ (by simp))

end Document

end GrammarText
