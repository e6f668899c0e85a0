import GrammarText.Proofs.Document.FirstFlaw
import GrammarText.Proofs.Document.RuleLines
import GrammarText.Proofs.RuleTable.Repeats

/-!
# Comments and blank lines

The *core* of some lines is what is left of them, trimmed, when the blank lines and the comments are taken out.  All
that a grammar means is in its core, and whether comments are kept does not bear on it.

* `Line.tokens_of_not_matters` and `Line.rules_append_of_matters`: what one line of either sort adds to a token list;
* `exists_tokensOf_core_of_ok`: the tokens of lines are grouped like those of their core;
* `exists_tokensOf_core_of_error`: the violation in lines is the one in their core, at the place that the line has
  there (`PointsAt`);
* `tokensOf_without_comments`: what keeping comments adds to the tokens is the comments, and nothing else;
* `tokensOf_of_core_eq`: two documents with one core have the same rules and the same table, or the same violation.
-/

namespace GrammarText

/-- Tells whether a trimmed line is neither blank nor a comment. -/
def Line.matters (line : String) : Bool :=
  line != "" && line.toList.head? != some ';'

/-! ## What one line adds -/

namespace Line

variable {line : String} {keepComments : Bool} {ts : List Token}

theorem matters_eq_false_iff :
    matters (Text.trimmed line) = false ↔ shape line = .blank ∨ ∃ text, shape line = .comment text := by
  have hblank : Text.trimmed line = "" ↔ Text.trim line.toList = [] := by
    rw [← String.toList_eq_nil_iff, Text.toList_trimmed]
  have hcomment : (Text.trimmed line).toList.head? = some ';' ↔ ∃ text, Text.trim line.toList = ';' :: text := by
    rw [Text.toList_trimmed, List.head?_eq_some_iff]
  simp only [matters, shape, shape_eq_blank_iff, shape_eq_comment_iff, ← hblank, ← hcomment, Bool.and_eq_false_iff,
    bne_eq_false_iff_eq]

/-- **A comment or a blank line is never at fault, and adds nothing to the rules.** -/
theorem tokens_of_not_matters (h : matters (Text.trimmed line) = false) (keepComments : Bool) :
    ∃ ts, tokens keepComments line = .ok ts ∧ ∀ us, Grouping.rules (ts ++ us) = Grouping.rules us := by
  rcases matters_eq_false_iff.mp h with hblank | ⟨text, hcomment⟩
  · refine ⟨[.endOfLine], ?_, Grouping.rules_endOfLine⟩
    rw [tokens, hblank]
  · cases keepComments with
    | true =>
      refine ⟨[.comment (String.ofList (Text.trim text))], ?_, Grouping.rules_comment _⟩
      rw [tokens, hcomment]
      rfl
    | false =>
      refine ⟨[], ?_, fun us => rfl⟩
      rw [tokens, hcomment]
      rfl

theorem matters_of_tokens_eq_error {f : Flaw} (h : tokens keepComments line = .error f) :
    matters (Text.trimmed line) = true := by
  by_contra hnot
  obtain ⟨ts, hts, -⟩ := tokens_of_not_matters (Bool.eq_false_iff.mpr hnot) keepComments
  rw [hts] at h
  cases h

/-- Whether comments are kept is all the same to the other lines. -/
theorem tokens_of_matters (h : matters (Text.trimmed line) = true) (keep keep' : Bool) :
    tokens keep line = tokens keep' line := by
  unfold tokens
  cases hshape : shape line with
  | comment text =>
    have hnot := matters_eq_false_iff.mpr (.inr ⟨text, hshape⟩)
    rw [h] at hnot
    cases hnot
  | blank => rfl
  | definition after => rfl
  | stray => rfl

/-- **A line that matters, if it is not at fault, adds its rule** to those of whatever follows it. -/
theorem rules_append_of_matters (h : matters (Text.trimmed line) = true) (hline : tokens keepComments line = .ok ts)
    {us vs : List Token} (hrules : Grouping.rules us = Grouping.rules vs) :
    Grouping.rules (ts ++ us) = Grouping.rules (ts ++ vs) := by
  have hform := tokens_eq_ok_iff.mp hline
  generalize hcs : Text.trim line.toList = cs at hform
  cases hform with
  | comment text =>
    have hnot := matters_eq_false_iff.mpr (.inr ⟨text, shape_eq_comment_iff.mpr hcs⟩)
    rw [h] at hnot
    cases hnot
  | blank =>
    have hnot := matters_eq_false_iff.mpr (.inl (shape_eq_blank_iff.mpr hcs))
    rw [h] at hnot
    cases hnot
  | @definition n w b body hvalid hgap hbody =>
    have hinBody : RuleLine.InBody ⟨String.ofList n, body⟩ := Token.inBody_of_isBody hbody
    exact RuleLine.rules_append_congr hinBody hrules

/-- No token of a rule line is a comment. -/
theorem definition_filter_eq_self {after : List Char} (h : definition after = .ok ts) :
    (ts.filter fun t => t.kind ≠ .comment) = ts := by
  obtain ⟨n, w, b, body, -, -, hbody, -, rfl⟩ := definition_eq_ok_iff.mp h
  apply List.filter_eq_self.mpr
  intro t ht
  have hcases : t = .name (String.ofList n) ∨ t = .assignment ∨ t ∈ body ∨ t = .endOfLine := by simpa using ht
  rcases hcases with rfl | rfl | hmem | rfl
  · rfl
  · rfl
  · have hinBody := Token.inBody_of_isBody hbody t hmem
    cases t with
    | comment text => exact hinBody.elim
    | _ => rfl
  · rfl

/-- Without its comment tokens a line is what it is when comments are not kept. -/
theorem tokens_false_eq (line : String) :
    tokens false line = (tokens true line).map fun ts => ts.filter fun t => t.kind ≠ .comment := by
  unfold tokens
  cases shape line with
  | blank => rfl
  | comment text => rfl
  | stray => rfl
  | definition after =>
    cases hafter : definition after with
    | error f => simp only [hafter, Except.map]
    | ok ts => simp only [hafter, Except.map, definition_filter_eq_self hafter]

end Line

namespace Document

/-! ## The core of some lines -/

/-- The trimmed lines that are neither blank nor a comment. -/
def core (lines : List String) : List String :=
  (Text.trimEach lines).filter Line.matters

/-- Line `i` of some lines is number `k` of their core. -/
structure PointsAt (lines : List String) (i k : Nat) : Prop where
  inRange : i < lines.length
  line : (core lines)[k]? = some (Text.trimmed lines[i])
  before : (core (lines.take i)).length = k

variable {line : String} {lines rest : List String} {settings : Settings} {ts : List Token}

theorem core_cons_of_matters (h : Line.matters (Text.trimmed line) = true) (rest : List String) :
    core (line :: rest) = Text.trimmed line :: core rest :=
  List.filter_cons_of_pos h

theorem core_cons_of_not_matters (h : Line.matters (Text.trimmed line) = false) (rest : List String) :
    core (line :: rest) = core rest :=
  List.filter_cons_of_neg (by simp [h])

theorem core_append (xs ys : List String) : core (xs ++ ys) = core xs ++ core ys := by
  rw [core, Text.trimEach, List.map_append, List.filter_append]
  rfl

/-- A line in the core of some lines is one of them, trimmed. -/
theorem exists_of_mem_core (h : line ∈ core lines) :
    ∃ l ∈ lines, Text.trimmed l = line ∧ Line.matters (Text.trimmed l) = true := by
  obtain ⟨hmem, hmatters⟩ := List.mem_filter.mp h
  obtain ⟨l, hl, rfl⟩ := List.mem_map.mp hmem
  exact ⟨l, hl, rfl, hmatters⟩

theorem pointsAt_length (before after : List String) (h : Line.matters (Text.trimmed line) = true) :
    PointsAt (before ++ line :: after) before.length (core before).length := by
  have hlt : before.length < (before ++ line :: after).length := by
    rw [List.length_append, List.length_cons]
    omega
  have hline : (before ++ line :: after)[before.length] = line := by simp
  refine ⟨hlt, ?_, ?_⟩
  · rw [core_append, core_cons_of_matters h, List.getElem?_append_right (Nat.le_refl _), Nat.sub_self, hline]
    rfl
  · rw [List.take_left]

/-! ## Reading the core alone -/

theorem tokensOf_eq_ok_iff : tokensOf settings lines = .ok ts ↔ IsDocument settings.keepComments lines ts := by
  rw [tokensOf, tokens_ofSource_lines]
  exact tokens_eq_ok_iff

/-- **The tokens of lines are grouped like those of their core.** -/
theorem exists_tokensOf_core_of_ok (h : tokensOf settings lines = .ok ts) :
    ∃ us, tokensOf settings (core lines) = .ok us ∧ Grouping.rules ts = Grouping.rules us := by
  rw [tokensOf_eq_ok_iff] at h
  simp only [tokensOf_eq_ok_iff]
  induction h with
  | nil => exact ⟨[], .nil, rfl⟩
  | @cons line lines ts later first _ ih =>
    obtain ⟨us, hus, hrules⟩ := ih
    have hline : Line.tokens settings.keepComments line = .ok ts := Line.tokens_eq_ok_iff.mpr first
    cases hmatters : Line.matters (Text.trimmed line) with
    | false =>
      obtain ⟨ts', hts', hnothing⟩ := Line.tokens_of_not_matters hmatters settings.keepComments
      obtain rfl : ts' = ts := Except.ok.inj (hts'.symm.trans hline)
      rw [core_cons_of_not_matters hmatters]
      exact ⟨us, hus, (hnothing later).trans hrules⟩
    | true =>
      have hfirst : Line.IsLine settings.keepComments (Text.trim (Text.trimmed line).toList) ts := by
        rw [← Line.tokens_eq_ok_iff, Line.tokens_trimmed]
        exact hline
      rw [core_cons_of_matters hmatters]
      exact ⟨ts ++ us, .cons hfirst hus, Line.rules_append_of_matters hmatters hline hrules⟩

/-- **The violation in lines is that in their core**, but for the number of the line. -/
theorem exists_tokensOf_core_of_error {v : Violation} (h : tokensOf settings lines = .error v) :
    ∃ w, tokensOf settings (core lines) = .error w ∧ w.reason = v.reason ∧ w.fragment = v.fragment ∧
      w.grammar = v.grammar ∧ PointsAt lines v.line w.line := by
  obtain ⟨before, line, after, w, rfl, hbefore, hline, rfl⟩ := tokensOf_eq_error_iff.mp h
  have hzero := (of_tokensOf_singleton_eq_error hline).1
  have halone : ∀ l, tokensOf settings [Text.trimmed l] = tokensOf settings [l] := by
    intro l
    rw [tokensOf_singleton, tokensOf_singleton, Line.tokens_trimmed]
  have hmatters : Line.matters (Text.trimmed line) = true := by
    rw [tokensOf_singleton] at hline
    obtain ⟨f, hf, -⟩ := Except.mapError_eq_error_iff.mp hline
    exact Line.matters_of_tokens_eq_error hf
  have hcore : core (before ++ line :: after) = core before ++ Text.trimmed line :: core after := by
    rw [core_append, core_cons_of_matters hmatters]
  refine ⟨w.later (core before).length, ?_, rfl, rfl, rfl, ?_⟩
  · rw [hcore]
    refine tokensOf_eq_error_iff.mpr ⟨core before, Text.trimmed line, core after, w, rfl, ?_, ?_, rfl⟩
    · intro l hl
      obtain ⟨l', hl', rfl, -⟩ := exists_of_mem_core hl
      rw [halone]
      exact hbefore l' hl'
    · rw [halone, hline]
  · show PointsAt _ (w.line + before.length) (w.line + (core before).length)
    rw [hzero, Nat.zero_add, Nat.zero_add]
    exact pointsAt_length before after hmatters

/-- What lines come to is a matter of what each of them comes to, and of the grammar's name. -/
theorem result_lexLines_congr {s s' : Settings} (hgrammar : s.grammar = s'.grammar)
    (h : ∀ line ∈ lines, Line.tokens s.keepComments line = Line.tokens s'.keepComments line) (n : Nat) :
    (lexLines s n lines).result = (lexLines s' n lines).result := by
  induction lines generalizing n with
  | nil => rfl
  | cons line rest ih =>
    have hrest := ih (fun l hl => h l (List.mem_cons_of_mem line hl)) (n + 1)
    rw [result_lexLines_cons, result_lexLines_cons, h line List.mem_cons_self, hgrammar, hrest]

/-- Whether comments are kept is all the same to a core. -/
theorem tokensOf_core_congr {s s' : Settings} (hgrammar : s.grammar = s'.grammar) (lines : List String) :
    tokensOf s (core lines) = tokensOf s' (core lines) := by
  rw [tokensOf_eq, tokensOf_eq]
  apply result_lexLines_congr hgrammar
  intro line hline
  obtain ⟨l, -, rfl, hmatters⟩ := exists_of_mem_core hline
  rw [Line.tokens_trimmed, Line.tokens_trimmed]
  exact Line.tokens_of_matters hmatters _ _

/-- **Lines that can be read can be read under any settings**, into tokens with the same rules. -/
theorem exists_tokensOf_of_ok {s : Settings} (h : tokensOf s lines = .ok ts) (s' : Settings) :
    ∃ us, tokensOf s' lines = .ok us ∧ Grouping.rules us = Grouping.rules ts := by
  obtain ⟨us, hus, hrules⟩ := exists_tokensOf_core_of_ok h
  have hcore : tokensOf s' (core lines) = .ok us := by
    have hkeep : tokensOf s' (core lines) = tokensOf { s' with keepComments := s.keepComments } (core lines) := by
      apply tokensOf_core_congr
      rfl
    have hform : IsDocument s.keepComments (core lines) us := tokensOf_eq_ok_iff.mp hus
    rw [hkeep]
    exact tokensOf_eq_ok_iff.mpr hform
  cases hlines : tokensOf s' lines with
  | ok vs =>
    obtain ⟨us', hus', hrules'⟩ := exists_tokensOf_core_of_ok hlines
    obtain rfl : us = us' := Except.ok.inj (hcore.symm.trans hus')
    exact ⟨vs, rfl, hrules'.trans hrules.symm⟩
  | error v =>
    obtain ⟨w, hw, -⟩ := exists_tokensOf_core_of_error hlines
    rw [hcore] at hw
    cases hw

/-! ## Keeping comments -/

theorem result_lexLines_without_comments (settings : Settings) (n : Nat) (lines : List String) :
    (lexLines { settings with keepComments := false } n lines).result =
      (lexLines { settings with keepComments := true } n lines).result.map fun ts =>
        ts.filter fun t => t.kind ≠ .comment := by
  induction lines generalizing n with
  | nil => rfl
  | cons line rest ih =>
    rw [result_lexLines_cons, result_lexLines_cons, ih (n + 1)]
    show ((Line.tokens false line).mapError _).bind _ = (((Line.tokens true line).mapError _).bind _).map _
    rw [Line.tokens_false_eq]
    cases Line.tokens true line with
    | error f => rfl
    | ok ts =>
      show ((lexLines { settings with keepComments := true } (n + 1) rest).result.map _).map _
        = ((lexLines { settings with keepComments := true } (n + 1) rest).result.map _).map _
      cases (lexLines { settings with keepComments := true } (n + 1) rest).result with
      | error v => rfl
      | ok us => exact congrArg Except.ok (List.filter_append ts us).symm

/-- **Comments that are kept are all that keeping them adds.** -/
theorem tokensOf_without_comments (settings : Settings) (lines : List String) :
    tokensOf { settings with keepComments := false } lines =
      (tokensOf { settings with keepComments := true } lines).map fun ts => ts.filter fun t => t.kind ≠ .comment := by
  rw [tokensOf_eq, tokensOf_eq, result_lexLines_without_comments]

/-! ## Two documents with one core -/

/-- **Comments and blank lines never bear on a grammar.**  Two documents with one core are both read, into the same rules
and the same table, or both fail at the same line of the core with the same violation but for its line number; and
keeping comments adds their tokens and nothing else. -/
theorem tokensOf_of_core_eq :
    (∀ (s s' : Settings) (xs ys : List String), core xs = core ys → s.grammar = s'.grammar → s.repeats = s'.repeats →
      (∃ ts us, tokensOf s xs = .ok ts ∧ tokensOf s' ys = .ok us ∧ Grouping.rules ts = Grouping.rules us ∧
        RuleTable.ofTokens s ts = RuleTable.ofTokens s' us) ∨
      ∃ v w k, tokensOf s xs = .error v ∧ tokensOf s' ys = .error w ∧ v.reason = w.reason ∧
        v.grammar = w.grammar ∧ v.fragment = w.fragment ∧ PointsAt xs v.line k ∧ PointsAt ys w.line k) ∧
    ∀ (settings : Settings) (lines : List String),
      tokensOf { settings with keepComments := false } lines =
        (tokensOf { settings with keepComments := true } lines).map fun ts =>
          ts.filter fun t => t.kind ≠ .comment := by
  refine ⟨fun s s' xs ys hcore hgrammar hrepeats => ?_, tokensOf_without_comments⟩
  have hsame : tokensOf s (core xs) = tokensOf s' (core ys) := by
    rw [hcore]
    exact tokensOf_core_congr hgrammar ys
  cases hxs : tokensOf s xs with
  | ok ts =>
    obtain ⟨us, hus, hrules⟩ := exists_tokensOf_core_of_ok hxs
    cases hys : tokensOf s' ys with
    | ok ts' =>
      obtain ⟨us', hus', hrules'⟩ := exists_tokensOf_core_of_ok hys
      obtain rfl : us = us' := Except.ok.inj ((hus.symm.trans hsame).trans hus')
      have hboth : Grouping.rules ts = Grouping.rules ts' := hrules.trans hrules'.symm
      exact .inl ⟨ts, ts', rfl, rfl, hboth, RuleTable.ofTokens_congr hgrammar hrepeats hboth⟩
    | error w =>
      obtain ⟨w', hw', -⟩ := exists_tokensOf_core_of_error hys
      rw [← hsame, hus] at hw'
      cases hw'
  | error v =>
    obtain ⟨v', hv', hreason, hfragment, hgrammar', hplace⟩ := exists_tokensOf_core_of_error hxs
    cases hys : tokensOf s' ys with
    | ok ts' =>
      obtain ⟨us', hus', -⟩ := exists_tokensOf_core_of_ok hys
      rw [← hsame, hv'] at hus'
      cases hus'
    | error w =>
      obtain ⟨w', hw', hreason', hfragment', hgrammar'', hplace'⟩ := exists_tokensOf_core_of_error hys
      obtain rfl : v' = w' := Except.error.inj ((hv'.symm.trans hsame).trans hw')
      exact .inr ⟨v, w, v'.line, rfl, rfl, hreason.symm.trans hreason', hgrammar'.symm.trans hgrammar'',
        hfragment.symm.trans hfragment', hplace, hplace'⟩

/-- Two grammars with comments and blank lines in different places, one of them read with its comments kept, have the
same table; and where they are at fault, it is in the same rule, on lines 3 and 1. -/
theorem tokensOf_of_core_eq_shifted :
    core ["; c", "<a> ::= 'x'", ""] = core [" <a> ::= 'x'"] ∧
    (∃ ts us, tokensOf { keepComments := true } ["; c", "<a> ::= 'x'", ""] = .ok ts ∧
      tokensOf {} [" <a> ::= 'x'"] = .ok us ∧ RuleTable.ofTokens { keepComments := true } ts = RuleTable.ofTokens {} us) ∧
    core ["; c", "<a> ::= 'x'", "", "<b!>"] = core ["<a> ::= 'x'", "<b!>", ";"] ∧
    ∃ k, PointsAt ["; c", "<a> ::= 'x'", "", "<b!>"] 3 k ∧ PointsAt ["<a> ::= 'x'", "<b!>", ";"] 1 k := by
  have hshort : core ["; c", "<a> ::= 'x'", ""] = core [" <a> ::= 'x'"] := by decide +kernel
  have hlong : core ["; c", "<a> ::= 'x'", "", "<b!>"] = core ["<a> ::= 'x'", "<b!>", ";"] := by decide +kernel
  have hread : tokensOf {} [" <a> ::= 'x'"] = .ok [.name "a", .assignment, .literal "x", .endOfLine] := by
    decide +kernel
  have hfirst : tokensOf { keepComments := true } ["; c", "<a> ::= 'x'", "", "<b!>"]
      = .error ⟨⟨.invalidName, "b!"⟩, 3, unnamedGrammar⟩ := by decide +kernel
  have hsecond : tokensOf {} ["<a> ::= 'x'", "<b!>", ";"] = .error ⟨⟨.invalidName, "b!"⟩, 1, unnamedGrammar⟩ := by
    decide +kernel
  obtain ⟨hsame, -⟩ := tokensOf_of_core_eq
  refine ⟨hshort, ?_, hlong, ?_⟩
  · rcases hsame { keepComments := true } {} _ _ hshort rfl rfl with ⟨ts, us, hts, hus, -, htable⟩ | ⟨v, w, k, -, hw, -⟩
    · exact ⟨ts, us, hts, hus, htable⟩
    · rw [hread] at hw
      cases hw
  · rcases hsame { keepComments := true } {} _ _ hlong rfl rfl with ⟨ts, us, hts, -⟩ | ⟨v, w, k, hv, hw, -, -, -, hplaces⟩
    · rw [hfirst] at hts
      cases hts
    · obtain rfl := Except.error.inj (hfirst.symm.trans hv)
      obtain rfl := Except.error.inj (hsecond.symm.trans hw)
      exact ⟨k, hplaces⟩

end Document

end GrammarText
