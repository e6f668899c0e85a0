import GrammarText.Proofs.Document.Grouping
import GrammarText.Proofs.Rule.ReadBack
import GrammarText.Proofs.RuleTable.Lookup
import GrammarText.Proofs.Text.LineCuts
import GrammarText.Reading

/-!
# Printing a table and reading it back

A table is printed one rule a line.  Reading the print back gives the table, index included, exactly if all rules can
be printed: their names and references are valid, no reference has the spelling of a class, and no literal holds a
line feed or both kinds of quotes.

* `ofText_render`: a printable table is read back, for its lines have the tokens of its rules, these are grouped into
  its rules, and no name repeats among them;
* `printable_of_tokens`: what comes out of lexing a text is printable, so that reading back cannot give any other
  table;
* `ofText_render_eq_ok_iff`: the two directions, and that every table made from lexed tokens is read back.
-/

namespace GrammarText

/-- A source of which each line feed ends a line: any text, and lines that hold none. -/
def Source.EndsAtLineFeeds : Source → Prop
  | .text _ => True
  | .lines ls => ∀ l ∈ ls, '\n' ∉ l.toList

theorem Source.EndsAtLineFeeds.newline_not_mem {source : Source} (h : source.EndsAtLineFeeds) :
    ∀ l ∈ source.trimmedLines, '\n' ∉ l.toList := by
  cases source with
  | text s => exact fun l hl => Text.not_mem_of_mem_trimmedLines hl
  | lines ls =>
    intro l hl hmem
    obtain ⟨l', hl', rfl⟩ := List.mem_map.mp hl
    rw [Text.toList_trimmed] at hmem
    exact h l' hl' (Text.mem_of_mem_trim hmem)

/-- A document is read by lexing it and building a table from its tokens. -/
theorem Document.table_eq (d : Document) :
    d.table = (d.tokens.mapError .violation).bind fun ts =>
      (RuleTable.ofTokens d.settings ts).mapError .table := by
  rw [table, reading, Attempt.result_bind, Attempt.result_mapError]
  rfl

theorem Document.table_eq_ok_iff {d : Document} {t : RuleTable} :
    d.table = .ok t ↔ ∃ ts, d.tokens = .ok ts ∧ RuleTable.ofTokens d.settings ts = .ok t := by
  rw [table_eq, Except.bind_eq_ok_iff]
  simp only [Except.mapError_eq_ok_iff]

namespace RuleTable

variable {settings : Settings} {tokens : List Token} {t : RuleTable}

/-- A table whose rules can all be printed. -/
def Printable (t : RuleTable) : Prop :=
  ∀ r ∈ t.rules, r.Printable

/-! ## From a table to its print and back -/

/-- The lines of a printed table are its rules, one a line. -/
theorem trimmedLines_render (h : t.Printable) :
    Text.trimmedLines t.render = Text.trimEach (t.rules.toList.map Rule.render) := by
  apply Text.trimmedLines_of_joined
  · intro l hl
    obtain ⟨r, hr, rfl⟩ := List.mem_map.mp hl
    rw [Rule.render, String.toList_ofList]
    exact (h r (Array.mem_toList_iff.mp hr)).newline_not_mem_chars
  · rw [render, String.toList_ofList, chars, List.flatMap_map]
    simp only [Rule.render, String.toList_ofList]

theorem tokens_render (h : t.Printable) (settings : Settings) :
    (Document.ofSource settings (.text t.render)).tokens = .ok (t.rules.toList.flatMap Rule.tokens) := by
  have hlines : Document.ofSource settings (.text t.render)
      = Document.ofSource settings (.lines (t.rules.toList.map Rule.render)) := by
    show (⟨settings, Text.trimmedLines t.render⟩ : Document) = _
    rw [trimmedLines_render h]
    rfl
  rw [hlines, Document.tokens_ofSource_lines, Document.tokens_eq_ok_iff]
  exact Rule.isDocument_render fun r hr => h r (Array.mem_toList_iff.mp hr)

/-- The tokens of a table's rules are grouped into these rules. -/
theorem rules_flatMap_tokens (h : ofTokens settings tokens = .ok t) :
    Grouping.rules (t.rules.toList.flatMap Rule.tokens) = .ok t.rules.toList :=
  Rule.rules_flatMap_tokens fun r hr => ne_nil_of_ofTokens h r (Array.mem_toList_iff.mp hr)

/-- The tokens of a table's rules make the table again. -/
theorem ofTokens_flatMap_tokens (h : ofTokens settings tokens = .ok t) (again : Settings) :
    ofTokens again (t.rules.toList.flatMap Rule.tokens) = .ok t := by
  obtain ⟨defs, hdefs, hholds⟩ := exists_holds_of_ofTokens h
  have hrules := rules_flatMap_tokens h
  have hdup : (t.rules.toList.map Rule.name).Nodup := hholds.indexed.nodup_names
  obtain ⟨u, hu, hsame⟩ := exists_ofTokens_of_nodup again hrules hdup
  have heq : u = t := by
    apply hsame.indexed.eq_of_rules_eq hholds.indexed
    rw [← Array.toList_inj, hsame.rules, merged_of_nodup hdup]
  rw [hu, heq]

/-- **A printable table is read back from its print.** -/
theorem ofText_render (h : ofTokens settings tokens = .ok t) (hprintable : t.Printable) :
    (ofText t.render).result = .ok t := by
  show (Document.ofSource { grammar := unnamedGrammar } (.text t.render)).table = .ok t
  exact Document.table_eq_ok_iff.mpr ⟨_, tokens_render hprintable _, ofTokens_flatMap_tokens h _⟩

/-! ## What lexing can give -/

/-- **A table made from lexed tokens is printable**, under whatever settings it was lexed and built. -/
theorem printable_of_tokens {lexed : Settings} {source : Source} (hsource : source.EndsAtLineFeeds)
    (hlexed : (Document.ofSource lexed source).tokens = .ok tokens) (h : ofTokens settings tokens = .ok t) :
    t.Printable := by
  have hdocument := Document.tokens_eq_ok_iff.mp hlexed
  obtain ⟨segs, rfl⟩ := Segment.exists_segments_of_isDocument hdocument
  obtain ⟨defs, hdefs, hholds⟩ := exists_holds_of_ofTokens h
  have hrules := Segment.madeOf_of_mem_rules hdefs
  intro r hr
  obtain ⟨⟨d, hd, hname, -⟩, hfrom⟩ := hholds.of_mem hr
  constructor
  · rw [← hname]
    exact (hrules d hd).name
  · intro alternative halternative x hx
    obtain ⟨e, he, hmem⟩ := hfrom alternative halternative
    obtain ⟨hbody, htoken⟩ := (hrules e he).terms alternative hmem x hx
    cases x with
    | name n => exact hbody
    | builtin b => trivial
    | literal text =>
      refine ⟨fun hnewline => ?_, hbody⟩
      obtain ⟨line, hline, hin⟩ := Document.exists_line_of_isDocument hdocument htoken
      exact hsource.newline_not_mem line hline (hin '\n' hnewline)

theorem printable_of_ofText {text : String} (h : (ofText text).result = .ok t) : t.Printable := by
  change (Document.ofSource { grammar := unnamedGrammar } (.text text)).table = .ok t at h
  obtain ⟨ts, htokens, hbuilt⟩ := Document.table_eq_ok_iff.mp h
  have hsource : (Source.text text).EndsAtLineFeeds := trivial
  exact printable_of_tokens hsource htokens hbuilt

/-- **Exactly the printable tables are read back from their print**, with the same rules in the same order and the
same index; and every table made from tokens that were lexed, merging included, is one of them. -/
theorem ofText_render_eq_ok_iff :
    (∀ (settings : Settings) (tokens : List Token) (t : RuleTable), ofTokens settings tokens = .ok t →
      ((ofText t.render).result = .ok t ↔ t.Printable)) ∧
    ∀ (lexed built : Settings) (source : Source) (tokens : List Token) (t : RuleTable),
      source.EndsAtLineFeeds → (Document.ofSource lexed source).tokens = .ok tokens →
      ofTokens built tokens = .ok t → t.Printable ∧ (ofText t.render).result = .ok t := by
  refine ⟨fun settings tokens t h => ⟨printable_of_ofText, ofText_render h⟩, ?_⟩
  intro lexed built source tokens t hsource hlexed h
  have hprintable := printable_of_tokens hsource hlexed h
  exact ⟨hprintable, ofText_render h hprintable⟩

/-- A text with a repeated definition, both kinds of quotes and a class is read back merged; a rule whose reference
has the spelling of a class is not. -/
theorem ofText_render_merged :
    (ofText ((empty.push ⟨"a", [[.literal "it's"], [.name "b"]]⟩).push
        ⟨"b", [[.builtin .digit], [.literal "\""]]⟩).render).result =
      .ok ((empty.push ⟨"a", [[.literal "it's"], [.name "b"]]⟩).push ⟨"b", [[.builtin .digit], [.literal "\""]]⟩) ∧
    (ofText (empty.push ⟨"a", [[.name "digit"]]⟩).render).result ≠ .ok (empty.push ⟨"a", [[.name "digit"]]⟩) := by
  have hread := ofText_render_eq_ok_iff.2 {} { repeats := .merged }
    (.text "<a> ::= \"it's\"\n<b> ::= <digit> | '\"'\n<a> ::= <b>") _
    ((empty.push ⟨"a", [[.literal "it's"], [.name "b"]]⟩).push ⟨"b", [[.builtin .digit], [.literal "\""]]⟩) trivial
    (by decide +kernel : _ = Except.ok
      [.name "a", .assignment, .literal "it's", .endOfLine,
        .name "b", .assignment, .builtin .digit, .separator '|', .literal "\"", .endOfLine,
        .name "a", .assignment, .name "b", .endOfLine])
    (by decide +kernel)
  have hspelling := ofText_render_eq_ok_iff.1 {} [.name "a", .assignment, .name "digit", .endOfLine]
    (empty.push ⟨"a", [[.name "digit"]]⟩) (by decide +kernel)
  refine ⟨hread.2, fun h => ?_⟩
  have hterm := (hspelling.mp h _ (Array.mem_push_self ..)).terms _ List.mem_cons_self _ List.mem_cons_self
  exact hterm.2 .digit rfl

end RuleTable

end GrammarText
