import GrammarText.Proofs.Document.CoreLines
import GrammarText.Proofs.RuleTable.RoundTrip

/-!
# A grammar in parts

Parts of a grammar can be read, merged and printed each by itself before they are put together; the whole comes out the
same.  What merging makes of definitions is the order in which their names come up and, for each name, the alternatives
in order, and neither changes if the definitions were merged before.

* `merged_append_merged`: merging what was merged in parts is merging all at once;
* `table_of_parts`: the same for the tables of lines, through their prints.
-/

namespace GrammarText

namespace RuleTable

/-! ## Merging in parts -/

variable {defs others : List Rule}

theorem merged_congr (hnames : (defs.map Rule.name).eraseDups = (others.map Rule.name).eraseDups)
    (halternatives : ∀ n, (defs.filter fun r => r.name = n).flatMap Rule.alternatives
      = (others.filter fun r => r.name = n).flatMap Rule.alternatives) : merged defs = merged others := by
  rw [merged, merged, hnames]
  apply List.map_congr_left
  intro n _
  rw [halternatives n]

/-- Merging leaves each name the alternatives that it has in all definitions. -/
theorem alternatives_merged (defs : List Rule) (n : String) :
    ((merged defs).filter fun r => r.name = n).flatMap Rule.alternatives
      = (defs.filter fun r => r.name = n).flatMap Rule.alternatives := by
  have honce : (defs.map Rule.name).eraseDups.filter (fun m => m = n) = if n ∈ defs.map Rule.name then [n] else [] := by
    rw [List.filter_eq, (nodup_eraseDups _).count]
    by_cases hn : n ∈ defs.map Rule.name <;> simp [hn]
  have hfilter : (merged defs).filter (fun r => r.name = n)
      = ((defs.map Rule.name).eraseDups.filter fun m => m = n).map fun m =>
          ⟨m, (defs.filter fun r => r.name = m).flatMap Rule.alternatives⟩ := by
    rw [merged, List.filter_map]
    rfl
  rw [hfilter, honce]
  by_cases hn : n ∈ defs.map Rule.name
  · rw [if_pos hn]
    simp
  · have hnone : (defs.filter fun r => r.name = n) = [] := by
      rw [List.filter_eq_nil_iff]
      intro r hr hname
      exact hn (List.mem_map.mpr ⟨r, hr, of_decide_eq_true hname⟩)
    rw [if_neg hn, hnone]
    rfl

/-- **Merging what was merged in parts is merging all at once.** -/
theorem merged_append_merged (defs others : List Rule) :
    merged (merged defs ++ merged others) = merged (defs ++ others) := by
  apply merged_congr
  · rw [List.map_append, names_merged, names_merged, eraseDups_append_eraseDups_left, eraseDups_append_eraseDups_right,
      List.map_append]
  · intro n
    rw [List.filter_append, List.flatMap_append, alternatives_merged, alternatives_merged, List.filter_append,
      List.flatMap_append]

end RuleTable

namespace Document

open RuleTable

variable {settings : Settings} {lines : List String} {t u : RuleTable}

/-! ## Tables of lines -/

/-- A table of lines holds the definitions that their tokens are grouped into. -/
theorem exists_holds_of_table (h : (ofSource settings (.lines lines)).table = .ok t) :
    ∃ ts defs, tokensOf settings lines = .ok ts ∧ ofTokens settings ts = .ok t ∧ Grouping.rules ts = .ok defs ∧
      t.Holds defs := by
  obtain ⟨ts, hts, ht⟩ := table_eq_ok_iff.mp h
  obtain ⟨defs, hdefs, hholds⟩ := exists_holds_of_ofTokens ht
  exact ⟨ts, defs, hts, ht, hdefs, hholds⟩

theorem exists_table_of_rules (hmerged : settings.repeats = .merged) {ts : List Token} {defs : List Rule}
    (hts : tokensOf settings lines = .ok ts) (hdefs : Grouping.rules ts = .ok defs) :
    ∃ t, (ofSource settings (.lines lines)).table = .ok t ∧ t.Holds defs := by
  obtain ⟨t, ht, hholds⟩ := exists_ofTokens_merged settings hmerged hdefs
  exact ⟨t, table_eq_ok_iff.mpr ⟨ts, hts, ht⟩, hholds⟩

/-- Lines in two parts have the tokens of both, and are grouped into the rules of both. -/
theorem exists_rules_append {xs ys : List String} {ts us : List Token} {defs others : List Rule}
    (hts : tokensOf settings xs = .ok ts) (hus : tokensOf settings ys = .ok us) (hdefs : Grouping.rules ts = .ok defs)
    (hothers : Grouping.rules us = .ok others) :
    tokensOf settings (xs ++ ys) = .ok (ts ++ us) ∧ Grouping.rules (ts ++ us) = .ok (defs ++ others) := by
  constructor
  · rw [tokensOf_append, hts, hus]
  · rw [Grouping.rules_append_of_ok hdefs, hothers]
    rfl

/-- The lines of a printed table have the tokens of its rules. -/
theorem tokensOf_linesOf_render (h : t.Printable) (settings : Settings) :
    tokensOf settings (Text.linesOf t.render) = .ok (t.rules.toList.flatMap Rule.tokens) := by
  have hlines : ofSource settings (.lines (Text.linesOf t.render)) = ofSource settings (.text t.render) := by
    show (⟨settings, Text.trimEach (Text.linesOf t.render)⟩ : Document) = ⟨settings, Text.trimmedLines t.render⟩
    rw [Text.trimEach_linesOf]
  rw [tokensOf, hlines, tokens_render h]

/-- **Reading, merging and printing the parts of a grammar does not change the whole.** -/
theorem table_of_parts (first second whole : Settings) (hmerged : whole.repeats = .merged) (xs ys : List String)
    (hxs : ∀ l ∈ xs, '\n' ∉ l.toList) (hys : ∀ l ∈ ys, '\n' ∉ l.toList) (t u : RuleTable)
    (ht : (ofSource first (.lines xs)).table = .ok t) (hu : (ofSource second (.lines ys)).table = .ok u) :
    ∃ v, (ofSource whole (.lines (xs ++ ys))).table = .ok v ∧
      (ofSource whole (.lines (Text.linesOf t.render ++ Text.linesOf u.render))).table = .ok v := by
  obtain ⟨ts, defs, hts, htable, hdefs, hholds⟩ := exists_holds_of_table ht
  obtain ⟨us, others, hus, hutable, hothers, hholds'⟩ := exists_holds_of_table hu
  have hsource : (Source.lines xs).EndsAtLineFeeds := hxs
  have hsource' : (Source.lines ys).EndsAtLineFeeds := hys
  have hprintable := printable_of_tokens hsource hts htable
  have hprintable' := printable_of_tokens hsource' hus hutable
  -- the parts as they are
  obtain ⟨ts', hts', hsame⟩ := exists_tokensOf_of_ok hts whole
  obtain ⟨us', hus', hsame'⟩ := exists_tokensOf_of_ok hus whole
  obtain ⟨hread, hrules⟩ := exists_rules_append hts' hus' (hsame.trans hdefs) (hsame'.trans hothers)
  obtain ⟨v, hv, hall⟩ := exists_table_of_rules hmerged hread hrules
  -- the parts as they are printed
  obtain ⟨hread', hrules'⟩ := exists_rules_append (tokensOf_linesOf_render hprintable whole)
    (tokensOf_linesOf_render hprintable' whole) (rules_flatMap_tokens htable) (rules_flatMap_tokens hutable)
  obtain ⟨w, hw, hall'⟩ := exists_table_of_rules hmerged hread' hrules'
  refine ⟨v, hv, ?_⟩
  have hequal : w = v := by
    apply hall'.indexed.eq_of_rules_eq hall.indexed
    rw [← Array.toList_inj, hall'.rules, hall.rules, hholds.rules, hholds'.rules, merged_append_merged]
  rw [hw, hequal]

/-- Two parts that each repeat a name of their own, and of which the second adds to a rule of the first. -/
theorem table_of_parts_interleaved :
    (ofSource { repeats := .merged } (.lines ["<a> ::= 'x'", "<b> ::= <a>", "<a> ::= <c>"])).table =
      .ok ((empty.push ⟨"a", [[.literal "x"], [.name "c"]]⟩).push ⟨"b", [[.name "a"]]⟩) ∧
    (ofSource { repeats := .merged } (.lines ["; c", "<c> ::= <digit>", "<a> ::= \"it's\"", "<c> ::= 'y'"])).table =
      .ok ((empty.push ⟨"c", [[.builtin .digit], [.literal "y"]]⟩).push ⟨"a", [[.literal "it's"]]⟩) ∧
    ∃ v, (ofSource { repeats := .merged } (.lines (["<a> ::= 'x'", "<b> ::= <a>", "<a> ::= <c>"] ++
          ["; c", "<c> ::= <digit>", "<a> ::= \"it's\"", "<c> ::= 'y'"]))).table = .ok v ∧
      (ofSource { repeats := .merged } (.lines
          (Text.linesOf ((empty.push ⟨"a", [[.literal "x"], [.name "c"]]⟩).push ⟨"b", [[.name "a"]]⟩).render ++
            Text.linesOf ((empty.push ⟨"c", [[.builtin .digit], [.literal "y"]]⟩).push
              ⟨"a", [[.literal "it's"]]⟩).render))).table = .ok v := by
  have hfirst : (ofSource { repeats := .merged } (.lines ["<a> ::= 'x'", "<b> ::= <a>", "<a> ::= <c>"])).table =
      .ok ((empty.push ⟨"a", [[.literal "x"], [.name "c"]]⟩).push ⟨"b", [[.name "a"]]⟩) := by decide +kernel
  have hsecond : (ofSource { repeats := .merged }
        (.lines ["; c", "<c> ::= <digit>", "<a> ::= \"it's\"", "<c> ::= 'y'"])).table =
      .ok ((empty.push ⟨"c", [[.builtin .digit], [.literal "y"]]⟩).push ⟨"a", [[.literal "it's"]]⟩) := by
    decide +kernel
  exact ⟨hfirst, hsecond, table_of_parts { repeats := .merged } { repeats := .merged } { repeats := .merged } rfl _ _
    (by decide +kernel) (by decide +kernel) _ _ hfirst hsecond⟩

end Document

end GrammarText
