import GrammarText.Proofs.CommandLine.Outcome

/-!
# Printed rules are in normal form

What the command for rules prints is a grammar, and printing the rules of that grammar changes nothing: the printed
table is read back, whatever the settings, and no name repeats in it, so that the policy for repeated definitions has
nothing left to decide.

* `prints_render`: the print of a printable table is printed as it is;
* `exists_table_of_prints`: every output of the command is such a print;
* `events_printRules_render`: the log of printing a printed table, with no event for a merged definition;
* `run_rules_again` puts these together for two runs, the second one on the output of the first.
-/

namespace GrammarText.CommandLine

/-! ## The log of printing rules -/

/-- The log of printing rules is that of lexing and building, then the number of rules and the names that have no
definition. -/
theorem events_printRules (path : String) {d : Document} {ts : List Token} {t : RuleTable} (hts : d.tokens = .ok ts)
    (ht : RuleTable.ofTokens d.settings ts = .ok t) :
    (printRules path d).work.events =
      d.lexing.events ++ (RuleTable.building d.settings ts).events ++
        .rulesFound t.size path :: t.undefinedNames.map .neverDefined := by
  have hlexed : (d.lexing.mapError GrammarError.violation).result = .ok ts := by
    rw [Attempt.result_mapError, Except.mapError_eq_ok_iff]
    exact hts
  have hread : d.reading.events = d.lexing.events ++ (RuleTable.building d.settings ts).events := by
    rw [Document.reading, Attempt.events_bind_of_ok hlexed, Attempt.events_mapError, Attempt.events_mapError]
  have htable : (d.reading.mapError Failure.grammar).result = .ok t := by
    rw [Attempt.result_mapError, Except.mapError_eq_ok_iff]
    exact Document.table_eq_ok_iff.mpr ⟨ts, hts, ht⟩
  rw [work_printRules, Attempt.events_bind_of_ok htable, Attempt.events_mapError, hread,
    Attempt.events_bind_of_ok (Attempt.result_log _), Attempt.events_log]
  show _ ++ ([_] ++ ((t.undefinedNames.forM fun name => Attempt.log (.neverDefined name)) >>= fun _ =>
    pure t.render).events) = _
  rw [Attempt.events_bind_of_ok (Attempt.result_forM_log _ _), Attempt.events_forM_log, Attempt.events_pure,
    List.append_nil, List.singleton_append]

/-- Reading a file that holds a text adds nothing to the log. -/
theorem events_working_rules {j : Invocation} (hrules : j.command = .rules) (text : String) :
    (j.working (.ok text.toUTF8)).events =
      (printRules j.path (Document.ofSource j.settings (.text text))).work.events := by
  have hdocument : (j.document (.ok text.toUTF8)).result = .ok (Document.ofSource j.settings (.text text)) :=
    result_document_eq_ok_iff.mpr ⟨text, rfl, rfl⟩
  rw [events_working, hdocument, hrules]

/-! ## Printing what was printed -/

variable {settings : Settings} {tokens : List Token} {t : RuleTable} {i j : Invocation} {text out : String}

/-- **The print of a printable table is printed as it is**, under any name and either policy. -/
theorem prints_render (hrules : j.command = .rules) (h : RuleTable.ofTokens settings tokens = .ok t)
    (hprintable : t.Printable) : j.Prints t.render t.render := by
  rw [Invocation.Prints, hrules]
  exact ⟨_, RuleTable.tokens_render hprintable j.settings, t, RuleTable.ofTokens_flatMap_tokens h j.settings, rfl⟩

/-- Every output of the command for rules is the print of a printable table. -/
theorem exists_table_of_prints (hrules : i.command = .rules) (h : i.Prints text out) :
    ∃ ts t, RuleTable.ofTokens i.settings ts = .ok t ∧ t.Printable ∧ t.render = out := by
  rw [Invocation.Prints, hrules] at h
  obtain ⟨ts, hts, t, ht, hout⟩ := h
  have hsource : (Source.text text).EndsAtLineFeeds := trivial
  exact ⟨ts, t, ht, RuleTable.printable_of_tokens hsource hts ht, hout⟩

/-- **The log of printing a printed table**: after that of lexing the table is built, found and searched for names
without a definition, and nothing is merged. -/
theorem events_printRules_render (path : String) (again : Settings) (h : RuleTable.ofTokens settings tokens = .ok t)
    (hprintable : t.Printable) :
    (printRules path (Document.ofSource again (.text t.render))).work.events =
      (Document.ofSource again (.text t.render)).lexing.events ++
        .tableBuilt again.grammar t.size :: .rulesFound t.size path :: t.undefinedNames.map .neverDefined := by
  obtain ⟨defs, -, hholds⟩ := RuleTable.exists_holds_of_ofTokens h
  have hdup : (t.rules.toList.map Rule.name).Nodup := hholds.indexed.nodup_names
  have hbuilt := RuleTable.events_building_of_nodup again (RuleTable.rules_flatMap_tokens h) hdup
  have hsize : t.rules.toList.length = t.size := Array.length_toList
  rw [events_printRules path (RuleTable.tokens_render hprintable again) (RuleTable.ofTokens_flatMap_tokens h _)]
  show _ ++ (RuleTable.building again _).events ++ _ = _
  rw [hbuilt, hsize, List.append_assoc, List.singleton_append]

/-- Nothing is merged when a printed table is printed again. -/
theorem definitionMerged_not_mem_printRules_render (path : String) (again : Settings)
    (h : RuleTable.ofTokens settings tokens = .ok t) (hprintable : t.Printable) (grammar name : String) :
    Event.definitionMerged grammar name ∉ (printRules path (Document.ofSource again (.text t.render))).work.events := by
  intro hmem
  rw [events_printRules_render path again h hprintable, List.mem_append] at hmem
  rcases hmem with hlexing | hafter
  · -- a merged definition is an event of the rules, not of the lexer
    cases Document.origin_of_mem_lexing hlexing
  · simp at hafter

/-! ## Two runs -/

/-- **Printing rules is normalizing.**  Of any file on which the command for rules ends well, under any options and in
any environment, the output is a fixed point of the command: on a file that holds exactly this output it ends well with
the same output, under either policy, any name, any path and any threshold, and its log, which is then all of its
standard error, has no merged definition. -/
theorem run_rules_again (env env' : Environment) (arguments arguments' : List String) (i j : Invocation)
    (hi : Request.ofArguments? arguments = some (.invoke i)) (hrules : i.command = .rules)
    (hj : Request.ofArguments? arguments' = some (.invoke j)) (hrules' : j.command = .rules)
    (hstatus : (run env arguments).status = 0)
    (hfile : env'.contents j.path = .ok (run env arguments).output.toUTF8) :
    (run env' arguments').status = 0 ∧ (run env' arguments').output = (run env arguments).output ∧
      (run env' arguments').errors =
        written (env'.threshold.getD j.threshold) (j.working (env'.contents j.path)).events ∧
      ∀ grammar name, Event.definitionMerged grammar name ∉ (j.working (env'.contents j.path)).events := by
  obtain ⟨text, -, hprints⟩ := (run_prints_iff hi).mp ⟨hstatus, rfl⟩
  obtain ⟨ts, t, ht, hprintable, hout⟩ := exists_table_of_prints hrules hprints
  rw [← hout] at hfile ⊢
  have hagain : (run env' arguments').status = 0 ∧ (run env' arguments').output = t.render :=
    (run_prints_iff hj).mpr ⟨t.render, hfile, prints_render hrules' ht hprintable⟩
  have hresult : (j.working (env'.contents j.path)).result = .ok t.render :=
    result_working_eq_ok_iff.mpr ⟨t.render, hfile, prints_render hrules' ht hprintable⟩
  refine ⟨hagain.1, hagain.2, ?_, fun grammar name => ?_⟩
  · rw [run_eq hj, hresult]
  · rw [hfile, events_working_rules hrules']
    exact definitionMerged_not_mem_printRules_render j.path j.settings ht hprintable grammar name

/-- A grammar with a comment, loose spacing and a repeated definition is merged, and its print is then printed again
where repeated definitions are refused. -/
theorem run_rules_again_refused :
    (run ⟨none, fun _ => .ok "<b>::=  <c>|'it'\n; note\n\n<a> ::= 'x'\n <b> ::= <digit>".toUTF8⟩
        ["rules", "g.bnf", "--merge-duplicates"]).output = "<b> ::= <c> | \"it\" | <digit>\n<a> ::= \"x\"\n" ∧
    (run ⟨none, fun _ => .ok "<b> ::= <c> | \"it\" | <digit>\n<a> ::= \"x\"\n".toUTF8⟩
        ["-v", "rules", "n.bnf", "--name=h"]).status = 0 ∧
    (run ⟨none, fun _ => .ok "<b> ::= <c> | \"it\" | <digit>\n<a> ::= \"x\"\n".toUTF8⟩
        ["-v", "rules", "n.bnf", "--name=h"]).output = "<b> ::= <c> | \"it\" | <digit>\n<a> ::= \"x\"\n" := by
  have hmerging : Request.ofArguments? ["rules", "g.bnf", "--merge-duplicates"] =
      some (.invoke ⟨.rules, "g.bnf", none, true, false⟩) := by decide +kernel
  have hrefusing : Request.ofArguments? ["-v", "rules", "n.bnf", "--name=h"] =
      some (.invoke ⟨.rules, "n.bnf", some "h", false, true⟩) := by decide +kernel
  have houtput : (run ⟨none, fun _ => .ok "<b>::=  <c>|'it'\n; note\n\n<a> ::= 'x'\n <b> ::= <digit>".toUTF8⟩
      ["rules", "g.bnf", "--merge-duplicates"]).output = "<b> ::= <c> | \"it\" | <digit>\n<a> ::= \"x\"\n" := by
    decide +kernel
  have hagain := run_rules_again ⟨none, fun _ => .ok "<b>::=  <c>|'it'\n; note\n\n<a> ::= 'x'\n <b> ::= <digit>".toUTF8⟩
    ⟨none, fun _ => .ok "<b> ::= <c> | \"it\" | <digit>\n<a> ::= \"x\"\n".toUTF8⟩ _ _ _ _ hmerging rfl hrefusing rfl
    (by decide +kernel) (by rw [houtput])
  exact ⟨houtput, hagain.1, hagain.2.1.trans houtput⟩

end GrammarText.CommandLine
