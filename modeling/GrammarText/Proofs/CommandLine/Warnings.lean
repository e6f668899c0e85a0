import GrammarText.Proofs.CommandLine.Normalizing
import GrammarText.Proofs.RuleTable.Undefined

/-!
# The warnings about a grammar

Unless it is asked for more or less, the program writes warnings only.  Of the command for rules these are the merged
definitions, which come first because the table is built before it is searched, and the names that the table refers to
and has no rule for.  A run that fails has nothing to warn about: it never came to a table.

* `written_lexing`: lexing writes no warning;
* `written_printRules`: the warnings of printing a table, and `events_printRules_of_error`: there are none where there
  is no table;
* `run_rules_warnings` says this of the runs of the program.
-/

namespace GrammarText

/-! ## The lines of a log -/

theorem Event.line_ne_empty (e : Event) : e.line ≠ "" := by
  intro h
  have hchars := congrArg String.toList h
  simp [line] at hchars

theorem Event.join_line_eq_empty_iff {events : List Event} :
    String.join (events.map Event.line) = "" ↔ events = [] := by
  cases events with
  | nil => simp
  | cons e events =>
    rw [List.map_cons, String.join_cons, String.append_eq_empty_iff]
    simp [Event.line_ne_empty]

namespace CommandLine

/-! ## The log of the command for rules -/

/-- Lexing writes no warning. -/
theorem written_lexing (d : Document) : written (.upTo .warn) d.lexing.events = "" := by
  apply written_of_quiet
  intro e he
  rcases Document.level_of_mem_lexing he with hlevel | hlevel <;> rw [hlevel] <;> rfl

/-- The warnings about a table: one for each definition of a name that is there already, and then one for each undefined
name. -/
def warnings (grammar : String) (defs : List Rule) (t : RuleTable) : List Event :=
  (RuleTable.repeatedNames (defs.map Rule.name)).map (Event.definitionMerged grammar) ++
    t.undefinedNames.map Event.neverDefined

variable {d : Document} {ts : List Token} {defs : List Rule} {t : RuleTable} {path : String}

theorem admits_of_mem_warnings {grammar : String} {e : Event} (h : e ∈ warnings grammar defs t) :
    (Threshold.upTo .warn).admits e.level = true := by
  rcases List.mem_append.mp h with hmem | hmem
  · obtain ⟨n, -, rfl⟩ := List.mem_map.mp hmem
    rfl
  · obtain ⟨n, -, rfl⟩ := List.mem_map.mp hmem
    rfl

/-- **Printing rules warns of the merged definitions and of the undefined names**, and of nothing else. -/
theorem written_printRules (path : String) (hts : d.tokens = .ok ts) (hdefs : Grouping.rules ts = .ok defs)
    (ht : RuleTable.ofTokens d.settings ts = .ok t) :
    written (.upTo .warn) (printRules path d).work.events =
      String.join ((warnings d.settings.grammar defs t).map Event.line) := by
  -- between the two kinds of warnings stand the end of the building and the number of rules, which are none
  have hbetween : written (.upTo .warn) [.tableBuilt d.settings.grammar t.size, .rulesFound t.size path] = "" := by
    apply written_of_quiet
    simp [Event.level, Threshold.admits, Level.rank]
  have hevents : (printRules path d).work.events =
      d.lexing.events ++
        ((RuleTable.repeatedNames (defs.map Rule.name)).map (Event.definitionMerged d.settings.grammar) ++
          ([.tableBuilt d.settings.grammar t.size, .rulesFound t.size path] ++
            t.undefinedNames.map Event.neverDefined)) := by
    rw [events_printRules path hts ht, RuleTable.events_building_of_ok ht hdefs]
    simp
  have hwarnings := written_of_admitted fun e (he : e ∈ warnings d.settings.grammar defs t) => admits_of_mem_warnings he
  rw [warnings, written_append] at hwarnings
  rw [hevents, written_append, written_append, written_append, written_lexing, hbetween, String.empty_append,
    String.empty_append, hwarnings, warnings]

/-- Where there is no table, the log is that of the lexing alone. -/
theorem events_printRules_of_error {e : GrammarError} (h : d.table = .error e) :
    (printRules path d).work.events = d.lexing.events := by
  have hread : d.reading.events = d.lexing.events := by
    have hlexed : (d.lexing.mapError GrammarError.violation).result = d.tokens.mapError .violation := rfl
    rw [Document.reading, Attempt.events_bind, Attempt.events_mapError, hlexed]
    cases hts : d.tokens with
    | error v => exact List.append_nil _
    | ok ts =>
      rw [Document.table_eq, hts] at h
      obtain ⟨f, hf, -⟩ := Except.mapError_eq_error_iff.mp h
      show d.lexing.events ++ (RuleTable.building d.settings ts).events = _
      rw [RuleTable.events_building_of_error hf, List.append_nil]
  have htable : (d.reading.mapError Failure.grammar).result = .error (.grammar e) := by
    rw [Attempt.result_mapError]
    exact Except.mapError_eq_error_iff.mpr ⟨e, h, rfl⟩
  rw [work_printRules, Attempt.events_bind, htable, Attempt.events_mapError, hread, List.append_nil]

/-! ## Runs -/

/-- The command for rules warns of nothing if it fails. -/
theorem written_working_of_error {i : Invocation} {contents : Except ReadFailure ByteArray} {failure : Failure}
    (hrules : i.command = .rules) (h : (i.working contents).result = .error failure) :
    written (.upTo .warn) (i.working contents).events = "" := by
  rw [working_eq, Attempt.result_bind] at h
  rw [events_working]
  cases hdocument : (i.document contents).result with
  | error f => rfl
  | ok d =>
    rw [hdocument, hrules] at h
    have hprinted : (printRules i.path d).work.result = .error failure := h
    rw [result_printRules, Except.map_eq_error_iff, Except.mapError_eq_error_iff] at hprinted
    obtain ⟨e, htable, -⟩ := hprinted
    rw [hrules]
    show written _ (printRules i.path d).work.events = ""
    rw [events_printRules_of_error htable, written_lexing]

theorem grammar_settings (i : Invocation) : i.settings.grammar = i.grammarName := by
  rw [Invocation.settings]
  cases i.command <;> rfl

/-- **What the command for rules warns of.**  Where nothing is said about the log, neither in the environment nor in the
arguments, a run that ends well writes on the standard error a warning for each definition in its file that repeats an
earlier name, which takes the option for merging, and then one for each undefined name of the table it prints: the names
that some definition refers to and none defines, each once and in the order of first reference.  So it writes nothing
there exactly if no name is defined twice and every name that a definition refers to is defined; a class is not referred
to by a name.  A run that fails writes its report there and no warning before it. -/
theorem run_rules_warnings (env : Environment) (arguments : List String) (i : Invocation)
    (hi : Request.ofArguments? arguments = some (.invoke i)) (hrules : i.command = .rules)
    (henv : env.threshold = none) (hverbose : i.verbose = false) :
    ((run env arguments).status = 0 →
      ∃ (text : String) (ts : List Token) (defs : List Rule) (t : RuleTable),
        env.contents i.path = .ok text.toUTF8 ∧ (Document.ofSource i.settings (.text text)).tokens = .ok ts ∧
        Grouping.rules ts = .ok defs ∧ RuleTable.ofTokens i.settings ts = .ok t ∧
        (run env arguments).output = t.render ∧
        (run env arguments).errors = String.join ((warnings i.grammarName defs t).map Event.line) ∧
        (i.ownFlag = false → RuleTable.repeatedNames (defs.map Rule.name) = []) ∧
        (∀ n, n ∈ t.undefinedNames ↔ (∃ d ∈ defs, n ∈ d.references) ∧ n ∉ defs.map Rule.name) ∧
        t.undefinedNames.Nodup ∧
        (t.undefinedNames.Pairwise fun m n => ∃ p q,
          RuleTable.FirstReference t m p ∧ RuleTable.FirstReference t n q ∧ p.Before q) ∧
        (∀ d ∈ defs, ∀ b : Builtin, b.spelling ∉ d.references) ∧
        ((run env arguments).errors = "" ↔
          (defs.map Rule.name).Nodup ∧ ∀ d ∈ defs, ∀ n ∈ d.references, n ∈ defs.map Rule.name)) ∧
    ((run env arguments).status = 1 →
      ∃ failure, (i.working (env.contents i.path)).result = .error failure ∧
        (run env arguments).errors = failure.report) := by
  have hthreshold : env.threshold.getD i.threshold = .upTo .warn := by
    rw [henv, Option.getD_none, Invocation.threshold, hverbose]
    rfl
  constructor
  · intro hstatus
    obtain ⟨text, hcontents, hprints⟩ := (run_prints_iff hi).mp ⟨hstatus, rfl⟩
    have hresult := result_working_eq_ok_iff.mpr ⟨text, hcontents, hprints⟩
    rw [Invocation.Prints, hrules] at hprints
    obtain ⟨ts, hts, t, ht, hout⟩ := hprints
    obtain ⟨defs, hdefs, hholds⟩ := RuleTable.exists_holds_of_ofTokens ht
    have herrors : (run env arguments).errors = String.join ((warnings i.grammarName defs t).map Event.line) := by
      rw [run_eq hi, hresult, hthreshold, hcontents]
      show written (.upTo .warn) (i.working (.ok text.toUTF8)).events = _
      rw [events_working_rules hrules, written_printRules i.path hts hdefs ht, ← grammar_settings]
      rfl
    refine ⟨text, ts, defs, t, hcontents, hts, hdefs, ht, hout.symm, herrors, fun hflag => ?_,
      fun n => hholds.mem_undefinedNames_iff, RuleTable.nodup_eraseDups _, RuleTable.pairwise_undefinedNames t,
      fun d hd b => RuleTable.spelling_not_mem_references hts hdefs hd b, ?_⟩
    · have hrefused : i.settings.repeats = .refused := by
        rw [Invocation.settings, hrules, hflag]
        rfl
      exact RuleTable.repeatedNames_eq_nil_iff.mpr (RuleTable.nodup_of_ofTokens_refused hrefused ht hdefs)
    · rw [herrors, Event.join_line_eq_empty_iff, warnings, List.append_eq_nil_iff, List.map_eq_nil_iff,
        List.map_eq_nil_iff, RuleTable.repeatedNames_eq_nil_iff, hholds.undefinedNames_eq_nil_iff]
  · intro hstatus
    cases hresult : (i.working (env.contents i.path)).result with
    | ok output =>
      rw [run_eq hi, hresult] at hstatus
      cases hstatus
    | error failure =>
      refine ⟨failure, rfl, ?_⟩
      rw [run_eq hi, hresult, hthreshold]
      show written (.upTo .warn) (i.working (env.contents i.path)).events ++ failure.report = _
      rw [written_working_of_error hrules hresult, String.empty_append]

/-- A definition that is merged, a name that only it refers to and one that is defined after its use; and a file that
ends with a rule without alternatives. -/
theorem run_rules_warnings_merged :
    (∃ defs t, (run ⟨none, fun _ => .ok "<a> ::= <c> <x>\n<c> ::= <digit>\n<d> ::= <y>\n<a> ::= <z>".toUTF8⟩
          ["rules", "g.bnf", "--merge-duplicates"]).output = t.render ∧
      (run ⟨none, fun _ => .ok "<a> ::= <c> <x>\n<c> ::= <digit>\n<d> ::= <y>\n<a> ::= <z>".toUTF8⟩
          ["rules", "g.bnf", "--merge-duplicates"]).errors =
        String.join ((warnings "g.bnf" defs t).map Event.line)) ∧
    (run ⟨none, fun _ => .ok "<a> ::= <c> <x>\n<c> ::= <digit>\n<d> ::= <y>\n<a> ::= <z>".toUTF8⟩
        ["rules", "g.bnf", "--merge-duplicates"]).errors =
      "[WARN  bnf::rules] grammar [g.bnf]: merging repeated definition of <a>\n" ++
      "[WARN  bnfc] <x> is referenced but never defined\n[WARN  bnfc] <z> is referenced but never defined\n" ++
      "[WARN  bnfc] <y> is referenced but never defined\n" ∧
    (run ⟨none, fun _ => .ok "<a> ::= <c> <x>\n<a> ::= <z>\n<c> ::=".toUTF8⟩
        ["rules", "g.bnf", "--merge-duplicates"]).errors = "Error: rule <c> has no alternatives\n" := by
  have hi : Request.ofArguments? ["rules", "g.bnf", "--merge-duplicates"] =
      some (.invoke ⟨.rules, "g.bnf", none, true, false⟩) := by decide +kernel
  have hresult : ((⟨.rules, "g.bnf", none, true, false⟩ : Invocation).working
      (.ok "<a> ::= <c> <x>\n<a> ::= <z>\n<c> ::=".toUTF8)).result =
    .error (.grammar (.table (.grouping (.emptyRule "c")))) := by decide +kernel
  obtain ⟨-, -, defs, t, -, -, -, -, houtput, herrors, -⟩ :=
    (run_rules_warnings ⟨none, fun _ => .ok "<a> ::= <c> <x>\n<c> ::= <digit>\n<d> ::= <y>\n<a> ::= <z>".toUTF8⟩
      _ _ hi rfl rfl rfl).1 (by decide +kernel)
  obtain ⟨failure, hfailure, hreport⟩ :=
    (run_rules_warnings ⟨none, fun _ => .ok "<a> ::= <c> <x>\n<a> ::= <z>\n<c> ::=".toUTF8⟩ _ _ hi rfl rfl rfl).2
      (by decide +kernel)
  obtain rfl := Except.error.inj (hresult.symm.trans hfailure)
  exact ⟨⟨defs, t, houtput, herrors⟩, by decide +kernel, hreport.trans (by decide +kernel)⟩

end CommandLine

end GrammarText
