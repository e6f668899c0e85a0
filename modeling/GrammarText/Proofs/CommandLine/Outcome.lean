import GrammarText.Proofs.CommandLine.Writing
import GrammarText.Proofs.Document.Routes
import GrammarText.Proofs.RuleTable.RoundTrip

/-!
# The outcome of a command

A command ends well exactly if its file is a text in UTF-8 and the text is a grammar of which the command can print what
it is asked for.  What it prints then is a matter of the text, the command and the command's own option; name, path and
log stay outside of it, and a command that fails prints nothing.

* `Invocation.Prints i text out`: the command prints `out` of the text `text`;
* `result_working_eq_ok_iff`: the work of a command comes to `out` exactly if its file holds such a text;
* `exists_prints_iff`: of which texts a command prints anything;
* `prints_congr`: the command and its own option decide what is printed;
* `run_all_or_nothing` puts these together for whole runs.
-/

namespace GrammarText

/-- The lines of a file are those of a text that it holds in UTF-8. -/
theorem linesOfFile_eq_ok_iff {contents : Except ReadFailure ByteArray} {ls : List String} :
    linesOfFile contents = .ok ls ↔ ∃ text : String, contents = .ok text.toUTF8 ∧ ls = Text.trimmedLines text := by
  rw [linesOfFile, Except.bind_eq_ok_iff]
  constructor
  · intro h
    obtain ⟨bytes, rfl, hlines⟩ := h
    obtain ⟨valid, rfl⟩ := linesOfBytes_eq_ok_iff.mp hlines
    exact ⟨String.fromUTF8 bytes valid, rfl, rfl⟩
  · intro h
    obtain ⟨text, rfl, rfl⟩ := h
    exact ⟨text.toUTF8, rfl, linesOfBytes_toUTF8 text⟩

/-- The document of a text's lines is the document of the text. -/
theorem Document.ofSource_trimmedLines (settings : Settings) (text : String) :
    ofSource settings (.lines (Text.trimmedLines text)) = ofSource settings (.text text) := by
  show (⟨settings, Text.trimEach (Text.trimmedLines text)⟩ : Document) = ⟨settings, Text.trimmedLines text⟩
  rw [Text.trimEach_trimmedLines]

/-- Lexing gives the same tokens whatever the grammar is called and whatever becomes of repeated definitions. -/
theorem Document.tokens_eq_ok_congr {s s' : Settings} (hkeep : s.keepComments = s'.keepComments) {source : Source}
    {ts : List Token} : (ofSource s source).tokens = .ok ts ↔ (ofSource s' source).tokens = .ok ts := by
  rw [tokens_eq_ok_iff, tokens_eq_ok_iff]
  show IsDocument s.keepComments _ ts ↔ IsDocument s'.keepComments _ ts
  rw [hkeep]
  rfl

namespace CommandLine

/-! ## The work of a command -/

theorem result_listTokens (d : Document) :
    (listTokens d).work.result = (d.tokens.mapError fun v => .grammar (.violation v)).map listing := by
  rw [work_listTokens, Attempt.result_bind, Attempt.result_log]
  show (d.lexing.mapError _ >>= fun tokens => pure (listing tokens)).result = _
  rw [Attempt.result_bind, Attempt.result_mapError]
  rfl

theorem result_printRules (path : String) (d : Document) :
    (printRules path d).work.result = (d.table.mapError .grammar).map RuleTable.render := by
  rw [work_printRules, Attempt.result_bind, Attempt.result_mapError]
  show (d.table.mapError Failure.grammar).bind _ = _
  cases d.table.mapError Failure.grammar with
  | error f => rfl
  | ok t =>
    show (Attempt.log _ >>= fun _ => _ >>= fun _ => pure t.render).result = .ok t.render
    rw [Attempt.result_bind, Attempt.result_log]
    show ((t.undefinedNames.forM fun name => Attempt.log (.neverDefined name)) >>= fun _ => pure t.render).result = _
    rw [Attempt.result_bind, Attempt.result_forM_log]
    rfl

/-- What a command prints of a text: the listing of its tokens, or the rules of its table. -/
def Invocation.Prints (i : Invocation) (text out : String) : Prop :=
  ∃ ts, (Document.ofSource i.settings (.text text)).tokens = .ok ts ∧
    match i.command with
    | .tokens => listing ts = out
    | .rules => ∃ t, RuleTable.ofTokens i.settings ts = .ok t ∧ t.render = out

variable {i j : Invocation} {text out : String}

/-- Either the lines of the file make the document, or they cannot be read. -/
theorem result_document (i : Invocation) (contents : Except ReadFailure ByteArray) :
    (i.document contents).result =
      ((linesOfFile contents).mapError (.unreadable i.path)).map fun ls =>
        Document.ofSource i.settings (.lines ls) := by
  rw [Invocation.document, Attempt.result_bind, Attempt.result_mapError, Attempt.result_ofExcept]
  rfl

theorem result_document_eq_ok_iff {contents : Except ReadFailure ByteArray} {d : Document} :
    (i.document contents).result = .ok d ↔
      ∃ text : String, contents = .ok text.toUTF8 ∧ d = Document.ofSource i.settings (.text text) := by
  rw [result_document, Except.map_eq_ok_iff]
  simp only [Except.mapError_eq_ok_iff, linesOfFile_eq_ok_iff]
  constructor
  · intro h
    obtain ⟨ls, ⟨text, hcontents, rfl⟩, rfl⟩ := h
    exact ⟨text, hcontents, Document.ofSource_trimmedLines i.settings text⟩
  · intro h
    obtain ⟨text, hcontents, rfl⟩ := h
    exact ⟨_, ⟨text, hcontents, rfl⟩, Document.ofSource_trimmedLines i.settings text⟩

/-- Reading a file logs nothing, so that the log of a command is that of its work on the document. -/
theorem events_working (i : Invocation) (contents : Except ReadFailure ByteArray) :
    (i.working contents).events =
      match (i.document contents).result with
      | .ok d => (match i.command with | .tokens => (listTokens d).work | .rules => (printRules i.path d).work).events
      | .error _ => [] := by
  have hquiet : (i.document contents).events = [] := by
    rw [Invocation.document, Attempt.events_bind, Attempt.events_mapError, Attempt.events_ofExcept]
    cases ((Attempt.ofExcept (linesOfFile contents)).mapError (Failure.unreadable i.path)).result <;> rfl
  rw [working_eq, Attempt.events_bind, hquiet, List.nil_append]
  cases (i.document contents).result with
  | error f => rfl
  | ok d => cases i.command <;> rfl

/-- What is printed of a document is what the command prints of its text. -/
theorem prints_iff :
    i.Prints text out ↔
      (match i.command with
        | .tokens => (listTokens (Document.ofSource i.settings (.text text))).work
        | .rules => (printRules i.path (Document.ofSource i.settings (.text text))).work).result = .ok out := by
  rw [Invocation.Prints]
  cases i.command with
  | tokens =>
    rw [result_listTokens, Except.map_eq_ok_iff]
    simp only [Except.mapError_eq_ok_iff]
  | rules =>
    rw [result_printRules, Except.map_eq_ok_iff]
    simp only [Except.mapError_eq_ok_iff, Document.table_eq_ok_iff]
    constructor
    · intro h
      obtain ⟨ts, hts, t, ht, hout⟩ := h
      exact ⟨t, ⟨ts, hts, ht⟩, hout⟩
    · intro h
      obtain ⟨t, ⟨ts, hts, ht⟩, hout⟩ := h
      exact ⟨ts, hts, t, ht, hout⟩

/-- **The work of a command comes to what it prints of the text that its file holds**, and to nothing else. -/
theorem result_working_eq_ok_iff {contents : Except ReadFailure ByteArray} :
    (i.working contents).result = .ok out ↔ ∃ text : String, contents = .ok text.toUTF8 ∧ i.Prints text out := by
  rw [working_eq, Attempt.result_bind, Except.bind_eq_ok_iff]
  simp only [result_document_eq_ok_iff, prints_iff]
  constructor
  · intro h
    obtain ⟨d, ⟨text, hcontents, rfl⟩, hout⟩ := h
    exact ⟨text, hcontents, hout⟩
  · intro h
    obtain ⟨text, hcontents, hout⟩ := h
    exact ⟨_, ⟨text, hcontents, rfl⟩, hout⟩

/-- A command prints something of a text exactly if it can be lexed and, where rules are asked for, made into a table. -/
theorem exists_prints_iff :
    (∃ out, i.Prints text out) ↔
      ∃ ts, (Document.ofSource i.settings (.text text)).tokens = .ok ts ∧
        (i.command = .rules → ∃ t, RuleTable.ofTokens i.settings ts = .ok t) := by
  simp only [Invocation.Prints]
  cases i.command with
  | tokens =>
    constructor
    · intro h
      obtain ⟨out, ts, hts, -⟩ := h
      exact ⟨ts, hts, fun hrules => by cases hrules⟩
    · intro h
      obtain ⟨ts, hts, -⟩ := h
      exact ⟨listing ts, ts, hts, rfl⟩
  | rules =>
    constructor
    · intro h
      obtain ⟨out, ts, hts, t, ht, -⟩ := h
      exact ⟨ts, hts, fun _ => ⟨t, ht⟩⟩
    · intro h
      obtain ⟨ts, hts, htable⟩ := h
      obtain ⟨t, ht⟩ := htable rfl
      exact ⟨t.render, ts, hts, t, ht, rfl⟩

/-- **The command and its own option decide what is printed of a text.** -/
theorem prints_congr (hcommand : i.command = j.command) (hflag : i.ownFlag = j.ownFlag) :
    i.Prints text out ↔ j.Prints text out := by
  have hkeep : i.settings.keepComments = j.settings.keepComments := by
    simp only [Invocation.settings, hcommand, hflag]
    cases j.command <;> rfl
  have hrepeats : i.settings.repeats = j.settings.repeats := by
    simp only [Invocation.settings, hcommand, hflag]
    cases j.command <;> rfl
  simp only [Invocation.Prints, Document.tokens_eq_ok_congr hkeep, RuleTable.ofTokens_eq_ok_congr hrepeats, hcommand]

/-! ## Runs -/

/-- The part of a log that a threshold lets through, as it is written. -/
def written (threshold : Threshold) (events : List Event) : String :=
  String.join ((events.filter fun e => threshold.admits e.level).map Event.line)

variable {threshold : Threshold} {events : List Event}

theorem written_append (threshold : Threshold) (xs ys : List Event) :
    written threshold (xs ++ ys) = written threshold xs ++ written threshold ys := by
  rw [written, List.filter_append, List.map_append, String.join_append, written, written]

/-- Of events below the threshold nothing is written. -/
theorem written_of_quiet (h : ∀ e ∈ events, threshold.admits e.level = false) : written threshold events = "" := by
  have hnone : events.filter (fun e => threshold.admits e.level) = [] := by
    rw [List.filter_eq_nil_iff]
    intro e he
    rw [h e he]
    decide
  rw [written, hnone]
  rfl

/-- Events that the threshold admits are all written. -/
theorem written_of_admitted (h : ∀ e ∈ events, threshold.admits e.level = true) :
    written threshold events = String.join (events.map Event.line) := by
  rw [written, List.filter_eq_self.mpr h]

/-- What writes last has its whole output if it ends, and then the status 0; if it fails it has the status 1, no output,
and its report after its log. -/
theorem ofPerformance_eq (threshold : Threshold) {p : Performance Failure Unit} (h : p.WritesLast) :
    Outcome.ofPerformance threshold p =
      match p.work.result with
      | .ok output => ⟨0, output, written threshold p.work.events⟩
      | .error failure => ⟨1, "", written threshold p.work.events ++ failure.report⟩ := by
  cases hresult : p.result with
  | ok _ =>
    have hwork : p.work.result = .ok p.output := congrArg (Except.map fun _ => p.output) hresult
    rw [Outcome.ofPerformance, hresult, hwork]
    rfl
  | error failure =>
    have hwork : p.work.result = .error failure := congrArg (Except.map fun _ => p.output) hresult
    rw [Outcome.ofPerformance, hresult, hwork, h.output_of_error hresult]
    rfl

variable {env env' : Environment} {arguments arguments' : List String}

theorem run_eq (h : Request.ofArguments? arguments = some (.invoke i)) :
    run env arguments =
      match (i.working (env.contents i.path)).result with
      | .ok output => ⟨0, output, written (env.threshold.getD i.threshold) (i.working (env.contents i.path)).events⟩
      | .error failure =>
        ⟨1, "", written (env.threshold.getD i.threshold) (i.working (env.contents i.path)).events ++ failure.report⟩ := by
  rw [run, h]
  exact ofPerformance_eq _ (writesLast_perform i _)

/-- A run ends well with an output exactly if its file holds a text of which the command prints it. -/
theorem run_prints_iff (h : Request.ofArguments? arguments = some (.invoke i)) :
    (run env arguments).status = 0 ∧ (run env arguments).output = out ↔
      ∃ text : String, env.contents i.path = .ok text.toUTF8 ∧ i.Prints text out := by
  rw [← result_working_eq_ok_iff, run_eq h]
  cases (i.working (env.contents i.path)).result with
  | ok output => simp
  | error failure => simp

/-- A run that does not end well has the status 1 and no output. -/
theorem run_failed (h : Request.ofArguments? arguments = some (.invoke i)) (hstatus : (run env arguments).status ≠ 0) :
    (run env arguments).status = 1 ∧ (run env arguments).output = "" := by
  rw [run_eq h] at hstatus ⊢
  cases hresult : (i.working (env.contents i.path)).result with
  | ok output => simp [hresult] at hstatus
  | error failure => exact ⟨rfl, rfl⟩

/-- Runs of the same command with the same option on the same bytes end alike, or fail alike. -/
theorem run_congr (hi : Request.ofArguments? arguments = some (.invoke i))
    (hj : Request.ofArguments? arguments' = some (.invoke j)) (hcommand : i.command = j.command)
    (hflag : i.ownFlag = j.ownFlag)
    (hcontents : ∀ bytes, env.contents i.path = .ok bytes ↔ env'.contents j.path = .ok bytes) :
    (run env arguments).status = (run env' arguments').status ∧
      (run env arguments).output = (run env' arguments').output := by
  have hsame (out : String) : (run env arguments).status = 0 ∧ (run env arguments).output = out ↔
      (run env' arguments').status = 0 ∧ (run env' arguments').output = out := by
    simp only [run_prints_iff hi, run_prints_iff hj, hcontents, prints_congr hcommand hflag]
  by_cases hstatus : (run env arguments).status = 0
  · obtain ⟨hstatus', houtput⟩ := (hsame _).mp ⟨hstatus, rfl⟩
    exact ⟨by rw [hstatus, hstatus'], houtput.symm⟩
  · have hstatus' : (run env' arguments').status ≠ 0 := fun h => hstatus ((hsame _).mpr ⟨h, rfl⟩).1
    obtain ⟨hone, hnothing⟩ := run_failed hi hstatus
    obtain ⟨hone', hnothing'⟩ := run_failed hj hstatus'
    exact ⟨by rw [hone, hone'], by rw [hnothing, hnothing']⟩

/-- **Output is all or nothing, and the log does not bear on it.**  A run ends with the status 0 exactly if its file is
readable, holds a text in UTF-8, and the text can be lexed and, where rules are asked for, made into a table; otherwise
it ends with the status 1 and prints nothing.  Two runs of the same command with the same option of its own on the same
bytes have the same status and the same output, whatever the path, the name, the wish for more of the log and the
threshold of the environment. -/
theorem run_all_or_nothing :
    (∀ (env : Environment) (arguments : List String) (i : Invocation),
      Request.ofArguments? arguments = some (.invoke i) →
      ((run env arguments).status = 0 ↔
        ∃ text : String, env.contents i.path = .ok text.toUTF8 ∧
          ∃ ts, (Document.ofSource i.settings (.text text)).tokens = .ok ts ∧
            (i.command = .rules → ∃ t, RuleTable.ofTokens i.settings ts = .ok t)) ∧
      ((run env arguments).status ≠ 0 → (run env arguments).status = 1) ∧
      ((run env arguments).status = 1 → (run env arguments).output = "")) ∧
    ∀ (env env' : Environment) (arguments arguments' : List String) (i j : Invocation),
      Request.ofArguments? arguments = some (.invoke i) → Request.ofArguments? arguments' = some (.invoke j) →
      i.command = j.command → i.ownFlag = j.ownFlag →
      (∀ bytes, env.contents i.path = .ok bytes ↔ env'.contents j.path = .ok bytes) →
      (run env arguments).status = (run env' arguments').status ∧
        (run env arguments).output = (run env' arguments').output := by
  refine ⟨fun env arguments i h => ⟨?_, fun hstatus => (run_failed h hstatus).1, fun hstatus => ?_⟩,
    fun env env' arguments arguments' i j hi hj hcommand hflag hcontents =>
      run_congr hi hj hcommand hflag hcontents⟩
  · constructor
    · intro hstatus
      obtain ⟨text, hcontents, hprints⟩ := (run_prints_iff h).mp ⟨hstatus, rfl⟩
      exact ⟨text, hcontents, exists_prints_iff.mp ⟨_, hprints⟩⟩
    · intro hgrammar
      obtain ⟨text, hcontents, hmakes⟩ := hgrammar
      obtain ⟨out, hprints⟩ := exists_prints_iff.mpr hmakes
      exact ((run_prints_iff h).mpr ⟨text, hcontents, hprints⟩).1
  · have hfailed : (run env arguments).status ≠ 0 := by rw [hstatus]; decide
    exact (run_failed h hfailed).2

/-- A file under two paths, once without and once with a name and the whole log, and a repeated definition for which
only merging has an output. -/
theorem run_all_or_nothing_two_paths :
    (run ⟨none, fun path => if path = "g.bnf" then .ok "<a> ::= 'x'\n<a> ::= <b>".toUTF8 else .error .missing⟩
        ["rules", "g.bnf", "--merge-duplicates"]).output = "<a> ::= \"x\" | <b>\n" ∧
    (run ⟨some (.upTo .trace), fun _ => .ok "<a> ::= 'x'\n<a> ::= <b>".toUTF8⟩
        ["-v", "rules", "--merge-duplicates", "--name=h", "sub/h.bnf"]).output = "<a> ::= \"x\" | <b>\n" ∧
    (run ⟨none, fun _ => .ok "<a> ::= 'x'\n<a> ::= <b>".toUTF8⟩ ["rules", "g.bnf"]).output = "" := by
  have hplain : Request.ofArguments? ["rules", "g.bnf", "--merge-duplicates"] =
      some (.invoke ⟨.rules, "g.bnf", none, true, false⟩) := by decide +kernel
  have hnamed : Request.ofArguments? ["-v", "rules", "--merge-duplicates", "--name=h", "sub/h.bnf"] =
      some (.invoke ⟨.rules, "sub/h.bnf", some "h", true, true⟩) := by decide +kernel
  have hrefused : Request.ofArguments? ["rules", "g.bnf"] = some (.invoke ⟨.rules, "g.bnf", none, false, false⟩) := by
    decide +kernel
  have houtput : (run ⟨none, fun path => if path = "g.bnf" then .ok "<a> ::= 'x'\n<a> ::= <b>".toUTF8 else
        .error .missing⟩ ["rules", "g.bnf", "--merge-duplicates"]).output = "<a> ::= \"x\" | <b>\n" := by
    decide +kernel
  refine ⟨houtput, ?_, (run_all_or_nothing.1 _ _ _ hrefused).2.2 (by decide +kernel)⟩
  rw [← houtput]
  refine (run_all_or_nothing.2 _ _ _ _ _ _ hnamed hplain rfl rfl fun bytes => ?_).2
  simp

end CommandLine

end GrammarText
