import GrammarText.CommandLine.Run
import GrammarText.Proofs.Log

/-!
# A command writes last

Whatever a command writes it writes at its end, when nothing can fail any more.  So a command that fails has written
nothing, and what a command does comes to a text with a log.

* `Performance.work_ofAttempt_bind` and `Performance.work_writeAll`: what steps come to, one after the other;
* `Performance.WritesLast`: all writing is done after the last step that can fail.  `WritesLast.bind` puts a step in
  front, `WritesLast.acts_eq` says what the acts are then, and `WritesLast.not_written_of_error` that nothing was
  written before a failure;
* `writesLast_perform`: both commands write last, whatever their file gave;
* `acts_listTokens` and `acts_printRules`: the acts of a command that ends well, a line for each token or rule.
-/

namespace GrammarText.CommandLine

namespace Performance

variable {ε α β : Type} {x : Attempt ε α} {p : Performance ε Unit} {a : α} {e : ε}

/-! ## What is seen of a step -/

@[simp] theorem events_ofAttempt (x : Attempt ε α) : (ofAttempt x).events = x.events := by
  simp [events, ofAttempt, List.filterMap_map, Function.comp_def, Act.event?]

@[simp] theorem output_ofAttempt (x : Attempt ε α) : (ofAttempt x).output = "" := by
  have hnone : (x.events.map Act.log).filterMap Act.text? = [] := by
    simp [List.filterMap_eq_nil_iff, Act.text?]
  rw [output, ofAttempt, hnone, String.join_nil]

@[simp] theorem events_writeAll (texts : List String) : (writeAll texts : Performance ε Unit).events = [] := by
  simp [events, writeAll, List.filterMap_eq_nil_iff, Act.event?]

@[simp] theorem output_writeAll (texts : List String) :
    (writeAll texts : Performance ε Unit).output = String.join texts := by
  simp [output, writeAll, List.filterMap_map, Function.comp_def, Act.text?]

theorem ofAttempt_bind_of_ok (h : x.result = .ok a) (f : α → Performance ε β) :
    ofAttempt x >>= f = ⟨x.events.map .log ++ (f a).acts, (f a).result⟩ :=
  bind_of_ok (show (ofAttempt x).result = .ok a from h) f

theorem ofAttempt_bind_of_error (h : x.result = .error e) (f : α → Performance ε β) :
    ofAttempt x >>= f = ⟨x.events.map .log, .error e⟩ :=
  bind_of_error (show (ofAttempt x).result = .error e from h) f

/-- Performing one computation and then another is performing the two in one. -/
theorem ofAttempt_bind (x : Attempt ε α) (f : α → Attempt ε β) :
    ofAttempt (x >>= f) = ofAttempt x >>= fun a => ofAttempt (f a) := by
  cases h : x.result with
  | ok a =>
    rw [ofAttempt_bind_of_ok h]
    apply ext
    · show (x >>= f).events.map Act.log = x.events.map Act.log ++ (f a).events.map Act.log
      rw [Attempt.events_bind_of_ok h, List.map_append]
    · show (x >>= f).result = (f a).result
      rw [Attempt.result_bind, h]
      rfl
  | error e =>
    rw [ofAttempt_bind_of_error h]
    apply ext
    · show (x >>= f).events.map Act.log = x.events.map Act.log
      rw [Attempt.events_bind, h, List.append_nil]
    · show (x >>= f).result = .error e
      rw [Attempt.result_bind, h]
      rfl

/-! ## What steps come to -/

theorem events_ofAttempt_bind_of_ok (h : x.result = .ok a) (f : α → Performance ε β) :
    (ofAttempt x >>= f).events = x.events ++ (f a).events := by
  rw [ofAttempt_bind_of_ok h, events, List.filterMap_append]
  show (ofAttempt x).events ++ (f a).events = _
  rw [events_ofAttempt]

theorem events_ofAttempt_bind_of_error (h : x.result = .error e) (f : α → Performance ε β) :
    (ofAttempt x >>= f).events = x.events := by
  rw [ofAttempt_bind_of_error h]
  exact events_ofAttempt x

theorem output_ofAttempt_bind_of_ok (h : x.result = .ok a) (f : α → Performance ε β) :
    (ofAttempt x >>= f).output = (f a).output := by
  rw [ofAttempt_bind_of_ok h, output, List.filterMap_append, String.join_append]
  show (ofAttempt x).output ++ (f a).output = _
  rw [output_ofAttempt, String.empty_append]

/-- **What comes after a computation that writes nothing is all that is written.** -/
theorem work_ofAttempt_bind (x : Attempt ε α) (f : α → Performance ε Unit) :
    (ofAttempt x >>= f).work = x >>= fun a => (f a).work := by
  cases h : x.result with
  | ok a =>
    apply Attempt.ext
    · show (ofAttempt x >>= f).result.map (fun _ => (ofAttempt x >>= f).output) = _
      rw [output_ofAttempt_bind_of_ok h, ofAttempt_bind_of_ok h, Attempt.result_bind, h]
      rfl
    · show (ofAttempt x >>= f).events = _
      rw [events_ofAttempt_bind_of_ok h, Attempt.events_bind_of_ok h]
      rfl
  | error e =>
    apply Attempt.ext
    · show (ofAttempt x >>= f).result.map (fun _ => (ofAttempt x >>= f).output) = _
      rw [ofAttempt_bind_of_error h, Attempt.result_bind, h]
      rfl
    · show (ofAttempt x >>= f).events = _
      rw [events_ofAttempt_bind_of_error h, Attempt.events_bind, h, List.append_nil]

theorem work_writeAll (texts : List String) :
    (writeAll texts : Performance ε Unit).work = pure (String.join texts) :=
  Attempt.ext (congrArg Except.ok (output_writeAll texts)) (events_writeAll texts)

/-! ## Writing last -/

/-- All writing is done after the last step that can fail. -/
def WritesLast (p : Performance ε Unit) : Prop :=
  ∃ x : Attempt ε (List String), p = ofAttempt x >>= writeAll

theorem writesLast_writeAll (texts : List String) : WritesLast (writeAll texts : Performance ε Unit) :=
  ⟨pure texts, (pure_bind texts writeAll).symm⟩

/-- A step that writes nothing can come before. -/
theorem WritesLast.bind (x : Attempt ε α) {f : α → Performance ε Unit} (h : ∀ a, WritesLast (f a)) :
    WritesLast (ofAttempt x >>= f) := by
  choose texts htexts using h
  refine ⟨x >>= texts, ?_⟩
  rw [ofAttempt_bind, bind_assoc]
  congr 1
  funext a
  exact htexts a

/-- **First the log, then the output**: no event comes after a text. -/
theorem WritesLast.acts_eq (h : WritesLast p) :
    ∃ texts : List String, p.acts = p.events.map .log ++ texts.map .write := by
  obtain ⟨x, rfl⟩ := h
  cases hresult : x.result with
  | ok texts =>
    refine ⟨texts, ?_⟩
    rw [events_ofAttempt_bind_of_ok hresult, events_writeAll, List.append_nil, ofAttempt_bind_of_ok hresult]
    rfl
  | error e =>
    refine ⟨[], ?_⟩
    rw [events_ofAttempt_bind_of_error hresult, ofAttempt_bind_of_error hresult]
    exact (List.append_nil _).symm

/-- **Where it fails, nothing was written.** -/
theorem WritesLast.not_written_of_error (h : WritesLast p) (hfails : p.result = .error e) (text : String) :
    Act.write text ∉ p.acts := by
  obtain ⟨x, rfl⟩ := h
  cases hresult : x.result with
  | ok texts =>
    rw [ofAttempt_bind_of_ok hresult] at hfails
    cases hfails
  | error f =>
    rw [ofAttempt_bind_of_error hresult]
    show Act.write text ∉ x.events.map Act.log
    simp

theorem WritesLast.output_of_error (h : WritesLast p) (hfails : p.result = .error e) : p.output = "" := by
  have hnone : p.acts.filterMap Act.text? = [] := by
    rw [List.filterMap_eq_nil_iff]
    intro act hact
    cases act with
    | log e => rfl
    | write text => exact absurd hact (h.not_written_of_error hfails text)
  rw [output, hnone, String.join_nil]

/-- Telling the log something for each of several values writes nothing. -/
theorem forM_log (event : α → Event) (xs : List α) :
    (xs.forM fun x => (log (event x) : Performance ε Unit)) =
      ofAttempt (xs.forM fun x => Attempt.log (event x)) := by
  induction xs with
  | nil => rfl
  | cons x xs ih =>
    show (log (event x) >>= fun _ => xs.forM fun x => (log (event x) : Performance ε Unit)) =
      ofAttempt (Attempt.log (event x) >>= fun _ => xs.forM fun x => Attempt.log (event x))
    rw [ih, ofAttempt_bind]
    rfl

end Performance

/-! ## The two commands -/

open Performance

/-- Tokens are listed after the last line was lexed. -/
theorem writesLast_listTokens (d : Document) : WritesLast (listTokens d) :=
  .bind _ fun _ => .bind _ fun _ => writesLast_writeAll _

/-- Rules are printed after the table was built and searched for names without a definition. -/
theorem writesLast_printRules (path : String) (d : Document) : WritesLast (printRules path d) := by
  refine .bind _ fun t => .bind _ fun _ => ?_
  rw [forM_log]
  exact .bind _ fun _ => writesLast_writeAll _

/-- **Nothing is written before the last step that can fail**, whatever the command and whatever its file gave. -/
theorem writesLast_perform (i : Invocation) (contents : Except ReadFailure ByteArray) :
    WritesLast (i.perform contents) := by
  refine .bind _ fun d => ?_
  cases i.command with
  | tokens => exact writesLast_listTokens d
  | rules => exact writesLast_printRules i.path d

/-! ## What the two commands come to -/

/-- Pieces written one by one make up the text in one piece. -/
theorem join_map_ofList {α : Type} (chars : α → List Char) (xs : List α) :
    String.join (xs.map fun x => String.ofList (chars x)) = String.ofList (xs.flatMap chars) := by
  induction xs with
  | nil => rfl
  | cons x xs ih => rw [List.map_cons, String.join_cons, ih, List.flatMap_cons, String.ofList_append]

theorem join_listingLine (ts : List Token) :
    String.join (ts.map fun t => String.ofList (listingLine t)) = listing ts :=
  join_map_ofList listingLine ts

theorem join_ruleLine (t : RuleTable) :
    String.join (t.rules.toList.map fun r => String.ofList (r.chars ++ ['\n'])) = t.render :=
  join_map_ofList (fun r => r.chars ++ ['\n']) t.rules.toList

/-- The work of listing tokens. -/
theorem work_listTokens (d : Document) :
    (listTokens d).work = (do
      Attempt.log (.listingTokens d.settings.grammar d.lines.length d.settings.keepComments)
      let tokens ← d.lexing.mapError fun v => .grammar (.violation v)
      pure (listing tokens)) := by
  rw [listTokens, Performance.log, work_ofAttempt_bind]
  congr 1
  funext _
  rw [work_ofAttempt_bind]
  congr 1
  funext tokens
  rw [work_writeAll, join_listingLine]

/-- The work of printing rules. -/
theorem work_printRules (path : String) (d : Document) :
    (printRules path d).work = (do
      let t ← d.reading.mapError .grammar
      Attempt.log (.rulesFound t.size path)
      t.undefinedNames.forM fun name => Attempt.log (.neverDefined name)
      pure t.render) := by
  rw [printRules, work_ofAttempt_bind]
  congr 1
  funext t
  rw [Performance.log, work_ofAttempt_bind]
  congr 1
  funext _
  rw [forM_log, work_ofAttempt_bind]
  congr 1
  funext _
  rw [work_writeAll, join_ruleLine]

/-- The work of a command is that of reading its document and then its own. -/
theorem working_eq (i : Invocation) (contents : Except ReadFailure ByteArray) :
    i.working contents = (do
      let d ← i.document contents
      match i.command with
      | .tokens => (listTokens d).work
      | .rules => (printRules i.path d).work) := by
  rw [Invocation.working, Invocation.perform, work_ofAttempt_bind]
  congr 1
  funext d
  cases i.command <;> rfl

/-! ## The lines that are written -/

/-- **A token, a line**: the acts of listing the tokens of a document that can be lexed. -/
theorem acts_listTokens {d : Document} {ts : List Token} (hts : d.tokens = .ok ts) :
    (listTokens d).acts =
      (.listingTokens d.settings.grammar d.lines.length d.settings.keepComments :: d.lexing.events).map Act.log ++
        ts.map fun t => Act.write (String.ofList (listingLine t)) := by
  have hlexed : (d.lexing.mapError fun v => Failure.grammar (.violation v)).result = .ok ts := by
    rw [Attempt.result_mapError, Except.mapError_eq_ok_iff]
    exact hts
  rw [listTokens, Performance.log, ofAttempt_bind_of_ok (Attempt.result_log _), ofAttempt_bind_of_ok hlexed]
  show _ ++ (_ ++ (ts.map fun t => String.ofList (listingLine t)).map Act.write) = _
  rw [List.map_map]
  rfl

/-- **A rule, a line**: the acts of printing the rules of a document that makes a table. -/
theorem acts_printRules (path : String) {d : Document} {t : RuleTable} (ht : d.table = .ok t) :
    (printRules path d).acts =
      (d.reading.events ++ Event.rulesFound t.size path :: t.undefinedNames.map Event.neverDefined).map Act.log ++
        t.rules.toList.map fun r => Act.write (String.ofList (r.chars ++ ['\n'])) := by
  have hread : (d.reading.mapError Failure.grammar).result = .ok t := by
    rw [Attempt.result_mapError, Except.mapError_eq_ok_iff]
    exact ht
  rw [printRules, ofAttempt_bind_of_ok hread, Performance.log, ofAttempt_bind_of_ok (Attempt.result_log _), forM_log,
    ofAttempt_bind_of_ok (Attempt.result_forM_log _ _)]
  show _ ++ (_ ++ (_ ++ (t.rules.toList.map fun r => String.ofList (r.chars ++ ['\n'])).map Act.write)) = _
  rw [Attempt.events_forM_log, List.map_map]
  simp

end GrammarText.CommandLine
