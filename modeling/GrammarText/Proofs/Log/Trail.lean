import GrammarText.Proofs.Document.FirstFlaw
import GrammarText.Proofs.Log

/-!
# The trail of lexing and building

The log of a reading tells how far it came.  Lexing logs its start, then each line with its kind up to the one that
stopped it, and its end if none did; building logs the definitions that it merged and its end, or nothing at all.

* `Line.OfKind line kind`: what the kinds of lines are; a line with tokens is of one (`Line.exists_ofKind`), and a line
  with a flaw is a rule line unless it is no line of a grammar at all (`Line.kind?_of_tokens_eq_error`);
* `linesSeen n kinds`: the events that tell the kinds of lines, of which the first has number `n`;
* `events_lexLines_of_ok`, `events_lexLines_of_error`: the log of some lines, read to their end or up to a flaw;
* `events_lexing_and_building`: the whole log of either, for every outcome.
-/

namespace GrammarText

/-! ## The kinds of lines -/

namespace Line

variable {keepComments : Bool} {line : String} {f : Flaw} {kind : Kind}

/-- What a line of each kind is, once it is trimmed. -/
def OfKind (line : String) : Kind → Prop
  | .comment => ∃ text, Text.trim line.toList = ';' :: text
  | .definition => ∃ after, Text.trim line.toList = '<' :: after
  | .blank => Text.trim line.toList = []

theorem kind?_shape_eq_some_iff : (shape line).kind? = some kind ↔ OfKind line kind := by
  cases kind with
  | comment =>
    simp only [OfKind, ← shape_eq_comment_iff, shape]
    cases Shape.of (Text.trim line.toList) <;> simp [Shape.kind?]
  | definition =>
    simp only [OfKind, ← shape_eq_definition_iff, shape]
    cases Shape.of (Text.trim line.toList) <;> simp [Shape.kind?]
  | blank =>
    simp only [OfKind, ← shape_eq_blank_iff, shape]
    cases Shape.of (Text.trim line.toList) <;> simp [Shape.kind?]

/-- A line with tokens is of some kind. -/
theorem exists_ofKind {ts : List Token} (h : tokens keepComments line = .ok ts) : ∃ kind, OfKind line kind := by
  simp only [← kind?_shape_eq_some_iff]
  unfold tokens at h
  cases hshape : shape line with
  | blank => exact ⟨.blank, rfl⟩
  | comment text => exact ⟨.comment, rfl⟩
  | definition after => exact ⟨.definition, rfl⟩
  | stray => simp [hshape] at h

theorem IsItemFlaw.reason_ne {cs : List Char} (h : IsItemFlaw cs f) : f.reason ≠ .notARule := by
  cases h <;> simp

theorem IsHeadFlaw.reason_ne {cs : List Char} (h : IsHeadFlaw cs f) : f.reason ≠ .notARule := by
  cases h <;> simp

/-- **A line with a flaw is a rule line, or it is of no kind**, and then that is the flaw. -/
theorem kind?_of_tokens_eq_error (h : tokens keepComments line = .error f) :
    (shape line).kind? = if f.reason = .notARule then none else some .definition := by
  unfold tokens at h
  cases hshape : shape line with
  | blank => simp [hshape] at h
  | comment text => simp [hshape] at h
  | definition after =>
    rw [hshape] at h
    have hreason : f.reason ≠ .notARule := by
      rcases definition_eq_error_iff.mp h with hhead | ⟨name, b, -, hbody⟩
      · exact (isHeadFlaw_of_head hhead).reason_ne
      · obtain ⟨front, ts, rest, -, -, hrest⟩ := exists_isItemFlaw_of_body hbody
        exact hrest.reason_ne
    rw [if_neg hreason]
    rfl
  | stray =>
    rw [hshape] at h
    cases h
    rfl

end Line

/-! ## The lines of a document -/

/-- The events that tell the kinds of lines in order, the first of which has number `n`. -/
def linesSeen (n : Nat) (kinds : List Line.Kind) : List Event :=
  (kinds.zipIdx n).map fun p => .lineSeen p.2 p.1

theorem linesSeen_cons (n : Nat) (kind : Line.Kind) (kinds : List Line.Kind) :
    linesSeen n (kind :: kinds) = .lineSeen n kind :: linesSeen (n + 1) kinds := by
  rw [linesSeen, List.zipIdx_cons, List.map_cons, linesSeen]

theorem map_level_linesSeen (n : Nat) (kinds : List Line.Kind) :
    (linesSeen n kinds).map Event.level = List.replicate kinds.length .trace := by
  induction kinds generalizing n with
  | nil => rfl
  | cons kind kinds ih =>
    rw [linesSeen_cons, List.map_cons, ih, List.length_cons, List.replicate_succ]
    rfl

namespace Document

variable {settings : Settings} {n : Nat} {lines : List String} {ts : List Token} {v : Violation}

/-- A line logs its kind, and the lines after it are read if it has no flaw. -/
theorem events_lexLines_cons (settings : Settings) (n : Nat) (line : String) (rest : List String) :
    (lexLines settings n (line :: rest)).events =
      ((Line.shape line).kind?.map (Event.lineSeen n)).toList ++
        match Line.tokens settings.keepComments line with
        | .ok _ => (lexLines settings (n + 1) rest).events
        | .error _ => [] := by
  rw [lexLines, Attempt.events_bind, events_lexLine, result_lexLine]
  cases Line.tokens settings.keepComments line with
  | error f => rfl
  | ok ts =>
    show _ ++ (lexLines settings (n + 1) rest >>= fun others => pure (ts ++ others)).events = _
    rw [Attempt.events_bind]
    cases (lexLines settings (n + 1) rest).result <;> simp

/-- **Lines that are read to their end are all seen**, in order and each with its kind. -/
theorem events_lexLines_of_ok (h : (lexLines settings n lines).result = .ok ts) :
    ∃ kinds, List.Forall₂ Line.OfKind lines kinds ∧ (lexLines settings n lines).events = linesSeen n kinds := by
  induction lines generalizing n ts with
  | nil => exact ⟨[], .nil, rfl⟩
  | cons line rest ih =>
    rw [result_lexLines_cons] at h
    obtain ⟨first, hfirst, hrest⟩ := Except.bind_eq_ok_iff.mp h
    obtain ⟨others, hothers, -⟩ := Except.map_eq_ok_iff.mp hrest
    have hline := Except.mapError_eq_ok_iff.mp hfirst
    obtain ⟨kind, hkind⟩ := Line.exists_ofKind hline
    obtain ⟨kinds, hkinds, hevents⟩ := ih hothers
    refine ⟨kind :: kinds, .cons hkind hkinds, ?_⟩
    rw [events_lexLines_cons, Line.kind?_shape_eq_some_iff.mpr hkind, hline, linesSeen_cons, ← hevents]
    rfl

/-- Lines without a flaw are read to their end. -/
theorem exists_result_lexLines (settings : Settings) (n : Nat)
    (h : ∀ l ∈ lines, ∃ ts, Line.tokens settings.keepComments l = .ok ts) :
    ∃ ts, (lexLines settings n lines).result = .ok ts := by
  rw [Except.exists_eq_ok_iff]
  intro v hv
  obtain ⟨before, line, after, f, rfl, -, hline, -⟩ := result_lexLines_eq_error_iff.mp hv
  obtain ⟨ts, hts⟩ := h line (by simp)
  rw [hline] at hts
  cases hts

/-- **Lines that are read up to a flaw are seen up to there**; the line with the flaw is seen as a rule line, unless it
is no line of a grammar. -/
theorem events_lexLines_of_error (h : (lexLines settings n lines).result = .error v) :
    ∃ before line after kinds, lines = before ++ line :: after ∧ v.line = n + before.length ∧
      List.Forall₂ Line.OfKind before kinds ∧ (v.reason = .notARule ∨ Line.OfKind line .definition) ∧
      (lexLines settings n lines).events =
        linesSeen n kinds ++ if v.reason = .notARule then [] else [.lineSeen v.line .definition] := by
  obtain ⟨before, line, after, f, rfl, hbefore, hline, hv⟩ := result_lexLines_eq_error_iff.mp h
  obtain ⟨ts, hts⟩ := exists_result_lexLines settings n hbefore
  obtain ⟨kinds, hkinds, hevents⟩ := events_lexLines_of_ok hts
  have hkind := Line.kind?_of_tokens_eq_error hline
  have hreason : v.reason = f.reason := by rw [hv]; rfl
  have hplace : v.line = n + before.length := by rw [hv]; rfl
  rw [hreason, hplace]
  refine ⟨before, line, after, kinds, rfl, rfl, hkinds, ?_, ?_⟩
  · by_cases hastray : f.reason = .notARule
    · exact .inl hastray
    · rw [if_neg hastray] at hkind
      exact .inr (Line.kind?_shape_eq_some_iff.mp hkind)
  · have hlast : (lexLines settings (n + before.length) (line :: after)).events =
        if f.reason = .notARule then [] else [.lineSeen (n + before.length) .definition] := by
      rw [events_lexLines_cons, hline, hkind]
      split <;> rfl
    rw [lexLines_append, Attempt.events_bind_of_ok hts, hevents, Attempt.events_bind, hlast]
    cases (lexLines settings (n + before.length) (line :: after)).result <;> simp

/-- A reading logs its start, its lines, and its end if it comes to one. -/
theorem events_lexing (d : Document) :
    d.lexing.events =
      .lexingStarted d.settings.grammar d.lines.length :: (lexLines d.settings 0 d.lines).events ++
        match d.tokens with
        | .ok ts => [.lexingFinished d.settings.grammar ts.length]
        | .error _ => [] := by
  rw [lexing, Attempt.events_bind_of_ok (Attempt.result_log _), Attempt.events_log, Attempt.events_bind,
    ← tokens_eq_result_lexLines]
  cases d.tokens with
  | error v => rfl
  | ok ts =>
    show _ ++ (_ ++ (Attempt.log _ >>= fun _ => pure ts).events) = _
    rw [Attempt.events_bind_of_ok (Attempt.result_log _)]
    rfl

/-- A reading to the end tells its start, every line and its end. -/
theorem events_lexing_of_ok {d : Document} (h : d.tokens = .ok ts) :
    ∃ kinds, List.Forall₂ Line.OfKind d.lines kinds ∧
      d.lexing.events =
        .lexingStarted d.settings.grammar d.lines.length :: linesSeen 0 kinds ++
          [.lexingFinished d.settings.grammar ts.length] := by
  obtain ⟨kinds, hkinds, hevents⟩ := events_lexLines_of_ok ((tokens_eq_result_lexLines d).symm.trans h)
  exact ⟨kinds, hkinds, by rw [events_lexing, h, hevents]⟩

/-- A reading up to a flaw tells its start and the lines up to the flaw, and no end. -/
theorem events_lexing_of_error {d : Document} (h : d.tokens = .error v) :
    ∃ (hv : v.line < d.lines.length) (kinds : List Line.Kind),
      List.Forall₂ Line.OfKind (d.lines.take v.line) kinds ∧
      (v.reason = .notARule ∨ Line.OfKind d.lines[v.line] .definition) ∧
      d.lexing.events =
        .lexingStarted d.settings.grammar d.lines.length :: linesSeen 0 kinds ++
          if v.reason = .notARule then [] else [.lineSeen v.line .definition] := by
  obtain ⟨before, line, after, kinds, hlines, hplace, hkinds, hlast, hevents⟩ :=
    events_lexLines_of_error ((tokens_eq_result_lexLines d).symm.trans h)
  rw [Nat.zero_add] at hplace
  have hv : v.line < d.lines.length := by
    rw [hlines, hplace, List.length_append, List.length_cons]
    omega
  have hline : d.lines[v.line] = line := by simp [hlines, hplace]
  refine ⟨hv, kinds, ?_, by rwa [hline], ?_⟩
  · rwa [hlines, hplace, List.take_left]
  · rw [events_lexing, h, hevents, List.append_nil]
    rfl

end Document

/-! ## Lexing and building -/

open RuleTable

/-- **What lexing and building leave in the log.**  Lexing tells its start, then line after line its number and its kind,
and its end with the number of tokens; if it stops at a flaw the lines up to there are told, the one with the flaw too
unless it is no line of a grammar, and no end.  Building that comes to no table tells nothing.  If it comes to one, it
tells each definition that was merged into an earlier one, in order and as many as the table has fewer rules than there
are definitions, none under refusal, and then its end with the number of rules.  Starts and ends are for debugging,
lines for tracing, and a merged definition is a warning. -/
theorem events_lexing_and_building :
    (∀ d : Document,
      (∀ ts, d.tokens = .ok ts → ∃ kinds, List.Forall₂ Line.OfKind d.lines kinds ∧
        d.lexing.events =
          .lexingStarted d.settings.grammar d.lines.length :: linesSeen 0 kinds ++
            [.lexingFinished d.settings.grammar ts.length] ∧
        d.lexing.events.map Event.level = .debug :: List.replicate d.lines.length .trace ++ [.debug]) ∧
      ∀ v, d.tokens = .error v → ∃ (hv : v.line < d.lines.length) (kinds : List Line.Kind),
        List.Forall₂ Line.OfKind (d.lines.take v.line) kinds ∧
        (v.reason = .notARule ∨ Line.OfKind d.lines[v.line] .definition) ∧
        d.lexing.events =
          .lexingStarted d.settings.grammar d.lines.length :: linesSeen 0 kinds ++
            (if v.reason = .notARule then [] else [.lineSeen v.line .definition]) ∧
        d.lexing.events.map Event.level =
          .debug :: List.replicate (if v.reason = .notARule then v.line else v.line + 1) .trace) ∧
    ∀ (settings : Settings) (tokens : List Token),
      (∀ e, ofTokens settings tokens = .error e → (building settings tokens).events = []) ∧
      ∀ t, ofTokens settings tokens = .ok t → ∃ defs, Grouping.rules tokens = .ok defs ∧
        (building settings tokens).events =
          (repeatedNames (defs.map Rule.name)).map (.definitionMerged settings.grammar) ++
            [.tableBuilt settings.grammar t.size] ∧
        (repeatedNames (defs.map Rule.name)).length + t.size = defs.length ∧
        (settings.repeats = .refused → repeatedNames (defs.map Rule.name) = []) ∧
        (building settings tokens).events.map Event.level =
          List.replicate (defs.length - t.size) .warn ++ [.debug] := by
  refine ⟨fun d => ⟨fun ts hts => ?_, fun v hv => ?_⟩, fun settings tokens =>
    ⟨fun e he => events_building_of_error he, fun t ht => ?_⟩⟩
  · obtain ⟨kinds, hkinds, hevents⟩ := Document.events_lexing_of_ok hts
    refine ⟨kinds, hkinds, hevents, ?_⟩
    rw [hevents, List.map_append, List.map_cons, map_level_linesSeen, ← hkinds.length_eq]
    rfl
  · obtain ⟨hlt, kinds, hkinds, hlast, hevents⟩ := Document.events_lexing_of_error hv
    have hlength : kinds.length = v.line := by
      rw [← hkinds.length_eq, List.length_take, Nat.min_eq_left (Nat.le_of_lt hlt)]
    refine ⟨hlt, kinds, hkinds, hlast, hevents, ?_⟩
    rw [hevents, List.map_append, List.map_cons, map_level_linesSeen, hlength]
    split
    · exact List.append_nil _
    · rw [List.replicate_succ']
      rfl
  · obtain ⟨defs, hdefs, hholds⟩ := exists_holds_of_ofTokens ht
    have hevents := events_building_of_ok ht hdefs
    have hcount : (repeatedNames (defs.map Rule.name)).length + t.size = defs.length := by
      have hsplit := length_repeatedNames_add (defs.map Rule.name)
      rwa [← hholds.names_eq, length_names, List.length_map] at hsplit
    refine ⟨defs, hdefs, hevents, hcount, fun hrefused => ?_, ?_⟩
    · exact repeatedNames_eq_nil_iff.mpr (nodup_of_ofTokens_refused hrefused ht hdefs)
    · have hwarnings : (fun n => (Event.definitionMerged settings.grammar n).level) = fun _ => Level.warn := rfl
      have hnumber : (repeatedNames (defs.map Rule.name)).length = defs.length - t.size := by omega
      rw [hevents, List.map_append, List.map_map, Function.comp_def, hwarnings, List.map_const', hnumber]
      rfl

/-- A reading of a comment, a blank line and a rule to the end; readings that stop at a rule line without an assignment
and at a line astray; and two definitions of `a` around one of `b`, merged, refused and with the last one unfinished. -/
theorem events_lexing_and_building_stops :
    (∃ kinds, List.Forall₂ Line.OfKind ["; c", " ", "<a> ::= 'x'"] kinds ∧
      (⟨{ grammar := "g" }, ["; c", " ", "<a> ::= 'x'"]⟩ : Document).lexing.events =
        .lexingStarted "g" 3 :: linesSeen 0 kinds ++ [.lexingFinished "g" 5]) ∧
    (⟨{}, ["; c", "<a> 'x'", ""]⟩ : Document).lexing.events.map Event.level = [.debug, .trace, .trace] ∧
    (⟨{}, ["; c", "astray", ""]⟩ : Document).lexing.events.map Event.level = [.debug, .trace] ∧
    (building { repeats := .merged }
      [.name "a", .assignment, .literal "1", .endOfLine, .name "b", .assignment, .literal "2", .endOfLine,
        .name "a", .assignment, .literal "3", .endOfLine]).events.map Event.level = [.warn, .debug] ∧
    (building { repeats := .refused }
      [.name "a", .assignment, .literal "1", .endOfLine, .name "b", .assignment, .literal "2", .endOfLine,
        .name "a", .assignment, .literal "3", .endOfLine]).events = [] ∧
    (building { repeats := .merged }
      [.name "a", .assignment, .literal "1", .endOfLine, .name "b", .assignment, .literal "2", .endOfLine,
        .name "a", .assignment, .literal "3"]).events = [] := by
  obtain ⟨hlexing, hbuilding⟩ := events_lexing_and_building
  have hgrouped : Grouping.rules
      [.name "a", .assignment, .literal "1", .endOfLine, .name "b", .assignment, .literal "2", .endOfLine,
        .name "a", .assignment, .literal "3", .endOfLine] =
      .ok [⟨"a", [[.literal "1"]]⟩, ⟨"b", [[.literal "2"]]⟩, ⟨"a", [[.literal "3"]]⟩] := by decide +kernel
  have hmerged : ofTokens { repeats := .merged }
      [.name "a", .assignment, .literal "1", .endOfLine, .name "b", .assignment, .literal "2", .endOfLine,
        .name "a", .assignment, .literal "3", .endOfLine] =
      .ok ((empty.push ⟨"a", [[.literal "1"], [.literal "3"]]⟩).push ⟨"b", [[.literal "2"]]⟩) := by decide +kernel
  obtain ⟨kinds, hkinds, hread, -⟩ := (hlexing ⟨{ grammar := "g" }, ["; c", " ", "<a> ::= 'x'"]⟩).1
    [.endOfLine, .name "a", .assignment, .literal "x", .endOfLine] (by decide +kernel)
  obtain ⟨-, -, -, -, -, hstopped⟩ := (hlexing ⟨{}, ["; c", "<a> 'x'", ""]⟩).2
    ⟨⟨.missingAssignment, "'x'"⟩, 1, unnamedGrammar⟩ (by decide +kernel)
  obtain ⟨-, -, -, -, -, hastray⟩ := (hlexing ⟨{}, ["; c", "astray", ""]⟩).2
    ⟨⟨.notARule, "astray"⟩, 1, unnamedGrammar⟩ (by decide +kernel)
  obtain ⟨defs, hdefs, -, -, -, hwarned⟩ := (hbuilding _ _).2 _ hmerged
  obtain rfl := Except.ok.inj (hgrouped.symm.trans hdefs)
  exact ⟨⟨kinds, hkinds, hread⟩, hstopped, hastray, hwarned,
    (hbuilding _ _).1 (.redefinition unnamedGrammar "a") (by decide +kernel),
    (hbuilding _ _).1 (.grouping (.unterminated "a")) (by decide +kernel)⟩

end GrammarText
