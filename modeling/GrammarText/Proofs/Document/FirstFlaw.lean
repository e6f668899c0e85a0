import GrammarText.Proofs.Document.Forms
import GrammarText.Proofs.Line.Flaws

/-!
# The first line with a flaw

Lines are read one by one, and nothing is carried from one to the next: what is reported of a document is what is
reported of its first line with a flaw alone, with the number of that line.

* `result_lexLines_add`: the number of the first line only shifts the number in the report;
* `result_lexLines_eq_error_iff`: the report is that of the first line with a flaw, whatever follows it;
* `tokensOf_append`: a document in two parts is read part by part;
* `tokensOf_violation_local` puts these together with what the fragment of a report shows.
-/

namespace GrammarText

/-- The same violation so many lines further down. -/
def Violation.later (k : Nat) (v : Violation) : Violation :=
  { v with line := v.line + k }

namespace Document

/-- What the lexing of lines that are cut already comes to. -/
def tokensOf (settings : Settings) (lines : List String) : Except Violation (List Token) :=
  (ofSource settings (.lines lines)).tokens

theorem tokensOf_eq (settings : Settings) (lines : List String) :
    tokensOf settings lines = (lexLines settings 0 lines).result := by
  rw [tokensOf, tokens_ofSource_lines, tokens_eq_result_lexLines]

/-- A line alone has its tokens, or its flaw on the first line. -/
theorem tokensOf_singleton (settings : Settings) (line : String) :
    tokensOf settings [line] =
      (Line.tokens settings.keepComments line).mapError fun flaw => flaw.at 0 settings.grammar := by
  rw [tokensOf_eq, result_lexLines_cons]
  cases Line.tokens settings.keepComments line with
  | error f => rfl
  | ok ts =>
    show Except.ok (ts ++ []) = Except.ok ts
    rw [List.append_nil]

theorem tokensOf_singleton_eq_ok_iff {settings : Settings} {line : String} {ts : List Token} :
    tokensOf settings [line] = .ok ts ↔ Line.tokens settings.keepComments line = .ok ts := by
  rw [tokensOf_singleton, Except.mapError_eq_ok_iff]

/-! ## Where the lines start to be counted -/

theorem result_lexLines_add (settings : Settings) (n k : Nat) (lines : List String) :
    (lexLines settings (n + k) lines).result = (lexLines settings n lines).result.mapError (Violation.later k) := by
  induction lines generalizing n with
  | nil => rfl
  | cons line rest ih =>
    have hnext : n + k + 1 = n + 1 + k := by omega
    rw [result_lexLines_cons, result_lexLines_cons, hnext, ih (n + 1)]
    cases Line.tokens settings.keepComments line with
    | error f => rfl
    | ok ts =>
      show ((lexLines settings (n + 1) rest).result.mapError (Violation.later k)).map (ts ++ ·)
        = ((lexLines settings (n + 1) rest).result.map (ts ++ ·)).mapError (Violation.later k)
      cases (lexLines settings (n + 1) rest).result <;> rfl

/-- **A document in two parts is read part by part**, with the lines of the second part counted on. -/
theorem tokensOf_append (settings : Settings) (xs ys : List String) :
    tokensOf settings (xs ++ ys) =
      match tokensOf settings xs, tokensOf settings ys with
      | .error v, _ => .error v
      | .ok _, .error v => .error (v.later xs.length)
      | .ok ts, .ok us => .ok (ts ++ us) := by
  rw [tokensOf_eq, tokensOf_eq, tokensOf_eq, lexLines_append, Attempt.result_bind]
  cases (lexLines settings 0 xs).result with
  | error v => rfl
  | ok ts =>
    show (lexLines settings (0 + xs.length) ys >>= fun us => pure (ts ++ us)).result = _
    rw [Attempt.result_bind, result_lexLines_add]
    cases (lexLines settings 0 ys).result <;> rfl

/-! ## The first flaw -/

/-- **The report on lines is that on the first line with a flaw.** -/
theorem result_lexLines_eq_error_iff {settings : Settings} {n : Nat} {lines : List String} {v : Violation} :
    (lexLines settings n lines).result = .error v ↔
      ∃ before line after f, lines = before ++ line :: after ∧
        (∀ l ∈ before, ∃ ts, Line.tokens settings.keepComments l = .ok ts) ∧
        Line.tokens settings.keepComments line = .error f ∧ v = f.at (n + before.length) settings.grammar := by
  induction lines generalizing n with
  | nil => simp [lexLines]
  | cons line rest ih =>
    rw [result_lexLines_cons, Except.bind_eq_error_iff]
    constructor
    · intro h
      rcases h with hline | ⟨ts, hline, hrest⟩
      · obtain ⟨f, hf, rfl⟩ := Except.mapError_eq_error_iff.mp hline
        exact ⟨[], line, rest, f, rfl, by simp, hf, rfl⟩
      · obtain ⟨before, bad, after, f, rfl, hbefore, hbad, rfl⟩ := ih.mp (Except.map_eq_error_iff.mp hrest)
        have hfirst := Except.mapError_eq_ok_iff.mp hline
        refine ⟨line :: before, bad, after, f, rfl, ?_, hbad, ?_⟩
        · intro l hl
          rcases List.mem_cons.mp hl with rfl | hl
          · exact ⟨ts, hfirst⟩
          · exact hbefore l hl
        · have hplace : n + 1 + before.length = n + (line :: before).length := by
            rw [List.length_cons]
            omega
          rw [hplace]
    · intro h
      obtain ⟨before, bad, after, f, hlines, hbefore, hbad, rfl⟩ := h
      cases before with
      | nil =>
        obtain ⟨rfl, rfl⟩ := List.cons.inj hlines
        exact .inl (Except.mapError_eq_error_iff.mpr ⟨f, hbad, rfl⟩)
      | cons first before =>
        obtain ⟨rfl, rfl⟩ := List.cons.inj hlines
        obtain ⟨ts, hts⟩ := hbefore line List.mem_cons_self
        have hplace : n + (line :: before).length = n + 1 + before.length := by
          rw [List.length_cons]
          omega
        refine .inr ⟨ts, Except.mapError_eq_ok_iff.mpr hts, Except.map_eq_error_iff.mpr (ih.mpr ?_)⟩
        exact ⟨before, bad, after, f, rfl, fun l hl => hbefore l (List.mem_cons_of_mem line hl), hbad, by rw [hplace]⟩

/-- The same in terms of the lines lexed alone. -/
theorem tokensOf_eq_error_iff {settings : Settings} {lines : List String} {v : Violation} :
    tokensOf settings lines = .error v ↔
      ∃ before line after w, lines = before ++ line :: after ∧ (∀ l ∈ before, ∃ ts, tokensOf settings [l] = .ok ts) ∧
        tokensOf settings [line] = .error w ∧ v = w.later before.length := by
  rw [tokensOf_eq, result_lexLines_eq_error_iff]
  simp only [tokensOf_singleton_eq_ok_iff]
  constructor
  · intro h
    obtain ⟨before, line, after, f, hlines, hbefore, hline, rfl⟩ := h
    refine ⟨before, line, after, f.at 0 settings.grammar, hlines, hbefore, ?_, rfl⟩
    rw [tokensOf_singleton, hline]
    rfl
  · intro h
    obtain ⟨before, line, after, w, hlines, hbefore, hline, rfl⟩ := h
    rw [tokensOf_singleton] at hline
    obtain ⟨f, hf, rfl⟩ := Except.mapError_eq_error_iff.mp hline
    exact ⟨before, line, after, f, hlines, hbefore, hf, rfl⟩

/-- A line alone is reported on the first line, under the name of the grammar, with a piece of the line. -/
theorem of_tokensOf_singleton_eq_error {settings : Settings} {line : String} {w : Violation}
    (h : tokensOf settings [line] = .error w) :
    w.line = 0 ∧ w.grammar = settings.grammar ∧ w.fragment.toList <:+: Text.trim line.toList := by
  rw [tokensOf_singleton] at h
  obtain ⟨f, hf, rfl⟩ := Except.mapError_eq_error_iff.mp h
  exact ⟨rfl, rfl, Line.fragment_isInfix_of_tokens hf⟩

/-- **A violation is a matter of one line.**  There is one exactly if some line has one by itself.  It is that of the
first such line, with the number of that line, the name of the grammar and a piece of the line, and it stays the same
whatever the lines after it are.  So a document in two parts has the violation of the first part, else that of the
second counted on from the first, else the tokens of both. -/
theorem tokensOf_violation_local (settings : Settings) :
    (∀ lines, (∃ v, tokensOf settings lines = .error v) ↔ ∃ line ∈ lines, ∃ w, tokensOf settings [line] = .error w) ∧
    (∀ lines v, tokensOf settings lines = .error v →
      ∃ hv : v.line < lines.length,
        (∀ (i : Nat) (hi : i < v.line), ∃ ts, tokensOf settings [lines[i]] = .ok ts) ∧
        (∃ w, tokensOf settings [lines[v.line]] = .error w ∧ w.reason = v.reason ∧ w.fragment = v.fragment) ∧
        v.grammar = settings.grammar ∧
        v.fragment.toList <:+: Text.trim lines[v.line].toList ∧
        ∀ after, tokensOf settings (lines.take (v.line + 1) ++ after) = .error v) ∧
    ∀ xs ys, tokensOf settings (xs ++ ys) =
      match tokensOf settings xs, tokensOf settings ys with
      | .error v, _ => .error v
      | .ok _, .error v => .error { v with line := v.line + xs.length }
      | .ok ts, .ok us => .ok (ts ++ us) := by
  refine ⟨fun lines => ⟨?_, ?_⟩, fun lines v h => ?_, fun xs ys => tokensOf_append settings xs ys⟩
  · intro h
    obtain ⟨v, hv⟩ := h
    obtain ⟨before, line, after, w, rfl, -, hline, -⟩ := tokensOf_eq_error_iff.mp hv
    exact ⟨line, by simp, w, hline⟩
  · intro h
    obtain ⟨line, hline, w, hw⟩ := h
    obtain ⟨before, after, rfl⟩ := List.append_of_mem hline
    rw [← List.singleton_append, tokensOf_append settings before, tokensOf_append settings [line] after, hw]
    cases tokensOf settings before with
    | error v => exact ⟨v, rfl⟩
    | ok ts => exact ⟨w.later before.length, rfl⟩
  · obtain ⟨before, line, after, w, rfl, hbefore, hline, rfl⟩ := tokensOf_eq_error_iff.mp h
    obtain ⟨hzero, hgrammar, hpiece⟩ := of_tokensOf_singleton_eq_error hline
    have hplace : (w.later before.length).line = before.length := by
      show w.line + before.length = before.length
      rw [hzero, Nat.zero_add]
    have hlt : (w.later before.length).line < (before ++ line :: after).length := by
      rw [hplace, List.length_append, List.length_cons]
      omega
    have hget : (before ++ line :: after)[(w.later before.length).line] = line := by
      simp [hplace]
    refine ⟨hlt, fun i hi => ?_, ⟨w, ?_, rfl, rfl⟩, hgrammar, ?_, fun others => ?_⟩
    · rw [hplace] at hi
      rw [List.getElem_append_left hi]
      exact hbefore _ (List.getElem_mem hi)
    · rw [hget, hline]
    · rw [hget]
      exact hpiece
    · have htake : (before ++ line :: after).take (before.length + 1) = before ++ [line] := by
        rw [List.take_length_add_append, List.take_succ_cons, List.take_zero]
      rw [hplace, htake, List.append_assoc, List.singleton_append]
      exact tokensOf_eq_error_iff.mpr ⟨before, line, others, w, rfl, hbefore, hline, rfl⟩

/-- A comment and a blank line are counted, and neither the line that is astray after the flaw nor the rule in its place
matters. -/
theorem tokensOf_violation_local_third_line :
    tokensOf { grammar := "g" } ["; c", "", " <a!> ::= 'x'", "astray"] = .error ⟨⟨.invalidName, "a!"⟩, 2, "g"⟩ ∧
    tokensOf { grammar := "g" } ["; c", "", " <a!> ::= 'x'", "<b> ::= 'y'"] = .error ⟨⟨.invalidName, "a!"⟩, 2, "g"⟩ := by
  have hthird : tokensOf { grammar := "g" } ["; c", "", " <a!> ::= 'x'", "astray"]
      = .error ⟨⟨.invalidName, "a!"⟩, 2, "g"⟩ := by decide +kernel
  obtain ⟨-, -, -, -, -, hafter⟩ := (tokensOf_violation_local { grammar := "g" }).2.1 _ _ hthird
  exact ⟨hthird, hafter ["<b> ::= 'y'"]⟩

end Document

end GrammarText
