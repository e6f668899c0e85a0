import GrammarText.Lexing
import GrammarText.Proofs.Line.Forms

/-!
# The lines of a document, as a grammar

A document is lexed exactly if each of its lines has one of the three forms, and its tokens are those of its lines one
after the other: `IsDocument keepComments lines ts`.

* `result_lexLines_cons` is one step of the reading without its log;
* `lexing_ofSource_lines`: lines that come trimmed are read like the lines as they were given, log included;
* `tokens_ofSource_eq_ok_iff` puts the two together for lines that are cut already.
-/

namespace GrammarText.Document

/-- Lines one after the other, with their tokens in order. -/
inductive IsDocument (keepComments : Bool) : List String → List Token → Prop where
  | nil : IsDocument keepComments [] []
  | cons {line : String} {lines : List String} {ts us : List Token}
      (first : Line.IsLine keepComments (Text.trim line.toList) ts) (others : IsDocument keepComments lines us) :
      IsDocument keepComments (line :: lines) (ts ++ us)

/-! ## Reading without the log -/

/-- The first line is read at its number, and the others from the next number on. -/
theorem result_lexLines_cons (settings : Settings) (n : Nat) (line : String) (rest : List String) :
    (lexLines settings n (line :: rest)).result =
      ((Line.tokens settings.keepComments line).mapError fun flaw => flaw.at n settings.grammar).bind
        fun ts => (lexLines settings (n + 1) rest).result.map (ts ++ ·) := by
  rw [lexLines, Attempt.result_bind, result_lexLine]
  congr 1
  funext ts
  rw [Attempt.result_bind]
  rfl

theorem tokens_eq_result_lexLines (d : Document) : d.tokens = (lexLines d.settings 0 d.lines).result := by
  rw [tokens, lexing, Attempt.result_bind, Attempt.result_log]
  show ((lexLines d.settings 0 d.lines) >>= _).result = _
  rw [Attempt.result_bind]
  cases (lexLines d.settings 0 d.lines).result with
  | error v => rfl
  | ok ts => rfl

/-- **Lines are read to their end exactly if each has a form**, whatever number the first one has. -/
theorem result_lexLines_eq_ok_iff {settings : Settings} {n : Nat} {lines : List String} {ts : List Token} :
    (lexLines settings n lines).result = .ok ts ↔ IsDocument settings.keepComments lines ts := by
  induction lines generalizing n ts with
  | nil =>
    constructor
    · intro h
      cases h
      exact .nil
    · intro h
      cases h
      rfl
  | cons line rest ih =>
    rw [result_lexLines_cons]
    constructor
    · intro h
      obtain ⟨first, hline, hrest⟩ := Except.bind_eq_ok_iff.mp h
      obtain ⟨others, hothers, rfl⟩ := Except.map_eq_ok_iff.mp hrest
      have hform := Line.tokens_eq_ok_iff.mp (Except.mapError_eq_ok_iff.mp hline)
      exact .cons hform (ih.mp hothers)
    · intro h
      cases h with
      | cons first others =>
        have hline := Line.tokens_eq_ok_iff.mpr first
        exact Except.bind_eq_ok_iff.mpr
          ⟨_, Except.mapError_eq_ok_iff.mpr hline, Except.map_eq_ok_iff.mpr ⟨_, ih.mpr others, rfl⟩⟩

theorem tokens_eq_ok_iff {d : Document} {ts : List Token} :
    d.tokens = .ok ts ↔ IsDocument d.settings.keepComments d.lines ts := by
  rw [tokens_eq_result_lexLines, result_lexLines_eq_ok_iff]

/-- The text of a literal stands in a line of the document as it is. -/
theorem exists_line_of_isDocument {keepComments : Bool} {lines : List String} {ts : List Token}
    (h : IsDocument keepComments lines ts) {text : String} (htext : Token.literal text ∈ ts) :
    ∃ line ∈ lines, ∀ c ∈ text.toList, c ∈ line.toList := by
  induction h with
  | nil => simp at htext
  | @cons line lines _ _ first others ih =>
    rcases List.mem_append.mp htext with htext | htext
    · refine ⟨line, List.mem_cons_self, fun c hc => ?_⟩
      exact Text.mem_of_mem_trim (Line.mem_of_isLine first htext c hc)
    · obtain ⟨l, hl, hmem⟩ := ih htext
      exact ⟨l, List.mem_cons_of_mem line hl, hmem⟩

/-! ## Lines that are cut already -/

/-- Trimming the lines first changes nothing in the reading. -/
theorem lexLines_trimEach (settings : Settings) (n : Nat) (lines : List String) :
    lexLines settings n (Text.trimEach lines) = lexLines settings n lines := by
  induction lines generalizing n with
  | nil => rfl
  | cons line rest ih =>
    have hline : lexLine settings n (Text.trimmed line) = lexLine settings n line := by
      simp only [lexLine, Line.shape_trimmed, Line.tokens_trimmed]
    have hrest : lexLines settings (n + 1) (Text.trimEach rest) = lexLines settings (n + 1) rest := ih (n + 1)
    show lexLines settings n (Text.trimmed line :: Text.trimEach rest) = _
    simp only [lexLines, hline, hrest]

/-- A document made of given lines is read like the lines themselves. -/
theorem lexing_ofSource_lines (settings : Settings) (lines : List String) :
    (ofSource settings (.lines lines)).lexing = (⟨settings, lines⟩ : Document).lexing := by
  show (⟨settings, Text.trimEach lines⟩ : Document).lexing = _
  have hlength : (Text.trimEach lines).length = lines.length := List.length_map Text.trimmed
  simp only [lexing, lexLines_trimEach, hlength]

theorem tokens_ofSource_lines (settings : Settings) (lines : List String) :
    (ofSource settings (.lines lines)).tokens = (⟨settings, lines⟩ : Document).tokens := by
  rw [tokens, lexing_ofSource_lines, tokens]

/-- **The lexer accepts exactly the grammar of lines and gives exactly the tokens of their forms.** -/
theorem tokens_ofSource_eq_ok_iff (settings : Settings) (lines : List String) (ts : List Token) :
    (ofSource settings (.lines lines)).tokens = .ok ts ↔ IsDocument settings.keepComments lines ts := by
  rw [tokens_ofSource_lines]
  exact tokens_eq_ok_iff

end GrammarText.Document
