import GrammarText.Proofs.Document.Forms

/-!
# What lexing gives, and the way back

With comments kept, the tokens of a document fall into *segments*, one a line: a comment, a lone end of line, or a
rule with its name, the assignment, its body and an end of line.  Which tokens a body may hold is `Token.InBody`, and
a `Segment` is built only from a tight comment, a valid name and such a body.

* `isItem_chars_iff`: the tokens of a body are exactly those whose spelling is an item that gives them back;
* `exists_segments_of_isLine`: the tokens of a line are a segment;
* `isLine_line`: the line in which a segment is written has its tokens, and no others;
* `tokens_lines_image` is both at once for whole documents: what lexing gives is exactly the sequences of segments,
  and each of them is what lexing its own rendering gives.

A body need not make sense as a rule: bars may stand first, last or side by side, and a body may be empty.
-/

namespace GrammarText

/-! ## Tokens of a body -/

/-- The tokens that the body of a rule line can hold. -/
def Token.InBody : Token → Prop
  | .separator bar => bar = '|'
  | .builtin _ => True
  | .name n => isRuleName n.toList = true ∧ ∀ b : Builtin, b.spelling ≠ n
  | .literal text => Text.holdsBothQuotes text.toList = false
  | .marker _ => False
  | .comment _ => False

namespace Text

/-- The delimiter for a text is a quote, and a text with at most one kind of quotes is free of it. -/
theorem quoteFor_free {text : List Char} (h : holdsBothQuotes text = false) :
    isQuote (quoteFor text) = true ∧ quoteFor text ∉ text := by
  unfold holdsBothQuotes at h
  unfold quoteFor
  by_cases hdouble : doubleQuote ∈ text
  · have hsingle : singleQuote ∉ text := by
      intro hmem
      simp [hdouble, hmem] at h
    rw [if_pos ⟨hdouble, hsingle⟩]
    exact ⟨by decide, hsingle⟩
  · rw [if_neg fun hboth => hdouble hboth.1]
    exact ⟨by decide, hdouble⟩

theorem toList_quoted (text : String) :
    (quoted text).toList = quoteFor text.toList :: (text.toList ++ [quoteFor text.toList]) := by
  simp [quoted, String.toList_append, Char.toString]

end Text

namespace Token

theorem isRuleName_spelling (b : Builtin) : isRuleName b.spelling.toList = true := by
  cases b <;> decide

/-- A token of a body is spelled as the item that gives it. -/
theorem isItem_chars {t : Token} (h : t.InBody) : Line.IsItem t.chars (some t) := by
  cases t with
  | separator bar =>
    obtain rfl : bar = '|' := h
    exact .bar
  | builtin b =>
    have hitem : Line.IsItem ('<' :: (b.spelling.toList ++ ['>'])) (some (.builtin b)) :=
      .reference (isRuleName_spelling b) (.builtin b)
    have hchars : (Token.builtin b).chars = '<' :: (b.spelling.toList ++ ['>']) := by
      cases b <;> decide
    rwa [hchars]
  | name n =>
    obtain ⟨hvalid, hunspelled⟩ := h
    have hrefers : Line.Refers n.toList (.name (String.ofList n.toList)) :=
      .name fun b hb => hunspelled b (String.toList_inj.mp hb)
    rw [String.ofList_toList] at hrefers
    exact .reference hvalid hrefers
  | literal text =>
    obtain ⟨hquote, hfree⟩ := Text.quoteFor_free h
    have hitem := Line.IsItem.quoted hquote hfree
    rw [String.ofList_toList] at hitem
    show Line.IsItem (Text.quoted text).toList _
    rwa [Text.toList_quoted]
  | marker m => exact h.elim
  | comment text => exact h.elim

/-- What an item gives is a token of a body. -/
theorem inBody_of_isItem {i : List Char} {t : Token} (h : Line.IsItem i (some t)) : t.InBody := by
  cases h with
  | bar => rfl
  | @quoted q text hquote hfree =>
    show Text.holdsBothQuotes (String.ofList text).toList = false
    rw [String.toList_ofList, Text.holdsBothQuotes, Bool.and_eq_false_iff]
    simp only [Text.isQuote, Bool.or_eq_true, beq_iff_eq] at hquote
    rcases hquote with rfl | rfl
    · right
      simpa using hfree
    · left
      simpa using hfree
  | @reference m _ hvalid hrefers =>
    cases hrefers with
    | builtin b => trivial
    | name unspelled =>
      refine ⟨by rwa [String.toList_ofList], fun b hb => unspelled b ?_⟩
      rw [hb, String.toList_ofList]

/-- **A token can stand in a body exactly if its spelling is an item that gives it back.** -/
theorem isItem_chars_iff {t : Token} : Line.IsItem t.chars (some t) ↔ t.InBody :=
  ⟨inBody_of_isItem, isItem_chars⟩

theorem inBody_of_isBody {cs : List Char} {ts : List Token} (h : Line.IsBody cs ts) : ∀ t ∈ ts, t.InBody := by
  induction h with
  | nil =>
    intro t ht
    simp at ht
  | @cons i rest o ts first others ih =>
    intro t ht
    rcases List.mem_append.mp ht with ht | ht
    · rw [Option.mem_toList] at ht
      rw [Option.mem_def.mp ht] at first
      exact inBody_of_isItem first
    · exact ih t ht

/-- Tokens of a body with a space before each are a body with these tokens. -/
theorem isBody_spaced {ts : List Token} (h : ∀ t ∈ ts, t.InBody) :
    Line.IsBody (ts.flatMap fun t => ' ' :: t.chars) ts := by
  induction ts with
  | nil => exact .nil
  | cons t ts ih =>
    have hrest := ih fun u hu => h u (List.mem_cons_of_mem t hu)
    have hitem := isItem_chars (h t List.mem_cons_self)
    exact .cons (.blank (c := ' ') (by decide)) (.cons hitem hrest)

theorem tight_chars {t : Token} (h : t.InBody) : Text.Tight t.chars ∧ t.chars ≠ [] := by
  have hitem := isItem_chars h
  generalize t.chars = cs at hitem
  cases hitem with
  | bar => exact ⟨Text.tight_singleton (by decide), by simp⟩
  | @quoted q text hquote hfree =>
    have hq := (Line.isBlank_eq_false_of_isQuote hquote).1
    exact ⟨Text.tight_of_ends text hq hq, by simp⟩
  | @reference m _ hvalid hrefers => exact ⟨Text.tight_of_ends m (by decide) (by decide), by simp⟩

end Token

/-! ## Segments -/

/-- The part of a token list that one line makes, with comments kept. -/
inductive Segment where
  | comment (text : String) (tight : Text.trimmed text = text)
  | blank
  | definition (name : String) (body : List Token) (valid : isRuleName name.toList = true)
      (inBody : ∀ t ∈ body, t.InBody)

namespace Segment

def tokens : Segment → List Token
  | comment text _ => [.comment text]
  | blank => [.endOfLine]
  | definition name body _ _ => .name name :: .assignment :: (body ++ [.endOfLine])

/-- The line in which a segment is written: its tokens but for the end of line, with a space between two. -/
def line : Segment → String
  | comment text _ => (Token.comment text).render
  | blank => ""
  | definition name body _ _ => " ".intercalate ((.name name :: .assignment :: body).map Token.render)

/-! ## From lines to segments -/

variable {keepComments : Bool}

/-- The tokens of a line are a segment, or none if it is a comment that is not kept. -/
theorem exists_segments_of_isLine {cs : List Char} {ts : List Token} (h : Line.IsLine keepComments cs ts) :
    ∃ segs : List Segment, segs.flatMap tokens = ts := by
  cases h with
  | comment text =>
    have htight : Text.trimmed (String.ofList (Text.trim text)) = String.ofList (Text.trim text) := by
      rw [Text.trimmed, String.toList_ofList, Text.trim_trim]
    cases keepComments with
    | true => exact ⟨[.comment _ htight], rfl⟩
    | false => exact ⟨[], rfl⟩
  | blank => exact ⟨[.blank], rfl⟩
  | @definition n w b us hvalid hgap hbody =>
    have hname : isRuleName (String.ofList n).toList = true := by rwa [String.toList_ofList]
    exact ⟨[.definition (String.ofList n) us hname (Token.inBody_of_isBody hbody)], List.append_nil _⟩

theorem exists_segments_of_isDocument {lines : List String} {ts : List Token}
    (h : Document.IsDocument keepComments lines ts) : ∃ segs : List Segment, segs.flatMap tokens = ts := by
  induction h with
  | nil => exact ⟨[], rfl⟩
  | cons first _ ih =>
    obtain ⟨front, rfl⟩ := exists_segments_of_isLine first
    obtain ⟨segs, rfl⟩ := ih
    exact ⟨front ++ segs, List.flatMap_append⟩

/-! ## From segments to lines -/

/-- The line of a rule spells its tokens with a space between two of them. -/
theorem toList_line_definition (name : String) (body : List Token) (hvalid : isRuleName name.toList = true)
    (hbody : ∀ t ∈ body, t.InBody) :
    (definition name body hvalid hbody).line.toList =
      [' '].intercalate ((Token.name name :: .assignment :: body).map Token.chars) := by
  have hrender : String.toList ∘ Token.render = Token.chars := funext fun t => String.toList_ofList
  rw [line, String.toList_intercalate, List.map_map, hrender]
  rfl

/-- The same with the pieces of the grammar of lines told apart. -/
theorem toList_line_definition_eq (name : String) (body : List Token) (hvalid : isRuleName name.toList = true)
    (hbody : ∀ t ∈ body, t.InBody) :
    (definition name body hvalid hbody).line.toList =
      '<' :: (name.toList ++ '>' :: ([' '] ++ ':' :: ':' :: '=' :: body.flatMap fun t => ' ' :: t.chars)) := by
  have hassignment : Token.assignment.chars = [':', ':', '='] := by decide
  rw [toList_line_definition, List.map_cons, Text.intercalate_space_cons, List.flatMap_map, List.flatMap_cons,
    hassignment]
  show ('<' :: (name.toList ++ ['>'])) ++ (' ' :: ':' :: ':' :: '=' :: body.flatMap fun t => ' ' :: t.chars) = _
  simp

/-- Nothing can be trimmed off the line of a rule, for every token in it is tight. -/
theorem tight_line_definition (name : String) (body : List Token) (hvalid : isRuleName name.toList = true)
    (hbody : ∀ t ∈ body, t.InBody) : Text.Tight (definition name body hvalid hbody).line.toList := by
  rw [toList_line_definition]
  apply Text.tight_intercalate_space
  intro u hu
  obtain ⟨t, ht, rfl⟩ := List.mem_map.mp hu
  rcases List.mem_cons.mp ht with rfl | ht
  · exact ⟨Text.tight_of_ends name.toList (by decide) (by decide), by simp [Token.chars]⟩
  rcases List.mem_cons.mp ht with rfl | ht
  · exact ⟨Text.tight_of_ends (a := ':') (b := '=') [':'] (by decide) (by decide), by decide⟩
  · exact Token.tight_chars (hbody t ht)

/-- A comment is written so that the semicolon and the space after it come off again. -/
theorem isLine_line_comment (text : String) (htight : Text.trimmed text = text) :
    Line.IsLine true (Text.trim (comment text htight).line.toList) [.comment text] := by
  have hline : (comment text htight).line.toList = ';' :: ' ' :: text.toList := String.toList_ofList
  have hspace : Text.Blanks [' '] := Text.blanks_singleton (by decide)
  have hsemicolon : Text.Tight [';'] := Text.tight_singleton (by decide)
  have htext : Text.Tight text.toList := Text.trimmed_eq_self_iff.mp htight
  rw [hline]
  by_cases hempty : text.toList = []
  · -- the space is at the end of the line, and goes with the trimming of the line
    obtain rfl : text = "" := String.toList_eq_nil_iff.mp hempty
    have htrim : Text.trim ([] ++ ([';'] ++ [' '])) = [';'] :=
      Text.trim_blanks_append Text.blanks_nil hsemicolon hspace
    rw [show ';' :: ' ' :: ("" : String).toList = [] ++ ([';'] ++ [' ']) from rfl, htrim]
    exact .comment []
  · -- the space stays with the line, and goes with the trimming of the comment
    have hwhole : Text.Tight ([';'] ++ ([' '] ++ text.toList)) :=
      Text.tight_append hsemicolon (by simp) htext hempty [' ']
    have htrim : Text.trim ([' '] ++ (text.toList ++ [])) = text.toList :=
      Text.trim_blanks_append hspace htext Text.blanks_nil
    rw [List.append_nil] at htrim
    have hcomment : Line.IsLine true _ _ := .comment ([' '] ++ text.toList)
    rw [htrim, String.ofList_toList] at hcomment
    rw [show ';' :: ' ' :: text.toList = [';'] ++ ([' '] ++ text.toList) from rfl,
      Text.trim_eq_self_iff.mpr hwhole]
    exact hcomment

/-- The line of a rule has its tokens whether comments are kept or not. -/
theorem isLine_line_definition (name : String) (body : List Token) (hvalid : isRuleName name.toList = true)
    (hbody : ∀ t ∈ body, t.InBody) :
    Line.IsLine keepComments (Text.trim (definition name body hvalid hbody).line.toList)
      (definition name body hvalid hbody).tokens := by
  have hgap : Text.Blanks [' '] := Text.blanks_singleton (by decide)
  have hline : Line.IsLine keepComments _ _ := .definition hvalid hgap (Token.isBody_spaced hbody)
  rw [String.ofList_toList] at hline
  rwa [Text.trim_eq_self_iff.mpr (tight_line_definition name body hvalid hbody), toList_line_definition_eq]

/-- **The line of a segment has the tokens of the segment.** -/
theorem isLine_line (s : Segment) : Line.IsLine true (Text.trim s.line.toList) s.tokens := by
  cases s with
  | comment text htight => exact isLine_line_comment text htight
  | blank => exact .blank
  | definition name body hvalid hbody => exact isLine_line_definition name body hvalid hbody

theorem isDocument_lines (segs : List Segment) :
    Document.IsDocument true (segs.map line) (segs.flatMap tokens) := by
  induction segs with
  | nil => exact .nil
  | cons s segs ih => exact .cons s.isLine_line ih

end Segment

/-! ## Whole documents -/

namespace Document

/-- **What lexing gives with comments kept is exactly the sequences of segments**, and lexing the rendering of
segments gives them back. -/
theorem tokens_lines_image (settings : Settings) :
    (∀ ts : List Token,
      (∃ lines, (ofSource { settings with keepComments := true } (.lines lines)).tokens = .ok ts) ↔
        ∃ segs : List Segment, segs.flatMap Segment.tokens = ts) ∧
    ∀ segs : List Segment,
      (ofSource { settings with keepComments := true } (.lines (segs.map Segment.line))).tokens =
        .ok (segs.flatMap Segment.tokens) := by
  have hback : ∀ segs : List Segment,
      (ofSource { settings with keepComments := true } (.lines (segs.map Segment.line))).tokens =
        .ok (segs.flatMap Segment.tokens) := by
    intro segs
    rw [tokens_ofSource_lines]
    exact tokens_eq_ok_iff.mpr (Segment.isDocument_lines segs)
  refine ⟨fun ts => ⟨?_, ?_⟩, hback⟩
  · intro h
    obtain ⟨lines, hlines⟩ := h
    rw [tokens_ofSource_lines] at hlines
    exact Segment.exists_segments_of_isDocument (tokens_eq_ok_iff.mp hlines)
  · intro h
    obtain ⟨segs, rfl⟩ := h
    exact ⟨segs.map Segment.line, hback segs⟩

end Document

end GrammarText
