import GrammarText.Proofs.Document.FirstFlaw
import GrammarText.Proofs.Line.LongestFront

/-!
# Blank characters between items

Inside quotes and brackets a blank character counts like any other.  Between two items it does not, nor between the
head of a rule line and its assignment, nor at the ends of a line; and this holds of flaws too, though a flaw that is
not closed shows the rest of the line, which depends on where the line was trimmed.

* `body_trimEnd_item_append`: an item at the front of a body is read as before when the end of the body is trimmed;
* `IsBody.body_trimEnd_append`: so are any number of items, and what follows them is trimmed and read by itself;
* `tokens_ruleText`: a rule line has its name and the tokens of its trimmed body, whatever blanks are in its head;
* `tokensOf_spacing`: blank characters in any of these places change nothing in what a document comes to.
-/

namespace GrammarText.Line

variable {u w v : List Char} {ts : List Token}

/-! ## Bodies -/

/-- An item is one blank character or ends in a character that is not blank. -/
theorem IsItem.ends {i : List Char} {t : Option Token} (h : IsItem i t) :
    (t = none ∧ ∃ c, Text.isBlank c = true ∧ i = [c]) ∨ ∃ front z, Text.isBlank z = false ∧ i = front ++ [z] := by
  cases h with
  | @blank c hblank => exact .inl ⟨rfl, c, hblank, rfl⟩
  | bar => exact .inr ⟨[], '|', by decide, rfl⟩
  | @quoted q text hquote _ => exact .inr ⟨q :: text, q, (isBlank_eq_false_of_isQuote hquote).1, rfl⟩
  | @reference m _ _ _ => exact .inr ⟨'<' :: m, '>', by decide, rfl⟩

/-- An item in front of a body puts its token in front of the tokens, also where the end of the body is trimmed. -/
theorem body_trimEnd_item_append {i : List Char} {t : Option Token} (h : IsItem i t) (rest : List Char) :
    body (Text.trimEnd (i ++ rest)) = (body (Text.trimEnd rest)).map (t.toList ++ ·) := by
  rcases h.ends with ⟨rfl, c, hblank, rfl⟩ | ⟨front, z, hz, rfl⟩
  · -- a blank that is left alone is trimmed itself
    rw [Text.trimEnd_append]
    by_cases hrest : Text.trimEnd rest = []
    · have hnone : Text.trimEnd [c] = [] := by simp [Text.trimEnd, hblank]
      rw [if_pos hrest, hrest, hnone, body_nil]
      rfl
    · rw [if_neg hrest, body_item_append h]
  · have hkept : Text.trimEnd ((front ++ [z]) ++ rest) = (front ++ [z]) ++ Text.trimEnd rest := by
      rw [List.append_assoc, List.append_assoc]
      exact Text.trimEnd_append_cons hz front rest
    rw [hkept, body_item_append h]

/-- **The items at the front of a body are read by themselves**, and what follows them is trimmed and read by itself. -/
theorem IsBody.body_trimEnd_append (h : IsBody u ts) (v : List Char) :
    body (Text.trimEnd (u ++ v)) = (body (Text.trimEnd v)).map (ts ++ ·) := by
  induction h with
  | nil =>
    show body (Text.trimEnd v) = (body (Text.trimEnd v)).map id
    rw [Except.map_id]
    rfl
  | @cons i rest t ts first _ ih =>
    rw [List.append_assoc, body_trimEnd_item_append first, ih]
    cases body (Text.trimEnd v) with
    | error f => rfl
    | ok us =>
      show Except.ok (t.toList ++ (ts ++ us)) = Except.ok (t.toList ++ ts ++ us)
      rw [List.append_assoc]

/-- Blank characters are items without a token. -/
theorem IsBody.append_blanks (h : IsBody u ts) (hw : Text.Blanks w) : IsBody (u ++ w) ts := by
  induction w generalizing u with
  | nil => rwa [List.append_nil]
  | cons c w ih =>
    have hone : IsBody (u ++ [c]) ts := by
      have hitem := h.concat (.blank (hw c List.mem_cons_self))
      rwa [Option.toList_none, List.append_nil] at hitem
    have hall := ih hone fun d hd => hw d (List.mem_cons_of_mem c hd)
    rwa [List.append_assoc] at hall

/-- **Blank characters after some items change nothing.** -/
theorem body_trimEnd_blanks (h : IsBody u ts) (hw : Text.Blanks w) (v : List Char) :
    body (Text.trimEnd (u ++ w ++ v)) = body (Text.trimEnd (u ++ v)) := by
  rw [(h.append_blanks hw).body_trimEnd_append, h.body_trimEnd_append]

/-! ## Lines -/

/-- A rule line from its parts: what stands before its opening bracket, its name, what stands between its closing
bracket and the assignment, and its body. -/
def ruleText (lead name gap body : String) : String :=
  lead ++ "<" ++ name ++ ">" ++ gap ++ "::=" ++ body

theorem toList_ruleText (lead name gap body : String) :
    (ruleText lead name gap body).toList =
      lead.toList ++ '<' :: ((name.toList ++ '>' :: (gap.toList ++ [':', ':'])) ++ '=' :: body.toList) := by
  simp [ruleText]

/-- Every line of which the head is read has such parts: its body, once the line is trimmed, and blanks after it. -/
theorem exists_ruleText {line name : String} {cs b : List Char} (hline : Text.trim line.toList = '<' :: cs)
    (hhead : head cs = .ok (name, b)) :
    ∃ lead gap tail : String, Text.Blanks lead.toList ∧ isRuleName name.toList = true ∧ Text.Blanks gap.toList ∧
      Text.Blanks tail.toList ∧ line = ruleText lead name gap (String.ofList b ++ tail) := by
  obtain ⟨lead, tail, hlead, htail, hcut⟩ := Text.exists_blanks_trim line.toList
  obtain ⟨n, gap, hname, hgap, rfl, rfl⟩ := head_eq_ok_iff.mp hhead
  refine ⟨String.ofList lead, String.ofList gap, String.ofList tail, ?_, ?_, ?_, ?_, ?_⟩
  · rwa [String.toList_ofList]
  · rwa [String.toList_ofList]
  · rwa [String.toList_ofList]
  · rwa [String.toList_ofList]
  · rw [← String.toList_inj, hcut, hline, toList_ruleText]
    simp

/-- **The tokens of a rule line come from its name and its trimmed body.** -/
theorem tokens_ruleText {lead name gap : String} (hlead : Text.Blanks lead.toList)
    (hname : isRuleName name.toList = true) (hgap : Text.Blanks gap.toList) (b : String) (keepComments : Bool) :
    tokens keepComments (ruleText lead name gap b) =
      (body (Text.trimEnd b.toList)).map fun ts => .name name :: .assignment :: (ts ++ [.endOfLine]) := by
  have hline : Text.trim (ruleText lead name gap b).toList =
      '<' :: (name.toList ++ '>' :: (gap.toList ++ ':' :: ':' :: '=' :: Text.trimEnd b.toList)) := by
    rw [toList_ruleText, Text.trim, Text.trimStart_blanks_append hlead]
    · rw [← List.cons_append, Text.trimEnd_append_cons (by decide)]
      simp
    · intro c hc
      obtain rfl : '<' = c := by simpa using hc
      decide
  have hhead : head (name.toList ++ '>' :: (gap.toList ++ ':' :: ':' :: '=' :: Text.trimEnd b.toList)) =
      .ok (name, Text.trimEnd b.toList) :=
    head_eq_ok_iff.mpr ⟨name.toList, gap.toList, hname, hgap, rfl, String.ofList_toList.symm⟩
  rw [tokens_of_ruleLine hline, definition_eq, hhead]
  rfl

/-- **Blank characters at either end of a line change nothing.** -/
theorem tokens_blanks (keepComments : Bool) {lead tail : String} (hlead : Text.Blanks lead.toList)
    (htail : Text.Blanks tail.toList) (line : String) :
    tokens keepComments (lead ++ line ++ tail) = tokens keepComments line := by
  have hsame : Text.trimmed (lead ++ line ++ tail) = Text.trimmed line := by
    rw [Text.trimmed, String.toList_append, String.toList_append, List.append_assoc,
      Text.trim_blanks_append_blanks hlead htail, Text.trimmed]
  rw [← tokens_trimmed, hsame, tokens_trimmed]

end GrammarText.Line

namespace GrammarText.Document

variable {settings : Settings}

/-- Lines with the same tokens and the same flaws stand for each other in any document. -/
theorem tokensOf_congr {l m : String}
    (h : Line.tokens settings.keepComments l = Line.tokens settings.keepComments m) (before after : List String) :
    tokensOf settings (before ++ l :: after) = tokensOf settings (before ++ m :: after) := by
  have hcut : ∀ l, tokensOf settings (before ++ l :: after) = tokensOf settings (before ++ ([l] ++ after)) := fun _ => rfl
  have hone : tokensOf settings [l] = tokensOf settings [m] := by rw [tokensOf_singleton, h, tokensOf_singleton]
  rw [hcut l, hcut m, tokensOf_append settings before, tokensOf_append settings before, tokensOf_append settings [l],
    tokensOf_append settings [m], hone, List.length_singleton, List.length_singleton]

/-- **Blank characters outside quotes and brackets change nothing**, whatever the other lines are and whether the
document can be read or not: the tokens are the same, or the line, the reason and the fragment of the violation are.
They can stand after any items of a rule line's body, between its head and the assignment, and at either end of any
line; and every line of which the head is read is such a rule line. -/
theorem tokensOf_spacing (settings : Settings) (before after : List String) (w : String) (hw : Text.Blanks w.toList) :
    (∀ (line name : String) (cs b : List Char), Text.trim line.toList = '<' :: cs → Line.head cs = .ok (name, b) →
      ∃ lead gap tail : String, Text.Blanks lead.toList ∧ isRuleName name.toList = true ∧ Text.Blanks gap.toList ∧
        Text.Blanks tail.toList ∧ line = Line.ruleText lead name gap (String.ofList b ++ tail)) ∧
    (∀ lead name gap u v : String, Text.Blanks lead.toList → isRuleName name.toList = true → Text.Blanks gap.toList →
      (∃ ts, Line.body u.toList = .ok ts) →
      tokensOf settings (before ++ Line.ruleText lead name gap (u ++ w ++ v) :: after) =
        tokensOf settings (before ++ Line.ruleText lead name gap (u ++ v) :: after)) ∧
    (∀ lead name gap gap' b : String, Text.Blanks lead.toList → isRuleName name.toList = true →
      Text.Blanks gap.toList → Text.Blanks gap'.toList →
      tokensOf settings (before ++ Line.ruleText lead name (gap ++ w ++ gap') b :: after) =
        tokensOf settings (before ++ Line.ruleText lead name (gap ++ gap') b :: after)) ∧
    ∀ line : String,
      tokensOf settings (before ++ (w ++ line) :: after) = tokensOf settings (before ++ line :: after) ∧
      tokensOf settings (before ++ (line ++ w) :: after) = tokensOf settings (before ++ line :: after) := by
  have hnone : Text.Blanks "".toList := Text.blanks_nil
  refine ⟨fun line name cs b => Line.exists_ruleText, fun lead name gap u v hlead hname hgap hu => ?_,
    fun lead name gap gap' b hlead hname hgap hgap' => ?_, fun line => ⟨?_, ?_⟩⟩
  · obtain ⟨ts, hts⟩ := hu
    have hbody : Line.body (Text.trimEnd (u ++ w ++ v).toList) = Line.body (Text.trimEnd (u ++ v).toList) := by
      simp only [String.toList_append]
      exact Line.body_trimEnd_blanks (Line.body_eq_ok_iff.mp hts) hw v.toList
    apply tokensOf_congr
    rw [Line.tokens_ruleText hlead hname hgap, Line.tokens_ruleText hlead hname hgap, hbody]
  · have hboth : Text.Blanks (gap ++ gap').toList := by
      rw [String.toList_append]
      exact hgap.append hgap'
    have hall : Text.Blanks (gap ++ w ++ gap').toList := by
      rw [String.toList_append, String.toList_append]
      exact (hgap.append hw).append hgap'
    apply tokensOf_congr
    rw [Line.tokens_ruleText hlead hname hall, Line.tokens_ruleText hlead hname hboth]
  · have hline := Line.tokens_blanks settings.keepComments hw hnone line
    rw [String.append_empty] at hline
    exact tokensOf_congr hline before after
  · have hline := Line.tokens_blanks settings.keepComments hnone hw line
    rw [String.empty_append] at hline
    exact tokensOf_congr hline before after

/-- A tab and a wide space before a reference that an open quote follows, before an assignment, and before a line that
is no rule; and a line that is one. -/
theorem tokensOf_spacing_open_quote :
    tokensOf {} (["; c"] ++ Line.ruleText " " "a" "" ("'x'|" ++ "\t\u3000" ++ "<b> \"z ") :: ["<b> ::= 'y'"]) =
      .error ⟨⟨.unexpectedCharacter, "\"z"⟩, 1, unnamedGrammar⟩ ∧
    tokensOf {} ([] ++ Line.ruleText "" "a" (" " ++ "\t\u3000" ++ "") "'x'" :: []) =
      .ok [.name "a", .assignment, .literal "x", .endOfLine] ∧
    tokensOf {} ([] ++ ("\t\u3000" ++ "a b") :: []) = .error ⟨⟨.notARule, "a b"⟩, 0, unnamedGrammar⟩ ∧
    ∃ lead gap tail : String, Text.Blanks lead.toList ∧ isRuleName "a".toList = true ∧ Text.Blanks gap.toList ∧
      Text.Blanks tail.toList ∧ " <a>\u3000::= 'x' " = Line.ruleText lead "a" gap (String.ofList " 'x'".toList ++ tail) := by
  have hw : Text.Blanks "\t\u3000".toList := by
    intro c hc
    rcases List.mem_pair.mp hc with rfl | rfl <;> decide
  have hspace : Text.Blanks " ".toList := Text.blanks_singleton (by decide)
  have hname : isRuleName "a".toList = true := by decide +kernel
  have hread : Line.body "'x'|".toList = .ok [.literal "x", .separator '|'] := by decide +kernel
  have htrimmed : Text.trim " <a>\u3000::= 'x' ".toList = '<' :: "a>\u3000::= 'x'".toList := by decide +kernel
  have hhead : Line.head "a>\u3000::= 'x'".toList = .ok ("a", " 'x'".toList) := by decide +kernel
  obtain ⟨-, hbody, -, -⟩ := tokensOf_spacing {} ["; c"] ["<b> ::= 'y'"] "\t\u3000" hw
  obtain ⟨hform, -, hgap, hline⟩ := tokensOf_spacing {} [] [] "\t\u3000" hw
  rw [hbody " " "a" "" "'x'|" "<b> \"z " hspace hname Text.blanks_nil ⟨_, hread⟩,
    hgap "" "a" " " "" "'x'" Text.blanks_nil hname hspace Text.blanks_nil, (hline "a b").1]
  exact ⟨by decide +kernel, by decide +kernel, by decide +kernel, hform _ _ _ _ htrimmed hhead⟩

end GrammarText.Document
