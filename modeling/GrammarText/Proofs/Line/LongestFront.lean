import GrammarText.Proofs.Document.FirstFlaw

/-!
# Where a rule line stops being one

A body that cannot be read is items for as long as it can be, and then something that starts no item.  What is wrong is
told by the first character of that remainder alone, so that the flaw of a rule line can be said without a reader:

* `LongestFront front cs`: no longer beginning of `cs` than `front` is a sequence of items.  A front is longest exactly
  if no item starts after it (`longestFront_append_iff`), and every text has exactly one (`existsUnique_longestFront`);
* `IsStop rest f`: the flaw `f` that a remainder `rest` shows by its first character;
* `IsRuleFlaw cs f`: the flaw of a rule line, which is one of its head or else the one at which its body stops.

`tokensOf_ruleLine` says that a rule line alone is refused with exactly these flaws, and read if it has none.
-/

namespace GrammarText.Line

/-! ## The longest front of items -/

/-- The items that a text starts with, as many as there are. -/
structure LongestFront (front cs : List Char) : Prop where
  isBody : ∃ ts, IsBody front ts
  isPrefix : front <+: cs
  longest : ∀ p ts, IsBody p ts → p <+: cs → p.length ≤ front.length

theorem IsBody.concat {front i : List Char} {ts : List Token} {t : Option Token} (h : IsBody front ts)
    (hi : IsItem i t) : IsBody (front ++ i) (ts ++ t.toList) := by
  induction h with
  | nil =>
    have hone : IsBody (i ++ []) (t.toList ++ []) := .cons hi .nil
    rwa [List.append_nil, List.append_nil] at hone
  | cons first _ ih =>
    rw [List.append_assoc, List.append_assoc]
    exact .cons first ih

/-- What follows some items in a body is a body again. -/
theorem IsBody.exists_of_append {front rest : List Char} {ts us : List Token} (h : IsBody front ts)
    (hall : IsBody (front ++ rest) us) : ∃ vs, IsBody rest vs := by
  induction h generalizing us with
  | nil => exact ⟨us, hall⟩
  | cons first _ ih =>
    have hread := body_eq_ok_iff.mpr hall
    rw [List.append_assoc, body_item_append first] at hread
    obtain ⟨vs, hvs, -⟩ := Except.map_eq_ok_iff.mp hread
    exact ih (body_eq_ok_iff.mp hvs)

theorem IsItem.ne_nil {i : List Char} {t : Option Token} (h : IsItem i t) : i ≠ [] := by
  cases h <;> simp

/-- **A front of items is longest exactly if no item starts after it.** -/
theorem longestFront_append_iff {front rest : List Char} :
    LongestFront front (front ++ rest) ↔ (∃ ts, IsBody front ts) ∧ ∀ i t, IsItem i t → ¬ i <+: rest := by
  constructor
  · intro h
    refine ⟨h.isBody, fun i t hi hrest => ?_⟩
    obtain ⟨ts, hts⟩ := h.isBody
    have hlonger := h.longest _ _ (hts.concat hi) ((List.prefix_append_right_inj front).mpr hrest)
    have hpos := List.length_pos_of_ne_nil hi.ne_nil
    rw [List.length_append] at hlonger
    omega
  · rintro ⟨⟨ts, hts⟩, hnone⟩
    refine ⟨⟨ts, hts⟩, List.prefix_append front rest, fun p us hp hprefix => ?_⟩
    by_contra hlonger
    -- a longer beginning goes on after the front, with an item
    obtain ⟨more, rfl⟩ : front <+: p :=
      List.prefix_of_prefix_length_le (List.prefix_append front rest) hprefix (by omega)
    have hmore : more <+: rest := (List.prefix_append_right_inj front).mp hprefix
    obtain ⟨vs, hvs⟩ := hts.exists_of_append hp
    cases hvs with
    | nil => simp at hlonger
    | @cons i others t _ first _ => exact hnone i t first ((List.prefix_append i others).trans hmore)

/-! ## What stops a body -/

/-- What is wrong with a text at which items stop, by its first character: a quote or an opening bracket that opened
nothing, or a character that never opens anything. -/
inductive IsStop : List Char → Flaw → Prop where
  | quote {q : Char} {cs : List Char} (isQuote : Text.isQuote q = true) :
      IsStop (q :: cs) ⟨.unexpectedCharacter, String.ofList (q :: cs)⟩
  | openBracket {cs : List Char} (unclosed : '>' ∉ cs) :
      IsStop ('<' :: cs) ⟨.missingBracket, String.ofList ('<' :: cs)⟩
  | closedBracket {m rest : List Char} (first : '>' ∉ m) :
      IsStop ('<' :: (m ++ '>' :: rest)) ⟨.invalidName, String.ofList m⟩
  | other {c : Char} {cs : List Char} (notQuote : Text.isQuote c = false) (notBracket : c ≠ '<') :
      IsStop (c :: cs) ⟨.unexpectedCharacter, String.ofList [c]⟩

theorem IsItemFlaw.isStop {cs : List Char} {f : Flaw} (h : IsItemFlaw cs f) : IsStop cs f := by
  cases h with
  | openQuote hquote _ => exact .quote hquote
  | openBracket hunclosed => exact .openBracket hunclosed
  | badName hfirst _ => exact .closedBracket hfirst
  | stray _ _ hquote hbracket => exact .other hquote hbracket

theorem IsItemFlaw.not_isPrefix {cs i : List Char} {t : Option Token} {f : Flaw} (h : IsItemFlaw cs f)
    (hi : IsItem i t) : ¬ i <+: cs := by
  rintro ⟨rest, rfl⟩
  obtain ⟨c, cs, heq, hread⟩ := item_of_isItem hi rest
  rw [heq, ← item_eq_error_iff, hread] at h
  cases h

/-- A quote after which no item starts is not closed. -/
theorem not_mem_of_quote {q : Char} {cs : List Char} (hquote : Text.isQuote q = true)
    (hnone : ∀ i t, IsItem i t → ¬ i <+: q :: cs) : q ∉ cs := by
  rw [← Text.cutAt_eq_none_iff]
  cases hcut : Text.cutAt q cs with
  | none => rfl
  | some p =>
    obtain ⟨text, rest⟩ := p
    obtain ⟨rfl, hfree⟩ := Text.cutAt_eq_some_iff.mp hcut
    exact absurd ⟨rest, by simp⟩ (hnone _ _ (.quoted hquote hfree))

/-- A text between brackets at which no item starts is no rule name. -/
theorem isRuleName_eq_false_of_bracket {m rest : List Char}
    (hnone : ∀ i t, IsItem i t → ¬ i <+: '<' :: (m ++ '>' :: rest)) : isRuleName m = false := by
  cases hread : reference m with
  | error f => exact (reference_eq_error_iff.mp hread).1
  | ok t =>
    obtain ⟨hvalid, hrefers⟩ := reference_eq_ok_iff.mp hread
    exact absurd ⟨rest, by simp⟩ (hnone _ _ (.reference hvalid hrefers))

/-- **Where no item starts, the first character tells what is wrong.** -/
theorem isItemFlaw_iff {cs : List Char} {f : Flaw} :
    IsItemFlaw cs f ↔ IsStop cs f ∧ ∀ i t, IsItem i t → ¬ i <+: cs := by
  constructor
  · intro h
    exact ⟨h.isStop, fun i t hi => h.not_isPrefix hi⟩
  · rintro ⟨hstop, hnone⟩
    cases hstop with
    | quote hquote => exact .openQuote hquote (not_mem_of_quote hquote hnone)
    | openBracket hunclosed => exact .openBracket hunclosed
    | closedBracket hfirst => exact .badName hfirst (isRuleName_eq_false_of_bracket hnone)
    | @other c cs hquote hbracket =>
      have hblank : Text.isBlank c = false := by
        rw [Bool.eq_false_iff]
        intro hblank
        exact hnone _ _ (.blank hblank) (List.prefix_append [c] cs)
      have hbar : c ≠ '|' := by
        rintro rfl
        exact hnone _ _ .bar (List.prefix_append ['|'] cs)
      exact .stray hblank hbar hquote hbracket

theorem longestFront_of_isItemFlaw {front rest : List Char} {ts : List Token} {f : Flaw} (hfront : IsBody front ts)
    (hrest : IsItemFlaw rest f) : LongestFront front (front ++ rest) :=
  longestFront_append_iff.mpr ⟨⟨ts, hfront⟩, (isItemFlaw_iff.mp hrest).2⟩

/-- **Every text has exactly one longest front of items.** -/
theorem existsUnique_longestFront (cs : List Char) : ∃! front, LongestFront front cs := by
  have hexists : ∃ front, LongestFront front cs := by
    cases hread : body cs with
    | ok ts =>
      refine ⟨cs, ⟨ts, body_eq_ok_iff.mp hread⟩, List.prefix_rfl, fun p us _ hp => hp.length_le⟩
    | error f =>
      obtain ⟨front, ts, rest, rfl, hfront, hrest⟩ := exists_isItemFlaw_of_body hread
      exact ⟨front, longestFront_of_isItemFlaw hfront hrest⟩
  obtain ⟨front, hfront⟩ := hexists
  refine ⟨front, hfront, fun p hp => ?_⟩
  obtain ⟨ts, hts⟩ := hfront.isBody
  obtain ⟨us, hus⟩ := hp.isBody
  have hle : p.length ≤ front.length := hfront.longest p us hus hp.isPrefix
  have hge : front.length ≤ p.length := hp.longest front ts hts hfront.isPrefix
  exact (List.prefix_of_prefix_length_le hp.isPrefix hfront.isPrefix hle).eq_of_length (by omega)

/-- **A body has the flaw at which its longest front stops.** -/
theorem body_eq_error_iff_isStop {cs : List Char} {f : Flaw} :
    body cs = .error f ↔ ∃ front rest, cs = front ++ rest ∧ LongestFront front cs ∧ IsStop rest f := by
  rw [body_eq_error_iff]
  constructor
  · rintro ⟨front, ts, rest, rfl, hfront, hrest⟩
    exact ⟨front, rest, rfl, longestFront_of_isItemFlaw hfront hrest, hrest.isStop⟩
  · rintro ⟨front, rest, rfl, hlongest, hstop⟩
    obtain ⟨⟨ts, hts⟩, hnone⟩ := longestFront_append_iff.mp hlongest
    exact ⟨front, ts, rest, rfl, hts, isItemFlaw_iff.mpr ⟨hstop, hnone⟩⟩

/-! ## Heads -/

/-- **A head is refused exactly with its flaws.** -/
theorem head_eq_error_iff {cs : List Char} {f : Flaw} : head cs = .error f ↔ IsHeadFlaw cs f := by
  constructor
  · exact isHeadFlaw_of_head
  · intro h
    cases h with
    | openBracket hunclosed => rw [head, Text.cutAt_eq_none_iff.mpr hunclosed]
    | @badName m rest hfirst hinvalid =>
      have hcut : Text.cutAt '>' (m ++ '>' :: rest) = some (m, rest) := Text.cutAt_eq_some_iff.mpr ⟨rfl, hfirst⟩
      simp only [head, hcut, hinvalid, Bool.false_eq_true, if_false]
    | @noAssignment m rest hvalid hunassigned =>
      have hfirst : '>' ∉ m := not_mem_of_isRuleName hvalid (by decide)
      have hcut : Text.cutAt '>' (m ++ '>' :: rest) = some (m, rest) := Text.cutAt_eq_some_iff.mpr ⟨rfl, hfirst⟩
      simp only [head, hcut, hvalid, if_true]
      split
      · next b hstart =>
        refine absurd ?_ (hunassigned (rest.takeWhile Text.isBlank) b fun c hc => List.mem_takeWhile_imp hc)
        rw [← hstart, Text.trimStart, List.takeWhile_append_dropWhile]
      · rfl

/-! ## Rule lines -/

/-- The flaws of a line that starts with an opening bracket: the flaw of its head, or, where name and assignment are
as they should be, the flaw at which the items of its body stop. -/
inductive IsRuleFlaw : List Char → Flaw → Prop where
  | head {cs : List Char} {f : Flaw} (isHeadFlaw : IsHeadFlaw cs f) : IsRuleFlaw ('<' :: cs) f
  | body {n w front rest : List Char} {f : Flaw} (valid : isRuleName n = true) (gap : Text.Blanks w)
      (longest : LongestFront front (front ++ rest)) (stop : IsStop rest f) :
      IsRuleFlaw ('<' :: (n ++ '>' :: (w ++ ':' :: ':' :: '=' :: (front ++ rest)))) f

/-- **A rule line is refused exactly with its flaws.** -/
theorem definition_eq_error_iff_isRuleFlaw {cs : List Char} {f : Flaw} :
    definition cs = .error f ↔ IsRuleFlaw ('<' :: cs) f := by
  rw [definition_eq_error_iff]
  constructor
  · rintro (hhead | ⟨name, b, hhead, hbody⟩)
    · exact .head (head_eq_error_iff.mp hhead)
    · obtain ⟨n, w, hvalid, hgap, rfl, -⟩ := head_eq_ok_iff.mp hhead
      obtain ⟨front, rest, rfl, hlongest, hstop⟩ := body_eq_error_iff_isStop.mp hbody
      exact .body hvalid hgap hlongest hstop
  · intro h
    generalize hcs : '<' :: cs = line at h
    cases h with
    | head hflaw =>
      obtain ⟨-, rfl⟩ := List.cons.inj hcs
      exact .inl (head_eq_error_iff.mpr hflaw)
    | @body n w front rest _ hvalid hgap hlongest hstop =>
      obtain ⟨-, rfl⟩ := List.cons.inj hcs
      have hhead : Line.head _ = .ok (String.ofList n, front ++ rest) :=
        head_eq_ok_iff.mpr ⟨n, w, hvalid, hgap, rfl, rfl⟩
      have hbody : Line.body (front ++ rest) = .error f :=
        body_eq_error_iff_isStop.mpr ⟨front, rest, rfl, hlongest, hstop⟩
      exact .inr ⟨_, _, hhead, hbody⟩

theorem tokens_of_ruleLine {line : String} {cs : List Char} (hline : Text.trim line.toList = '<' :: cs)
    (keepComments : Bool) : tokens keepComments line = definition cs := by
  have hshape : shape line = .definition cs := shape_eq_definition_iff.mpr hline
  rw [tokens, hshape]

end GrammarText.Line

namespace GrammarText.Document

/-- **The violations of one rule line, all of them.**  A line that starts with an opening bracket once it is trimmed is
refused, when it is lexed alone, exactly with a flaw of its own, on the first line and under the name of the grammar; it
is read if it has none.  Its body has one longest front of items, and a quote that stops it is not closed. -/
theorem tokensOf_ruleLine (settings : Settings) (line : String) (cs : List Char)
    (hline : Text.trim line.toList = '<' :: cs) :
    (∀ v, tokensOf settings [line] = .error v ↔
      ∃ f, Line.IsRuleFlaw ('<' :: cs) f ∧ v = f.at 0 settings.grammar) ∧
    ((∃ ts, tokensOf settings [line] = .ok ts) ↔ ∀ f, ¬ Line.IsRuleFlaw ('<' :: cs) f) ∧
    (∀ b : List Char, ∃! front, Line.LongestFront front b) ∧
    ∀ (front rest : List Char) (q : Char), Text.isQuote q = true →
      Line.LongestFront front (front ++ q :: rest) → q ∉ rest := by
  have hread := tokensOf_singleton settings line
  rw [Line.tokens_of_ruleLine hline] at hread
  refine ⟨fun v => ?_, ?_, Line.existsUnique_longestFront, fun front rest q hquote hlongest => ?_⟩
  · rw [hread, Except.mapError_eq_error_iff]
    simp only [Line.definition_eq_error_iff_isRuleFlaw, @eq_comm _ v]
  · simp only [hread, Except.mapError_eq_ok_iff, Except.exists_eq_ok_iff, ne_eq,
      Line.definition_eq_error_iff_isRuleFlaw]
  · exact Line.not_mem_of_quote hquote (Line.longestFront_append_iff.mp hlongest).2

/-- A quote that stands open swallows the brackets after it, and the quote of the other kind at the end does not close
it; where it is closed, what it holds is no name and no flaw. -/
theorem tokensOf_ruleLine_open_quote :
    Text.trim " <a> ::= 'x' | \"<b> '".toList = '<' :: "a> ::= 'x' | \"<b> '".toList ∧
    Line.IsRuleFlaw ('<' :: "a> ::= 'x' | \"<b> '".toList) ⟨.unexpectedCharacter, "\"<b> '"⟩ ∧
    Text.trim "<a>::='<b!>\"'|".toList = '<' :: "a>::='<b!>\"'|".toList ∧
    ∀ f, ¬ Line.IsRuleFlaw ('<' :: "a>::='<b!>\"'|".toList) f := by
  have hopen : Text.trim " <a> ::= 'x' | \"<b> '".toList = '<' :: "a> ::= 'x' | \"<b> '".toList := by decide +kernel
  have hclosed : Text.trim "<a>::='<b!>\"'|".toList = '<' :: "a>::='<b!>\"'|".toList := by decide +kernel
  obtain ⟨f, hflaw, hf⟩ := ((tokensOf_ruleLine {} _ _ hopen).1 ⟨⟨.unexpectedCharacter, "\"<b> '"⟩, 0, unnamedGrammar⟩).mp
    (by decide +kernel)
  obtain rfl : ⟨.unexpectedCharacter, "\"<b> '"⟩ = f := congrArg Violation.toFlaw hf
  have hread : tokensOf {} ["<a>::='<b!>\"'|"] =
      .ok [.name "a", .assignment, .literal "<b!>\"", .separator '|', .endOfLine] := by decide +kernel
  exact ⟨hopen, hflaw, hclosed, (tokensOf_ruleLine {} _ _ hclosed).2.1.mp ⟨_, hread⟩⟩

end GrammarText.Document
