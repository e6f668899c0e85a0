import GrammarText.Proofs.Line.Forms

/-!
# The flaws of a line

A line without any of its forms has a flaw, and the flaw is where the line stops being the beginning of one.

* `IsItemFlaw cs f`: the text `cs` does not start with an item, and `f` is what is wrong; so a body has a flaw exactly
  if it is a body up to some place and no item starts there (`body_eq_error_iff`);
* `IsHeadFlaw cs f`: the text `cs` after the opening bracket of a line is no head of a rule, and `f` is what is wrong;
* `fragment_isInfix_of_tokens`: the fragment that a flaw shows stands in the trimmed line as one piece.
-/

namespace GrammarText.Line

/-! ## Items -/

/-- The texts that start with no item, and what is wrong with them. -/
inductive IsItemFlaw : List Char → Flaw → Prop where
  | openQuote {q : Char} {cs : List Char} (isQuote : Text.isQuote q = true) (unclosed : q ∉ cs) :
      IsItemFlaw (q :: cs) ⟨.unexpectedCharacter, String.ofList (q :: cs)⟩
  | openBracket {cs : List Char} (unclosed : '>' ∉ cs) :
      IsItemFlaw ('<' :: cs) ⟨.missingBracket, String.ofList ('<' :: cs)⟩
  | badName {m rest : List Char} (first : '>' ∉ m) (invalid : isRuleName m = false) :
      IsItemFlaw ('<' :: (m ++ '>' :: rest)) ⟨.invalidName, String.ofList m⟩
  | stray {c : Char} {cs : List Char} (notBlank : Text.isBlank c = false) (notBar : c ≠ '|')
      (notQuote : Text.isQuote c = false) (notBracket : c ≠ '<') :
      IsItemFlaw (c :: cs) ⟨.unexpectedCharacter, String.ofList [c]⟩

theorem reference_eq_error_iff {m : List Char} {f : Flaw} :
    reference m = .error f ↔ isRuleName m = false ∧ f = ⟨.invalidName, String.ofList m⟩ := by
  unfold reference
  by_cases hvalid : isRuleName m = true
  · rw [if_pos hvalid]
    cases Builtin.ofSpelling? (String.ofList m) <;> simp [hvalid]
  · rw [if_neg hvalid]
    simp [hvalid, eq_comm]

theorem isItemFlaw_of_item {c : Char} {cs : List Char} {f : Flaw} (h : item c cs = .error f) :
    IsItemFlaw (c :: cs) f := by
  unfold item at h
  split at h
  · cases h
  next hblank =>
  split at h
  · cases h
  next hbar =>
  split at h
  · next hquote =>
    split at h
    · cases h
    · next hcut =>
      cases h
      exact .openQuote hquote (Text.cutAt_eq_none_iff.mp hcut)
  next hquote =>
  split at h
  · next hbracket =>
    subst hbracket
    split at h
    · next m rest hcut =>
      obtain ⟨rfl, hfirst⟩ := Text.cutAt_eq_some_iff.mp hcut
      obtain ⟨hinvalid, rfl⟩ := reference_eq_error_iff.mp (Except.map_eq_error_iff.mp h)
      exact .badName hfirst hinvalid
    · next hcut =>
      cases h
      exact .openBracket (Text.cutAt_eq_none_iff.mp hcut)
  · next hbracket =>
    cases h
    exact .stray (Bool.eq_false_iff.mpr hblank) hbar (Bool.eq_false_iff.mpr hquote) hbracket

/-- **The reader fails exactly where no item starts**, and says what is wrong there. -/
theorem item_eq_error_iff {c : Char} {cs : List Char} {f : Flaw} :
    item c cs = .error f ↔ IsItemFlaw (c :: cs) f := by
  constructor
  · exact isItemFlaw_of_item
  · intro h
    cases h with
    | openQuote hquote hunclosed =>
      obtain ⟨hblank, hbar⟩ := isBlank_eq_false_of_isQuote hquote
      have hcut := Text.cutAt_eq_none_iff.mpr hunclosed
      simp only [item, hblank, Bool.false_eq_true, if_false, hbar, hquote, if_true, hcut]
    | openBracket hunclosed =>
      have hcut := Text.cutAt_eq_none_iff.mpr hunclosed
      rw [item, if_neg (by decide), if_neg (by decide), if_neg (by decide), if_pos rfl, hcut]
    | @badName m rest hfirst hinvalid =>
      have hcut : Text.cutAt '>' (m ++ '>' :: rest) = some (m, rest) := Text.cutAt_eq_some_iff.mpr ⟨rfl, hfirst⟩
      rw [item, if_neg (by decide), if_neg (by decide), if_neg (by decide), if_pos rfl, hcut]
      exact Except.map_eq_error_iff.mpr (reference_eq_error_iff.mpr ⟨hinvalid, rfl⟩)
    | stray hblank hbar hquote hbracket =>
      simp only [item, hblank, Bool.false_eq_true, if_false, hbar, hquote, hbracket]

/-! ## Bodies -/

/-- A body that cannot be read is items up to a place where none starts. -/
theorem exists_isItemFlaw_of_body {cs : List Char} {f : Flaw} (h : body cs = .error f) :
    ∃ front ts rest, cs = front ++ rest ∧ IsBody front ts ∧ IsItemFlaw rest f := by
  fun_induction body cs with
  | case1 => cases h
  | case2 c cs f' hitem =>
    cases h
    exact ⟨[], [], c :: cs, rfl, .nil, isItemFlaw_of_item hitem⟩
  | case3 c cs t after hitem ih =>
    obtain ⟨i, hi, hcs⟩ := exists_isItem_of_item hitem
    obtain ⟨front, ts, rest, rfl, hfront, hrest⟩ := ih (Except.map_eq_error_iff.mp h)
    exact ⟨i ++ front, t.toList ++ ts, rest, by rw [hcs, List.append_assoc], .cons hi hfront, hrest⟩

/-- **A body has a flaw exactly if it is a body up to some place and no item starts there.** -/
theorem body_eq_error_iff {cs : List Char} {f : Flaw} :
    body cs = .error f ↔ ∃ front ts rest, cs = front ++ rest ∧ IsBody front ts ∧ IsItemFlaw rest f := by
  constructor
  · exact exists_isItemFlaw_of_body
  · intro h
    obtain ⟨front, ts, rest, rfl, hfront, hrest⟩ := h
    induction hfront with
    | nil =>
      have hne : rest ≠ [] := by
        rintro rfl
        cases hrest
      obtain ⟨c, cs, rfl⟩ := List.exists_cons_of_ne_nil hne
      rw [List.nil_append, body_cons, item_eq_error_iff.mpr hrest]
      rfl
    | cons first _ ih =>
      rw [List.append_assoc, body_item_append first, ih]
      rfl

/-! ## Heads of rules -/

/-- The texts after an opening bracket that are no head of a rule, and what is wrong with them. -/
inductive IsHeadFlaw : List Char → Flaw → Prop where
  | openBracket {cs : List Char} (unclosed : '>' ∉ cs) :
      IsHeadFlaw cs ⟨.missingBracket, String.ofList ('<' :: cs)⟩
  | badName {m rest : List Char} (first : '>' ∉ m) (invalid : isRuleName m = false) :
      IsHeadFlaw (m ++ '>' :: rest) ⟨.invalidName, String.ofList m⟩
  | noAssignment {m rest : List Char} (valid : isRuleName m = true)
      (unassigned : ∀ w b, Text.Blanks w → rest ≠ w ++ ':' :: ':' :: '=' :: b) :
      IsHeadFlaw (m ++ '>' :: rest) ⟨.missingAssignment, String.ofList (Text.trim rest)⟩

theorem isHeadFlaw_of_head {cs : List Char} {f : Flaw} (h : head cs = .error f) : IsHeadFlaw cs f := by
  have hnone : ∀ name b, head cs ≠ .ok (name, b) := by
    intro name b hok
    rw [h] at hok
    cases hok
  unfold head at h
  split at h
  · next hcut =>
    cases h
    exact .openBracket (Text.cutAt_eq_none_iff.mp hcut)
  · next m rest hcut =>
    obtain ⟨rfl, hfirst⟩ := Text.cutAt_eq_some_iff.mp hcut
    split at h
    · next hvalid =>
      split at h
      · cases h
      · cases h
        refine .noAssignment hvalid fun w b hw hrest => ?_
        exact hnone _ b (head_eq_ok_iff.mpr ⟨m, w, hvalid, hw, by rw [hrest], rfl⟩)
    · next hinvalid =>
      cases h
      exact .badName hfirst (Bool.eq_false_iff.mpr hinvalid)

/-- A rule line has a flaw exactly if its head has one, or its head is one and its body has a flaw. -/
theorem definition_eq_error_iff {cs : List Char} {f : Flaw} :
    definition cs = .error f ↔ head cs = .error f ∨ ∃ name b, head cs = .ok (name, b) ∧ body b = .error f := by
  rw [definition_eq, Except.bind_eq_error_iff]
  simp only [Except.map_eq_error_iff, Prod.exists]

/-! ## What the fragment shows -/

theorem IsItemFlaw.fragment_isInfix {cs : List Char} {f : Flaw} (h : IsItemFlaw cs f) : f.fragment.toList <:+: cs := by
  cases h with
  | openQuote _ _ =>
    simp only [String.toList_ofList, List.infix_rfl]
  | openBracket _ =>
    simp only [String.toList_ofList, List.infix_rfl]
  | @badName m rest _ _ =>
    rw [String.toList_ofList]
    exact List.infix_cons (List.prefix_append m _).isInfix
  | @stray c cs _ _ _ _ =>
    rw [String.toList_ofList]
    exact (List.prefix_append [c] cs).isInfix

/-- Trimming leaves a piece of the text. -/
theorem trim_isInfix (cs : List Char) : Text.trim cs <:+: cs := by
  obtain ⟨u, v, -, -, hcs⟩ := Text.exists_blanks_trim cs
  conv_rhs => rw [hcs]
  exact List.infix_append' u (Text.trim cs) v

theorem IsHeadFlaw.fragment_isInfix {cs : List Char} {f : Flaw} (h : IsHeadFlaw cs f) :
    f.fragment.toList <:+: '<' :: cs := by
  cases h with
  | openBracket _ =>
    simp only [String.toList_ofList, List.infix_rfl]
  | @badName m rest _ _ =>
    rw [String.toList_ofList]
    exact List.infix_cons (List.prefix_append m _).isInfix
  | @noAssignment m rest _ _ =>
    rw [String.toList_ofList]
    have hrest : rest <:+: '<' :: (m ++ '>' :: rest) := ⟨'<' :: (m ++ ['>']), [], by simp⟩
    exact (trim_isInfix rest).trans hrest

/-- **The fragment of a flaw is a piece of the trimmed line.** -/
theorem fragment_isInfix_of_tokens {keepComments : Bool} {line : String} {f : Flaw}
    (h : tokens keepComments line = .error f) : f.fragment.toList <:+: Text.trim line.toList := by
  unfold tokens shape at h
  cases hshape : Shape.of (Text.trim line.toList) with
  | blank => simp [hshape] at h
  | comment text => simp [hshape] at h
  | definition after =>
    rw [hshape] at h
    rw [shape_eq_definition_iff.mp hshape]
    rcases definition_eq_error_iff.mp h with hhead | ⟨name, b, hhead, hbody⟩
    · exact (isHeadFlaw_of_head hhead).fragment_isInfix
    · obtain ⟨n, w, -, -, rfl, -⟩ := head_eq_ok_iff.mp hhead
      obtain ⟨front, ts, rest, rfl, -, hrest⟩ := exists_isItemFlaw_of_body hbody
      have hpiece : rest <:+: '<' :: (n ++ '>' :: (w ++ ':' :: ':' :: '=' :: (front ++ rest))) :=
        ⟨'<' :: (n ++ '>' :: (w ++ ':' :: ':' :: '=' :: front)), [], by simp⟩
      exact hrest.fragment_isInfix.trans hpiece
  | stray =>
    rw [hshape] at h
    cases h
    simp only [Text.toList_trimmed, List.infix_rfl]

end GrammarText.Line
