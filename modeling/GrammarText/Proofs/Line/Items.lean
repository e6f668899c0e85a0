import GrammarText.Line.Body
import GrammarText.Proofs.Outcomes

/-!
# The items of a rule's body, as a grammar

The body of a rule line is a sequence of items, and this file says which texts are items without reading them from left
to right:

* `IsItem i t`: the text `i` is one item, and it gives the token `t`, or none if it is blank;
* `IsBody cs ts`: the text `cs` is items one after the other, and `ts` are their tokens.

The reader accepts exactly these texts and gives exactly these tokens: `item_eq_ok_iff` for one step and
`body_eq_ok_iff` for a whole body.  A reader that cuts at the first delimiter cannot cut an item short, for no item
holds its closing delimiter inside.
-/

namespace GrammarText.Line

/-! ## The grammar -/

/-- What a name between brackets refers to: the class that it spells, or else the rule of that name. -/
inductive Refers : List Char → Token → Prop where
  | builtin (b : Builtin) : Refers b.spelling.toList (.builtin b)
  | name {m : List Char} (unspelled : ∀ b : Builtin, b.spelling.toList ≠ m) :
      Refers m (.name (String.ofList m))

/-- One item of a body and the token that it gives, if any. -/
inductive IsItem : List Char → Option Token → Prop where
  | blank {c : Char} (isBlank : Text.isBlank c = true) : IsItem [c] none
  | bar : IsItem ['|'] (some (.separator '|'))
  | quoted {q : Char} {text : List Char} (isQuote : Text.isQuote q = true) (free : q ∉ text) :
      IsItem (q :: (text ++ [q])) (some (.literal (String.ofList text)))
  | reference {m : List Char} {t : Token} (valid : isRuleName m = true) (refers : Refers m t) :
      IsItem ('<' :: (m ++ ['>'])) (some t)

/-- Items one after the other, with their tokens in order. -/
inductive IsBody : List Char → List Token → Prop where
  | nil : IsBody [] []
  | cons {i rest : List Char} {t : Option Token} {ts : List Token} (first : IsItem i t)
      (others : IsBody rest ts) : IsBody (i ++ rest) (t.toList ++ ts)

/-! ## References -/

theorem ofSpelling?_ofList_eq_some_iff {m : List Char} {b : Builtin} :
    Builtin.ofSpelling? (String.ofList m) = some b ↔ b.spelling.toList = m := by
  rw [Builtin.ofSpelling?_eq_some_iff]
  constructor
  · intro h
    rw [h, String.toList_ofList]
  · intro h
    rw [← h, String.ofList_toList]

/-- A reference is read when its name is valid, as what the name refers to. -/
theorem reference_eq_ok_iff {m : List Char} {t : Token} :
    reference m = .ok t ↔ isRuleName m = true ∧ Refers m t := by
  unfold reference
  by_cases hvalid : isRuleName m = true
  · rw [if_pos hvalid]
    cases hspelling : Builtin.ofSpelling? (String.ofList m) with
    | some b =>
      obtain rfl := ofSpelling?_ofList_eq_some_iff.mp hspelling
      constructor
      · intro h
        cases h
        exact ⟨hvalid, .builtin b⟩
      · intro h
        obtain ⟨-, hrefers⟩ := h
        generalize hm : b.spelling.toList = m at hrefers
        cases hrefers with
        | builtin b' =>
          rw [ofSpelling?_ofList_eq_some_iff.mpr hm.symm, Option.some_inj] at hspelling
          rw [hspelling]
        | name unspelled => exact absurd hm (unspelled b)
    | none =>
      have unspelled : ∀ b : Builtin, b.spelling.toList ≠ m := by
        intro b hb
        rw [ofSpelling?_ofList_eq_some_iff.mpr hb] at hspelling
        simp at hspelling
      constructor
      · intro h
        cases h
        exact ⟨hvalid, .name unspelled⟩
      · intro h
        obtain ⟨-, hrefers⟩ := h
        cases hrefers with
        | builtin b => exact absurd rfl (unspelled b)
        | name _ => rfl
  · rw [if_neg hvalid]
    simp [hvalid]

/-! ## One item -/

theorem isBlank_eq_false_of_isQuote {q : Char} (h : Text.isQuote q = true) :
    Text.isBlank q = false ∧ q ≠ '|' := by
  simp only [Text.isQuote, Bool.or_eq_true, beq_iff_eq] at h
  rcases h with rfl | rfl <;> decide

/-- A rule name does not hold the bracket that closes it. -/
theorem not_mem_of_isRuleName {c : Char} {m : List Char} (hm : isRuleName m = true) (hc : isNameChar c = false) :
    c ∉ m := by
  intro hmem
  rw [isNameChar_of_isRuleName hm c hmem] at hc
  simp at hc

/-- What the reader takes for an item is one, and stands where it was read. -/
theorem exists_isItem_of_item {c : Char} {cs rest : List Char} {t : Option Token}
    (h : item c cs = .ok (t, rest)) : ∃ i, IsItem i t ∧ c :: cs = i ++ rest := by
  unfold item at h
  split at h
  · next hblank =>
    obtain ⟨rfl, rfl⟩ : none = t ∧ cs = rest := by simpa using h
    exact ⟨[c], .blank hblank, rfl⟩
  split at h
  · next hbar =>
    subst hbar
    obtain ⟨rfl, rfl⟩ : some (Token.separator '|') = t ∧ cs = rest := by simpa using h
    exact ⟨['|'], .bar, rfl⟩
  split at h
  · next hquote =>
    split at h
    · next text after hcut =>
      obtain ⟨rfl, rfl⟩ : some (Token.literal (String.ofList text)) = t ∧ after = rest := by simpa using h
      obtain ⟨rfl, hfree⟩ := Text.cutAt_eq_some_iff.mp hcut
      exact ⟨c :: (text ++ [c]), .quoted hquote hfree, by simp⟩
    · simp at h
  split at h
  · next hopen =>
    subst hopen
    split at h
    · next m after hcut =>
      obtain ⟨u, hreference, hu⟩ := Except.map_eq_ok_iff.mp h
      obtain ⟨rfl, rfl⟩ := Prod.mk.inj hu
      obtain ⟨rfl, -⟩ := Text.cutAt_eq_some_iff.mp hcut
      obtain ⟨hvalid, hrefers⟩ := reference_eq_ok_iff.mp hreference
      exact ⟨'<' :: (m ++ ['>']), .reference hvalid hrefers, by simp⟩
    · simp at h
  · simp at h

/-- An item at the front is what the reader takes, whatever follows it. -/
theorem item_of_isItem {i : List Char} {t : Option Token} (h : IsItem i t) (rest : List Char) :
    ∃ c cs, i ++ rest = c :: cs ∧ item c cs = .ok (t, rest) := by
  cases h with
  | @blank c hblank =>
    refine ⟨c, rest, rfl, ?_⟩
    rw [item, if_pos hblank]
  | bar => exact ⟨'|', rest, rfl, rfl⟩
  | @quoted q text hquote hfree =>
    obtain ⟨hblank, hbar⟩ := isBlank_eq_false_of_isQuote hquote
    have hcut : Text.cutAt q (text ++ q :: rest) = some (text, rest) :=
      Text.cutAt_eq_some_iff.mpr ⟨rfl, hfree⟩
    refine ⟨q, text ++ q :: rest, by simp, ?_⟩
    simp only [item, hblank, Bool.false_eq_true, if_false, hbar, hquote, if_true, hcut]
  | @reference m t hvalid hrefers =>
    have hcut : Text.cutAt '>' (m ++ '>' :: rest) = some (m, rest) :=
      Text.cutAt_eq_some_iff.mpr ⟨rfl, not_mem_of_isRuleName hvalid (by decide)⟩
    refine ⟨'<', m ++ '>' :: rest, by simp, ?_⟩
    rw [item, if_neg (by decide), if_neg (by decide), if_neg (by decide), if_pos rfl, hcut]
    show (reference m).map (fun t => (some t, rest)) = .ok (some t, rest)
    rw [reference_eq_ok_iff.mpr ⟨hvalid, hrefers⟩]
    rfl

/-- **One step of the reader takes exactly one item.** -/
theorem item_eq_ok_iff {c : Char} {cs rest : List Char} {t : Option Token} :
    item c cs = .ok (t, rest) ↔ ∃ i, IsItem i t ∧ c :: cs = i ++ rest := by
  constructor
  · exact exists_isItem_of_item
  · intro h
    obtain ⟨i, hitem, hcs⟩ := h
    obtain ⟨c', cs', heq, hread⟩ := item_of_isItem hitem rest
    obtain ⟨rfl, rfl⟩ := List.cons.inj (hcs.trans heq)
    exact hread

/-! ## A whole body -/

/-- An item in front of a body puts its token in front of the tokens. -/
theorem body_item_append {i : List Char} {t : Option Token} (h : IsItem i t) (rest : List Char) :
    body (i ++ rest) = (body rest).map (t.toList ++ ·) := by
  obtain ⟨c, cs, heq, hread⟩ := item_of_isItem h rest
  rw [heq, body_cons, hread]
  rfl

/-- The reader comes to the end of a body only if it is one. -/
theorem isBody_of_body {cs : List Char} {ts : List Token} (h : body cs = .ok ts) : IsBody cs ts := by
  fun_induction body cs generalizing ts with
  | case1 =>
    obtain rfl : [] = ts := by simpa using h
    exact .nil
  | case2 c cs f hitem => simp at h
  | case3 c cs t rest hitem ih =>
    obtain ⟨others, hbody, rfl⟩ := Except.map_eq_ok_iff.mp h
    obtain ⟨i, hi, hcs⟩ := exists_isItem_of_item hitem
    rw [hcs]
    exact .cons hi (ih hbody)

/-- **The reader accepts exactly the bodies and gives exactly their tokens.** -/
theorem body_eq_ok_iff {cs : List Char} {ts : List Token} : body cs = .ok ts ↔ IsBody cs ts := by
  constructor
  · exact isBody_of_body
  · intro h
    induction h with
    | nil => exact body_nil
    | cons first _ ih =>
      rw [body_item_append first, ih]
      rfl

/-- The text of a literal stands in the body as it is. -/
theorem mem_of_isBody {cs : List Char} {ts : List Token} (h : IsBody cs ts) {text : String}
    (htext : Token.literal text ∈ ts) : ∀ c ∈ text.toList, c ∈ cs := by
  induction h with
  | nil => simp at htext
  | @cons i rest t ts first others ih =>
    intro c hc
    rcases List.mem_append.mp htext with htext | htext
    · cases first with
      | quoted _ _ =>
        obtain rfl := Token.literal.inj (List.mem_singleton.mp htext)
        rw [String.toList_ofList] at hc
        simp [hc]
      | reference _ hrefers => cases hrefers <;> simp at htext
      | _ => simp at htext
    · exact List.mem_append_right i (ih htext c hc)

end GrammarText.Line
