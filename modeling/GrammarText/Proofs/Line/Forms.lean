import GrammarText.Line.Tokens
import GrammarText.Proofs.Line.Items
import GrammarText.Proofs.Text.Trimming

/-!
# The forms of a line, as a grammar

A trimmed line has one of three forms: a comment, a blank line, or a rule `<name> ::= body` with blank characters
allowed before the assignment.  `IsLine keepComments cs ts` says so of the characters `cs` and gives their tokens
`ts`; the name that a rule line defines is a name token whatever it spells.

`tokens_eq_ok_iff` says that lexing a line accepts exactly these forms, once the line is trimmed, and that it gives
these tokens.  The head of a rule line is cut at its first closing bracket, which is the right one because no rule
name holds a bracket (`head_eq_ok_iff`).
-/

namespace GrammarText.Line

/-- The forms of a trimmed line, with its tokens. -/
inductive IsLine (keepComments : Bool) : List Char → List Token → Prop where
  | comment (text : List Char) :
      IsLine keepComments (';' :: text)
        (if keepComments then [.comment (String.ofList (Text.trim text))] else [])
  | blank : IsLine keepComments [] [.endOfLine]
  | definition {n w b : List Char} {ts : List Token} (valid : isRuleName n = true) (gap : Text.Blanks w)
      (isBody : IsBody b ts) :
      IsLine keepComments ('<' :: (n ++ '>' :: (w ++ ':' :: ':' :: '=' :: b)))
        (.name (String.ofList n) :: .assignment :: (ts ++ [.endOfLine]))

/-! ## Rule lines -/

/-- The head of a rule line is a valid name, its closing bracket, blank characters and the assignment. -/
theorem head_eq_ok_iff {cs b : List Char} {name : String} :
    head cs = .ok (name, b) ↔ ∃ n w, isRuleName n = true ∧ Text.Blanks w ∧
      cs = n ++ '>' :: (w ++ ':' :: ':' :: '=' :: b) ∧ name = String.ofList n := by
  constructor
  · intro h
    unfold head at h
    split at h
    · simp at h
    · next n rest hcut =>
      obtain ⟨rfl, -⟩ := Text.cutAt_eq_some_iff.mp hcut
      split at h
      · next hvalid =>
        split at h
        · next b' hstart =>
          obtain ⟨rfl, rfl⟩ : String.ofList n = name ∧ b' = b := by simpa using h
          refine ⟨n, rest.takeWhile Text.isBlank, hvalid, fun c hc => List.mem_takeWhile_imp hc, ?_, rfl⟩
          rw [← hstart, Text.trimStart, List.takeWhile_append_dropWhile]
        · simp at h
      · simp at h
  · intro h
    obtain ⟨n, w, hvalid, hgap, rfl, rfl⟩ := h
    have hcut : Text.cutAt '>' (n ++ '>' :: (w ++ ':' :: ':' :: '=' :: b))
        = some (n, w ++ ':' :: ':' :: '=' :: b) :=
      Text.cutAt_eq_some_iff.mpr ⟨rfl, not_mem_of_isRuleName hvalid (by decide)⟩
    have hstart : Text.trimStart (w ++ ':' :: ':' :: '=' :: b) = ':' :: ':' :: '=' :: b := by
      apply Text.trimStart_blanks_append hgap
      intro c hc
      obtain rfl : ':' = c := by simpa using hc
      decide
    simp only [head, hcut, hvalid, if_true, hstart]

theorem definition_eq (cs : List Char) :
    definition cs = (head cs).bind fun p =>
      (body p.2).map fun ts => .name p.1 :: .assignment :: (ts ++ [.endOfLine]) := by
  unfold definition
  cases head cs with
  | error f => rfl
  | ok p => cases hbody : body p.2 <;> simp [bind, Except.bind, hbody, Except.map, pure, Except.pure]

/-- A rule line is read exactly if it is a head and a body. -/
theorem definition_eq_ok_iff {cs : List Char} {us : List Token} :
    definition cs = .ok us ↔ ∃ n w b ts, isRuleName n = true ∧ Text.Blanks w ∧ IsBody b ts ∧
      cs = n ++ '>' :: (w ++ ':' :: ':' :: '=' :: b) ∧
      us = .name (String.ofList n) :: .assignment :: (ts ++ [.endOfLine]) := by
  rw [definition_eq]
  constructor
  · intro h
    obtain ⟨⟨name, b⟩, hhead, hrest⟩ := Except.bind_eq_ok_iff.mp h
    obtain ⟨ts, hbody, rfl⟩ := Except.map_eq_ok_iff.mp hrest
    obtain ⟨n, w, hvalid, hgap, hcs, rfl⟩ := head_eq_ok_iff.mp hhead
    exact ⟨n, w, b, ts, hvalid, hgap, body_eq_ok_iff.mp hbody, hcs, rfl⟩
  · intro h
    obtain ⟨n, w, b, ts, hvalid, hgap, hbody, hcs, rfl⟩ := h
    have hhead : head cs = .ok (String.ofList n, b) := head_eq_ok_iff.mpr ⟨n, w, hvalid, hgap, hcs, rfl⟩
    exact Except.bind_eq_ok_iff.mpr ⟨_, hhead, Except.map_eq_ok_iff.mpr ⟨ts, body_eq_ok_iff.mpr hbody, rfl⟩⟩

/-! ## Any line -/

theorem shape_trimmed (line : String) : shape (Text.trimmed line) = shape line := by
  rw [shape, Text.toList_trimmed, Text.trim_trim, shape]

/-- A line and the line trimmed have the same tokens and the same flaws. -/
theorem tokens_trimmed (keepComments : Bool) (line : String) :
    tokens keepComments (Text.trimmed line) = tokens keepComments line := by
  simp only [tokens, shape_trimmed, Text.trimmed_trimmed]

theorem shape_eq_blank_iff {cs : List Char} : Shape.of cs = .blank ↔ cs = [] := by
  fun_cases Shape.of cs <;> simp_all

theorem shape_eq_comment_iff {cs text : List Char} : Shape.of cs = .comment text ↔ cs = ';' :: text := by
  fun_cases Shape.of cs <;> simp_all [eq_comm]

theorem shape_eq_definition_iff {cs after : List Char} :
    Shape.of cs = .definition after ↔ cs = '<' :: after := by
  fun_cases Shape.of cs <;> simp_all [eq_comm]

/-- **A line is lexed exactly if it has one of the forms**, into the tokens of that form. -/
theorem tokens_eq_ok_iff {keepComments : Bool} {line : String} {ts : List Token} :
    tokens keepComments line = .ok ts ↔ IsLine keepComments (Text.trim line.toList) ts := by
  unfold tokens shape
  generalize Text.trim line.toList = cs
  constructor
  · intro h
    cases hshape : Shape.of cs with
    | blank =>
      obtain rfl : [.endOfLine] = ts := by simpa [hshape] using h
      rw [shape_eq_blank_iff.mp hshape]
      exact .blank
    | comment text =>
      rw [hshape] at h
      cases h
      rw [shape_eq_comment_iff.mp hshape]
      exact .comment text
    | definition after =>
      rw [hshape] at h
      obtain ⟨n, w, b, us, hvalid, hgap, hbody, rfl, rfl⟩ := definition_eq_ok_iff.mp h
      rw [shape_eq_definition_iff.mp hshape]
      exact .definition hvalid hgap hbody
    | stray => simp [hshape] at h
  · intro h
    cases h with
    | comment text => rfl
    | blank => rfl
    | definition hvalid hgap hbody =>
      exact definition_eq_ok_iff.mpr ⟨_, _, _, _, hvalid, hgap, hbody, rfl, rfl⟩

/-- The text of a literal stands in the line as it is. -/
theorem mem_of_isLine {keepComments : Bool} {cs : List Char} {ts : List Token} (h : IsLine keepComments cs ts)
    {text : String} (htext : Token.literal text ∈ ts) : ∀ c ∈ text.toList, c ∈ cs := by
  cases h with
  | comment _ => cases keepComments <;> simp at htext
  | blank => simp at htext
  | definition _ _ hbody =>
    have hliteral := mem_of_isBody hbody (by simpa using htext)
    intro c hc
    simp [hliteral c hc]

end GrammarText.Line
