import GrammarText.Proofs.Line.Items

/-!
# A body read character by character

Reading item after item looks ahead for the delimiter that ends an item.  A scanner does without: it takes one character
at a time and remembers where it is, what it has gathered since it came there, and the tokens so far.

* `Scanner.step` takes one character, and `Scanner.finish` says what the end of the body means where the scanner is;
* `Scanner.scan_inside`: inside quotes and brackets the scanner gathers what stands before the delimiter, and without a
  delimiter it gathers all;
* `Scanner.scan_item`: from between two items it takes the item that comes, or fails as reading the item fails;
* `Scanner.scan_eq_body`: so the scanner gives what reading item after item gives, tokens and flaws alike.
-/

namespace GrammarText.Line

/-- Where a scanner is in a body. -/
inductive Place where
  /-- Between two items. -/
  | outside
  /-- After a quote that is open. -/
  | quoted (quote : Char)
  /-- After a bracket that is open. -/
  | reference
  deriving DecidableEq, Repr

/-- What a scanner knows after some characters. -/
structure Scanner where
  place : Place
  /-- The characters since the last quote or bracket was opened, while it is open. -/
  running : List Char
  tokens : List Token
  deriving DecidableEq, Repr

namespace Scanner

/-- The scanner between two items, after these tokens. -/
def outside (tokens : List Token) : Scanner :=
  ⟨.outside, [], tokens⟩

/-- Takes one character. -/
def step (s : Scanner) (c : Char) : Except Flaw Scanner :=
  match s.place with
  | .outside =>
    if Text.isQuote c then .ok { s with place := .quoted c }
    else if c = '<' then .ok { s with place := .reference }
    else if c = '|' then .ok { s with tokens := s.tokens ++ [.separator c] }
    else if Text.isBlank c then .ok s
    else .error ⟨.unexpectedCharacter, String.ofList [c]⟩
  | .quoted quote =>
    if c = quote then .ok (outside (s.tokens ++ [.literal (String.ofList s.running)]))
    else .ok { s with running := s.running ++ [c] }
  | .reference =>
    if c = '>' then (Line.reference s.running).map fun t => outside (s.tokens ++ [t])
    else .ok { s with running := s.running ++ [c] }

/-- The tokens of the body that ends where the scanner is. -/
def finish (s : Scanner) : Except Flaw (List Token) :=
  match s.place with
  | .outside => .ok s.tokens
  | .quoted quote => .error ⟨.unexpectedCharacter, String.ofList (quote :: s.running)⟩
  | .reference => .error ⟨.missingBracket, String.ofList ('<' :: s.running)⟩

/-- Takes the rest of a body, character by character. -/
def scan (s : Scanner) (cs : List Char) : Except Flaw (List Token) :=
  (cs.foldlM step s).bind finish

/-! ## Inside quotes and brackets -/

theorem scan_nil (s : Scanner) : s.scan [] = s.finish := rfl

theorem scan_cons (s : Scanner) (c : Char) (cs : List Char) :
    s.scan (c :: cs) = (s.step c).bind fun after => after.scan cs := by
  show ((s.step c).bind fun after => cs.foldlM step after).bind finish = _
  cases s.step c <;> rfl

variable {place : Place} {d : Char} {tokens : List Token}

/-- **Up to the delimiter everything is gathered**, and without a delimiter it is gathered until the body ends. -/
theorem scan_inside
    (gathers : ∀ running c, c ≠ d → step ⟨place, running, tokens⟩ c = .ok ⟨place, running ++ [c], tokens⟩)
    (running cs : List Char) :
    scan ⟨place, running, tokens⟩ cs =
      match Text.cutAt d cs with
      | some (text, rest) => (step ⟨place, running ++ text, tokens⟩ d).bind fun after => after.scan rest
      | none => finish ⟨place, running ++ cs, tokens⟩ := by
  induction cs generalizing running with
  | nil =>
    rw [Text.cutAt_nil, List.append_nil]
    rfl
  | cons c cs ih =>
    rw [scan_cons]
    by_cases h : c = d
    · subst h
      rw [Text.cutAt_cons_self]
      show _ = (step ⟨place, running ++ [], tokens⟩ c).bind _
      rw [List.append_nil]
    · rw [Text.cutAt_cons_of_ne h, gathers running c h]
      show scan ⟨place, running ++ [c], tokens⟩ cs = _
      rw [ih]
      cases Text.cutAt d cs with
      | none =>
        show finish ⟨place, running ++ [c] ++ cs, tokens⟩ = finish ⟨place, running ++ c :: cs, tokens⟩
        rw [List.append_assoc, List.singleton_append]
      | some p =>
        show (step ⟨place, running ++ [c] ++ p.1, tokens⟩ d).bind _ =
          (step ⟨place, running ++ c :: p.1, tokens⟩ d).bind _
        rw [List.append_assoc, List.singleton_append]

theorem scan_quoted (quote : Char) (cs : List Char) :
    scan ⟨.quoted quote, [], tokens⟩ cs =
      match Text.cutAt quote cs with
      | some (text, rest) => (outside (tokens ++ [.literal (String.ofList text)])).scan rest
      | none => .error ⟨.unexpectedCharacter, String.ofList (quote :: cs)⟩ := by
  have hgathers (running : List Char) (c : Char) (h : c ≠ quote) :
      step ⟨.quoted quote, running, tokens⟩ c = .ok ⟨.quoted quote, running ++ [c], tokens⟩ := if_neg h
  rw [scan_inside hgathers]
  cases Text.cutAt quote cs with
  | none => rfl
  | some p =>
    have hclose : step ⟨.quoted quote, p.1, tokens⟩ quote =
        .ok (outside (tokens ++ [.literal (String.ofList p.1)])) := if_pos rfl
    show (step ⟨.quoted quote, p.1, tokens⟩ quote).bind _ = _
    rw [hclose]
    rfl

theorem scan_reference (cs : List Char) :
    scan ⟨.reference, [], tokens⟩ cs =
      match Text.cutAt '>' cs with
      | some (name, rest) => (Line.reference name).bind fun t => (outside (tokens ++ [t])).scan rest
      | none => .error ⟨.missingBracket, String.ofList ('<' :: cs)⟩ := by
  have hgathers (running : List Char) (c : Char) (h : c ≠ '>') :
      step ⟨.reference, running, tokens⟩ c = .ok ⟨.reference, running ++ [c], tokens⟩ := if_neg h
  rw [scan_inside hgathers]
  cases Text.cutAt '>' cs with
  | none => rfl
  | some p =>
    show ((Line.reference p.1).map fun t => outside (tokens ++ [t])).bind _ = (Line.reference p.1).bind _
    cases Line.reference p.1 <;> rfl

/-! ## Item after item -/

/-- **From between two items the scanner takes the next one**, and is between two items again. -/
theorem scan_item (tokens : List Token) (c : Char) (cs : List Char) :
    (outside tokens).scan (c :: cs) = (item c cs).bind fun p => (outside (tokens ++ p.1.toList)).scan p.2 := by
  rw [scan_cons]
  by_cases hquote : Text.isQuote c = true
  · obtain ⟨hblank, hbar⟩ := isBlank_eq_false_of_isQuote hquote
    have hstep : (outside tokens).step c = .ok ⟨.quoted c, [], tokens⟩ := if_pos hquote
    rw [hstep]
    show scan ⟨.quoted c, [], tokens⟩ cs = _
    rw [scan_quoted]
    simp only [item, hblank, Bool.false_eq_true, if_false, hbar, hquote, if_true]
    cases Text.cutAt c cs <;> rfl
  by_cases hbracket : c = '<'
  · subst hbracket
    show scan ⟨.reference, [], tokens⟩ cs = _
    rw [scan_reference]
    show _ = (match Text.cutAt '>' cs with
      | some (name, rest) => (Line.reference name).map fun t => (some t, rest)
      | none => .error ⟨.missingBracket, String.ofList ('<' :: cs)⟩ : Except Flaw _).bind _
    cases Text.cutAt '>' cs with
    | none => rfl
    | some p =>
      show (Line.reference p.1).bind _ = ((Line.reference p.1).map _).bind _
      cases Line.reference p.1 <;> rfl
  by_cases hbar : c = '|'
  · subst hbar
    rfl
  by_cases hblank : Text.isBlank c = true
  · have hstep : (outside tokens).step c = .ok (outside tokens) := by
      simp [step, outside, hquote, hbracket, hbar, hblank]
    have hitem : item c cs = .ok (none, cs) := if_pos hblank
    rw [hstep, hitem]
    show _ = (outside (tokens ++ [])).scan cs
    rw [List.append_nil]
    rfl
  · have hstep : (outside tokens).step c = .error ⟨.unexpectedCharacter, String.ofList [c]⟩ := by
      simp [step, outside, hquote, hbracket, hbar, hblank]
    have hitem : item c cs = .error ⟨.unexpectedCharacter, String.ofList [c]⟩ := by
      simp [item, hquote, hbracket, hbar, hblank]
    rw [hstep, hitem]
    rfl

/-- What is scanned after some tokens is added to them. -/
theorem scan_outside (tokens : List Token) (cs : List Char) :
    (outside tokens).scan cs = (body cs).map (tokens ++ ·) := by
  induction cs using body.induct generalizing tokens with
  | case1 =>
    rw [scan_nil, body_nil]
    show Except.ok tokens = .ok (tokens ++ [])
    rw [List.append_nil]
  | case2 c cs flaw hitem =>
    rw [scan_item, body_cons, hitem]
    rfl
  | case3 c cs t rest hitem ih =>
    rw [scan_item, body_cons, hitem]
    show (outside (tokens ++ t.toList)).scan rest = ((body rest).map (t.toList ++ ·)).map (tokens ++ ·)
    rw [ih]
    cases body rest with
    | error flaw => rfl
    | ok ts =>
      show Except.ok (tokens ++ t.toList ++ ts) = .ok (tokens ++ (t.toList ++ ts))
      rw [List.append_assoc]

/-- **Scanning a body character by character gives what reading it item by item gives.** -/
theorem scan_eq_body (cs : List Char) : (outside []).scan cs = body cs := by
  rw [scan_outside]
  cases body cs <;> rfl

end Scanner

end GrammarText.Line
