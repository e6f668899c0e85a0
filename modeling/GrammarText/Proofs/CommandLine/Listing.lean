import GrammarText.Proofs.CommandLine.Outcome

/-!
# A listing of tokens can be read back

A listing shows a token by its kind and its spelling, and the two together tell which token it is.  Each token of a text
has a line of the listing to itself, because no line of a text holds a line feed and so no token does.

* `Token.eq_of_kind_of_chars`: kind and spelling determine a token.  A class and a rule of the same name differ in kind,
  and a literal is longer than the marker that is just a quote;
* `newline_not_mem_chars_of_tokens`: no token of a text holds a line feed;
* `splitOn_listing`: the lines of a listing are the tokens, one a line, so that equal listings list the same tokens
  (`listing_inj_on`);
* `listing_determines_tokens` says this of the runs of the program.
-/

namespace GrammarText

/-! ## Kind and spelling -/

theorem Text.isQuote_quoteFor (text : List Char) : isQuote (quoteFor text) = true := by
  unfold quoteFor
  split <;> decide

/-- A text is what stands between the delimiters chosen for it. -/
theorem Text.quoted_inj {a b : String} (h : (quoted a).toList = (quoted b).toList) : a = b := by
  rw [toList_quoted, toList_quoted] at h
  obtain ⟨-, hrest⟩ := List.cons.inj h
  have hsame : a.toList = b.toList := (List.append_inj' hrest rfl).1
  exact String.toList_inj.mp hsame

namespace Token

theorem chars_marker_inj {m n : Marker} (h : (marker m).chars = (marker n).chars) : m = n := by
  cases m <;> cases n <;> first | rfl | exact absurd h (by decide)

/-- No marker is spelled like a quoted text: the two that start with a quote end there. -/
theorem chars_marker_ne_quoted (m : Marker) (text : String) : (marker m).chars ≠ (Text.quoted text).toList := by
  have hquote : ∀ c cs, (marker m).chars = c :: cs → Text.isQuote c = true → cs = [] := by
    intro c cs h hc
    cases m <;> obtain ⟨rfl, rfl⟩ := List.cons.inj h <;> first | rfl | exact absurd hc (by decide)
  intro h
  rw [Text.toList_quoted] at h
  have hnil := hquote _ _ h (Text.isQuote_quoteFor text.toList)
  simp at hnil

theorem chars_builtin_inj {b c : Builtin} (h : (builtin b).chars = (builtin c).chars) : b = c := by
  have hreference : b.reference = c.reference := String.toList_inj.mp h
  rw [Builtin.reference, Builtin.reference] at hreference
  have hspelling : b.spelling = c.spelling := by
    have hchars := congrArg String.toList hreference
    simpa [String.toList_append, String.toList_inj] using hchars
  have hb := Builtin.ofSpelling?_eq_some_iff.mpr hspelling
  have hc := Builtin.ofSpelling?_eq_some_iff.mpr (rfl : c.spelling = c.spelling)
  exact Option.some_inj.mp (hb.symm.trans hc)

/-- **Kind and spelling determine a token.** -/
theorem eq_of_kind_of_chars {t u : Token} (hkind : t.kind = u.kind) (hchars : t.chars = u.chars) : t = u := by
  cases t with
  | name n =>
    cases u with
    | name n' =>
      have hsame : n.toList = n'.toList := by simpa [chars] using hchars
      rw [String.toList_inj.mp hsame]
    | _ => cases hkind
  | literal text =>
    cases u with
    | literal text' => rw [Text.quoted_inj hchars]
    | marker m => exact absurd hchars.symm (chars_marker_ne_quoted m text)
    | _ => cases hkind
  | marker m =>
    cases u with
    | literal text => exact absurd hchars (chars_marker_ne_quoted m text)
    | marker m' => rw [chars_marker_inj hchars]
    | _ => cases hkind
  | separator bar =>
    cases u with
    | separator bar' =>
      obtain ⟨rfl, -⟩ := List.cons.inj hchars
      rfl
    | _ => cases hkind
  | comment text =>
    cases u with
    | comment text' =>
      have hsame : text.toList = text'.toList := by simpa [chars] using hchars
      rw [String.toList_inj.mp hsame]
    | _ => cases hkind
  | builtin b =>
    cases u with
    | builtin b' => rw [chars_builtin_inj hchars]
    | _ => cases hkind

/-! ## No token goes over a line -/

theorem InBody.newline_not_mem_chars {t : Token} (h : t.InBody)
    (hliteral : ∀ text, t = .literal text → '\n' ∉ text.toList) : '\n' ∉ t.chars := by
  cases t with
  | separator bar =>
    obtain rfl : bar = '|' := h
    decide
  | builtin b => exact Term.Printable.newline_not_mem_chars (x := .builtin b) trivial
  | name n => exact Term.Printable.newline_not_mem_chars (x := .name n) h
  | literal text => exact Term.Printable.newline_not_mem_chars (x := .literal text) ⟨hliteral text rfl, h⟩
  | marker m => exact h.elim
  | comment text => exact h.elim

end Token

theorem Line.newline_not_mem_chars_of_isLine {keepComments : Bool} {cs : List Char} {ts : List Token}
    (h : IsLine keepComments cs ts) (hcs : '\n' ∉ cs) : ∀ t ∈ ts, '\n' ∉ t.chars := by
  intro t ht
  cases h with
  | comment text =>
    cases keepComments with
    | false => cases ht
    | true =>
      obtain rfl := List.mem_singleton.mp ht
      have htext : '\n' ∉ Text.trim text := fun hmem => hcs (List.mem_cons_of_mem _ (Text.mem_of_mem_trim hmem))
      simp [Token.chars, htext]
  | blank =>
    obtain rfl := List.mem_singleton.mp ht
    decide
  | @definition n w b us hvalid hgap hbody =>
    rcases List.mem_cons.mp ht with rfl | ht
    · have hname : '\n' ∉ n := not_mem_of_isRuleName hvalid (by decide)
      simp [Token.chars, hname]
    rcases List.mem_cons.mp ht with rfl | ht
    · decide
    rcases List.mem_append.mp ht with ht | ht
    · refine (Token.inBody_of_isBody hbody t ht).newline_not_mem_chars fun text htext hmem => hcs ?_
      subst htext
      simp [mem_of_isBody hbody ht '\n' hmem]
    · obtain rfl := List.mem_singleton.mp ht
      decide

theorem Document.newline_not_mem_chars_of_isDocument {keepComments : Bool} {lines : List String} {ts : List Token}
    (h : IsDocument keepComments lines ts) (hlines : ∀ l ∈ lines, '\n' ∉ l.toList) : ∀ t ∈ ts, '\n' ∉ t.chars := by
  induction h with
  | nil =>
    intro t ht
    cases ht
  | @cons line lines _ _ first _ ih =>
    intro t ht
    rcases List.mem_append.mp ht with ht | ht
    · have hline : '\n' ∉ Text.trim line.toList :=
        fun hmem => hlines line List.mem_cons_self (Text.mem_of_mem_trim hmem)
      exact Line.newline_not_mem_chars_of_isLine first hline t ht
    · exact ih (fun l hl => hlines l (List.mem_cons_of_mem line hl)) t ht

/-- **No token of a text holds a line feed.** -/
theorem Document.newline_not_mem_chars_of_tokens {settings : Settings} {text : String} {ts : List Token}
    (h : (ofSource settings (.text text)).tokens = .ok ts) : ∀ t ∈ ts, '\n' ∉ t.chars :=
  newline_not_mem_chars_of_isDocument (tokens_eq_ok_iff.mp h) fun _ hl => Text.not_mem_of_mem_trimmedLines hl

namespace CommandLine

/-! ## The lines of a listing -/

/-- The line of a listing that shows a token, without its end. -/
def shown (t : Token) : List Char :=
  t.kind.label.toList ++ '\t' :: t.chars

theorem toList_listing (ts : List Token) : (listing ts).toList = (ts.map shown).flatMap (· ++ ['\n']) := by
  rw [listing, String.toList_ofList, List.flatMap_map]
  rfl

theorem shown_injective : Function.Injective shown := by
  intro t u h
  -- no label holds a tab, so the two lines are cut at the same place
  have hcut (v : Token) : Text.cutAt '\t' (shown v) = some (v.kind.label.toList, v.chars) :=
    Text.cutAt_eq_some_iff.mpr ⟨rfl, by cases v.kind <;> decide⟩
  have hparts : (t.kind.label.toList, t.chars) = (u.kind.label.toList, u.chars) := by
    rw [← Option.some_inj, ← hcut, ← hcut, h]
  obtain ⟨hlabel, hchars⟩ := Prod.mk.inj hparts
  have hkind : t.kind = u.kind := by
    revert hlabel
    cases t.kind <;> cases u.kind <;> decide
  exact Token.eq_of_kind_of_chars hkind hchars

variable {ts us : List Token}

/-- **A listing has one line for each token**, and nothing after the last. -/
theorem splitOn_listing (h : ∀ t ∈ ts, '\n' ∉ t.chars) :
    (listing ts).toList.splitOn '\n' = ts.map shown ++ [[]] := by
  rw [toList_listing]
  apply Text.splitOn_flatMap
  intro l hl
  obtain ⟨t, ht, rfl⟩ := List.mem_map.mp hl
  have hlabel : '\n' ∉ t.kind.label.toList := by cases t.kind <;> decide
  simp [shown, hlabel, h t ht]

theorem listing_inj_on (ht : ∀ t ∈ ts, '\n' ∉ t.chars) (hu : ∀ u ∈ us, '\n' ∉ u.chars) :
    listing ts = listing us ↔ ts = us := by
  constructor
  · intro h
    have hlines : ts.map shown ++ [[]] = us.map shown ++ [[]] := by
      rw [← splitOn_listing ht, ← splitOn_listing hu, h]
    exact List.map_injective_iff.mpr shown_injective (List.append_cancel_right hlines)
  · rintro rfl
    rfl

/-! ## Runs -/

/-- The command for tokens prints exactly the listing of the tokens of its text. -/
theorem prints_of_tokens {i : Invocation} {text out : String} (hcommand : i.command = .tokens)
    (hts : (Document.ofSource i.settings (.text text)).tokens = .ok ts) : i.Prints text out ↔ listing ts = out := by
  rw [Invocation.Prints, hts, hcommand]
  simp

/-- **The output of a listing determines the tokens.**  Two different tokens differ in kind or in spelling.  A run that
lists tokens and ends well prints a line for each token of its file, and two such runs print the same exactly if their
files have the same tokens. -/
theorem listing_determines_tokens :
    (∀ t u : Token, t ≠ u → t.kind ≠ u.kind ∨ t.render ≠ u.render) ∧
    (∀ (env : Environment) (arguments : List String) (i : Invocation),
      Request.ofArguments? arguments = some (.invoke i) → i.command = .tokens → (run env arguments).status = 0 →
      ∃ (text : String) (ts : List Token), env.contents i.path = .ok text.toUTF8 ∧
        (Document.ofSource i.settings (.text text)).tokens = .ok ts ∧
        (run env arguments).output.toList.splitOn '\n' =
          ts.map (fun t => t.kind.label.toList ++ '\t' :: t.render.toList) ++ [[]]) ∧
    ∀ (env env' : Environment) (arguments arguments' : List String) (i j : Invocation) (text text' : String)
      (ts us : List Token),
      Request.ofArguments? arguments = some (.invoke i) → Request.ofArguments? arguments' = some (.invoke j) →
      i.command = .tokens → j.command = .tokens →
      env.contents i.path = .ok text.toUTF8 → env'.contents j.path = .ok text'.toUTF8 →
      (Document.ofSource i.settings (.text text)).tokens = .ok ts →
      (Document.ofSource j.settings (.text text')).tokens = .ok us →
      ((run env arguments).output = (run env' arguments').output ↔ ts = us) := by
  refine ⟨fun t u hne => ?_, fun env arguments i hi hcommand hstatus => ?_, ?_⟩
  · by_contra hsame
    obtain ⟨hkind, hrender⟩ : t.kind = u.kind ∧ t.render = u.render := by simpa using hsame
    rw [Token.render, Token.render, String.ofList_inj] at hrender
    exact hne (Token.eq_of_kind_of_chars hkind hrender)
  · obtain ⟨text, hcontents, hprints⟩ := (run_prints_iff hi).mp ⟨hstatus, rfl⟩
    obtain ⟨ts, hts, -⟩ := id hprints
    rw [prints_of_tokens hcommand hts] at hprints
    refine ⟨text, ts, hcontents, hts, ?_⟩
    rw [← hprints, splitOn_listing (Document.newline_not_mem_chars_of_tokens hts)]
    simp only [Token.render, String.toList_ofList]
    rfl
  · intro env env' arguments arguments' i j text text' ts us hi hj hcommand hcommand' hcontents hcontents' hts hus
    have hout := (run_prints_iff hi).mpr ⟨text, hcontents, (prints_of_tokens hcommand hts).mpr rfl⟩
    have hout' := (run_prints_iff hj).mpr ⟨text', hcontents', (prints_of_tokens hcommand' hus).mpr rfl⟩
    rw [hout.2, hout'.2]
    exact listing_inj_on (Document.newline_not_mem_chars_of_tokens hts) (Document.newline_not_mem_chars_of_tokens hus)

/-- A rule and a class of one name, which are spelled alike, and two files that differ only in blank characters. -/
theorem listing_determines_tokens_blanks :
    ((Token.name "digit").kind ≠ (Token.builtin .digit).kind ∨
      (Token.name "digit").render ≠ (Token.builtin .digit).render) ∧
    (∃ ts : List Token,
      (run ⟨none, fun _ => .ok "<digit> ::= <digit>".toUTF8⟩ ["tokens", "g.bnf"]).output.toList.splitOn '\n' =
        ts.map (fun t => t.kind.label.toList ++ '\t' :: t.render.toList) ++ [[]]) ∧
    (run ⟨none, fun _ => .ok "<digit> ::= <digit>".toUTF8⟩ ["tokens", "g.bnf"]).output =
      (run ⟨none, fun _ => .ok "\t<digit>::=<digit> \r\n".toUTF8⟩ ["tokens", "--name=h", "h.bnf"]).output := by
  have hplain : Request.ofArguments? ["tokens", "g.bnf"] = some (.invoke ⟨.tokens, "g.bnf", none, false, false⟩) := by
    decide +kernel
  have hnamed : Request.ofArguments? ["tokens", "--name=h", "h.bnf"] =
      some (.invoke ⟨.tokens, "h.bnf", some "h", false, false⟩) := by decide +kernel
  obtain ⟨-, ts, -, -, hlines⟩ := listing_determines_tokens.2.1
    ⟨none, fun _ => .ok "<digit> ::= <digit>".toUTF8⟩ _ _ hplain rfl (by decide +kernel)
  refine ⟨listing_determines_tokens.1 _ _ (by decide), ⟨ts, hlines⟩, ?_⟩
  exact (listing_determines_tokens.2.2 _ _ _ _ _ _ _ _
    [.name "digit", .assignment, .builtin .digit, .endOfLine] _ hplain hnamed rfl rfl rfl rfl
    (by decide +kernel) (by decide +kernel)).mpr rfl

end CommandLine

end GrammarText
