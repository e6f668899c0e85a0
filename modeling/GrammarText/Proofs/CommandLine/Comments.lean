import GrammarText.Proofs.CommandLine.Listing
import GrammarText.Proofs.Document.CoreLines

/-!
# Comments in a listing

Keeping comments adds their lines to a listing of tokens and does nothing else.  A comment is told from every other
token by the first word of its line, so that the lines it takes can be found in the listing again.

* `Document.filter_comment_of_isDocument`: the comments among the tokens are those of the lines that open one, in order;
* `showsComment`: the lines of a listing that show a comment, and `showsComment_shown`: they show nothing else;
* `splitOn_listing_without_comments`: a listing without comments is the listing with them less these lines;
* `result_working_keepComments`: with and without comments the command fails alike, or lists the same tokens but for the
  comments;
* `run_tokens_keepComments` says this of the runs of the program.
-/

namespace GrammarText

/-! ## The comments of a document -/

/-- Tells whether a trimmed line opens a comment. -/
def Line.opensComment (line : String) : Bool :=
  line.toList.head? = some ';'

/-- The trimmed text of a comment line. -/
def Line.commentText (line : String) : List Char :=
  Text.trim line.toList.tail

theorem Line.filter_comment_of_isLine {cs : List Char} {ts : List Token} (h : IsLine true cs ts) :
    (ts.filter fun t => t.kind = .comment) =
      if cs.head? = some ';' then [.comment (String.ofList (Text.trim cs.tail))] else [] := by
  cases h with
  | comment text => rfl
  | blank => rfl
  | @definition n w b body hvalid hgap hbody =>
    have hdefinition :=
      definition_filter_eq_self (definition_eq_ok_iff.mpr ⟨n, w, b, body, hvalid, hgap, hbody, rfl, rfl⟩)
    rw [if_neg (by simp), List.filter_eq_nil_iff]
    intro t ht
    rw [← hdefinition, List.mem_filter] at ht
    simpa using ht.2

/-- **The comments among the tokens are those of the comment lines**, in order. -/
theorem Document.filter_comment_of_isDocument {lines : List String} {ts : List Token} (h : IsDocument true lines ts) :
    (ts.filter fun t => t.kind = .comment) =
      ((Text.trimEach lines).filter Line.opensComment).map fun line =>
        .comment (String.ofList (Line.commentText line)) := by
  induction h with
  | nil => rfl
  | @cons line lines ts us first _ ih =>
    rw [List.filter_append, ih, Line.filter_comment_of_isLine first, ← Text.toList_trimmed]
    show _ = ((Text.trimmed line :: Text.trimEach lines).filter Line.opensComment).map _
    by_cases hopens : (Text.trimmed line).toList.head? = some ';'
    · rw [if_pos hopens, List.filter_cons_of_pos (by simpa [Line.opensComment] using hopens)]
      rfl
    · rw [if_neg hopens, List.filter_cons_of_neg (by simpa [Line.opensComment] using hopens)]
      rfl

/-- The lines of a text have no token that goes over a line. -/
theorem Document.newline_not_mem_chars_of_tokensOf {settings : Settings} {text : String} {ts : List Token}
    (h : tokensOf settings (Text.trimmedLines text) = .ok ts) : ∀ t ∈ ts, '\n' ∉ t.chars :=
  newline_not_mem_chars_of_isDocument (tokensOf_eq_ok_iff.mp h) fun _ => Text.not_mem_of_mem_trimmedLines

namespace CommandLine

/-! ## The lines of a listing that show a comment -/

/-- Tells whether a line of a listing shows a comment. -/
def showsComment (line : List Char) : Bool :=
  "Comment\t".toList.isPrefixOf line

theorem showsComment_shown (t : Token) : showsComment (shown t) = decide (t.kind = .comment) := by
  cases t <;> simp [showsComment, shown, Token.kind, Token.Kind.label, List.isPrefixOf]

variable {ts : List Token}

theorem filter_map_shown {p : List Char → Bool} {q : Token → Bool} (h : ∀ t, p (shown t) = q t)
    (ts : List Token) : (ts.map shown).filter p = (ts.filter q).map shown := by
  rw [List.filter_map]
  congr 1
  apply List.filter_congr
  intro t _
  exact h t

/-- **Leaving the comments out of the tokens deletes their lines from the listing.** -/
theorem splitOn_listing_without_comments (h : ∀ t ∈ ts, '\n' ∉ t.chars) :
    (listing (ts.filter fun t => t.kind ≠ .comment)).toList.splitOn '\n' =
      ((listing ts).toList.splitOn '\n').filter fun line => !showsComment line := by
  have hother (t : Token) : (!showsComment (shown t)) = decide (t.kind ≠ .comment) := by
    rw [showsComment_shown, decide_not]
  rw [splitOn_listing h, splitOn_listing fun t ht => h t (List.mem_filter.mp ht).1, List.filter_append,
    filter_map_shown hother]
  rfl

theorem filter_splitOn_listing (h : ∀ t ∈ ts, '\n' ∉ t.chars) :
    ((listing ts).toList.splitOn '\n').filter showsComment = (ts.filter fun t => t.kind = .comment).map shown := by
  rw [splitOn_listing h, List.filter_append, filter_map_shown showsComment_shown]
  exact List.append_nil _

/-- A kept comment is shown as it is spelled, after its kind and a tab. -/
theorem shown_comment (text : List Char) :
    shown (.comment (String.ofList text)) = "Comment\t; ".toList ++ text := by
  simp [shown, Token.kind, Token.Kind.label, Token.chars]

/-! ## The command for tokens -/

variable {i j : Invocation} {contents : Except ReadFailure ByteArray}

/-- The command for tokens logs nothing graver than information. -/
theorem rank_of_mem_working (hcommand : i.command = .tokens) {e : Event} (h : e ∈ (i.working contents).events) :
    Level.info.rank ≤ e.level.rank := by
  rw [events_working, hcommand] at h
  cases hdocument : (i.document contents).result with
  | error f =>
    rw [hdocument] at h
    cases h
  | ok d =>
    rw [hdocument] at h
    replace h : e ∈ (listTokens d).work.events := h
    rw [work_listTokens] at h
    rcases Attempt.mem_events_bind.mp h with hstart | ⟨-, -, h⟩
    · obtain rfl := List.mem_singleton.mp hstart
      exact Nat.le_refl _
    rcases Attempt.mem_events_bind.mp h with hlexing | ⟨ts, -, hlast⟩
    · rcases Document.level_of_mem_lexing hlexing with hlevel | hlevel <;> rw [hlevel] <;> decide
    · cases hlast

/-- A threshold that shuts out some level shuts out the levels below it. -/
theorem admits_eq_false_of_rank_le {threshold : Threshold} {least l : Level} (h : threshold.admits least = false)
    (hle : least.rank ≤ l.rank) : threshold.admits l = false := by
  cases threshold with
  | off => rfl
  | upTo top =>
    have hlt : ¬least.rank ≤ top.rank := of_decide_eq_false h
    exact decide_eq_false (by omega)

/-- So a log that takes no information has nothing of the command for tokens. -/
theorem written_working_tokens (hcommand : i.command = .tokens) {threshold : Threshold}
    (h : threshold.admits .info = false) (contents : Except ReadFailure ByteArray) :
    written threshold (i.working contents).events = "" :=
  written_of_quiet fun _ he => admits_eq_false_of_rank_le h (rank_of_mem_working hcommand he)

/-- What the command for tokens comes to is a matter of the lines it reads. -/
theorem result_working_tokens (hcommand : i.command = .tokens) (contents : Except ReadFailure ByteArray) :
    (i.working contents).result =
      ((linesOfFile contents).mapError (.unreadable i.path)).bind fun lines =>
        ((Document.tokensOf i.settings lines).mapError fun v => .grammar (.violation v)).map listing := by
  rw [working_eq, Attempt.result_bind, result_document, hcommand]
  cases (linesOfFile contents).mapError (Failure.unreadable i.path) with
  | error f => rfl
  | ok lines => exact result_listTokens _

/-- **With and without comments the command fails alike, or lists the same tokens but for the comments.** -/
theorem result_working_keepComments (hcommand : i.command = .tokens) (hcommand' : j.command = .tokens)
    (hkeep : i.ownFlag = true) (hdrop : j.ownFlag = false) (hpath : i.path = j.path) (hname : i.name = j.name)
    (contents : Except ReadFailure ByteArray) :
    (∃ failure, (i.working contents).result = .error failure ∧ (j.working contents).result = .error failure) ∨
      ∃ (text : String) (ts : List Token), contents = .ok text.toUTF8 ∧
        Document.tokensOf i.settings (Text.trimmedLines text) = .ok ts ∧
        (i.working contents).result = .ok (listing ts) ∧
        (j.working contents).result = .ok (listing (ts.filter fun t => t.kind ≠ .comment)) := by
  have hsettings : i.settings = { i.settings with keepComments := true } ∧
      j.settings = { i.settings with keepComments := false } := by
    have hgrammar : i.grammarName = j.grammarName := by
      rw [Invocation.grammarName, hname, hpath, Invocation.grammarName]
    simp only [Invocation.settings, hcommand, hcommand', hkeep, hdrop, hgrammar, and_self]
  obtain ⟨hsettings, hsettings'⟩ := hsettings
  rw [result_working_tokens hcommand, result_working_tokens hcommand', hpath]
  cases hlines : linesOfFile contents with
  | error f => exact .inl ⟨.unreadable j.path f, rfl, rfl⟩
  | ok lines =>
    have hwithout := Document.tokensOf_without_comments i.settings lines
    rw [← hsettings, ← hsettings'] at hwithout
    cases htokens : Document.tokensOf i.settings lines with
    | error v =>
      rw [htokens] at hwithout
      refine .inl ⟨.grammar (.violation v), ?_, ?_⟩
      · show ((Document.tokensOf i.settings lines).mapError _).map listing = _
        rw [htokens]
        rfl
      · show ((Document.tokensOf j.settings lines).mapError _).map listing = _
        rw [hwithout]
        rfl
    | ok ts =>
      rw [htokens] at hwithout
      obtain ⟨text, hcontents, rfl⟩ := linesOfFile_eq_ok_iff.mp hlines
      refine .inr ⟨text, ts, hcontents, htokens, ?_, ?_⟩
      · show ((Document.tokensOf i.settings _).mapError _).map listing = _
        rw [htokens]
        rfl
      · show ((Document.tokensOf j.settings _).mapError _).map listing = _
        rw [hwithout]
        rfl

/-- The lines of the listing of a text that show a comment, as its lines have them. -/
theorem filter_splitOn_listing_of_text {settings : Settings} {text : String} (hkeep : settings.keepComments = true)
    (h : Document.tokensOf settings (Text.trimmedLines text) = .ok ts) :
    ((listing ts).toList.splitOn '\n').filter showsComment =
      ((Text.trimmedLines text).filter Line.opensComment).map fun line =>
        "Comment\t; ".toList ++ Line.commentText line := by
  have hform := Document.tokensOf_eq_ok_iff.mp h
  rw [hkeep] at hform
  rw [filter_splitOn_listing (Document.newline_not_mem_chars_of_tokensOf h),
    Document.filter_comment_of_isDocument hform, Text.trimEach_trimmedLines, List.map_map]
  apply List.map_congr_left
  intro line _
  exact shown_comment (Line.commentText line)

/-! ## Runs -/

/-- **What keeping comments changes about the command for tokens.**  Two runs on the same contents and under the same
name, of which only the first keeps comments, have the same status.  If they fail, it is for the same reason, and each
reports it after what its log takes; a log that takes no information takes nothing.  If they end well, the output
without comments is the one with them less the lines that start with the word for a comment and a tab, and these are, in
order, the lines of the file that start with a semicolon when trimmed, each with the trimmed rest of the line after the
semicolon. -/
theorem run_tokens_keepComments (env env' : Environment) (arguments arguments' : List String) (i j : Invocation)
    (hi : Request.ofArguments? arguments = some (.invoke i)) (hj : Request.ofArguments? arguments' = some (.invoke j))
    (hcommand : i.command = .tokens) (hcommand' : j.command = .tokens) (hkeep : i.ownFlag = true)
    (hdrop : j.ownFlag = false) (hname : i.name = j.name) (hpath : i.path = j.path)
    (hcontents : env.contents i.path = env'.contents j.path) :
    (run env arguments).status = (run env' arguments').status ∧
    ((run env arguments).status ≠ 0 →
      ∃ failure : Failure,
        (run env arguments).errors =
          written (env.threshold.getD i.threshold) (i.working (env.contents i.path)).events ++ failure.report ∧
        (run env' arguments').errors =
          written (env'.threshold.getD j.threshold) (j.working (env'.contents j.path)).events ++ failure.report) ∧
    ((env.threshold.getD i.threshold).admits .info = false →
      (env'.threshold.getD j.threshold).admits .info = false →
      (run env arguments).errors = (run env' arguments').errors) ∧
    ((run env arguments).status = 0 →
      ∃ text : String, env.contents i.path = .ok text.toUTF8 ∧
        (run env' arguments').output.toList.splitOn '\n' =
          ((run env arguments).output.toList.splitOn '\n').filter (fun line => !showsComment line) ∧
        ((run env arguments).output.toList.splitOn '\n').filter showsComment =
          ((Text.trimmedLines text).filter Line.opensComment).map fun line =>
            "Comment\t; ".toList ++ Line.commentText line) := by
  rw [run_eq hi, run_eq hj, ← hcontents]
  rcases result_working_keepComments hcommand hcommand' hkeep hdrop hpath hname (env.contents i.path) with
    ⟨failure, hfails, hfails'⟩ | ⟨text, ts, hbytes, htokens, hlists, hlists'⟩
  · rw [hfails, hfails']
    refine ⟨rfl, fun _ => ⟨failure, rfl, rfl⟩, fun hquiet hquiet' => ?_, fun hstatus => absurd hstatus Nat.one_ne_zero⟩
    show written _ _ ++ failure.report = written _ _ ++ failure.report
    rw [written_working_tokens hcommand hquiet, written_working_tokens hcommand' hquiet']
  · rw [hlists, hlists']
    have hkept : i.settings.keepComments = true := by
      rw [Invocation.settings, hcommand]
      exact hkeep
    refine ⟨rfl, fun hstatus => absurd rfl hstatus, fun hquiet hquiet' => ?_, fun _ => ⟨text, hbytes, ?_, ?_⟩⟩
    · show written _ _ = written _ _
      rw [written_working_tokens hcommand hquiet, written_working_tokens hcommand' hquiet']
    · exact splitOn_listing_without_comments (Document.newline_not_mem_chars_of_tokensOf htokens)
    · exact filter_splitOn_listing_of_text hkept htokens

/-- A file with two comments, of which one says nothing and the other holds a tab, and a literal that starts like the
line of a comment; and a file that fails with comments and without. -/
theorem run_tokens_keepComments_literal :
    (run ⟨none, fun _ => .ok "; a\tnote\n<a> ::= 'Comment\t'\n  ;  \n".toUTF8⟩ ["tokens", "g.bnf"]).output =
      "Name\t<a>\nLiteral\t::=\nLiteral\t\"Comment\t\"\nLiteral\tEOL\n" ∧
    (run ⟨none, fun _ => .ok "; a\tnote\n<a> ::= 'Comment\t'\n  ;  \n".toUTF8⟩
        ["tokens", "g.bnf", "--keep-comments"]).output =
      "Comment\t; a\tnote\nName\t<a>\nLiteral\t::=\nLiteral\t\"Comment\t\"\nLiteral\tEOL\nComment\t; \n" ∧
    ((run ⟨none, fun _ => .ok "; a\tnote\n<a> ::= 'Comment\t'\n  ;  \n".toUTF8⟩
        ["tokens", "g.bnf"]).output.toList.splitOn '\n') =
      ((run ⟨none, fun _ => .ok "; a\tnote\n<a> ::= 'Comment\t'\n  ;  \n".toUTF8⟩
        ["tokens", "g.bnf", "--keep-comments"]).output.toList.splitOn '\n').filter (fun line => !showsComment line) ∧
    (run ⟨none, fun _ => .ok "; a note\n<a> ::= %".toUTF8⟩ ["tokens", "g.bnf", "--keep-comments"]).errors =
      (run ⟨none, fun _ => .ok "; a note\n<a> ::= %".toUTF8⟩ ["tokens", "g.bnf"]).errors := by
  have hi : Request.ofArguments? ["tokens", "g.bnf", "--keep-comments"] =
      some (.invoke ⟨.tokens, "g.bnf", none, true, false⟩) := by decide +kernel
  have hj : Request.ofArguments? ["tokens", "g.bnf"] = some (.invoke ⟨.tokens, "g.bnf", none, false, false⟩) := by
    decide +kernel
  obtain ⟨-, -, -, hends⟩ := run_tokens_keepComments
    ⟨none, fun _ => .ok "; a\tnote\n<a> ::= 'Comment\t'\n  ;  \n".toUTF8⟩
    ⟨none, fun _ => .ok "; a\tnote\n<a> ::= 'Comment\t'\n  ;  \n".toUTF8⟩ _ _ _ _ hi hj rfl rfl rfl rfl rfl rfl rfl
  obtain ⟨-, -, hless, -⟩ := hends (by decide +kernel)
  obtain ⟨-, -, herrors, -⟩ := run_tokens_keepComments ⟨none, fun _ => .ok "; a note\n<a> ::= %".toUTF8⟩
    ⟨none, fun _ => .ok "; a note\n<a> ::= %".toUTF8⟩ _ _ _ _ hi hj rfl rfl rfl rfl rfl rfl rfl
  exact ⟨by decide +kernel, by decide +kernel, hless, herrors rfl rfl⟩

end CommandLine

end GrammarText
