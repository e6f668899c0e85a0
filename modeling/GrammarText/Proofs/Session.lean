import GrammarText.Proofs.RuleTable.RoundTrip
import GrammarText.Session

/-!
# What a session keeps

A step of a session either does what it is asked for or says why not, and in the second case it changes nothing.  So the
steps that fail might as well not have been taken.  Whatever steps were taken from the start, the table held was built
from some tokens, and the document held was made under some settings.

* `Session.failsOrChanges_step`: what a step can do, all requests taken together;
* `Session.step_failed`: a step that fails leaves the state as it was;
* `Session.run_effective` and `Session.after_effective`: without the steps that fail, a run has the other replies and
  ends in the same state;
* `Session.document_after`: only loading puts another document in the place of the one held;
* `Session.Sound`: the invariant of the states that can be reached, kept by every change (`Sound.change`) and so by a
  run (`Sound.after`).  By it a look-up finds exactly the rule of a name (`Sound.step_get`);
* `RuleTable.reread_eq_iff`: a table that was built comes back the same exactly if it is printable, and so it is in a
  session (`Sound.step_reread`);
* `Session.run_load_lex_build`: loading, lexing and building give what the source makes.
-/

namespace GrammarText

namespace RuleTable

variable {settings : Settings} {tokens : List Token} {t : RuleTable}

/-- **A table comes back the same exactly if it is printable.** -/
theorem reread_eq_iff (h : ofTokens settings tokens = .ok t) :
    t.reread.result = .ok ⟨true, true, t.size⟩ ↔ t.Printable := by
  have hreread : t.reread.result =
      (ofText t.render).result.map fun again => ⟨again == t, again.render == t.render, again.size⟩ := by
    rw [reread, Attempt.result_bind]
    rfl
  rw [hreread]
  constructor
  · intro hsame
    obtain ⟨again, hagain, hreply⟩ := Except.map_eq_ok_iff.mp hsame
    obtain ⟨heq, -⟩ := Reread.mk.inj hreply
    rw [beq_iff_eq.mp heq] at hagain
    exact printable_of_ofText hagain
  · intro hprintable
    rw [ofText_render h hprintable]
    show Except.ok (⟨t == t, t.render == t.render, t.size⟩ : Reread) = _
    rw [beq_self_eq_true, beq_self_eq_true]

end RuleTable

/-- Tells whether a reply says why a step failed. -/
def Reply.isFailed : Reply → Bool
  | .failed _ => true
  | _ => false

namespace Session

variable {s : Session}

/-! ## What a step can do -/

/-- What a step that does what it is asked for can make of a state. -/
inductive Change (s : Session) : Step → Session → Prop where
  | none (request : Step) : Change s request s
  | settings (request : Step) (settings : Settings) : Change s request { s with settings := settings }
  | tokens (request : Step) (tokens : List Token) : Change s request { s with tokens := tokens }
  | document (source : Source) :
      Change s (.load source) { s with document := some (Document.ofSource s.settings source) }
  | table {t : RuleTable} (built : RuleTable.ofTokens s.settings s.tokens = .ok t) :
      Change s .build { s with table := t }

/-- A turn of a session in which a request either fails, and the state stays, or is met. -/
def FailsOrChanges (s : Session) (request : Step) (turn : Turn) : Prop :=
  turn.1.isFailed = true ∧ turn.2 = s ∨ turn.1.isFailed = false ∧ Change s request turn.2

variable {request : Step}

section Settling

variable {ε α : Type} {onError : ε → StepFailure} {onValue : α → Turn} {x : Attempt ε α}

theorem value_settle_of_ok {a : α} (h : x.result = .ok a) : (s.settle onError onValue x).value = onValue a := by
  rw [settle, h]

theorem value_settle_of_error {e : ε} (h : x.result = .error e) :
    (s.settle onError onValue x).value = (.failed (onError e), s) := by
  rw [settle, h]

/-- The turn after a computation is what its value says, or a failure. -/
theorem failsOrChanges_settle
    (hvalue : ∀ a, x.result = .ok a → (onValue a).1.isFailed = false ∧ Change s request (onValue a).2) :
    FailsOrChanges s request (s.settle onError onValue x).value := by
  cases hresult : x.result with
  | ok a =>
    rw [value_settle_of_ok hresult]
    exact .inr (hvalue a hresult)
  | error e =>
    rw [value_settle_of_error hresult]
    exact .inl ⟨rfl, rfl⟩

end Settling

theorem value_step_lex {d : Document} (h : s.document = some d) (append : Bool) :
    (s.step (.lex append)).value =
      (s.settle .violation (fun ts => s.withTokens (if append then s.tokens ++ ts else ts)) d.lexing).value := by
  rw [step, h]

/-- **A step fails and leaves the state as it is, or it changes what it is asked to change.** -/
theorem failsOrChanges_step (s : Session) (request : Step) : FailsOrChanges s request (s.step request).value := by
  cases request with
  | configure settings => exact .inr ⟨rfl, .settings _ settings⟩
  | keepComments keep => exact .inr ⟨rfl, .settings _ _⟩
  | repeats repeats => exact .inr ⟨rfl, .settings _ _⟩
  | load source => exact .inr ⟨rfl, .document source⟩
  | lex append =>
    cases hdocument : s.document with
    | none =>
      have hstep : (s.step (.lex append)).value = (.failed .noDocument, s) := by
        rw [step, hdocument]
        rfl
      rw [hstep]
      exact .inl ⟨rfl, rfl⟩
    | some d =>
      rw [value_step_lex hdocument]
      exact failsOrChanges_settle fun ts _ => ⟨rfl, .tokens _ _⟩
  | push ts => exact .inr ⟨rfl, .tokens _ _⟩
  | insert place t =>
    by_cases hplace : place ≤ s.tokens.length
    · have hstep : (s.step (.insert place t)).value = s.withTokens (s.tokens.insertIdx place t) := by
        rw [step, if_pos hplace]
        rfl
      rw [hstep]
      exact .inr ⟨rfl, .tokens _ _⟩
    · have hstep : (s.step (.insert place t)).value = (.failed .outOfRange, s) := by
        rw [step, if_neg hplace]
        rfl
      rw [hstep]
      exact .inl ⟨rfl, rfl⟩
  | remove place =>
    cases htoken : s.tokens[place]? with
    | none =>
      have hstep : (s.step (.remove place)).value = (.failed .outOfRange, s) := by
        rw [step, htoken]
        rfl
      rw [hstep]
      exact .inl ⟨rfl, rfl⟩
    | some t =>
      have hstep : (s.step (.remove place)).value = (.token t, { s with tokens := s.tokens.eraseIdx place }) := by
        rw [step, htoken]
        rfl
      rw [hstep]
      exact .inr ⟨rfl, .tokens _ _⟩
  | truncate count => exact .inr ⟨rfl, .tokens _ _⟩
  | group => exact failsOrChanges_settle fun rules _ => ⟨rfl, .none _⟩
  | build => exact failsOrChanges_settle fun t hbuilt => ⟨rfl, .table hbuilt⟩
  | get name => exact .inr ⟨rfl, .none _⟩
  | contains name => exact .inr ⟨rfl, .none _⟩
  | table => exact .inr ⟨rfl, .none _⟩
  | reread => exact failsOrChanges_settle fun r _ => ⟨rfl, .none _⟩

/-- **A step that fails leaves the state as it was.** -/
theorem step_failed (h : (s.step request).value.1.isFailed = true) : (s.step request).value.2 = s := by
  rcases failsOrChanges_step s request with ⟨-, hsame⟩ | ⟨hmet, -⟩
  · exact hsame
  · rw [h] at hmet
    cases hmet

theorem change_step (s : Session) (request : Step) : Change s request (s.step request).value.2 := by
  rcases failsOrChanges_step s request with ⟨-, hsame⟩ | ⟨-, hchange⟩
  · rw [hsame]
    exact .none request
  · exact hchange

/-! ## Runs -/

/-- The state after steps taken in order. -/
def after (s : Session) : List Step → Session
  | [] => s
  | request :: requests => (s.step request).value.2.after requests

theorem run_nil (s : Session) : (s.run []).value = [] := rfl

theorem run_cons (s : Session) (request : Step) (requests : List Step) :
    (s.run (request :: requests)).value =
      (s.step request).value.1 :: ((s.step request).value.2.run requests).value := rfl

theorem run_cons_of {request : Step} {reply : Reply} {t : Session} (h : (s.step request).value = (reply, t))
    (requests : List Step) : (s.run (request :: requests)).value = reply :: (t.run requests).value := by
  rw [run_cons, h]

/-- Steps taken later start from the state that the earlier ones left. -/
theorem run_append (s : Session) (xs ys : List Step) :
    (s.run (xs ++ ys)).value = (s.run xs).value ++ ((s.after xs).run ys).value := by
  induction xs generalizing s with
  | nil => rfl
  | cons request xs ih =>
    rw [List.cons_append, run_cons, run_cons, ih, List.cons_append]
    rfl

/-- The steps of a run that do not fail. -/
def effective (s : Session) : List Step → List Step
  | [] => []
  | request :: requests =>
    if (s.step request).value.1.isFailed then s.effective requests
    else request :: (s.step request).value.2.effective requests

/-- **Without the steps that fail, a run ends in the same state.** -/
theorem after_effective (s : Session) (requests : List Step) : s.after (s.effective requests) = s.after requests := by
  induction requests generalizing s with
  | nil => rfl
  | cons request requests ih =>
    rw [effective, after]
    by_cases hfailed : (s.step request).value.1.isFailed = true
    · rw [if_pos hfailed, step_failed hfailed]
      exact ih s
    · rw [if_neg hfailed, after]
      exact ih _

/-- **Without the steps that fail, a run has the replies that are no failures.** -/
theorem run_effective (s : Session) (requests : List Step) :
    (s.run (s.effective requests)).value = (s.run requests).value.filter fun reply => !reply.isFailed := by
  induction requests generalizing s with
  | nil => rfl
  | cons request requests ih =>
    rw [effective, run_cons]
    by_cases hfailed : (s.step request).value.1.isFailed = true
    · rw [if_pos hfailed, step_failed hfailed, List.filter_cons_of_neg (by simp [hfailed])]
      exact ih s
    · rw [if_neg hfailed, run_cons, List.filter_cons_of_pos (by simpa using hfailed), ih]

/-! ## The document -/

theorem Change.document_eq {t : Session} (h : Change s request t) (hload : ∀ source, request ≠ .load source) :
    t.document = s.document := by
  cases h with
  | document source => exact absurd rfl (hload source)
  | _ => rfl

/-- **Only loading puts another document in the place of the one held**, so that a document keeps the settings it was
loaded under. -/
theorem document_after (s : Session) (requests : List Step) (h : ∀ source, Step.load source ∉ requests) :
    (s.after requests).document = s.document := by
  induction requests generalizing s with
  | nil => rfl
  | cons request requests ih =>
    have hrest : ((s.step request).value.2.after requests).document = (s.step request).value.2.document :=
      ih _ fun source hmem => h source (List.mem_cons_of_mem _ hmem)
    have hload (source : Source) : request ≠ .load source := fun hrequest =>
      h source (by rw [hrequest]; exact List.mem_cons_self)
    rw [after, hrest, (change_step s request).document_eq hload]

/-! ## States that can be reached -/

/-- What holds of every state that steps from the start lead to. -/
structure Sound (s : Session) : Prop where
  /-- The table held was built from some tokens. -/
  table : ∃ settings tokens, RuleTable.ofTokens settings tokens = .ok s.table
  /-- The document held was made of some source. -/
  document : ∀ d, s.document = some d → ∃ settings source, d = Document.ofSource settings source

theorem sound_initial : initial.Sound := by
  refine ⟨⟨{}, [], ?_⟩, fun d hd => by cases hd⟩
  rw [RuleTable.ofTokens_of_rules_ok Grouping.rules_nil]
  rfl

theorem Sound.change (h : s.Sound) {t : Session} (hchange : Change s request t) : t.Sound := by
  cases hchange with
  | none => exact h
  | settings => exact ⟨h.table, h.document⟩
  | tokens => exact ⟨h.table, h.document⟩
  | document source => exact ⟨h.table, fun d hd => ⟨s.settings, source, (Option.some.inj hd).symm⟩⟩
  | table built => exact ⟨⟨s.settings, s.tokens, built⟩, h.document⟩

/-- **Whatever steps were taken, the table was built and the document was loaded.** -/
theorem Sound.after (h : s.Sound) (requests : List Step) : (s.after requests).Sound := by
  induction requests generalizing s with
  | nil => exact h
  | cons request requests ih => exact ih (h.change (change_step s request))

/-- Looking a name up finds the rule of that name in the table held, and no other. -/
theorem Sound.step_get (h : s.Sound) {name : String} {r : Rule} :
    (s.step (.get name)).value.1 = .rule (some r) ↔ r ∈ s.table.rules ∧ r.name = name := by
  obtain ⟨settings, tokens, hbuilt⟩ := h.table
  obtain ⟨defs, -, hholds⟩ := RuleTable.exists_holds_of_ofTokens hbuilt
  show Reply.rule (s.table.get? name) = .rule (some r) ↔ _
  rw [Reply.rule.injEq]
  exact hholds.indexed.get?_eq_some_iff

/-- The table held comes back the same exactly if it is printable. -/
theorem Sound.step_reread (h : s.Sound) :
    (s.step .reread).value.1 = .reread ⟨true, true, s.table.size⟩ ↔ s.table.Printable := by
  obtain ⟨settings, tokens, hbuilt⟩ := h.table
  have hstep : (s.step .reread).value =
      (s.settle .grammar (fun r => (.reread r, s)) s.table.reread).value := rfl
  rw [← RuleTable.reread_eq_iff hbuilt, hstep]
  cases hresult : s.table.reread.result with
  | ok r =>
    rw [value_settle_of_ok hresult]
    simp
  | error e =>
    rw [value_settle_of_error hresult]
    simp

/-! ## From a source to a table -/

/-- Building replies with the table that the tokens held make. -/
theorem step_build_eq_table_iff {t : RuleTable} :
    (s.step .build).value.1 = .table t ↔ RuleTable.ofTokens s.settings s.tokens = .ok t := by
  have hstep : (s.step .build).value =
      (s.settle .table (fun t => (.table t, { s with table := t })) (RuleTable.building s.settings s.tokens)).value :=
    rfl
  rw [hstep, RuleTable.ofTokens]
  cases hresult : (RuleTable.building s.settings s.tokens).result with
  | ok u =>
    rw [value_settle_of_ok hresult]
    simp
  | error e =>
    rw [value_settle_of_error hresult]
    simp

/-- **Loading, lexing and building reply with the document, its tokens and its table** exactly if these are what the
source makes under the settings of the session. -/
theorem run_load_lex_build (s : Session) (source : Source) (ts : List Token) (t : RuleTable) :
    (s.run [.load source, .lex false, .build]).value =
        [.document (Document.ofSource s.settings source), .tokens ts, .table t] ↔
      (Document.ofSource s.settings source).tokens = .ok ts ∧ RuleTable.ofTokens s.settings ts = .ok t := by
  have hload : (s.step (.load source)).value = (.document (Document.ofSource s.settings source),
      { s with document := some (Document.ofSource s.settings source) }) := rfl
  rw [run_cons_of hload]
  cases hlexed : (Document.ofSource s.settings source).lexing.result with
  | error v =>
    have htokens : (Document.ofSource s.settings source).tokens = .error v := hlexed
    rw [run_cons, value_step_lex rfl, value_settle_of_error hlexed, htokens]
    simp
  | ok found =>
    have htokens : (Document.ofSource s.settings source).tokens = .ok found := hlexed
    have hlex : (step { s with document := some (Document.ofSource s.settings source) } (.lex false)).value =
        (.tokens found, ⟨s.settings, some (Document.ofSource s.settings source), found, s.table⟩) := by
      rw [value_step_lex rfl, value_settle_of_ok hlexed]
      rfl
    rw [run_cons_of hlex, run_cons, run_nil, htokens]
    simp only [List.cons.injEq, true_and, and_true, step_build_eq_table_iff, Reply.tokens.injEq, Except.ok.injEq]
    constructor
    · intro h
      obtain ⟨rfl, hbuilt⟩ := h
      exact ⟨rfl, hbuilt⟩
    · intro h
      obtain ⟨rfl, hbuilt⟩ := h
      exact ⟨rfl, hbuilt⟩

end Session

end GrammarText
