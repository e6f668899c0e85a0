import GrammarText.Proofs.Document.Forms
import GrammarText.Proofs.RuleTable.Repeats

/-!
# What goes to the log

The log of a computation in steps is the logs of its steps up to the first failure (`Attempt.events_bind_of_ok`,
`Attempt.mem_events_bind`).  So each part of the work answers for its own events:

* `origin_of_mem_lexing`: lexing logs events of the lexer only;
* `events_building_of_error`: building that comes to no table logs nothing;
* `events_building_of_ok`: building that comes to a table logs the definitions that were merged and its end, which is
  all where no name repeats (`events_building_of_nodup`).
-/

namespace GrammarText

namespace Attempt

variable {ε α β : Type} {x y : Attempt ε α} {f : α → Attempt ε β} {e : Event}

/-- A computation is what it comes to and its log. -/
theorem ext (result : x.result = y.result) (events : x.events = y.events) : x = y :=
  Logged.ext result events

theorem events_bind_of_ok {a : α} (h : x.result = .ok a) : (x >>= f).events = x.events ++ (f a).events := by
  rw [events_bind, h]

theorem mem_events_bind : e ∈ (x >>= f).events ↔ e ∈ x.events ∨ ∃ a, x.result = .ok a ∧ e ∈ (f a).events := by
  rw [events_bind, List.mem_append]
  cases x.result <;> simp

/-- Writing events one after the other always succeeds. -/
theorem result_forM_log (event : α → Event) (xs : List α) :
    (xs.forM fun x => (log (event x) : Attempt ε Unit)).result = .ok () := by
  induction xs with
  | nil => rfl
  | cons x xs ih =>
    show (log (event x) >>= fun _ => xs.forM fun x => (log (event x) : Attempt ε Unit)).result = _
    rw [result_bind, result_log]
    exact ih

theorem events_forM_log (event : α → Event) (xs : List α) :
    (xs.forM fun x => (log (event x) : Attempt ε Unit)).events = xs.map event := by
  induction xs with
  | nil => rfl
  | cons x xs ih =>
    show (log (event x) >>= fun _ => xs.forM fun x => (log (event x) : Attempt ε Unit)).events = _
    rw [events_bind_of_ok (result_log _), events_log, ih, List.map_cons, List.singleton_append]

end Attempt

/-! ## Lexing -/

namespace Document

theorem origin_of_mem_lexLines {settings : Settings} {n : Nat} {lines : List String} {e : Event}
    (h : e ∈ (lexLines settings n lines).events) : e.origin = .lexer := by
  induction lines generalizing n with
  | nil => cases h
  | cons line rest ih =>
    rw [lexLines, Attempt.mem_events_bind] at h
    rcases h with hline | ⟨ts, -, hrest⟩
    · rw [events_lexLine, Option.mem_toList, Option.map_eq_some_iff] at hline
      obtain ⟨kind, -, rfl⟩ := hline
      rfl
    · rcases Attempt.mem_events_bind.mp hrest with hrest | ⟨us, -, hlast⟩
      · exact ih hrest
      · cases hlast

/-- **Lexing logs events of the lexer only.** -/
theorem origin_of_mem_lexing {d : Document} {e : Event} (h : e ∈ d.lexing.events) : e.origin = .lexer := by
  rcases Attempt.mem_events_bind.mp h with hstart | ⟨-, -, h⟩
  · obtain rfl := List.mem_singleton.mp hstart
    rfl
  rcases Attempt.mem_events_bind.mp h with hlines | ⟨ts, -, h⟩
  · exact origin_of_mem_lexLines hlines
  rcases Attempt.mem_events_bind.mp h with hend | ⟨-, -, hlast⟩
  · obtain rfl := List.mem_singleton.mp hend
    rfl
  · cases hlast

theorem level_of_mem_lexing {d : Document} {e : Event} (h : e ∈ d.lexing.events) :
    e.level = .debug ∨ e.level = .trace := by
  have horigin := origin_of_mem_lexing h
  cases e with
  | lexingStarted => exact .inl rfl
  | lineSeen => exact .inr rfl
  | lexingFinished => exact .inl rfl
  | _ => cases horigin

end Document

/-! ## Building -/

namespace RuleTable

variable {settings : Settings} {t : RuleTable} {tokens : List Token} {defs before : List Rule}

/-- Of a definition only its merging is logged. -/
theorem events_add (settings : Settings) (t : RuleTable) (r : Rule) :
    (add settings t r).events =
      match t.position? r.name, settings.repeats with
      | some _, .merged => [.definitionMerged settings.grammar r.name]
      | _, _ => [] := by
  unfold add
  cases t.position? r.name with
  | none => rfl
  | some i => cases settings.repeats <;> rfl

/-- Refusing logs nothing on the way, whether it ends with a table or with an error. -/
theorem events_foldlM_refused (hrefused : settings.repeats = .refused) (t : RuleTable) (defs : List Rule) :
    (defs.foldlM (add settings) t).events = [] := by
  induction defs generalizing t with
  | nil => rfl
  | cons r defs ih =>
    have hadd : (add settings t r).events = [] := by
      rw [events_add, hrefused]
      cases t.position? r.name <;> rfl
    rw [List.foldlM_cons, Attempt.events_bind, hadd, List.nil_append]
    cases (add settings t r).result with
    | error e => rfl
    | ok u => exact ih u

/-- **Merging logs each definition whose name is that of an earlier one**, in order. -/
theorem events_foldlM_merged (hmerged : settings.repeats = .merged) (defs : List Rule) :
    (defs.foldlM (add settings) empty).events =
      (repeatedNames (defs.map Rule.name)).map (.definitionMerged settings.grammar) := by
  induction defs using List.reverseRecOn with
  | nil => rfl
  | append_singleton defs r ih =>
    obtain ⟨u, hu, hholds⟩ := result_foldlM_merged hmerged Holds.empty defs
    rw [List.nil_append] at hholds
    have hadd : (add settings u r).events =
        (if r.name ∈ defs.map Rule.name then [r.name] else []).map (.definitionMerged settings.grammar) := by
      rw [events_add, hmerged]
      cases hplace : u.position? r.name with
      | none =>
        rw [if_neg (hholds.position?_eq_none_iff.mp hplace)]
        rfl
      | some i =>
        have hmem : r.name ∈ defs.map Rule.name := by
          by_contra hnew
          rw [hholds.position?_eq_none_iff.mpr hnew] at hplace
          cases hplace
        rw [if_pos hmem]
        rfl
    rw [List.foldlM_append, Attempt.events_bind_of_ok hu, ih, List.foldlM_cons, Attempt.events_bind, hadd,
      List.map_append, List.map_singleton, repeatedNames_concat, List.map_append]
    cases (add settings u r).result <;> simp

/-- Where tokens can be grouped, the log is that of adding their definitions, and an end if that comes to a table. -/
theorem events_building_of_rules (settings : Settings) (hdefs : Grouping.rules tokens = .ok defs) :
    (building settings tokens).events = (defs.foldlM (add settings) empty).events ++
      match ofTokens settings tokens with
      | .ok t => [.tableBuilt settings.grammar t.size]
      | .error _ => [] := by
  have hgrouped : ((Attempt.ofExcept (Grouping.rules tokens)).mapError TableError.grouping).result = .ok defs := by
    rw [Attempt.result_mapError, Attempt.result_ofExcept, hdefs]
    rfl
  rw [building, Attempt.events_bind_of_ok hgrouped, Attempt.events_bind, ofTokens_of_rules_ok hdefs]
  cases (defs.foldlM (add settings) empty).result <;> rfl

/-- **Tokens that make no table leave no event**: they cannot be grouped, or a definition of theirs is refused. -/
theorem events_building_of_error {e : TableError} (h : ofTokens settings tokens = .error e) :
    (building settings tokens).events = [] := by
  cases hdefs : Grouping.rules tokens with
  | error g =>
    rw [building, Attempt.events_bind, Attempt.result_mapError, Attempt.result_ofExcept, hdefs]
    rfl
  | ok defs =>
    have hrefused : settings.repeats = .refused := by
      cases hrepeats : settings.repeats with
      | refused => rfl
      | merged =>
        obtain ⟨t, ht, -⟩ := exists_ofTokens_merged settings hrepeats hdefs
        rw [h] at ht
        cases ht
    rw [events_building_of_rules settings hdefs, h, events_foldlM_refused hrefused]
    rfl

/-- Where a repeated name is refused, a table is made of definitions with different names. -/
theorem nodup_of_ofTokens_refused (hrefused : settings.repeats = .refused) (h : ofTokens settings tokens = .ok t)
    (hdefs : Grouping.rules tokens = .ok defs) : (defs.map Rule.name).Nodup := by
  obtain ⟨found, hfound, -, hpolicy⟩ := ofTokens_eq_ok_iff.mp h
  obtain rfl : found = defs := Except.ok.inj (hfound.symm.trans hdefs)
  rw [hrefused] at hpolicy
  exact hpolicy.resolve_left (by decide)

/-- **Tokens that make a table leave the repeated definitions and then the end**; under refusal nothing is repeated. -/
theorem events_building_of_ok (h : ofTokens settings tokens = .ok t) (hdefs : Grouping.rules tokens = .ok defs) :
    (building settings tokens).events =
      (repeatedNames (defs.map Rule.name)).map (.definitionMerged settings.grammar) ++
        [.tableBuilt settings.grammar t.size] := by
  have hfold : (defs.foldlM (add settings) empty).events =
      (repeatedNames (defs.map Rule.name)).map (.definitionMerged settings.grammar) := by
    cases hrepeats : settings.repeats with
    | merged => exact events_foldlM_merged hrepeats defs
    | refused =>
      have hdup := nodup_of_ofTokens_refused hrepeats h hdefs
      rw [events_foldlM_refused hrepeats, repeatedNames_eq_nil_iff.mpr hdup]
      rfl
  rw [events_building_of_rules settings hdefs, h, hfold]

/-- **Without a repeated name the building of a table logs nothing but its end**, whatever the policy. -/
theorem events_building_of_nodup (settings : Settings) (h : Grouping.rules tokens = .ok defs)
    (hdup : (defs.map Rule.name).Nodup) :
    (building settings tokens).events = [.tableBuilt settings.grammar defs.length] := by
  obtain ⟨t, ht, hholds⟩ := exists_ofTokens_of_nodup settings h hdup
  have hsize : t.size = defs.length := by
    rw [size, ← Array.length_toList, hholds.rules, merged_of_nodup hdup]
  rw [events_building_of_ok ht h, repeatedNames_eq_nil_iff.mpr hdup, hsize]
  rfl

end RuleTable

end GrammarText
