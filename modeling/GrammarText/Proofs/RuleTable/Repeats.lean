import GrammarText.Proofs.Outcomes
import GrammarText.Proofs.RuleTable.Index
import Mathlib.Data.List.Induction
import Mathlib.Data.List.Nodup

/-!
# Repeated definitions

What becomes of definitions whose names repeat is said first without any table.  `merged defs` has each name once, in
the order of the first definitions, with the alternatives of all definitions of that name one after the other;
`repeatedNames` are the names that come again, one for each definition after the first.

A table *holds* definitions if its rules are these and its index is sound (`Holds`).  Adding a definition to a table
that holds `defs` gives one that holds `defs ++ [r]`, whether the name is new (`Holds.push`) or not (`Holds.extend`).
That is the invariant of the building loop, and from it come

* `result_foldlM_merged`: merging never fails and ends with a table that holds all definitions;
* `result_foldlM_of_nodup` and `result_foldlM_refused_repeat`: refusing ends with the same table if no name repeats, and
  with the first repetition otherwise;
* `ofTokens_repeats`: the two policies side by side, errors of grouping included.
-/

namespace GrammarText.RuleTable

/-! ## First and further occurrences in a list -/

section Occurrences

variable {a : String} {l : List String}

theorem eraseDups_concat_of_mem (h : a ∈ l) : (l ++ [a]).eraseDups = l.eraseDups := by
  have hnone : [a].removeAll l = [] := by simp [List.removeAll, h]
  rw [List.eraseDups_append, hnone, List.eraseDups_nil, List.append_nil]

theorem eraseDups_concat_of_not_mem (h : a ∉ l) : (l ++ [a]).eraseDups = l.eraseDups ++ [a] := by
  have hall : [a].removeAll l = [a] := by simp [List.removeAll, h]
  rw [List.eraseDups_append, hall]
  rfl

theorem nodup_eraseDups (l : List String) : l.eraseDups.Nodup := by
  induction l using List.reverseRecOn with
  | nil => simp
  | append_singleton l a ih =>
    by_cases h : a ∈ l
    · rwa [eraseDups_concat_of_mem h]
    · rw [eraseDups_concat_of_not_mem h, ← List.concat_eq_append, List.nodup_concat, List.mem_eraseDups]
      exact ⟨h, ih⟩

/-- What repeats in the second of two lists can be dropped there before the two are put together. -/
theorem eraseDups_append_eraseDups_right (k l : List String) : (k ++ l.eraseDups).eraseDups = (k ++ l).eraseDups := by
  induction l using List.reverseRecOn with
  | nil => rw [List.eraseDups_nil]
  | append_singleton l a ih =>
    by_cases hl : a ∈ l
    · rw [eraseDups_concat_of_mem hl, ih, ← List.append_assoc, eraseDups_concat_of_mem (by simp [hl])]
    rw [eraseDups_concat_of_not_mem hl, ← List.append_assoc, ← List.append_assoc]
    by_cases hk : a ∈ k
    · rw [eraseDups_concat_of_mem (by simp [hk]), eraseDups_concat_of_mem (by simp [hk]), ih]
    · rw [eraseDups_concat_of_not_mem (by simp [hk, hl]), eraseDups_concat_of_not_mem (by simp [hk, hl]), ih]

theorem eraseDups_append_eraseDups_left (k l : List String) : (k.eraseDups ++ l).eraseDups = (k ++ l).eraseDups := by
  induction l using List.reverseRecOn with
  | nil =>
    rw [List.append_nil, List.append_nil]
    exact eraseDups_append_eraseDups_right [] k
  | append_singleton l a ih =>
    rw [← List.append_assoc, ← List.append_assoc]
    by_cases h : a ∈ k ++ l
    · have h' : a ∈ k.eraseDups ++ l := by simpa using h
      rw [eraseDups_concat_of_mem h, eraseDups_concat_of_mem h', ih]
    · have h' : a ∉ k.eraseDups ++ l := by simpa using h
      rw [eraseDups_concat_of_not_mem h, eraseDups_concat_of_not_mem h', ih]

/-- Where an element repeats there is a first one that does: all before it are different and it is among them. -/
theorem exists_first_repeat {β : Type} (f : β → String) (xs : List β) (h : ¬(xs.map f).Nodup) :
    ∃ before x after, xs = before ++ x :: after ∧ (before.map f).Nodup ∧ f x ∈ before.map f := by
  induction xs using List.reverseRecOn with
  | nil => simp at h
  | append_singleton xs x ih =>
    by_cases hxs : (xs.map f).Nodup
    · refine ⟨xs, x, [], rfl, hxs, ?_⟩
      by_contra hnew
      apply h
      rw [List.map_append, List.map_singleton, ← List.concat_eq_append, List.nodup_concat]
      exact ⟨hnew, hxs⟩
    · obtain ⟨before, y, after, rfl, hbefore, hy⟩ := ih hxs
      exact ⟨before, y, after ++ [x], by simp, hbefore, hy⟩

/-- The names that are in a list before, each as often as it comes again. -/
def repeatedNames (names : List String) : List String :=
  (names.zipIdx.filter fun p => p.1 ∈ names.take p.2).map Prod.fst

theorem repeatedNames_concat (l : List String) (a : String) :
    repeatedNames (l ++ [a]) = repeatedNames l ++ if a ∈ l then [a] else [] := by
  have hfront : (l.zipIdx.filter fun p => p.1 ∈ (l ++ [a]).take p.2) = l.zipIdx.filter fun p => p.1 ∈ l.take p.2 := by
    apply List.filter_congr
    intro p hp
    have hlt : p.2 < l.length := List.snd_lt_of_mem_zipIdx hp
    rw [List.take_append_of_le_length (Nat.le_of_lt hlt)]
  have hlast : ([a].zipIdx (0 + l.length)).filter (fun p => p.1 ∈ (l ++ [a]).take p.2)
      = if a ∈ l then [(a, l.length)] else [] := by
    simp [List.filter_singleton]
  rw [repeatedNames, List.zipIdx_append, List.filter_append, hfront, hlast, List.map_append, repeatedNames]
  split <;> rfl

/-- Each name of a list comes for the first time or comes again. -/
theorem length_repeatedNames_add (l : List String) : (repeatedNames l).length + l.eraseDups.length = l.length := by
  induction l using List.reverseRecOn with
  | nil => rfl
  | append_singleton l a ih =>
    rw [repeatedNames_concat]
    by_cases h : a ∈ l
    · rw [eraseDups_concat_of_mem h, if_pos h, List.length_append, List.length_append, List.length_singleton]
      omega
    · rw [eraseDups_concat_of_not_mem h, if_neg h, List.append_nil, List.length_append, List.length_append,
        List.length_singleton]
      omega

theorem repeatedNames_eq_nil_iff : repeatedNames l = [] ↔ l.Nodup := by
  induction l using List.reverseRecOn with
  | nil => simp [repeatedNames]
  | append_singleton l a ih =>
    rw [repeatedNames_concat, List.append_eq_nil_iff, ih, ← List.concat_eq_append, List.nodup_concat, and_comm]
    simp

end Occurrences

/-! ## Definitions put together -/

/-- Definitions with those of one name put together: each name once, where it is first defined, with the alternatives
of all its definitions in order. -/
def merged (defs : List Rule) : List Rule :=
  (defs.map Rule.name).eraseDups.map fun n =>
    ⟨n, (defs.filter fun r => r.name = n).flatMap Rule.alternatives⟩

theorem names_merged (defs : List Rule) : (merged defs).map Rule.name = (defs.map Rule.name).eraseDups := by
  simp [merged, Function.comp_def]

/-- A definition of a new name is one more rule. -/
theorem merged_concat_of_not_mem {defs : List Rule} {r : Rule} (h : r.name ∉ defs.map Rule.name) :
    merged (defs ++ [r]) = merged defs ++ [r] := by
  rw [merged, List.map_append, List.map_singleton, eraseDups_concat_of_not_mem h, List.map_append, List.map_singleton]
  congr 1
  · apply List.map_congr_left
    intro n hn
    have hne : r.name ≠ n := by
      intro heq
      rw [heq] at h
      exact h (List.mem_eraseDups.mp hn)
    simp [hne]
  · have hnone : (defs.filter fun d => d.name = r.name) = [] := by
      rw [List.filter_eq_nil_iff]
      intro d hd heq
      apply h
      rw [← of_decide_eq_true heq]
      exact List.mem_map_of_mem hd
    simp [hnone]

/-- A definition of a name that is there adds its alternatives to the rule of that name. -/
theorem merged_concat_of_mem {defs : List Rule} {r : Rule} {i : Nat}
    (hdup : (defs.map Rule.name).eraseDups.Nodup) (hi : (defs.map Rule.name).eraseDups[i]? = some r.name) :
    merged (defs ++ [r]) = (merged defs).modify i fun d => ⟨d.name, d.alternatives ++ r.alternatives⟩ := by
  have hmem : r.name ∈ defs.map Rule.name := List.mem_eraseDups.mp (List.mem_of_getElem? hi)
  rw [merged, List.map_append, List.map_singleton, eraseDups_concat_of_mem hmem]
  apply List.ext_getElem?
  intro j
  rw [merged, List.getElem?_modify, List.getElem?_map, List.getElem?_map]
  cases hj : (defs.map Rule.name).eraseDups[j]? with
  | none => rfl
  | some n =>
    by_cases hij : i = j
    · obtain rfl : r.name = n := by
        rw [← hij, hi, Option.some_inj] at hj
        exact hj
      simp [hij]
    · have hne : r.name ≠ n := by
        intro heq
        rw [← heq] at hj
        have hlt : i < (defs.map Rule.name).eraseDups.length := (List.getElem?_eq_some_iff.mp hi).1
        exact hij ((List.getElem?_inj hlt hdup).mp (hi.trans hj.symm))
      simp [hij, hne]

theorem merged_of_nodup {defs : List Rule} (h : (defs.map Rule.name).Nodup) : merged defs = defs := by
  induction defs using List.reverseRecOn with
  | nil => rfl
  | append_singleton defs r ih =>
    rw [List.map_append, List.map_singleton, ← List.concat_eq_append, List.nodup_concat] at h
    obtain ⟨hnew, hdefs⟩ := h
    rw [merged_concat_of_not_mem hnew, ih hdefs]

/-! ## The building loop -/

/-- A sound table whose rules are some definitions put together. -/
structure Holds (t : RuleTable) (defs : List Rule) : Prop where
  rules : t.rules.toList = merged defs
  indexed : t.Indexed

namespace Holds

variable {t u : RuleTable} {defs : List Rule} {r : Rule}

theorem empty : RuleTable.empty.Holds [] :=
  ⟨rfl, indexed_empty⟩

theorem names_eq (h : t.Holds defs) : t.names = (defs.map Rule.name).eraseDups := by
  rw [names, h.rules, names_merged]

theorem position?_eq_none_iff (h : t.Holds defs) {n : String} :
    t.position? n = none ↔ n ∉ defs.map Rule.name := by
  rw [h.indexed.position?_eq_none_iff, h.names_eq, List.mem_eraseDups]

theorem get?_eq (h : t.Holds defs) {n : String} (hn : n ∈ t.names) :
    t.get? n = some ⟨n, (defs.filter fun r => r.name = n).flatMap Rule.alternatives⟩ := by
  obtain ⟨i, hi⟩ := List.mem_iff_getElem?.mp hn
  have hplace : (defs.map Rule.name).eraseDups[i]? = some n := by rwa [← h.names_eq]
  rw [get?, (h.indexed n i).mpr hi, Option.bind_some, ← Array.getElem?_toList, h.rules, merged, List.getElem?_map,
    hplace]
  rfl

/-- A rule of the table has the name of a definition, and no alternative but those of definitions. -/
theorem of_mem (h : t.Holds defs) (hr : r ∈ t.rules) :
    (∃ d ∈ defs, d.name = r.name ∧ ∀ alternative ∈ d.alternatives, alternative ∈ r.alternatives) ∧
      ∀ alternative ∈ r.alternatives, ∃ d ∈ defs, alternative ∈ d.alternatives := by
  have hmem : r ∈ merged defs := by
    rw [← h.rules]
    exact Array.mem_toList_iff.mpr hr
  obtain ⟨n, hn, rfl⟩ := List.mem_map.mp hmem
  obtain ⟨d, hd, rfl⟩ := List.mem_map.mp (List.mem_eraseDups.mp hn)
  refine ⟨⟨d, hd, rfl, fun alternative halternative => ?_⟩, fun alternative halternative => ?_⟩
  · exact List.mem_flatMap.mpr ⟨d, List.mem_filter.mpr ⟨hd, by simp⟩, halternative⟩
  · obtain ⟨e, he, hmem⟩ := List.mem_flatMap.mp halternative
    exact ⟨e, (List.mem_filter.mp he).1, hmem⟩

theorem unique (ht : t.Holds defs) (hu : u.Holds defs) : t = u := by
  apply ht.indexed.eq_of_rules_eq hu.indexed
  rw [← Array.toList_inj, ht.rules, hu.rules]

theorem push (h : t.Holds defs) (hnew : r.name ∉ defs.map Rule.name) : (t.push r).Holds (defs ++ [r]) := by
  constructor
  · rw [RuleTable.push, Array.toList_push, h.rules, merged_concat_of_not_mem hnew]
  · exact indexed_push h.indexed (h.position?_eq_none_iff.mpr hnew)

theorem extend {i : Nat} (h : t.Holds defs) (hi : t.position? r.name = some i) :
    (t.extend i r.alternatives).Holds (defs ++ [r]) := by
  constructor
  · have hdup : (defs.map Rule.name).eraseDups.Nodup := by
      rw [← h.names_eq]
      exact h.indexed.nodup_names
    have hplace : (defs.map Rule.name).eraseDups[i]? = some r.name := by
      rw [← h.names_eq]
      exact (h.indexed r.name i).mp hi
    rw [RuleTable.extend, Array.toList_modify, h.rules, merged_concat_of_mem hdup hplace]
  · exact indexed_extend h.indexed i r.alternatives

end Holds

variable {settings : Settings} {t : RuleTable} {tokens : List Token} {defs before : List Rule}

theorem result_add (settings : Settings) (t : RuleTable) (r : Rule) :
    (add settings t r).result =
      match t.position? r.name, settings.repeats with
      | none, _ => .ok (t.push r)
      | some _, .refused => .error (.redefinition settings.grammar r.name)
      | some i, .merged => .ok (t.extend i r.alternatives) := by
  unfold add
  cases t.position? r.name with
  | none => rfl
  | some i => cases settings.repeats <;> rfl

theorem result_foldlM_cons (settings : Settings) (t : RuleTable) (r : Rule) (defs : List Rule) :
    ((r :: defs).foldlM (add settings) t).result =
      (add settings t r).result.bind fun u => (defs.foldlM (add settings) u).result := by
  rw [List.foldlM_cons, Attempt.result_bind]

/-- **Merging never fails**, and no definition is lost, repeated or put in another's place. -/
theorem result_foldlM_merged (hmerged : settings.repeats = .merged) (h : t.Holds before) (defs : List Rule) :
    ∃ u, (defs.foldlM (add settings) t).result = .ok u ∧ u.Holds (before ++ defs) := by
  induction defs generalizing t before with
  | nil => exact ⟨t, rfl, by rwa [List.append_nil]⟩
  | cons r defs ih =>
    rw [result_foldlM_cons, result_add, hmerged]
    cases hplace : t.position? r.name with
    | none =>
      have hstep := h.push (h.position?_eq_none_iff.mp hplace)
      obtain ⟨u, hu, hholds⟩ := ih hstep
      exact ⟨u, hu, by rwa [List.append_cons]⟩
    | some i =>
      obtain ⟨u, hu, hholds⟩ := ih (h.extend hplace)
      exact ⟨u, hu, by rwa [List.append_cons]⟩

/-- Where no name repeats the settings do not matter. -/
theorem result_foldlM_of_nodup (settings : Settings) (h : t.Holds before) (defs : List Rule)
    (hdup : ((before ++ defs).map Rule.name).Nodup) :
    ∃ u, (defs.foldlM (add settings) t).result = .ok u ∧ u.Holds (before ++ defs) := by
  induction defs generalizing t before with
  | nil => exact ⟨t, rfl, by rwa [List.append_nil]⟩
  | cons r defs ih =>
    rw [List.append_cons] at hdup
    have hnew : r.name ∉ before.map Rule.name := by
      have hfront := hdup
      rw [List.map_append, List.map_append, List.map_singleton, List.nodup_append, ← List.concat_eq_append,
        List.nodup_concat] at hfront
      exact hfront.1.1
    obtain ⟨u, hu, hholds⟩ := ih (h.push hnew) hdup
    rw [result_foldlM_cons, result_add, h.position?_eq_none_iff.mpr hnew]
    exact ⟨u, hu, by rwa [List.append_cons]⟩

/-- Refusing stops at the first definition of a name that is there. -/
theorem result_foldlM_refused_repeat (hrefused : settings.repeats = .refused) (r : Rule) (after : List Rule)
    (hdup : (defs.map Rule.name).Nodup) (hrepeat : r.name ∈ defs.map Rule.name) :
    ((defs ++ r :: after).foldlM (add settings) RuleTable.empty).result =
      .error (.redefinition settings.grammar r.name) := by
  obtain ⟨u, hu, hholds⟩ := result_foldlM_of_nodup settings Holds.empty defs hdup
  have hplace : u.position? r.name ≠ none := fun hnone => hholds.position?_eq_none_iff.mp hnone hrepeat
  rw [List.foldlM_append, Attempt.result_bind, hu]
  show ((r :: after).foldlM (add settings) u).result = _
  rw [result_foldlM_cons, result_add, hrefused]
  cases hi : u.position? r.name with
  | none => exact absurd hi hplace
  | some i => rfl

/-! ## Tables from tokens -/

/-- The tokens are grouped first, and an error there comes before any repeated name. -/
theorem ofTokens_eq (settings : Settings) (tokens : List Token) :
    ofTokens settings tokens =
      ((Grouping.rules tokens).mapError .grouping).bind fun defs =>
        (defs.foldlM (add settings) RuleTable.empty).result := by
  rw [ofTokens, building, Attempt.result_bind, Attempt.result_mapError, Attempt.result_ofExcept]
  congr 1
  funext defs
  rw [Attempt.result_bind]
  cases (defs.foldlM (add settings) RuleTable.empty).result <;> rfl

/-- The table is a matter of the rules that the tokens are grouped into, the grammar's name and the policy. -/
theorem ofTokens_congr {s s' : Settings} {us : List Token} (hgrammar : s.grammar = s'.grammar)
    (hrepeats : s.repeats = s'.repeats) (hrules : Grouping.rules tokens = Grouping.rules us) :
    ofTokens s tokens = ofTokens s' us := by
  have hadd : add s = add s' := by
    funext t r
    simp only [add, hgrammar, hrepeats]
  rw [ofTokens_eq, ofTokens_eq, hrules, hadd]

theorem ofTokens_of_rules_error {e : GroupingError} (h : Grouping.rules tokens = .error e)
    (settings : Settings) : ofTokens settings tokens = .error (.grouping e) := by
  rw [ofTokens_eq, h]
  rfl

theorem ofTokens_of_rules_ok (h : Grouping.rules tokens = .ok defs) (settings : Settings) :
    ofTokens settings tokens = (defs.foldlM (add settings) RuleTable.empty).result := by
  rw [ofTokens_eq, h]
  rfl

/-- Under merging, tokens that can be grouped make a table that holds their definitions. -/
theorem exists_ofTokens_merged (settings : Settings) (hmerged : settings.repeats = .merged)
    (h : Grouping.rules tokens = .ok defs) : ∃ t, ofTokens settings tokens = .ok t ∧ t.Holds defs := by
  obtain ⟨t, ht, hholds⟩ := result_foldlM_merged hmerged Holds.empty defs
  rw [ofTokens_of_rules_ok h]
  exact ⟨t, ht, hholds⟩

/-- Under either policy, tokens without a repeated name make a table that holds their definitions. -/
theorem exists_ofTokens_of_nodup (settings : Settings) (h : Grouping.rules tokens = .ok defs)
    (hdup : (defs.map Rule.name).Nodup) :
    ∃ t, ofTokens settings tokens = .ok t ∧ t.Holds defs := by
  obtain ⟨t, ht, hholds⟩ := result_foldlM_of_nodup settings Holds.empty defs hdup
  rw [ofTokens_of_rules_ok h]
  exact ⟨t, ht, hholds⟩

/-- Under refusal, tokens with a repeated name make no table, and the first repetition is told. -/
theorem exists_ofTokens_refused_of_repeat (settings : Settings) (hrefused : settings.repeats = .refused)
    (h : Grouping.rules tokens = .ok defs) (hdup : ¬(defs.map Rule.name).Nodup) :
    ∃ before r after, defs = before ++ r :: after ∧ (before.map Rule.name).Nodup ∧
      r.name ∈ before.map Rule.name ∧
      ofTokens settings tokens = .error (.redefinition settings.grammar r.name) := by
  obtain ⟨before, r, after, rfl, hbefore, hrepeat⟩ := exists_first_repeat Rule.name defs hdup
  refine ⟨before, r, after, rfl, hbefore, hrepeat, ?_⟩
  rw [ofTokens_of_rules_ok h, result_foldlM_refused_repeat hrefused r after hbefore hrepeat]

/-- **Every table holds the definitions it was built from**, whatever the settings. -/
theorem exists_holds_of_ofTokens (h : ofTokens settings tokens = .ok t) :
    ∃ defs, Grouping.rules tokens = .ok defs ∧ t.Holds defs := by
  obtain ⟨defs, hgrouped, -⟩ := Except.bind_eq_ok_iff.mp ((ofTokens_eq settings tokens).symm.trans h)
  have hrules := Except.mapError_eq_ok_iff.mp hgrouped
  refine ⟨defs, hrules, ?_⟩
  by_cases hdup : (defs.map Rule.name).Nodup
  · obtain ⟨u, hu, hholds⟩ := exists_ofTokens_of_nodup settings hrules hdup
    obtain rfl : t = u := Except.ok.inj (h.symm.trans hu)
    exact hholds
  · cases hrepeats : settings.repeats with
    | merged =>
      obtain ⟨u, hu, hholds⟩ := exists_ofTokens_merged settings hrepeats hrules
      obtain rfl : t = u := Except.ok.inj (h.symm.trans hu)
      exact hholds
    | refused =>
      obtain ⟨before, r, after, -, -, -, herror⟩ := exists_ofTokens_refused_of_repeat settings hrepeats hrules hdup
      rw [h] at herror
      cases herror

/-- **A table is made exactly of definitions that it holds**, and under refusal no name repeats among them. -/
theorem ofTokens_eq_ok_iff :
    ofTokens settings tokens = .ok t ↔
      ∃ defs, Grouping.rules tokens = .ok defs ∧ t.Holds defs ∧
        (settings.repeats = .merged ∨ (defs.map Rule.name).Nodup) := by
  constructor
  · intro h
    obtain ⟨defs, hdefs, hholds⟩ := exists_holds_of_ofTokens h
    refine ⟨defs, hdefs, hholds, ?_⟩
    by_cases hdup : (defs.map Rule.name).Nodup
    · exact .inr hdup
    · cases hrepeats : settings.repeats with
      | merged => exact .inl rfl
      | refused =>
        obtain ⟨-, r, -, -, -, -, herror⟩ := exists_ofTokens_refused_of_repeat settings hrepeats hdefs hdup
        rw [h] at herror
        cases herror
  · intro h
    obtain ⟨defs, hdefs, hholds, hpolicy⟩ := h
    have hmade : ∃ u, ofTokens settings tokens = .ok u ∧ u.Holds defs := by
      rcases hpolicy with hmerged | hdup
      · exact exists_ofTokens_merged settings hmerged hdefs
      · exact exists_ofTokens_of_nodup settings hdefs hdup
    obtain ⟨u, hu, hsame⟩ := hmade
    rw [hu, hsame.unique hholds]

/-- The name of the grammar does not bear on the table. -/
theorem ofTokens_eq_ok_congr {s s' : Settings} (hrepeats : s.repeats = s'.repeats) :
    ofTokens s tokens = .ok t ↔ ofTokens s' tokens = .ok t := by
  rw [ofTokens_eq_ok_iff, ofTokens_eq_ok_iff, hrepeats]

/-- **What the two policies make of tokens.**  An error of grouping is the error under both.  Otherwise merging gives
a table that holds the definitions; refusing gives the same table, whose rules are then just the definitions, if no
name repeats, and else names the first definition whose name is there before it. -/
theorem ofTokens_repeats (settings : Settings) (tokens : List Token) :
    (∀ e, Grouping.rules tokens = .error e → ∀ repeats : Repeats,
      ofTokens { settings with repeats := repeats } tokens = .error (.grouping e)) ∧
    ∀ defs, Grouping.rules tokens = .ok defs →
      ∃ t, ofTokens { settings with repeats := .merged } tokens = .ok t ∧
        t.names = (defs.map Rule.name).eraseDups ∧
        (∀ n ∈ t.names, t.get? n = some ⟨n, (defs.filter fun r => r.name = n).flatMap Rule.alternatives⟩) ∧
        t.rules.toList = merged defs ∧
        ((defs.map Rule.name).Nodup →
          t.rules.toList = defs ∧ ofTokens { settings with repeats := .refused } tokens = .ok t) ∧
        (¬(defs.map Rule.name).Nodup →
          ∃ before r after, defs = before ++ r :: after ∧ (before.map Rule.name).Nodup ∧
            r.name ∈ before.map Rule.name ∧
            ofTokens { settings with repeats := .refused } tokens =
              .error (.redefinition settings.grammar r.name)) := by
  refine ⟨fun e he repeats => ofTokens_of_rules_error he _, fun defs hdefs => ?_⟩
  obtain ⟨t, ht, hholds⟩ := exists_ofTokens_merged { settings with repeats := .merged } rfl hdefs
  refine ⟨t, ht, hholds.names_eq, fun n hn => hholds.get?_eq hn, hholds.rules, fun hdup => ⟨?_, ?_⟩, fun hdup => ?_⟩
  · rw [hholds.rules, merged_of_nodup hdup]
  · obtain ⟨u, hu, hsame⟩ := exists_ofTokens_of_nodup { settings with repeats := .refused } hdefs hdup
    rw [hu, hholds.unique hsame]
  · exact exists_ofTokens_refused_of_repeat { settings with repeats := .refused } rfl hdefs hdup

/-- Two definitions of `a` with one of `b` between them, and two of different names. -/
theorem ofTokens_repeats_interleaved :
    ofTokens { repeats := .refused } [.name "a", .assignment, .endOfLine] = .error (.grouping (.emptyRule "a")) ∧
    (∃ t, ofTokens { repeats := .merged }
        [.name "a", .assignment, .literal "1", .endOfLine, .name "b", .assignment, .literal "2", .endOfLine,
          .name "a", .assignment, .literal "3", .endOfLine] = .ok t ∧
      t.names = ["a", "b"] ∧ t.get? "a" = some ⟨"a", [[.literal "1"], [.literal "3"]]⟩) ∧
    ofTokens { repeats := .refused }
        [.name "a", .assignment, .literal "1", .endOfLine, .name "b", .assignment, .literal "2", .endOfLine,
          .name "a", .assignment, .literal "3", .endOfLine] = .error (.redefinition unnamedGrammar "a") ∧
    ∃ t, ofTokens { repeats := .refused }
        [.name "a", .assignment, .literal "1", .endOfLine, .name "b", .assignment, .literal "2", .endOfLine] = .ok t ∧
      t.rules.toList = [⟨"a", [[.literal "1"]]⟩, ⟨"b", [[.literal "2"]]⟩] := by
  have hnone := (ofTokens_repeats {} _).1 (.emptyRule "a")
    (by decide +kernel : Grouping.rules [.name "a", .assignment, .endOfLine] = _) .refused
  obtain ⟨t, ht, hnames, hget, -, -, hrefused⟩ := (ofTokens_repeats {} _).2
    [⟨"a", [[.literal "1"]]⟩, ⟨"b", [[.literal "2"]]⟩, ⟨"a", [[.literal "3"]]⟩]
    (by decide +kernel : Grouping.rules
      [.name "a", .assignment, .literal "1", .endOfLine, .name "b", .assignment, .literal "2", .endOfLine,
        .name "a", .assignment, .literal "3", .endOfLine] = _)
  obtain ⟨u, -, -, -, -, hdistinct, -⟩ := (ofTokens_repeats {} _).2
    [⟨"a", [[.literal "1"]]⟩, ⟨"b", [[.literal "2"]]⟩]
    (by decide +kernel : Grouping.rules
      [.name "a", .assignment, .literal "1", .endOfLine, .name "b", .assignment, .literal "2", .endOfLine] = _)
  have hab : t.names = ["a", "b"] := hnames.trans (by decide +kernel)
  have ha : t.get? "a" = some ⟨"a", [[.literal "1"], [.literal "3"]]⟩ :=
    (hget "a" (by rw [hab]; decide)).trans (by decide +kernel)
  obtain ⟨before, r, after, hdefs, -, hrepeat, herror⟩ := hrefused (by decide +kernel)
  obtain ⟨hrules, hu⟩ := hdistinct (by decide +kernel)
  have hr : r.name = "a" := by
    -- the repetition is the third definition: the first two names are not repeated
    rcases before with _ | ⟨x, _ | ⟨y, _ | ⟨z, before⟩⟩⟩ <;> simp at hdefs hrepeat
    · obtain ⟨rfl, rfl, -⟩ := hdefs
      simp at hrepeat
    · obtain ⟨-, -, rfl, -⟩ := hdefs
      rfl
  rw [hr] at herror
  exact ⟨hnone, ⟨t, ht, hab, ha⟩, herror, u, hu, hrules⟩

end GrammarText.RuleTable
