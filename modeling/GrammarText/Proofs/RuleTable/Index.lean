import GrammarText.RuleTable

/-!
# The index of a rule table

A table is sound if its index has each name at the place of the rule with that name, and nothing else:
`RuleTable.Indexed`.  The empty table is sound, and both ways in which a definition enters a table keep it so
(`indexed_push`, `indexed_extend`).  In a sound table

* no two rules have the same name (`Indexed.nodup_names`);
* a look-up finds a rule exactly for the names of the table (`Indexed.position?_eq_none_iff`);
* the rules determine the index, so that sound tables with the same rules are the same (`Indexed.eq_of_rules_eq`).
-/

namespace GrammarText.RuleTable

/-- The index has the name of every rule at its place, and no other name. -/
def Indexed (t : RuleTable) : Prop :=
  ∀ (n : String) (i : Nat), t.position? n = some i ↔ t.names[i]? = some n

theorem length_names (t : RuleTable) : t.names.length = t.rules.size := by
  rw [names, List.length_map, Array.length_toList]

theorem names_push (t : RuleTable) (r : Rule) : (t.push r).names = t.names ++ [r.name] := by
  simp [names, push]

theorem names_extend (t : RuleTable) (i : Nat) (more : List (List Term)) : (t.extend i more).names = t.names := by
  apply List.ext_getElem?
  intro j
  simp only [names, extend, Array.toList_modify, List.getElem?_map, List.getElem?_modify]
  cases t.rules.toList[j]? with
  | none => rfl
  | some r => by_cases h : i = j <;> simp [h]

theorem position?_push (t : RuleTable) (r : Rule) (n : String) :
    (t.push r).position? n = if r.name = n then some t.rules.size else t.position? n := by
  rw [position?, push, Std.ExtTreeMap.getElem?_insert]
  simp only [Std.LawfulEqCmp.compare_eq_iff_eq, position?]

/-! ## How a table stays sound -/

theorem indexed_empty : empty.Indexed := by
  intro n i
  simp [position?, empty, names]

/-- A new name gets the place after all others. -/
theorem indexed_push {t : RuleTable} {r : Rule} (h : t.Indexed) (hnew : t.position? r.name = none) :
    (t.push r).Indexed := by
  intro n i
  rw [position?_push, names_push, ← length_names]
  rcases Nat.lt_trichotomy i t.names.length with hi | hi | hi
  · rw [List.getElem?_append_left hi]
    by_cases hn : r.name = n
    · subst hn
      rw [if_pos rfl, ← h r.name i, hnew]
      simp only [Option.some_inj, reduceCtorEq, iff_false]
      omega
    · rw [if_neg hn]
      exact h n i
  · subst hi
    rw [List.getElem?_concat_length, Option.some_inj]
    by_cases hn : r.name = n
    · simp [hn]
    · rw [if_neg hn, h n, List.getElem?_eq_none (Nat.le_refl _)]
      simp [hn]
  · have hpast : (t.names ++ [r.name])[i]? = none := by
      apply List.getElem?_eq_none
      rw [List.length_append, List.length_singleton]
      omega
    rw [hpast]
    by_cases hn : r.name = n
    · rw [if_pos hn, Option.some_inj]
      simp only [reduceCtorEq, iff_false]
      omega
    · rw [if_neg hn, h n, List.getElem?_eq_none (by omega)]

theorem indexed_extend {t : RuleTable} (h : t.Indexed) (i : Nat) (more : List (List Term)) :
    (t.extend i more).Indexed := by
  intro n j
  rw [names_extend]
  exact h n j

/-! ## What a sound table is like -/

namespace Indexed

variable {t u : RuleTable}

theorem nodup_names (h : t.Indexed) : t.names.Nodup := by
  rw [List.Nodup, List.pairwise_iff_getElem]
  intro i j hi hj hlt heq
  have hi' : t.position? t.names[i] = some i := (h _ _).mpr (List.getElem?_eq_getElem hi)
  have hj' : t.position? t.names[j] = some j := (h _ _).mpr (List.getElem?_eq_getElem hj)
  rw [heq, hj', Option.some_inj] at hi'
  omega

theorem position?_eq_none_iff (h : t.Indexed) {n : String} : t.position? n = none ↔ n ∉ t.names := by
  rw [List.mem_iff_getElem?, not_exists, Option.eq_none_iff_forall_ne_some]
  constructor
  · intro hnone i hi
    exact hnone i ((h n i).mpr hi)
  · intro hnone i hi
    exact hnone i ((h n i).mp hi)

/-- **The rules of a sound table determine it**, index included. -/
theorem eq_of_rules_eq (ht : t.Indexed) (hu : u.Indexed) (hrules : t.rules = u.rules) : t = u := by
  have hindex : t.index = u.index := by
    apply Std.ExtTreeMap.ext_getElem?
    intro n
    have hnames : t.names = u.names := by rw [names, hrules, names]
    apply Option.ext
    intro i
    show t.position? n = some i ↔ u.position? n = some i
    rw [ht n i, hu n i, hnames]
  cases t
  cases u
  cases hrules
  cases hindex
  rfl

end Indexed

end GrammarText.RuleTable
