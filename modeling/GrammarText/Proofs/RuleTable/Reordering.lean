import GrammarText.Proofs.RuleTable.Lookup

/-!
# Definitions in another order

A table answers by name, and its answer for a name is made of the definitions of that name alone
(`Holds.get?_eq_ite`).  So definitions may change places, as long as those of one name keep their order among
themselves: `SameByName`.

* `SameByName.perm`: such definitions are the others in another order, so that a name repeats in both or in neither;
* `Indexed.perm_rules`: sound tables with the same look-ups have the same rules in some order, and from that the same
  number of rules and the same undefined names (`AgreeByName.of_get?`);
* `ofTokens_of_sameByName`: the tables of two token lists with such definitions, under either policy.
-/

namespace GrammarText.RuleTable

/-! ## Definitions -/

/-- Definitions of which those of each name are the same, in the same order. -/
def SameByName (defs others : List Rule) : Prop :=
  ∀ n : String, (defs.filter fun r => r.name = n) = others.filter fun r => r.name = n

variable {defs others : List Rule}

theorem SameByName.perm (h : SameByName defs others) : defs.Perm others := by
  rw [List.perm_iff_count]
  intro r
  have hcount : ∀ rs : List Rule, (rs.filter fun d => d.name = r.name).count r = rs.count r :=
    fun rs => List.count_filter (by simp)
  rw [← hcount defs, ← hcount others, h r.name]

theorem SameByName.nodup_iff (h : SameByName defs others) :
    (defs.map Rule.name).Nodup ↔ (others.map Rule.name).Nodup :=
  (h.perm.map Rule.name).nodup_iff

/-! ## Tables -/

/-- Tables that answer alike for every name, with as many rules and with the same undefined names in some order. -/
structure AgreeByName (t u : RuleTable) : Prop where
  get? : ∀ n, t.get? n = u.get? n
  size : t.size = u.size
  undefinedNames : t.undefinedNames.Perm u.undefinedNames

variable {t u : RuleTable}

/-- **What a table has for a name is made of the definitions of that name alone.** -/
theorem Holds.get?_eq_ite (h : t.Holds defs) (n : String) :
    t.get? n = if (defs.filter fun r => r.name = n) = [] then none
      else some ⟨n, (defs.filter fun r => r.name = n).flatMap Rule.alternatives⟩ := by
  have hnames : n ∈ t.names ↔ ¬(defs.filter fun r => r.name = n) = [] := by
    rw [h.names_eq, List.mem_eraseDups, List.filter_eq_nil_iff]
    simp
  by_cases hn : n ∈ t.names
  · rw [if_neg (hnames.mp hn), h.get?_eq hn]
  · have hnone : t.get? n = none := by
      rw [← Option.not_isSome_iff_eq_none, h.indexed.isSome_get?_iff]
      exact hn
    rw [if_pos (not_not.mp fun hne => hn (hnames.mpr hne)), hnone]

theorem Indexed.mem_rules_iff (h : t.Indexed) {r : Rule} : r ∈ t.rules.toList ↔ t.get? r.name = some r := by
  rw [h.get?_eq_some_iff, Array.mem_toList_iff]
  simp

/-- Sound tables with the same look-ups have the same rules, in some order. -/
theorem Indexed.perm_rules (ht : t.Indexed) (hu : u.Indexed) (h : ∀ n, t.get? n = u.get? n) :
    t.rules.toList.Perm u.rules.toList := by
  rw [List.perm_ext_iff_of_nodup ht.nodup_names.of_map hu.nodup_names.of_map]
  intro r
  rw [ht.mem_rules_iff, hu.mem_rules_iff, h r.name]

theorem perm_eraseDups {l l' : List String} (h : l.Perm l') : l.eraseDups.Perm l'.eraseDups := by
  rw [List.perm_ext_iff_of_nodup (nodup_eraseDups l) (nodup_eraseDups l')]
  intro n
  rw [List.mem_eraseDups, List.mem_eraseDups, h.mem_iff]

/-- **Sound tables agree by name as soon as their look-ups do.** -/
theorem AgreeByName.of_get? (ht : t.Indexed) (hu : u.Indexed) (h : ∀ n, t.get? n = u.get? n) : AgreeByName t u := by
  have hrules := ht.perm_rules hu h
  have hcontains : t.contains = u.contains := by
    funext n
    rw [ht.contains_eq, hu.contains_eq, h n]
  refine ⟨h, ?_, ?_⟩
  · show t.rules.size = u.rules.size
    rw [← Array.length_toList, ← Array.length_toList, hrules.length_eq]
  · have hreferences : (t.rules.toList.flatMap Rule.references).Perm (u.rules.toList.flatMap Rule.references) :=
      hrules.flatMap fun r _ => .refl _
    simp only [RuleTable.undefinedNames, hcontains]
    exact perm_eraseDups (hreferences.filter _)

theorem Holds.agreeByName (ht : t.Holds defs) (hu : u.Holds others) (h : SameByName defs others) : AgreeByName t u := by
  apply AgreeByName.of_get? ht.indexed hu.indexed
  intro n
  rw [ht.get?_eq_ite, hu.get?_eq_ite, h n]

/-! ## Tables from tokens -/

/-- Under refusal there is a table exactly if no name repeats among the definitions. -/
theorem exists_ofTokens_refused_iff {tokens : List Token} (h : Grouping.rules tokens = .ok defs) (settings : Settings) :
    (∃ t, ofTokens { settings with repeats := .refused } tokens = .ok t) ↔ (defs.map Rule.name).Nodup := by
  constructor
  · intro hok
    obtain ⟨t, ht⟩ := hok
    by_contra hdup
    obtain ⟨-, r, -, -, -, -, herror⟩ :=
      exists_ofTokens_refused_of_repeat { settings with repeats := .refused } rfl h hdup
    rw [ht] at herror
    cases herror
  · intro hdup
    obtain ⟨t, ht, -⟩ := exists_ofTokens_of_nodup { settings with repeats := .refused } h hdup
    exact ⟨t, ht⟩

/-- **The order of definitions of different names does not bear on what a table says by name.** -/
theorem ofTokens_of_sameByName (settings : Settings) (ts us : List Token) (defs others : List Rule)
    (hts : Grouping.rules ts = .ok defs) (hus : Grouping.rules us = .ok others) (hsame : SameByName defs others) :
    (∃ t u, ofTokens { settings with repeats := .merged } ts = .ok t ∧
      ofTokens { settings with repeats := .merged } us = .ok u ∧ AgreeByName t u) ∧
    ((∃ t, ofTokens { settings with repeats := .refused } ts = .ok t) ↔
      ∃ u, ofTokens { settings with repeats := .refused } us = .ok u) ∧
    ∀ t u, ofTokens { settings with repeats := .refused } ts = .ok t →
      ofTokens { settings with repeats := .refused } us = .ok u → AgreeByName t u := by
  refine ⟨?_, ?_, fun t u ht hu => ?_⟩
  · obtain ⟨t, ht, hholds⟩ := exists_ofTokens_merged { settings with repeats := .merged } rfl hts
    obtain ⟨u, hu, hholds'⟩ := exists_ofTokens_merged { settings with repeats := .merged } rfl hus
    exact ⟨t, u, ht, hu, hholds.agreeByName hholds' hsame⟩
  · rw [exists_ofTokens_refused_iff hts, exists_ofTokens_refused_iff hus, hsame.nodup_iff]
  · obtain ⟨_, hdefs, hholds⟩ := exists_holds_of_ofTokens ht
    obtain ⟨_, hothers, hholds'⟩ := exists_holds_of_ofTokens hu
    obtain rfl := Except.ok.inj (hts.symm.trans hdefs)
    obtain rfl := Except.ok.inj (hus.symm.trans hothers)
    exact hholds.agreeByName hholds' hsame

/-- Two definitions of `a` with one of `b` after them and with it between them, merged; and definitions of `a` and `b`
in either order, which need no merging. -/
theorem ofTokens_of_sameByName_interleaved :
    SameByName [⟨"a", [[.literal "1"]]⟩, ⟨"a", [[.name "c"]]⟩, ⟨"b", [[.name "d"]]⟩]
      [⟨"a", [[.literal "1"]]⟩, ⟨"b", [[.name "d"]]⟩, ⟨"a", [[.name "c"]]⟩] ∧
    (∃ t u, ofTokens { repeats := .merged }
        [.name "a", .assignment, .literal "1", .endOfLine, .name "a", .assignment, .name "c", .endOfLine,
          .name "b", .assignment, .name "d", .endOfLine] = .ok t ∧
      ofTokens { repeats := .merged }
        [.name "a", .assignment, .literal "1", .endOfLine, .name "b", .assignment, .name "d", .endOfLine,
          .name "a", .assignment, .name "c", .endOfLine] = .ok u ∧
      AgreeByName t u) ∧
    SameByName [⟨"a", [[.name "c"]]⟩, ⟨"b", [[.name "d"]]⟩] [⟨"b", [[.name "d"]]⟩, ⟨"a", [[.name "c"]]⟩] ∧
    AgreeByName ((empty.push ⟨"a", [[.name "c"]]⟩).push ⟨"b", [[.name "d"]]⟩)
      ((empty.push ⟨"b", [[.name "d"]]⟩).push ⟨"a", [[.name "c"]]⟩) := by
  have hsame : SameByName [⟨"a", [[.literal "1"]]⟩, ⟨"a", [[.name "c"]]⟩, ⟨"b", [[.name "d"]]⟩]
      [⟨"a", [[.literal "1"]]⟩, ⟨"b", [[.name "d"]]⟩, ⟨"a", [[.name "c"]]⟩] := by
    intro n
    by_cases ha : "a" = n
    · simp [← ha]
    · simp [List.filter_cons, ha]
  have hswapped : SameByName [⟨"a", [[.name "c"]]⟩, ⟨"b", [[.name "d"]]⟩]
      [⟨"b", [[.name "d"]]⟩, ⟨"a", [[.name "c"]]⟩] := by
    intro n
    by_cases ha : "a" = n
    · simp [← ha]
    · simp [List.filter_cons, ha]
  obtain ⟨hmerged, -, -⟩ := ofTokens_of_sameByName {} _ _ _ _
    (by decide +kernel : Grouping.rules
      [.name "a", .assignment, .literal "1", .endOfLine, .name "a", .assignment, .name "c", .endOfLine,
        .name "b", .assignment, .name "d", .endOfLine] = _)
    (by decide +kernel : Grouping.rules
      [.name "a", .assignment, .literal "1", .endOfLine, .name "b", .assignment, .name "d", .endOfLine,
        .name "a", .assignment, .name "c", .endOfLine] = _) hsame
  obtain ⟨-, -, hrefused⟩ := ofTokens_of_sameByName {} _ _ _ _
    (by decide +kernel : Grouping.rules
      [.name "a", .assignment, .name "c", .endOfLine, .name "b", .assignment, .name "d", .endOfLine] = _)
    (by decide +kernel : Grouping.rules
      [.name "b", .assignment, .name "d", .endOfLine, .name "a", .assignment, .name "c", .endOfLine] = _) hswapped
  exact ⟨hsame, hmerged, hswapped, hrefused _ _ (by decide +kernel) (by decide +kernel)⟩

end GrammarText.RuleTable
