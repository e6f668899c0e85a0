import GrammarText.Proofs.Grouping.Bars
import GrammarText.Proofs.RuleTable.Repeats
import Mathlib.Data.Finset.Card

/-!
# Looking into a table that was built

A table that was built from tokens has a sound index, so every look-up comes out right.

* `Indexed.get?_eq_some_iff`: a look-up gives the rule of that name, and no other;
* `Grouping.declaredNames` are the names that stand before an assignment, and those of the rules that tokens are grouped
  into (`Grouping.names_of_rules`); a table has as many rules as there are different ones among them;
* `ne_nil_of_ofTokens`: every rule of a table has an alternative, and no empty one;
* `representation_of_ofTokens` is all this of any table, under either policy.
-/

namespace GrammarText

/-! ## Declared names -/

namespace Grouping

/-- The names that an assignment follows. -/
def declaredNames : List Token → List String
  | [] => []
  | .name n :: .assignment :: ts => n :: declaredNames ts
  | _ :: ts => declaredNames ts

theorem declaredNames_cons {ts : List Token} (h : ts.head? ≠ some .assignment) (t : Token) :
    declaredNames (t :: ts) = declaredNames ts := by
  rw [declaredNames]
  rintro n us - rfl
  exact h rfl

/-- Up to an end of line, a list without assignments declares no name. -/
theorem declaredNames_append {ts : List Token} (h : Token.assignment ∉ ts) (us : List Token) :
    declaredNames (ts ++ .endOfLine :: us) = declaredNames us := by
  induction ts with
  | nil => rfl
  | cons t ts ih =>
    have hrest : Token.assignment ∉ ts := fun hmem => h (List.mem_cons_of_mem t hmem)
    have hhead : (ts ++ .endOfLine :: us).head? ≠ some .assignment := by
      cases ts with
      | nil => simp
      | cons u ts =>
        intro hu
        rw [Option.some.inj hu] at hrest
        exact hrest List.mem_cons_self
    rw [List.cons_append, declaredNames_cons hhead, ih hrest]

theorem names_of_isGrammar {rs : List Rule} {ts : List Token} (h : IsGrammar rs ts) :
    rs.map Rule.name = declaredNames ts := by
  induction h with
  | nil => rfl
  | endOfLine _ ih => exact ih
  | comment text _ ih => exact ih
  | definition name hbody _ ih =>
    rw [List.map_cons, declaredNames, declaredNames_append (hbody.isBarred.marker_not_mem .assignment), ih]

/-- **The rules have the names that an assignment follows**, in order and as often. -/
theorem names_of_rules {rs : List Rule} {ts : List Token} (h : rules ts = .ok rs) :
    rs.map Rule.name = declaredNames ts :=
  names_of_isGrammar (rules_eq_ok_iff.mp h)

end Grouping

namespace RuleTable

variable {settings : Settings} {tokens : List Token} {t : RuleTable}

/-! ## Sound tables -/

namespace Indexed

theorem index_eq_some_iff (h : t.Indexed) {n : String} {i : Nat} :
    t.index[n]? = some i ↔ ∃ hi : i < t.rules.size, t.rules[i].name = n := by
  show t.position? n = some i ↔ _
  rw [h n i, names, List.getElem?_map, Array.getElem?_toList, Option.map_eq_some_iff]
  simp only [Array.getElem?_eq_some_iff, exists_exists_eq_and]

/-- The place of a name is in range, and a look-up gives the rule there. -/
theorem get?_of_index (h : t.Indexed) {n : String} {i : Nat} (hi : t.index[n]? = some i) :
    ∃ hi : i < t.rules.size, t.get? n = some t.rules[i] := by
  obtain ⟨hlt, -⟩ := h.index_eq_some_iff.mp hi
  refine ⟨hlt, ?_⟩
  rw [get?, position?, hi, Option.bind_some, Array.getElem?_eq_getElem hlt]

/-- **A look-up gives the rule of that name, and no other.** -/
theorem get?_eq_some_iff (h : t.Indexed) {n : String} {r : Rule} :
    t.get? n = some r ↔ r ∈ t.rules ∧ r.name = n := by
  constructor
  · intro hget
    obtain ⟨i, hi, hr⟩ := Option.bind_eq_some_iff.mp hget
    obtain ⟨hlt, rfl⟩ := h.index_eq_some_iff.mp hi
    rw [Array.getElem?_eq_getElem hlt, Option.some_inj] at hr
    subst hr
    exact ⟨Array.getElem_mem hlt, rfl⟩
  · intro hr
    obtain ⟨hmem, hname⟩ := hr
    obtain ⟨i, hlt, rfl⟩ := Array.mem_iff_getElem.mp hmem
    obtain ⟨_, hget⟩ := h.get?_of_index (h.index_eq_some_iff.mpr ⟨hlt, hname⟩)
    exact hget

theorem isSome_get?_iff (h : t.Indexed) {n : String} : (t.get? n).isSome = true ↔ n ∈ t.names := by
  rw [Option.isSome_iff_exists]
  simp only [h.get?_eq_some_iff, names, List.mem_map, Array.mem_toList_iff]

theorem contains_eq (h : t.Indexed) (n : String) : t.contains n = (t.get? n).isSome := by
  rw [contains]
  cases hi : t.position? n with
  | none => rw [get?, hi]; rfl
  | some i =>
    obtain ⟨_, hget⟩ := h.get?_of_index hi
    rw [hget]
    rfl

end Indexed

/-! ## Tables that were built -/

/-- Every rule of a table has an alternative, and no empty one. -/
theorem ne_nil_of_ofTokens (h : ofTokens settings tokens = .ok t) :
    ∀ r ∈ t.rules, r.alternatives ≠ [] ∧ ∀ alternative ∈ r.alternatives, alternative ≠ [] := by
  obtain ⟨defs, hdefs, hholds⟩ := exists_holds_of_ofTokens h
  have hne := Grouping.ne_nil_of_isGrammar (Grouping.rules_eq_ok_iff.mp hdefs)
  intro r hr
  obtain ⟨⟨d, hd, -, hall⟩, hfrom⟩ := hholds.of_mem hr
  constructor
  · obtain ⟨alternative, rest, hcons⟩ := List.exists_cons_of_ne_nil (hne d hd).1
    have hmem := hall alternative (by rw [hcons]; exact List.mem_cons_self)
    exact List.ne_nil_of_mem hmem
  · intro alternative halternative
    obtain ⟨e, he, hmem⟩ := hfrom alternative halternative
    exact (hne e he).2 alternative hmem

/-- The names of a table are the declared ones, each once. -/
theorem names_of_ofTokens (h : ofTokens settings tokens = .ok t) :
    t.names = (Grouping.declaredNames tokens).eraseDups := by
  obtain ⟨defs, hdefs, hholds⟩ := exists_holds_of_ofTokens h
  rw [hholds.names_eq, Grouping.names_of_rules hdefs]

theorem size_of_ofTokens (h : ofTokens settings tokens = .ok t) :
    t.size = (Grouping.declaredNames tokens).toFinset.card := by
  obtain ⟨defs, -, hholds⟩ := exists_holds_of_ofTokens h
  have hsame : (Grouping.declaredNames tokens).toFinset = t.names.toFinset := by
    ext n
    rw [List.mem_toFinset, List.mem_toFinset, names_of_ofTokens h, List.mem_eraseDups]
  rw [hsame, List.toFinset_card_of_nodup hholds.indexed.nodup_names, length_names, size]

/-- **What every table is like that was built from tokens**, with any repetition of names and under either policy. -/
theorem representation_of_ofTokens (settings : Settings) (tokens : List Token) (t : RuleTable)
    (h : ofTokens settings tokens = .ok t) :
    t.names.Nodup ∧
    (∀ (n : String) (i : Nat), t.index[n]? = some i ↔ ∃ hi : i < t.rules.size, t.rules[i].name = n) ∧
    (∀ n : String,
      (∀ i, t.index[n]? = some i → ∃ hi : i < t.rules.size, t.get? n = some t.rules[i]) ∧
      (∀ r, t.get? n = some r ↔ r ∈ t.rules ∧ r.name = n) ∧
      ((t.get? n).isSome = true ↔ n ∈ t.names) ∧
      t.contains n = (t.get? n).isSome) ∧
    t.size = (Grouping.declaredNames tokens).toFinset.card ∧
    (t.isEmpty = true ↔ Grouping.declaredNames tokens = []) ∧
    ∀ r ∈ t.rules, r.alternatives ≠ [] ∧ ∀ alternative ∈ r.alternatives, alternative ≠ [] := by
  obtain ⟨defs, -, hholds⟩ := exists_holds_of_ofTokens h
  have hindexed := hholds.indexed
  refine ⟨hindexed.nodup_names, fun n i => hindexed.index_eq_some_iff, fun n => ⟨fun i => hindexed.get?_of_index,
    fun r => hindexed.get?_eq_some_iff, hindexed.isSome_get?_iff, hindexed.contains_eq n⟩, size_of_ofTokens h, ?_,
    ne_nil_of_ofTokens h⟩
  rw [isEmpty, Array.isEmpty_iff_size_eq_zero, ← size, size_of_ofTokens h, Finset.card_eq_zero,
    List.toFinset_eq_empty_iff]

/-- A definition of `a`, one of `b` and one more of `a`, merged. -/
theorem representation_of_ofTokens_interleaved :
    ofTokens { repeats := .merged }
        [.name "a", .assignment, .literal "1", .endOfLine, .name "b", .assignment, .name "c", .endOfLine,
          .name "a", .assignment, .literal "3", .endOfLine] =
      .ok ((empty.push ⟨"a", [[.literal "1"], [.literal "3"]]⟩).push ⟨"b", [[.name "c"]]⟩) ∧
    ((empty.push ⟨"a", [[.literal "1"], [.literal "3"]]⟩).push ⟨"b", [[.name "c"]]⟩).get? "a" =
      some ⟨"a", [[.literal "1"], [.literal "3"]]⟩ ∧
    ((empty.push ⟨"a", [[.literal "1"], [.literal "3"]]⟩).push ⟨"b", [[.name "c"]]⟩).index["b"]? = some 1 ∧
    ((empty.push ⟨"a", [[.literal "1"], [.literal "3"]]⟩).push ⟨"b", [[.name "c"]]⟩).get? "c" = none := by
  have hbuilt : ofTokens { repeats := .merged }
        [.name "a", .assignment, .literal "1", .endOfLine, .name "b", .assignment, .name "c", .endOfLine,
          .name "a", .assignment, .literal "3", .endOfLine] =
      .ok ((empty.push ⟨"a", [[.literal "1"], [.literal "3"]]⟩).push ⟨"b", [[.name "c"]]⟩) := by decide +kernel
  obtain ⟨-, hindex, hlookup, -, -, -⟩ := representation_of_ofTokens _ _ _ hbuilt
  refine ⟨hbuilt, ((hlookup "a").2.1 _).mpr ⟨by decide +kernel, rfl⟩, (hindex "b" 1).mpr ⟨by decide, rfl⟩, ?_⟩
  rw [← Option.not_isSome_iff_eq_none, (hlookup "c").2.2.1]
  decide

end RuleTable

end GrammarText
