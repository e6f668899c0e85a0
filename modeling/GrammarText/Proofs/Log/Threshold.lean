import GrammarText.Log
import GrammarText.Proofs.Text.Trimming

/-!
# The threshold that is asked for

A setting that is one word asks for the threshold of the word (`Threshold.ofSetting?_of_ofWord?`), and of several words
between commas the last one decides (`Threshold.ofSetting?_comma`).  What makes this more than a look at the definitions
is that no word for a threshold holds a comma or a blank character, in letters of either case.
-/

namespace GrammarText

/-- A blank character is no letter, so that it stays as it is where letters are made small. -/
theorem Text.toLower_of_isBlank {c : Char} (h : isBlank c = true) : c.toLower = c := by
  unfold Char.toLower
  split
  · next hupper =>
    obtain ⟨hfirst, hlast⟩ := hupper
    have hrange : 65 ≤ c.toNat ∧ c.toNat ≤ 90 := ⟨hfirst, hlast⟩
    simp [isBlank, inRanges, blankRanges, Range.holds] at h
    omega
  · rfl

namespace Threshold

variable {word setting : String} {t u : Threshold}

/-- No word for a threshold holds a comma or a blank character. -/
theorem not_separating_of_ofWord? (h : ofWord? word = some t) :
    ∀ c ∈ word.toList, Text.isBlank c = false ∧ c ≠ ',' := by
  have hsmall : (word.toLower.toList.all fun c => !Text.isBlank c && c != ',') = true := by
    unfold ofWord? at h
    split at h
    case h_7 => cases h
    all_goals
      rename_i hword
      rw [hword]
      decide
  intro c hc
  have hlower : c.toLower ∈ word.toLower.toList := by
    show c.toLower ∈ (word.map Char.toLower).toList
    rw [String.toList_map]
    exact List.mem_map_of_mem hc
  obtain ⟨hblank, hcomma⟩ : Text.isBlank c.toLower = false ∧ c.toLower ≠ ',' := by
    simpa using List.all_eq_true.mp hsmall c.toLower hlower
  constructor
  · by_contra hc
    rw [Bool.not_eq_false] at hc
    rw [Text.toLower_of_isBlank hc, hc] at hblank
    cases hblank
  · rintro rfl
    exact hcomma rfl

theorem listed_of_ofWord? (h : ofWord? word = some t) : listed word = [word] := by
  have hfree : ',' ∉ word.toList := fun hcomma => (not_separating_of_ofWord? h ',' hcomma).2 rfl
  have htight : Text.Tight word.toList :=
    ⟨fun c hc => (not_separating_of_ofWord? h c (List.mem_of_head? hc)).1,
      fun c hc => (not_separating_of_ofWord? h c (List.mem_of_getLast? hc)).1⟩
  have hne : word.toList ≠ [] := by
    intro hempty
    have hnone : ofWord? "" = none := by decide +kernel
    rw [String.toList_eq_nil_iff.mp hempty, hnone] at h
    cases h
  rw [listed, List.splitOn_eq_singleton hfree, List.map_singleton, Text.trim_eq_self_iff.mpr htight,
    List.filter_cons_of_pos (by simpa using hne), List.filter_nil, List.map_singleton, String.ofList_toList]

theorem listed_comma (setting word : String) : listed (setting ++ "," ++ word) = listed setting ++ listed word := by
  have hlist : (setting ++ "," ++ word).toList = setting.toList ++ ',' :: word.toList := by
    simp [String.toList_append]
  rw [listed, hlist, List.splitOn_append_cons_self, List.map_append, List.filter_append, List.map_append]
  rfl

/-- **A setting that is one word asks for the threshold of the word.** -/
theorem ofSetting?_of_ofWord? (h : ofWord? word = some t) : ofSetting? word = some t := by
  rw [ofSetting?, listed_of_ofWord? h]
  simp [h]

/-- **Of several words the last one decides.** -/
theorem ofSetting?_comma (hsetting : ofSetting? setting = some t) (hword : ofWord? word = some u) :
    ofSetting? (setting ++ "," ++ word) = some u := by
  obtain ⟨thresholds, hlisted, -⟩ := Option.map_eq_some_iff.mp hsetting
  have hlast : (listed word).mapM ofWord? = some [u] := by
    rw [listed_of_ofWord? hword]
    simp [hword]
  rw [ofSetting?, listed_comma, List.mapM_append, hlisted, hlast]
  simp

/-- An empty setting asks for errors only, and one about a part of the program counts as none. -/
example : ofSetting? "" = some (upTo .error) ∧ ofSetting? " info, ,Debug," = some (upTo .debug) ∧
    ofSetting? "bnf=debug" = none := by
  decide +kernel

end Threshold

end GrammarText
