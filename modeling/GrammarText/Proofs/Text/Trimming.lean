import GrammarText.Text.Blank
import Mathlib.Data.List.DropRight

/-!
# What trimming leaves

Trimming is pinned down by what it takes away and what it leaves.  Every text is a run of blank characters, a *tight*
text and another run of blank characters, where a text is tight if neither of its ends is blank; trimming gives the
tight part, whichever way the text is cut like that (`trim_blanks_append`).

* `exists_blanks_trim`: a text is its trimmed part between two blank runs;
* `trim_eq_self_iff`: the tight texts are the ones that trimming leaves alone, hence `trim_trim`;
* `trim_blanks_append_blanks` and `trimEnd_append`: what trimming makes of a text with blanks around it, and of a text
  in two parts;
* `mem_of_mem_trim`: trimming adds no character.
-/

namespace GrammarText.Text

/-! ## Blank runs and tight texts -/

/-- A run of blank characters, possibly empty. -/
def Blanks (cs : List Char) : Prop :=
  ∀ c ∈ cs, isBlank c = true

/-- A text that neither starts nor ends with a blank character. -/
structure Tight (cs : List Char) : Prop where
  first : ∀ c, cs.head? = some c → isBlank c = false
  last : ∀ c, cs.getLast? = some c → isBlank c = false

theorem blanks_nil : Blanks [] := by
  intro c hc
  simp at hc

theorem blanks_singleton {c : Char} (hc : isBlank c = true) : Blanks [c] := by
  intro d hd
  rwa [List.mem_singleton.mp hd]

theorem Blanks.append {u v : List Char} (hu : Blanks u) (hv : Blanks v) : Blanks (u ++ v) := by
  intro c hc
  rcases List.mem_append.mp hc with hc | hc
  · exact hu c hc
  · exact hv c hc

theorem tight_nil : Tight [] :=
  ⟨by simp, by simp⟩

theorem tight_singleton {a : Char} (ha : isBlank a = false) : Tight [a] := by
  constructor
  · intro c hc
    rw [List.head?_cons, Option.some_inj] at hc
    rwa [← hc]
  · intro c hc
    rw [List.getLast?_singleton, Option.some_inj] at hc
    rwa [← hc]

/-- Two ends that are not blank make a tight text, whatever stands between them. -/
theorem tight_of_ends {a b : Char} (cs : List Char) (ha : isBlank a = false) (hb : isBlank b = false) :
    Tight (a :: (cs ++ [b])) := by
  constructor
  · intro c hc
    rw [List.head?_cons, Option.some_inj] at hc
    rwa [← hc]
  · intro c hc
    rw [← List.cons_append, List.getLast?_concat, Option.some_inj] at hc
    rwa [← hc]

/-- A tight text at either end makes a tight text, if neither of the two is empty. -/
theorem tight_append {u v : List Char} (hu : Tight u) (hune : u ≠ []) (hv : Tight v) (hvne : v ≠ [])
    (gap : List Char) : Tight (u ++ (gap ++ v)) := by
  constructor
  · intro c hc
    rw [List.head?_append_of_ne_nil _ hune] at hc
    exact hu.first c hc
  · intro c hc
    rw [← List.append_assoc, List.getLast?_append_of_ne_nil _ hvne] at hc
    exact hv.last c hc

/-- Texts with a space between two of them are the first one, and each other with a space before it. -/
theorem intercalate_space_cons (u : List Char) (us : List (List Char)) :
    [' '].intercalate (u :: us) = u ++ us.flatMap (' ' :: ·) := by
  induction us generalizing u with
  | nil => rw [List.intercalate_singleton, List.flatMap_nil, List.append_nil]
  | cons v vs ih => rw [List.intercalate_cons_cons, ih v, List.flatMap_cons, List.append_assoc]; rfl

/-- Tight texts with a space between two of them make a tight text. -/
theorem tight_intercalate_space {us : List (List Char)} (h : ∀ u ∈ us, Tight u ∧ u ≠ []) :
    Tight ([' '].intercalate us) := by
  induction us with
  | nil => exact tight_nil
  | cons u us ih =>
    obtain ⟨hu, hune⟩ := h u List.mem_cons_self
    cases us with
    | nil => rwa [List.intercalate_singleton]
    | cons v vs =>
      have hrest : Tight ([' '].intercalate (v :: vs)) := ih fun w hw => h w (List.mem_cons_of_mem u hw)
      have hne : [' '].intercalate (v :: vs) ≠ [] := by
        obtain ⟨a, v, rfl⟩ := List.exists_cons_of_ne_nil (h v (by simp)).2
        rw [List.intercalate_cons_cons_left]
        simp
      rw [List.intercalate_cons_cons, List.append_assoc]
      exact tight_append hu hune hrest hne [' ']

/-! ## The two ends by themselves -/

theorem trimEnd_eq_rdropWhile (cs : List Char) : trimEnd cs = cs.rdropWhile isBlank := rfl

/-- Blank characters at the front are dropped, and a character that is not blank stops the dropping. -/
theorem trimStart_blanks_append {u cs : List Char} (hu : Blanks u)
    (hcs : ∀ c, cs.head? = some c → isBlank c = false) : trimStart (u ++ cs) = cs := by
  rw [trimStart, List.dropWhile_append_of_pos hu]
  cases cs with
  | nil => rfl
  | cons c cs => rw [List.dropWhile_cons_of_neg (by simp [hcs c rfl])]

theorem trimEnd_append_blanks {cs v : List Char} (hv : Blanks v)
    (hcs : ∀ c, cs.getLast? = some c → isBlank c = false) : trimEnd (cs ++ v) = cs := by
  have hback : trimStart (v.reverse ++ cs.reverse) = cs.reverse := by
    apply trimStart_blanks_append
    · intro c hc
      exact hv c (List.mem_reverse.mp hc)
    · intro c hc
      exact hcs c (by rwa [List.head?_reverse] at hc)
  rw [trimEnd, List.reverse_append]
  show (trimStart (v.reverse ++ cs.reverse)).reverse = cs
  rw [hback, List.reverse_reverse]

/-- The end of a text in two parts is that of the second, unless nothing is left of that. -/
theorem trimEnd_append (u v : List Char) : trimEnd (u ++ v) = if trimEnd v = [] then trimEnd u else u ++ trimEnd v := by
  rw [trimEnd, trimEnd, List.reverse_append, List.dropWhile_append, trimEnd]
  by_cases hv : v.reverse.dropWhile isBlank = []
  · simp [hv]
  · simp [hv]

/-- A character that is not blank keeps what stands before it from being trimmed. -/
theorem trimEnd_append_cons {z : Char} (hz : isBlank z = false) (u v : List Char) :
    trimEnd (u ++ z :: v) = u ++ z :: trimEnd v := by
  have hone : trimEnd [z] = [z] := by simp [trimEnd, hz]
  have htail : trimEnd (z :: v) = z :: trimEnd v := by
    rw [← List.singleton_append, trimEnd_append, hone]
    by_cases hv : trimEnd v = [] <;> simp [hv]
  rw [trimEnd_append, htail, if_neg (List.cons_ne_nil _ _)]

/-! ## Both ends -/

/-- **Trimming gives the tight part**, wherever the blank runs around it are cut off. -/
theorem trim_blanks_append {u m v : List Char} (hu : Blanks u) (hm : Tight m) (hv : Blanks v) :
    trim (u ++ (m ++ v)) = m := by
  cases m with
  | nil =>
    -- there is no tight part to stop at, and the two runs are dropped as one
    have hdrop : trimStart ((u ++ v) ++ []) = [] := trimStart_blanks_append (hu.append hv) (by simp)
    rw [List.append_nil] at hdrop
    rw [trim, List.nil_append, hdrop]
    rfl
  | cons a m =>
    have hfirst : ∀ c, ((a :: m) ++ v).head? = some c → isBlank c = false := by
      intro c hc
      exact hm.first c (by simpa using hc)
    rw [trim, trimStart_blanks_append hu hfirst]
    exact trimEnd_append_blanks hv hm.last

/-- What trimming leaves has no blank end. -/
theorem tight_trim (cs : List Char) : Tight (trim cs) := by
  constructor
  · intro c hc
    obtain ⟨rest, hrest⟩ : trim cs <+: trimStart cs := List.rdropWhile_prefix isBlank _
    have hhead : (trimStart cs).head? = some c := by
      rw [← hrest, List.head?_append, hc]
      rfl
    have hne : cs.dropWhile isBlank ≠ [] := by
      intro hnil
      rw [trimStart, hnil] at hhead
      simp at hhead
    have hfirst := List.head_dropWhile_not isBlank hne
    rw [trimStart, List.head?_eq_some_head hne, Option.some_inj] at hhead
    rwa [hhead] at hfirst
  · intro c hc
    have hne : trim cs ≠ [] := by
      intro hnil
      rw [hnil] at hc
      simp at hc
    have hlast := List.rdropWhile_last_not isBlank (trimStart cs) hne
    rw [List.getLast?_eq_some_getLast hne, Option.some_inj] at hc
    rw [← hc]
    exact Bool.eq_false_iff.mpr hlast

/-- A text is its trimmed part between two blank runs. -/
theorem exists_blanks_trim (cs : List Char) :
    ∃ u v, Blanks u ∧ Blanks v ∧ cs = u ++ (trim cs ++ v) := by
  refine ⟨cs.takeWhile isBlank, (trimStart cs).rtakeWhile isBlank, ?_, ?_, ?_⟩
  · intro c hc
    exact List.mem_takeWhile_imp hc
  · intro c hc
    exact List.mem_rtakeWhile_imp hc
  · rw [trim, trimEnd_eq_rdropWhile, List.rdropWhile_append_rtakeWhile, trimStart,
      List.takeWhile_append_dropWhile]

/-- **The tight texts are those that trimming leaves alone.** -/
theorem trim_eq_self_iff {cs : List Char} : trim cs = cs ↔ Tight cs := by
  constructor
  · intro h
    rw [← h]
    exact tight_trim cs
  · intro h
    have hcut := trim_blanks_append blanks_nil h blanks_nil
    rwa [List.nil_append, List.append_nil] at hcut

theorem trim_trim (cs : List Char) : trim (trim cs) = trim cs :=
  trim_eq_self_iff.mpr (tight_trim cs)

/-- Blank characters around a text are all the same to trimming. -/
theorem trim_blanks_append_blanks {u v : List Char} (hu : Blanks u) (hv : Blanks v) (cs : List Char) :
    trim (u ++ (cs ++ v)) = trim cs := by
  obtain ⟨a, b, ha, hb, hcs⟩ := exists_blanks_trim cs
  have hcut : u ++ (cs ++ v) = (u ++ a) ++ (trim cs ++ (b ++ v)) := by
    calc u ++ (cs ++ v) = u ++ ((a ++ (trim cs ++ b)) ++ v) := by rw [← hcs]
      _ = (u ++ a) ++ (trim cs ++ (b ++ v)) := by simp
  rw [hcut, trim_blanks_append (hu.append ha) (tight_trim cs) (hb.append hv)]

theorem mem_of_mem_trim {c : Char} {cs : List Char} (h : c ∈ trim cs) : c ∈ cs := by
  obtain ⟨u, v, -, -, hcs⟩ := exists_blanks_trim cs
  rw [hcs]
  simp [h]

/-! ## The same for strings -/

theorem trimmed_trimmed (s : String) : trimmed (trimmed s) = trimmed s := by
  rw [trimmed, toList_trimmed, trim_trim, trimmed]

theorem trimmed_eq_self_iff {s : String} : trimmed s = s ↔ Tight s.toList := by
  rw [← trim_eq_self_iff, trimmed]
  constructor
  · intro h
    rw [← toList_trimmed, trimmed, h]
  · intro h
    rw [h, String.ofList_toList]

end GrammarText.Text
