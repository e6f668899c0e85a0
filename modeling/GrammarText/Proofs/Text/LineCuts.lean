import GrammarText.Proofs.Text.Trimming
import GrammarText.Text.Lines

/-!
# Cutting a text into lines, and joining lines

No line of a text holds a line feed (`not_mem_of_mem_lines`), and lines without line feeds, each ended by one, are cut
where they were joined (`lines_flatMap`).  What is cut off besides, a carriage return before the line feed, is blank,
so that it would have gone with the trimming anyway: `trimmedLines_of_joined` for joined lines, `trimEach_piecesOf` for
the pieces of any text between its line feeds.
-/

namespace GrammarText.Text

/-! ## Joined lists -/

section Joined

variable {α β : Type}

theorem flatMap_intercalate (f : α → List β) (sep : List α) (ls : List (List α)) :
    (sep.intercalate ls).flatMap f = (sep.flatMap f).intercalate (ls.map fun l => l.flatMap f) := by
  induction ls with
  | nil => rfl
  | cons l ls ih =>
    cases ls with
    | nil => simp
    | cons m ls =>
      rw [List.intercalate_cons_cons, List.flatMap_append, List.flatMap_append, ih]
      simp only [List.map_cons, List.intercalate_cons_cons]

theorem mem_intercalate {a : α} {sep : List α} {ls : List (List α)} (h : a ∈ sep.intercalate ls) :
    a ∈ sep ∨ ∃ l ∈ ls, a ∈ l := by
  induction ls with
  | nil => simp at h
  | cons l ls ih =>
    cases ls with
    | nil =>
      rw [List.intercalate_singleton] at h
      exact .inr ⟨l, List.mem_cons_self, h⟩
    | cons m ls =>
      rw [List.intercalate_cons_cons, List.mem_append, List.mem_append] at h
      rcases h with (h | h) | h
      · exact .inr ⟨l, List.mem_cons_self, h⟩
      · exact .inl h
      · rcases ih h with hsep | hls
        · exact .inl hsep
        · obtain ⟨k, hk, hak⟩ := hls
          exact .inr ⟨k, List.mem_cons_of_mem l hk, hak⟩

end Joined

/-! ## Pieces and lines -/

section Symbols

variable {α : Type} [DecidableEq α] {lf cr : α}

theorem not_mem_of_mem_splitOn {xs l : List α} (h : l ∈ xs.splitOn lf) : lf ∉ l := by
  induction xs generalizing l with
  | nil =>
    obtain rfl : l = [] := by simpa using h
    simp
  | cons x xs ih =>
    rw [List.splitOn_cons_eq_if_modifyHead] at h
    by_cases hx : x = lf
    · rw [if_pos (beq_iff_eq.mpr hx)] at h
      rcases List.mem_cons.mp h with rfl | h
      · simp
      · exact ih h
    · rw [if_neg (by simpa using hx)] at h
      cases hpieces : xs.splitOn lf with
      | nil => exact absurd hpieces (List.splitOn_ne_nil lf xs)
      | cons p ps =>
        rw [hpieces, List.modifyHead_cons] at h
        rcases List.mem_cons.mp h with rfl | h
        · have hp : lf ∉ p := ih (by rw [hpieces]; exact List.mem_cons_self)
          simp [hp, Ne.symm hx]
        · exact ih (by rw [hpieces]; exact List.mem_cons_of_mem p h)

/-- There is always a last piece: what follows the last line feed. -/
theorem exists_splitOn_eq_concat (lf : α) (xs : List α) : ∃ front last, xs.splitOn lf = front ++ [last] := by
  obtain h | ⟨front, last, h⟩ := List.eq_nil_or_concat' (xs.splitOn lf)
  · exact absurd h (List.splitOn_ne_nil lf xs)
  · exact ⟨front, last, h⟩

theorem dropReturn_concat (l : List α) : dropReturn cr (l ++ [cr]) = l := by
  rw [dropReturn, List.getLast?_concat, if_pos rfl, List.dropLast_concat]

theorem dropReturn_of_ne {l : List α} (h : l.getLast? ≠ some cr) : dropReturn cr l = l :=
  if_neg h

theorem mem_of_mem_dropReturn {x : α} {l : List α} (h : x ∈ dropReturn cr l) : x ∈ l := by
  unfold dropReturn at h
  split at h
  · exact List.dropLast_subset _ h
  · exact h

/-- The lines are the pieces that a line feed ended, without their carriage returns, and the last piece if it is not
empty. -/
theorem lines_of_splitOn {xs last : List α} {front : List (List α)} (h : xs.splitOn lf = front ++ [last]) :
    lines lf cr xs = front.map (dropReturn cr) ++ if last = [] then [] else [last] := by
  unfold lines
  simp only [h, List.dropLast_concat, List.getLast?_concat]
  cases last with
  | nil => simp
  | cons x rest => simp

theorem not_mem_of_mem_lines {xs l : List α} (h : l ∈ lines lf cr xs) : lf ∉ l := by
  obtain ⟨front, last, hcut⟩ := exists_splitOn_eq_concat lf xs
  have hpieces : ∀ p ∈ front ++ [last], lf ∉ p := by
    intro p hp
    rw [← hcut] at hp
    exact not_mem_of_mem_splitOn hp
  rw [lines_of_splitOn hcut] at h
  rcases List.mem_append.mp h with h | h
  · obtain ⟨p, hp, rfl⟩ := List.mem_map.mp h
    exact fun hmem => hpieces p (List.mem_append_left _ hp) (mem_of_mem_dropReturn hmem)
  · obtain rfl : l = last := by
      split at h
      · simp at h
      · exact List.mem_singleton.mp h
    exact hpieces l (by simp)

/-- Lines with a line feed after each are cut there, and nothing follows the last one. -/
theorem splitOn_flatMap {ls : List (List α)} (h : ∀ l ∈ ls, lf ∉ l) :
    (ls.flatMap (· ++ [lf])).splitOn lf = ls ++ [[]] := by
  induction ls with
  | nil => rfl
  | cons l ls ih =>
    have hl : lf ∉ l := h l List.mem_cons_self
    have hls : ∀ m ∈ ls, lf ∉ m := fun m hm => h m (List.mem_cons_of_mem l hm)
    rw [List.flatMap_cons, List.append_assoc, List.singleton_append,
      List.splitOn_append_cons_self_of_not_mem hl, ih hls, List.cons_append]

/-- **Joined lines come apart again**, but for the carriage returns at their ends. -/
theorem lines_flatMap {ls : List (List α)} (h : ∀ l ∈ ls, lf ∉ l) :
    lines lf cr (ls.flatMap (· ++ [lf])) = ls.map (dropReturn cr) := by
  rw [lines_of_splitOn (splitOn_flatMap h), if_pos rfl, List.append_nil]

/-- The pieces between line feeds as they stand; what follows the last line feed is left out if it is empty. -/
def pieces (lf : α) (xs : List α) : List (List α) :=
  let all := xs.splitOn lf
  if all.getLast? = some [] then all.dropLast else all

theorem pieces_of_splitOn {xs last : List α} {front : List (List α)} (h : xs.splitOn lf = front ++ [last]) :
    pieces lf xs = front ++ if last = [] then [] else [last] := by
  unfold pieces
  simp only [h, List.getLast?_concat, List.dropLast_concat, Option.some_inj]
  split <;> simp

end Symbols

/-! ## Trimmed lines -/

theorem trimEach_map_ofList (ls : List (List Char)) :
    trimEach (ls.map String.ofList) = ls.map fun l => String.ofList (trim l) := by
  rw [trimEach, List.map_map]
  apply List.map_congr_left
  intro l hl
  rw [Function.comp_apply, trimmed, String.toList_ofList]

/-- The lines of a text as they stand. -/
def linesOf (s : String) : List String :=
  (lines '\n' '\r' s.toList).map String.ofList

theorem trimEach_linesOf (s : String) : trimEach (linesOf s) = trimmedLines s := by
  rw [linesOf, trimEach_map_ofList, trimmedLines]

/-- Lines that are trimmed already are not changed by a second trimming. -/
theorem trimEach_trimEach (ls : List String) : trimEach (trimEach ls) = trimEach ls := by
  rw [trimEach, trimEach, List.map_map]
  apply List.map_congr_left
  intro l hl
  exact trimmed_trimmed l

theorem trimEach_trimmedLines (s : String) : trimEach (trimmedLines s) = trimmedLines s := by
  rw [← trimEach_linesOf, trimEach_trimEach]

/-- A carriage return at the end of a line is blank. -/
theorem trim_dropReturn (l : List Char) : trim (dropReturn '\r' l) = trim l := by
  unfold dropReturn
  split
  · next hlast =>
    obtain ⟨front, rfl⟩ := List.getLast?_eq_some_iff.mp hlast
    obtain ⟨u, v, hu, hv, hfront⟩ := exists_blanks_trim front
    have hv' : Blanks (v ++ ['\r']) := hv.append (blanks_singleton (by decide))
    rw [List.dropLast_concat]
    conv_rhs => rw [hfront, List.append_assoc, List.append_assoc]
    exact (trim_blanks_append hu (tight_trim front) hv').symm
  · rfl

/-- The pieces of a text between its line feeds. -/
def piecesOf (s : String) : List String :=
  (pieces '\n' s.toList).map String.ofList

/-- Pieces that keep their carriage returns are the lines of the text, once each is trimmed. -/
theorem trimEach_piecesOf (s : String) : trimEach (piecesOf s) = trimmedLines s := by
  obtain ⟨front, last, hcut⟩ := exists_splitOn_eq_concat '\n' s.toList
  have hfront : (front.map (dropReturn '\r')).map (fun l => String.ofList (trim l))
      = front.map fun l => String.ofList (trim l) := by
    rw [List.map_map]
    apply List.map_congr_left
    intro l hl
    rw [Function.comp_apply, trim_dropReturn]
  rw [piecesOf, trimEach_map_ofList, trimmedLines, pieces_of_splitOn hcut, lines_of_splitOn hcut, List.map_append,
    List.map_append, hfront]

/-- **Lines that are joined into a text are its lines**, each trimmed. -/
theorem trimmedLines_of_joined {s : String} {ls : List String} (h : ∀ l ∈ ls, '\n' ∉ l.toList)
    (hs : s.toList = ls.flatMap fun l => l.toList ++ ['\n']) : trimmedLines s = trimEach ls := by
  have hls : ∀ cs ∈ ls.map String.toList, '\n' ∉ cs := by
    intro cs hcs
    obtain ⟨l, hl, rfl⟩ := List.mem_map.mp hcs
    exact h l hl
  have hjoined : s.toList = (ls.map String.toList).flatMap (· ++ ['\n']) := by
    rw [hs, List.flatMap_map]
  rw [trimmedLines, hjoined, lines_flatMap hls, List.map_map, List.map_map, trimEach]
  apply List.map_congr_left
  intro l hl
  rw [Function.comp_apply, Function.comp_apply, trim_dropReturn, trimmed]

/-- No line of a text holds a line feed, and trimming it brings none in. -/
theorem not_mem_of_mem_trimmedLines {s l : String} (h : l ∈ trimmedLines s) : '\n' ∉ l.toList := by
  obtain ⟨cs, hcs, rfl⟩ := List.mem_map.mp h
  intro hmem
  rw [String.toList_ofList] at hmem
  exact not_mem_of_mem_lines hcs (mem_of_mem_trim hmem)

end GrammarText.Text
