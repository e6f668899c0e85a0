import GrammarText.Proofs.Text.LineCuts
import Mathlib.Data.List.Forall2

/-!
# Normal lines

Trimming a list of lines keeps their number and takes from each the blank characters at its ends, no more and no less.
A text that is joined from lines, with a line feed after each, has these lines again, each trimmed: not even a carriage
return at the end of a line, which the cutting takes for a part of the line end, makes a difference.  So the lines that a
text can have are the tight ones without a line feed, and joining them brings back a text that has them.

* `trimmed_eq_iff`: a trimmed line is the tight part of the line between two blank runs, and `trimEach_eq_iff` says
  this of the lines of a list, one by one;
* `joined` puts lines together to a text, and `trimmedLines_joined` takes them apart;
* `trimmedLines_joined_eq_self_iff`: the lists of lines that come back unchanged, which by `normal_of_mem_trimmedLines`
  are those that texts have;
* `trimEach_normalizes` puts this together.
-/

namespace GrammarText.Text

/-! ## The lines of a list, trimmed -/

/-- The kept part of a line is tight, and blank runs around it make up the line. -/
structure IsTightPart (line kept : String) : Prop where
  tight : Tight kept.toList
  between : ∃ u v, Blanks u ∧ Blanks v ∧ line.toList = u ++ (kept.toList ++ v)

theorem isTightPart_trimmed (line : String) : IsTightPart line (trimmed line) := by
  constructor
  · rw [toList_trimmed]
    exact tight_trim line.toList
  · rw [toList_trimmed]
    exact exists_blanks_trim line.toList

/-- **Trimming a line gives its tight part.** -/
theorem trimmed_eq_iff {line kept : String} : trimmed line = kept ↔ IsTightPart line kept := by
  constructor
  · intro h
    rw [← h]
    exact isTightPart_trimmed line
  · intro h
    obtain ⟨u, v, hu, hv, hline⟩ := h.between
    rw [trimmed, hline, trim_blanks_append hu h.tight hv, String.ofList_toList]

variable {ls ms : List String}

/-- **Trimming a list of lines gives the tight part of each**, in the same places. -/
theorem trimEach_eq_iff : trimEach ls = ms ↔ List.Forall₂ IsTightPart ls ms := by
  rw [trimEach, ← List.forall₂_eq_eq_eq, List.forall₂_map_left_iff]
  constructor
  · intro h
    exact h.imp fun _ _ => trimmed_eq_iff.mp
  · intro h
    exact h.imp fun _ _ => trimmed_eq_iff.mpr

theorem tight_of_mem_trimEach {l : String} (h : l ∈ trimEach ls) : Tight l.toList := by
  obtain ⟨line, -, rfl⟩ := List.mem_map.mp h
  exact (isTightPart_trimmed line).tight

/-- The lists of lines that trimming leaves alone. -/
theorem trimEach_eq_self_iff : trimEach ls = ls ↔ ∀ l ∈ ls, Tight l.toList := by
  rw [trimEach_eq_iff, List.forall₂_same]
  simp only [← trimmed_eq_iff, trimmed_eq_self_iff]

/-! ## Joining lines -/

/-- The text of lines, with a line feed after each. -/
def joined (ls : List String) : String :=
  String.join (ls.map (· ++ "\n"))

theorem toList_joined (ls : List String) : (joined ls).toList = ls.flatMap fun l => l.toList ++ ['\n'] := by
  rw [joined, String.toList_join, List.flatMap_map]
  simp only [String.toList_append]
  rfl

/-- A text joined from lines has these lines, each trimmed. -/
theorem trimmedLines_joined (h : ∀ l ∈ ls, '\n' ∉ l.toList) : trimmedLines (joined ls) = trimEach ls :=
  trimmedLines_of_joined h (toList_joined ls)

theorem normal_of_mem_trimmedLines {s l : String} (h : l ∈ trimmedLines s) : Tight l.toList ∧ '\n' ∉ l.toList := by
  refine ⟨?_, not_mem_of_mem_trimmedLines h⟩
  rw [← trimEach_trimmedLines] at h
  exact tight_of_mem_trimEach h

/-- **The lines that come back from the text they are joined to** are the tight ones without a line feed. -/
theorem trimmedLines_joined_eq_self_iff :
    trimmedLines (joined ls) = ls ↔ ∀ l ∈ ls, Tight l.toList ∧ '\n' ∉ l.toList := by
  constructor
  · intro h l hl
    rw [← h] at hl
    exact normal_of_mem_trimmedLines hl
  · intro h
    rw [trimmedLines_joined fun l hl => (h l hl).2]
    exact trimEach_eq_self_iff.mpr fun l hl => (h l hl).1

/-- **Trimming is idempotent and undoes joining.**  Trimming the lines of a list a second time changes nothing.  There
are as many trimmed lines as lines; each has a blank character at neither end, and is its line less the blank characters
there.  Lines without a line feed that are joined, with a line feed after each, are the lines of the joined text, each
trimmed.  The lines of a text hold no line feed and are the lines of the text that they are joined to. -/
theorem trimEach_normalizes :
    (∀ ls : List String,
      trimEach (trimEach ls) = trimEach ls ∧ (trimEach ls).length = ls.length ∧
      (∀ l ∈ trimEach ls, Tight l.toList) ∧ List.Forall₂ IsTightPart ls (trimEach ls) ∧
      ((∀ l ∈ ls, '\n' ∉ l.toList) → trimmedLines (joined ls) = trimEach ls)) ∧
    ∀ s : String, trimmedLines (joined (trimmedLines s)) = trimmedLines s ∧ ∀ l ∈ trimmedLines s, '\n' ∉ l.toList := by
  constructor
  · intro ls
    have hparts := trimEach_eq_iff.mp (rfl : trimEach ls = trimEach ls)
    exact ⟨trimEach_trimEach ls, hparts.length_eq.symm, fun l hl => tight_of_mem_trimEach hl, hparts,
      trimmedLines_joined⟩
  · intro s
    have hagain := trimmedLines_joined_eq_self_iff.mpr fun l hl => normal_of_mem_trimmedLines (s := s) hl
    exact ⟨hagain, fun l hl => not_mem_of_mem_trimmedLines hl⟩

/-- A line that ends with a carriage return of its own, a blank line in the middle and one at the end. -/
theorem trimEach_normalizes_returns :
    joined [" a\r", "", "\tb ", "\u3000"] = " a\r\n\n\tb \n\u3000\n" ∧
    trimEach [" a\r", "", "\tb ", "\u3000"] = ["a", "", "b", ""] ∧
    trimmedLines " a\r\n\n\tb \n\u3000\n" = ["a", "", "b", ""] := by
  have hjoined : joined [" a\r", "", "\tb ", "\u3000"] = " a\r\n\n\tb \n\u3000\n" := by decide +kernel
  have htrimmed : trimEach [" a\r", "", "\tb ", "\u3000"] = ["a", "", "b", ""] := by decide +kernel
  have hlines := (trimEach_normalizes.1 [" a\r", "", "\tb ", "\u3000"]).2.2.2.2 (by decide +kernel)
  rw [hjoined, htrimmed] at hlines
  exact ⟨hjoined, htrimmed, hlines⟩

end GrammarText.Text
