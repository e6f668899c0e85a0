/-!
# Cutting at a delimiter

`cutAt d cs` looks for the first occurrence of the character `d` in `cs`.  It gives the part before it and the
part after it, or nothing when `d` does not occur.  The two parts are pinned down by two facts:

* `cutAt_eq_some_iff`: the cut gives `(before, after)` exactly when `cs` is `before`, `d`, `after` and
  `before` is free of `d`;
* `cutAt_eq_none_iff`: there is no cut exactly when `d` is not in `cs`.

The part after the delimiter is shorter than the whole, which is what lets a reader that cuts and goes on
with the rest come to an end (`length_lt_of_cutAt`).
-/

namespace GrammarText.Text

/-- What stands before and after the first occurrence of `d`, if there is one. -/
def cutAt (d : Char) (cs : List Char) : Option (List Char × List Char) :=
  match cs.dropWhile (· != d) with
  | [] => none
  | _ :: after => some (cs.takeWhile (· != d), after)

@[simp] theorem cutAt_nil (d : Char) : cutAt d [] = none := rfl

@[simp] theorem cutAt_cons_self (d : Char) (cs : List Char) : cutAt d (d :: cs) = some ([], cs) := by
  simp [cutAt]

theorem cutAt_cons_of_ne {c d : Char} (h : c ≠ d) (cs : List Char) :
    cutAt d (c :: cs) = (cutAt d cs).map fun p => (c :: p.1, p.2) := by
  unfold cutAt
  simp only [List.dropWhile_cons, List.takeWhile_cons, bne_iff_ne, ne_eq, h, not_false_eq_true, if_true]
  cases cs.dropWhile (· != d) <;> rfl

/-- **The cut is at the first delimiter**: before it there is none, and nothing is lost. -/
theorem cutAt_eq_some_iff {d : Char} {cs before after : List Char} :
    cutAt d cs = some (before, after) ↔ cs = before ++ d :: after ∧ d ∉ before := by
  induction cs generalizing before with
  | nil => simp
  | cons c cs ih =>
    by_cases h : c = d
    · subst h
      rw [cutAt_cons_self]
      constructor
      · rintro ⟨⟩
        simp
      · rintro ⟨hc, hb⟩
        cases before with
        | nil => simp_all
        | cons b bs => simp_all
    · rw [cutAt_cons_of_ne h, Option.map_eq_some_iff]
      constructor
      · rintro ⟨⟨b, a⟩, hcut, hp⟩
        obtain ⟨rfl, rfl⟩ := Prod.mk.inj hp
        obtain ⟨rfl, hb⟩ := ih.mp hcut
        simp [hb, Ne.symm h]
      · rintro ⟨hc, hb⟩
        cases before with
        | nil => simp_all
        | cons b bs =>
          obtain ⟨rfl, rfl⟩ := List.cons.inj hc
          exact ⟨(bs, after), ih.mpr ⟨rfl, fun hm => hb (List.mem_cons_of_mem _ hm)⟩, rfl⟩

/-- There is no cut exactly when the delimiter does not occur. -/
theorem cutAt_eq_none_iff {d : Char} {cs : List Char} : cutAt d cs = none ↔ d ∉ cs := by
  induction cs with
  | nil => simp
  | cons c cs ih =>
    by_cases h : c = d
    · subst h; simp
    · simp [cutAt_cons_of_ne h, ih, Ne.symm h]

/-- The part after the delimiter is shorter than the whole. -/
theorem length_lt_of_cutAt {d : Char} {cs before after : List Char} (h : cutAt d cs = some (before, after)) :
    after.length < cs.length := by
  obtain ⟨rfl, _⟩ := cutAt_eq_some_iff.mp h
  simp only [List.length_append, List.length_cons]
  omega

end GrammarText.Text
