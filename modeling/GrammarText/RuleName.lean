/-!
# Names of rules

A rule name is an ASCII letter followed by any number of ASCII letters, digits, underscores and hyphens.  The
same rule holds for the name that a rule line defines and for a name between brackets in its body.
-/

namespace GrammarText

/-- The characters a rule name may hold after its first. -/
def isNameChar (c : Char) : Bool :=
  c.isAlphanum || c == '_' || c == '-'

/-- Tells whether these characters, all of them, make a rule name. -/
def isRuleName : List Char → Bool
  | [] => false
  | c :: cs => c.isAlpha && cs.all isNameChar

/-- Every character of a rule name is one that names may hold. -/
theorem isNameChar_of_isRuleName {cs : List Char} (h : isRuleName cs = true) :
    ∀ c ∈ cs, isNameChar c = true := by
  cases cs with
  | nil => simp
  | cons a cs =>
    simp only [isRuleName, Bool.and_eq_true, List.all_eq_true] at h
    intro c hc
    rcases List.mem_cons.mp hc with rfl | hc
    · simp [isNameChar, Char.isAlphanum, h.1]
    · exact h.2 c hc

end GrammarText
