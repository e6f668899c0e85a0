import GrammarText.Text.Range

/-!
# Blank characters and trimming

A character is *blank* when Unicode gives it the property `White_Space`.  The set has 25 members, listed here
as ranges of code points; it holds the two line ends, the next-line character `U+0085` and the no-break
spaces, and leaves out the zero-width ones.

Trimming takes the blank characters off the ends of a list of characters and leaves those inside alone:

* `trimStart` drops them at the front, `trimEnd` at the back, `trim` at both ends;
* `trimmed` is `trim` on a `String`.
-/

namespace GrammarText.Text

/-! ## The property -/

/-- The code points with the property `White_Space`, as inclusive ranges in increasing order. -/
def blankRanges : List Range :=
  [⟨0x09, 0x0D⟩, ⟨0x20, 0x20⟩, ⟨0x85, 0x85⟩, ⟨0xA0, 0xA0⟩, ⟨0x1680, 0x1680⟩, ⟨0x2000, 0x200A⟩,
    ⟨0x2028, 0x2029⟩, ⟨0x202F, 0x202F⟩, ⟨0x205F, 0x205F⟩, ⟨0x3000, 0x3000⟩]

/-- Tells whether a character is blank. -/
def isBlank (c : Char) : Bool :=
  inRanges blankRanges c

/-! ## Trimming -/

/-- The characters from the first that is not blank on. -/
def trimStart (cs : List Char) : List Char :=
  cs.dropWhile isBlank

/-- The characters up to the last that is not blank. -/
def trimEnd (cs : List Char) : List Char :=
  (cs.reverse.dropWhile isBlank).reverse

/-- The characters between the blank ones at the two ends. -/
def trim (cs : List Char) : List Char :=
  trimEnd (trimStart cs)

/-- A text without the blank characters at its ends. -/
def trimmed (s : String) : String :=
  String.ofList (trim s.toList)

theorem toList_trimmed (s : String) : (trimmed s).toList = trim s.toList :=
  String.toList_ofList

end GrammarText.Text
