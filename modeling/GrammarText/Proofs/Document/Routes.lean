import GrammarText.File
import GrammarText.Proofs.Text.Encoding
import GrammarText.Reading

/-!
# The routes by which a grammar comes in

A grammar is handed in as one text, as lines that somebody has cut, or as bytes.  Cutting somewhere else leaves other
carriage returns, and reading bytes trims twice; neither can be seen in the document.

* `linesOfBytes_eq_ok_iff`, `linesOfBytes_eq_error_iff`: bytes are read if they are UTF-8 as a whole, and then like the
  text they encode;
* `Source.Agrees`: no reader can tell two sources apart, which their trimmed lines decide;
* `Source.routes_agree`: all routes of a text agree.
-/

namespace GrammarText

/-! ## Bytes -/

/-- **Bytes are read exactly if they are UTF-8 as a whole**, and they give the trimmed lines of the decoded text. -/
theorem linesOfBytes_eq_ok_iff {bytes : ByteArray} {ls : List String} :
    linesOfBytes bytes = .ok ls ↔
      ∃ valid : bytes.IsValidUTF8, ls = Text.trimmedLines (String.fromUTF8 bytes valid) := by
  have hread : linesOfBytes bytes = .ok ls ↔ Text.readLines? bytes = some ls := by
    rw [linesOfBytes]
    cases Text.readLines? bytes with
    | none => simp
    | some found => simp
  rw [hread, Text.readLines?_eq_some_iff]
  constructor
  · rintro ⟨s, rfl, rfl⟩
    exact ⟨s.isValidUTF8, rfl⟩
  · rintro ⟨valid, rfl⟩
    exact ⟨String.fromUTF8 bytes valid, rfl, rfl⟩

/-- The bytes of a text are read like the text. -/
theorem linesOfBytes_toUTF8 (s : String) : linesOfBytes s.toUTF8 = .ok (Text.trimmedLines s) :=
  linesOfBytes_eq_ok_iff.mpr ⟨s.isValidUTF8, rfl⟩

/-- Bytes that are not UTF-8 are refused, wherever the bad ones stand, and for no other reason. -/
theorem linesOfBytes_eq_error_iff {bytes : ByteArray} {f : ReadFailure} :
    linesOfBytes bytes = .error f ↔ ¬bytes.IsValidUTF8 ∧ f = .notUtf8 := by
  constructor
  · intro h
    constructor
    · intro valid
      rw [linesOfBytes_eq_ok_iff.mpr ⟨valid, rfl⟩] at h
      cases h
    · rw [linesOfBytes] at h
      split at h
      · cases h
      · exact (Except.error.inj h).symm
  · rintro ⟨hinvalid, rfl⟩
    rw [linesOfBytes]
    split
    · next ls hread =>
      have hok : linesOfBytes bytes = .ok ls := by rw [linesOfBytes, hread]
      exact absurd (linesOfBytes_eq_ok_iff.mp hok).1 hinvalid
    · rfl

/-- The two bytes of one character, with a line feed between them, are two bad lines. -/
example : linesOfBytes ⟨#[0xC3, 0x0A, 0xA9]⟩ = .error .notUtf8 := by
  decide +kernel

/-! ## Sources -/

namespace Source

/-- Two sources that no reader can tell apart: under any settings they make documents with the same lines, which are
lexed and built alike, log included. -/
structure Agrees (a b : Source) : Prop where
  lines : ∀ settings, (Document.ofSource settings a).lines = (Document.ofSource settings b).lines
  lexing : ∀ settings, (Document.ofSource settings a).lexing = (Document.ofSource settings b).lexing
  reading : ∀ settings, (Document.ofSource settings a).reading = (Document.ofSource settings b).reading

/-- A source is its trimmed lines to every reader. -/
theorem agrees_of_trimmedLines {a b : Source} (h : a.trimmedLines = b.trimmedLines) : a.Agrees b := by
  have hdocument (settings : Settings) : Document.ofSource settings a = Document.ofSource settings b := by
    rw [Document.ofSource, Document.ofSource, h]
  constructor <;> intro settings <;> rw [hdocument]

/-- The pieces of a text between line feeds, carriage returns and all, are the text to every reader. -/
theorem agrees_piecesOf (s : String) : (lines (Text.piecesOf s)).Agrees (text s) := by
  apply agrees_of_trimmedLines
  show Text.trimEach (Text.piecesOf s) = Text.trimmedLines s
  exact Text.trimEach_piecesOf s

/-- So are its trimmed lines, which this trims again. -/
theorem agrees_trimmedLines (s : String) : (lines (Text.trimmedLines s)).Agrees (text s) := by
  apply agrees_of_trimmedLines
  show Text.trimEach (Text.trimmedLines s) = Text.trimmedLines s
  exact Text.trimEach_trimmedLines s

/-- **All routes agree.**  Bytes are read exactly if they are UTF-8 as a whole, and then like the text they encode; any
others are refused as such.  A text, its pieces between line feeds and the lines read from its bytes are the same source
to every reader. -/
theorem routes_agree :
    (∀ (bytes : ByteArray) (ls : List String), linesOfBytes bytes = .ok ls ↔
      ∃ valid : bytes.IsValidUTF8, ls = Text.trimmedLines (String.fromUTF8 bytes valid)) ∧
    (∀ (bytes : ByteArray) (f : ReadFailure), linesOfBytes bytes = .error f ↔ ¬bytes.IsValidUTF8 ∧ f = .notUtf8) ∧
    ∀ s : String, (lines (Text.piecesOf s)).Agrees (text s) ∧
      ∃ ls, linesOfBytes s.toUTF8 = .ok ls ∧ linesOfFile (.ok s.toUTF8) = .ok ls ∧ (lines ls).Agrees (text s) := by
  refine ⟨?_, ?_, ?_⟩
  · intro bytes ls
    exact linesOfBytes_eq_ok_iff
  · intro bytes f
    exact linesOfBytes_eq_error_iff
  · intro s
    have hbytes := linesOfBytes_toUTF8 s
    exact ⟨agrees_piecesOf s, Text.trimmedLines s, hbytes, hbytes, agrees_trimmedLines s⟩

end Source

end GrammarText
