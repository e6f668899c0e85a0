import GrammarText.Text.Stream

/-!
# Reading bytes as a grammar

A grammar file can be unreadable for two kinds of reasons: the system refuses its bytes, or the bytes are not UTF-8.

* `ReadFailure` is the reason, `ReadFailure.message` the system's words for it and `ReadFailure.report` the report
  of this library;
* `linesOfBytes` turns bytes into trimmed lines, and `linesOfFile` does so with what a file gave.
-/

namespace GrammarText

/-- Why the lines of a grammar cannot be read. -/
inductive ReadFailure where
  /-- Some line is not UTF-8. -/
  | notUtf8
  /-- There is no such file. -/
  | missing
  /-- The path names a directory. -/
  | isDirectory
  /-- The path goes through something that is no directory. -/
  | notDirectory
  /-- Another refusal of the system, with its number and its words. -/
  | refused (code : Nat) (words : String)
  deriving DecidableEq, Repr

namespace ReadFailure

/-- A refusal in the system's words, with its number. -/
def systemMessage (words : String) (code : Nat) : String :=
  words ++ " (os error " ++ toString code ++ ")"

/-- The words for a failure. -/
def message : ReadFailure → String
  | notUtf8 => "stream did not contain valid UTF-8"
  | missing => systemMessage "No such file or directory" 2
  | isDirectory => systemMessage "Is a directory" 21
  | notDirectory => systemMessage "Not a directory" 20
  | refused code words => systemMessage words code

/-- The report on a failure. -/
def report (f : ReadFailure) : String :=
  "IO error: " ++ f.message

end ReadFailure

/-- The trimmed lines of a byte stream. -/
def linesOfBytes (bytes : ByteArray) : Except ReadFailure (List String) :=
  match Text.readLines? bytes with
  | some ls => .ok ls
  | none => .error .notUtf8

/-- The trimmed lines of a file, from the bytes it gave or the refusal to give any. -/
def linesOfFile (contents : Except ReadFailure ByteArray) : Except ReadFailure (List String) :=
  contents.bind linesOfBytes

end GrammarText
