import GrammarText.Text.Lines

/-!
# Lines of a byte stream

A stream of bytes is read line by line: the bytes are cut into lines at the byte `0x0A`, with the byte `0x0D`
before it as part of the line end, and each line is decoded from UTF-8 by itself and trimmed.  One line that is
not UTF-8 spoils the whole reading.

* `decode?` is the text of one line's bytes;
* `readLines?` is the list of trimmed lines of a stream.
-/

namespace GrammarText.Text

/-- The text that these bytes encode in UTF-8, if they do. -/
def decode? (bytes : List UInt8) : Option String :=
  String.fromUTF8? ⟨bytes.toArray⟩

/-- The trimmed lines of a byte stream, or nothing when some line is not UTF-8. -/
def readLines? (bytes : ByteArray) : Option (List String) :=
  (lines 0x0A 0x0D bytes.data.toList).mapM fun line => (decode? line).map trimmed

end GrammarText.Text
