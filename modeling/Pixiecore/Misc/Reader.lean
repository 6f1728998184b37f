import Pixiecore.Misc.Bytes

/-!
# Readers

A reader by what it will give: some bytes, and then an error, which is `io.EOF` at the
end of a stream that was read completely.
-/

namespace Pixiecore

/-- The errors an `io.Reader` ends with. -/
inductive ReadError where
  | eof
  | unexpectedEOF
  | other (text : Bytes)
  deriving DecidableEq, Repr

def ReadError.text : ReadError → Bytes
  | eof => ascii "EOF"
  | unexpectedEOF => ascii "unexpected EOF"
  | other text => text

/-- What a reader has left to give: some bytes, and then an error. -/
structure Reader where
  content : Bytes
  final : ReadError
  deriving DecidableEq, Repr

/-- `io.ReadFull` into `want` bytes: what was read, the reader afterwards, and the error. -/
def readFull (f : Reader) (want : Nat) : Bytes × Reader × Option ReadError :=
  if want ≤ f.content.length then
    (f.content.take want, { f with content := f.content.drop want }, none)
  else
    (f.content, { f with content := [] },
      some (if f.content ≠ [] ∧ f.final = .eof then .unexpectedEOF else f.final))

end Pixiecore
