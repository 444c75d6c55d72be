/-!
# Standard streams

What a program reads from its standard input and what it has written. Input is bytes, read by lines;
a line must be valid UTF-8 to be a text.
-/

namespace EventScript

/-- The standard streams: the input still to be read, and all output so far. -/
structure Console where
  input : List UInt8 := []
  output : String := ""
  errors : String := ""
deriving Inhabited

/-- The text that the bytes encode, if they are valid UTF-8. -/
def decodeUtf8? (bytes : List UInt8) : Option String :=
  String.fromUTF8? ⟨bytes.toArray⟩

/-- What is wrong with bytes that are not valid UTF-8. -/
def invalidUtf8 : String := "stream did not contain valid UTF-8"

namespace Console

/-- The byte that ends a line. -/
def lineEnd : UInt8 := 10

/-- Splits bytes after the first end of line. -/
def splitLine : List UInt8 → List UInt8 × List UInt8
  | [] => ([], [])
  | byte :: rest =>
    if byte = lineEnd then ([byte], rest)
    else
      let (line, rest) := splitLine rest
      (byte :: line, rest)

/-- Takes a line off the input, with its end. There is none if the input is used up. A line that is
not valid UTF-8 is taken too, but has no text. -/
def takeLine (console : Console) : Option (Option String) × Console :=
  match console.input with
  | [] => (none, console)
  | input =>
    let (line, rest) := splitLine input
    (some (decodeUtf8? line), { console with input := rest })

/-- Writes to the standard output. -/
def write (console : Console) (text : String) : Console :=
  { console with output := console.output ++ text }

/-- Writes to the standard error stream. -/
def writeError (console : Console) (text : String) : Console :=
  { console with errors := console.errors ++ text }

end Console

end EventScript
