import ScreenReader.Json.Scanner

namespace ScreenReader.Json

/-- Reads one value that makes up all of the text but the space around it. -/
def Scanner.readChars {α : Type} (s : Scanner α) (cs : List Char) : Except Fault α := do
  let (a, rest) ← s.scan cs
  match skipSpace rest with
  | [] => .ok a
  | rest => .error (.next .trailingCharacters rest)

def Scanner.read {α : Type} (s : Scanner α) (text : String) : Except ReadError α :=
  (s.readChars text.toList).mapError (ReadError.ofFault text)

end ScreenReader.Json
