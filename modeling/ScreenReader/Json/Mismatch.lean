import ScreenReader.Json.Numeral
import ScreenReader.Json.Quoted

namespace ScreenReader.Json

/-- Reads what stands in place of the value expected, and what is left of the text behind it. Of a
list or an object nothing is taken. -/
def found (cs : List Char) : Scan (Found × List Char) :=
  match cs with
  | 'n' :: rest => (word ['u', 'l', 'l'] rest).map (.null, ·)
  | 't' :: rest => (word ['r', 'u', 'e'] rest).map (.boolean true, ·)
  | 'f' :: rest => (word ['a', 'l', 's', 'e'] rest).map (.boolean false, ·)
  | '"' :: rest => (quotedChars rest).map fun (chars, rest) => (.text (String.ofList chars), rest)
  | '[' :: _ => .ok (.list, cs)
  | '{' :: _ => .ok (.object, cs)
  | '-' :: rest => number true rest
  | c :: _ => if c.isDigit then number false cs else .error (.next .expectedValue cs)
  | [] => .error (.next .endInValue [])
where
  number (negative : Bool) (cs : List Char) : Scan (Found × List Char) := do
    let (numeral, rest) ← Numeral.scan .endInValue negative cs
    let value ← numeral.value rest
    .ok (value, rest)

/-- The failure to find a value of the expected type at the front of `cs`. -/
def mismatch (expected : String) (cs : List Char) : Fault :=
  match found cs with
  | .ok (value, rest) => .here (.wrongType value expected) rest
  | .error fault => fault

end ScreenReader.Json
