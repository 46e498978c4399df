import ScreenReader.Decimal.Notation
import ScreenReader.Text.Quoted
import ScreenReader.Text.Utf8

namespace ScreenReader.Json

/-- What stands where something else was expected. -/
inductive Found where
  | null
  | boolean (value : Bool)
  | integer (value : Int)
  | decimal (value : Decimal)
  | text (value : String)
  | list
  | object
  deriving DecidableEq, Repr

def Found.description : Found → String
  | .null => "null"
  | .boolean value => s!"boolean `{value}`"
  | .integer value => s!"integer `{value}`"
  | .decimal value => s!"floating point `{value.text}`"
  | .text value => s!"string {Text.quoted value}"
  | .list => "sequence"
  | .object => "map"

/-- Why a text cannot be read. -/
inductive Cause where
  | endInValue
  | endInText
  | endInList
  | endInObject
  | expectedWord
  | expectedValue
  | expectedCommaOrBracket
  | expectedCommaOrBrace
  | expectedColon
  | keyIsNoText
  | trailingComma
  | trailingCharacters
  | invalidEscape
  | loneSurrogate
  | brokenPair
  | controlCharacter
  | invalidNumber
  | numberOutOfRange
  | wrongType (found : Found) (expected : String)
  | tooFewElements (expected : String)
  | missingField (name : String)
  | duplicateField (name : String)
  deriving DecidableEq, Repr

namespace Cause

def message : Cause → String
  | endInValue => "EOF while parsing a value"
  | endInText => "EOF while parsing a string"
  | endInList => "EOF while parsing a list"
  | endInObject => "EOF while parsing an object"
  | expectedWord => "expected ident"
  | expectedValue => "expected value"
  | expectedCommaOrBracket => "expected `,` or `]`"
  | expectedCommaOrBrace => "expected `,` or `\x7d`"
  | expectedColon => "expected `:`"
  | keyIsNoText => "key must be a string"
  | trailingComma => "trailing comma"
  | trailingCharacters => "trailing characters"
  | invalidEscape => "invalid escape"
  | loneSurrogate => "lone leading surrogate in hex escape"
  | brokenPair => "unexpected end of hex escape"
  | controlCharacter => "control character (\\u0000-\\u001F) found while parsing a string"
  | invalidNumber => "invalid number"
  | numberOutOfRange => "number out of range"
  | wrongType found expected => s!"invalid type: {found.description}, expected {expected}"
  | tooFewElements expected => s!"invalid length 1, expected {expected}"
  | missingField name => s!"missing field `{name}`"
  | duplicateField name => s!"duplicate field `{name}`"

inductive Category where
  | ending
  | data
  | form
  deriving DecidableEq, Repr

/-- A text that ends too soon, a well-formed text of the wrong shape, or an ill-formed one. -/
def category : Cause → Category
  | endInValue | endInText | endInList | endInObject => .ending
  | wrongType .. | tooFewElements .. | missingField .. | duplicateField .. => .data
  | _ => .form

end Cause

/-- A failure with what was left to read, and how many bytes beyond that point it is reported. -/
structure Fault where
  cause : Cause
  rest : List Char
  ahead : Nat
  deriving DecidableEq, Repr

namespace Fault

/-- A failure reported at the point reached. -/
def here (cause : Cause) (rest : List Char) : Fault := ⟨cause, rest, 0⟩

/-- A failure reported one byte further, behind the byte that was looked at. -/
def next (cause : Cause) (rest : List Char) : Fault := ⟨cause, rest, 1⟩

end Fault

/-- Lines count from one; a column is the number of bytes since the line began. -/
structure Location where
  line : Nat
  column : Nat
  deriving DecidableEq, Repr

def byteSize (cs : List Char) : Nat :=
  (String.ofList cs).utf8ByteSize

def Location.after (bytes : Text.Bytes) : Location where
  line := 1 + bytes.count 10
  column := (bytes.reverse.takeWhile (· != 10)).length

structure ReadError where
  cause : Cause
  location : Location
  deriving DecidableEq, Repr

namespace ReadError

/-- Places a fault that came up while reading `text`, at the end of the text at the latest. -/
def ofFault (text : String) (fault : Fault) : ReadError where
  cause := fault.cause
  location := .after
    ((Text.encode text).take (text.utf8ByteSize - byteSize fault.rest + fault.ahead))

def message (e : ReadError) : String :=
  s!"{e.cause.message} at line {e.location.line} column {e.location.column}"

end ReadError

end ScreenReader.Json
