import ScreenReader.Text.Utf8

namespace ScreenReader

/-- A path in a file system, which need not be readable as text. -/
@[ext]
structure Path where
  bytes : Text.Bytes
  deriving DecidableEq, Repr

namespace Path

def slash : UInt8 := 47

/-- The most bytes that a path may have to be followed. -/
def limit : Nat := 4095

/-- The most bytes that a name may have. -/
def nameLimit : Nat := 255

def ofString (s : String) : Path := ⟨Text.encode s⟩

/-- The path of an entry of the directory, with a slash between where one is missing. -/
def join (p : Path) (name : Text.Bytes) : Path :=
  if p.bytes = [] ∨ p.bytes.getLast? = some slash then ⟨p.bytes ++ name⟩
  else ⟨p.bytes ++ slash :: name⟩

def isAbsolute (p : Path) : Bool :=
  p.bytes.head? == some slash

def isTooLong (p : Path) : Bool :=
  limit < p.bytes.length

def steps (p : Path) : List Text.Bytes :=
  p.bytes.splitOn slash

def display (p : Path) : String :=
  Text.decodeLossy p.bytes

end Path

end ScreenReader
