namespace ScreenReader.Json

/-- A control character in four hexadecimal digits. -/
def controlEscape (n : Nat) : List Char :=
  ['\\', 'u', '0', '0', Nat.digitChar (n / 16), Nat.digitChar (n % 16)]

def escapeChar (c : Char) : List Char :=
  match c with
  | '"' => ['\\', '"']
  | '\\' => ['\\', '\\']
  | '\x08' => ['\\', 'b']
  | '\x0c' => ['\\', 'f']
  | '\n' => ['\\', 'n']
  | '\r' => ['\\', 'r']
  | '\t' => ['\\', 't']
  | c => if c.toNat < 0x20 then controlEscape c.toNat else [c]

namespace Compact

def text (s : String) : List Char :=
  '"' :: s.toList.flatMap escapeChar ++ ['"']

/-- Pieces with a comma between any two. -/
def separated : List (List Char) → List Char
  | [] => []
  | piece :: pieces => piece ++ pieces.flatMap (',' :: ·)

def list (items : List (List Char)) : List Char :=
  '[' :: separated items ++ [']']

def member (key : String) (value : List Char) : List Char :=
  text key ++ ':' :: value

def object (members : List (String × List Char)) : List Char :=
  '{' :: separated (members.map fun (key, value) => member key value) ++ ['}']

end Compact

end ScreenReader.Json
