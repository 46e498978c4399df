import ScreenReader.Text.Number

namespace ScreenReader.Text

/-- The character with this code point, if it is a Unicode scalar value. -/
def scalar? (n : Nat) : Option Char :=
  if h : n.isValidChar then some (Char.ofNatAux n h) else none

/-- The character whose code point is spelled in hexadecimal digits alone; zeros may lead. -/
def ofHex? (hex : String) : Option Char :=
  if hex.isEmpty || !hex.toList.all (fun c => (hexDigit? c).isSome) then none
  else (word? 32 16 hexDigit? hex.toList).bind fun word => scalar? word.toNat

def utf16Units (c : Char) : List Nat :=
  let n := c.toNat
  if n < 0x10000 then [n]
  else [0xD800 + (n - 0x10000) / 0x400, 0xDC00 + (n - 0x10000) % 0x400]

end ScreenReader.Text
