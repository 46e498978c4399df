namespace ScreenReader.Text

def decimalDigit? (c : Char) : Option Nat :=
  if c.isDigit then some (c.toNat - 48) else none

def hexDigit? (c : Char) : Option Nat :=
  if '0' ≤ c ∧ c ≤ '9' then some (c.toNat - 48)
  else if 'a' ≤ c ∧ c ≤ 'f' then some (c.toNat - 87)
  else if 'A' ≤ c ∧ c ≤ 'F' then some (c.toNat - 55)
  else none

/-- The number that a row of hexadecimal digits spells; an empty row spells zero. -/
def hexNumber? (cs : List Char) : Option Nat :=
  cs.foldlM (fun n c => (hexDigit? c).map (16 * n + ·)) 0

/-- A word with one more digit behind it, unless that exceeds the greatest word. -/
def appendDigit? {width : Nat} (radix : Nat) (word : BitVec width) (digit : Nat) :
    Option (BitVec width) :=
  if radix * word.toNat + digit ≤ (BitVec.allOnes width).toNat then
    some (BitVec.ofNat width radix * word + BitVec.ofNat width digit)
  else none

def unsigned (cs : List Char) : List Char :=
  match cs with
  | '+' :: digits => digits
  | digits => digits

/-- The word that a row of digits spells, which a plus may precede. It is made up digit by digit and
given up where it does not fit. -/
def word? (width radix : Nat) (digit? : Char → Option Nat) (cs : List Char) :
    Option (BitVec width) :=
  let digits := unsigned cs
  if digits.isEmpty then none
  else digits.foldlM (fun word c => (digit? c).bind (appendDigit? radix word)) 0

end ScreenReader.Text
