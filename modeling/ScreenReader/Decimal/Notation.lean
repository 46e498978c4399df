import ScreenReader.Decimal.Shortest

namespace ScreenReader.Decimal

def zeros (n : Nat) : List Char := List.replicate n '0'

/-- Digits with a point in them and at least one digit on either side of it. -/
def positional (digits : List Char) (leading : Int) : List Char :=
  if leading < 0 then ['0', '.'] ++ zeros (-leading - 1).toNat ++ digits
  else
    let whole := leading.toNat + 1
    let fraction := digits.drop whole
    digits.take whole ++ zeros (whole - digits.length) ++ ['.'] ++
      (if fraction.isEmpty then ['0'] else fraction)

/-- One digit before the point, and an exponent with its sign. -/
def scientific (digits : List Char) (leading : Int) : List Char :=
  let fraction := digits.drop 1
  digits.take 1 ++ (if fraction.isEmpty then [] else '.' :: fraction) ++ ['e'] ++
    [if leading < 0 then '-' else '+'] ++ Nat.toDigits 10 leading.natAbs

/-- Positional from a hundred thousandth up to below ten to the sixteenth, scientific elsewhere. -/
def text (x : Decimal) : String :=
  let digits := Nat.toDigits 10 x.digits
  let leading : Int := x.exponent + digits.length - 1
  let body :=
    if -5 ≤ leading ∧ leading ≤ 15 then positional digits leading else scientific digits leading
  String.ofList (if x.negative then '-' :: body else body)

end ScreenReader.Decimal
