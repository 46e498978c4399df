namespace ScreenReader

/-- The number `digits · 10 ^ exponent`, with its sign kept apart so that zero has one too. -/
structure Decimal where
  negative : Bool
  digits : Nat
  exponent : Int
  deriving DecidableEq, Repr

/-- The positive number `significand · 2 ^ exponent`. -/
structure Binary where
  significand : Nat
  exponent : Int

namespace Binary

/-- The first bit of a significand of full length. -/
def leadingBit : Nat := 0x10000000000000

def leastExponent : Int := -1074

/-- The numbers `a · 10 ^ p` and `b · 2 ^ q`, both multiplied by what makes them whole. -/
def commonScale (a : Nat) (p : Int) (b : Nat) (q : Int) : Nat × Nat :=
  (a * Nat.pow 10 p.toNat <<< (-q).toNat, b * Nat.pow 10 (-p).toNat <<< q.toNat)

def leDecimal (b : Nat) (q : Int) (a : Nat) (p : Int) : Bool :=
  let (decimal, binary) := commonScale a p b q
  binary ≤ decimal

def decimalLe (a : Nat) (p : Int) (b : Nat) (q : Int) : Bool :=
  let (decimal, binary) := commonScale a p b q
  decimal ≤ binary

/-- The bounds of what rounds to `x`, in quarters of a unit in its last place. Below a power of two
the next number lies only half as far. -/
def bounds (x : Binary) : Nat × Nat :=
  let below := if x.significand = leadingBit ∧ x.exponent ≠ leastExponent then 1 else 2
  (4 * x.significand - below, 4 * x.significand + 2)

/-- Whether `a · 10 ^ p` rounds to `x`: a tie goes to the even significand. -/
def isNearest (x : Binary) (a : Nat) (p : Int) : Bool :=
  let (low, high) := x.bounds
  let q := x.exponent - 2
  if x.significand % 2 = 0 then leDecimal low q a p && decimalLe a p high q
  else !decimalLe a p low q && !leDecimal high q a p

/-- How often `10 ^ p` goes into `x`. -/
def floorAt (x : Binary) (p : Int) : Nat :=
  let (unit, whole) := commonScale 1 p x.significand x.exponent
  whole / unit

/-- The exponent of the leading decimal digit. -/
def leadingExponent (x : Binary) : Int :=
  let whole := x.floorAt 0
  if whole ≠ 0 then (Nat.toDigits 10 whole).length - 1
  else match (List.range 400).find? fun (n : Nat) => x.floorAt (-n) ≠ 0 with
    | some n => -n
    | none => 0

/-- Of two neighbours on a grid, the one nearer to `x`; on a tie the even one. -/
def nearer (x : Binary) (a : Nat) (p : Int) : Nat :=
  let (twiceMiddle, twice) := commonScale (2 * a + 1) p (2 * x.significand) x.exponent
  if twice < twiceMiddle ∨ (twice = twiceMiddle ∧ a % 2 = 0) then a else a + 1

/-- The decimal of this many digits that rounds to `x` and is nearest to it, if there is one. -/
def ofLength? (x : Binary) (length : Nat) : Option (Nat × Int) :=
  let p := x.leadingExponent - (length - 1 : Nat)
  let a := x.floorAt p
  match x.isNearest a p, x.isNearest (a + 1) p with
  | true, true => some (x.nearer a p, p)
  | true, false => some (a, p)
  | false, true => some (a + 1, p)
  | false, false => none

/-- The fewest digits that round to `x`; seventeen always do. -/
def shortest (x : Binary) : Nat × Int :=
  ((List.range 17).findSome? fun n => x.ofLength? (n + 1)).getD (0, 0)

end Binary

namespace Decimal

/-- Moves the zeros at the end of the digits into the exponent; `steps` bounds their number. -/
def stripZeros : Nat → Nat × Int → Nat × Int
  | 0, x => x
  | steps + 1, (digits, exponent) =>
    if digits ≠ 0 ∧ digits % 10 = 0 then stripZeros steps (digits / 10, exponent + 1)
    else (digits, exponent)

/-- The decimal with the fewest digits that reads back as the finite number `x`. -/
def ofFloat (x : Float) : Decimal :=
  let bits := x.toBits.toNat
  let negative := 0x8000000000000000 ≤ bits
  let fraction := bits % Binary.leadingBit
  let biased := bits / Binary.leadingBit % 0x800
  let binary : Binary :=
    if biased = 0 then ⟨fraction, Binary.leastExponent⟩
    else ⟨Binary.leadingBit + fraction, Binary.leastExponent + (biased - 1 : Nat)⟩
  if binary.significand = 0 then ⟨negative, 0, 0⟩
  else
    let (digits, exponent) := stripZeros 17 binary.shortest
    ⟨negative, digits, exponent⟩

end Decimal

end ScreenReader
