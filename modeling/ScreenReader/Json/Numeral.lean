import ScreenReader.Json.Scanner

namespace ScreenReader.Json

/-- A number as it is written; the digits of its parts are not empty. -/
structure Numeral where
  negative : Bool
  whole : List Char
  fraction : Option (List Char)
  exponent : Option (Bool × List Char)
  deriving DecidableEq, Repr

namespace Numeral

def takeDigits (cs : List Char) : List Char × List Char :=
  (cs.takeWhile Char.isDigit, cs.dropWhile Char.isDigit)

/-- The digits before the point, where a zero only stands alone. -/
def scanWhole (atEnd : Cause) : List Char → Scan (List Char × List Char)
  | [] => .error (.here atEnd [])
  | '0' :: rest =>
    if (rest.head?.map Char.isDigit).getD false then .error (.next .invalidNumber rest)
    else .ok (['0'], rest)
  | c :: rest =>
    if c.isDigit then .ok (takeDigits (c :: rest)) else .error (.next .invalidNumber (c :: rest))

def scanFraction (atEnd : Cause) : List Char → Scan (Option (List Char) × List Char)
  | '.' :: cs =>
    match takeDigits cs with
    | ([], []) => .error (.next atEnd [])
    | ([], rest) => .error (.next .invalidNumber rest)
    | (digits, rest) => .ok (some digits, rest)
  | cs => .ok (none, cs)

/-- The sign before the digits of an exponent; true for a minus. -/
def scanSign : List Char → Bool × List Char
  | '+' :: rest => (false, rest)
  | '-' :: rest => (true, rest)
  | cs => (false, cs)

def scanExponent (atEnd : Cause) : List Char → Scan (Option (Bool × List Char) × List Char)
  | [] => .ok (none, [])
  | c :: cs =>
    if c = 'e' ∨ c = 'E' then
      let (negative, cs) := scanSign cs
      match takeDigits cs with
      | ([], []) => .error (.here atEnd [])
      | ([], rest) => .error (.next .invalidNumber rest)
      | (digits, rest) => .ok (some (negative, digits), rest)
    else .ok (none, c :: cs)

/-- Reads a number from behind its minus, if it has one. `atEnd` is the cause to report where the
text ends within the number. -/
def scan (atEnd : Cause) (negative : Bool) (cs : List Char) : Scan (Numeral × List Char) := do
  let (whole, cs) ← scanWhole atEnd cs
  let (fraction, cs) ← scanFraction atEnd cs
  let (exponent, rest) ← scanExponent atEnd cs
  .ok ({ negative, whole, fraction, exponent }, rest)

theorem length_takeDigits_le (cs : List Char) : (takeDigits cs).2.length ≤ cs.length :=
  (List.dropWhile_suffix Char.isDigit).length_le

theorem length_scanWhole_lt {atEnd : Cause} {cs digits rest : List Char}
    (h : scanWhole atEnd cs = .ok (digits, rest)) : rest.length < cs.length := by
  unfold scanWhole at h
  split at h
  next => contradiction
  next =>
    split at h
    next => contradiction
    next =>
      cases h
      exact Nat.lt_succ_self _
  next c tail _ =>
    split at h
    next hd =>
      cases h
      rw [List.dropWhile_cons_of_pos hd]
      exact Nat.lt_succ_of_le (List.dropWhile_suffix Char.isDigit).length_le
    next => contradiction

theorem length_scanFraction_le {atEnd : Cause} {cs rest : List Char} {digits : Option (List Char)}
    (h : scanFraction atEnd cs = .ok (digits, rest)) : rest.length ≤ cs.length := by
  unfold scanFraction at h
  split at h
  next tail =>
    have hd := length_takeDigits_le tail
    rw [List.length_cons]
    split at h
    next => contradiction
    next => contradiction
    next eq =>
      cases h
      simp only [eq] at hd
      omega
  next =>
    cases h
    exact Nat.le_refl _

theorem length_scanSign_le (cs : List Char) : (scanSign cs).2.length ≤ cs.length := by
  unfold scanSign
  split
  next => exact Nat.le_succ _
  next => exact Nat.le_succ _
  next => exact Nat.le_refl _

theorem length_scanExponent_le {atEnd : Cause} {cs rest : List Char}
    {exponent : Option (Bool × List Char)}
    (h : scanExponent atEnd cs = .ok (exponent, rest)) : rest.length ≤ cs.length := by
  unfold scanExponent at h
  split at h
  next =>
    cases h
    exact Nat.le_refl _
  next c tail =>
    split at h
    next =>
      have hs := length_scanSign_le tail
      have hd := length_takeDigits_le (scanSign tail).2
      rw [List.length_cons]
      dsimp only at h
      split at h
      next => contradiction
      next => contradiction
      next eq =>
        cases h
        simp only [eq] at hd
        omega
    next =>
      cases h
      exact Nat.le_refl _

theorem length_scan_lt {atEnd : Cause} {negative : Bool} {cs rest : List Char} {n : Numeral}
    (h : scan atEnd negative cs = .ok (n, rest)) : rest.length < cs.length := by
  obtain ⟨⟨whole, cs₁⟩, hw, h⟩ := bind_eq_ok.mp h
  obtain ⟨⟨fraction, cs₂⟩, hf, h⟩ := bind_eq_ok.mp h
  obtain ⟨⟨exponent, cs₃⟩, he, h⟩ := bind_eq_ok.mp h
  have := length_scanWhole_lt hw
  have := length_scanFraction_le hf
  have := length_scanExponent_le he
  cases h
  omega

def digitValue (c : Char) : Nat := c.toNat - 48

/-- Takes digits into a significand for as long as 64 bits hold it; also how many were taken and how
many were left. -/
def gather (significand : Nat) : List Char → Nat × Nat × Nat
  | [] => (significand, 0, 0)
  | c :: cs =>
    let next := significand * 10 + digitValue c
    if next < UInt64.size then
      let (total, taken, left) := gather next cs
      (total, taken + 1, left)
    else (significand, 0, cs.length + 1)

/-- The value of an exponent's digits, or what is left of them behind the digit that takes it beyond
the range of exponents. -/
def gatherExponent (value : Nat) : List Char → Except (List Char) Nat
  | [] => .ok value
  | c :: cs =>
    let next := value * 10 + digitValue c
    if next < 0x80000000 then gatherExponent next cs else .error cs

def powerOfTen (n : Nat) : Float := Float.ofScientific 1 false n

def greatestPower : Nat := 308

/-- `x` divided by `10 ^ n`, one greatest power of ten at a time. -/
def scaleDown (x : Float) (n : Nat) : Float :=
  if n ≤ greatestPower then x / powerOfTen n
  else if x == 0 then x
  else scaleDown (x / powerOfTen greatestPower) (n - greatestPower)
termination_by n
decreasing_by simp only [greatestPower] at *; omega

/-- `x · 10 ^ n`, unless that is beyond the range of floating point numbers. -/
def scaleUp? (x : Float) (n : Nat) : Option Float :=
  if n ≤ greatestPower then
    let y := x * powerOfTen n
    if y.isInf then none else some y
  else if x == 0 then some x
  else none

def float? (significand : Nat) (exponent : Int) : Option Float :=
  let x := significand.toUInt64.toFloat
  if 0 ≤ exponent then scaleUp? x exponent.toNat else some (scaleDown x (-exponent).toNat)

/-- Integers are told as they are where 64 bits hold them, all else in floating point. -/
def value (n : Numeral) (rest : List Char) : Except Fault Found :=
  let (significand, _, dropped) := gather 0 n.whole
  let decimal (x : Float) : Found := .decimal (.ofFloat (if n.negative then -x else x))
  let scaled (significand : Nat) (exponent : Int) : Except Fault Found :=
    match float? significand exponent with
    | some x => .ok (decimal x)
    | none => .error (.here .numberOutOfRange rest)
  let (significand, taken, _) :=
    match n.fraction with
    | some digits => gather significand digits
    | none => (significand, 0, 0)
  let start : Int := (dropped : Int) - taken
  match n.exponent with
  | some (negative, digits) =>
    match gatherExponent 0 digits with
    | .ok exponent => scaled significand (if negative then start - exponent else start + exponent)
    | .error left =>
      if significand = 0 ∨ negative then .ok (decimal 0)
      else .error (.here .numberOutOfRange (left ++ rest))
  | none =>
    if n.fraction.isSome ∨ dropped ≠ 0 then scaled significand start
    else if n.negative then
      if 0 < significand ∧ significand ≤ 0x8000000000000000 then .ok (.integer (-significand))
      else .ok (decimal significand.toUInt64.toFloat)
    else .ok (.integer significand)

end Numeral

end ScreenReader.Json
