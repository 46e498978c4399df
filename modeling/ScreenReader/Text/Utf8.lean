namespace ScreenReader.Text

abbrev Bytes := List UInt8

def encode (s : String) : Bytes :=
  s.toUTF8.data.toList

def decode? (bytes : Bytes) : Option String :=
  String.fromUTF8? ⟨bytes.toArray⟩

/-- Bytes are read as a text where they are its encoding, and else not at all. -/
theorem decode?_eq_some_iff {bytes : Bytes} {s : String} :
    decode? bytes = some s ↔ encode s = bytes := by
  unfold decode? String.fromUTF8?
  rw [Option.dite_none_right_eq_some]
  constructor
  · rintro ⟨valid, read⟩
    cases read
    rfl
  · rintro rfl
    exact ⟨s.isValidUTF8, rfl⟩

/-- A character in the making: its value so far, the continuation bytes still due, and the least and
the greatest byte that may come next. -/
structure Pending where
  value : Nat
  due : Nat
  low : Nat
  high : Nat

namespace Pending

/-- What a byte that is not ASCII begins, if it can begin anything. -/
def start? (byte : Nat) : Option Pending :=
  if byte < 0xC2 then none
  else if byte < 0xE0 then some ⟨byte - 0xC0, 1, 0x80, 0xBF⟩
  else if byte < 0xF0 then
    some ⟨byte - 0xE0, 2, if byte = 0xE0 then 0xA0 else 0x80, if byte = 0xED then 0x9F else 0xBF⟩
  else if byte < 0xF5 then
    some ⟨byte - 0xF0, 3, if byte = 0xF0 then 0x90 else 0x80, if byte = 0xF4 then 0x8F else 0xBF⟩
  else none

def accepts (p : Pending) (byte : Nat) : Bool :=
  p.low ≤ byte && byte ≤ p.high

def push (p : Pending) (byte : Nat) : Pending :=
  ⟨p.value * 64 + (byte - 0x80), p.due - 1, 0x80, 0xBF⟩

end Pending

def replacement : Char := '\ufffd'

/-- What is shown for `byte` between two characters, and the character that it begins. -/
def freshByte (byte : Nat) : List Char × Option Pending :=
  if byte < 0x80 then ([Char.ofNat byte], none)
  else match Pending.start? byte with
    | some p => ([], some p)
    | none => ([replacement], none)

/-- Reads the bytes from within a character, or between two of them. -/
def decodeFrom : Option Pending → Bytes → List Char
  | none, [] => []
  | some _, [] => [replacement]
  | none, b :: rest =>
    let (shown, next) := freshByte b.toNat
    shown ++ decodeFrom next rest
  | some p, b :: rest =>
    if p.accepts b.toNat then
      let q := p.push b.toNat
      if q.due = 0 then Char.ofNat q.value :: decodeFrom none rest else decodeFrom (some q) rest
    else
      let (shown, next) := freshByte b.toNat
      replacement :: shown ++ decodeFrom next rest

/-- The bytes as text, with one replacement character for each longest stretch that begins a
character and does not end it, and for each byte that begins none. -/
def decodeLossy (bytes : Bytes) : String :=
  String.ofList (decodeFrom none bytes)

end ScreenReader.Text
