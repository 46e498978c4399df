import ScreenReader.Json.Collection
import ScreenReader.Proofs.Text.CodePoint

namespace ScreenReader.Json

section Space

/-- Space as it may stand between the parts of a value. -/
def IsGap (cs : List Char) : Prop :=
  ∀ c ∈ cs, isSpace c

theorem isGap_nil : IsGap [] :=
  List.forall_mem_nil _

theorem skipSpace_gap {gap : List Char} (space : IsGap gap) (cs : List Char) :
    skipSpace (gap ++ cs) = skipSpace cs :=
  List.dropWhile_append_of_pos space

theorem skipSpace_cons {c : Char} (solid : isSpace c = false) (cs : List Char) :
    skipSpace (c :: cs) = c :: cs :=
  List.dropWhile_cons_of_neg (by simp [solid])

theorem skipSpace_gap_cons {gap : List Char} (space : IsGap gap) {c : Char}
    (solid : isSpace c = false) (cs : List Char) : skipSpace (gap ++ c :: cs) = c :: cs := by
  rw [skipSpace_gap space, skipSpace_cons solid]

/-- A value begins neither with space nor with what may stand behind values. -/
def Begins (cs : List Char) : Prop :=
  ∃ c tail, cs = c :: tail ∧ isSpace c = false ∧ c ≠ ',' ∧ c ≠ ']' ∧ c ≠ '}'

theorem Begins.append {cs : List Char} (begins : Begins cs) (rest : List Char) :
    Begins (cs ++ rest) := by
  obtain ⟨c, tail, rfl, solid⟩ := begins
  exact ⟨c, tail ++ rest, rfl, solid⟩

theorem Begins.skipSpace {cs : List Char} (begins : Begins cs) {gap : List Char}
    (space : IsGap gap) : skipSpace (gap ++ cs) = cs := by
  obtain ⟨c, tail, rfl, solid, -⟩ := begins
  exact skipSpace_gap_cons space solid tail

/-- What may stand behind a value. -/
def Ends (rest : List Char) : Prop :=
  ∀ c ∈ rest.head?, isSpace c ∨ c = ',' ∨ c = ']' ∨ c = '}'

theorem ends_nil : Ends [] := by
  intro c first
  cases first

theorem ends_cons {c : Char} (behind : isSpace c ∨ c = ',' ∨ c = ']' ∨ c = '}') (rest : List Char) :
    Ends (c :: rest) := by
  intro d first
  cases first
  exact behind

theorem IsGap.ends {gap : List Char} (space : IsGap gap) {rest : List Char} (ends : Ends rest) :
    Ends (gap ++ rest) := by
  cases gap with
  | nil => exact ends
  | cons c gap => exact ends_cons (.inl (space c List.mem_cons_self)) _

end Space

section Listed

/-- The comma in front of all pieces but the first. -/
def comma (first : Bool) : List Char :=
  if first then [] else [',']

/-- Pieces as they are listed within a bracket, up to its end, with any space around them. -/
inductive Listed : Bool → List (List Char) → List Char → Prop
  | nil {first : Bool} {gap : List Char} : IsGap gap → Listed first [] gap
  | cons {first : Bool} {before gap piece cs : List Char} {pieces : List (List Char)} :
    IsGap before → IsGap gap → Listed false pieces cs →
      Listed first (piece :: pieces) (before ++ (comma first ++ (gap ++ (piece ++ cs))))

theorem Listed.ends {pieces : List (List Char)} {cs : List Char} (listed : Listed false pieces cs)
    {closer : Char} (closes : closer = ']' ∨ closer = '}') (rest : List Char) :
    Ends (cs ++ closer :: rest) := by
  cases listed with
  | nil space => exact space.ends (ends_cons (.inr (.inr closes)) rest)
  | cons before =>
    rw [List.append_assoc]
    exact before.ends (ends_cons (.inr (.inl rfl)) _)

/-- A member of an object: a key and, behind the colon, a value. -/
def IsMember (IsKey : List Char → Prop) (value piece : List Char) : Prop :=
  ∃ key gap lead, IsKey key ∧ IsGap gap ∧ IsGap lead ∧
    piece = key ++ (gap ++ ':' :: (lead ++ value))

end Listed

section Spelled

/-- A text that is made up of one value and the space around it. -/
def IsDocument (IsSpelled : List Char → Prop) (text : String) : Prop :=
  ∃ lead cs trail, IsGap lead ∧ IsSpelled cs ∧ IsGap trail ∧ text.toList = lead ++ (cs ++ trail)

/-- Escapes of one letter, each with the character that it stands for. -/
def letterEscapes : List (Char × Char) :=
  [('"', '"'), ('\\', '\\'), ('/', '/'), ('b', '\x08'), ('f', '\x0c'), ('n', '\n'), ('r', '\r'),
    ('t', '\t')]

/-- A unit of UTF-16 in four hexadecimal digits. -/
def SpellsUnit (n : Nat) (digits : List Char) : Prop :=
  digits.length = 4 ∧ (∀ c ∈ digits, c ∈ Text.hexDigits) ∧
    Nat.ofDigits 16 (digits.reverse.map Text.digitValue) = n

/-- A character as it may be written in a text: as itself if it need not be escaped, by the escape
of one letter, or by its units in UTF-16. -/
inductive SpellsChar : Char → List Char → Prop
  | plain {c : Char} : c ≠ '"' → c ≠ '\\' → 0x20 ≤ c.toNat → SpellsChar c [c]
  | letter {c e : Char} : (e, c) ∈ letterEscapes → SpellsChar c ['\\', e]
  | unit {c : Char} {n : Nat} {digits : List Char} : Text.utf16Units c = [n] → SpellsUnit n digits →
    SpellsChar c ('\\' :: 'u' :: digits)
  | pair {c : Char} {high low : Nat} {first second : List Char} :
    Text.utf16Units c = [high, low] → SpellsUnit high first → SpellsUnit low second →
      SpellsChar c ('\\' :: 'u' :: (first ++ '\\' :: 'u' :: second))

/-- A text as it may be written. -/
def Spells (s : String) (cs : List Char) : Prop :=
  ∃ units, List.Forall₂ SpellsChar s.toList units ∧ cs = '"' :: (units.flatten ++ ['"'])

/-- A value that may be missing; then null is written. -/
def SpellsOptional {α : Type} (SpellsValue : α → List Char → Prop) : Option α → List Char → Prop
  | none, cs => cs = ['n', 'u', 'l', 'l']
  | some a, cs => SpellsValue a cs

/-- A list as it may be written, of items that are written in their own way. -/
def SpellsList {α : Type} (SpellsItem : α → List Char → Prop) (as : List α) (cs : List Char) :
    Prop :=
  ∃ pieces body, List.Forall₂ SpellsItem as pieces ∧ Listed true pieces body ∧
    cs = '[' :: (body ++ [']'])

/-- An object as it may be written, of members in this order, each with its key and the text of its
value. -/
def SpellsObject (rows : List (String × List Char)) (cs : List Char) : Prop :=
  ∃ pieces body, List.Forall₂ (fun row => IsMember (Spells row.1) row.2) rows pieces ∧
    Listed true pieces body ∧ cs = '{' :: (body ++ ['}'])

/-- A dictionary as it may be written, its entries in any order. -/
def SpellsDictionary {α : Type} (SpellsValue : α → List Char → Prop) (d : Dictionary α)
    (cs : List Char) : Prop :=
  ∃ entries rows, entries.Perm d.entries ∧
    List.Forall₂ (fun entry row => entry.1 = row.1 ∧ SpellsValue entry.2 row.2) entries rows ∧
      SpellsObject rows cs

end Spelled

section Form

/-- A character of a text or an escape, whatever it stands for. -/
inductive IsUnit : List Char → Prop
  | plain {c : Char} : c ≠ '"' → c ≠ '\\' → 0x20 ≤ c.toNat → IsUnit [c]
  | letter {c e : Char} : (e, c) ∈ letterEscapes → IsUnit ['\\', e]
  | code {n : Nat} {digits : List Char} : SpellsUnit n digits → IsUnit ('\\' :: 'u' :: digits)

def IsText (cs : List Char) : Prop :=
  ∃ units : List (List Char), (∀ unit ∈ units, IsUnit unit) ∧ cs = '"' :: (units.flatten ++ ['"'])

def IsDigits (cs : List Char) : Prop :=
  cs ≠ [] ∧ ∀ c ∈ cs, c.isDigit

/-- Whole numbers have no leading zeros. -/
def IsWhole (cs : List Char) : Prop :=
  cs = ['0'] ∨ IsDigits cs ∧ cs.head? ≠ some '0'

def IsFraction (cs : List Char) : Prop :=
  cs = [] ∨ ∃ digits, IsDigits digits ∧ cs = '.' :: digits

def IsExponent (cs : List Char) : Prop :=
  cs = [] ∨ ∃ e sign digits, (e = 'e' ∨ e = 'E') ∧ (sign = [] ∨ sign = ['+'] ∨ sign = ['-']) ∧
    IsDigits digits ∧ cs = e :: (sign ++ digits)

def IsUnsigned (cs : List Char) : Prop :=
  ∃ whole fraction exponent, IsWhole whole ∧ IsFraction fraction ∧ IsExponent exponent ∧
    cs = whole ++ (fraction ++ exponent)

/-- The well-formed values. -/
inductive IsValue : List Char → Prop
  | null : IsValue ['n', 'u', 'l', 'l']
  | yes : IsValue ['t', 'r', 'u', 'e']
  | no : IsValue ['f', 'a', 'l', 's', 'e']
  | number {cs : List Char} : IsUnsigned cs → IsValue cs
  | negative {cs : List Char} : IsUnsigned cs → IsValue ('-' :: cs)
  | text {cs : List Char} : IsText cs → IsValue cs
  | list {items : List (List Char)} {body : List Char} : Listed true items body →
    (∀ item ∈ items, IsValue item) → IsValue ('[' :: (body ++ [']']))
  | object {values pieces : List (List Char)} {body : List Char} : Listed true pieces body →
    List.Forall₂ (IsMember IsText) values pieces → (∀ value ∈ values, IsValue value) →
      IsValue ('{' :: (body ++ ['}']))

end Form

end ScreenReader.Json
