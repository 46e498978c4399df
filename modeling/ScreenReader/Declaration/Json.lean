import ScreenReader.Declaration
import ScreenReader.Json.Compact
import ScreenReader.Json.Document
import ScreenReader.Json.Ignored

namespace ScreenReader

open Json

/-- The type of a declaration as it is told in messages. -/
def Kind.typeName : Kind → String
  | .symbol => "SymbolDescriptor"
  | .function => "FunctionDescriptor"

namespace Declaration

inductive Field where
  | category
  | subject
  | mappings
  deriving DecidableEq, Repr

def Field.name (kind : Kind) : Field → String
  | .category => "category"
  | .subject =>
    match kind with
    | .symbol => "key"
    | .function => "names"
  | .mappings => "mappings"

def Field.ofName? (kind : Kind) (name : String) : Option Field :=
  [Field.category, .subject, .mappings].find? fun field => field.name kind == name

def scanCategory : Scanner (Option String) := .optional .text

def scanSubject : (kind : Kind) → Scanner kind.Subject
  | .symbol => .text
  | .function => .list .text

def scanMappings : Scanner Mappings := .dictionary (.dictionary .text)

/-- The fields read so far. -/
structure Fields (kind : Kind) where
  category : Option (Option String) := none
  subject : Option kind.Subject := none
  mappings : Option Mappings := none

def Fields.has {kind : Kind} (fields : Fields kind) : Field → Bool
  | .category => fields.category.isSome
  | .subject => fields.subject.isSome
  | .mappings => fields.mappings.isSome

/-- Where the reader of an object stands when it gives up: behind the closing brace, if that is
next. -/
def leaveObject (cs : List Char) : List Char :=
  match skipSpace cs with
  | '}' :: rest => rest
  | cs => cs

/-- Where the reader of a list stands when it gives up: behind the closing bracket, if that is
next. -/
def leaveList (cs : List Char) : List Char :=
  match endList cs with
  | .ok rest => rest
  | .error fault => fault.rest

def duplicate {kind : Kind} (field : Field) : Scanner (Fields kind) where
  scan cs := .error (.here (.duplicateField (field.name kind)) (leaveObject cs))
  shortens h := by contradiction

/-- Reads one member of an object. A member that is no field is passed over. -/
def scanField {kind : Kind} (fields : Fields kind) (name : String) : Scanner (Fields kind) :=
  match Field.ofName? kind name with
  | none => Scanner.ignored.afterColon.map fun _ => fields
  | some field =>
    if fields.has field then duplicate field
    else match field with
      | .category => scanCategory.afterColon.map fun a => { fields with category := some a }
      | .subject => (scanSubject kind).afterColon.map fun a => { fields with subject := some a }
      | .mappings => scanMappings.afterColon.map fun a => { fields with mappings := some a }

/-- Reads a declaration from behind the opening brace: fields in any order, of which only the
subject has to be there. -/
def scanObject (kind : Kind) (cs : List Char) : Scan (Declaration kind × List Char) := do
  let (fields, cs) ← members scanField true ({} : Fields kind) cs
  match fields.subject with
  | none => .error (.here (.missingField (Field.subject.name kind)) (leaveObject cs))
  | some subject =>
    .ok ({ category := fields.category.getD none, subject, mappings := fields.mappings.getD ∅ },
      cs.drop 1)

/-- Reads an element of a list if there is one more, and else takes the default, which may be to
fail. -/
def scanElement {α : Type} (item : Scanner α) (first : Bool) (default : List Char → Scan α)
    (cs : List Char) : Scan (α × List Char) := do
  match ← nextElement first cs with
  | .element cs => item.scan cs
  | .close cs => (default cs).map (·, cs)

/-- Reads a declaration from behind the opening bracket: category, subject and mappings, of which
only the subject has to be there. -/
def scanList (kind : Kind) (cs : List Char) : Scan (Declaration kind × List Char) := do
  let (category, cs) ← scanElement scanCategory true (fun _ => .ok none) cs
  let (subject, cs) ← scanElement (scanSubject kind) false (fun cs =>
    .error (.here (.tooFewElements s!"struct {kind.typeName} with 3 elements") (leaveList cs))) cs
  let (mappings, cs) ← scanElement scanMappings false (fun _ => .ok ∅) cs
  let rest ← endList cs
  .ok ({ category, subject, mappings }, rest)

theorem length_scanObject_le {kind : Kind} {d : Declaration kind} {cs rest : List Char}
    (h : scanObject kind cs = .ok (d, rest)) : rest.length ≤ cs.length := by
  obtain ⟨⟨fields, close⟩, hm, h⟩ := bind_eq_ok.mp h
  have := length_members_le hm
  dsimp only at h
  split at h
  next => contradiction
  next =>
    cases h
    rw [List.length_drop]
    omega

theorem length_scanElement_le {α : Type} {item : Scanner α} {first : Bool}
    {default : List Char → Scan α} {cs rest : List Char} {a : α}
    (h : scanElement item first default cs = .ok (a, rest)) : rest.length ≤ cs.length := by
  obtain ⟨turn, hn, h⟩ := bind_eq_ok.mp h
  refine Nat.le_trans ?_ (length_nextElement_le hn)
  cases turn with
  | element start => exact Nat.le_of_lt (item.shortens h)
  | close start =>
    obtain ⟨b, _, eq⟩ := map_eq_ok.mp h
    obtain ⟨_, rfl⟩ := Prod.mk.inj eq
    exact Nat.le_refl _

theorem length_scanList_lt {kind : Kind} {d : Declaration kind} {cs rest : List Char}
    (h : scanList kind cs = .ok (d, rest)) : rest.length < cs.length := by
  obtain ⟨⟨category, cs₁⟩, hc, h⟩ := bind_eq_ok.mp h
  obtain ⟨⟨subject, cs₂⟩, hs, h⟩ := bind_eq_ok.mp h
  obtain ⟨⟨mappings, cs₃⟩, hm, h⟩ := bind_eq_ok.mp h
  obtain ⟨left, he, h⟩ := bind_eq_ok.mp h
  have := length_scanElement_le hc
  have := length_scanElement_le hs
  have := length_scanElement_le hm
  have := length_endList_lt he
  cases h
  omega

/-- A declaration is written as an object of its fields, or as a list of them. -/
def scanner (kind : Kind) : Scanner (Declaration kind) where
  scan cs :=
    match skipSpace cs with
    | [] => .error (.next .endInValue [])
    | '{' :: cs => scanObject kind cs
    | '[' :: cs => scanList kind cs
    | cs => .error (mismatch s!"struct {kind.typeName}" cs)
  shortens h := by
    split at h
    next => contradiction
    next eq => exact Nat.lt_of_le_of_lt (length_scanObject_le h) (length_lt_of_skipSpace eq)
    next eq => exact Nat.lt_trans (length_scanList_lt h) (length_lt_of_skipSpace eq)
    next => contradiction

def ofJson (kind : Kind) (text : String) : Except ReadError (Declaration kind) :=
  (scanner kind).read text

def listOfJson (kind : Kind) (text : String) : Except ReadError (List (Declaration kind)) :=
  (Scanner.list (scanner kind)).read text

def compactSubject : {kind : Kind} → kind.Subject → List Char
  | .symbol, key => Compact.text key
  | .function, names => Compact.list (names.map Compact.text)

def compactMappings (m : Mappings) : List Char :=
  Compact.object (m.entries.map fun (domain, styles) =>
    (domain, Compact.object (styles.entries.map fun (style, text) => (style, Compact.text text))))

/-- The object of the fields, without space; a category that is absent is left out. -/
def compact {kind : Kind} (d : Declaration kind) : List Char :=
  let category := d.category.toList.map fun c => (Field.category.name kind, Compact.text c)
  Compact.object (category ++
    [(Field.subject.name kind, compactSubject d.subject),
      (Field.mappings.name kind, compactMappings d.mappings)])

def toJson {kind : Kind} (d : Declaration kind) : String :=
  String.ofList d.compact

end Declaration

end ScreenReader
