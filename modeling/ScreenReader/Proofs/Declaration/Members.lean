import ScreenReader.Declaration.Json
import ScreenReader.Proofs.Json.Compact
import ScreenReader.Proofs.Json.Skipped

namespace ScreenReader.Declaration

open Json

variable {kind : Kind}

def SpellsSubject : {kind : Kind} → kind.Subject → List Char → Prop
  | .symbol, key => Spells key
  | .function, names => SpellsList Spells names

/-- How the value of a field may be written. -/
def SpellsField (d : Declaration kind) : Field → List Char → Prop
  | .category => SpellsOptional Spells d.category
  | .subject => SpellsSubject d.subject
  | .mappings => SpellsDictionary (SpellsDictionary Spells) d.mappings

/-- The fields that may be left out, since the declaration has the default there. -/
def MayOmit (d : Declaration kind) : Field → Prop
  | .category => d.category = none
  | .subject => False
  | .mappings => d.mappings = ∅

/-- A member that agrees with a declaration: a field with the value that it has there, or no field,
with any value at all. -/
inductive Fits (d : Declaration kind) : String × List Char → Prop
  | field {field : Field} {cs : List Char} : d.SpellsField field cs → Fits d (field.name kind, cs)
  | other {name : String} {cs : List Char} : (∀ field : Field, name ≠ field.name kind) →
    IsValue cs → Fits d (name, cs)

/-- The keys of some members. -/
abbrev keys (rows : List (String × List Char)) : List String :=
  rows.map Prod.fst

/-- Members that agree with a declaration. No field is given twice, but other members may be. -/
structure Agrees (d : Declaration kind) (rows : List (String × List Char)) : Prop where
  fits : ∀ row ∈ rows, d.Fits row
  once : ∀ field : Field, (keys rows).count (field.name kind) ≤ 1

/-- The objects that tell all of a declaration. -/
def IsSpelled (d : Declaration kind) (cs : List Char) : Prop :=
  ∃ rows, d.Agrees rows ∧ (∀ field : Field, field.name kind ∈ keys rows ∨ d.MayOmit field) ∧
    SpellsObject rows cs

theorem ofName?_name (kind : Kind) (field : Field) :
    Field.ofName? kind (field.name kind) = some field := by
  cases kind <;> cases field <;> decide

theorem name_injective (kind : Kind) : Function.Injective (Field.name kind) := by
  intro field other same
  have read := ofName?_name kind field
  rw [same, ofName?_name] at read
  exact (Option.some.inj read).symm

theorem scanField_name {fields : Fields kind} {field : Field} (fresh : fields.has field = false) :
    scanField fields (field.name kind) = match field with
      | .category => scanCategory.afterColon.map fun a => { fields with category := some a }
      | .subject => (scanSubject kind).afterColon.map fun a => { fields with subject := some a }
      | .mappings => scanMappings.afterColon.map fun a => { fields with mappings := some a } := by
  cases field <;> simp [scanField, ofName?_name, fresh]

theorem scanField_other {name : String} (other : ∀ field : Field, name ≠ field.name kind)
    (fields : Fields kind) :
    scanField fields name = Scanner.ignored.afterColon.map fun _ => fields := by
  have unknown : Field.ofName? kind name = none :=
    List.find?_eq_none.mpr fun field _ => by simpa using (other field).symm
  rw [scanField, unknown]

theorem accepts_subject (kind : Kind) : (scanSubject kind).Accepts SpellsSubject := by
  cases kind with
  | symbol => exact Scanner.accepts_text
  | function => exact Scanner.accepts_text.list

theorem accepts_mappings : scanMappings.Accepts (SpellsDictionary (SpellsDictionary Spells)) :=
  Scanner.accepts_text.dictionary.dictionary

/-- The fields of a declaration of which the names have been read. -/
def fieldsIn (d : Declaration kind) (names : List String) : Fields kind where
  category := if Field.category.name kind ∈ names then some d.category else none
  subject := if Field.subject.name kind ∈ names then some d.subject else none
  mappings := if Field.mappings.name kind ∈ names then some d.mappings else none

theorem has_fieldsIn (d : Declaration kind) (names : List String) (field : Field) :
    (d.fieldsIn names).has field = decide (field.name kind ∈ names) := by
  cases field <;> simp only [fieldsIn, Fields.has] <;> split <;> simp_all

theorem fieldsIn_name (d : Declaration kind) (names : List String) (field : Field) :
    d.fieldsIn (names ++ [field.name kind]) = match field with
      | .category => { d.fieldsIn names with category := some d.category }
      | .subject => { d.fieldsIn names with subject := some d.subject }
      | .mappings => { d.fieldsIn names with mappings := some d.mappings } := by
  have same : ∀ other : Field, other.name kind ∈ names ++ [field.name kind] ↔
      other.name kind ∈ names ∨ other = field := by
    intro other
    simp [(name_injective kind).eq_iff]
  cases field <;> simp [fieldsIn, same]

theorem fieldsIn_other {name : String} (other : ∀ field : Field, name ≠ field.name kind)
    (d : Declaration kind) (names : List String) :
    d.fieldsIn (names ++ [name]) = d.fieldsIn names := by
  have same : ∀ field : Field, field.name kind ∈ names ++ [name] ↔ field.name kind ∈ names := by
    intro field
    simp [(other field).symm]
  simp only [fieldsIn, same]

theorem taken_field {d : Declaration kind} {field : Field} {cs : List Char}
    (value : d.SpellsField field cs) {names : List String} (fresh : field.name kind ∉ names) :
    Taken scanField (field.name kind, cs) (d.fieldsIn names)
      (d.fieldsIn (names ++ [field.name kind])) := by
  intro gap lead rest space spaceLead ends
  have unread : (d.fieldsIn names).has field = false := by simpa [has_fieldsIn] using fresh
  rw [scanField_name unread, fieldsIn_name]
  cases field with
  | category => exact Scanner.accepts_optional_text.scan_member value space spaceLead ends _
  | subject => exact (accepts_subject kind).scan_member value space spaceLead ends _
  | mappings => exact accepts_mappings.scan_member value space spaceLead ends _

theorem taken_other {name : String} {cs : List Char}
    (other : ∀ field : Field, name ≠ field.name kind) (value : IsValue cs) (d : Declaration kind)
    (names : List String) :
    Taken scanField (name, cs) (d.fieldsIn names) (d.fieldsIn (names ++ [name])) := by
  intro gap lead rest space spaceLead ends
  rw [scanField_other other, fieldsIn_other other]
  exact Scanner.accepts_ignored.scan_member (a := ()) value space spaceLead ends _

theorem Fits.taken {d : Declaration kind} {row : String × List Char} (fits : d.Fits row)
    {names : List String}
    (once : ∀ field : Field, (names ++ [row.1]).count (field.name kind) ≤ 1) :
    Taken scanField row (d.fieldsIn names) (d.fieldsIn (names ++ [row.1])) := by
  cases fits with
  | @field field cs value =>
    refine taken_field value fun mem => ?_
    have before := List.count_pos_iff.mpr mem
    have both := once field
    rw [List.count_append, List.count_singleton_self] at both
    omega
  | other other value => exact taken_other other value d names

/-- At each member, what has been read is what the declaration has in the fields named so far. -/
theorem chain_fieldsIn {d : Declaration kind} {rows : List (String × List Char)}
    (fits : ∀ row ∈ rows, d.Fits row) {names : List String}
    (once : ∀ field : Field, (names ++ keys rows).count (field.name kind) ≤ 1) :
    Chain (Taken scanField) (d.fieldsIn names) rows (d.fieldsIn (names ++ keys rows)) := by
  induction rows generalizing names with
  | nil =>
    rw [keys, List.map_nil, List.append_nil]
    exact .nil _
  | cons row rows ih =>
    obtain ⟨head, tail⟩ := List.forall_mem_cons.mp fits
    rw [keys, List.map_cons, List.append_cons] at once ⊢
    refine .cons (head.taken fun field => ?_) (ih tail once)
    have all := once field
    rw [List.count_append] at all
    omega

theorem Agrees.chain {d : Declaration kind} {rows : List (String × List Char)}
    (agrees : d.Agrees rows) :
    Chain (Taken scanField) ({} : Fields kind) rows (d.fieldsIn (keys rows)) :=
  @chain_fieldsIn _ _ _ agrees.fits [] agrees.once

theorem scanObject_of_subject {fields : Fields kind} {body rest : List Char}
    {subject : kind.Subject}
    (read : members scanField true {} body = .ok (fields, '}' :: rest))
    (present : fields.subject = some subject) :
    scanObject kind body =
      .ok (⟨fields.category.getD none, subject, fields.mappings.getD ∅⟩, rest) := by
  simp [scanObject, read, present, bind, Except.bind]

theorem scanObject_of_no_subject {fields : Fields kind} {body rest : List Char}
    (read : members scanField true {} body = .ok (fields, '}' :: rest))
    (absent : fields.subject = none) :
    scanObject kind body = .error (.here (.missingField (Field.subject.name kind)) rest) := by
  have left : leaveObject ('}' :: rest) = rest := rfl
  simp [scanObject, read, absent, left, bind, Except.bind]

theorem scanner_object {lead : List Char} (space : IsGap lead) (kind : Kind) (body : List Char) :
    (scanner kind).scan (lead ++ '{' :: body) = scanObject kind body := by
  simp [scanner, skipSpace_gap_cons (c := '{') space rfl]

/-- The declaration is as it would be if no field had been left out. -/
theorem eq_of_complete {d : Declaration kind} {names : List String}
    (complete : ∀ field : Field, field.name kind ∈ names ∨ d.MayOmit field) :
    (⟨(d.fieldsIn names).category.getD none, d.subject, (d.fieldsIn names).mappings.getD ∅⟩ :
      Declaration kind) = d := by
  refine Declaration.ext ?_ rfl ?_
  · show (ite _ _ _ : Option (Option String)).getD none = d.category
    split
    next => rfl
    next absent => exact ((complete .category).resolve_left absent).symm
  · show (ite _ _ _ : Option Mappings).getD ∅ = d.mappings
    split
    next => rfl
    next absent => exact ((complete .mappings).resolve_left absent).symm

theorem accepts_declaration (kind : Kind) : (scanner kind).Accepts IsSpelled where
  begins spelled := by
    obtain ⟨rows, -, -, object⟩ := spelled
    exact object.begins
  scan {d cs gap rest} spelled space _ := by
    obtain ⟨rows, agrees, complete, object⟩ := spelled
    obtain ⟨body, eq, read⟩ := object.members agrees.chain rest
    have subject : (d.fieldsIn (keys rows)).subject = some d.subject :=
      if_pos ((complete .subject).resolve_right id)
    rw [eq, scanner_object space, scanObject_of_subject read subject, eq_of_complete complete]

theorem ofJson_of_no_subject {d : Declaration kind} {rows : List (String × List Char)}
    {text : String} (agrees : d.Agrees rows) (document : IsDocument (SpellsObject rows) text)
    (absent : Field.subject.name kind ∉ keys rows) :
    ∃ location, ofJson kind text = .error ⟨.missingField (Field.subject.name kind), location⟩ := by
  obtain ⟨lead, cs, trail, space, object, -, whole⟩ := document
  obtain ⟨body, eq, read⟩ := object.members agrees.chain trail
  let fault : Fault := .here (.missingField (Field.subject.name kind)) trail
  have failed : (scanner kind).scan text.toList = .error fault := by
    rw [whole, eq, scanner_object space, scanObject_of_no_subject read (if_neg absent)]
  refine ⟨(ReadError.ofFault text fault).location, ?_⟩
  rw [ofJson, Scanner.read, Scanner.readChars, failed]
  rfl

/-- An object whose members agree with a declaration gives that declaration, whatever their order is
and whatever stands between them, if no field but those at their defaults is left out. Without the
subject, it gives none. -/
theorem members_tell_declaration {d : Declaration kind} {rows : List (String × List Char)}
    {text : String} (document : IsDocument (SpellsObject rows) text) (agrees : d.Agrees rows) :
    ((∀ field : Field, field.name kind ∈ keys rows ∨ d.MayOmit field) → ofJson kind text = .ok d) ∧
    (Field.subject.name kind ∉ keys rows →
      ∃ location,
        ofJson kind text = .error ⟨.missingField (Field.subject.name kind), location⟩) := by
  refine ⟨fun complete => ?_, ofJson_of_no_subject agrees document⟩
  obtain ⟨lead, cs, trail, space, object, spaceBehind, whole⟩ := document
  exact (accepts_declaration kind).read
    ⟨lead, cs, trail, space, ⟨rows, agrees, complete, object⟩, spaceBehind, whole⟩

/-- A text with half of a surrogate pair. -/
def halfPair : List Char :=
  ['"', '\\', 'u', 'd', '8', '0', '0', '"']

/-- A symbol behind a member that is no field. That member comes again behind the symbol. -/
def strayRows : List (String × List Char) :=
  [("é", Compact.list [['-', '1', '.', '5', 'e', '3'], Compact.object [("", halfPair)]]),
    ("key", ['"', '\\', 'u', '0', '0', '6', '2', '"']), ("é", ['n', 'u', 'l', 'l']),
    ("category", ['n', 'u', 'l', 'l'])]

def strayText : String :=
  " \x7b\"é\":[-1.5e3,\x7b\"\":\"\\ud800\"\x7d]," ++
    "\"key\":\"\\u0062\",\"é\":null,\"category\":null\x7d\n"

theorem isDocument_strayText : IsDocument (SpellsObject strayRows) strayText :=
  ⟨[' '], Compact.object strayRows, ['\n'], List.all_eq_true.mp rfl, spellsObject_object strayRows,
    List.all_eq_true.mp rfl, by decide⟩

theorem isValue_stray :
    IsValue (Compact.list [['-', '1', '.', '5', 'e', '3'], Compact.object [("", halfPair)]]) := by
  have number : IsValue ['-', '1', '.', '5', 'e', '3'] :=
    .negative ⟨['1'], ['.', '5'], ['e', '3'], .inr (by simp [IsDigits]),
      .inr ⟨['5'], by simp [IsDigits], rfl⟩, .inr ⟨'e', [], ['3'], by simp [IsDigits]⟩, rfl⟩
  have unit : IsUnit ['\\', 'u', 'd', '8', '0', '0'] :=
    .code (n := 0xD800) ⟨rfl, by simp [Text.hexDigits], by decide⟩
  have half : IsValue halfPair :=
    .text ⟨[['\\', 'u', 'd', '8', '0', '0']], by simpa using unit, rfl⟩
  have member : IsMember IsText halfPair (Compact.member "" halfPair) :=
    ⟨['"', '"'], [], [], ⟨[], by simp, rfl⟩, isGap_nil, isGap_nil, rfl⟩
  have object : IsValue (Compact.object [("", halfPair)]) :=
    .object (listed_separated _) (.cons member .nil) (by simpa using half)
  exact .list (listed_separated _) (by simp [number, object])

theorem agrees_strayRows_symbol : (⟨none, "b", ∅⟩ : Declaration .symbol).Agrees strayRows where
  fits := by
    have other : ∀ field : Field, "é" ≠ field.name .symbol := by rintro (_ | _ | _) <;> decide
    have key : Spells "b" ['"', '\\', 'u', '0', '0', '6', '2', '"'] :=
      ⟨[['\\', 'u', '0', '0', '6', '2']],
        .cons (.unit rfl ⟨rfl, by simp [Text.hexDigits], by decide⟩) .nil, rfl⟩
    simp only [strayRows, List.forall_mem_cons]
    exact ⟨.other other isValue_stray, @Fits.field _ _ .subject _ key, .other other .null,
      @Fits.field _ _ .category _ rfl, List.forall_mem_nil _⟩
  once := by rintro (_ | _ | _) <;> decide

theorem agrees_strayRows_function : (⟨none, [], ∅⟩ : Declaration .function).Agrees strayRows where
  fits := by
    have other : ∀ field : Field, "é" ≠ field.name .function := by rintro (_ | _ | _) <;> decide
    have key : ∀ field : Field, "key" ≠ field.name .function := by rintro (_ | _ | _) <;> decide
    have unit : IsUnit ['\\', 'u', '0', '0', '6', '2'] :=
      .code (n := 0x62) ⟨rfl, by simp [Text.hexDigits], by decide⟩
    have text : IsText ['"', '\\', 'u', '0', '0', '6', '2', '"'] :=
      ⟨[['\\', 'u', '0', '0', '6', '2']], by simpa using unit, rfl⟩
    simp only [strayRows, List.forall_mem_cons]
    exact ⟨.other other isValue_stray, .other key (.text text), .other other .null,
      @Fits.field _ _ .category _ rfl, List.forall_mem_nil _⟩
  once := by rintro (_ | _ | _) <;> decide

/-- Read as a function, the text has no subject: the key is no field then. -/
theorem stray_members_tell_symbol :
    ofJson .symbol strayText = .ok ⟨none, "b", ∅⟩ ∧
    ∃ location, ofJson .function strayText = .error ⟨.missingField "names", location⟩ := by
  refine ⟨(members_tell_declaration isDocument_strayText agrees_strayRows_symbol).1 ?_,
    (members_tell_declaration isDocument_strayText agrees_strayRows_function).2 (by decide)⟩
  rintro (_ | _ | _)
  · exact .inl (by decide)
  · exact .inl (by decide)
  · exact .inr rfl

end ScreenReader.Declaration
