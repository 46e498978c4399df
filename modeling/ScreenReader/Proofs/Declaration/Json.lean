import ScreenReader.Proofs.Declaration.Members
import ScreenReader.Proofs.Json.Compact

namespace ScreenReader.Declaration

open Json

variable {kind : Kind}

theorem spellsSubject_compact {kind : Kind} (subject : kind.Subject) :
    SpellsSubject subject (compactSubject subject) := by
  cases kind with
  | symbol => exact spells_text subject
  | function => exact spellsList_list spells_text subject

theorem spellsMappings_compact (m : Mappings) :
    SpellsDictionary (SpellsDictionary Spells) m (compactMappings m) :=
  spellsDictionary_object (spellsDictionary_object spells_text) m

/-- The members of the compact text. -/
def rows (d : Declaration kind) : List (String × List Char) :=
  (d.category.toList.map fun c => (Field.category.name kind, Compact.text c)) ++
    [(Field.subject.name kind, compactSubject d.subject),
      (Field.mappings.name kind, compactMappings d.mappings)]

theorem nodup_keys_rows (d : Declaration kind) : (keys d.rows).Nodup := by
  have fields : ([.category, .subject, .mappings] : List Field).Nodup := by decide
  have names := fields.map (name_injective kind)
  unfold rows keys
  cases d.category with
  | none => exact names.of_cons
  | some c => exact names

theorem agrees_rows (d : Declaration kind) : d.Agrees d.rows where
  fits row mem := by
    rcases List.mem_append.mp mem with mem | mem
    · obtain ⟨c, present, rfl⟩ := List.mem_map.mp mem
      refine .field ?_
      rw [SpellsField, Option.mem_toList.mp present]
      exact spells_text c
    · rcases List.mem_pair.mp mem with rfl | rfl
      · exact .field (spellsSubject_compact d.subject)
      · exact .field (spellsMappings_compact d.mappings)
  once field := List.nodup_iff_count_le_one.mp d.nodup_keys_rows (field.name kind)

theorem complete_rows (d : Declaration kind) (field : Field) :
    field.name kind ∈ keys d.rows ∨ d.MayOmit field := by
  unfold rows keys
  cases field with
  | category =>
    cases absent : d.category with
    | none => exact .inr absent
    | some c => exact .inl List.mem_cons_self
  | subject => simp
  | mappings => simp

theorem isSpelled_compact (d : Declaration kind) : d.IsSpelled d.compact :=
  ⟨d.rows, d.agrees_rows, d.complete_rows, spellsObject_object d.rows⟩

theorem ofJson_toJson (d : Declaration kind) : ofJson kind d.toJson = .ok d :=
  (accepts_declaration kind).read (isDocument_ofList d.isSpelled_compact)

/-- The compact text tells the kind, by the name of the subject. -/
theorem kind_of_compact {other : Kind} {d : Declaration kind} {e : Declaration other}
    (same : d.compact = e.compact) : kind = other := by
  have named : ∀ kind other : Kind,
      Field.subject.name kind = Field.subject.name other → kind = other := by
    rintro (_ | _) (_ | _) <;> decide
  have apart : ∀ kind other : Kind, Field.category.name kind ≠ Field.subject.name other := by
    rintro (_ | _) (_ | _) <;> decide
  have objects : Compact.object d.rows = Compact.object e.rows := same
  have inner := List.append_cancel_right (List.cons.inj objects).2
  unfold rows at inner
  -- Up to the name of the subject, each text has a category or nothing.
  cases hd : d.category <;> cases he : e.category <;>
    simp only [hd, he, Option.toList, List.map_nil, List.map_cons, List.nil_append,
      List.cons_append, List.append_assoc, List.flatMap_cons, Compact.separated,
      Compact.member] at inner
  · exact named _ _ (text_append_inj inner).1
  · exact absurd (text_append_inj inner).1.symm (apart _ _)
  · exact absurd (text_append_inj inner).1 (apart _ _)
  · have category := (List.cons.inj (text_append_inj inner).2).2
    have subject := (List.cons.inj (text_append_inj category).2).2
    exact named _ _ (text_append_inj subject).1

/-- Every declaration is read back from its compact text, so that different declarations have
different texts, and what was read from any text can be written and read again. -/
theorem compact_text_tells_declaration :
    (∀ (kind : Kind) (d : Declaration kind), ofJson kind d.toJson = .ok d) ∧
    (Function.Injective fun d : (kind : Kind) × Declaration kind => d.2.toJson) ∧
    ∀ (kind : Kind) (text : String),
      (ofJson kind text >>= fun d => ofJson kind d.toJson) = ofJson kind text := by
  refine ⟨fun kind d => ofJson_toJson d, ?_, fun kind text => ?_⟩
  · rintro ⟨kind, d⟩ ⟨other, e⟩ same
    have chars : d.compact = e.compact := String.ofList_injective same
    obtain rfl := kind_of_compact chars
    have read := ofJson_toJson d
    rw [show d.toJson = e.toJson from same, ofJson_toJson e] at read
    rw [Except.ok.inj read]
  · simp only [ofJson_toJson]
    exact bind_pure _

example : toJson (⟨some "Sm", "\"\x01😀", .ofTriples [("d", "s", "\\")]⟩ : Declaration .symbol) =
    "\x7b\"category\":\"Sm\",\"key\":\"\\\"\\u0001😀\"," ++
      "\"mappings\":\x7b\"d\":\x7b\"s\":\"\\\\\"\x7d\x7d\x7d" := by
  decide

end ScreenReader.Declaration
