import ScreenReader.Proofs.RuleBook.Scan
import ScreenReader.Proofs.Vocabulary

namespace ScreenReader.RuleBook

variable {b : RuleBook} {axis : Axis} {value : String}

theorem contains_merged {sets : List RuleSet} :
    (sets.foldl (fun v s => v.merge s.vocabulary) (∅ : Vocabulary)).contains axis value ↔
      ∃ s ∈ sets, ∃ c ∈ s.constraints, c.value axis = value := by
  rw [Vocabulary.contains_foldl_merge, or_iff_right (Vocabulary.not_contains_empty axis value)]
  simp only [RuleSet.vocabulary, Vocabulary.contains_ofConstraints, RuleSet.constraints]

theorem recorded_merged (sets : List RuleSet) :
    (sets.foldl (fun v s => v.merge s.vocabulary) (∅ : Vocabulary)).Recorded := by
  have each : ∀ s : RuleSet, s.vocabulary.Recorded := fun s => ⟨s.constraints, rfl⟩
  exact Vocabulary.recorded_empty.foldl_merge each sets

theorem recorded_vocabulary (b : RuleBook) : b.vocabulary.Recorded :=
  recorded_merged b.sets.values

theorem vocabulary_of_perm {sets : List RuleSet} (order : sets.Perm b.sets.values) :
    sets.foldl (fun v s => v.merge s.vocabulary) ∅ = b.vocabulary := by
  refine (recorded_merged sets).ext_contains b.recorded_vocabulary fun axis value => ?_
  unfold vocabulary
  rw [contains_merged, contains_merged]
  simp only [order.mem_iff]

theorem mem_values {s : RuleSet} : s ∈ b.sets.values ↔ ∃ literal, b.ruleSet? literal = some s := by
  unfold Dictionary.values ruleSet?
  simp only [List.mem_map, Prod.exists, exists_eq_right, Dictionary.mem_entries_iff]

theorem contains_vocabulary_iff :
    b.vocabulary.contains axis value ↔
      ∃ literal s, b.ruleSet? literal = some s ∧ ∃ c ∈ s.constraints, c.value axis = value := by
  unfold vocabulary
  rw [contains_merged]
  simp only [mem_values]
  constructor
  · rintro ⟨s, ⟨literal, filed⟩, c, mem, same⟩
    exact ⟨literal, s, filed, c, mem, same⟩
  · rintro ⟨literal, s, filed, c, mem, same⟩
    exact ⟨s, ⟨literal, filed⟩, c, mem, same⟩

theorem WellFiled.isSome_lookup?_iff (filed : b.WellFiled) {text : String} {c : Constraint} :
    (b.lookup? text c).isSome ↔ ∃ s, b.ruleSet? text = some s ∧ c ∈ s.constraints := by
  rw [Option.isSome_iff_exists]
  simp only [filed.lookup?_eq_some_iff]
  constructor
  · rintro ⟨r, mem, rfl, rfl⟩
    obtain ⟨literal, s, set, mem⟩ := mem_rules.mp mem
    rw [(filed literal s set).literal r mem]
    exact ⟨s, set, List.mem_map_of_mem mem⟩
  · rintro ⟨s, set, mem⟩
    obtain ⟨r, inside, rfl⟩ := List.mem_map.mp mem
    exact ⟨r, mem_rules.mpr ⟨text, s, set, inside⟩, (filed text s set).literal r inside, rfl⟩

theorem WellFiled.contains_vocabulary_iff_lookup (filed : b.WellFiled) :
    b.vocabulary.contains axis value ↔
      ∃ text c, c.value axis = value ∧ (b.lookup? text c).isSome := by
  rw [contains_vocabulary_iff]
  simp only [filed.isSome_lookup?_iff]
  constructor
  · rintro ⟨text, s, set, c, mem, same⟩
    exact ⟨text, c, same, s, set, mem⟩
  · rintro ⟨text, c, same, s, set, mem⟩
    exact ⟨text, s, set, c, mem, same⟩

theorem WellFiled.contains_domain_iff (filed : b.WellFiled) :
    b.vocabulary.contains .domain value ↔ ∃ text style, (b.lookup? text ⟨value, style⟩).isSome := by
  rw [filed.contains_vocabulary_iff_lookup]
  constructor
  · rintro ⟨text, ⟨domain, style⟩, rfl, found⟩
    exact ⟨text, style, found⟩
  · rintro ⟨text, style, found⟩
    exact ⟨text, ⟨value, style⟩, rfl, found⟩

theorem WellFiled.contains_style_iff (filed : b.WellFiled) :
    b.vocabulary.contains .style value ↔ ∃ text domain, (b.lookup? text ⟨domain, value⟩).isSome := by
  rw [filed.contains_vocabulary_iff_lookup]
  constructor
  · rintro ⟨text, ⟨domain, style⟩, rfl, found⟩
    exact ⟨text, domain, found⟩
  · rintro ⟨text, domain, found⟩
    exact ⟨text, ⟨domain, value⟩, rfl, found⟩

theorem WellFiled.vocabulary_eq_empty_iff (filed : b.WellFiled) :
    b.vocabulary = ∅ ↔ ∀ text c, b.lookup? text c = none := by
  rw [b.recorded_vocabulary.eq_empty_iff]
  simp only [filed.contains_vocabulary_iff_lookup]
  constructor
  · intro unused text c
    have silent : ¬(b.lookup? text c).isSome := fun found =>
      unused .domain c.domain ⟨text, c, rfl, found⟩
    simpa using silent
  · rintro silent axis value ⟨text, c, -, found⟩
    rw [silent text c] at found
    cases found

theorem contains_vocabulary_enter (ds : List Definition) :
    ((∅ : RuleBook).enter ds).vocabulary.contains axis value ↔
      ∃ k d, (ds.filter (·.literal == k)).getLast? = some d ∧
        ∃ c ∈ d.ruleSet.constraints, c.value axis = value := by
  have nothing : ∀ k, (∅ : RuleBook).ruleSet? k = none := fun _ => rfl
  rw [contains_vocabulary_iff]
  simp only [ruleSet?_enter, nothing, Option.or_none, Option.map_eq_some_iff]
  constructor
  · rintro ⟨k, _, ⟨d, last, rfl⟩, used⟩
    exact ⟨k, d, last, used⟩
  · rintro ⟨k, d, last, used⟩
    exact ⟨k, _, ⟨d, last, rfl⟩, used⟩

/-- Whatever was written, the vocabulary has the values for which something can be looked up, out of
the last definition of each text only, and in whatever order the rule sets are gone through. -/
theorem vocabulary_tells_lookups (ws : List (FileTree × Write)) :
    let b := (∅ : RuleBook).after ws
    (∀ value, b.vocabulary.contains .domain value ↔
      ∃ text style, (b.lookup? text ⟨value, style⟩).isSome) ∧
    (∀ value, b.vocabulary.contains .style value ↔
      ∃ text domain, (b.lookup? text ⟨domain, value⟩).isSome) ∧
    (∀ axis value, b.vocabulary.contains axis value ↔
      ∃ k d, ((definitionsOf ws).filter (·.literal == k)).getLast? = some d ∧
        ∃ c ∈ d.ruleSet.constraints, c.value axis = value) ∧
    (∀ sets : List RuleSet, sets.Perm b.sets.values →
      sets.foldl (fun v s => v.merge s.vocabulary) ∅ = b.vocabulary) ∧
    (b.vocabulary = ∅ ↔ ∀ axis, b.vocabulary.axis? axis = none) ∧
    (b.vocabulary = ∅ ↔ ∀ text c, b.lookup? text c = none) := by
  intro b
  have filed : b.WellFiled := wellFiled_empty.after ws
  have entered : b = (∅ : RuleBook).enter (definitionsOf ws) := after_eq_enter ∅ ws
  refine ⟨fun value => filed.contains_domain_iff, fun value => filed.contains_style_iff,
    fun axis value => ?_, fun sets => vocabulary_of_perm, Vocabulary.eq_empty_iff_axis?,
    filed.vocabulary_eq_empty_iff⟩
  rw [entered]
  exact contains_vocabulary_enter (definitionsOf ws)

end ScreenReader.RuleBook
