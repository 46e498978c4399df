import ScreenReader.Proofs.RuleSet.Wordings

namespace ScreenReader.RuleSet

open Mappings

/-- The rule that a mapping defines: what its domain and style join to is parted again. -/
def ruleOf (name literal : String) (x : String × String × String) : Rule :=
  ⟨name, literal, .ofText (constraintOf x).text, [x.2.2]⟩

/-- The rules of some mappings in a set of their own. -/
def ofMappings (name literal : String) (m : Mappings) : RuleSet :=
  (RuleSet.empty.defineAll name literal m).value

theorem ofMappings_eq (name literal : String) (m : Mappings) :
    ofMappings name literal m = empty.insertAll (m.triples.map (ruleOf name literal)) := by
  unfold ofMappings
  rw [defineAll_eq_defineEach, value_defineEach, List.map_map]
  rfl

theorem nodup_ofMappings (name literal : String) (m : Mappings) :
    (ofMappings name literal m).constraints.Nodup := by
  have nothing : empty.constraints.Nodup := List.nodup_nil
  rw [ofMappings_eq]
  exact nodup_insertAll nothing _

theorem mem_constraints_ofMappings {name literal : String} {m : Mappings} {c : Constraint} :
    c ∈ (ofMappings name literal m).constraints ↔
      ∃ x ∈ m.triples, .ofText (constraintOf x).text = c := by
  rw [ofMappings_eq, mem_constraints_insertAll]
  simp [constraints, RuleSet.empty, ruleOf]

theorem mem_ofMappings {name literal : String} {m : Mappings} {r : Rule}
    (mem : r ∈ (ofMappings name literal m).rules) : ∃ x ∈ m.triples, ruleOf name literal x = r := by
  rw [ofMappings_eq] at mem
  rcases mem_insertAll mem with nothing | defined
  · exact absurd nothing List.not_mem_nil
  · exact List.mem_map.mp defined

theorem find?_ofMappings (name literal : String) (m : Mappings) (c : Constraint) :
    (ofMappings name literal m).find? c =
      if c.Dotted then none else (m.last? c).map (ruleOf name literal) := by
  have matches_iff : ∀ x, ((ruleOf name literal x).constraint == c) = true ↔
      ¬c.Dotted ∧ (constraintOf x).text = c.text := by
    intro x
    rw [beq_iff_eq]
    exact Constraint.ofText_text_eq_iff
  have nothing : empty.find? c = none := rfl
  rw [ofMappings_eq, find?_insertAll, nothing, Option.or_none, List.filter_map, List.getLast?_map]
  split
  next dotted =>
    have none_match : m.triples.filter ((·.constraint == c) ∘ ruleOf name literal) = [] := by
      refine List.filter_eq_nil_iff.mpr fun x _ found => ?_
      exact ((matches_iff x).mp found).1 dotted
    rw [none_match]
    rfl
  next undotted =>
    have same : m.triples.filter ((·.constraint == c) ∘ ruleOf name literal) =
        m.triples.filter fun x => (constraintOf x).text == c.text := by
      refine List.filter_congr fun x _ => Bool.eq_iff_iff.mpr ?_
      rw [Function.comp_apply, matches_iff, beq_iff_eq]
      exact and_iff_right undotted
    rw [same]
    rfl

theorem lookup?_ofMappings (name literal text : String) (m : Mappings) (c : Constraint) :
    (ofMappings name literal m).lookup? text c =
      if text = literal ∧ ¬c.Dotted then (m.last? c).map (ruleOf name literal) else none := by
  rw [lookup?_eq (nodup_ofMappings name literal m), find?_ofMappings]
  by_cases dotted : c.Dotted
  · rw [if_pos dotted, if_neg (fun both => both.2 dotted)]
    rfl
  · rw [if_neg dotted]
    cases m.last? c with
    | none => simp
    | some x => simp [Option.filter_some, Rule.appliesTo, ruleOf, dotted]

theorem size_ofMappings (name literal : String) (m : Mappings) :
    (ofMappings name literal m).size =
      (m.triples.map fun x => (constraintOf x).text).toFinset.card := by
  have image : (ofMappings name literal m).constraints.toFinset =
      (m.triples.map fun x => (constraintOf x).text).toFinset.image .ofText := by
    apply Finset.ext
    intro c
    rw [List.mem_toFinset, mem_constraints_ofMappings]
    simp
  have injective : Set.InjOn Constraint.ofText
      (m.triples.map fun x => (constraintOf x).text).toFinset := by
    intro k hk l hl same
    obtain ⟨x, _, rfl⟩ := List.mem_map.mp (List.mem_toFinset.mp hk)
    obtain ⟨y, _, rfl⟩ := List.mem_map.mp (List.mem_toFinset.mp hl)
    exact (Constraint.ofText_text_eq_iff.mp same).2.trans
      (Constraint.text_ofText (constraintOf y).separator_mem_text)
  have length : (ofMappings name literal m).size = (ofMappings name literal m).constraints.length :=
    (List.length_map _).symm
  rw [length, ← List.toFinset_card_of_nodup (nodup_ofMappings name literal m), image,
    Finset.card_image_of_injOn injective]

theorem ruleOf_undotted {x : String × String × String} (undotted : ¬(constraintOf x).Dotted)
    (name literal : String) :
    ruleOf name literal x = ⟨name, literal, constraintOf x, [x.2.2]⟩ := by
  rw [ruleOf, Constraint.ofText_text undotted]

theorem rules_ofMappings {m : Mappings} (undotted : ∀ x ∈ m.triples, ¬(constraintOf x).Dotted)
    (name literal : String) :
    (ofMappings name literal m).rules =
      m.triples.map fun x => ⟨name, literal, constraintOf x, [x.2.2]⟩ := by
  have rules : m.triples.map (ruleOf name literal) =
      m.triples.map fun x => ⟨name, literal, constraintOf x, [x.2.2]⟩ :=
    List.map_congr_left fun x mem => ruleOf_undotted (undotted x mem) name literal
  have distinct : (empty.constraints ++
      (m.triples.map (ruleOf name literal)).map Rule.constraint).Nodup := by
    rw [rules, List.map_map]
    exact m.nodup_constraintOf
  rw [ofMappings_eq, insertAll_of_nodup distinct, rules]
  rfl

theorem speech_ruleOf (name literal : String) (x : String × String × String) :
    (ruleOf name literal x).speech = x.2.2 :=
  String.intercalate_singleton

/-- What mappings come to: the text that a mapping's domain and style join to is filed under the
constraint that it parts into, and the longest domain has the last word. -/
theorem ofMappings_speaks_longest_domain (name literal : String) (m : Mappings) :
    (∀ text c, text ≠ literal ∨ c.Dotted → (ofMappings name literal m).lookup? text c = none) ∧
    (∀ c, ¬c.Dotted →
      (((ofMappings name literal m).lookup? literal c).isSome ↔
        ∃ x ∈ m.triples, (constraintOf x).text = c.text) ∧
      ∀ rule, (ofMappings name literal m).lookup? literal c = some rule →
        ∃ x, m.Longest c x ∧ (∀ y, m.Longest c y → y = x) ∧ rule.speech = x.2.2) ∧
    (ofMappings name literal m).size =
      (m.triples.map fun x => (constraintOf x).text).toFinset.card ∧
    ((∀ x ∈ m.triples, ¬(constraintOf x).Dotted) →
      (ofMappings name literal m).rules =
        (m.triples.map fun x => ⟨name, literal, constraintOf x, [x.2.2]⟩) ∧
      (ofMappings name literal m).rules.Pairwise (fun r q => r.constraint.Before q.constraint) ∧
      ∀ x ∈ m.triples, (ofMappings name literal m).lookup? literal (constraintOf x) =
        some ⟨name, literal, constraintOf x, [x.2.2]⟩) := by
  refine ⟨fun text c miss => ?_, fun c undotted => ?_, size_ofMappings name literal m,
    fun undotted => ?_⟩
  · rw [lookup?_ofMappings, if_neg]
    rintro ⟨same, undotted⟩
    exact miss.elim (· same) undotted
  · rw [lookup?_ofMappings, if_pos ⟨rfl, undotted⟩, Option.isSome_map]
    refine ⟨isSome_last?_iff, fun rule found => ?_⟩
    obtain ⟨x, last, rfl⟩ := Option.map_eq_some_iff.mp found
    have longest := longest_of_last last
    exact ⟨x, longest, fun y => longest.unique, speech_ruleOf name literal x⟩
  · refine ⟨rules_ofMappings undotted name literal, ?_, fun x mem => ?_⟩
    · rw [rules_ofMappings undotted, List.pairwise_map]
      exact m.triples_ascending
    · rw [lookup?_ofMappings, if_pos ⟨rfl, undotted x mem⟩,
        last?_eq_some_iff.mpr (longest_self undotted mem), Option.map_some,
        ruleOf_undotted (undotted x mem)]

end ScreenReader.RuleSet
