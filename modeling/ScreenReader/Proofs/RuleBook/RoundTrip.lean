import ScreenReader.Proofs.RuleBook.LastDefinition

namespace ScreenReader

open Mappings

/-- Whether the text of a mapping is what is said for its own constraint: with a separator in the
domain nothing is said, and otherwise the longest domain has the last word. -/
def Mappings.ComesBack (m : Mappings) (x : String × String × String) : Prop :=
  if (constraintOf x).Dotted then x.2.2 = ""
  else ∀ y, m.Longest (constraintOf x) y → y.2.2 = x.2.2

theorem Mappings.comesBack_of_undotted {m : Mappings}
    (undotted : ∀ x ∈ m.triples, ¬(constraintOf x).Dotted) {x : String × String × String}
    (mem : x ∈ m.triples) : m.ComesBack x := by
  rw [ComesBack, if_neg (undotted x mem)]
  intro y hy
  rw [(longest_self undotted mem).unique hy]

namespace RuleBook

theorem ruleSet?_enter_of_unique {ds : List Definition} {d : Definition} (b : RuleBook)
    (mem : d ∈ ds) (unique : ∀ e ∈ ds, e.literal = d.literal → e = d) :
    (b.enter ds).ruleSet? d.literal = some d.ruleSet := by
  have found : d ∈ ds.filter (·.literal == d.literal) := List.mem_filter.mpr ⟨mem, by simp⟩
  obtain ⟨e, last⟩ := Option.isSome_iff_exists.mp
    (List.getLast?_isSome.mpr (List.ne_nil_of_mem found))
  obtain ⟨he, same⟩ := List.mem_filter.mp (List.mem_of_getLast? last)
  rw [ruleSet?_enter, last, unique e he (by simpa using same)]
  rfl

theorem speech_eq_iff {b : RuleBook} {name literal : String} {m : Mappings}
    (filed : b.ruleSet? literal = some (.ofMappings name literal m))
    {x : String × String × String} (mem : x ∈ m.triples) :
    b.speech literal (constraintOf x) = x.2.2 ↔ m.ComesBack x := by
  unfold speech lookup? ComesBack
  rw [filed, Option.bind_some, RuleSet.lookup?_ofMappings]
  by_cases dotted : (constraintOf x).Dotted
  · rw [if_pos dotted, if_neg (fun both => both.2 dotted)]
    exact eq_comm
  · obtain ⟨y, last⟩ := Option.isSome_iff_exists.mp (isSome_last?_iff.mpr ⟨x, mem, rfl⟩)
    have longest := longest_of_last last
    rw [if_neg dotted, if_pos ⟨rfl, dotted⟩, last]
    show (RuleSet.ruleOf name literal y).speech = x.2.2 ↔ _
    rw [RuleSet.speech_ruleOf]
    constructor
    · intro spoken z hz
      rw [longest.unique hz, spoken]
    · intro all
      exact all y longest

theorem ruleSet?_declare_symbol (b : RuleBook) {d : Declaration .symbol} {c : Char}
    (decoded : Text.ofHex? d.subject = some c) :
    (b.declare d).value.ruleSet? (String.singleton c) =
      some (.ofMappings d.subject (String.singleton c) d.mappings) := by
  have single : d.definitions = [⟨d.subject, String.singleton c, d.mappings⟩] := by
    simp [Declaration.definitions, decoded]
  rw [value_declare, single]
  exact ruleSet?_enter_of_unique b List.mem_cons_self fun e mem _ => List.mem_singleton.mp mem

theorem ruleSet?_declare_function (b : RuleBook) {d : Declaration .function} {name : String}
    (mem : name ∈ d.subject) :
    (b.declare d).value.ruleSet? name = some (.ofMappings name name d.mappings) := by
  have listed : (⟨name, name, d.mappings⟩ : Definition) ∈ d.definitions :=
    List.mem_map.mpr ⟨name, mem, rfl⟩
  rw [value_declare]
  refine ruleSet?_enter_of_unique b listed fun e he same => ?_
  obtain ⟨other, _, rfl⟩ := List.mem_map.mp he
  cases same
  rfl

/-- Of what is declared, exactly the mappings that come back are spoken under their own constraint,
whatever the book held before. -/
theorem declared_mapping_spoken_iff (b : RuleBook) :
    (∀ (d : Declaration .symbol) (c : Char), Text.ofHex? d.subject = some c →
      ∀ x ∈ d.mappings.triples,
        ((b.declare d).value.speech (String.singleton c) (constraintOf x) = x.2.2 ↔
          d.mappings.ComesBack x)) ∧
    (∀ d : Declaration .function, ∀ name ∈ d.subject, ∀ x ∈ d.mappings.triples,
      ((b.declare d).value.speech name (constraintOf x) = x.2.2 ↔ d.mappings.ComesBack x)) ∧
    ∀ m : Mappings, (∀ x ∈ m.triples, ¬(constraintOf x).Dotted) →
      ∀ x ∈ m.triples, m.ComesBack x :=
  ⟨fun _ _ decoded _ mem => speech_eq_iff (b.ruleSet?_declare_symbol decoded) mem,
    fun _ _ named _ mem => speech_eq_iff (b.ruleSet?_declare_function named) mem,
    fun _ undotted _ mem => comesBack_of_undotted undotted mem⟩

theorem dotted_domain_not_spoken :
    ¬∀ (b : RuleBook) (d : Declaration .symbol) (c : Char), Text.ofHex? d.subject = some c →
      ∀ x ∈ d.mappings.triples,
        (b.declare d).value.speech (String.singleton c) (constraintOf x) = x.2.2 := by
  intro mappings_spoken
  have spoken := mappings_spoken ∅ { subject := "2B", mappings := .ofTriples [("a.b", "c", "plus")] } '+'
    (by decide) ("a.b", "c", "plus") (by decide)
  exact absurd spoken (by decide)

end RuleBook

end ScreenReader
