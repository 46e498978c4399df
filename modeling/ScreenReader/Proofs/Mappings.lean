import Mathlib.Data.List.Nodup
import ScreenReader.Declaration
import ScreenReader.Proofs.Constraint

namespace ScreenReader

namespace Mappings

def constraintOf (x : String × String × String) : Constraint :=
  ⟨x.1, x.2.1⟩

/-- The mapping with the longest domain among those that join to the text of a constraint. -/
structure Longest (m : Mappings) (c : Constraint) (x : String × String × String) : Prop where
  mem : x ∈ m.triples
  text : (constraintOf x).text = c.text
  longest : ∀ y ∈ m.triples, (constraintOf y).text = c.text → y.1.length ≤ x.1.length

/-- The last mapping that joins to the text of a constraint. -/
def last? (m : Mappings) (c : Constraint) : Option (String × String × String) :=
  (m.triples.filter fun x => (constraintOf x).text == c.text).getLast?

theorem triples_ascending (m : Mappings) :
    m.triples.Pairwise fun x y => (constraintOf x).Before (constraintOf y) := by
  unfold triples
  rw [List.pairwise_flatMap]
  constructor
  · rintro ⟨domain, styles⟩ _
    rw [List.pairwise_map]
    exact styles.ascending.imp fun lt => .inr ⟨rfl, lt⟩
  · refine m.ascending.imp ?_
    rintro ⟨d, _⟩ ⟨e, _⟩ lt x hx y hy
    obtain ⟨_, _, rfl⟩ := List.mem_map.mp hx
    obtain ⟨_, _, rfl⟩ := List.mem_map.mp hy
    exact .inl lt

theorem nodup_constraintOf (m : Mappings) : (m.triples.map constraintOf).Nodup := by
  rw [List.Nodup, List.pairwise_map]
  refine m.triples_ascending.imp ?_
  intro x y before same
  rw [same] at before
  exact Constraint.not_before_self _ before

theorem Longest.unique {m : Mappings} {c : Constraint} {x y : String × String × String}
    (hx : m.Longest c x) (hy : m.Longest c y) : y = x := by
  have text := hy.text.trans hx.text.symm
  have length := Nat.le_antisymm (hx.longest y hy.mem hy.text) (hy.longest x hx.mem hx.text)
  exact List.inj_on_of_nodup_map m.nodup_constraintOf hy.mem hx.mem
    (Constraint.eq_of_text_eq_of_length_eq text length)

theorem longest_of_last {m : Mappings} {c : Constraint} {x : String × String × String}
    (last : m.last? c = some x) : m.Longest c x := by
  obtain ⟨earlier, split⟩ := List.getLast?_eq_some_iff.mp last
  have members : ∀ y, y ∈ earlier ++ [x] ↔ y ∈ m.triples ∧ (constraintOf y).text = c.text := by
    intro y
    rw [← split, List.mem_filter, beq_iff_eq]
  obtain ⟨mem, text⟩ := (members x).mp (by simp)
  refine ⟨mem, text, fun y hy same => ?_⟩
  have ordered := m.triples_ascending.filter fun x => (constraintOf x).text == c.text
  rw [split] at ordered
  rcases List.mem_append.mp ((members y).mpr ⟨hy, same⟩) with early | single
  · have before := (List.pairwise_append.mp ordered).2.2 y early x (by simp)
    exact Nat.le_of_lt (before.length_lt (same.trans text.symm))
  · exact Nat.le_of_eq (congrArg (·.1.length) (List.mem_singleton.mp single))

theorem isSome_last?_iff {m : Mappings} {c : Constraint} :
    (m.last? c).isSome ↔ ∃ x ∈ m.triples, (constraintOf x).text = c.text := by
  simp [last?]

theorem last?_eq_some_iff {m : Mappings} {c : Constraint} {x : String × String × String} :
    m.last? c = some x ↔ m.Longest c x := by
  refine ⟨longest_of_last, fun hx => ?_⟩
  obtain ⟨y, last⟩ := Option.isSome_iff_exists.mp (isSome_last?_iff.mpr ⟨x, hx.mem, hx.text⟩)
  rw [last, hx.unique (longest_of_last last)]

theorem longest_self {m : Mappings} (undotted : ∀ x ∈ m.triples, ¬(constraintOf x).Dotted)
    {x : String × String × String} (mem : x ∈ m.triples) : m.Longest (constraintOf x) x := by
  refine ⟨mem, rfl, fun y hy same => ?_⟩
  have equal : constraintOf y = constraintOf x := by
    rw [← Constraint.ofText_text (undotted y hy), same, Constraint.ofText_text (undotted x mem)]
  exact Nat.le_of_eq (congrArg (·.domain.length) equal)

end Mappings

end ScreenReader
