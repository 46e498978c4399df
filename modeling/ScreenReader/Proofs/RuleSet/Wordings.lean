import ScreenReader.Proofs.Mappings
import ScreenReader.Proofs.RuleSet.Insertion

namespace ScreenReader

/-- A rule as it is put into words, its constraint still a text. -/
structure Wording where
  name : String
  key : String
  action : String
  literal : String

namespace Wording

def constraint (w : Wording) : Constraint :=
  .ofText w.key

def rule (w : Wording) : Rule :=
  ⟨w.name, w.literal, w.constraint, [w.action]⟩

/-- The last of some wordings for a constraint. -/
def last? (ws : List Wording) (c : Constraint) : Option Wording :=
  (ws.filter (·.constraint == c)).getLast?

def ofMapping (name literal : String) (x : String × String × String) : Wording :=
  ⟨name, (Mappings.constraintOf x).text, x.2.2, literal⟩

end Wording

namespace RuleSet

def defineEach (s : RuleSet) (ws : List Wording) : Logged RuleSet :=
  ws.foldlM (fun s w => s.define w.name w.key w.action w.literal) s

theorem defineAll_eq_defineEach (s : RuleSet) (name literal : String) (m : Mappings) :
    s.defineAll name literal m = s.defineEach (m.triples.map (Wording.ofMapping name literal)) := by
  unfold defineAll defineEach
  rw [List.foldlM_map]
  rfl

theorem value_define (s : RuleSet) (name constraint action literal : String) :
    (s.define name constraint action literal).value =
      s.insert ⟨name, literal, .ofText constraint, [action]⟩ := by
  by_cases known : s.defines (.ofText constraint)
  · simp [define, known]
  · simp [define, known]

theorem value_defineEach (s : RuleSet) (ws : List Wording) :
    (s.defineEach ws).value = s.insertAll (ws.map Wording.rule) := by
  unfold defineEach insertAll
  rw [Logged.value_foldlM, List.foldl_map]
  congr 1
  funext s w
  exact s.value_define w.name w.key w.action w.literal

theorem insertAll_concat (s : RuleSet) (rules : List Rule) (rule : Rule) :
    s.insertAll (rules ++ [rule]) = (s.insertAll rules).insert rule :=
  List.foldl_append

theorem eraseDups_concat (cs : List Constraint) (c : Constraint) :
    (cs ++ [c]).eraseDups = if c ∈ cs then cs.eraseDups else cs.eraseDups ++ [c] := by
  rw [List.eraseDups_append, List.removeAll]
  split
  next known => rw [List.filter_cons_of_neg (by simpa using known), List.filter_nil,
      List.eraseDups_nil, List.append_nil]
  next fresh => rw [List.filter_cons_of_pos (by simpa using fresh), List.filter_nil,
      List.eraseDups_cons, List.filter_nil, List.eraseDups_nil]

/-- A constraint has the place of its first rule. -/
theorem constraints_insertAll_empty (rules : List Rule) :
    (empty.insertAll rules).constraints = (rules.map Rule.constraint).eraseDups := by
  induction rules using List.reverseRecOn with
  | nil => rfl
  | append_singleton rules rule ih =>
    rw [insertAll_concat, constraints_insert, ih, List.map_append, List.map_singleton,
      eraseDups_concat]
    simp only [List.mem_eraseDups]

theorem map_some_rules {s : RuleSet} (distinct : s.constraints.Nodup) :
    s.rules.map some = s.constraints.map s.find? := by
  rw [constraints, List.map_map]
  exact List.map_congr_left fun r mem => (find?_of_mem distinct mem).symm

theorem find?_defineEach (ws : List Wording) (c : Constraint) :
    (empty.defineEach ws).value.find? c = (Wording.last? ws c).map Wording.rule := by
  have nothing : empty.find? c = none := rfl
  rw [value_defineEach, find?_insertAll, nothing, Option.or_none, List.filter_map,
    List.getLast?_map]
  rfl

theorem constraints_defineEach (ws : List Wording) :
    (empty.defineEach ws).value.constraints = (ws.map Wording.constraint).eraseDups := by
  rw [value_defineEach, constraints_insertAll_empty, List.map_map]
  rfl

theorem nodup_defineEach (ws : List Wording) :
    (empty.defineEach ws).value.constraints.Nodup := by
  have nothing : empty.constraints.Nodup := List.nodup_nil
  rw [value_defineEach]
  exact nodup_insertAll nothing _

theorem lookup?_defineEach (ws : List Wording) (text : String) (c : Constraint) :
    (empty.defineEach ws).value.lookup? text c =
      ((Wording.last? ws c).filter (text == ·.literal)).map Wording.rule := by
  rw [lookup?_eq (nodup_defineEach ws), find?_defineEach]
  exact Option.filter_map

/-- However rules are worded, one after the other, their set holds one rule for each constraint, in
the order of the first wordings and in the words of the last; these alone can be looked up. -/
theorem first_wording_places_last_words (ws : List Wording) :
    let s := (empty.defineEach ws).value
    s.rules.map some =
      ((ws.map Wording.constraint).eraseDups.map fun c => (Wording.last? ws c).map Wording.rule) ∧
    (∀ text c, (s.lookup? text c).isSome ↔
      ∃ w, Wording.last? ws c = some w ∧ w.literal = text) ∧
    ∀ name literal m, empty.defineAll name literal m =
      empty.defineEach (m.triples.map (Wording.ofMapping name literal)) := by
  intro s
  refine ⟨?_, fun text c => ?_, empty.defineAll_eq_defineEach⟩
  · rw [map_some_rules (nodup_defineEach ws), constraints_defineEach]
    exact List.map_congr_left fun c _ => find?_defineEach ws c
  · rw [lookup?_defineEach, Option.isSome_map]
    cases Wording.last? ws c with
    | none => simp
    | some w =>
      rw [Option.isSome_filter, Option.any_some, beq_iff_eq]
      constructor
      · intro same
        exact ⟨w, rfl, same.symm⟩
      · rintro ⟨v, found, same⟩
        cases found
        exact same.symm

example :
    (empty.defineEach
      [⟨"2B", "d", "plus", "+"⟩, ⟨"2B", "e", "add", "+"⟩, ⟨"2D", "d.", "minus", "-"⟩]).value.rules =
    [⟨"2D", "-", ⟨"d", ""⟩, ["minus"]⟩, ⟨"2B", "+", ⟨"e", ""⟩, ["add"]⟩] := by
  decide

end RuleSet

end ScreenReader
