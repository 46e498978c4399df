import ScreenReader.Proofs.RuleBook.Definitions

namespace ScreenReader

/-- The definitions that some writes come to, in the order in which they are made. -/
def definitionsOf (ws : List (FileTree × Write)) : List Definition :=
  ws.flatMap fun (tree, w) => w.definitions tree

namespace RuleBook

/-- The book behind some writes, between which the files may change. -/
def after (b : RuleBook) (ws : List (FileTree × Write)) : RuleBook :=
  ws.foldl (fun b (tree, w) => (w.apply tree b).value.book) b

theorem book_writeAll (tree : FileTree) (b : RuleBook) (ws : List Write) :
    (b.writeAll tree ws).value.1 = b.after (ws.map fun w => (tree, w)) := by
  induction ws generalizing b with
  | nil => rfl
  | cons w ws ih => exact ih (w.apply tree b).value.book

theorem after_eq_enter (b : RuleBook) (ws : List (FileTree × Write)) :
    b.after ws = b.enter (definitionsOf ws) := by
  unfold after definitionsOf
  rw [enter_flatMap]
  congr 1
  funext b write
  exact (b.enters_apply write.1 write.2).book

theorem value_define (b : RuleBook) (d : Definition) :
    (b.define d.name d.literal d.mappings).value = ⟨b.sets.insert d.literal d.ruleSet⟩ := by
  unfold define
  simp only [Logged.value_bind]
  split <;> rfl

theorem ruleSet?_define (b : RuleBook) (d : Definition) (k : String) :
    (b.define d.name d.literal d.mappings).value.ruleSet? k =
      if d.literal = k then some d.ruleSet else b.ruleSet? k := by
  rw [value_define]
  exact b.sets.get?_insert d.literal k d.ruleSet

theorem ruleSet?_enter (b : RuleBook) (ds : List Definition) (k : String) :
    (b.enter ds).ruleSet? k =
      ((ds.filter (·.literal == k)).getLast?.map Definition.ruleSet).or (b.ruleSet? k) :=
  find_foldl_of_overwrites ruleSet?_define ds b k

theorem contains_enter {ds : List Definition} {k : String} :
    ((∅ : RuleBook).enter ds).contains k ↔ ∃ d ∈ ds, d.literal = k := by
  have found : ((∅ : RuleBook).enter ds).contains k =
      (((∅ : RuleBook).enter ds).ruleSet? k).isSome := rfl
  have nothing : (∅ : RuleBook).ruleSet? k = none := rfl
  rw [found, ruleSet?_enter, nothing, Option.or_none, Option.isSome_map, List.getLast?_isSome]
  simp

/-- What is filed under a text is what its last definition came to, and nothing else is filed. -/
theorem last_definition_decides (ws : List (FileTree × Write)) :
    (∅ : RuleBook).after ws = (∅ : RuleBook).enter (definitionsOf ws) ∧
    (∀ k, ((∅ : RuleBook).after ws).contains k ↔ ∃ d ∈ definitionsOf ws, d.literal = k) ∧
    (∀ k, ((∅ : RuleBook).after ws).ruleSet? k =
      ((definitionsOf ws).filter (·.literal == k)).getLast?.map Definition.ruleSet) ∧
    ((∅ : RuleBook).after ws).size = ((definitionsOf ws).map Definition.literal).toFinset.card := by
  rw [after_eq_enter]
  refine ⟨rfl, fun k => contains_enter, fun k => ?_, ?_⟩
  · rw [ruleSet?_enter]
    exact Option.or_none
  · refine Dictionary.size_eq_card fun k => ?_
    rw [List.mem_map]
    exact contains_enter

end RuleBook

end ScreenReader
