import ScreenReader.Proofs.RuleBook.LastDefinition

namespace ScreenReader

def Rule.isFor (r : Rule) (text : String) (c : Constraint) : Bool :=
  r.literal == text && r.constraint == c

/-- What a definition of `literal` makes sure of, whatever its mappings are. -/
structure RuleSet.FiledUnder (s : RuleSet) (literal : String) : Prop where
  literal : ∀ r ∈ s.rules, r.literal = literal
  distinct : s.constraints.Nodup
  undotted : ∀ r ∈ s.rules, ¬r.constraint.Dotted
  single : ∀ r ∈ s.rules, ∃ text, r.action = [text]

theorem RuleSet.filedUnder_ofMappings (name literal : String) (m : Mappings) :
    (ofMappings name literal m).FiledUnder literal := by
  have each : ∀ r ∈ (ofMappings name literal m).rules,
      r.literal = literal ∧ ¬r.constraint.Dotted ∧ ∃ text, r.action = [text] := by
    intro r mem
    obtain ⟨x, _, rfl⟩ := mem_ofMappings mem
    exact ⟨rfl, Constraint.not_dotted_ofText _, x.2.2, rfl⟩
  exact ⟨fun r mem => (each r mem).1, nodup_ofMappings name literal m,
    fun r mem => (each r mem).2.1, fun r mem => (each r mem).2.2⟩

namespace RuleBook

def rules (b : RuleBook) : List Rule :=
  b.sets.values.flatMap RuleSet.rules

def WellFiled (b : RuleBook) : Prop :=
  ∀ literal s, b.ruleSet? literal = some s → s.FiledUnder literal

theorem wellFiled_empty : (∅ : RuleBook).WellFiled := by
  intro literal s filed
  cases filed

theorem WellFiled.define {b : RuleBook} (filed : b.WellFiled) (d : Definition) :
    (b.define d.name d.literal d.mappings).value.WellFiled := by
  intro literal s found
  rw [ruleSet?_define] at found
  split at found
  next same =>
    cases found
    rw [← same]
    exact RuleSet.filedUnder_ofMappings d.name d.literal d.mappings
  next => exact filed literal s found

theorem WellFiled.enter {b : RuleBook} (filed : b.WellFiled) (ds : List Definition) :
    (b.enter ds).WellFiled := by
  induction ds generalizing b with
  | nil => exact filed
  | cons d ds ih => exact ih (filed.define d)

theorem WellFiled.after {b : RuleBook} (filed : b.WellFiled) (ws : List (FileTree × Write)) :
    (b.after ws).WellFiled := by
  rw [after_eq_enter]
  exact filed.enter _

theorem mem_rules {b : RuleBook} {r : Rule} :
    r ∈ b.rules ↔ ∃ literal s, b.ruleSet? literal = some s ∧ r ∈ s.rules := by
  unfold rules Dictionary.values
  rw [List.flatMap_map, List.mem_flatMap]
  constructor
  · rintro ⟨⟨literal, s⟩, entry, mem⟩
    exact ⟨literal, s, Dictionary.mem_entries_iff.mp entry, mem⟩
  · rintro ⟨literal, s, found, mem⟩
    exact ⟨(literal, s), Dictionary.mem_entries_iff.mpr found, mem⟩

theorem WellFiled.nodup_rules {b : RuleBook} (filed : b.WellFiled) : b.rules.Nodup := by
  have entry {e : String × RuleSet} (mem : e ∈ b.sets.entries) : e.2.FiledUnder e.1 :=
    filed e.1 e.2 (Dictionary.mem_entries_iff.mp mem)
  unfold rules Dictionary.values
  rw [List.flatMap_map, List.nodup_flatMap]
  refine ⟨fun e mem => List.Nodup.of_map Rule.constraint (entry mem).distinct, ?_⟩
  -- A rule of two sets would have both their literals.
  refine b.sets.ascending.imp_of_mem ?_
  intro e f he hf lt r inside twice
  have same : e.1 = f.1 :=
    ((entry he).literal r inside).symm.trans ((entry hf).literal r twice)
  rw [same] at lt
  exact String.lt_irrefl _ lt

theorem WellFiled.lookup?_eq_some_iff {b : RuleBook} (filed : b.WellFiled) {text : String}
    {c : Constraint} {r : Rule} :
    b.lookup? text c = some r ↔ r ∈ b.rules ∧ r.literal = text ∧ r.constraint = c := by
  constructor
  · intro found
    obtain ⟨s, set, found⟩ := Option.bind_eq_some_iff.mp found
    rw [RuleSet.lookup?_eq (filed text s set).distinct] at found
    obtain ⟨found, _⟩ := Option.filter_eq_some_iff.mp found
    have mem : r ∈ s.rules := List.mem_of_find?_eq_some found
    have same : r.constraint = c := by simpa using List.find?_some found
    exact ⟨mem_rules.mpr ⟨text, s, set, mem⟩, (filed text s set).literal r mem, same⟩
  · rintro ⟨mem, rfl, rfl⟩
    obtain ⟨literal, s, set, mem⟩ := mem_rules.mp mem
    have own := filed literal s set
    have filedHere : b.ruleSet? r.literal = some s := by rw [own.literal r mem, set]
    unfold lookup?
    rw [filedHere, Option.bind_some, RuleSet.lookup?_eq own.distinct,
      RuleSet.find?_of_mem own.distinct mem]
    simp [Option.filter_some, Rule.appliesTo]

theorem WellFiled.scan_eq {b : RuleBook} (filed : b.WellFiled) {rules : List Rule}
    (order : rules.Perm b.rules) (text : String) (c : Constraint) :
    rules.filter (·.isFor text c) = (b.lookup? text c).toList := by
  have members : ∀ r, r ∈ rules.filter (·.isFor text c) ↔ b.lookup? text c = some r := by
    intro r
    rw [filed.lookup?_eq_some_iff, List.mem_filter, order.mem_iff]
    simp [Rule.isFor]
  have distinct := (order.nodup_iff.mpr filed.nodup_rules).filter (·.isFor text c)
  cases found : b.lookup? text c with
  | none =>
    refine List.eq_nil_iff_forall_not_mem.mpr fun r mem => ?_
    rw [(members r).mp mem] at found
    cases found
  | some r =>
    have only : ∀ q, q ∈ rules.filter (·.isFor text c) ↔ q ∈ [r] := by
      intro q
      rw [members, found, List.mem_singleton, Option.some.injEq]
      exact eq_comm
    have same := (List.perm_ext_iff_of_nodup distinct (List.nodup_singleton r)).mpr only
    exact List.perm_singleton.mp same

theorem WellFiled.speech_eq {b : RuleBook} (filed : b.WellFiled) {literal text : String}
    {s : RuleSet} {r : Rule} (set : b.ruleSet? literal = some s) (mem : r ∈ s.rules)
    (single : r.action = [text]) : b.speech literal r.constraint = text := by
  have inside := mem_rules.mpr ⟨literal, s, set, mem⟩
  have found := filed.lookup?_eq_some_iff.mpr ⟨inside, (filed literal s set).literal r mem, rfl⟩
  unfold speech Rule.speech
  rw [found, Option.map_some, Option.getD_some, single]
  exact String.intercalate_singleton

/-- Whatever was written, a look-up finds what a search through all rules finds, in whatever order
it takes them: the one rule for the text and the constraint, if there is one. -/
theorem lookup_agrees_with_scan (ws : List (FileTree × Write)) :
    let b := (∅ : RuleBook).after ws
    (∀ rules : List Rule, rules.Perm b.rules → ∀ text c,
      rules.filter (·.isFor text c) = (b.lookup? text c).toList) ∧
    ∀ literal s, b.ruleSet? literal = some s → s.constraints.Nodup ∧
      ∀ r ∈ s.rules, r.literal = literal ∧ ¬r.constraint.Dotted ∧
        .ofText r.constraint.text = r.constraint ∧
        ∃ text, r.action = [text] ∧ b.speech literal r.constraint = text := by
  intro b
  have filed : b.WellFiled := wellFiled_empty.after ws
  refine ⟨fun rules order => filed.scan_eq order, fun literal s set => ?_⟩
  have own := filed literal s set
  refine ⟨own.distinct, fun r mem => ?_⟩
  have undotted := own.undotted r mem
  obtain ⟨text, single⟩ := own.single r mem
  exact ⟨own.literal r mem, undotted, Constraint.ofText_text undotted, text, single,
    filed.speech_eq set mem single⟩

end RuleBook

end ScreenReader
