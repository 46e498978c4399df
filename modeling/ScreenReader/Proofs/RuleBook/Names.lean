import Mathlib.Data.List.Sort
import ScreenReader.Proofs.RuleBook.Vocabulary

namespace ScreenReader

def Rule.unnamed (r : Rule) : Rule := { r with name := "" }

def RuleSet.unnamed (s : RuleSet) : RuleSet := ⟨s.rules.map Rule.unnamed⟩

def Definition.unnamed (d : Definition) : Definition := { d with name := "" }

/-- Declarations that differ at most in their categories and, for a symbol, in the spelling of the
code point, which may be undecodable in both. -/
def Declaration.Alike : {kind : Kind} → Declaration kind → Declaration kind → Prop
  | .symbol, d, e => Text.ofHex? d.subject = Text.ofHex? e.subject ∧ d.mappings = e.mappings
  | .function, d, e => d.subject = e.subject ∧ d.mappings = e.mappings

namespace Kind

def declarationsOfText? (kind : Kind) (text : String) : Option (List (Declaration kind)) :=
  (Declaration.listOfJson kind text).toOption

def declarationsOfContent? (kind : Kind) (content : Text.Bytes) :
    Option (List (Declaration kind)) :=
  (Text.decode? content).bind kind.declarationsOfText?

/-- Both come to declarations that are alike one by one, or neither can be read. -/
abbrev ReadAlike (kind : Kind) : Option (List (Declaration kind)) →
    Option (List (Declaration kind)) → Prop :=
  Option.Rel (List.Forall₂ Declaration.Alike)

end Kind

/-- Rule files of one kind that are read alike. -/
def SameButSpelling (f g : Kind × Option Text.Bytes) : Prop :=
  f.1 = g.1 ∧
    f.1.ReadAlike (f.2.bind f.1.declarationsOfContent?) (g.2.bind f.1.declarationsOfContent?)

/-- Writes of the same shape, each with the files that it finds. -/
inductive Write.Alike : FileTree × Write → FileTree × Write → Prop
  | define {tree other : FileTree} (name rename literal : String) (m : Mappings) :
    Alike (tree, .define name literal m) (other, .define rename literal m)
  | declare {tree other : FileTree} {kind : Kind} {d e : Declaration kind} (alike : d.Alike e) :
    Alike (tree, .declare d) (other, .declare e)
  | text {tree other : FileTree} {kind : Kind} {json respelled : String}
    (alike : kind.ReadAlike (kind.declarationsOfText? json) (kind.declarationsOfText? respelled)) :
    Alike (tree, .text kind json) (other, .text kind respelled)
  | file {tree other : FileTree} {kind : Kind} {path : Path}
    (alike : kind.ReadAlike ((tree.content path).toOption.bind kind.declarationsOfContent?)
      ((other.content path).toOption.bind kind.declarationsOfContent?)) :
    Alike (tree, .file kind path) (other, .file kind path)
  | directory {tree other : FileTree} {path : Path}
    (alike : List.Forall₂ SameButSpelling (tree.rules path) (other.rules path)) :
    Alike (tree, .directory path) (other, .directory path)

namespace RuleSet

theorem unnamed_replaceFirst (rule : Rule) (rules : List Rule) :
    (replaceFirst rule rules).map Rule.unnamed =
      replaceFirst rule.unnamed (rules.map Rule.unnamed) := by
  induction rules with
  | nil => rfl
  | cons r rules ih =>
    have same_test : r.unnamed.constraint = rule.unnamed.constraint ↔
        r.constraint = rule.constraint := Iff.rfl
    rw [List.map_cons, replaceFirst, replaceFirst]
    by_cases same : r.constraint = rule.constraint
    · rw [if_pos same, if_pos (same_test.mpr same), List.map_cons]
    · rw [if_neg same, if_neg (mt same_test.mp same), List.map_cons, ih]

theorem constraints_unnamed (s : RuleSet) : s.unnamed.constraints = s.constraints := by
  unfold constraints unnamed
  rw [List.map_map]
  rfl

theorem unnamed_insert (s : RuleSet) (rule : Rule) :
    (s.insert rule).unnamed = s.unnamed.insert rule.unnamed := by
  by_cases known : rule.constraint ∈ s.constraints
  · rw [insert_of_mem known, insert_of_mem (s.constraints_unnamed ▸ known)]
    exact RuleSet.ext (unnamed_replaceFirst rule s.rules)
  · rw [insert_of_not_mem known, insert_of_not_mem (s.constraints_unnamed ▸ known)]
    exact RuleSet.ext List.map_append

theorem unnamed_insertAll (s : RuleSet) (rules : List Rule) :
    (s.insertAll rules).unnamed = s.unnamed.insertAll (rules.map Rule.unnamed) := by
  induction rules generalizing s with
  | nil => rfl
  | cons rule rules ih =>
    show ((s.insert rule).insertAll rules).unnamed = _
    rw [ih, unnamed_insert]
    rfl

/-- The name that mappings are defined under goes into the names of the rules and nowhere else. -/
theorem unnamed_ofMappings (name literal : String) (m : Mappings) :
    (ofMappings name literal m).unnamed = ofMappings "" literal m := by
  rw [ofMappings_eq, ofMappings_eq, unnamed_insertAll, List.map_map]
  rfl

theorem lookup?_unnamed (s : RuleSet) (text : String) (c : Constraint) :
    s.unnamed.lookup? text c = (s.lookup? text c).map Rule.unnamed := by
  unfold lookup? unnamed
  rw [List.filter_map, List.find?_map]
  rfl

end RuleSet

theorem Definition.ruleSet_unnamed (d : Definition) : d.unnamed.ruleSet = d.ruleSet.unnamed :=
  (RuleSet.unnamed_ofMappings d.name d.literal d.mappings).symm

theorem Declaration.Alike.definitions {kind : Kind} {d e : Declaration kind} (alike : d.Alike e) :
    d.definitions.map Definition.unnamed = e.definitions.map Definition.unnamed := by
  cases kind with
  | symbol =>
    have unspelled : ∀ d : Declaration .symbol, d.definitions.map Definition.unnamed =
        (Text.ofHex? d.subject).toList.map fun c => ⟨"", String.singleton c, d.mappings⟩ :=
      fun d => List.map_map
    rw [unspelled, unspelled, alike.1, alike.2]
  | function =>
    have listed : ∀ d : Declaration .function, d.definitions =
        d.subject.map fun name => ⟨name, name, d.mappings⟩ := fun _ => rfl
    rw [listed, listed, alike.1, alike.2]

theorem Declaration.map_unnamed_flatMap {kind : Kind} {ds es : List (Declaration kind)}
    (alike : List.Forall₂ Declaration.Alike ds es) :
    (ds.flatMap Declaration.definitions).map Definition.unnamed =
      (es.flatMap Declaration.definitions).map Definition.unnamed := by
  induction alike with
  | nil => rfl
  | cons first _ ih =>
    rw [List.flatMap_cons, List.flatMap_cons, List.map_append, List.map_append,
      first.definitions, ih]

/-- A portion of what is written, with the names left out. -/
def unnamedPortion : Option (List Definition) → Option (List Definition) :=
  Option.map (List.map Definition.unnamed)

theorem map_unnamed_readable (portions : List (Option (List Definition))) :
    (readable portions).map Definition.unnamed = readable (portions.map unnamedPortion) := by
  induction portions with
  | nil => rfl
  | cons portion portions ih =>
    cases portion with
    | none => rfl
    | some ds => exact List.map_append.trans (congrArg _ ih)

namespace Kind

theorem definitionsOfContent?_eq (kind : Kind) :
    kind.definitionsOfContent? =
      Option.map (·.flatMap Declaration.definitions) ∘ kind.declarationsOfContent? :=
  funext fun _ => Option.map_bind.symm

theorem ReadAlike.portion {kind : Kind} {ds es : Option (List (Declaration kind))}
    (alike : kind.ReadAlike ds es) :
    unnamedPortion (ds.map (·.flatMap Declaration.definitions)) =
      unnamedPortion (es.map (·.flatMap Declaration.definitions)) := by
  cases alike with
  | none => rfl
  | some alike => exact congrArg some (Declaration.map_unnamed_flatMap alike)

theorem ReadAlike.portion_of_content {kind : Kind} {content other : Option Text.Bytes}
    (alike : kind.ReadAlike (content.bind kind.declarationsOfContent?)
      (other.bind kind.declarationsOfContent?)) :
    unnamedPortion (content.bind kind.definitionsOfContent?) =
      unnamedPortion (other.bind kind.definitionsOfContent?) := by
  have same := alike.portion
  rwa [Option.map_bind, Option.map_bind, ← definitionsOfContent?_eq] at same

end Kind

theorem SameButSpelling.portion {f g : Kind × Option Text.Bytes} (alike : SameButSpelling f g) :
    unnamedPortion (f.2.bind f.1.definitionsOfContent?) =
      unnamedPortion (g.2.bind g.1.definitionsOfContent?) := by
  obtain ⟨kind, content⟩ := f
  obtain ⟨_, other⟩ := g
  obtain ⟨rfl, alike⟩ := alike
  exact alike.portion_of_content

theorem Write.Alike.portions {x y : FileTree × Write} (alike : Write.Alike x y) :
    (x.2.portions x.1).map unnamedPortion = (y.2.portions y.1).map unnamedPortion := by
  cases alike with
  | define name rename literal m => rfl
  | declare alike => exact congrArg (fun ds => [some ds]) alike.definitions
  | text alike => exact congrArg (fun portion => [portion]) alike.portion
  | file alike => exact congrArg (fun portion => [portion]) alike.portion_of_content
  | @directory tree other path alike =>
    unfold Write.portions
    dsimp only
    generalize tree.rules path = files, other.rules path = others at alike
    induction alike with
    | nil => rfl
    | cons first _ ih =>
      rw [List.map_cons, List.map_cons, List.map_cons, List.map_cons, ih, first.portion]

theorem map_unnamed_definitionsOf {ws vs : List (FileTree × Write)}
    (alike : List.Forall₂ Write.Alike ws vs) :
    (definitionsOf ws).map Definition.unnamed = (definitionsOf vs).map Definition.unnamed := by
  unfold definitionsOf
  induction alike with
  | nil => rfl
  | cons first _ ih =>
    rw [List.flatMap_cons, List.flatMap_cons, List.map_append, List.map_append, ih]
    unfold Write.definitions
    rw [map_unnamed_readable, map_unnamed_readable, first.portions]

namespace RuleBook

/-- Under each text the same rules, in the same order, up to their names. -/
def SameButNames (b c : RuleBook) : Prop :=
  ∀ literal, (b.ruleSet? literal).map RuleSet.unnamed = (c.ruleSet? literal).map RuleSet.unnamed

theorem unnamed_ruleSet?_enter (b : RuleBook) (ds : List Definition) (k : String) :
    ((b.enter ds).ruleSet? k).map RuleSet.unnamed =
      (((ds.map Definition.unnamed).filter (·.literal == k)).getLast?.map Definition.ruleSet).or
        ((b.ruleSet? k).map RuleSet.unnamed) := by
  rw [ruleSet?_enter, Option.map_or, Option.map_map, List.filter_map, List.getLast?_map,
    Option.map_map]
  have erased : RuleSet.unnamed ∘ Definition.ruleSet = Definition.ruleSet ∘ Definition.unnamed :=
    funext fun d => d.ruleSet_unnamed.symm
  rw [erased]
  rfl

theorem sameButNames_after (b : RuleBook) {ws vs : List (FileTree × Write)}
    (alike : List.Forall₂ Write.Alike ws vs) : (b.after ws).SameButNames (b.after vs) := by
  intro literal
  rw [after_eq_enter, after_eq_enter, unnamed_ruleSet?_enter, unnamed_ruleSet?_enter,
    map_unnamed_definitionsOf alike]

namespace SameButNames

variable {b c : RuleBook}

theorem contains (same : b.SameButNames c) (k : String) : b.contains k = c.contains k := by
  have sets := congrArg Option.isSome (same k)
  rwa [Option.isSome_map, Option.isSome_map] at sets

theorem keys (same : b.SameButNames c) : b.sets.keys = c.sets.keys := by
  refine b.sets.keys_ascending.eq_of_mem_iff c.sets.keys_ascending fun k => ?_
  rw [← Dictionary.contains_iff_mem_keys, ← Dictionary.contains_iff_mem_keys]
  exact Bool.eq_iff_iff.mp (same.contains k)

theorem size (same : b.SameButNames c) : b.size = c.size := by
  unfold RuleBook.size
  rw [← Dictionary.length_keys, ← Dictionary.length_keys, same.keys]

theorem lookup? (same : b.SameButNames c) (text : String) (constraint : Constraint) :
    (b.lookup? text constraint).map Rule.unnamed =
      (c.lookup? text constraint).map Rule.unnamed := by
  have erased : ∀ d : RuleBook, (d.lookup? text constraint).map Rule.unnamed =
      ((d.ruleSet? text).map RuleSet.unnamed).bind (·.lookup? text constraint) := by
    intro d
    unfold RuleBook.lookup?
    rw [Option.map_bind, Option.bind_map]
    congr 1
    funext s
    exact (s.lookup?_unnamed text constraint).symm
  rw [erased, erased, same text]

theorem speech (same : b.SameButNames c) (text : String) (constraint : Constraint) :
    b.speech text constraint = c.speech text constraint := by
  have erased : ∀ d : RuleBook, d.speech text constraint =
      (((d.lookup? text constraint).map Rule.unnamed).map Rule.speech).getD "" := by
    intro d
    rw [Option.map_map]
    rfl
  rw [erased, erased, same.lookup?]

theorem vocabulary (same : b.SameButNames c) : b.vocabulary = c.vocabulary := by
  refine b.recorded_vocabulary.ext_contains c.recorded_vocabulary fun axis value => ?_
  have erased : ∀ d : RuleBook, d.vocabulary.contains axis value ↔
      ∃ literal s, (d.ruleSet? literal).map RuleSet.unnamed = some s ∧
        ∃ c ∈ s.constraints, c.value axis = value := by
    intro d
    simp only [contains_vocabulary_iff, Option.map_eq_some_iff]
    constructor
    · rintro ⟨literal, s, filed, used⟩
      exact ⟨literal, s.unnamed, ⟨s, filed, rfl⟩, s.constraints_unnamed ▸ used⟩
    · rintro ⟨literal, _, ⟨s, filed, rfl⟩, used⟩
      exact ⟨literal, s, filed, s.constraints_unnamed ▸ used⟩
  -- opened, so that the equation rewrites below the quantifiers
  have sets : ∀ literal, _ = _ := same
  rw [erased, erased]
  simp only [sets]

end SameButNames

/-- Writes that differ only in names, categories and the spelling of code points lead from any book
to books that file, speak and use the same, up to the names of the rules. -/
theorem names_are_diagnostic (b : RuleBook) (ws vs : List (FileTree × Write))
    (alike : List.Forall₂ Write.Alike ws vs) :
    (b.after ws).sets.keys = (b.after vs).sets.keys ∧
    (b.after ws).size = (b.after vs).size ∧
    (∀ text c, (b.after ws).speech text c = (b.after vs).speech text c) ∧
    (b.after ws).vocabulary = (b.after vs).vocabulary ∧
    ∀ literal, ((b.after ws).ruleSet? literal).map (·.rules.map Rule.unnamed) =
      ((b.after vs).ruleSet? literal).map (·.rules.map Rule.unnamed) := by
  have same := b.sameButNames_after alike
  refine ⟨same.keys, same.size, same.speech, same.vocabulary, fun literal => ?_⟩
  have sets := congrArg (Option.map RuleSet.rules) (same literal)
  rwa [Option.map_map, Option.map_map] at sets

/-- Writes with other names, categories and spellings: the same is spoken, by a rule of another
name, and a symbol that cannot be decoded is passed over however it is spelled. -/
theorem respelled_writes_speak_alike :
    let m : Mappings := .ofTriples [("default", "short", "plus")]
    let symbol (category : Option String) (key : String) : FileTree × Write :=
      (.empty, .declare (⟨category, key, m⟩ : Declaration .symbol))
    let ws := [(.empty, .define "a" "x" m), symbol (some "Sm") "2b", symbol none "zz"]
    let vs := [(.empty, .define "b" "x" m), symbol none "002B", symbol (some "Sm") "+2B"]
    List.Forall₂ Write.Alike ws vs ∧
    ((∅ : RuleBook).after ws).sets.keys = ((∅ : RuleBook).after vs).sets.keys ∧
    ((∅ : RuleBook).after ws).speech "+" ⟨"default", "short"⟩ = "plus" ∧
    ((∅ : RuleBook).after vs).speech "+" ⟨"default", "short"⟩ = "plus" ∧
    (((∅ : RuleBook).after ws).lookup? "+" ⟨"default", "short"⟩).map Rule.name = some "2b" ∧
    (((∅ : RuleBook).after vs).lookup? "+" ⟨"default", "short"⟩).map Rule.name = some "002B" := by
  intro m symbol ws vs
  have alike : List.Forall₂ Write.Alike ws vs :=
    .cons (.define "a" "b" "x" m) (.cons (.declare ⟨by decide, rfl⟩)
      (.cons (.declare ⟨by decide, rfl⟩) .nil))
  obtain ⟨keys, -, speech, -⟩ := names_are_diagnostic ∅ ws vs alike
  have spoken : ((∅ : RuleBook).after ws).speech "+" ⟨"default", "short"⟩ = "plus" := by decide
  exact ⟨alike, keys, spoken, (speech _ _).symm.trans spoken, by decide, by decide⟩

end RuleBook

end ScreenReader
