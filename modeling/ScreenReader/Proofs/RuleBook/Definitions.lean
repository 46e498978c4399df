import ScreenReader.Proofs.RuleSet.OfMappings
import ScreenReader.RuleBook.Write

namespace ScreenReader

/-- Rules for a literal that take the place of all rules that it had. -/
structure Definition where
  name : String
  literal : String
  mappings : Mappings

def Definition.ruleSet (d : Definition) : RuleSet :=
  .ofMappings d.name d.literal d.mappings

/-- A symbol is defined once if its code point can be read, functions once for each name. -/
def Declaration.definitions : {kind : Kind} → Declaration kind → List Definition
  | .symbol, d =>
    (Text.ofHex? d.subject).toList.map fun c => ⟨d.subject, String.singleton c, d.mappings⟩
  | .function, d => d.subject.map fun name => ⟨name, name, d.mappings⟩

namespace Kind

def definitionsOfText? (kind : Kind) (text : String) : Option (List Definition) :=
  (Declaration.listOfJson kind text).toOption.map (·.flatMap Declaration.definitions)

def definitionsOfContent? (kind : Kind) (content : Text.Bytes) : Option (List Definition) :=
  (Text.decode? content).bind kind.definitionsOfText?

end Kind

namespace FileTree

/-- The rule files of one kind under a directory, none for one that cannot be read. A directory that
cannot be listed counts as such a file. -/
def rulesOf (tree : FileTree) (directory : Path) (kind : Kind) : List (Kind × Option Text.Bytes) :=
  let place := kind.directoryUnder directory
  if tree.isDirectory place then
    match tree.ruleFiles place with
    | .error _ => [(kind, none)]
    | .ok names => names.map fun name => (kind, (tree.content (place.join name)).toOption)
  else []

/-- The rule files under a directory, symbols before functions. -/
def rules (tree : FileTree) (directory : Path) : List (Kind × Option Text.Bytes) :=
  [Kind.symbol, Kind.function].flatMap (tree.rulesOf directory)

end FileTree

/-- What a write imports, text by text; none for a text that cannot be read. -/
def Write.portions (tree : FileTree) : Write → List (Option (List Definition))
  | define name literal mappings => [some [⟨name, literal, mappings⟩]]
  | declare declaration => [some declaration.definitions]
  | text kind json => [kind.definitionsOfText? json]
  | file kind path => [(tree.content path).toOption.bind kind.definitionsOfContent?]
  | directory path =>
    (tree.rules path).map fun (kind, content) => content.bind kind.definitionsOfContent?

/-- The definitions of all portions before the first that cannot be read. -/
def readable : List (Option (List Definition)) → List Definition
  | some ds :: portions => ds ++ readable portions
  | _ => []

def Write.definitions (tree : FileTree) (w : Write) : List Definition :=
  readable (w.portions tree)

theorem readable_append (ps qs : List (Option (List Definition))) :
    readable (ps ++ qs) =
      if ps.all Option.isSome then readable ps ++ readable qs else readable ps := by
  induction ps with
  | nil => rfl
  | cons p ps ih =>
    cases p with
    | none => rfl
    | some ds =>
      simp only [List.cons_append, readable, ih, List.all_cons, Option.isSome_some, Bool.true_and]
      split
      · rw [List.append_assoc]
      · rfl

namespace RuleBook

def enter (b : RuleBook) (ds : List Definition) : RuleBook :=
  ds.foldl (fun b d => (b.define d.name d.literal d.mappings).value) b

@[simp]
theorem enter_nil (b : RuleBook) : b.enter [] = b := rfl

theorem enter_append (b : RuleBook) (ds es : List Definition) :
    b.enter (ds ++ es) = (b.enter ds).enter es :=
  List.foldl_append

theorem enter_flatMap {α : Type} (b : RuleBook) (f : α → List Definition) (as : List α) :
    b.enter (as.flatMap f) = as.foldl (fun b a => b.enter (f a)) b :=
  List.foldl_flatMap ..

theorem value_declare (b : RuleBook) {kind : Kind} (d : Declaration kind) :
    (b.declare d).value = b.enter d.definitions := by
  cases kind with
  | symbol =>
    simp only [declare, declareSymbol, Declaration.definitions]
    cases Text.ofHex? d.subject <;> rfl
  | function =>
    simp only [declare, declareFunctions, Declaration.definitions, enter]
    rw [Logged.value_foldlM, List.foldl_map]

theorem value_declareAll (b : RuleBook) {kind : Kind} (ds : List (Declaration kind)) :
    (b.declareAll ds).value = b.enter (ds.flatMap Declaration.definitions) := by
  unfold declareAll
  rw [Logged.value_foldlM, enter_flatMap]
  simp only [value_declare]

end RuleBook

/-- A load of some portions into a book, which stops at the first that cannot be read. -/
structure Loaded.Enters {α : Type} (x : Loaded α) (b : RuleBook)
    (portions : List (Option (List Definition))) : Prop where
  book : x.book = b.enter (readable portions)
  ok : x.outcome.isOk = portions.all Option.isSome

namespace Loaded

variable {α β : Type}

theorem Enters.map {x : Loaded α} {b : RuleBook} {ps : List (Option (List Definition))}
    (h : x.Enters b ps) (f : α → β) : (x.map f).Enters b ps := by
  refine ⟨h.book, ?_⟩
  rw [← h.ok]
  unfold Loaded.map
  cases x.outcome <;> rfl

theorem Enters.andThen {x : Loaded α} {b : RuleBook} {ps qs : List (Option (List Definition))}
    {f : RuleBook → α → Logged (Loaded β)} (first : x.Enters b ps)
    (second : ∀ b a, (f b a).value.Enters b qs) : (x.andThen f).value.Enters b (ps ++ qs) := by
  have ok := first.ok
  have book := first.book
  unfold Loaded.andThen
  split
  next a done =>
    rw [done] at ok
    have all : ps.all Option.isSome = true := ok.symm
    refine ⟨?_, ?_⟩
    · rw [(second x.book a).book, book, readable_append, if_pos all, RuleBook.enter_append]
    · rw [(second x.book a).ok, List.all_append, all, Bool.true_and]
  next e failed =>
    rw [failed] at ok
    have some_missing : ps.all Option.isSome = false := ok.symm
    refine ⟨?_, ?_⟩
    · rw [readable_append, some_missing, if_neg Bool.false_ne_true]
      exact book
    · rw [List.all_append, some_missing, Bool.false_and]
      rfl

end Loaded

namespace RuleBook

theorem enters_loadText (b : RuleBook) (kind : Kind) (text : String) :
    (b.loadText kind text).value.Enters b [kind.definitionsOfText? text] := by
  unfold loadText Kind.definitionsOfText?
  cases Declaration.listOfJson kind text with
  | error e => exact ⟨rfl, rfl⟩
  | ok ds => exact ⟨(b.value_declareAll ds).trans (by simp [readable, Except.toOption]), rfl⟩

theorem enters_loadContent (b : RuleBook) (kind : Kind) (path : Path) (content : Text.Bytes) :
    (b.loadContent kind path content).value.Enters b [kind.definitionsOfContent? content] := by
  unfold loadContent Kind.definitionsOfContent?
  cases Text.decode? content with
  | none => exact ⟨rfl, rfl⟩
  | some text =>
    have loaded := b.enters_loadText kind text
    have ok := loaded.ok
    simp only [Logged.value_bind]
    split
    next e failed =>
      rw [failed] at ok
      exact ⟨loaded.book, ok⟩
    next n done => exact loaded

theorem enters_loadFile (b : RuleBook) (tree : FileTree) (kind : Kind) (path : Path) :
    (b.loadFile tree kind path).value.Enters b
      [(tree.content path).toOption.bind kind.definitionsOfContent?] := by
  unfold loadFile
  cases tree.content path with
  | error e => exact ⟨rfl, rfl⟩
  | ok content => exact b.enters_loadContent kind path content

theorem enters_loadFiles (b : RuleBook) (tree : FileTree) (kind : Kind) (directory : Path)
    (sum : Summary) (names : List Text.Bytes) :
    (b.loadFiles tree kind directory sum names).value.Enters b
      (names.map fun name =>
        (tree.content (directory.join name)).toOption.bind kind.definitionsOfContent?) := by
  induction names generalizing b sum with
  | nil => exact ⟨rfl, rfl⟩
  | cons name names ih =>
    exact (b.enters_loadFile tree kind (directory.join name)).andThen fun b n =>
      ih b ⟨sum.files + 1, sum.declarations + n⟩

theorem enters_loadKind (b : RuleBook) (tree : FileTree) (directory : Path) (kind : Kind)
    (sum : Summary) :
    (b.loadKind tree directory kind sum).value.Enters b
      ((tree.rulesOf directory kind).map fun (kind, content) =>
        content.bind kind.definitionsOfContent?) := by
  unfold loadKind FileTree.rulesOf
  dsimp only
  split
  next =>
    cases tree.ruleFiles (kind.directoryUnder directory) with
    | error e => exact ⟨rfl, rfl⟩
    | ok names =>
      simp only [List.map_map]
      exact b.enters_loadFiles tree kind _ sum names
  next => exact ⟨rfl, rfl⟩

theorem enters_loadDirectory (b : RuleBook) (tree : FileTree) (directory : Path) :
    (b.loadDirectory tree directory).value.Enters b ((Write.directory directory).portions tree) := by
  let portion : Kind × Option Text.Bytes → Option (List Definition) := fun (kind, content) =>
    content.bind kind.definitionsOfContent?
  have files : (Write.directory directory).portions tree =
      (tree.rulesOf directory .symbol).map portion ++
        (tree.rulesOf directory .function).map portion ++ [] := by
    simp [Write.portions, FileTree.rules, portion]
  have symbols := b.enters_loadKind tree directory .symbol {}
  have functions := symbols.andThen fun b sum => b.enters_loadKind tree directory .function sum
  rw [files]
  exact functions.andThen fun b sum => ⟨rfl, rfl⟩

theorem enters_apply (b : RuleBook) (tree : FileTree) (w : Write) :
    (w.apply tree b).value.Enters b (w.portions tree) := by
  cases w with
  | define name literal mappings => exact ⟨rfl, rfl⟩
  | declare declaration =>
    exact ⟨(b.value_declare declaration).trans (by simp [readable, Write.portions]), rfl⟩
  | text kind json => exact (b.enters_loadText kind json).map _
  | file kind path => exact (b.enters_loadFile tree kind path).map _
  | directory path => exact (b.enters_loadDirectory tree path).map _

end RuleBook

end ScreenReader
