import ScreenReader.Proofs.RuleBook.LastDefinition
import ScreenReader.Proofs.RuleBook.TextImport
import ScreenReader.Session

namespace ScreenReader

open Declaration

namespace Draft

/-- Imports up to the first that fails, and starts the session if none does. -/
def launch (tree : FileTree) (d : Draft) (imports : List Write) (seed : Target) :
    Logged (Except LoadError Session) := do
  match ← d.writeAll tree 0 imports with
  | .error (_, e) => pure (.error e)
  | .ok d => d.build tree seed

section

variable {kind : Kind} (tree : FileTree) (d : Draft)

theorem write_declare (x : Declaration kind) :
    d.write tree (.declare x) = (fun b => .ok { d with book := b }) <$> d.book.declare x := by
  simp [write, Write.apply, Except.map]

theorem writeAll_declare (position : Nat) (ds : List (Declaration kind)) :
    d.writeAll tree position (ds.map .declare) =
      (fun b => .ok { d with book := b }) <$> d.book.declareAll ds := by
  induction ds generalizing d position with
  | nil => rfl
  | cons x ds ih =>
    simp only [List.map_cons, writeAll, write_declare, bind_map_left, ih, RuleBook.declareAll,
      List.foldlM_cons, map_bind]

theorem writeAll_text (position : Nat) (ds : List (Declaration kind)) :
    d.writeAll tree position [.text kind (listToJson ds)] =
      (fun b => .ok { d with book := b }) <$> d.book.declareAll ds := by
  simp [writeAll, write, Write.apply, RuleBook.loadText_listToJson, Loaded.map, Except.map]

end

/-- Declarations that come as one text are imported as those in memory are, one after the other:
symbols whose code point cannot be read are passed over, each with a warning, and all others count.
So sessions with either kind of import start alike. -/
theorem text_import_is_import_in_memory :
    (∀ (b : RuleBook) (kind : Kind) (ds : List (Declaration kind)),
      (b.loadText kind (listToJson ds)).value = ⟨b.declareEach ds, .ok ds.length⟩) ∧
    (∀ (b : RuleBook) (ds : List (Declaration .symbol)),
      b.declareEach ds = b.declareEach (ds.filter isDecodable) ∧
      (b.loadText .symbol (listToJson ds)).warnings = (ds.filter (!·.isDecodable)).map skipped) ∧
    (∀ (b : RuleBook) (ds : List (Declaration .function)),
      (b.loadText .function (listToJson ds)).warnings = []) ∧
    ∀ (tree : FileTree) (d : Draft) (kind : Kind) (ds : List (Declaration kind)) (seed : Target),
      (d.writeAll tree 0 [.text kind (listToJson ds)]).value =
        .ok { d with book := d.book.declareEach ds } ∧
      (d.writeAll tree 0 (ds.map .declare)).value = .ok { d with book := d.book.declareEach ds } ∧
      d.launch tree [.text kind (listToJson ds)] seed = d.launch tree (ds.map .declare) seed := by
  refine ⟨fun b kind ds => ?_, fun b ds => ⟨?_, ?_⟩, fun b ds => ?_, fun tree d kind ds seed => ?_⟩
  · rw [b.loadText_listToJson, Logged.value_map, b.value_declareAll_eq_each]
  · exact (b.declareEach_filter ds).symm
  · rw [b.loadText_listToJson, Logged.warnings_map, b.warnings_declareAll_symbol]
  · rw [b.loadText_listToJson, Logged.warnings_map]
    exact Logged.warnings_foldlM_eq_nil (fun b d => b.warnings_declare_function d) ds b
  · have text := d.writeAll_text tree 0 ds
    have each := d.writeAll_declare tree 0 ds
    refine ⟨?_, ?_, ?_⟩
    · rw [text, Logged.value_map, d.book.value_declareAll_eq_each]
    · rw [each, Logged.value_map, d.book.value_declareAll_eq_each]
    · unfold launch
      rw [text, each]

/-- The same draft, with another directory of rules configured or none. -/
def withDirectory (d : Draft) (directory : Option Path) : Draft :=
  { d with settings := { d.settings with rulesDirectory := directory } }

section

variable (tree : FileTree) (d : Draft) (directory : Path) (seed : Target)

theorem launch_singleton (w : Write) :
    d.launch tree [w] seed = (d.write tree w >>= fun
      | .error e => pure (.error e)
      | .ok d => d.build tree seed) := by
  unfold launch
  simp only [writeAll, bind_assoc]
  congr 1
  funext outcome
  cases outcome <;> rfl

theorem start_withDirectory :
    (d.withDirectory (some directory)).start seed =
      (fun s => { s with settings := { s.settings with rulesDirectory := some directory } }) <$>
        (d.withDirectory none).start seed := by
  ext1
  · rfl
  · rw [Logged.records_map]
    rfl

/-- A configured directory is told in the settings and in what it fails with, and else there is no
difference to an import. -/
theorem build_configured :
    (d.withDirectory (some directory)).build tree seed =
      (fun outcome => (outcome.mapError (.configured directory)).map fun s =>
          { s with settings := { s.settings with rulesDirectory := some directory } }) <$>
        (d.withDirectory none).launch tree [.directory directory] seed := by
  rw [launch_singleton]
  simp only [build, write, Write.apply, withDirectory, bind_assoc, pure_bind, map_bind]
  congr 1
  funext x
  cases outcome : x.outcome with
  | error e => simp [Loaded.map, outcome, Except.map, Except.mapError]
  | ok sum =>
    have started := start_withDirectory { d with book := x.book } directory seed
    simp only [withDirectory] at started
    simp [Loaded.map, outcome, Except.map, Except.mapError, started]

theorem book_of_configured {s : Session}
    (built : ((d.withDirectory (some directory)).build tree seed).value = .ok s) :
    s.book.current = d.book.enter ((Write.directory directory).definitions tree) := by
  have loaded := (d.book.enters_loadDirectory tree directory).book
  simp only [build, withDirectory, Logged.value_bind] at built
  split at built
  next => cases built
  next =>
    cases built
    exact loaded

end

/-- To configure a directory of rules is to import it last, over whatever has been imported before.
Only where it fails the failure is told with the directory. -/
theorem configured_directory_is_last_import (tree : FileTree) (d : Draft) (directory : Path)
    (seed : Target) :
    let configured := (d.withDirectory (some directory)).build tree seed
    let explicit := (d.withDirectory none).launch tree [.directory directory] seed
    (configured.value.isOk ↔ explicit.value.isOk) ∧
    (∀ s t, configured.value = .ok s → explicit.value = .ok t →
      s.book = t.book ∧ s.constraint = t.constraint ∧ s.history = t.history) ∧
    (∀ s, configured.value = .ok s → ∀ literal, s.book.current.ruleSet? literal =
      ((((Write.directory directory).definitions tree).filter (·.literal == literal)).getLast?.map
        Definition.ruleSet).or (d.book.ruleSet? literal)) ∧
    (∀ e f, configured.value = .error e → explicit.value = .error f →
      e.root = f.root ∧
      e.message = s!"loading configured rules from {directory.display}: {f.message}") ∧
    configured.records = explicit.records := by
  intro configured explicit
  have same : configured = _ <$> explicit := d.build_configured tree directory seed
  refine ⟨?_, ?_, fun s built literal => ?_, ?_, ?_⟩
  · rw [same, Logged.value_map]
    cases explicit.value <;> exact Iff.rfl
  · intro s t built launched
    rw [same, Logged.value_map, launched] at built
    cases built
    exact ⟨rfl, rfl, rfl⟩
  · rw [d.book_of_configured tree directory seed built]
    exact d.book.ruleSet?_enter ..
  · intro e f failed fault
    rw [same, Logged.value_map, fault] at failed
    cases failed
    exact ⟨rfl, rfl⟩
  · rw [same, Logged.records_map]

/-- A tree with one rule file, which is no text. -/
def spoiledRules : FileTree where
  working := .directory [(Text.encode "r", .directory [(Text.encode "symbols",
    .directory [(Text.encode "a.json", .file (.ok [0xFF]))])])]

theorem loadDirectory_spoiledRules (b : RuleBook) :
    (b.loadDirectory spoiledRules (.ofString "r")).value =
      ⟨b, .error (.unreadable (.ofString "r/symbols/a.json") .invalidData)⟩ := by
  have listed : spoiledRules.ruleFiles (Kind.symbol.directoryUnder (.ofString "r")) =
      .ok [Text.encode "a.json"] :=
    congrArg Except.ok (List.mergeSort_singleton _)
  have there : spoiledRules.isDirectory (Kind.symbol.directoryUnder (.ofString "r")) := rfl
  unfold RuleBook.loadDirectory RuleBook.loadKind
  simp only [there, if_true, listed]
  rfl

/-- A directory that is missing lets the session start and one that is spoiled does not, be it
configured or imported. -/
theorem spoiledRules_configured_or_imported :
    (∃ s t,
      ((withDirectory {} (some (.ofString "q"))).build spoiledRules .root).value = .ok s ∧
      ((withDirectory {} none).launch spoiledRules [.directory (.ofString "q")] .root).value = .ok t ∧
      s.book = t.book ∧ s.constraint = t.constraint ∧ s.history = t.history) ∧
    ∃ e f,
      ((withDirectory {} (some (.ofString "r"))).build spoiledRules .root).value = .error e ∧
      ((withDirectory {} none).launch spoiledRules [.directory (.ofString "r")] .root).value =
        .error f ∧
      e.root = f.root ∧ e.message = "loading configured rules from r: " ++ f.message := by
  obtain ⟨-, started, -⟩ :=
    configured_directory_is_last_import spoiledRules {} (.ofString "q") .root
  obtain ⟨-, -, -, failed, -⟩ :=
    configured_directory_is_last_import spoiledRules {} (.ofString "r") .root
  have configured : ((withDirectory {} (some (.ofString "r"))).build spoiledRules .root).value =
      .error (.configured (.ofString "r")
        (.unreadable (.ofString "r/symbols/a.json") .invalidData)) := by
    simp only [build, withDirectory, Logged.value_bind, loadDirectory_spoiledRules]
    rfl
  have imported :
      ((withDirectory {} none).launch spoiledRules [.directory (.ofString "r")] .root).value =
        .error (.unreadable (.ofString "r/symbols/a.json") .invalidData) := by
    rw [launch_singleton]
    simp only [write, Write.apply, Logged.value_bind, loadDirectory_spoiledRules]
    rfl
  obtain ⟨root, message⟩ := failed _ _ configured imported
  have told : "loading configured rules from " ++ (Path.ofString "r").display ++ ": " =
      "loading configured rules from r: " := by decide
  exact ⟨⟨_, _, rfl, rfl, started _ _ rfl rfl⟩, _, _, configured, imported, root,
    message.trans (congrArg (· ++ _) told)⟩

end Draft

end ScreenReader
