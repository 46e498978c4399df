import Mathlib.Algebra.GroupWithZero.Nat
import ScreenReader.Proofs.FileTree
import ScreenReader.RuleBook.Load

namespace ScreenReader

/-- The rule file in which a load failed. -/
def LoadError.file? : LoadError → Option Path
  | .malformed .. | .unlisted .. => none
  | .unreadable path _ | .inFile path _ => some path
  | .configured _ e => e.file?

namespace FileTree

/-- All rules of the file at a path, or why they cannot be read. -/
def readRules (tree : FileTree) (kind : Kind) (path : Path) :
    Except LoadError (List (Declaration kind)) :=
  match tree.content path with
  | .error e => .error (.unreadable path e)
  | .ok content =>
    match Text.decode? content with
    | none => .error (.unreadable path .invalidData)
    | some text =>
      (Declaration.listOfJson kind text).mapError fun e => .inFile path (.malformed kind e)

/-- Why the directory at a path cannot be listed, if there is one. -/
def listingFault? (tree : FileTree) (p : Path) : Option FileError :=
  match tree.resolve p with
  | .ok (.directory _ faults) => faults.listing
  | _ => none

variable {tree : FileTree} {kind : Kind} {path : Path}

theorem file?_of_readRules {e : LoadError} (failed : tree.readRules kind path = .error e) :
    e.file? = some path := by
  unfold readRules at failed
  split at failed
  · cases failed
    rfl
  · split at failed
    · cases failed
      rfl
    next text _ =>
      cases parsed : Declaration.listOfJson kind text with
      | error parse_error =>
        rw [parsed] at failed
        cases failed
        rfl
      | ok ds => rw [parsed] at failed; cases failed

theorem isFile_of_content {content : Text.Bytes} (found : tree.content path = .ok content) :
    tree.isFile path := by
  unfold FileTree.content at found
  cases reached : tree.resolve path with
  | error e => rw [reached] at found; cases found
  | ok node =>
    rw [reached] at found
    cases node with
    | file content => exact isFile_eq_true_iff.mpr ⟨content, reached⟩
    | directory | broken => cases found

theorem isFile_of_readRules {ds : List (Declaration kind)}
    (read : tree.readRules kind path = .ok ds) : tree.isFile path := by
  unfold readRules at read
  split at read
  · cases read
  next found => exact isFile_of_content found

end FileTree

/-- A rule file in the directory of its kind. -/
structure RuleFile where
  kind : Kind
  name : Text.Bytes
  deriving DecidableEq

namespace RuleFile

section

variable (tree : FileTree) (directory : Path) (f : RuleFile)

def path : Path :=
  (f.kind.directoryUnder directory).join f.name

/-- Whether the path of the file can be followed. -/
def isInReach : Bool :=
  tree.isFile (f.path directory)

def fault? : Option LoadError :=
  match tree.readRules f.kind (f.path directory) with
  | .error e => some e
  | .ok _ => none

def count : Nat :=
  match tree.readRules f.kind (f.path directory) with
  | .error _ => 0
  | .ok ds => ds.length

end

/-- Symbols before functions, and names of one kind in the order of their bytes. -/
def Before (f g : RuleFile) : Prop :=
  f.kind = .symbol ∧ g.kind = .function ∨ f.kind = g.kind ∧ f.name < g.name

variable {tree : FileTree} {directory : Path} {f : RuleFile}

theorem fault?_eq_some_iff {e : LoadError} :
    f.fault? tree directory = some e ↔ tree.readRules f.kind (f.path directory) = .error e := by
  unfold fault?
  cases tree.readRules f.kind (f.path directory) <;> simp

theorem fault?_eq_none_iff :
    f.fault? tree directory = none ↔ ∃ ds, tree.readRules f.kind (f.path directory) = .ok ds := by
  unfold fault?
  cases tree.readRules f.kind (f.path directory) <;> simp

theorem isInReach_of_fault? (fine : f.fault? tree directory = none) :
    f.isInReach tree directory := by
  obtain ⟨ds, read⟩ := fault?_eq_none_iff.mp fine
  exact FileTree.isFile_of_readRules read

end RuleFile

/-- What a load of a directory does in turn: it lists the files of a kind, or loads one of them. -/
inductive Turn where
  | listing (kind : Kind)
  | file (f : RuleFile)

namespace Turn

def file? : Turn → Option RuleFile
  | .listing _ => none
  | .file f => some f

section

variable (tree : FileTree) (directory : Path)

def fault? : Turn → Option LoadError
  | .listing kind =>
    (tree.listingFault? (kind.directoryUnder directory)).map
      (.unlisted (kind.directoryUnder directory))
  | .file f => f.fault? tree directory

def fails (t : Turn) : Bool :=
  (t.fault? tree directory).isSome

def isInReach : Turn → Bool
  | .listing _ => true
  | .file f => f.isInReach tree directory

/-- What a turn adds to the summary. -/
def sum : Turn → Summary
  | .listing _ => {}
  | .file f => ⟨1, f.count tree directory⟩

def load (b : RuleBook) : Turn → RuleBook
  | .listing _ => b
  | .file f => (b.loadFile tree f.kind (f.path directory)).value.book

end

variable {tree : FileTree} {directory : Path} {t : Turn} {e : LoadError}

theorem fails_iff : t.fails tree directory ↔ ∃ e, t.fault? tree directory = some e :=
  Option.isSome_iff_exists

theorem fails_eq_false_iff : t.fails tree directory = false ↔ t.fault? tree directory = none :=
  Option.isSome_eq_false_iff.trans Option.isNone_iff_eq_none

theorem isInReach_of_fault? (fine : t.fault? tree directory = none) :
    t.isInReach tree directory := by
  cases t with
  | listing kind => rfl
  | file f => exact RuleFile.isInReach_of_fault? fine

theorem fails_of_isInReach (out : t.isInReach tree directory = false) : t.fails tree directory := by
  by_contra fine
  have in_reach := isInReach_of_fault? (fails_eq_false_iff.mp (Bool.eq_false_iff.mpr fine))
  rw [out] at in_reach
  cases in_reach

/-- A failure to load a file names the file, and one to list a directory names none. -/
theorem file?_of_fault? (failed : t.fault? tree directory = some e) :
    e.file? = t.file?.map (RuleFile.path directory) := by
  cases t with
  | listing kind =>
    obtain ⟨reason, -, rfl⟩ := Option.map_eq_some_iff.mp failed
    rfl
  | file f => exact FileTree.file?_of_readRules (RuleFile.fault?_eq_some_iff.mp failed)

theorem map_file_filterMap (turns : List Turn) :
    (turns.filterMap file?).map file = turns.filter fun t => t.file?.isSome := by
  induction turns with
  | nil => rfl
  | cons t turns ih =>
    cases t with
    | listing kind => exact ih
    | file f => exact congrArg (Turn.file f :: ·) ih

theorem find?_filter_fails {turns : List Turn} {keep : Turn → Bool}
    (first : turns.find? (fails tree directory) = some t) (kept : keep t) :
    (turns.filter keep).find? (fails tree directory) = some t := by
  obtain ⟨failing, before, after, rfl, fine⟩ := List.find?_eq_some_iff_append.mp first
  refine List.find?_eq_some_iff_append.mpr
    ⟨failing, before.filter keep, after.filter keep, ?_, fun u earlier => ?_⟩
  · rw [List.filter_append, List.filter_cons_of_pos kept]
  · exact fine u (List.mem_filter.mp earlier).1

end Turn

namespace FileTree

section

variable (tree : FileTree) (directory : Path)

/-- The rule files of one kind, whether or not their paths can be followed. -/
def ruleFilesOf (kind : Kind) : List RuleFile :=
  match tree.resolve (kind.directoryUnder directory) with
  | .ok node => node.ruleFiles.map fun name => ⟨kind, name⟩
  | .error _ => []

def ruleFilesUnder : List RuleFile :=
  tree.ruleFilesOf directory .symbol ++ tree.ruleFilesOf directory .function

def turnsOf (kind : Kind) : List Turn :=
  .listing kind :: (tree.ruleFilesOf directory kind).map .file

def turnsUnder : List Turn :=
  tree.turnsOf directory .symbol ++ tree.turnsOf directory .function

end

variable {tree : FileTree} {directory : Path} {kind : Kind} {f : RuleFile}

theorem mem_ruleFilesOf :
    f ∈ tree.ruleFilesOf directory kind ↔ f.kind = kind ∧
      ∃ node content, tree.resolve (kind.directoryUnder directory) = .ok node ∧
        (f.name, .file content) ∈ node.entries ∧
        ∃ stem, stem ≠ [] ∧ f.name = stem ++ Text.encode ".json" := by
  unfold ruleFilesOf
  cases tree.resolve (kind.directoryUnder directory) with
  | error e => simp
  | ok node =>
    simp only [List.mem_map, ← isRuleFileName_iff]
    constructor
    · rintro ⟨name, listed, rfl⟩
      obtain ⟨⟨content, entry⟩, rule_file⟩ := FileNode.mem_ruleFiles.mp listed
      exact ⟨rfl, node, content, rfl, entry, rule_file⟩
    · rintro ⟨rfl, _, content, same, entry, rule_file⟩
      cases same
      exact ⟨f.name, FileNode.mem_ruleFiles.mpr ⟨⟨content, entry⟩, rule_file⟩, rfl⟩

theorem mem_ruleFilesUnder :
    f ∈ tree.ruleFilesUnder directory ↔
      ∃ node content, tree.resolve (f.kind.directoryUnder directory) = .ok node ∧
        (f.name, .file content) ∈ node.entries ∧
        ∃ stem, stem ≠ [] ∧ f.name = stem ++ Text.encode ".json" := by
  unfold ruleFilesUnder
  rw [List.mem_append, mem_ruleFilesOf, mem_ruleFilesOf]
  cases f.kind <;> simp

theorem filterMap_file?_turnsUnder :
    (tree.turnsUnder directory).filterMap Turn.file? = tree.ruleFilesUnder directory := by
  have files (kind : Kind) :
      (tree.turnsOf directory kind).filterMap Turn.file? = tree.ruleFilesOf directory kind := by
    show ((tree.ruleFilesOf directory kind).map Turn.file).filterMap Turn.file? = _
    rw [List.filterMap_map]
    exact List.filterMap_some
  unfold turnsUnder ruleFilesUnder
  rw [List.filterMap_append, files, files]

theorem turnsOf_of_not_isDirectory (missing : ¬tree.isDirectory (kind.directoryUnder directory)) :
    tree.turnsOf directory kind = [.listing kind] := by
  have none_there : tree.ruleFilesOf directory kind = [] := by
    refine List.eq_nil_iff_forall_not_mem.mpr fun f listed => missing ?_
    obtain ⟨-, node, content, reached, entry, -⟩ := mem_ruleFilesOf.mp listed
    obtain ⟨entries, faults, rfl⟩ := FileNode.exists_eq_directory entry
    exact isDirectory_eq_true_iff.mpr ⟨entries, faults, reached⟩
  rw [turnsOf, none_there]
  rfl

theorem listingFault?_of_not_isDirectory {p : Path} (missing : ¬tree.isDirectory p) :
    tree.listingFault? p = none := by
  unfold listingFault?
  split
  next entries faults reached =>
    exact absurd (isDirectory_eq_true_iff.mpr ⟨entries, faults, reached⟩) missing
  next => rfl

theorem listingFault?_join {p : Path} {name : Text.Bytes} {entries : List (Text.Bytes × FileNode)}
    {faults : DirectoryFaults} (reached : tree.resolve p = .ok (.directory entries faults))
    (named : IsEntryName name)
    (fine : ∀ others found, (FileNode.directory entries faults).child? name =
      some (.directory others found) → found.listing = none) :
    tree.listingFault? (p.join name) = none := by
  unfold listingFault?
  split
  next others found there =>
    exact fine others found ((resolve_join_eq_ok_iff reached named).mp there).2.2
  next => rfl

theorem WellFormed.ruleFilesOf_ascending (proper : tree.WellFormed) :
    (tree.ruleFilesOf directory kind).Pairwise RuleFile.Before := by
  unfold ruleFilesOf
  cases reached : tree.resolve (kind.directoryUnder directory) with
  | error e => exact List.Pairwise.nil
  | ok node =>
    refine List.pairwise_map.mpr ((proper.resolve reached).ruleFiles_ascending.imp ?_)
    exact fun less => .inr ⟨rfl, less⟩

theorem WellFormed.ruleFilesUnder_ascending (proper : tree.WellFormed) :
    (tree.ruleFilesUnder directory).Pairwise RuleFile.Before := by
  refine List.pairwise_append.mpr
    ⟨proper.ruleFilesOf_ascending, proper.ruleFilesOf_ascending, fun f symbol g function => ?_⟩
  exact .inl ⟨(mem_ruleFilesOf.mp symbol).1, (mem_ruleFilesOf.mp function).1⟩

/-- A file is out of reach by the length of its path, or because its directory cannot be passed. -/
theorem WellFormed.isInReach_iff (proper : tree.WellFormed)
    (listed : f ∈ tree.ruleFilesUnder directory) {entries : List (Text.Bytes × FileNode)}
    {faults : DirectoryFaults}
    (reached : tree.resolve (f.kind.directoryUnder directory) = .ok (.directory entries faults)) :
    f.isInReach tree directory ↔
      (f.path directory).isTooLong = false ∧ faults.passage = none := by
  obtain ⟨node, content, there, entry, -⟩ := mem_ruleFilesUnder.mp listed
  obtain rfl : FileNode.directory entries faults = node := Except.ok.inj (reached.symm.trans there)
  refine (proper.isFile_join_iff reached entry).trans ?_
  simp [FileNode.isFile, RuleFile.path]

end FileTree

namespace Summary

instance : Add Summary where
  add s t := ⟨s.files + t.files, s.declarations + t.declarations⟩

theorem zero_add (s : Summary) : {} + s = s := by
  show Summary.mk (0 + s.files) (0 + s.declarations) = s
  rw [Nat.zero_add, Nat.zero_add]

theorem add_assoc (s t u : Summary) : s + t + u = s + (t + u) := by
  show Summary.mk (s.files + t.files + u.files) (s.declarations + t.declarations + u.declarations) =
    Summary.mk (s.files + (t.files + u.files)) (s.declarations + (t.declarations + u.declarations))
  rw [Nat.add_assoc, Nat.add_assoc]

end Summary

namespace Loaded

theorem map_zero_add (x : Loaded Summary) : x.map (({} : Summary) + ·) = x := by
  obtain ⟨b, _ | s⟩ := x
  · rfl
  · simp only [map, Except.map, Summary.zero_add]

theorem map_add_map_add (x : Loaded Summary) (s t : Summary) :
    (x.map (t + ·)).map (s + ·) = x.map (s + t + ·) := by
  obtain ⟨b, _ | u⟩ := x
  · rfl
  · simp only [map, Except.map, Summary.add_assoc]

end Loaded

namespace RuleBook

/-- Takes in all that was read, or nothing. -/
def importAll {kind : Kind} (b : RuleBook) : Except LoadError (List (Declaration kind)) → Loaded Nat
  | .error e => ⟨b, .error e⟩
  | .ok ds => ⟨(b.declareAll ds).value, .ok ds.length⟩

theorem book_importAll_of_error {kind : Kind} {b : RuleBook}
    {read : Except LoadError (List (Declaration kind))} {e : LoadError}
    (failed : (b.importAll read).outcome = .error e) : (b.importAll read).book = b := by
  cases read with
  | error e => rfl
  | ok ds => cases failed

theorem value_loadText (b : RuleBook) (kind : Kind) (text : String) :
    (b.loadText kind text).value =
      b.importAll ((Declaration.listOfJson kind text).mapError (.malformed kind)) := by
  unfold loadText
  cases Declaration.listOfJson kind text <;> rfl

theorem value_loadFile (b : RuleBook) (tree : FileTree) (kind : Kind) (path : Path) :
    (b.loadFile tree kind path).value = b.importAll (tree.readRules kind path) := by
  unfold loadFile FileTree.readRules
  cases tree.content path with
  | error e => rfl
  | ok content =>
    simp only [loadContent]
    cases Text.decode? content with
    | none => rfl
    | some text =>
      simp only [Logged.value_bind, value_loadText]
      cases Declaration.listOfJson kind text <;> rfl

section

variable (b : RuleBook) (tree : FileTree) (directory : Path)

/-- The book after one load for each file, whatever becomes of it. -/
def loadEach (files : List RuleFile) : RuleBook :=
  files.foldl (fun b f => (b.loadFile tree f.kind (f.path directory)).value.book) b

/-- What a row of turns comes to if the first failure ends it. -/
def loadedInTurn (turns : List Turn) : Loaded Summary :=
  match turns.findSome? (Turn.fault? tree directory) with
  | none =>
    let files := turns.filterMap Turn.file?
    ⟨b.loadEach tree directory files,
      .ok ⟨files.length, (files.map (RuleFile.count tree directory)).sum⟩⟩
  | some e =>
    let done := turns.takeWhile fun t => !t.fails tree directory
    ⟨b.loadEach tree directory (done.filterMap Turn.file?), .error e⟩

end

variable {b : RuleBook} {tree : FileTree} {directory : Path} {t : Turn} {turns : List Turn}
  {f : RuleFile} {e : LoadError}

theorem loadedInTurn_cons_of_fault (failed : t.fault? tree directory = some e) :
    b.loadedInTurn tree directory (t :: turns) = ⟨b, .error e⟩ := by
  have failing : t.fails tree directory := Turn.fails_iff.mpr ⟨e, failed⟩
  unfold loadedInTurn
  rw [List.findSome?_cons, failed, List.takeWhile_cons_of_neg (by simp [failing])]
  rfl

theorem loadedInTurn_cons (fine : t.fault? tree directory = none) :
    b.loadedInTurn tree directory (t :: turns) =
      ((t.load tree directory b).loadedInTurn tree directory turns).map
        (t.sum tree directory + ·) := by
  have passed : t.fails tree directory = false := Turn.fails_eq_false_iff.mpr fine
  unfold loadedInTurn
  rw [List.findSome?_cons, fine, List.takeWhile_cons_of_pos (by simp [passed])]
  cases turns.findSome? (Turn.fault? tree directory) with
  | none =>
    cases t with
    | listing kind => exact (Loaded.map_zero_add _).symm
    | file f =>
      simp only [List.filterMap_cons, Turn.file?, List.length_cons, List.map_cons, List.sum_cons,
        Loaded.map, Except.map]
      rw [Nat.add_comm (List.length _)]
      rfl
  | some e =>
    cases t with
    | listing kind => rfl
    | file f => rfl

theorem loadedInTurn_append {others : List Turn} :
    b.loadedInTurn tree directory (turns ++ others) =
      ((b.loadedInTurn tree directory turns).andThen fun b sum =>
        pure ((b.loadedInTurn tree directory others).map (sum + ·))).value := by
  induction turns generalizing b with
  | nil => exact (Loaded.map_zero_add _).symm
  | cons t turns ih =>
    rw [List.cons_append]
    cases fault : t.fault? tree directory with
    | some e =>
      rw [loadedInTurn_cons_of_fault fault, loadedInTurn_cons_of_fault fault]
      rfl
    | none =>
      rw [loadedInTurn_cons fault, loadedInTurn_cons fault, ih]
      obtain ⟨b, _ | sum⟩ := (t.load tree directory b).loadedInTurn tree directory turns
      · rfl
      · exact Loaded.map_add_map_add ..

theorem value_loadFiles (kind : Kind) (sum : Summary) (names : List Text.Bytes) :
    (b.loadFiles tree kind (kind.directoryUnder directory) sum names).value =
      (b.loadedInTurn tree directory (names.map fun name => .file ⟨kind, name⟩)).map (sum + ·) := by
  induction names generalizing b sum with
  | nil => rfl
  | cons name names ih =>
    simp only [loadFiles, Logged.value_bind, value_loadFile, List.map_cons]
    cases read : tree.readRules kind ((kind.directoryUnder directory).join name) with
    | error e =>
      have fault : (Turn.file ⟨kind, name⟩).fault? tree directory = some e :=
        RuleFile.fault?_eq_some_iff.mpr read
      rw [loadedInTurn_cons_of_fault fault]
      rfl
    | ok ds =>
      have fine : (Turn.file ⟨kind, name⟩).fault? tree directory = none :=
        RuleFile.fault?_eq_none_iff.mpr ⟨ds, read⟩
      have book : (Turn.file ⟨kind, name⟩).load tree directory b = (b.declareAll ds).value := by
        simp only [Turn.load, RuleFile.path, value_loadFile, read, importAll]
      have added : (Turn.file ⟨kind, name⟩).sum tree directory = ⟨1, ds.length⟩ := by
        simp only [Turn.sum, RuleFile.count, RuleFile.path, read]
      rw [loadedInTurn_cons fine, Loaded.map_add_map_add, book, added]
      exact ih _

theorem value_loadKind (proper : tree.WellFormed) (kind : Kind) (sum : Summary) :
    (b.loadKind tree directory kind sum).value =
      (b.loadedInTurn tree directory
        ((tree.turnsOf directory kind).filter (Turn.isInReach tree directory))).map (sum + ·) := by
  unfold loadKind
  by_cases there : tree.isDirectory (kind.directoryUnder directory)
  · obtain ⟨entries, faults, reached⟩ := FileTree.isDirectory_eq_true_iff.mp there
    have fault : (Turn.listing kind).fault? tree directory =
        faults.listing.map (.unlisted (kind.directoryUnder directory)) := by
      simp only [Turn.fault?, FileTree.listingFault?, reached]
    cases listing : faults.listing with
    | some e =>
      rw [listing] at fault
      rw [FileTree.turnsOf, List.filter_cons_of_pos rfl, loadedInTurn_cons_of_fault fault]
      simp only [there, if_true, FileTree.ruleFiles_of_unlistable reached listing]
      rfl
    | none =>
      rw [listing] at fault
      have files : (tree.ruleFilesOf directory kind).map Turn.file =
          (FileNode.directory entries faults).ruleFiles.map fun name => .file ⟨kind, name⟩ := by
        simp only [FileTree.ruleFilesOf, reached, List.map_map]
        rfl
      rw [FileTree.turnsOf, List.filter_cons_of_pos rfl, loadedInTurn_cons fault, files,
        List.filter_map]
      simp only [there, if_true, proper.ruleFiles_eq reached listing, value_loadFiles]
      exact congrArg (Loaded.map (sum + ·)) (Loaded.map_zero_add _).symm
  · have fine : (Turn.listing kind).fault? tree directory = none := by
      rw [Turn.fault?, FileTree.listingFault?_of_not_isDirectory there, Option.map_none]
    rw [if_neg there, FileTree.turnsOf_of_not_isDirectory there, List.filter_cons_of_pos rfl,
      loadedInTurn_cons fine]
    rfl

theorem value_loadDirectory (proper : tree.WellFormed) :
    (b.loadDirectory tree directory).value =
      b.loadedInTurn tree directory
        ((tree.turnsUnder directory).filter (Turn.isInReach tree directory)) := by
  unfold loadDirectory FileTree.turnsUnder
  rw [List.filter_append, loadedInTurn_append]
  simp only [Logged.value_bind, value_loadKind proper, Loaded.map_zero_add]
  obtain ⟨b, _ | sum⟩ := b.loadedInTurn tree directory
    ((tree.turnsOf directory .symbol).filter (Turn.isInReach tree directory))
  · rfl
  · simp only [Loaded.andThen, value_loadKind proper]
    obtain ⟨b, _ | total⟩ := (b.loadedInTurn tree directory
      ((tree.turnsOf directory .function).filter (Turn.isInReach tree directory))).map (sum + ·)
    · rfl
    · rfl

theorem exists_fault_of_loadedInTurn
    (failed : (b.loadedInTurn tree directory turns).outcome = .error e) :
    ∃ t ∈ turns, t.fault? tree directory = some e := by
  unfold loadedInTurn at failed
  cases first : turns.findSome? (Turn.fault? tree directory) with
  | none => rw [first] at failed; cases failed
  | some fault =>
    rw [first] at failed
    cases failed
    exact List.exists_of_findSome?_eq_some first

theorem outcome_loadedInTurn_of_find?
    (first : turns.find? (Turn.fails tree directory) = some t)
    (fault : t.fault? tree directory = some e) :
    (b.loadedInTurn tree directory turns).outcome = .error e := by
  obtain ⟨-, before, after, rfl, fine⟩ := List.find?_eq_some_iff_append.mp first
  have none_before : before.findSome? (Turn.fault? tree directory) = none :=
    List.findSome?_eq_none_iff.mpr fun u earlier =>
      Turn.fails_eq_false_iff.mp (by simpa using fine u earlier)
  simp [loadedInTurn, List.findSome?_append, none_before, fault]

/-- The files in reach, with the listings, come to the same as all files exactly if no listing and
no file out of reach is the first to fail. -/
theorem loadedInTurn_filter_eq_iff :
    b.loadedInTurn tree directory (turns.filter (Turn.isInReach tree directory)) =
        b.loadedInTurn tree directory ((turns.filterMap Turn.file?).map .file) ↔
      ∀ t, turns.find? (Turn.fails tree directory) = some t →
        ∃ f, t = .file f ∧ f.isInReach tree directory := by
  rw [Turn.map_file_filterMap]
  constructor
  · intro same t first
    obtain ⟨e, fault⟩ := Turn.fails_iff.mp (List.find?_some first)
    -- Wherever it is kept it ends the load, and what it fails with tells the file, if it is one.
    have ends (keep : Turn → Bool) (kept : keep t) :
        (b.loadedInTurn tree directory (turns.filter keep)).outcome = .error e :=
      outcome_loadedInTurn_of_find? (Turn.find?_filter_fails first kept) fault
    have told := Turn.file?_of_fault? fault
    cases t with
    | listing kind =>
      have failed := ends (Turn.isInReach tree directory) rfl
      rw [same] at failed
      obtain ⟨u, kept, same_fault⟩ := exists_fault_of_loadedInTurn failed
      obtain ⟨f, is_file⟩ := Option.isSome_iff_exists.mp (List.mem_filter.mp kept).2
      rw [Turn.file?_of_fault? same_fault, is_file] at told
      cases told
    | file f =>
      have failed := ends (fun t => t.file?.isSome) rfl
      rw [← same] at failed
      obtain ⟨u, kept, same_fault⟩ := exists_fault_of_loadedInTurn failed
      rw [Turn.file?_of_fault? same_fault] at told
      cases u with
      | listing kind => cases told
      | file g =>
        have same_path : g.path directory = f.path directory := Option.some.inj told
        refine ⟨f, rfl, ?_⟩
        rw [RuleFile.isInReach, ← same_path]
        exact (List.mem_filter.mp kept).2
  · intro in_reach
    induction turns generalizing b with
    | nil => rfl
    | cons t turns ih =>
      cases fault : t.fault? tree directory with
      | some e =>
        have failing : t.fails tree directory := Turn.fails_iff.mpr ⟨e, fault⟩
        obtain ⟨f, rfl, reached⟩ := in_reach t (List.find?_cons_of_pos failing)
        have kept : (Turn.file f).isInReach tree directory := reached
        rw [List.filter_cons_of_pos kept, List.filter_cons_of_pos rfl,
          loadedInTurn_cons_of_fault fault, loadedInTurn_cons_of_fault fault]
      | none =>
        have passed : ¬t.fails tree directory := by simp [Turn.fails_eq_false_iff.mpr fault]
        rw [List.find?_cons_of_neg passed] at in_reach
        rw [List.filter_cons_of_pos (Turn.isInReach_of_fault? fault), loadedInTurn_cons fault,
          ih in_reach]
        cases t with
        | listing kind => exact Loaded.map_zero_add _
        | file f => exact (loadedInTurn_cons fault).symm

theorem length_path_of_mem (listed : f ∈ tree.ruleFilesUnder directory) :
    directory.bytes.length + 13 ≤ (f.path directory).bytes.length := by
  obtain ⟨-, -, -, -, stem, some_byte, name⟩ := FileTree.mem_ruleFilesUnder.mp listed
  have inner := directory.length_join (Text.encode f.kind.directoryName)
  have outer := (f.kind.directoryUnder directory).length_join f.name
  have kind : 7 ≤ (Text.encode f.kind.directoryName).length := by cases f.kind <;> decide
  have ending : (Text.encode ".json").length = 5 := by decide
  have pos := List.length_pos_of_ne_nil some_byte
  rw [name, List.length_append] at outer
  unfold RuleFile.path Kind.directoryUnder at *
  rw [name]
  omega

theorem isInReach_of_far (far : Path.limit < directory.bytes.length + 13)
    (listed : f ∈ tree.ruleFilesUnder directory) : f.isInReach tree directory = false := by
  have length := length_path_of_mem listed
  have too_long : Path.limit < (f.path directory).bytes.length := by omega
  refine Bool.eq_false_iff.mpr fun is_file => ?_
  obtain ⟨content, reached⟩ := FileTree.isFile_eq_true_iff.mp is_file
  have short := (FileTree.resolve_eq_ok_iff.mp reached).2.1
  simp [Path.isTooLong, too_long] at short

/-- Where no rule file is in reach nothing is loaded, whatever the files hold. -/
theorem value_loadDirectory_of_out_of_reach (proper : tree.WellFormed)
    (listed : ∀ kind : Kind, tree.listingFault? (kind.directoryUnder directory) = none)
    (out : ∀ f ∈ tree.ruleFilesUnder directory, f.isInReach tree directory = false) :
    (b.loadDirectory tree directory).value = ⟨b, .ok {}⟩ := by
  have left_out {kind : Kind} (below : ∀ f ∈ tree.ruleFilesOf directory kind,
      f ∈ tree.ruleFilesUnder directory) :
      (tree.turnsOf directory kind).filter (Turn.isInReach tree directory) = [.listing kind] := by
    rw [FileTree.turnsOf, List.filter_cons_of_pos rfl, List.filter_map]
    refine congrArg (Turn.listing kind :: ·) (List.map_eq_nil_iff.mpr ?_)
    exact List.filter_eq_nil_iff.mpr fun f here => by simp [Turn.isInReach, out f (below f here)]
  have fine (kind : Kind) : (Turn.listing kind).fault? tree directory = none := by
    rw [Turn.fault?, listed kind, Option.map_none]
  rw [value_loadDirectory proper, FileTree.turnsUnder, List.filter_append,
    left_out fun f => List.mem_append_left _, left_out fun f => List.mem_append_right _,
    List.singleton_append, loadedInTurn_cons (fine .symbol), loadedInTurn_cons (fine .function)]
  rfl

/-- A load of a directory lists and loads in turn what is in reach. It comes to the load of all its
rule files in turn exactly if no listing, and no file out of reach, is the first to fail. -/
theorem loadDirectory_loads_in_turn (tree : FileTree) (proper : tree.WellFormed) (b : RuleBook)
    (directory : Path) :
    let files := tree.ruleFilesUnder directory
    let turns := tree.turnsUnder directory
    (∀ f, f ∈ files ↔
      ∃ node content, tree.resolve (f.kind.directoryUnder directory) = .ok node ∧
        (f.name, .file content) ∈ node.entries ∧
        ∃ stem, stem ≠ [] ∧ f.name = stem ++ Text.encode ".json") ∧
    files.Pairwise RuleFile.Before ∧
    (∀ f ∈ files, ∀ entries faults,
      tree.resolve (f.kind.directoryUnder directory) = .ok (.directory entries faults) →
      (f.isInReach tree directory ↔
        (f.path directory).isTooLong = false ∧ faults.passage = none)) ∧
    (b.loadDirectory tree directory).value =
      b.loadedInTurn tree directory (turns.filter (Turn.isInReach tree directory)) ∧
    ((b.loadDirectory tree directory).value = b.loadedInTurn tree directory (files.map .file) ↔
      ∀ t, turns.find? (Turn.fails tree directory) = some t →
        ∃ f, t = .file f ∧ f.isInReach tree directory) ∧
    (∀ kind path, (b.loadFile tree kind path).value = b.importAll (tree.readRules kind path)) ∧
    (∀ kind path e, (b.loadFile tree kind path).value.outcome = .error e →
      (b.loadFile tree kind path).value.book = b) ∧
    (∀ kind text e, (b.loadText kind text).value.outcome = .error e →
      (b.loadText kind text).value.book = b) := by
  refine ⟨fun f => FileTree.mem_ruleFilesUnder, proper.ruleFilesUnder_ascending,
    fun f listed entries faults => proper.isInReach_iff listed, value_loadDirectory proper, ?_,
    b.value_loadFile tree, ?_, ?_⟩
  · rw [value_loadDirectory proper, ← FileTree.filterMap_file?_turnsUnder]
    exact loadedInTurn_filter_eq_iff
  · intro kind path e failed
    rw [value_loadFile] at failed ⊢
    exact book_importAll_of_error failed
  · intro kind text e failed
    rw [value_loadText] at failed ⊢
    exact book_importAll_of_error failed

/-- One rule file, which declares nothing, in a directory with the faults given. -/
def oneRuleFile (faults : DirectoryFaults) : FileTree where
  working := .directory [(Text.encode "r", .directory [(Text.encode "symbols",
    .directory [(Text.encode "a.json", .file (.ok (Text.encode "[]")))] faults)])]

theorem wellFormed_oneRuleFile (faults : DirectoryFaults) : (oneRuleFile faults).WellFormed := by
  refine ⟨.singleton (by decide) (.singleton (by decide) (.singleton (by decide) (.file _))), ?_⟩
  simp [oneRuleFile]

theorem eq_of_mem_oneRuleFile {faults : DirectoryFaults}
    (listed : f ∈ (oneRuleFile faults).ruleFilesUnder (.ofString "r")) :
    f = ⟨.symbol, Text.encode "a.json"⟩ := by
  obtain ⟨node, content, reached, entry, -⟩ := FileTree.mem_ruleFilesUnder.mp listed
  obtain ⟨kind, name⟩ := f
  cases kind with
  | symbol =>
    cases reached
    have only : name = Text.encode "a.json" := congrArg Prod.fst (List.mem_singleton.mp entry)
    rw [only]
  | function => cases reached

/-- With no faults the file is loaded. A directory that cannot be listed is told, and one that
cannot be passed is not. -/
theorem oneRuleFile_loads_in_turn :
    let listing : DirectoryFaults := { listing := some .permissionDenied }
    let passage : DirectoryFaults := { passage := some .permissionDenied }
    (oneRuleFile {}).WellFormed ∧
    (empty.loadDirectory (oneRuleFile {}) (.ofString "r")).value =
      empty.loadedInTurn (oneRuleFile {}) (.ofString "r")
        (((oneRuleFile {}).ruleFilesUnder (.ofString "r")).map .file) ∧
    (empty.loadDirectory (oneRuleFile listing) (.ofString "r")).value.outcome =
      .error (.unlisted (.ofString "r/symbols") .permissionDenied) ∧
    (empty.loadDirectory (oneRuleFile passage) (.ofString "r")).value.outcome = .ok {} := by
  intro listing passage
  obtain ⟨-, -, -, -, same_iff, -⟩ :=
    loadDirectory_loads_in_turn (oneRuleFile {}) (wellFormed_oneRuleFile {}) empty (.ofString "r")
  refine ⟨wellFormed_oneRuleFile {}, same_iff.mpr fun t first => ?_, rfl, ?_⟩
  · cases t with
    | listing kind => exact absurd (List.find?_some first) (by cases kind <;> decide)
    | file f =>
      have listed : f ∈ (oneRuleFile {}).ruleFilesUnder (.ofString "r") := by
        rw [← FileTree.filterMap_file?_turnsUnder]
        exact List.mem_filterMap.mpr ⟨_, List.mem_of_find?_eq_some first, rfl⟩
      rw [eq_of_mem_oneRuleFile listed]
      exact ⟨_, rfl, rfl⟩
  · rw [value_loadDirectory_of_out_of_reach (wellFormed_oneRuleFile passage)
      (fun kind => by cases kind <;> rfl) fun f listed => eq_of_mem_oneRuleFile listed ▸ rfl]

/-- The same file through a path on which its own is too long: it fails, and the directory does
not. -/
theorem far_rule_file_is_left_out :
    let directory : Path := ⟨(List.replicate 2042 (Text.encode "./")).flatten ++ Text.encode "r"⟩
    let f : RuleFile := ⟨.symbol, Text.encode "a.json"⟩
    (oneRuleFile {}).WellFormed ∧
    f ∈ (oneRuleFile {}).ruleFilesUnder directory ∧
    (Turn.file f).fails (oneRuleFile {}) directory ∧
    (empty.loadDirectory (oneRuleFile {}) directory).value.outcome = .ok ⟨0, 0⟩ := by
  intro directory f
  have length : directory.bytes.length = 4085 := Path.length_dots ..
  have far : Path.limit < directory.bytes.length + 13 := length ▸ by decide
  have here : (oneRuleFile {}).resolve directory =
      .ok (.directory [(Text.encode "symbols",
        .directory [(Text.encode "a.json", .file (.ok (Text.encode "[]")))])]) :=
    FileTree.resolve_dots (p := .ofString "r") rfl rfl rfl rfl 2042 (by decide)
  have short : (Kind.symbol.directoryUnder directory).isTooLong = false := by
    have joined := (directory.length_join (Text.encode "symbols")).2
    rw [length] at joined
    exact decide_eq_false (Nat.not_lt.mpr (Nat.le_trans joined (by decide)))
  have proper := wellFormed_oneRuleFile {}
  have symbols : (oneRuleFile {}).resolve (Kind.symbol.directoryUnder directory) =
      .ok (.directory [(Text.encode "a.json", .file (.ok (Text.encode "[]")))]) :=
    (proper.resolve_join_eq_ok_iff here List.mem_cons_self).mpr ⟨short, rfl, rfl⟩
  have listable (kind : Kind) :
      (oneRuleFile {}).listingFault? (kind.directoryUnder directory) = none := by
    refine FileTree.listingFault?_join here (by cases kind <;> decide) fun others faults found => ?_
    cases kind with
    | symbol =>
      cases found
      rfl
    | function => cases found
  have listed : f ∈ (oneRuleFile {}).ruleFilesUnder directory :=
    FileTree.mem_ruleFilesUnder.mpr
      ⟨_, _, symbols, List.mem_cons_self, Text.encode "a", by decide, by decide⟩
  refine ⟨proper, listed, Turn.fails_of_isInReach (isInReach_of_far far listed), ?_⟩
  rw [value_loadDirectory_of_out_of_reach proper listable fun f => isInReach_of_far far]

end RuleBook

end ScreenReader
