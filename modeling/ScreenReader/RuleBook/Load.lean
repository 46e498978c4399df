import ScreenReader.Declaration.Json
import ScreenReader.FileTree
import ScreenReader.RuleBook

namespace ScreenReader

namespace Kind

def name : Kind → String
  | .symbol => "symbol"
  | .function => "function"

/-- Where a directory of rules keeps the rule files of this kind. -/
def directoryName : Kind → String
  | .symbol => "symbols"
  | .function => "functions"

def directoryUnder (kind : Kind) (directory : Path) : Path :=
  directory.join (Text.encode kind.directoryName)

end Kind

/-- Why rules could not be loaded, and in the course of what. -/
inductive LoadError where
  | malformed (kind : Kind) (e : Json.ReadError)
  | unreadable (path : Path) (e : FileError)
  | unlisted (path : Path) (e : FileError)
  | inFile (path : Path) (e : LoadError)
  | configured (path : Path) (e : LoadError)
  deriving DecidableEq, Repr

def LoadError.message : LoadError → String
  | .malformed kind e => s!"parsing {kind.name} rules: {e.message}"
  | .unreadable path e => s!"reading rule file {path.display}: {e.message}"
  | .unlisted path e => s!"listing {path.display}: {e.message}"
  | .inFile path e => s!"in rule file {path.display}: {e.message}"
  | .configured path e => s!"loading configured rules from {path.display}: {e.message}"

/-- The root of a failure: a text that cannot be read, or a file. -/
def LoadError.root : LoadError → Json.ReadError ⊕ FileError
  | .malformed _ e => .inl e
  | .unreadable _ e | .unlisted _ e => .inr e
  | .inFile _ e => e.root
  | .configured _ e => e.root

/-- What a load came to: the book with all that was imported, and a result or what stopped it. -/
@[ext]
structure Loaded (α : Type) where
  book : RuleBook
  outcome : Except LoadError α

namespace Loaded

variable {α β : Type}

def map (f : α → β) (x : Loaded α) : Loaded β := ⟨x.book, x.outcome.map f⟩

/-- Goes on with the book and the result of a load that did not fail. -/
def andThen (x : Loaded α) (f : RuleBook → α → Logged (Loaded β)) : Logged (Loaded β) :=
  match x.outcome with
  | .ok a => f x.book a
  | .error e => pure ⟨x.book, .error e⟩

end Loaded

structure Summary where
  files : Nat := 0
  declarations : Nat := 0
  deriving DecidableEq, Repr

namespace RuleBook

/-- Imports all declarations of a text, or none if it cannot be read to its end. -/
def loadText (b : RuleBook) (kind : Kind) (text : String) : Logged (Loaded Nat) := do
  match Declaration.listOfJson kind text with
  | .error e => pure ⟨b, .error (.malformed kind e)⟩
  | .ok ds => pure ⟨← b.declareAll ds, .ok ds.length⟩

def loadContent (b : RuleBook) (kind : Kind) (path : Path) (content : Text.Bytes) :
    Logged (Loaded Nat) := do
  match Text.decode? content with
  | none => pure ⟨b, .error (.unreadable path .invalidData)⟩
  | some text =>
    let x ← b.loadText kind text
    match x.outcome with
    | .error e => pure ⟨x.book, .error (.inFile path e)⟩
    | .ok n =>
      log .debug s!"loaded {n} descriptors from {path.display}"
      pure x

def loadFile (b : RuleBook) (tree : FileTree) (kind : Kind) (path : Path) :
    Logged (Loaded Nat) :=
  match tree.content path with
  | .error e => pure ⟨b, .error (.unreadable path e)⟩
  | .ok content => b.loadContent kind path content

/-- Loads files of one directory one after the other, and counts on from `sum`. -/
def loadFiles (b : RuleBook) (tree : FileTree) (kind : Kind) (directory : Path) (sum : Summary) :
    List Text.Bytes → Logged (Loaded Summary)
  | [] => pure ⟨b, .ok sum⟩
  | name :: names => do
    let x ← b.loadFile tree kind (directory.join name)
    x.andThen fun b n =>
      b.loadFiles tree kind directory ⟨sum.files + 1, sum.declarations + n⟩ names

def loadKind (b : RuleBook) (tree : FileTree) (directory : Path) (kind : Kind) (sum : Summary) :
    Logged (Loaded Summary) := do
  let place := kind.directoryUnder directory
  if tree.isDirectory place then
    match tree.ruleFiles place with
    | .error e => pure ⟨b, .error (.unlisted place e)⟩
    | .ok names => b.loadFiles tree kind place sum names
  else
    log .debug s!"no {kind.directoryName} directory under {directory.display}"
    pure ⟨b, .ok sum⟩

/-- Loads the rule files of a directory, symbols before functions, up to the first failure. -/
def loadDirectory (b : RuleBook) (tree : FileTree) (directory : Path) :
    Logged (Loaded Summary) := do
  let symbols ← b.loadKind tree directory .symbol {}
  let functions ← symbols.andThen fun b sum => b.loadKind tree directory .function sum
  functions.andThen fun b sum => do
    log .debug
      s!"loaded {sum.declarations} descriptors from {sum.files} files, {b.size} keys in store"
    pure ⟨b, .ok sum⟩

end RuleBook

end ScreenReader
