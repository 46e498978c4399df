import ScreenReader.RuleBook.Load

namespace ScreenReader

/-- A way of adding rules to a book. -/
inductive Write where
  | define (name literal : String) (mappings : Mappings)
  | declare {kind : Kind} (declaration : Declaration kind)
  | text (kind : Kind) (json : String)
  | file (kind : Kind) (path : Path)
  | directory (path : Path)

inductive Receipt where
  | done
  | declarations (count : Nat)
  | directory (sum : Summary)
  deriving DecidableEq, Repr

/-- What a write answers: the number of texts with rules afterwards, and how it went. -/
structure WriteAnswer where
  size : Nat
  outcome : Except LoadError Receipt

def Write.apply (tree : FileTree) (b : RuleBook) : Write → Logged (Loaded Receipt)
  | define name literal mappings => do
    pure ⟨← b.define name literal mappings, .ok .done⟩
  | declare declaration => do
    pure ⟨← b.declare declaration, .ok .done⟩
  | text kind json => do
    pure ((← b.loadText kind json).map .declarations)
  | file kind path => do
    pure ((← b.loadFile tree kind path).map .declarations)
  | directory path => do
    pure ((← b.loadDirectory tree path).map .directory)

namespace RuleBook

/-- Writes one after the other, also behind one that fails. -/
def writeAll (tree : FileTree) (b : RuleBook) : List Write → Logged (RuleBook × List WriteAnswer)
  | [] => pure (b, [])
  | w :: ws => do
    let x ← w.apply tree b
    let (last, answers) ← x.book.writeAll tree ws
    pure (last, ⟨x.book.size, x.outcome⟩ :: answers)

end RuleBook

end ScreenReader
