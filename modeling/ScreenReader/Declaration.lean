import ScreenReader.Dictionary

namespace ScreenReader

/-- What to say, by domain and then by style. -/
abbrev Mappings := Dictionary (Dictionary String)

namespace Mappings

def add (m : Mappings) (domain style text : String) : Mappings :=
  m.insert domain (((m.get? domain).getD ∅).insert style text)

/-- Of two triples with the same domain and style, the later one stays. -/
def ofTriples (triples : List (String × String × String)) : Mappings :=
  triples.foldl (fun m (domain, style, text) => m.add domain style text) ∅

/-- In ascending order of domains, and of styles within a domain. -/
def triples (m : Mappings) : List (String × String × String) :=
  m.entries.flatMap fun (domain, styles) =>
    styles.entries.map fun (style, text) => (domain, style, text)

end Mappings

/-- What a declaration is about: one symbol, or functions. -/
inductive Kind where
  | symbol
  | function
  deriving DecidableEq, Repr

/-- A symbol is given by its hexadecimal code point, functions by their names. -/
abbrev Kind.Subject : Kind → Type
  | .symbol => String
  | .function => List String

instance Kind.decEqSubject : (kind : Kind) → DecidableEq kind.Subject
  | .symbol => inferInstanceAs (DecidableEq String)
  | .function => inferInstanceAs (DecidableEq (List String))

/-- How a symbol or some functions are to be spoken. The category is informative only. -/
@[ext]
structure Declaration (kind : Kind) where
  category : Option String := none
  subject : kind.Subject
  mappings : Mappings := ∅
  deriving DecidableEq

end ScreenReader
