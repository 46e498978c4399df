namespace ScreenReader

inductive Axis where
  | domain
  | style
  deriving DecidableEq, Repr

namespace Axis

def all : List Axis := [.domain, .style]

def name : Axis → String
  | .domain => "domain"
  | .style => "style"

end Axis

/-- Which of several rules for one text is meant: a subject area and a manner of speaking. -/
@[ext]
structure Constraint where
  domain : String := ""
  style : String := ""
  deriving DecidableEq, Repr, Inhabited

namespace Constraint

def separator : Char := '.'

def value (c : Constraint) : Axis → String
  | .domain => c.domain
  | .style => c.style

/-- The first separator parts domain and style; without one the style is empty. -/
def ofText (text : String) : Constraint where
  domain := String.ofList (text.toList.takeWhile (· != separator))
  style := String.ofList ((text.toList.dropWhile (· != separator)).drop 1)

def text (c : Constraint) : String :=
  c.domain ++ String.singleton separator ++ c.style

end Constraint

end ScreenReader
