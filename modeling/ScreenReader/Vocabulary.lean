import ScreenReader.Constraint
import ScreenReader.TextSet

namespace ScreenReader

/-- The values in use on each axis. An axis is absent until a value is recorded on it. -/
@[ext]
structure Vocabulary where
  domains : Option TextSet := none
  styles : Option TextSet := none
  deriving DecidableEq, Inhabited

namespace Vocabulary

instance : EmptyCollection Vocabulary := ⟨{}⟩

def ofAxes (values : Axis → Option TextSet) : Vocabulary where
  domains := values .domain
  styles := values .style

/-- The values on an axis, if it is present. -/
def axis? (v : Vocabulary) : Axis → Option TextSet
  | .domain => v.domains
  | .style => v.styles

def contains (v : Vocabulary) (axis : Axis) (value : String) : Bool :=
  (v.axis? axis).any (·.contains value)

/-- Whether there is no value on any axis that is present. -/
def isEmpty (v : Vocabulary) : Bool :=
  Axis.all.all fun axis => (v.axis? axis).all TextSet.isEmpty

def record (v : Vocabulary) (c : Constraint) : Vocabulary :=
  .ofAxes fun axis => some (((v.axis? axis).getD ∅).insert (c.value axis))

/-- The values of an axis with those that are added, which make it present; one that is absent where
they come from stays as it is. -/
def addValues (values : Option TextSet) : Option TextSet → Option TextSet
  | none => values
  | some added => some (values.getD ∅ ∪ added)

def merge (v w : Vocabulary) : Vocabulary :=
  .ofAxes fun axis => addValues (v.axis? axis) (w.axis? axis)

/-- The axes in use with their values. -/
def toList (v : Vocabulary) : List (Axis × TextSet) :=
  Axis.all.filterMap fun axis => (v.axis? axis).map (axis, ·)

def ofConstraints (cs : List Constraint) : Vocabulary :=
  cs.foldl record ∅

end Vocabulary

end ScreenReader
