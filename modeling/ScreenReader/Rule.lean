import ScreenReader.Constraint

namespace ScreenReader

/-- How one text is spoken under one constraint. The name is for diagnosis only. -/
@[ext]
structure Rule where
  name : String
  literal : String
  constraint : Constraint
  action : List String
  deriving DecidableEq, Repr

namespace Rule

def appliesTo (rule : Rule) (text : String) : Bool :=
  text == rule.literal

def speech (rule : Rule) : String :=
  " ".intercalate rule.action

end Rule

end ScreenReader
