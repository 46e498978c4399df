import ScreenReader.RuleBook

namespace ScreenReader

inductive Query where
  | rule (text : String) (c : Constraint)
  | speech (text : String) (c : Constraint)
  | vocabulary
  | ruleSet (literal : String)
  | contains (literal : String)
  | size
  deriving DecidableEq, Repr

inductive Reply where
  | rule (rule? : Option Rule)
  | speech (text : String)
  | vocabulary (v : Vocabulary)
  | ruleSet (set? : Option RuleSet)
  | contains (known : Bool)
  | size (texts : Nat)
  deriving DecidableEq

def RuleBook.reply (b : RuleBook) : Query → Reply
  | .rule text c => .rule (b.lookup? text c)
  | .speech text c => .speech (b.speech text c)
  | .vocabulary => .vocabulary b.vocabulary
  | .ruleSet literal => .ruleSet (b.ruleSet? literal)
  | .contains literal => .contains (b.contains literal)
  | .size => .size b.size

end ScreenReader
