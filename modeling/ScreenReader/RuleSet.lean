import ScreenReader.Declaration
import ScreenReader.Log
import ScreenReader.Rule
import ScreenReader.Vocabulary

namespace ScreenReader

/-- Rules in the order in which their constraints were first defined. -/
@[ext]
structure RuleSet where
  rules : List Rule := []
  deriving DecidableEq, Repr, Inhabited

namespace RuleSet

def empty : RuleSet := {}

instance : EmptyCollection RuleSet := ⟨empty⟩

def size (s : RuleSet) : Nat :=
  s.rules.length

def isEmpty (s : RuleSet) : Bool :=
  s.rules.isEmpty

def defines (s : RuleSet) (c : Constraint) : Bool :=
  s.rules.any (·.constraint == c)

/-- Puts a rule in the place of the first one with the same constraint. -/
def replaceFirst (rule : Rule) : List Rule → List Rule
  | [] => []
  | r :: rules =>
    if r.constraint = rule.constraint then rule :: rules else r :: replaceFirst rule rules

/-- Takes the place of the rule with the same constraint, or the last place. -/
def insert (s : RuleSet) (rule : Rule) : RuleSet :=
  if s.defines rule.constraint then ⟨replaceFirst rule s.rules⟩ else ⟨s.rules ++ [rule]⟩

/-- Defines the rule that says `action` for `literal`, under a constraint given as text. -/
def define (s : RuleSet) (name constraint action literal : String) : Logged RuleSet := do
  let rule : Rule := { name, literal, constraint := .ofText constraint, action := [action] }
  if s.defines rule.constraint then
    log .trace s!"replacing rule {name} for {constraint}"
  pure (s.insert rule)

/-- Defines a rule for each mapping. The domain and the style are joined to a text first, so that a
dot in a domain moves what follows it to the style. -/
def defineAll (s : RuleSet) (name literal : String) (m : Mappings) : Logged RuleSet :=
  m.triples.foldlM (fun s (domain, style, text) =>
    s.define name (Constraint.text { domain, style }) text literal) s

def lookup? (s : RuleSet) (text : String) (c : Constraint) : Option Rule :=
  (s.rules.filter (·.appliesTo text)).find? (·.constraint == c)

def vocabulary (s : RuleSet) : Vocabulary :=
  .ofConstraints (s.rules.map Rule.constraint)

end RuleSet

end ScreenReader
