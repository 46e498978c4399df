import ScreenReader.RuleSet
import ScreenReader.Text.CodePoint
import ScreenReader.Text.Quoted

namespace ScreenReader

/-- All rules, filed under the text that they speak. -/
@[ext]
structure RuleBook where
  sets : Dictionary RuleSet := ∅
  deriving DecidableEq, Inhabited

namespace RuleBook

def empty : RuleBook := {}

instance : EmptyCollection RuleBook := ⟨empty⟩

def size (b : RuleBook) : Nat :=
  b.sets.size

def isEmpty (b : RuleBook) : Bool :=
  b.sets.entries.isEmpty

def ruleSet? (b : RuleBook) (literal : String) : Option RuleSet :=
  b.sets.get? literal

def contains (b : RuleBook) (literal : String) : Bool :=
  b.sets.contains literal

def lookup? (b : RuleBook) (text : String) (c : Constraint) : Option Rule :=
  (b.ruleSet? text).bind (·.lookup? text c)

/-- What to say for `text`; nothing where no rule applies. -/
def speech (b : RuleBook) (text : String) (c : Constraint) : String :=
  ((b.lookup? text c).map Rule.speech).getD ""

def vocabulary (b : RuleBook) : Vocabulary :=
  b.sets.values.foldl (fun v s => v.merge s.vocabulary) ∅

/-- Files new rules for `literal` and drops those filed before. -/
def define (b : RuleBook) (name literal : String) (m : Mappings) : Logged RuleBook := do
  let set ← RuleSet.empty.defineAll name literal m
  log .trace s!"defined {set.size} rules for {name}"
  if b.contains literal then
    log .trace s!"store for {Text.quoted literal} replaced by {name}"
  pure ⟨b.sets.insert literal set⟩

def declareSymbol (b : RuleBook) (key : String) (m : Mappings) : Logged RuleBook := do
  match Text.ofHex? key with
  | some c => b.define key (String.singleton c) m
  | none =>
    log .warn s!"skipping symbol with invalid code point {Text.quoted key}"
    pure b

def declareFunctions (b : RuleBook) (names : List String) (m : Mappings) : Logged RuleBook :=
  names.foldlM (fun b name => b.define name name m) b

def declare (b : RuleBook) : {kind : Kind} → Declaration kind → Logged RuleBook
  | .symbol, d => b.declareSymbol d.subject d.mappings
  | .function, d => b.declareFunctions d.subject d.mappings

def declareAll (b : RuleBook) {kind : Kind} (ds : List (Declaration kind)) : Logged RuleBook :=
  ds.foldlM (fun b d => b.declare d) b

end RuleBook

end ScreenReader
