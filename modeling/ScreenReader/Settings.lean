import ScreenReader.Constraint
import ScreenReader.Focus.History
import ScreenReader.Path
import ScreenReader.Text.Blank
import ScreenReader.Text.Number

namespace ScreenReader

@[ext]
structure Settings where
  rulesDirectory : Option Path := none
  domain : String := "default"
  style : String := "default"
  historyLimit : Nat := History.defaultLimit
  deriving DecidableEq, Repr

/-- The variables that hold settings; one that is not set is none. -/
structure Environment where
  rulesDirectory : Option Text.Bytes := none
  domain : Option Text.Bytes := none
  style : Option Text.Bytes := none
  historyLimit : Option Text.Bytes := none
  deriving DecidableEq, Repr

def Environment.ofVariables (value? : String → Option Text.Bytes) : Environment where
  rulesDirectory := value? "READER_RULES_DIR"
  domain := value? "READER_DOMAIN"
  style := value? "READER_STYLE"
  historyLimit := value? "READER_HISTORY_LIMIT"

namespace Settings

/-- The text of a variable without the blanks around it; none where nothing is left. -/
def textOf? (value : Option Text.Bytes) : Option String :=
  ((value.bind Text.decode?).map Text.trim).filter (· ≠ "")

/-- A number that 64 bits hold, in decimal digits, which a plus may precede. -/
def limitOf? (text : String) : Option Nat :=
  (Text.word? 64 10 Text.decimalDigit? text.toList).map BitVec.toNat

/-- What is missing or cannot be read stays at its default. -/
def ofEnvironment (env : Environment) : Settings where
  rulesDirectory := (env.rulesDirectory.filter (· ≠ [])).map Path.mk
  domain := (textOf? env.domain).getD "default"
  style := (textOf? env.style).getD "default"
  historyLimit :=
    max 1 (((env.historyLimit.bind Text.decode?).bind (limitOf? <| Text.trim ·)).getD
      History.defaultLimit)

def constraint (s : Settings) : Constraint := ⟨s.domain, s.style⟩

end Settings

end ScreenReader
