import ScreenReader.Focus.History
import ScreenReader.RuleBook.Shared
import ScreenReader.Settings

namespace ScreenReader

/-- A session in preparation, while rules are imported. -/
structure Draft where
  settings : Settings := {}
  book : RuleBook := ∅
  deriving DecidableEq

/-- A running screen reader: its rules, and where the focus has been. -/
structure Session where
  settings : Settings
  constraint : Constraint
  book : SharedBook
  history : History
  deriving DecidableEq

namespace Draft

def write (tree : FileTree) (d : Draft) (w : Write) : Logged (Except LoadError Draft) := do
  let x ← w.apply tree d.book
  pure (x.outcome.map fun _ => { d with book := x.book })

/-- Imports up to the first that fails, which is told with its position. -/
def writeAll (tree : FileTree) (d : Draft) (position : Nat) :
    List Write → Logged (Except (Nat × LoadError) Draft)
  | [] => pure (.ok d)
  | w :: ws => do
    match ← d.write tree w with
    | .error e => pure (.error (position, e))
    | .ok d => d.writeAll tree (position + 1) ws

def start (d : Draft) (seed : Target) : Logged Session := do
  log .info s!"reader ready: {d.book.size} rule keys, history limit {d.settings.historyLimit}"
  let history ← History.start seed d.settings.historyLimit
  pure {
    settings := d.settings, constraint := d.settings.constraint, book := .ofBook d.book, history }

/-- Imports the rules of the configured directory, if there is one, and starts the session. -/
def build (tree : FileTree) (d : Draft) (seed : Target) : Logged (Except LoadError Session) := do
  match d.settings.rulesDirectory with
  | none => pure (.ok (← d.start seed))
  | some directory =>
    let x ← d.book.loadDirectory tree directory
    match x.outcome with
    | .error e => pure (.error (.configured directory e))
    | .ok _ => pure (.ok (← { d with book := x.book }.start seed))

end Draft

namespace Session

def speak (s : Session) (text : String) : String :=
  s.book.current.speech text s.constraint

def focusChanged (s : Session) (host : Host) (arrival : Option Target) : Inquiry Session := do
  let history ← s.history.update host arrival
  pure { s with history }

def targetLost (s : Session) (host : Host) (t : Target) : Inquiry (Session × Bool) := do
  let (history, lost) ← s.history.reportLost host t
  log .debug s!"target invalidated: {lost}"
  pure ({ s with history }, lost)

def recover (s : Session) (host : Host) (accept : Option (Target → Bool)) :
    Inquiry (Session × Recovery) := do
  let (history, r) ← s.history.recover host accept
  pure ({ s with history }, r)

end Session

end ScreenReader
