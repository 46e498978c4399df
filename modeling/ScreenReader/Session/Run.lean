import ScreenReader.Focus.Scene
import ScreenReader.Session

namespace ScreenReader

inductive SessionStep where
  | speak (text : String)
  | speakWith (text : String) (c : Constraint)
  | vocabulary
  | constraint
  | setConstraint (c : Constraint)
  | settings
  | focusChanged (arrival : Option Target)
  | targetLost (t : Target)
  | recover (accept : Option (Target → Bool))
  | history
  | detach (ts : List Target)
  | attach (ts : List Target)
  | activate (t : Option Target)
  | startLogging
  | book (request : SharedRequest)

inductive SessionAnswer where
  | nothing
  | speech (text : String)
  | vocabulary (v : Vocabulary)
  | constraint (c : Constraint)
  | settings (s : Settings)
  | focus (snapshot : Snapshot)
  | book (answer : SharedAnswer)

namespace Session

/-- One step of a session within a world, both of which it may change. The files do not change. -/
def step (tree : FileTree) (world : World) (s : Session) :
    SessionStep → Inquiry (World × Session × SessionAnswer)
  | .speak text => pure (world, s, .speech (s.speak text))
  | .speakWith text c => pure (world, s, .speech (s.book.current.speech text c))
  | .vocabulary => pure (world, s, .vocabulary s.book.current.vocabulary)
  | .constraint => pure (world, s, .constraint s.constraint)
  | .setConstraint c => pure (world, { s with constraint := c }, .nothing)
  | .settings => pure (world, s, .settings s.settings)
  | .focusChanged arrival => do
    let s ← s.focusChanged world.host arrival
    pure (world, s, .focus ⟨.nothing, s.history⟩)
  | .targetLost t => do
    let (s, lost) ← s.targetLost world.host t
    pure (world, s, .focus ⟨.flag lost, s.history⟩)
  | .recover accept => do
    let (s, r) ← s.recover world.host accept
    pure (world, s, .focus ⟨.recovery r, s.history⟩)
  | .history => pure (world, s, .focus ⟨.description, s.history⟩)
  | .detach ts => pure (world.detach ts, s, .nothing)
  | .attach ts => pure (world.attach ts, s, .nothing)
  | .activate t => pure (world.activate t, s, .nothing)
  | .startLogging => do
    log .debug "logger already initialized"
    pure (world, s, .nothing)
  | .book request => do
    let (book, answer) ← s.book.serve tree request
    pure (world, { s with book }, .book answer)

/-- Takes the steps one after the other, up to the first that the host breaks off. -/
def run (tree : FileTree) (world : World) (s : Session) :
    List SessionStep → Logged (List (Except HostFault SessionAnswer))
  | [] => pure []
  | step :: steps => do
    match ← (s.step tree world step).run with
    | .error fault => pure [.error fault]
    | .ok (world, s, answer) =>
      let others ← s.run tree world steps
      pure (.ok answer :: others)

end Session

end ScreenReader
