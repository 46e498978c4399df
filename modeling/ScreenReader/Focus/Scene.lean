import ScreenReader.Focus.History

namespace ScreenReader

/-- The targets of the world: all are valid but the detached ones. -/
structure World where
  detached : List Target := []
  active : Option Target := none
  faulty : List Target := []
  deriving DecidableEq, Repr

namespace World

def host (w : World) : Host where
  active := w.active
  valid t := !w.detached.contains t
  faulty t := w.faulty.contains t

def detach (w : World) (ts : List Target) : World :=
  { w with detached := ts ++ w.detached }

def attach (w : World) (ts : List Target) : World :=
  { w with detached := w.detached.filter fun t => !ts.contains t }

def activate (w : World) (t : Option Target) : World :=
  { w with active := t }

/-- Asks about each target in turn. -/
def survey (w : World) : List Target → Inquiry (List Bool)
  | [] => pure []
  | t :: ts => do
    let valid ← w.host.ask t
    let others ← w.survey ts
    pure (valid :: others)

end World

/-- A history and the world around it. -/
structure Scene where
  world : World
  history : History
  deriving DecidableEq, Repr

inductive FocusStep where
  | update (arrival : Option Target)
  | reset
  | clean
  | reportLost (t : Target)
  | recover (accept : Option (Target → Bool))
  | detach (ts : List Target)
  | attach (ts : List Target)
  | activate (t : Option Target)
  | survey (ts : List Target)
  | describe

inductive FocusResult where
  | nothing
  | flag (value : Bool)
  | recovery (r : Recovery)
  | survey (active : Option Target) (valid : List Bool)
  | description
  deriving DecidableEq, Repr

/-- The result of a step, and the history behind it. -/
structure Snapshot where
  result : FocusResult
  history : History
  deriving DecidableEq, Repr

namespace Scene

def step (s : Scene) : FocusStep → Inquiry (Scene × FocusResult)
  | .update arrival => do
    let h ← s.history.update s.world.host arrival
    pure ({ s with history := h }, .nothing)
  | .reset => do
    let h ← s.history.reset
    pure ({ s with history := h }, .nothing)
  | .clean => do
    let (h, removed) ← s.history.clean s.world.host
    pure ({ s with history := h }, .flag removed)
  | .reportLost t => do
    let (h, lost) ← s.history.reportLost s.world.host t
    pure ({ s with history := h }, .flag lost)
  | .recover accept => do
    let (h, r) ← s.history.recover s.world.host accept
    pure ({ s with history := h }, .recovery r)
  | .detach ts => pure ({ s with world := s.world.detach ts }, .nothing)
  | .attach ts => pure ({ s with world := s.world.attach ts }, .nothing)
  | .activate t => pure ({ s with world := s.world.activate t }, .nothing)
  | .survey ts => do
    let valid ← s.world.survey ts
    pure (s, .survey s.world.active valid)
  | .describe => pure (s, .description)

/-- Takes the steps one after the other, up to the first that the host breaks off. -/
def run (s : Scene) : List FocusStep → Logged (List (Except HostFault Snapshot))
  | [] => pure []
  | step :: steps => do
    match ← (s.step step).run with
    | .error fault => pure [.error fault]
    | .ok (next, result) =>
      let others ← next.run steps
      pure (.ok ⟨result, next.history⟩ :: others)

end Scene

end ScreenReader
