import ScreenReader.Focus.Host

namespace ScreenReader

/-- Where the focus has been. -/
@[ext]
structure History where
  seed : Target
  limit : Nat
  /-- The newest entry comes first. -/
  entries : List Target
  /-- Whether the last arrival was valid when it arrived. -/
  arrivedValid : Bool
  deriving DecidableEq, Repr

/-- Where to go when the focus is lost, and where to go from there. -/
structure Recovery where
  current : Option Target
  previous : Option Target
  deriving DecidableEq, Repr

def Recovery.isEmpty (r : Recovery) : Bool :=
  r.current.isNone

namespace History

def defaultLimit : Nat := 30

/-- Forgets all but the seed. -/
def reset (h : History) : Logged History := do
  log .trace "history reset"
  pure { h with entries := [h.seed], arrivedValid := true }

/-- A history holds one entry at least. -/
def start (seed : Target) (limit : Nat) : Logged History :=
  reset { seed, limit := max limit 1, entries := [], arrivedValid := true }

/-- Puts a target in front, unless it is there already, and drops the oldest entry past the limit. -/
def push (h : History) (t : Target) : History :=
  if h.entries.head? = some t then h
  else
    let entries := t :: h.entries
    { h with entries := if h.limit < entries.length then entries.dropLast else entries }

/-- The focus has arrived at a target, or nowhere, which counts as an arrival that is not valid. -/
def update (h : History) (host : Host) (arrival : Option Target) : Inquiry History := do
  let h := (arrival.map h.push).getD h
  let valid ← match arrival with
    | some t => host.ask t
    | none => pure false
  log .trace s!"history update: len={h.entries.length} arrived_valid={valid}"
  pure { h with arrivedValid := valid }

/-- Asks about each target in turn and keeps those that are valid. -/
def keepValid (host : Host) : List Target → Inquiry (List Target)
  | [] => pure []
  | t :: ts => do
    let valid ← host.ask t
    let kept ← keepValid host ts
    pure (if valid then t :: kept else kept)

/-- Drops the entries that are not valid any more, and tells whether there were any. -/
def clean (h : History) (host : Host) : Inquiry (History × Bool) := do
  let kept ← keepValid host h.entries
  let removed := h.entries.length - kept.length
  if removed > 0 then
    log .debug s!"history clean removed {removed} of {h.entries.length} entries"
  pure ({ h with entries := kept }, removed > 0)

/-- A target may be gone. Tells whether it is, except that the first time after an arrival that was
not valid it does not: that target was gone before. -/
def reportLost (h : History) (host : Host) (t : Target) : Inquiry (History × Bool) := do
  let (h, _) ← h.clean host
  if h.arrivedValid then
    let valid ← host.ask t
    pure (h, !valid)
  else
    log .debug "target was invalid on arrival; not reporting invalidation"
    pure ({ h with arrivedValid := true }, false)

/-- The active target counts as an arrival if it is valid and not the seed. -/
def recordActive (h : History) (host : Host) : Inquiry History := do
  match host.active with
  | none => pure h
  | some t =>
    if t = h.seed then pure h
    else if ← host.ask t then h.update host (some t)
    else pure h

/-- Drops entries from the front up to one that is accepted. -/
def dropRejected (h : History) (accept : Target → Bool) : History :=
  { h with entries := h.entries.dropWhile fun t => !accept t }

def recovery (h : History) : Recovery :=
  ⟨h.entries.head?, h.entries[1]?⟩

def recover (h : History) (host : Host) (accept : Option (Target → Bool)) :
    Inquiry (History × Recovery) := do
  let h ← h.recordActive host
  let h := (accept.map h.dropRejected).getD h
  log .trace s!"history revert: len={h.entries.length} empty={h.recovery.isEmpty}"
  pure (h, h.recovery)

end History

end ScreenReader
