import ScreenReader.RuleBook.Query
import ScreenReader.RuleBook.Write

namespace ScreenReader

/-- Writes done in one go. A batch may break off behind them with a message. -/
structure Batch where
  writes : List Write
  failure : Option String := none

inductive SharedRequest where
  | batch (batch : Batch)
  | ask (query : Query)

inductive SharedAnswer where
  | imported (answers : List WriteAnswer)
  | brokenOff (message : String)
  | told (reply : Reply)

/-- A book behind a lock. A batch that breaks off while it holds the lock leaves it poisoned. -/
@[ext]
structure SharedBook where
  content : RuleBook
  poisoned : Bool := false
  deriving DecidableEq

namespace SharedBook

def ofBook (b : RuleBook) : SharedBook := { content := b }

/-- What the lock gives to those who take it; out of a poisoned lock the book comes as an error. -/
def lock (s : SharedBook) : Except RuleBook RuleBook :=
  if s.poisoned then .error s.content else .ok s.content

/-- The book as it stands, which is taken out of a poisoned lock all the same. -/
def current (s : SharedBook) : RuleBook :=
  match s.lock with
  | .ok b => b
  | .error b => b

def size (s : SharedBook) : Nat :=
  s.current.size

/-- What a batch wrote stays, also when it breaks off. -/
def serve (tree : FileTree) (s : SharedBook) : SharedRequest → Logged (SharedBook × SharedAnswer)
  | .ask query => pure (s, .told (s.current.reply query))
  | .batch batch => do
    let (b, answers) ← s.current.writeAll tree batch.writes
    match batch.failure with
    | some message => pure ({ content := b, poisoned := true }, .brokenOff message)
    | none => pure ({ s with content := b }, .imported answers)

end SharedBook

/-- A book can be reached through any number of handles that share it; one more handle has a copy of
its own. -/
inductive Handle where
  | sharing (name : String)
  | detached
  deriving DecidableEq, Repr

structure SharedBooks where
  shared : SharedBook
  copy : SharedBook
  deriving DecidableEq

namespace SharedBooks

def ofBook (b : RuleBook) : SharedBooks := ⟨.ofBook b, .ofBook b⟩

def serve (tree : FileTree) (books : SharedBooks) (handle : Handle) (request : SharedRequest) :
    Logged (SharedBooks × SharedAnswer) :=
  match handle with
  | .sharing _ => do
    let (s, answer) ← books.shared.serve tree request
    pure ({ books with shared := s }, answer)
  | .detached => do
    let (s, answer) ← books.copy.serve tree request
    pure ({ books with copy := s }, answer)

def run (tree : FileTree) (books : SharedBooks) :
    List (Handle × SharedRequest) → Logged (SharedBooks × List SharedAnswer)
  | [] => pure (books, [])
  | (handle, request) :: requests => do
    let (books, answer) ← books.serve tree handle request
    let (last, answers) ← books.run tree requests
    pure (last, answer :: answers)

end SharedBooks

end ScreenReader
