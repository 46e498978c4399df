import ScreenReader.Path

namespace ScreenReader

inductive FileError where
  | notFound
  | permissionDenied
  | notADirectory
  | isADirectory
  | nameTooLong
  | nulInPath
  | invalidData
  /-- Any other failure, in the words of the system. -/
  | other (description : String)
  deriving DecidableEq, Repr

def FileError.message : FileError → String
  | .notFound => "No such file or directory (os error 2)"
  | .permissionDenied => "Permission denied (os error 13)"
  | .notADirectory => "Not a directory (os error 20)"
  | .isADirectory => "Is a directory (os error 21)"
  | .nameTooLong => "File name too long (os error 36)"
  | .nulInPath => "file name contained an unexpected NUL byte"
  | .invalidData => "stream did not contain valid UTF-8"
  | .other description => description

/-- Why a directory cannot be listed to its end, and why no path can go on from it, if that is so. -/
structure DirectoryFaults where
  listing : Option FileError := none
  passage : Option FileError := none
  deriving DecidableEq, Repr

/-- What lies at a place in a file system. The entries of a directory come in no particular
order. -/
inductive FileNode where
  /-- A regular file, with what it holds or why it cannot be read. -/
  | file (content : Except FileError Text.Bytes)
  | directory (entries : List (Text.Bytes × FileNode)) (faults : DirectoryFaults := {})
  /-- Something that cannot be examined, such as a link that leads in a circle. -/
  | broken (fault : FileError)

namespace FileNode

def entries : FileNode → List (Text.Bytes × FileNode)
  | .directory entries _ => entries
  | _ => []

def isFile : FileNode → Bool
  | .file _ => true
  | _ => false

def isDirectory : FileNode → Bool
  | .directory .. => true
  | _ => false

def child? (node : FileNode) (name : Text.Bytes) : Option FileNode :=
  (node.entries.find? fun (n, _) => n == name).map Prod.snd

def content : FileNode → Except FileError Text.Bytes
  | .file content => content
  | .directory .. => .error .isADirectory
  | .broken fault => .error fault

/-- The names in a directory. -/
def names : FileNode → Except FileError (List Text.Bytes)
  | .directory entries faults =>
    match faults.listing with
    | some e => .error e
    | none => .ok (entries.map Prod.fst)
  | .file _ => .error .notADirectory
  | .broken fault => .error fault

def setEntry (name : Text.Bytes) (node : FileNode) :
    List (Text.Bytes × FileNode) → List (Text.Bytes × FileNode)
  | [] => [(name, node)]
  | (n, t) :: entries =>
    if n = name then (n, node) :: entries else (n, t) :: setEntry name node entries

/-- Changes what is at a place, and makes the directories on the way. -/
def update (change : FileNode → FileNode) : List Text.Bytes → FileNode → FileNode
  | [], node => change node
  | name :: names, node =>
    let old := (node.child? name).getD (.directory [])
    .directory (setEntry name (update change names old) node.entries)

/-- The places that a path comes by from `here` on, each told by the names that lead to it. -/
def places (here : List Text.Bytes) : List Text.Bytes → List (List Text.Bytes)
  | [] => []
  | step :: steps =>
    if step = [] ∨ step = Text.encode "." then places here steps
    else
      let next := if step = Text.encode ".." then here.dropLast else here ++ [step]
      next :: places next steps

def makeDirectories (node : FileNode) (places : List (List Text.Bytes)) : FileNode :=
  places.foldl (fun node place => update (fun old => .directory old.entries) place node) node

/-- Puts a file at the end of a path, and makes every directory that the path comes by. -/
def addFile (node : FileNode) (path : Path) (content : Text.Bytes) : FileNode :=
  let places := places [] path.steps
  update (fun _ => .file (.ok content)) (places.getLast?.getD [])
    (node.makeDirectories places.dropLast)

def addDirectory (node : FileNode) (path : Path) : FileNode :=
  node.makeDirectories (places [] path.steps)

end FileNode

/-- A file system as seen from a working directory. Those above it are told from the nearest up to
the root. -/
structure FileTree where
  working : FileNode
  above : List FileNode := []

namespace FileTree

def empty : FileTree := { working := .directory [] }

/-- The same file system as seen from its root. -/
def fromRoot (tree : FileTree) : FileTree :=
  { working := tree.above.getLastD tree.working }

/-- The same file system as seen from one directory further up; above the root there is none. -/
def parent (tree : FileTree) : FileTree :=
  match tree.above with
  | [] => tree
  | nearest :: further => { working := nearest, above := further }

/-- Moves along one step of a path. -/
def step (tree : FileTree) (name : Text.Bytes) : Except FileError FileTree :=
  match tree.working with
  | .file _ => .error .notADirectory
  | .broken fault => .error fault
  | .directory _ faults =>
    -- a slash too many asks for a directory, and for no passage through it
    if name = [] then .ok tree
    else match faults.passage with
      | some e => .error e
      | none =>
        if name = Text.encode "." then .ok tree
        else if name = Text.encode ".." then .ok tree.parent
        else match tree.working.child? name with
          | some next => .ok { working := next, above := tree.working :: tree.above }
          | none => .error (if Path.nameLimit < name.length then .nameTooLong else .notFound)

/-- Where a path starts. -/
def origin (tree : FileTree) (p : Path) : FileTree :=
  if p.isAbsolute then tree.fromRoot else tree

/-- What a path leads to. -/
def resolve (tree : FileTree) (p : Path) : Except FileError FileNode :=
  if 0 ∈ p.bytes then .error .nulInPath
  else if p.isTooLong then .error .nameTooLong
  else if p.bytes = [] then .error .notFound
  else (p.steps.foldlM step (tree.origin p)).map FileTree.working

def content (tree : FileTree) (p : Path) : Except FileError Text.Bytes :=
  (tree.resolve p).bind FileNode.content

def names (tree : FileTree) (p : Path) : Except FileError (List Text.Bytes) :=
  (tree.resolve p).bind FileNode.names

/-- Whether there is a regular file at a path, as far as can be told. -/
def isFile (tree : FileTree) (p : Path) : Bool :=
  ((tree.resolve p).map FileNode.isFile).toOption.getD false

def isDirectory (tree : FileTree) (p : Path) : Bool :=
  ((tree.resolve p).map FileNode.isDirectory).toOption.getD false

/-- Rule files have the extension `json` behind a name that is not empty. -/
def isRuleFileName (name : Text.Bytes) : Bool :=
  (Text.encode ".json").isSuffixOf name && 5 < name.length

/-- The names of the rule files directly in the directory at a path, in ascending order. A file that
cannot be told to be one is left out. -/
def ruleFiles (tree : FileTree) (p : Path) : Except FileError (List Text.Bytes) :=
  (tree.names p).map fun names =>
    (names.filter fun name => tree.isFile (p.join name) && isRuleFileName name).mergeSort
      fun a b => a ≤ b

end FileTree

end ScreenReader
