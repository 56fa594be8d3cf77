import ValueTree.Text.Utf8

/-!
# Files

A tree of files by their paths. A relative path starts at the root of the tree, and two dots lead
up, also out of the tree.
-/

namespace ValueTree

/-! ## Paths -/

namespace FilePath

def isAbsolute (path : String) : Bool := path.toList.head? = some '/'

/-- A path seen from another one; an absolute path stays as it is. -/
def join (base path : String) : String :=
  if isAbsolute path || base = "" then path
  else if base.toList.getLast? = some '/' then base ++ path
  else base ++ "/" ++ path

/-- The steps of a path; a slash at the end leaves an empty step. -/
def steps (path : String) : List String := (path.toList.splitOn '/').map String.ofList

/-- How many bytes a step may have. -/
def stepLimit : Nat := 255

/-- How many bytes a path may have. -/
def limit : Nat := 4095

end FilePath

/-! ## Trees -/

inductive FileNode
  | file (bytes : List UInt8)
  | directory
deriving DecidableEq, Repr, Inhabited

/-- Files and directories by the steps that lead to them; the root stands for itself. -/
structure FileTree where
  entries : List (List String × FileNode) := []
deriving Repr, Inhabited

/-- Where a path leads: to a place in the tree, or to a directory around it, of which nothing is
known but that there is one. -/
inductive FilePlace
  | inside (steps : List String)
  | around
deriving DecidableEq, Repr, Inhabited

namespace FilePlace

/-- The root of the tree lies in a directory too. -/
def up : FilePlace → FilePlace
  | inside [] | around => around
  | inside steps => inside steps.dropLast

end FilePlace

/-- Why there is no text at a path. -/
inductive FileFault
  /-- Nothing has this name. -/
  | notFound
  /-- The path leads on from a file. -/
  | notADirectory
  | isADirectory
  /-- The path or a step of it has too many bytes. -/
  | nameTooLong
  | nulByte
  | notUtf8
deriving DecidableEq, Repr, Inhabited

def FileFault.message : FileFault → String
  | .notFound => "No such file or directory"
  | .notADirectory => "Not a directory"
  | .isADirectory => "Is a directory"
  | .nameTooLong => "File name too long"
  | .nulByte => "file name contained an unexpected NUL byte"
  | .notUtf8 => "stream did not contain valid UTF-8"

namespace FileTree

def node? (t : FileTree) (steps : List String) : Option FileNode :=
  if steps.isEmpty then some .directory else t.entries.lookup steps

def nodeAt? (t : FileTree) : FilePlace → Option FileNode
  | .inside steps => t.node? steps
  | .around => some .directory

/-- The place of a name in a directory, if there is anything. -/
def enter (t : FileTree) (name : String) : FilePlace → Except FileFault FilePlace
  | .inside steps =>
    if FilePath.stepLimit < name.utf8ByteSize then .error .nameTooLong
    else if (t.node? (steps ++ [name])).isNone then .error .notFound
    else .ok (.inside (steps ++ [name]))
  | .around => .error (if FilePath.stepLimit < name.utf8ByteSize then .nameTooLong else .notFound)

/-- Follows the steps of a path from a place. A step needs a directory to start from, even a step
that stays there. -/
def walk (t : FileTree) : List String → FilePlace → Except FileFault FilePlace
  | [], place => .ok place
  | step :: rest, place =>
    match t.nodeAt? place with
    | none => .error .notFound
    | some (.file _) => .error .notADirectory
    | some .directory =>
      if step = "" || step = "." then t.walk rest place
      else if step = ".." then t.walk rest place.up
      else (t.enter step place).bind (t.walk rest)

/-- The place that a path leads to. -/
def locate (t : FileTree) (path : String) : Except FileFault FilePlace :=
  if '\x00' ∈ path.toList then .error .nulByte
  else if FilePath.limit < path.utf8ByteSize then .error .nameTooLong
  else if path = "" then .error .notFound
  else
    t.walk (FilePath.steps path) (if FilePath.isAbsolute path then .around else .inside [])

def read (t : FileTree) (path : String) : Except FileFault (List UInt8) :=
  match t.locate path with
  | .error fault => .error fault
  | .ok place =>
    match t.nodeAt? place with
    | some (.file bytes) => .ok bytes
    | some .directory => .error .isADirectory
    | none => .error .notFound

def readText (t : FileTree) (path : String) : Except FileFault String :=
  match t.read path with
  | .error fault => .error fault
  | .ok bytes =>
    match Utf8.toString? bytes with
    | some text => .ok text
    | none => .error .notUtf8

/-! ## Changing a tree -/

def put (t : FileTree) (steps : List String) (node : FileNode) : FileTree :=
  ⟨t.entries.filter (·.1 ≠ steps) ++ [(steps, node)]⟩

/-- Follows steps from a place and makes every directory that is missing on the way, also one that
the next step leaves again. No way leads through a file or out of the tree. -/
def makeWay (t : FileTree) : List String → (place : List String) → FileTree × Option (List String)
  | [], place => (t, some place)
  | step :: rest, place =>
    if step = "" || step = "." then t.makeWay rest place
    else if step = ".." then
      if place.isEmpty then (t, none) else t.makeWay rest place.dropLast
    else
      match t.node? (place ++ [step]) with
      | some .directory => t.makeWay rest (place ++ [step])
      | some (.file _) => (t, none)
      | none => (t.put (place ++ [step]) .directory).makeWay rest (place ++ [step])

/-- The steps of a path in the tree; an absolute one leads out of it. -/
def stepsWithin (path : String) : List String :=
  if FilePath.isAbsolute path then [".."] else FilePath.steps path

/-- Makes the directories of a path and then the file at its end. -/
def write (t : FileTree) (path : String) (bytes : List UInt8) : FileTree :=
  let steps := stepsWithin path
  let name := steps.getLastD ""
  match t.makeWay steps.dropLast [] with
  | (t, none) => t
  | (t, some place) =>
    if name ∈ ["", ".", ".."] || t.node? (place ++ [name]) = some .directory then t
    else t.put (place ++ [name]) (.file bytes)

def makeDirectory (t : FileTree) (path : String) : FileTree := (t.makeWay (stepsWithin path) []).1

/-- Whether a path leads to where another one would put a file. -/
def leadsTo (t : FileTree) (path place : String) : Bool :=
  match (t.write place []).locate path, (t.write place []).locate place with
  | .ok found, .ok wanted => found = wanted
  | _, _ => false

/-- Deletes a file, and says whether there was one. -/
def delete (t : FileTree) (path : String) : Bool × FileTree :=
  match t.locate path with
  | .ok (.inside steps) =>
    match t.node? steps with
    | some (.file _) => (true, ⟨t.entries.filter (·.1 ≠ steps)⟩)
    | _ => (false, t)
  | _ => (false, t)

end FileTree

end ValueTree
