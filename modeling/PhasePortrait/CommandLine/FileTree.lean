import PhasePortrait.CommandLine.Host
import PhasePortrait.Path

/-!
# File trees

Directories and files in memory, as a host that commands can run on. A place is the list of the
names that lead to it from the root. A path is walked part by part: each part asks for a directory
where the walk stands, also one that is empty or a point.
-/

namespace PhasePortrait.CommandLine

/-- What stands at a place. -/
inductive FileTree.Entry where
  | directory
  | text (contents : String)
  | picture (p : Picture)

/-- Directories and files, and the place from which paths are walked. The root needs no entry. -/
structure FileTree where
  entries : List (List String × FileTree.Entry)
  here : List String

namespace FileTree

/-- What stands at a place, if anything does. -/
def entry? (t : FileTree) (place : List String) : Option Entry :=
  if place.isEmpty then some .directory
  else (t.entries.find? fun e => e.1 == place).map (·.2)

/-- The tree with an entry at a place, instead of what stood there. -/
def put (t : FileTree) (place : List String) (entry : Entry) : FileTree :=
  { t with entries := (place, entry) :: t.entries.filter fun e => e.1 != place }

/-- The tree with a directory at a place and at every place on the way to it. -/
def putDirectory (t : FileTree) (place : List String) : FileTree :=
  (List.range place.length).foldl (fun t n => t.put (place.take (n + 1)) .directory) t

/-- The tree with a text at a place, and directories on the way to it. -/
def putText (t : FileTree) (place : List String) (contents : String) : FileTree :=
  (t.putDirectory place.dropLast).put place (.text contents)

/-- The tree of a working directory with files, which are named by their paths from there. -/
def ofFiles (here : List String) (files : List (String × String)) : FileTree :=
  files.foldl (fun t file => t.putText (here ++ Path.steps file.1) file.2)
    ((⟨[], here⟩ : FileTree).putDirectory here)

/-! ## Walks -/

/-- The bytes of a name, at most. -/
def nameLimit : Nat := 255

/-- The bytes of a path are fewer than this. -/
def pathLimit : Nat := 4096

/-- One part further from a place. -/
def step (t : FileTree) (place : List String) (part : String) : Except FileFault (List String) :=
  match t.entry? place with
  | none => .error .missing
  | some .directory =>
    if part.isEmpty || part == "." then .ok place
    else if part == ".." then .ok place.dropLast
    else if nameLimit < part.utf8ByteSize then .error .nameTooLong
    else .ok (place ++ [part])
  | some _ => .error .notADirectory

/-- Where a path leads. Something need not stand there, but on the way. -/
def walk (t : FileTree) (path : String) (parts : List String) : Except FileFault (List String) :=
  if pathLimit ≤ path.utf8ByteSize then .error .nameTooLong
  else parts.foldlM t.step (if Path.isAbsolute path then [] else t.here)

/-- The text of a file. -/
def read (t : FileTree) (path : String) : Except FileFault String := do
  match t.entry? (← t.walk path (Path.parts path)) with
  | none => .error .missing
  | some .directory => .error .isADirectory
  | some (.text contents) => .ok contents
  | some (.picture _) => .error .notText

/-- The tree with a file written. A path that can only lead to a directory is refused as one before
its last name is looked at. -/
def write (t : FileTree) (path : String) (entry : Entry) : Except FileFault FileTree := do
  let parts := ((Path.parts path).reverse.dropWhile String.isEmpty).reverse
  let above ← t.walk path parts.dropLast
  if Path.hasSlashBehind path then
    let _ ← t.step above ""
    .error .isADirectory
  else
    let place ← t.step above (parts.getLast?.getD "")
    match t.entry? place with
    | some .directory => .error .isADirectory
    | _ => .ok (t.put place entry)

/-- The picture of a file, if it is one. -/
def picture? (t : FileTree) (place : List String) : Option Picture :=
  match t.entry? place with
  | some (.picture p) => some p
  | _ => none

/-- A machine with nothing but a tree of files. Its clock stands still. -/
def host : Host (StateM FileTree) where
  readText path := fun t => (t.read path, t)
  write path picture := fun t =>
    match t.write path ((picture.map Entry.picture).getD (.text "")) with
    | .ok t => (.ok (), t)
    | .error fault => (.error fault, t)
  clock := pure 1
  now := pure ⟨0, by decide⟩
  sleep _ := pure ()

end FileTree

end PhasePortrait.CommandLine
