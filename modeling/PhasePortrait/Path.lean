/-!
# Paths

A path is read as the parts between its slashes. A part that is empty or a single point leads
nowhere, and two points lead one directory up; what is left are names.
-/

namespace PhasePortrait.Path

/-- The parts between the slashes, empty ones too. -/
def split : List Char → List (List Char)
  | [] => [[]]
  | c :: rest =>
    if c = '/' then [] :: split rest
    else
      match split rest with
      | [] => [[c]]
      | part :: parts => (c :: part) :: parts

/-- The parts of a path, empty ones too. -/
def parts (path : String) : List String := (split path.toList).map String.ofList

/-- Whether a path starts at the root. -/
def isAbsolute (path : String) : Bool := path.toList.head? == some '/'

/-- Whether a path ends with a slash, so that it can only lead to a directory. -/
def hasSlashBehind (path : String) : Bool := path.toList.getLast? == some '/'

/-- The parts of a path that lead somewhere. -/
def steps (path : String) : List String :=
  (parts path).filter fun part => !(part.isEmpty || part == ".")

/-- The name of the file that a path leads to, by the path alone: its last step, unless that leads
up. -/
def fileName? (path : String) : Option String :=
  (steps path).getLast?.filter (· != "..")

/-- What stands behind the last point of a file's name, if anything stands before that point. -/
def ending? (path : String) : Option String := do
  let letters := (← fileName? path).toList.reverse
  match letters.dropWhile (· != '.') with
  | _ :: _ :: _ => some (String.ofList (letters.takeWhile (· != '.')).reverse)
  | _ => none

end PhasePortrait.Path
