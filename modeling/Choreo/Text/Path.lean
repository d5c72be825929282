/-!
# Paths

The parts of a path stand between slashes. Empty parts and the part `.` say nothing, and the name of
the file is the last part that is left, unless that part leads upwards.
-/

namespace Choreo.Text

def splitAll (separator : Char) : List Char → List (List Char)
  | [] => [[]]
  | c :: cs =>
    if c = separator then [] :: splitAll separator cs
    else match splitAll separator cs with
      | [] => [[c]]
      | part :: parts => (c :: part) :: parts

def fileName? (path : List Char) : Option (List Char) :=
  let parts := (splitAll '/' path).filter fun part => part ≠ [] ∧ part ≠ ['.']
  match parts.getLast? with
  | none => none
  | some name => if name = ['.', '.'] then none else some name

/-- A file name up to its last dot. A dot at its start does not count. -/
def withoutExtension (name : List Char) : List Char :=
  match (name.reverse.dropWhile (· ≠ '.')).tail.reverse with
  | [] => name
  | stem => stem

/-- The name of the file without its extension, or the whole path if it names no file. -/
def stem (path : String) : String :=
  match fileName? path.toList with
  | none => path
  | some name => String.ofList (withoutExtension name)

def withSlashes (path : String) : String :=
  String.ofList (path.toList.map fun c => if c = '\\' then '/' else c)

end Choreo.Text
