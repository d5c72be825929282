import Choreo.Script.Program
import Choreo.Text.Path
import Choreo.Text.Quoted

/-!
# Scripts and where they come from

A script has an identity, a name and a source. Its lines are read from the source when they are first
asked for and kept until someone says that they are out of date. Only a reading that succeeds is
kept.
-/

namespace Choreo

inductive SourceError where
  | missing (path : String)
  | notText (path : String)
  | other (reason : String)
deriving DecidableEq

namespace SourceError

def aboutFile (path cause : String) : String :=
  "Failed to read script file: " ++ path ++ ": " ++ cause

def message : SourceError → String
  | missing path => aboutFile path "No such file or directory (os error 2)"
  | notText path => aboutFile path "stream did not contain valid UTF-8"
  | other reason => reason

end SourceError

/-- The text of a file, given the bytes in it if there is such a file. -/
def fileText (path : String) (bytes : Option ByteArray) : Except SourceError String :=
  match bytes with
  | none => .error (.missing path)
  | some bytes =>
    match String.fromUTF8? bytes with
    | none => .error (.notText path)
    | some text => .ok text

def Program.ofFile (path : String) (bytes : Option ByteArray) (filter : Option String) :
    Except SourceError Program :=
  (fileText path bytes).map fun text => .ofText text filter

structure ScriptId where
  text : String
deriving DecidableEq

namespace ScriptId

def ofPath (path : String) : ScriptId := ⟨Text.withSlashes path⟩

def inline (name : String) : ScriptId := ⟨"inline:" ++ name⟩

end ScriptId

structure Script where
  id : ScriptId
  name : String
  /-- What the source gives when it is read. -/
  source : Except SourceError String
  /-- The lines that were read, as long as they are up to date. -/
  cached : Option (List String) := none
  /-- How often the source was read. -/
  reads : Nat := 0

namespace Script

def ofFile (path : String) (bytes : Option ByteArray) : Script :=
  { id := .ofPath path, name := Text.stem path, source := fileText path bytes }

def inline (name text : String) : Script := { id := .inline name, name, source := .ok text }

def lines (s : Script) : Script × Except SourceError (List String) :=
  match s.cached with
  | some lines => (s, .ok lines)
  | none =>
    let s := { s with reads := s.reads + 1 }
    match s.source with
    | .error e => (s, .error e)
    | .ok text => ({ s with cached := some (Text.lines text) }, .ok (Text.lines text))

def invalidate (s : Script) : Script := { s with cached := none }

def inspect (s : Script) : String :=
  "Script \x7b id: ScriptId(" ++ Text.quoted s.id.text ++ "), name: " ++ Text.quoted s.name ++
    ", .. \x7d"

end Script

end Choreo
