import Choreo.Script.Command
import Choreo.Script.Comment
import Choreo.Script.Heading
import Choreo.Script.WaitToken
import Choreo.Text.Lines

/-!
# Programs

A script is compiled into its commands and the regions they belong to. Lines are read in order:
headings open and close regions, a filter selects the headings whose lines count, and every line
that is left is a command or sets the default wait. Reading never fails. What is not understood is a
command for the host, and a wait that cannot be read is no wait.
-/

namespace Choreo

structure Program where
  commands : List Command := []
  regions : List Region := []
deriving DecidableEq

namespace Program

def totalWait (p : Program) : Duration := .sum (p.commands.map Command.wait)

def positionOfLine? (p : Program) (line : Nat) : Option Nat :=
  p.commands.findIdx? (·.line == line)

def regionOf? (p : Program) (c : Command) : Option Region := p.regions[c.region]?

end Program

/-- The argument of a line that is the given word, alone or followed by a blank. -/
def wordArgument? (word line : List Char) : Option (List Char) :=
  match Text.afterPrefix? word line with
  | some [] => some []
  | some (c :: rest) => if Text.isBlank c then some (Text.trim (c :: rest)) else none
  | none => none

inductive Statement where
  | defaultWait (wait : Option Duration)
  | command (text : List Char) (wait : Option Duration)
deriving DecidableEq

/-- What a line with content says. Its comment says nothing. -/
def Statement.of (line : List Char) : Statement :=
  let line := Comment.strip line
  match wordArgument? "/defaultwait".toList line with
  | some argument => .defaultWait (Duration.ofSecondsText? argument)
  | none => .command (WaitToken.remove line) (WaitToken.wait? line)

structure Reading where
  program : Program := {}
  /-- The heading that is open. -/
  heading : Option Heading := none
  /-- Whether no command was met since the last marker. -/
  fresh : Bool := true
  defaultWait : Option Duration := none
deriving DecidableEq

namespace Reading

def mark (r : Reading) (heading : Option Heading) : Reading := { r with heading, fresh := true }

/-- A command was met. The first one after a marker begins a region. -/
def command (r : Reading) (line : Nat) (text : List Char) (wait : Duration) : Reading :=
  let regions :=
    if r.fresh then
      r.program.regions ++ [match r.heading with
        | none => .start "" false line
        | some heading => .start heading.name heading.named line]
    else r.program.regions
  let region := regions.length - 1
  let command : Command :=
    { text := String.ofList text, line, region, wait, directive := .classify text }
  { r with
    fresh := false
    program :=
      { commands := r.program.commands ++ [command]
        regions := regions.modify region (·.absorb line wait) } }

def content (r : Reading) (number : Nat) (line : List Char) : Reading :=
  match Statement.of line with
  | .defaultWait wait => { r with defaultWait := wait }
  | .command text wait =>
    r.command number text (wait.getD (r.defaultWait.getD Command.minWait))

def line (filter : Option String) (r : Reading) (number : Nat) (line : String) : Reading :=
  let line := Text.trim line.toList
  match LineKind.of line with
  | .ignored => r
  | .opens heading => r.mark (some heading)
  | .closes => r.mark none
  | .content => if Heading.selected filter r.heading then r.content number line else r

def lines (filter : Option String) (r : Reading) (number : Nat) : List String → Reading
  | [] => r
  | first :: rest => lines filter (r.line filter number first) (number + 1) rest

end Reading

namespace Program

/-- The program of a list of lines. With a filter it has the regions of that name, and without one
whatever is not under a marked heading. -/
def compile (lines : List String) (filter : Option String) : Program :=
  (Reading.lines (Heading.filter? filter) {} 1 lines).program

def ofText (text : String) (filter : Option String) : Program :=
  compile (Text.lines text) filter

end Program

end Choreo
