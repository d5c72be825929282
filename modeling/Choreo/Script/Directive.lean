import Choreo.Script.Countdown
import Choreo.Script.Padding

/-!
# Directives

What the player does with a command. Some commands are meant for the player itself; a table of
keywords tells them from the commands that are sent to the host as they stand.
-/

namespace Choreo

inductive Directive where
  | dispatch
  /-- Send nothing, only wait. -/
  | hold
  | loop
  /-- Show the player as busy, with decorations or without. -/
  | busy (decorated : Bool)
  /-- Switch the mare synchronisation off. -/
  | mare
  /-- Choose the mode of the countdowns to come. -/
  | countdown (mode : Countdown)
  /-- Shorten the next wait by the time that a command travels. -/
  | ping
  /-- Cancel the running animation and then send the text. -/
  | animationCancel
  | pad (padding : Padding)
  | microCancel
deriving DecidableEq

structure Keyword where
  text : List Char
  /-- Whether the word has to be the whole command. -/
  exact : Bool
  /-- The directive for the text after the word, unless the word declines it. -/
  read? : List Char → Option Directive

namespace Keyword

/-- The text after the word in a command that the word applies to. -/
def argument? (k : Keyword) (command : List Char) : Option (List Char) :=
  match Text.afterPrefix? k.text command with
  | some rest => if k.exact ∧ rest ≠ [] then none else some rest
  | none => none

def directive? (k : Keyword) (command : List Char) : Option Directive :=
  (k.argument? command).bind k.read?

end Keyword

namespace Directive

def keywords : List Keyword :=
  [⟨"/loop".toList, true, fun _ => some loop⟩,
   ⟨"/microcancel".toList, true, fun _ => some microCancel⟩,
   ⟨"/autobussy".toList, false, fun _ => some (busy true)⟩,
   ⟨"/autobusy".toList, false, fun _ => some (busy false)⟩,
   ⟨"/automare".toList, false, fun _ => some mare⟩,
   ⟨"/autocountdown".toList, false, fun argument => some (countdown (.read argument))⟩,
   ⟨"/autocd".toList, false, fun argument => some (countdown (.read argument))⟩,
   ⟨"/autoping".toList, false, fun _ => some ping⟩,
   ⟨"/acancel".toList, false, fun _ => some animationCancel⟩,
   ⟨"/padding ".toList, false, fun argument => (Padding.read? argument).map pad⟩,
   ⟨"/pad ".toList, false, fun argument => (Padding.read? argument).map pad⟩]

/-- The directive of a command by the words of a table. What no word applies to is sent. -/
def classifyBy (table : List Keyword) (command : List Char) : Directive :=
  if command = [] then hold else (table.findSome? (·.directive? command)).getD dispatch

def classify (command : List Char) : Directive := classifyBy keywords command

/-- Whether the player goes on at once, whatever the wait of the command is. -/
def skipsWait : Directive → Bool
  | dispatch => false
  | hold => false
  | animationCancel => false
  | _ => true

end Directive

end Choreo
