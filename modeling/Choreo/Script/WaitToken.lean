import Choreo.Seconds

/-!
# Wait tokens

A wait is written inside a line as a tag `<wait.N>` or as a word `/wait N` that stands at the start
of the line or after a blank. Tokens of either kind are found from left to right without overlap.
The last token gives the wait, a tag going before a word, and all of them leave the text.
-/

namespace Choreo

/-- A part of a line: a character of the text, or a token with its argument. -/
inductive Piece where
  | plain (c : Char)
  | token (argument : List Char)
deriving DecidableEq

namespace Piece

def plain? : Piece → Option Char
  | .plain c => some c
  | .token _ => none

def argument? : Piece → Option (List Char)
  | .plain _ => none
  | .token argument => some argument

/-- The parts of a line after `skip` further characters of a token. `token?` tells the argument of a
token at the start of a text and how many characters follow its first one. -/
def ofText (token? : List Char → Option (List Char × Nat)) (skip : Nat) : List Char → List Piece
  | [] => []
  | c :: cs =>
    match skip with
    | skip + 1 => ofText token? skip cs
    | 0 =>
      match token? (c :: cs) with
      | some (argument, length) => .token argument :: ofText token? length cs
      | none => .plain c :: ofText token? 0 cs

def arguments (pieces : List Piece) : List (List Char) := pieces.filterMap argument?

def text (pieces : List Piece) : List Char := pieces.filterMap plain?

end Piece

namespace WaitToken

def tagStart : List Char := "<wait.".toList

def word : List Char := "/wait".toList

/-- A tag at the start of the text: `<wait.`, anything but `>`, and `>`. -/
def tag? (cs : List Char) : Option (List Char × Nat) :=
  match Text.afterPrefix? tagStart cs with
  | none => none
  | some rest =>
    let argument := rest.takeWhile (· ≠ '>')
    match rest.dropWhile (· ≠ '>') with
    | [] => none
    | _ :: _ => some (argument, tagStart.length + argument.length)

/-- The word `/wait` at the start of the text, with blanks and an argument. -/
def word? (cs : List Char) : Option (List Char × Nat) :=
  match Text.afterPrefix? word cs with
  | none => none
  | some rest =>
    let blanks := rest.takeWhile Text.isBlank
    let (argument, _) := Text.splitWord (rest.dropWhile Text.isBlank)
    if blanks = [] ∨ argument = [] then none
    else some (argument, word.length + blanks.length + argument.length - 1)

def blankWord? : List Char → Option (List Char × Nat)
  | [] => none
  | c :: cs =>
    if Text.isBlank c then (word? cs).map fun (argument, length) => (argument, length + 1) else none

def tags (line : List Char) : List Piece := Piece.ofText tag? 0 line

/-- The line split at its words. Only at the start of the line no blank is needed before one. -/
def words (line : List Char) : List Piece :=
  match word? line with
  | some (argument, length) => .token argument :: Piece.ofText blankWord? length line.tail
  | none => Piece.ofText blankWord? 0 line

/-- The wait that a line gives. A last token whose number cannot be read gives none. -/
def wait? (line : List Char) : Option Duration :=
  match (Piece.arguments (tags line)).getLast? with
  | some argument => Duration.ofSecondsText? argument
  | none =>
    match (Piece.arguments (words line)).getLast? with
    | some argument => Duration.ofSecondsText? argument
    | none => none

/-- The line without its tokens: the tags go first, then the words that are left. -/
def remove (line : List Char) : List Char :=
  Text.trim (Piece.text (words (Piece.text (tags line))))

end WaitToken

end Choreo
