import Choreo.Text.Blank

/-!
# Headings and lines

Before its commands are looked at, a trimmed line opens a region, closes one, is passed over, or has
content. The markers begin with `#`, as comments do.
-/

namespace Choreo

structure Heading where
  name : String
  /-- Whether the name carried the mark `:`. -/
  named : Bool
deriving DecidableEq

/-- Reads the text after `#region `. A mark without a name is no heading. -/
def Heading.read? (text : List Char) : Option Heading :=
  let (name, named) := match Text.trim text with
    | ':' :: rest => (Text.trim rest, true)
    | name => (name, false)
  if name = [] then none else some ⟨String.ofList name, named⟩

inductive LineKind where
  /-- A blank line, a comment, or a marker without a heading. -/
  | ignored
  | opens (heading : Heading)
  | closes
  | content
deriving DecidableEq

def LineKind.of (line : List Char) : LineKind :=
  match Text.afterPrefix? "#region ".toList line with
  | some rest =>
    match Heading.read? rest with
    | some heading => .opens heading
    | none => .ignored
  | none =>
    if line = "#region".toList ∨ (Text.afterPrefix? "#endregion".toList line).isSome then .closes
    else match line with
      | [] => .ignored
      | c :: _ => if c = '#' then .ignored else .content

/-- The region that a caller asks for. A leading `:` is left out, and no name asks for nothing. -/
def Heading.filter? (filter : Option String) : Option String :=
  let name := match filter.map String.toList with
    | some (':' :: rest) => rest
    | some name => name
    | none => []
  if name = [] then none else some (String.ofList name)

/-- Whether lines under a heading count. Without a filter those under a marked heading do not, and
with one only those under its name do. -/
def Heading.selected (filter : Option String) (heading : Option Heading) : Bool :=
  match filter, heading with
  | none, none => true
  | none, some heading => !heading.named
  | some name, some heading => heading.name == name
  | some _, none => false

end Choreo
