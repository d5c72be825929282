import Choreo.Text.Blank

/-!
# Inline comments

A `#` starts a comment unless it stands between double quotes or after a backslash. A backslash
takes the meaning from the one character that follows it, be it a quote, a `#` or another backslash.
-/

namespace Choreo.Comment

/-- The text before the first `#` that starts a comment, given whether the text begins after a
backslash and whether it begins between quotes. -/
def before? (escaped quoted : Bool) : List Char → Option (List Char)
  | [] => none
  | c :: cs =>
    if escaped then (before? false quoted cs).map (c :: ·)
    else if c = '\\' then (before? true quoted cs).map (c :: ·)
    else if c = '"' then (before? false (!quoted) cs).map (c :: ·)
    else if c = '#' && !quoted then some []
    else (before? false quoted cs).map (c :: ·)

/-- The line without its comment. A line that has none is left as it is. -/
def strip (line : List Char) : List Char :=
  match before? false false line with
  | none => line
  | some head => Text.trim head

end Choreo.Comment
