/-!
# Blank characters

A character is blank when Unicode gives it the property White_Space. Trimming and splitting into
words go by this class, which is wider than the ASCII blanks that core knows.
-/

namespace Choreo.Text

/-- The characters with the property White_Space. -/
def isBlank (c : Char) : Bool :=
  let n := c.toNat
  (9 ≤ n && n ≤ 13) || n == 0x20 || n == 0x85 || n == 0xa0 || n == 0x1680 ||
    (0x2000 ≤ n && n ≤ 0x200a) || n == 0x2028 || n == 0x2029 || n == 0x202f || n == 0x205f ||
    n == 0x3000

def trimStart (cs : List Char) : List Char := cs.dropWhile isBlank

def trimEnd (cs : List Char) : List Char := (cs.reverse.dropWhile isBlank).reverse

def trim (cs : List Char) : List Char := trimEnd (trimStart cs)

/-- The first word of a text that starts with one, and what follows it. -/
def splitWord (cs : List Char) : List Char × List Char :=
  (cs.takeWhile (!isBlank ·), cs.dropWhile (!isBlank ·))

/-- What follows `start` in a text that begins with it. -/
def afterPrefix? (start : List Char) (cs : List Char) : Option (List Char) :=
  match start, cs with
  | [], cs => some cs
  | _ :: _, [] => none
  | s :: ss, c :: cs => if s = c then afterPrefix? ss cs else none

theorem afterPrefix?_eq_some_iff {start cs rest : List Char} :
    afterPrefix? start cs = some rest ↔ cs = start ++ rest := by
  fun_induction afterPrefix? start cs <;> simp_all [eq_comm]

end Choreo.Text
