import Choreo.Text.Blank
import Choreo.Toml.Scalar
import Choreo.Toml.Value

/-!
# TOML documents

A document is a sequence of headings and of keys with values, each on a line of its own. Reading it
gives the table that it describes, or nothing if it breaks a rule anywhere. Arrays and braces may
stand inside one another to a fixed depth.
-/

namespace Choreo.Toml

abbrev Parse := StateT (List Char) Option

/-- How deep arrays and braces may be nested, and how many parts a dotted key may have. -/
def nestingLimit : Nat := 79

def expect (text : List Char) : Parse Unit :=
  fun cs => (Text.afterPrefix? text cs).map fun rest => ((), rest)

def takeWhile (isWanted : Char → Bool) : Parse (List Char) :=
  fun cs => some (cs.takeWhile isWanted, cs.dropWhile isWanted)

def skipBlanks : Parse Unit := do
  let _ ← takeWhile fun c => c == ' ' || c == '\t'

/-- Whether a character may stand in a comment, or in a text without escapes. -/
def isOrdinary (c : Char) : Bool := c == '\t' || (' ' ≤ c && c ≠ '\x7f')

/-- What is left of a text after blanks, line ends and comments. -/
def afterTrivia? (inComment : Bool) : List Char → Option (List Char)
  | [] => some []
  | '\n' :: cs => afterTrivia? false cs
  | '\r' :: '\n' :: cs => afterTrivia? false cs
  | c :: cs =>
    if inComment then if isOrdinary c then afterTrivia? true cs else none
    else if c = ' ' ∨ c = '\t' then afterTrivia? false cs
    else if c = '#' then afterTrivia? true cs
    else some (c :: cs)

def skipTrivia : Parse Unit := fun cs => (afterTrivia? false cs).map fun rest => ((), rest)

def lineEnd : Parse Unit := do
  skipBlanks
  match (← get).head? with
  | none => return
  | some c => if c = '#' ∨ c = '\n' ∨ c = '\r' then skipTrivia else failure

def separated {α : Type} (separator : Parse Unit) (item : Parse α) : Nat → Parse (List α)
  | 0 => failure
  | fuel + 1 => do
    let first ← item
    (do
      separator
      let rest ← separated separator item fuel
      return first :: rest) <|> return [first]

/-! ## Text -/

/-- The character with the number that `count` hexadecimal digits give. -/
def escapeByNumber (count : Nat) : Parse Char := do
  let digits := (← get).take count
  if digits.length ≠ count ∨ !digits.all isHexDigit then failure
  modify (·.drop count)
  let n := ofDigits 16 digits
  if h : n.isValidChar then return Char.ofNatAux n h else failure

def escape : Parse Char := do
  match ← get with
  | [] => failure
  | c :: cs =>
    set cs
    match c with
    | 'b' => return '\x08'
    | 't' => return '\t'
    | 'n' => return '\n'
    | 'f' => return '\x0c'
    | 'r' => return '\r'
    | '"' => return '"'
    | '\\' => return '\\'
    | 'u' => escapeByNumber 4
    | 'U' => escapeByNumber 8
    | _ => failure

/-- The rest of a text on one line up to its closing quote. Only double quotes know escapes. -/
def singleLine (quote : Char) : Nat → Parse (List Char)
  | 0 => failure
  | fuel + 1 => do
    match ← get with
    | [] => failure
    | c :: cs =>
      set cs
      if c = quote then return []
      else if c = '\\' ∧ quote = '"' then
        let c ← escape
        return c :: (← singleLine quote fuel)
      else if isOrdinary c then return c :: (← singleLine quote fuel)
      else failure

/-- What follows a backslash at the end of a line: all blanks and line ends before the next text. -/
def continuation? (cs : List Char) : Option (List Char) :=
  let isGap (c : Char) : Bool := c == ' ' || c == '\t'
  match cs.dropWhile isGap with
  | '\n' :: cs => some (gap cs)
  | '\r' :: '\n' :: cs => some (gap cs)
  | _ => none
where
  gap : List Char → List Char
    | ' ' :: cs => gap cs
    | '\t' :: cs => gap cs
    | '\n' :: cs => gap cs
    | '\r' :: '\n' :: cs => gap cs
    | cs => cs

/-- The rest of a text on several lines up to its three closing quotes, before which one or two more
may stand. Line ends are single line feeds. -/
def multiLine (quote : Char) : Nat → Parse (List Char)
  | 0 => failure
  | fuel + 1 => do
    match ← get with
    | [] => failure
    | '\n' :: cs =>
      set cs
      return '\n' :: (← multiLine quote fuel)
    | '\r' :: '\n' :: cs =>
      set cs
      return '\n' :: (← multiLine quote fuel)
    | c :: cs =>
      if c = quote then
        let run := ((c :: cs).takeWhile (· == quote)).length
        if run < 3 then
          modify (·.drop run)
          return List.replicate run quote ++ (← multiLine quote fuel)
        else
          let extra := min (run - 3) 2
          modify (·.drop (extra + 3))
          return List.replicate extra quote
      else
        set cs
        if c = '\\' ∧ quote = '"' then
          match continuation? cs with
          | some rest =>
            set rest
            multiLine quote fuel
          | none =>
            let c ← escape
            return c :: (← multiLine quote fuel)
        else if isOrdinary c then return c :: (← multiLine quote fuel)
        else failure

def quotedText (quote : Char) : Parse String := do
  expect [quote]
  return String.ofList (← singleLine quote ((← get).length + 1))

/-- A text in one or three quotes. A line end right after three quotes does not count. -/
def anyText (quote : Char) : Parse String :=
  (do
    expect [quote, quote, quote]
    expect ['\n'] <|> expect ['\r', '\n'] <|> return
    return String.ofList (← multiLine quote ((← get).length + 1))) <|> quotedText quote

/-! ## Keys -/

def isBare (c : Char) : Bool := c.isAlphanum || c == '_' || c == '-'

def simpleKey : Parse String := do
  match (← get).head? with
  | some '"' => quotedText '"'
  | some '\'' => quotedText '\''
  | _ =>
    match ← takeWhile isBare with
    | [] => failure
    | word => return String.ofList word

def dottedKey : Parse (List String × String) := do
  let part : Parse String := do
    skipBlanks
    let key ← simpleKey
    skipBlanks
    return key
  let parts ← separated (expect ['.']) part ((← get).length + 1)
  match parts.getLast? with
  | some key => if parts.length ≤ nestingLimit then return (parts.dropLast, key) else failure
  | none => failure

/-! ## Values -/

def scalar : Parse Value := do
  let word ← takeWhile fun c => c.isAlphanum || c == '+' || c == '-' || c == '_' || c == '.' || c == ':'
  if word = "true".toList then return .boolean true
  if word = "false".toList then return .boolean false
  if let some n := integer? word then return .integer n
  if isFloat word then return .float
  if isDatetime word then
    if isDate word then
      (do
        expect [' ']
        let time ← takeWhile fun c => c.isAlphanum || c == '+' || c == '-' || c == '.' || c == ':'
        if !isZonedTime time then failure) <|> return
    return .datetime
  failure

def pair (value : Parse Value) : Parse (List String × String × Value) := do
  let (path, key) ← dottedKey
  expect ['=']
  skipBlanks
  let value ← value
  skipBlanks
  return (path, key, value)

/-- A value with at most `depth` brackets around its innermost part. -/
def value (depth : Nat) : Parse Value := do
  match (← get).head? with
  | some '"' => return .string (← anyText '"')
  | some '\'' => return .string (← anyText '\'')
  | some '[' =>
    match depth with
    | 0 => failure
    | depth + 1 =>
      expect ['[']
      let element : Parse Value := do
        skipTrivia
        let element ← value depth
        skipTrivia
        return element
      let elements ← separated (expect [',']) element ((← get).length + 1) <|> return []
      if !elements.isEmpty then expect [','] <|> return
      skipTrivia
      expect [']']
      return .array elements
  | some '\x7b' =>
    match depth with
    | 0 => failure
    | depth + 1 =>
      expect ['\x7b']
      let pairs ← separated (expect [',']) (pair (value depth)) ((← get).length + 1) <|> return []
      skipBlanks
      expect ['\x7d']
      match Entries.insertAll .inlined [] pairs with
      | some entries => return .table .inlined entries
      | none => failure
  | _ => scalar

/-! ## Lines -/

inductive Line where
  | pair (path : List String) (key : String) (value : Value)
  | heading (path : List String) (key : String)
  | elementHeading (path : List String) (key : String)

def line : Parse Line := do
  match ← get with
  | '[' :: '[' :: cs =>
    set cs
    let (path, key) ← dottedKey
    expect [']', ']']
    lineEnd
    return .elementHeading path key
  | '[' :: cs =>
    set cs
    let (path, key) ← dottedKey
    expect [']']
    lineEnd
    return .heading path key
  | _ =>
    let (path, key, v) ← pair (value nestingLimit)
    lineEnd
    return .pair path key v

def lines : Nat → Parse (List Line)
  | 0 => failure
  | fuel + 1 => do
    skipTrivia
    if (← get).isEmpty then return []
    let first ← line
    return first :: (← lines fuel)

def leadingPairs : List Line → List (List String × String × Value)
  | .pair path key value :: rest => (path, key, value) :: leadingPairs rest
  | _ => []

def assemble (root : Entries) : List Line → Option Entries
  | [] => some root
  | .pair _ _ _ :: rest => assemble root rest
  | .heading path key :: rest =>
    (root.insertTable path key (leadingPairs rest)).bind fun root => assemble root rest
  | .elementHeading path key :: rest =>
    (root.insertElement path key (leadingPairs rest)).bind fun root => assemble root rest

/-- The table that a document describes. A mark of the byte order at its start does not count. -/
def read? (text : String) : Option Entries := do
  let cs := match text.toList with
    | '\ufeff' :: cs => cs
    | cs => cs
  let (ls, _) ← lines (cs.length + 1) cs
  let root ← Entries.insertAll .heading [] (leadingPairs ls)
  assemble root ls

end Choreo.Toml
