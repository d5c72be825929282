/-!
# TOML values

A document is a table. Tables differ in how they came about, because a table may be written in one
place only: under its own heading, inside braces, through a dotted key, or merely as the parent of
another table's heading.
-/

namespace Choreo.Toml

inductive Origin where
  /-- It has a heading of its own. -/
  | heading
  /-- It is the parent of a table with a heading. -/
  | implied
  /-- It was begun by a dotted key. -/
  | dotted
  /-- It stands between braces. -/
  | inlined
deriving DecidableEq

inductive Value where
  | string (text : String)
  | integer (n : Int)
  | float
  | boolean (b : Bool)
  | datetime
  | array (elements : List Value)
  | table (origin : Origin) (entries : List (String × Value))
  /-- Tables under repeated headings in double brackets. -/
  | tables (elements : List (List (String × Value)))
deriving Inhabited

abbrev Entries := List (String × Value)

namespace Entries

def get? (entries : Entries) (key : String) : Option Value := entries.lookup key

/-- Sets the value of a key, in its place if it has one. -/
def put (entries : Entries) (key : String) (value : Value) : Entries :=
  match entries with
  | [] => [(key, value)]
  | (k, v) :: rest => if k = key then (key, value) :: rest else (k, v) :: put rest key value

/-- Changes the table that a path leads to, adding the tables that are missing on the way. A dotted
key may not lead into a table that was written elsewhere, and no path leads into braces. In an array
of tables it goes on in the last one. -/
def update (dotted : Bool) (change : Origin → Entries → Option Entries) :
    List String → Origin → Entries → Option Entries
  | [], origin, entries => change origin entries
  | key :: path, _, entries =>
    match entries.get? key with
    | none =>
      let origin := if dotted then Origin.dotted else Origin.implied
      (update dotted change path origin []).map fun inner => entries.put key (.table origin inner)
    | some (.table origin inner) =>
      if origin = .inlined ∨ (dotted ∧ origin = .heading) then none
      else (update dotted change path origin inner).map fun inner =>
        entries.put key (.table origin inner)
    | some (.tables elements) =>
      (update dotted change path .heading (elements.getLast?.getD [])).map fun inner =>
        entries.put key (.tables (elements.dropLast ++ [inner]))
    | some _ => none

/-- Adds a value under a key that may be dotted. The key must be new, and the part before its last
dot must lead to a table that is written by dotted keys. -/
def insert (entries : Entries) (origin : Origin) (path : List String) (key : String)
    (value : Value) : Option Entries :=
  entries.update true
    (fun origin inner =>
      if origin = .dotted ↔ path = [] then none
      else if (inner.get? key).isSome then none
      else some (inner.put key value))
    path origin

def insertAll (origin : Origin) (entries : Entries) :
    List (List String × String × Value) → Option Entries
  | [] => some entries
  | (path, key, value) :: rest =>
    (entries.insert origin path key value).bind fun entries => insertAll origin entries rest

/-- Adds a table under a heading. Only a table that was merely implied may be there already. -/
def insertTable (root : Entries) (path : List String) (key : String)
    (pairs : List (List String × String × Value)) : Option Entries :=
  root.update false
    (fun _ parent =>
      match parent.get? key with
      | none => (insertAll .heading [] pairs).map fun inner =>
          parent.put key (.table .heading inner)
      | some (.table .implied inner) => (insertAll .heading inner pairs).map fun inner =>
          parent.put key (.table .heading inner)
      | some _ => none)
    path .heading

def insertElement (root : Entries) (path : List String) (key : String)
    (pairs : List (List String × String × Value)) : Option Entries :=
  root.update false
    (fun _ parent =>
      (insertAll .heading [] pairs).bind fun inner =>
        match parent.get? key with
        | none => some (parent.put key (.tables [inner]))
        | some (.tables elements) => some (parent.put key (.tables (elements ++ [inner])))
        | some _ => none)
    path .heading

end Entries

end Choreo.Toml
