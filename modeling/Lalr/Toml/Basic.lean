set_option autoImplicit false

/-!
TOML documents and how tables come about in them. A table may be opened by a header,
made on the way to another table, made by a dotted key, or written out in one place;
how it came about decides what may still be added to it.
-/

namespace Lalr

/-- How a table came about. -/
inductive Toml.Origin where
  /-- Opened by a header, or the document itself. -/
  | header
  /-- Made on the way to the table of a header. -/
  | implicit
  /-- Made by a dotted key. -/
  | dotted
  /-- Written between braces. -/
  | inline
deriving DecidableEq, Repr, Inhabited

/-- A TOML value. Of numbers with a fraction and of dates only the presence is kept. -/
inductive Toml where
  | string (text : String)
  | integer (value : Int)
  | boolean (value : Bool)
  | float
  | date
  | array (items : List Toml)
  | table (origin : Toml.Origin) (members : List (String × Toml))
  /-- The tables opened by headers in double brackets. -/
  | tables (items : List Toml)
deriving Repr, Inhabited

namespace Toml

/-- The empty document. -/
def empty : Toml :=
  .table .header []

/-- Puts a member in the place of the one with its name, or behind all others. -/
def setMember (key : String) (value : Toml) : List (String × Toml) → List (String × Toml)
  | [] => [(key, value)]
  | (name, old) :: members =>
      if name = key then (key, value) :: members else (name, old) :: setMember key value members

/-- Changes the table that a path of keys leads to, from a table on. Tables that are not
there are made. Tables in braces are closed, and a path of dotted keys may not pass a
table that a header opened; of several tables under one key the last is meant. -/
def updateAt? (dotted : Bool) (change : Origin → List (String × Toml) → Option Toml) :
    List String → Toml → Option Toml
  | [], .table origin members => change origin members
  | key :: keys, .table origin members =>
      let made : Toml := .table (if dotted then .dotted else .implicit) []
      let below :=
        match (members.lookup key).getD made with
        | .table inner found =>
            if inner = Origin.inline || (dotted && inner = Origin.header) then none
            else updateAt? dotted change keys (.table inner found)
        | .tables items => do
            let last ← updateAt? dotted change keys (← items.getLast?)
            pure (.tables (items.dropLast ++ [last]))
        | _ => none
      below.map fun value => .table origin (setMember key value members)
  | _, _ => none

/-- Opens the table with a name, which must be new or have been made on the way to
another one. -/
def openTable (name : String) (origin : Origin) (members : List (String × Toml)) : Option Toml :=
  match members.lookup name with
  | none => some (.table origin (members ++ [(name, empty)]))
  | some (.table .implicit below) =>
      some (.table origin (setMember name (.table .header below) members))
  | some _ => none

/-- Adds a table to those under a name. -/
def addTable (name : String) (origin : Origin) (members : List (String × Toml)) : Option Toml :=
  match members.lookup name with
  | none => some (.table origin (members ++ [(name, .tables [empty])]))
  | some (.tables items) =>
      some (.table origin (setMember name (.tables (items ++ [empty])) members))
  | some _ => none

/-- Adds a value under a new name. Dotted keys only add to tables that dotted keys
made. -/
def addValue (name : String) (value : Toml) (byDottedKey : Bool) (origin : Origin)
    (members : List (String × Toml)) : Option Toml :=
  if (origin == .dotted) != byDottedKey || (members.lookup name).isSome then none
  else some (.table origin (members ++ [(name, value)]))

/-- Adds a value under a dotted key to a table. -/
def insert? (opened : Toml) (path : List String) (name : String) (value : Toml) : Option Toml :=
  updateAt? true (addValue name value !path.isEmpty) path opened

end Toml

end Lalr
