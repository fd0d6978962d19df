import Standin.Json.Basic

namespace Standin.Toml

inductive Item
  | value (v : Json)
  /-- `implied` tables were only led through; `dotted` ones come from dotted keys. -/
  | table (implied dotted : Bool) (members : List (String × Item))
  /-- Tables of one name, the last of which is being written. -/
  | tables (all : List (List (String × Item)))

abbrev Members := List (String × Item)

/-- Changes what stands under a key, or puts something there. -/
def alter (key : String) (change : Option Item → Option Item) : Members → Option Members
  | [] => (change none).map fun item => [(key, item)]
  | (k, item) :: more =>
    if k = key then (change (some item)).map fun item => (k, item) :: more
    else (alter key change more).map ((k, item) :: ·)

/-- The item in place of the last table of one name. -/
def changeLast (change : Members → Option Members) : List Members → Option (List Members)
  | [] => none
  | [last] => (change last).map fun last => [last]
  | first :: more => (changeLast change more).map (first :: ·)

/-- Changes the members of the table that a header leads to, making the tables on the way. -/
def atHeader (change : Members → Option Members) : List String → Members → Option Members
  | [], members => change members
  | key :: more, members =>
    alter key (fun
      | none => (atHeader change more []).map (.table true false)
      | some (.table implied dotted inner) =>
        (atHeader change more inner).map (.table implied dotted)
      | some (.tables all) => (changeLast (atHeader change more) all).map .tables
      | some (.value _) => none) members

/-- Changes the members of the table that a dotted key leads to. Such tables come from dotted keys
alone. -/
def atDotted (change : Members → Option Members) : List String → Members → Option Members
  | [], members => change members
  | key :: more, members =>
    alter key (fun
      | none => (atDotted change more []).map (.table true true)
      | some (.table implied dotted inner) =>
        if !implied || (more.isEmpty && !dotted) then none
        else (atDotted change more inner).map (.table implied dotted)
      | some (.tables all) =>
        if more.isEmpty then none else (changeLast (atDotted change more) all).map .tables
      | some (.value _) => none) members

def define (key : String) (item : Item) : Members → Option Members :=
  alter key fun
    | none => some item
    | some _ => none

/-- Writes `a.b.c = v`. -/
def defineDotted (path : List String) (key : String) (v : Json) (members : Members) :
    Option Members :=
  atDotted (define key (.value v)) path members

/-- Opens the table of `[key]`. -/
def openTable (key : String) : Members → Option Members :=
  alter key fun
    | none => some (.table false false [])
    | some (.table true false inner) => some (.table false false inner)
    | _ => none

/-- Opens one more table of `[[key]]`. -/
def openNext (key : String) : Members → Option Members :=
  alter key fun
    | none => some (.tables [[]])
    | some (.tables all) => some (.tables (all ++ [[]]))
    | _ => none

mutual

def Item.toJson : Item → Json
  | .value v => v
  | .table _ _ members => .object (membersJson members)
  | .tables all => .array (tablesJson all)

def membersJson : List (String × Item) → List (String × Json)
  | [] => []
  | (key, item) :: more => (key, item.toJson) :: membersJson more

def tablesJson : List (List (String × Item)) → List Json
  | [] => []
  | members :: more => .object (membersJson members) :: tablesJson more

end

end Standin.Toml
