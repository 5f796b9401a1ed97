import DirectoryWatch.Toml.Reader

/-!
# TOML documents

The statements of a text build one table. A table is made once: by its header, by dotted keys, or
on the way to another one, and only in the last case may a header still name it. What stands in
brackets or braces is finished and takes nothing more.
-/

namespace DirectoryWatch.Toml

/-- How a table came to be. -/
inductive Making where
  /-- On the way to another table. -/
  | passed
  | header
  | dotted
  deriving DecidableEq, Repr

inductive Item where
  | value (v : Toml)
  | table (making : Making) (members : List (String × Item))
  /-- An array of tables, the last one first. -/
  | tables (elements : List (List (String × Item)))
  deriving Repr

abbrev Members := List (String × Item)

namespace Members

def replace (members : Members) (key : String) (item : Item) : Members :=
  members.map fun m => if m.1 = key then (key, item) else m

/-- Changes the table under the keys; tables on the way that are missing are made. Of an array of
tables the last one is meant. -/
def change? (making : Making) (f : Members → Option Members) : List String → Members → Option Members
  | [], members => f members
  | key :: keys, members =>
    match members.lookup key with
    | none => (change? making f keys []).map fun inner => members ++ [(key, .table making inner)]
    | some (.table made inner) =>
      if making = .dotted ∧ made ≠ .dotted then none
      else (change? making f keys inner).map fun inner => members.replace key (.table made inner)
    | some (.tables (last :: before)) =>
      if making = .dotted then none
      else (change? making f keys last).map fun last => members.replace key (.tables (last :: before))
    | some _ => none

/-- Puts a value under dotted keys. -/
def assign? (value : Toml) (keys : List String) (members : Members) : Option Members :=
  match keys.reverse with
  | [] => none
  | last :: before =>
    change? .dotted
      (fun inner => if (inner.lookup last).isSome then none else some (inner ++ [(last, .value value)]))
      before.reverse members

/-- Opens the table that a header names. -/
def openTable? (keys : List String) (members : Members) : Option Members :=
  match keys.reverse with
  | [] => none
  | last :: before =>
    change? .passed
      (fun inner => match inner.lookup last with
        | none => some (inner ++ [(last, .table .header [])])
        | some (.table .passed found) => some (replace inner last (.table .header found))
        | some _ => none)
      before.reverse members

/-- Opens a new element of the array that a header names. -/
def openElement? (keys : List String) (members : Members) : Option Members :=
  match keys.reverse with
  | [] => none
  | last :: before =>
    change? .passed
      (fun inner => match inner.lookup last with
        | none => some (inner ++ [(last, .tables [[]])])
        | some (.tables elements) => some (replace inner last (.tables ([] :: elements)))
        | some _ => none)
      before.reverse members

/-- The members that statements build, `place` being the table they belong to. -/
def build? : List Statement → List String → Members → Option Members
  | [], _, members => some members
  | .header keys :: rest, _, members => do build? rest keys (← openTable? keys members)
  | .element keys :: rest, _, members => do build? rest keys (← openElement? keys members)
  | .assign keys value :: rest, place, members => do
    build? rest place (← change? .passed (assign? value keys) place members)

end Members

mutual

def Item.finish : Item → Toml
  | .value v => v
  | .table _ members => .table (finishMembers members)
  | .tables elements => .array (finishElements elements).reverse

def finishMembers : List (String × Item) → List (String × Toml)
  | [] => []
  | (key, item) :: rest => (key, item.finish) :: finishMembers rest

def finishElements : List (List (String × Item)) → List Toml
  | [] => []
  | members :: rest => .table (finishMembers members) :: finishElements rest

end

/-- The table that a text writes. -/
def read? (text : String) : Option (List (String × Toml)) := do
  let members ← Members.build? (← readStatements? text) [] []
  some (finishMembers members)

end DirectoryWatch.Toml
