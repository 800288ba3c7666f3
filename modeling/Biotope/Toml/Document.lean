import Biotope.Toml.Text

/-!
# Building TOML documents

A document is a sequence of statements: pairs of a key and a value, and headers. Headers
and dotted keys make tables, and a table is made once: a header may come back to a table
that lay on the way of an earlier header, and dotted keys to such a table or to one that
dotted keys made.
-/

namespace Biotope.Toml

inductive Making where
  | header
  /-- On the way of a header. -/
  | passage
  | dotted
deriving DecidableEq, Repr

inductive Item where
  | value (v : Value)
  | table (made : Making) (entries : List (String × Item))
  | rows (tables : List (List (String × Item)))

instance : Inhabited Item := ⟨.value default⟩

abbrev Entries := List (String × Item)

def lookup? (key : String) (entries : Entries) : Option Item :=
  (entries.find? (·.1 == key)).map (·.2)

def replace (key : String) (item : Item) (entries : Entries) : Entries :=
  entries.map fun e => if e.1 == key then (key, item) else e

/-- Applies a change to the last table of a repeated header. -/
def onLast (change : Entries → Except FlawKind Entries) (tables : List Entries) :
    Except FlawKind (List Entries) :=
  match tables.getLast? with
  | some last => do return tables.dropLast ++ [← change last]
  | none => do return [← change []]

/-! ## Pairs -/

/-- Puts a value under a dotted key, whose last part is given apart. -/
def putDotted (v : Value) (last : String) : List String → Entries → Except FlawKind Entries
  | [], entries =>
    match lookup? last entries with
    | some _ => .error (.duplicate last)
    | none => .ok (entries ++ [(last, .value v)])
  | key :: path, entries =>
    match lookup? key entries with
    | none => do return entries ++ [(key, .table .dotted (← putDotted v last path []))]
    | some (.table .header _) => .error (.duplicate key)
    | some (.table made es) => do
      return replace key (.table made (← putDotted v last path es)) entries
    | some (.rows tables) =>
      if path.isEmpty then .error (.duplicate last)
      else do return replace key (.rows (← onLast (putDotted v last path) tables)) entries
    | some (.value _) => .error (.noTable key)

/-- Puts a value under a key of one or more parts. -/
def putPair (path : List String) (v : Value) (entries : Entries) : Except FlawKind Entries :=
  match path.getLast? with
  | some last => putDotted v last path.dropLast entries
  | none => .ok entries

def putPairs (pairs : List (List String × Value)) (entries : Entries) : Except FlawKind Entries :=
  pairs.foldlM (fun entries p => putPair p.1 p.2 entries) entries

/-! ## Headers -/

def openTable (pairs : List (List String × Value)) (last : String) (entries : Entries) :
    Except FlawKind Entries :=
  match lookup? last entries with
  | none => do return entries ++ [(last, .table .header (← putPairs pairs []))]
  | some (.table .passage es) => do
    return replace last (.table .header (← putPairs pairs es)) entries
  | some _ => .error (.duplicate last)

def openRow (pairs : List (List String × Value)) (last : String) (entries : Entries) :
    Except FlawKind Entries :=
  match lookup? last entries with
  | none => do return entries ++ [(last, .rows [← putPairs pairs []])]
  | some (.rows tables) => do
    return replace last (.rows (tables ++ [← putPairs pairs []])) entries
  | some _ => .error (.duplicate last)

/-- Follows the path of a header and changes the table at its end. -/
def descend (change : Entries → Except FlawKind Entries) :
    List String → Entries → Except FlawKind Entries
  | [], entries => change entries
  | key :: path, entries =>
    match lookup? key entries with
    | none => do return entries ++ [(key, .table .passage (← descend change path []))]
    | some (.table made es) => do
      return replace key (.table made (← descend change path es)) entries
    | some (.rows tables) => do
      return replace key (.rows (← onLast (descend change path) tables)) entries
    | some (.value _) => .error (.noTable key)

/-! ## Values -/

mutual

def Item.toValue : Item → Value
  | .value v => v
  | .table _ entries => .table (entryValues entries)
  | .rows tables => .array (tableValues tables)

def entryValues : List (String × Item) → List (String × Value)
  | [] => []
  | e :: es => entryValue e :: entryValues es

def entryValue : String × Item → String × Value
  | (key, item) => (key, item.toValue)

def tableValues : List (List (String × Item)) → List Value
  | [] => []
  | t :: ts => .table (entryValues t) :: tableValues ts

end

/-! ## Statements -/

inductive Statement where
  | pair (path : List String) (v : Value)
  | header (path : List String)
  | row (path : List String)

/-- The header that pairs stand under, if any. -/
inductive Heading where
  | none
  | header (path : List String)
  | row (path : List String)

def close (heading : Heading) (pairs : List (List String × Value)) (root : Entries) :
    Except FlawKind Entries :=
  match heading with
  | .none => putPairs pairs root
  | .header path => descend (openTable pairs (path.getLastD "")) path.dropLast root
  | .row path => descend (openRow pairs (path.getLastD "")) path.dropLast root

/-- The entries of a document. Pairs since the last header are in `pairs`, the last first. -/
def build (heading : Heading) (pairs : List (List String × Value)) (root : Entries) :
    List Statement → Except FlawKind Entries
  | [] => close heading pairs.reverse root
  | .pair path v :: rest => build heading ((path, v) :: pairs) root rest
  | .header path :: rest => do
    build (.header path) [] (← close heading pairs.reverse root) rest
  | .row path :: rest => do
    build (.row path) [] (← close heading pairs.reverse root) rest

def tableOf (statements : List Statement) : Except FlawKind (List (String × Value)) := do
  return entryValues (← build .none [] [] statements)

end Biotope.Toml
