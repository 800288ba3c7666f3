import Biotope.Json.Reader
import Biotope.Text.Quoted
import Biotope.Toml.Reader

/-!
# Layers of settings

Settings are put together from sources, each laid over those before it: a file, and then
single values from the environment. A `Layer` is what the sources say, before anyone asks
whether it makes sense. Every value remembers where it comes from.
-/

namespace Biotope

inductive Scalar where
  | absent
  | bool (b : Bool)
  | int (n : Int)
  | float (x : Float)
  | text (s : String)

instance : Inhabited Scalar := ⟨.absent⟩

inductive Layer where
  | scalar (value : Scalar) (origin : Option String)
  | list (items : List Layer) (origin : Option String)
  | table (entries : List (String × Layer)) (origin : Option String)

namespace Layer

def blank : Layer := .scalar .absent none

instance : Inhabited Layer := ⟨blank⟩

def empty : Layer := .table [] none

def entries : Layer → List (String × Layer)
  | .table es _ => es
  | _ => []

def items : Layer → List Layer
  | .list is _ => is
  | _ => []

def isBlank : Layer → Bool
  | .scalar .absent _ => true
  | _ => false

/-! ## Entries -/

/-- Changes the entry of a key, which is blank before if it is new. -/
def change (key : String) (f : Layer → Layer) : List (String × Layer) → List (String × Layer)
  | [] => [(key, f blank)]
  | e :: es => if e.1 == key then (key, f e.2) :: es else e :: change key f es

def lookup? (key : String) (es : List (String × Layer)) : Option Layer :=
  (es.find? (·.1 == key)).map (·.2)

/-- Changes an entry of a table. What is not a table becomes one. -/
def changeEntry (key : String) (f : Layer → Layer) : Layer → Layer
  | .table es origin => .table (change key f es) origin
  | _ => .table (change key f []) none

/-- Changes an item of a list, a negative index counting from the end. The list grows on
either side until it has the item, and what is not a list becomes one. -/
def changeItem (index : Int) (f : Layer → Layer) (l : Layer) : Layer :=
  let origin := match l with | .list _ origin => origin | _ => none
  let items := l.items
  if 0 ≤ index ∨ -index ≤ items.length then
    let i := if 0 ≤ index then index.toNat else (items.length + index).toNat
    let items := items ++ List.replicate (i + 1 - items.length) blank
    .list (items.modify i f) origin
  else
    let missing := (-index).toNat - items.length
    .list ((List.replicate missing blank ++ items).modify 0 f) origin

/-! ## Paths -/

inductive Step where
  | key (name : String)
  | index (i : Int)
deriving DecidableEq, Repr

/-- A place in a table: a key, and steps from its value on. -/
structure Path where
  root : String
  steps : List Step := []
deriving DecidableEq, Repr

def isNameChar (c : Char) : Bool := c.isAlphanum || c == '_' || c == '-'

def isSpace (c : Char) : Bool := c == ' ' || c == '\t'

def index? (cs : List Char) : Option (Int × List Char) := do
  let cs := cs.dropWhile isSpace
  let (negative, cs) := match cs with
    | '-' :: cs => (true, cs)
    | cs => (false, cs)
  let ds := cs.takeWhile Char.isDigit
  guard (!ds.isEmpty)
  let n : Int := Decimal.digitsValue ds
  let n := if negative then -n else n
  guard (Toml.fits n)
  match (cs.dropWhile Char.isDigit).dropWhile isSpace with
  | ']' :: cs => some (n, cs)
  | _ => none

def steps? : Nat → List Char → Option (List Step)
  | _, [] => some []
  | 0, _ => none
  | fuel + 1, '.' :: cs => do
    let name := cs.takeWhile isNameChar
    guard (!name.isEmpty)
    return .key (String.ofList name) :: (← steps? fuel (cs.dropWhile isNameChar))
  | fuel + 1, '[' :: cs => do
    let (i, cs) ← index? cs
    return .index i :: (← steps? fuel cs)
  | _, _ => none

/-- The place that a key means: names with points between them and indices in brackets. A
key of another form means itself. -/
def Path.ofKey (key : String) : Path :=
  let cs := key.toList
  let name := cs.takeWhile isNameChar
  if name.isEmpty then ⟨key, []⟩
  else
    match steps? cs.length (cs.dropWhile isNameChar) with
    | some steps => ⟨String.ofList name, steps⟩
    | none => ⟨key, []⟩

def changeAt (f : Layer → Layer) : List Step → Layer → Layer
  | [] => f
  | .key name :: steps => changeEntry name (changeAt f steps)
  | .index i :: steps => changeItem i (changeAt f steps)

/-! ## Laying over -/

mutual

/-- Lays a value over another. Tables are merged entry by entry, and an empty table leaves
what is not blank. -/
def lay : Layer → Layer → Layer
  | .table es _, below => layEntries es (if below.isBlank then empty else below)
  | .scalar v origin, _ => .scalar v origin
  | .list is origin, _ => .list is origin

def layEntries : List (String × Layer) → Layer → Layer
  | [], below => below
  | e :: es, below => layEntries es (layEntry e below)

def layEntry : String × Layer → Layer → Layer
  | (key, l), below => changeEntry key (lay l) below

end

def put (key : String) (l : Layer) (below : Layer) : Layer :=
  let path := Path.ofKey key
  changeEntry path.root (changeAt (lay l) path.steps) below

/-- Lays a source over what has been said before, key by key. -/
def putAll (source : List (String × Layer)) (below : Layer) : Layer :=
  source.foldl (fun l e => put e.1 e.2 l) below

end Layer

end Biotope
