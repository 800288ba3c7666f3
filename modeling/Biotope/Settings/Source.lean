import Biotope.Settings.Layer
import Biotope.Text.Case

/-!
# Sources of settings

A settings file is in TOML or in JSON, as its extension says. In the environment, every
variable whose name starts with `GENEPOOL__` gives one value.
-/

namespace Biotope

structure SettingsFile where
  path : String
  location : String
  /-- Where its values say that they come from. -/
  name : String
  /-- Nothing if there is no such file. -/
  content : Option String

/-- What keeps sources from being read, or values from being used. -/
inductive SourceError where
  | noFile (path : String)
  | noFormat (path : String)
  | malformed (reason name : String)
  | mismatch (found expected key : String) (origin : Option String)
  | unusable (reason key : String)

def SourceError.message : SourceError → String
  | noFile path => "configuration file \"" ++ path ++ "\" not found"
  | noFormat path =>
    "configuration file \"" ++ path ++ "\" is not of a supported file format"
  | malformed reason name => reason ++ " in " ++ name
  | mismatch found expected key origin =>
    "invalid type: " ++ found ++ ", expected " ++ expected ++ " for key `" ++ key ++ "`" ++
      match origin with
      | some o => " in " ++ o
      | none => ""
  | unusable reason key => reason ++ " for key `" ++ key ++ "`"

namespace Layer

/-! ## TOML -/

mutual

def ofToml (origin : String) : Toml.Value → Layer
  | .bool b => .scalar (.bool b) origin
  | .integer n => .scalar (.int n) origin
  | .float x => .scalar (.float x) origin
  | .string s => .scalar (.text s) origin
  | .moment t => .scalar (.text t) origin
  | .array items => .list (allOfToml origin items) origin
  | .table entries => .table (entriesOfToml origin entries) origin

def allOfToml (origin : String) : List Toml.Value → List Layer
  | [] => []
  | v :: vs => ofToml origin v :: allOfToml origin vs

def entriesOfToml (origin : String) : List (String × Toml.Value) → List (String × Layer)
  | [] => []
  | e :: es => entryOfToml origin e :: entriesOfToml origin es

def entryOfToml (origin : String) : String × Toml.Value → String × Layer
  | (key, v) => (key, ofToml origin v)

end

/-! ## JSON -/

/-- A number of 64 bits, with or without a sign, stays whole; a larger one becomes a float. -/
def ofInt (n : Int) : Scalar :=
  if Int64.minValue.toInt ≤ n ∧ n < UInt64.size then .int n
  else .float ((⟨n.natAbs, 0⟩ : Decimal).toFloat (decide (n < 0)))

mutual

/-- Of equal keys the last one counts. -/
def ofJson (origin : String) : Json.Value → Layer
  | .null => .scalar .absent origin
  | .bool b => .scalar (.bool b) origin
  | .int n => .scalar (ofInt n) origin
  | .float x => .scalar (.float x) origin
  | .string s => .scalar (.text s) origin
  | .array items => .list (allOfJson origin items) origin
  | .object fields => .table (fieldsOfJson origin fields []) origin

def allOfJson (origin : String) : List Json.Value → List Layer
  | [] => []
  | v :: vs => ofJson origin v :: allOfJson origin vs

def fieldsOfJson (origin : String) :
    List (String × Json.Value) → List (String × Layer) → List (String × Layer)
  | [], acc => acc
  | f :: fs, acc => fieldsOfJson origin fs (fieldOfJson origin f acc)

def fieldOfJson (origin : String) :
    String × Json.Value → List (String × Layer) → List (String × Layer)
  | (key, v), acc => change key (fun _ => ofJson origin v) acc

end

def depthLimit : Nat := 127

/-! ## Files -/

def extension (path : String) : String :=
  let name := (path.toList.splitOn '/').getLastD []
  if name.contains '.' then
    let parts := name.splitOn '.'
    if parts.length = 2 ∧ parts.head? = some [] then "" else String.ofList (parts.getLastD [])
  else ""

def readToml (name text : String) : Except SourceError (List (String × Layer)) :=
  match Toml.read text with
  | .ok entries => .ok (entriesOfToml name entries)
  | .error f => .error (.malformed (f.message text) name)

def readJson (name text : String) : Except SourceError (List (String × Layer)) :=
  let document := Json.read text
  let flawed (reason : String) : Except SourceError (List (String × Layer)) :=
    .error (.malformed reason name)
  match document.root.flaw?.or document.rest with
  | some f => flawed f.kind.message
  | none =>
    match document.root.value with
    | .object fields =>
      if depthLimit < (Json.Value.object fields).depth then flawed "recursion limit exceeded"
      else .ok (fieldsOfJson name fields [])
    | _ => flawed "invalid root: expected a map"

/-- The entries of a file. A byte order mark in front of the text is skipped. -/
def ofFile (file : SettingsFile) : Except SourceError (List (String × Layer)) :=
  match file.content with
  | none => .error (.noFile file.path)
  | some text =>
    let cs := text.toList
    let text := if cs.head? = some '\ufeff' then String.ofList (cs.drop 1) else text
    match extension file.location with
    | "toml" => readToml file.name text
    | "json" => readJson file.name text
    | _ => .error (.noFormat file.location)

/-! ## The environment -/

def lead : List Char := "genepool__".toList

def pointed : List Char → List Char
  | '_' :: '_' :: cs => '.' :: pointed cs
  | c :: cs => c :: pointed cs
  | [] => []

/-- The key that a variable stands for, if it is one of ours. -/
def key? (name : String) : Option String :=
  let cs := (Text.lower name).toList
  if lead.isPrefixOf cs then some (String.ofList (pointed (cs.drop lead.length)))
  else none

/-- The value of a variable: a boolean, a number, or else its text. -/
def ofVariable (text : String) : Scalar :=
  let lower := Text.lower text
  if lower = "true" then .bool true
  else if lower = "false" then .bool false
  else
    match (Decimal.int? text).filter Toml.fits with
    | some n => .int n
    | none =>
      match Decimal.float? text with
      | some x => .float x
      | none => .text text

def ofEnvironment (environment : List (String × String)) : List (String × Layer) :=
  environment.filterMap fun (name, text) =>
    (key? name).map fun key => (key, .scalar (ofVariable text) "the environment")

end Layer

end Biotope
