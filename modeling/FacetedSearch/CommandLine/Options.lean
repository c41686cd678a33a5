import FacetedSearch.Text.Affix

/-!
# Options

The options of the command line. A value follows its option or is attached to it; single options may be given
once; a list may be given in parts. Some options fall back to an environment variable.
-/

namespace FacetedSearch.CommandLine

structure Options where
  query : String
  principals : String := "system.Everyone"
  schema : Option String := none
  settings : Option String := none
  docTypes : List String := []
  check : Option String := none
  pretty : Bool := false
  metrics : Bool := false
deriving DecidableEq, Repr

inductive Valued where
  | query | principals | schema | settings | docTypes | check
deriving DecidableEq, Repr

inductive Flag where
  | pretty | metrics
deriving DecidableEq, Repr

inductive Refusal where
  | wrongUsage
  | helpWanted
deriving DecidableEq, Repr

inductive Name where
  | valued (v : Valued)
  | flag (f : Flag)
  | help
deriving DecidableEq, Repr

def Name.ofLong? : String → Option Name
  | "query" => some (.valued .query)
  | "principals" => some (.valued .principals)
  | "schema" => some (.valued .schema)
  | "config" => some (.valued .settings)
  | "doc-types" => some (.valued .docTypes)
  | "check" => some (.valued .check)
  | "pretty" => some (.flag .pretty)
  | "metrics" => some (.flag .metrics)
  | "help" => some .help
  | _ => none

/-- A file name must not be empty. -/
def Valued.isFile : Valued → Bool
  | .schema | .settings | .check => true
  | .query | .principals | .docTypes => false

def Valued.isRepeatable (v : Valued) : Bool := v == .docTypes

/-- The environment variable that stands in for an option. -/
def Valued.variable? : Valued → Option String
  | .principals => some "FACETQL_PRINCIPALS"
  | .schema => some "FACETQL_SCHEMA"
  | .settings => some "FACETQL_CONFIG"
  | .query | .docTypes | .check => none

inductive Word where
  /-- Ends the options. -/
  | terminator
  /-- A long option, with the value attached by `=` if there is one. -/
  | long (name : String) (attached : Option String)
  /-- A short option and the text behind its letter. -/
  | short (letter : Char) (rest : List Char)
  | plain (text : String)

def Word.of (argument : String) : Word :=
  match argument.toList with
  | ['-', '-'] => .terminator
  | '-' :: '-' :: rest =>
    match Text.cutAt? '=' (String.ofList rest) with
    | some (name, value) => .long name (some value)
    | none => .long (String.ofList rest) none
  | '-' :: letter :: rest => .short letter rest
  | _ => .plain argument

structure Given where
  values : List (Valued × String) := []
  flags : List Flag := []

namespace Given

def addValue (g : Given) (v : Valued) (value : String) : Except Refusal Given :=
  if (!v.isRepeatable && g.values.any (·.1 == v)) || (v.isFile && value.isEmpty) then .error .wrongUsage
  else .ok { g with values := g.values ++ [(v, value)] }

def addFlag (g : Given) (f : Flag) : Except Refusal Given :=
  if f ∈ g.flags then .error .wrongUsage else .ok { g with flags := g.flags ++ [f] }

def value? (g : Given) (v : Valued) : Option String := (g.values.find? (·.1 == v)).map Prod.snd

/-- The value of an option, from the arguments or the environment. -/
def resolve? (g : Given) (environment : String → Option String) (v : Valued) :
    Except Refusal (Option String) :=
  match g.value? v with
  | some value => .ok (some value)
  | none =>
    match v.variable?.bind environment with
    | some value => if v.isFile && value.isEmpty then .error .wrongUsage else .ok (some value)
    | none => .ok none

end Given

/-- Collects options; a value that looks like an option is none. -/
def collect (g : Given) : List String → Except Refusal Given
  | [] => .ok g
  | argument :: rest =>
    match Word.of argument with
    | .terminator => if rest.isEmpty then .ok g else .error .wrongUsage
    | .plain _ => .error .wrongUsage
    | .long name attached =>
      match Name.ofLong? name, attached, rest with
      | some (.flag f), none, rest => do collect (← g.addFlag f) rest
      | some .help, none, _ => .error .helpWanted
      | some (.valued v), some value, rest => do collect (← g.addValue v value) rest
      | some (.valued v), none, value :: rest => following v value rest
      | _, _, _ => .error .wrongUsage
    | .short 'h' _ => .error .helpWanted
    | .short 'q' ('=' :: value) => do collect (← g.addValue .query (String.ofList value)) rest
    | .short 'q' (c :: value) => do collect (← g.addValue .query (String.ofList (c :: value))) rest
    | .short 'q' [] =>
      match rest with
      | value :: rest => following .query value rest
      | [] => .error .wrongUsage
    | .short .. => .error .wrongUsage
where
  /-- A value in an argument of its own. -/
  following (v : Valued) (value : String) (rest : List String) : Except Refusal Given :=
    match Word.of value with
    | .plain value => do collect (← g.addValue v value) rest
    | _ => .error .wrongUsage

/-- The options in the arguments; the query is required. -/
def Options.parse (environment : String → Option String) (arguments : List String) :
    Except Refusal Options := do
  let g ← collect {} arguments
  let principals ← g.resolve? environment .principals
  let schema ← g.resolve? environment .schema
  let settings ← g.resolve? environment .settings
  match g.value? .query with
  | none => throw .wrongUsage
  | some query =>
    return {
      query, schema, settings
      principals := principals.getD "system.Everyone"
      docTypes := (g.values.filter (·.1 == .docTypes)).flatMap fun v => Text.pieces ',' v.2
      check := g.value? .check
      pretty := g.flags.contains .pretty
      metrics := g.flags.contains .metrics }

end FacetedSearch.CommandLine
