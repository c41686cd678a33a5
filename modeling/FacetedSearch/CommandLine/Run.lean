import FacetedSearch.CommandLine.Options
import FacetedSearch.Query.Evaluation
import FacetedSearch.Search.Audit
import FacetedSearch.Search.Session

/-!
# Running the command line

One search is compiled and printed; then documents may be checked against its filter and the metrics printed.
What is printed before a failure stays. Files and environment are given as functions, so a run is a value.
-/

namespace FacetedSearch.CommandLine

structure Outcome where
  exitCode : Nat
  output : String
  /-- What went wrong, for the error stream. -/
  complaint : String := ""
deriving DecidableEq, Repr

/-- The current value of a variable, as the help shows it. -/
def environmentNote (environment : String → Option String) (name : String) : String :=
  " [env: " ++ name ++ "=" ++ (environment name).getD "" ++ "]"

def helpText (environment : String → Option String) : String :=
  let note := environmentNote environment
  String.join <| (·.map (· ++ "\n"))
    ["Compile URL-style search filters into query and aggregation documents",
      "",
      "Usage: facetql [OPTIONS] --query <QUERY>",
      "",
      "Options:",
      "  -q, --query <QUERY>            Query string to compile (e.g. \"type=Cohort&status=released\")",
      "      --principals <PRINCIPALS>  Comma-separated principals of the caller" ++
        note "FACETQL_PRINCIPALS" ++ " [default: system.Everyone]",
      "      --schema <SCHEMA>          Schema file: JSON object of doc type -> mapping (with facets)" ++
        note "FACETQL_SCHEMA",
      "      --config <CONFIG>          Compiler configuration overrides (JSON)" ++ note "FACETQL_CONFIG",
      "      --doc-types <DOC_TYPES>    Active document types; defaults to the `type` parameters of the query",
      "      --check <CHECK>            Evaluate the compiled filter against the JSON document(s) in this file",
      "      --pretty                   Pretty-print JSON output",
      "      --metrics                  Print compiler metrics after compiling",
      "  -h, --help                     Print help"]

def readFile (files : String → Option String) (path : String) : Except Failure String :=
  match files path with
  | some content => .ok content
  | none => .error (.inputOutput path)

/-- The value read from an optional file. -/
def load {α : Type _} (files : String → Option String) (default : α) (read : String → Except Failure α) :
    Option String → Except Failure α
  | some path => do read (← readFile files path)
  | none => .ok default

/-- The given document types, or every type the request names. -/
def Options.typesFor (o : Options) (request : Request) : List String :=
  if o.docTypes.isEmpty then request.values "type" else o.docTypes

structure Inputs where
  settings : Settings
  catalog : Catalog
  request : Request

def Options.inputs (o : Options) (files : String → Option String) : Except Failure Inputs := do
  let settings ← load files {} Settings.ofText o.settings
  let catalog ← load files {} Catalog.ofText o.schema
  return { settings, catalog, request := ← Request.ofQueryString o.query }

namespace Inputs

def compiler (i : Inputs) : Compiler := ⟨i.settings, i.catalog.lookup⟩

def compile (i : Inputs) (o : Options) : Except Failure CompiledSearch × Metrics :=
  let types := o.typesFor i.request
  i.compiler.compileRecorded {} i.request types (Principals.ofList o.principals) (i.catalog.facetsFor types)

end Inputs

/-- The documents in a file: the items of an array, or one value. -/
def documents (text : String) : Except Failure (List Json) :=
  match Json.read? text with
  | some (.arr items) => .ok items
  | some v => .ok [v]
  | none => .error (.serialization "invalid document")

def verdict (matched : Bool) : String := if matched then "match" else "no match"

/-- One line per document. -/
def checkLines (settings : Settings) (filter : Query) (docs : List Json) : String :=
  String.join <| docs.zipIdx.map fun (document, i) =>
    "document " ++ toString i ++ ": " ++ verdict (filter.accepts settings.rawSuffix document) ++ "\n"

def searchText (o : Options) (s : CompiledSearch) : String :=
  (if o.pretty then s.toJson.indented else s.toJson.compact) ++ "\n"

/-- The verdicts on the documents of the file to check, if there is one. -/
def Options.checkText (o : Options) (files : String → Option String) (settings : Settings) (filter : Query) :
    Except Failure String :=
  match o.check with
  | none => .ok ""
  | some path => do return checkLines settings filter (← documents (← readFile files path))

/-- A run that failed after `output` was printed. -/
def Outcome.failed (output : String) (failure : Failure) : Outcome :=
  { exitCode := 1, output, complaint := "Error: " ++ failure.message ++ "\n" }

/-- A run with options: exit code 1 for a failure. -/
def Options.run (o : Options) (files : String → Option String) : Outcome :=
  match o.inputs files with
  | .error failure => .failed "" failure
  | .ok inputs =>
    match inputs.compile o with
    | (.error failure, _) => .failed "" failure
    | (.ok search, metrics) =>
      let printed := searchText o search
      match o.checkText files inputs.settings search.filter with
      | .error failure => .failed printed failure
      | .ok checked =>
        { exitCode := 0, output := printed ++ checked ++ (if o.metrics then metrics.text else "") }

/-- A run with arguments: exit code 2 for wrong usage. -/
def run (files environment : String → Option String) (arguments : List String) : Outcome :=
  match Options.parse environment arguments with
  | .ok options => options.run files
  | .error .helpWanted => { exitCode := 0, output := helpText environment }
  | .error .wrongUsage =>
    { exitCode := 2, output := "", complaint := "error: wrong usage, try '--help' for the options\n" }

end FacetedSearch.CommandLine
