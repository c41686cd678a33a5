import FacetedSearch.CommandLine.Run

/-!
# Command line

Reads the files that the options name and prints what the run gives.
-/

namespace FacetedSearch.CommandLine

/-- The variables that options fall back to, as they are set now. -/
def currentVariables : IO (List (String × String)) := do
  let names := [Valued.principals, Valued.schema, Valued.settings].filterMap Valued.variable?
  let found ← names.mapM fun name => do return (← IO.getEnv name).map (name, ·)
  return found.filterMap id

/-- The contents of the files that can be read. -/
def contents (paths : List String) : IO (List (String × String)) := do
  let found ← paths.mapM fun (path : String) => do
    try
      let content ← IO.FS.readFile path
      pure (some (path, content))
    catch _ => pure none
  return found.filterMap id

end FacetedSearch.CommandLine

open FacetedSearch CommandLine in
def main (arguments : List String) : IO UInt32 := do
  let known ← currentVariables
  let environment (name : String) := Table.find? name known
  let paths := match Options.parse environment arguments with
    | .ok o => [o.schema, o.settings, o.check].filterMap id
    | .error _ => []
  let files ← contents paths
  let outcome := run (Table.find? · files) environment arguments
  IO.print outcome.output
  IO.eprint outcome.complaint
  return UInt32.ofNat outcome.exitCode
