import FacetedSearch.Failure

/-!
# Metrics

Counts of compilations and failures, and their text in the Prometheus format.
-/

namespace FacetedSearch

structure Metrics where
  compiled : Nat := 0
  /-- Failures by code, codes in order. -/
  failures : List (String × Nat) := []
  /-- Failures that are security events. -/
  violations : Nat := 0
  /-- The number of facets of each compiled search. -/
  facetCounts : List Nat := []
deriving DecidableEq, Repr

namespace Metrics

/-- Adds one to the count of a name in a list ordered by name. -/
def increment (name : String) : List (String × Nat) → List (String × Nat)
  | [] => [(name, 1)]
  | (k, n) :: rest =>
    if name = k then (k, n + 1) :: rest
    else if name < k then (name, 1) :: (k, n) :: rest
    else (k, n) :: increment name rest

def recordCompilation (m : Metrics) (facets : Nat) : Metrics :=
  { m with compiled := m.compiled + 1, facetCounts := m.facetCounts ++ [facets] }

def recordFailure (m : Metrics) (failure : Failure) : Metrics :=
  { m with
    failures := increment failure.code m.failures
    violations := if failure.isSecurityEvent then m.violations + 1 else m.violations }

/-! ## Text -/

/-- The upper ends of the buckets for facet counts. -/
def bucketLimits : List Nat := [0, 1, 2, 5, 10, 20, 50]

def header (name help kind : String) : List String :=
  ["# HELP " ++ name ++ " " ++ help, "# TYPE " ++ name ++ " " ++ kind]

def sample (name : String) (value : Nat) : String := name ++ " " ++ toString value

def labelled (name label value : String) : String :=
  name ++ "\x7b" ++ label ++ "=\"" ++ value ++ "\"\x7d"

/-- Failures by code; nothing before the first failure. -/
def failureLines (m : Metrics) : List String :=
  let name := "facetql_compile_errors_total"
  if m.failures.isEmpty then []
  else header name "Total number of failed compiles by error type" "counter" ++
    m.failures.map fun (code, n) => sample (labelled name "type" code) n

/-- The facets of all compiled searches together. -/
def facetTotal (m : Metrics) : Nat := m.facetCounts.foldr (· + ·) 0

/-- Facet counts, each bucket with everything below it. -/
def facetLines (m : Metrics) : List String :=
  let name := "facetql_facets_per_query"
  let bucket (limit : String) (n : Nat) := sample (labelled (name ++ "_bucket") "le" limit) n
  header name "Facet aggregations per compiled search" "histogram" ++
    (bucketLimits.map fun limit =>
      bucket (toString limit) (m.facetCounts.countP (· ≤ limit))) ++
    [bucket "+Inf" m.facetCounts.length, sample (name ++ "_sum") m.facetTotal,
      sample (name ++ "_count") m.facetCounts.length]

def violationLines (m : Metrics) : List String :=
  let name := "facetql_permission_violations_total"
  header name "Permission filters that were missing or did not match the caller" "counter" ++
    [sample name m.violations]

def compiledLines (m : Metrics) : List String :=
  let name := "facetql_queries_compiled_total"
  header name "Total number of searches compiled" "counter" ++ [sample name m.compiled]

def lines (m : Metrics) : List String :=
  m.failureLines ++ m.facetLines ++ m.violationLines ++ m.compiledLines

def text (m : Metrics) : String := String.join (m.lines.map (· ++ "\n"))

end Metrics

end FacetedSearch
