import FacetedSearch.Search.Compound
import FacetedSearch.Search.Metrics

/-!
# Sessions

Calls to one compiler that keeps metrics. Compilations of requests and permission checks are counted; a query
string that cannot be read and compound searches are not.
-/

namespace FacetedSearch

inductive Call where
  | compile (request : Request) (types : List String) (principals : Principals) (declared : List Facet)
  | compileQueryString (query : String) (types : List String) (principals : Principals)
      (declared : List Facet)
  | compileCompound (search : CompoundSearch) (types : List String) (principals : Principals)
  | verify (filter : Query) (principals : Principals)

inductive Answer where
  | search (s : CompiledSearch)
  | filter (q : Query)
  | verified

namespace Metrics

/-- Counts the outcome of a compilation. -/
def recordOutcome (m : Metrics) : Except Failure CompiledSearch → Metrics
  | .ok s => m.recordCompilation s.facets.length
  | .error failure => m.recordFailure failure

/-- Counts a failed check; a passed one leaves no trace. -/
def recordCheck (m : Metrics) : Except Failure Unit → Metrics
  | .ok _ => m
  | .error failure => m.recordFailure failure

end Metrics

namespace Compiler

def compileRecorded (c : Compiler) (m : Metrics) (request : Request) (types : List String)
    (principals : Principals) (declared : List Facet) : Except Failure CompiledSearch × Metrics :=
  let outcome := c.compile request types principals declared
  (outcome, m.recordOutcome outcome)

def call (c : Compiler) (m : Metrics) : Call → Except Failure Answer × Metrics
  | .compile request types principals declared =>
    let (outcome, m) := c.compileRecorded m request types principals declared
    (outcome.map .search, m)
  | .compileQueryString query types principals declared =>
    match Request.ofQueryString query with
    | .error failure => (.error failure, m)
    | .ok request =>
      let (outcome, m) := c.compileRecorded m request types principals declared
      (outcome.map .search, m)
  | .compileCompound search types principals =>
    ((c.compileCompound search types principals).map .filter, m)
  | .verify filter principals =>
    let outcome := c.guard.verify filter principals
    (outcome.map fun _ => .verified, m.recordCheck outcome)

def metricsAfter (c : Compiler) (m : Metrics) (calls : List Call) : Metrics :=
  calls.foldl (fun m call => (c.call m call).2) m

end Compiler

end FacetedSearch
