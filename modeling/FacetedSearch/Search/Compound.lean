import FacetedSearch.Json.Record
import FacetedSearch.Search.Compilation

/-!
# Compound searches

Saved searches of several blocks, joined by "or" or by "and". Each block is checked for permissions on its own;
global flags are parameters added to the blocks.
-/

namespace FacetedSearch

inductive Combination where
  | any
  | all
deriving DecidableEq, Repr

namespace Combination

def name : Combination → String
  | any => "or"
  | all => "and"

def ofName? : String → Option Combination
  | "or" => some any
  | "and" => some all
  | _ => none

def ofJson? (v : Json) : Option Combination := v.tag?.bind ofName?

def join : Combination → List Query → Query
  | any, filters => .bool [] [] filters
  | all, filters => .bool filters [] []

end Combination

structure FilterBlock where
  query : String
  /-- Whether the global flags apply. -/
  flagsApplied : Bool := true
deriving DecidableEq, Repr

structure CompoundSearch where
  blocks : List FilterBlock := []
  /-- The blocks are joined by "and". -/
  intersect : Bool := false
  /-- Query string added to the blocks. -/
  globalFlags : Option String := none
deriving DecidableEq, Repr

namespace FilterBlock

def ofJson? (v : Json) : Option FilterBlock := do
  let r ← v.record? ["query", "flags_applied"]
  return { query := ← r.required "query" Json.str?, flagsApplied := ← r.field "flags_applied" Json.bool? true }

def toJson (b : FilterBlock) : Json := .obj [("query", .str b.query), ("flags_applied", .bool b.flagsApplied)]

end FilterBlock

namespace CompoundSearch

def combination (s : CompoundSearch) : Combination := if s.intersect then .all else .any

/-- The query string of a block with the flags that apply to it. -/
def blockQuery (s : CompoundSearch) (b : FilterBlock) : String :=
  let flags := if b.flagsApplied then s.globalFlags.getD "" else ""
  if flags.isEmpty then b.query
  else if b.query.isEmpty then flags
  else b.query ++ "&" ++ flags

def ofJson? (v : Json) : Option CompoundSearch := do
  let r ← v.record? ["filter_blocks", "intersect", "global_flags"]
  let blocks ← r.required "filter_blocks" (Json.list? FilterBlock.ofJson?)
  let intersect ← r.field "intersect" Json.bool? false
  let globalFlags ← r.field "global_flags" (Json.nullable? Json.str?) none
  return { blocks, intersect, globalFlags }

def toJson (s : CompoundSearch) : Json :=
  .obj [("filter_blocks", .arr (s.blocks.map FilterBlock.toJson)), ("intersect", .bool s.intersect),
    ("global_flags", Json.ofOption s.globalFlags)]

end CompoundSearch

namespace Compiler

def compileBlock (c : Compiler) (types : List String) (principals : Principals) (query : String) :
    Except Failure Query := do
  let request ← Request.ofQueryString query
  return (← c.compileFilter request (c.searchTypes request types) principals).2

/-- The joined filter of the blocks; without blocks the flags are searched alone. -/
def compileCompound (c : Compiler) (s : CompoundSearch) (types : List String) (principals : Principals) :
    Except Failure Query :=
  match s.blocks with
  | [] => c.compileBlock types principals (s.globalFlags.getD "")
  | blocks => do
    return s.combination.join
      (← blocks.mapM fun b => c.compileBlock types principals (s.blockQuery b))

end Compiler

end FacetedSearch
