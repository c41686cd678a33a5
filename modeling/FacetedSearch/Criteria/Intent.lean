import FacetedSearch.Bound.Bounds
import FacetedSearch.Index.Lookup
import FacetedSearch.Request

/-!
# Intents

What one parameter asks for. A trailing `!` negates. An ending `.from` or `.to` bounds a range, but only on a
field that takes ranges; anywhere else the whole name is an ordinary field.
-/

namespace FacetedSearch

inductive Intent where
  /-- Reserved, or satisfied by every document. -/
  | skip
  /-- Documents of this type, or of others. -/
  | docType (value : String) (negated : Bool)
  | term (field value : String) (negated : Bool)
  /-- Documents without the field, or with it when negated. -/
  | noValue (field : String) (negated : Bool)
  | range (field : String) (direction : Bound.Direction) (literal : String)
deriving DecidableEq, Repr

/-- The field and direction of a range name. -/
def rangeName? (name : String) : Option (String × Bound.Direction) :=
  match Text.before? ".from" name with
  | some field => some (field, .gte)
  | none => (Text.before? ".to" name).map fun field => (field, .lte)

/-- A name without its mark of negation, and whether it had one. -/
def splitNegation (field : String) : String × Bool :=
  match Text.before? "!" field with
  | some name => (name, true)
  | none => (field, false)

namespace FieldView

/-- The range a name bounds, if its field takes ranges. -/
def range? (view : FieldView) (name : String) : Option (String × Bound.Direction) :=
  (rangeName? name).filter fun range => view.isRangeable range.1

def intent (view : FieldView) (p : Parameter) : Intent :=
  if view.settings.isReserved p.field then .skip
  else
    let (name, negated) := splitNegation p.field
    if name = "type" then
      if p.value = view.settings.baseType ∧ negated = false then .skip else .docType p.value negated
    else if p.value = view.settings.noValueLabel then .noValue name negated
    else
      match if negated then none else view.range? name with
      | some (field, direction) => .range field direction p.value
      | none => .term name p.value negated

end FieldView

end FacetedSearch
