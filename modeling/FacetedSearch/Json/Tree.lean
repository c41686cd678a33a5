import FacetedSearch.Json.Token

/-!
# Trees of JSON texts

What a text holds, before it is decided which parts of it are read. One pass over the tokens builds the tree with
a stack of the containers that are still open.
-/

namespace FacetedSearch.Json

inductive Tree where
  /-- A scalar, or none if it has no value. -/
  | leaf (value : Option Json)
  | array (items : List Tree)
  /-- Every member in order, repeated names included. -/
  | object (members : List (Option String × Tree))

/-- An open container with what it holds so far, last entry first. -/
inductive Open where
  | array (items : List Tree)
  | object (members : List (Option String × Tree))
  /-- An object that waits for the value of a member. -/
  | member (members : List (Option String × Tree)) (key : Option String)

inductive Expected where
  | value
  | valueOrClose
  | keyOrClose
  | key
  | colon
  | commaOrClose
  | nothing (result : Tree)

structure State where
  stack : List Open
  expected : Expected

/-- A finished tree goes into the innermost open container. -/
def State.deliver (t : Tree) : List Open → Option State
  | [] => some ⟨[], .nothing t⟩
  | .array items :: outer => some ⟨.array (t :: items) :: outer, .commaOrClose⟩
  | .member members key :: outer => some ⟨.object ((key, t) :: members) :: outer, .commaOrClose⟩
  | .object _ :: _ => none

def State.closeArray : List Open → Option State
  | .array items :: outer => deliver (.array items.reverse) outer
  | _ => none

def State.closeObject : List Open → Option State
  | .object members :: outer => deliver (.object members.reverse) outer
  | _ => none

def State.beginValue (stack : List Open) : Token → Option State
  | .scalar v => deliver (.leaf v) stack
  | .text s => deliver (.leaf (s.map Json.str)) stack
  | .openArray => some ⟨.array [] :: stack, .valueOrClose⟩
  | .openObject => some ⟨.object [] :: stack, .keyOrClose⟩
  | _ => none

def State.step (state : State) (token : Token) : Option State :=
  match state.expected, token, state.stack with
  | .valueOrClose, .closeArray, stack => closeArray stack
  | .value, token, stack => beginValue stack token
  | .valueOrClose, token, stack => beginValue stack token
  | .keyOrClose, .closeObject, stack => closeObject stack
  | .keyOrClose, .text s, .object members :: outer => some ⟨.member members s :: outer, .colon⟩
  | .key, .text s, .object members :: outer => some ⟨.member members s :: outer, .colon⟩
  | .colon, .colon, stack => some ⟨stack, .value⟩
  | .commaOrClose, .comma, .array items :: outer => some ⟨.array items :: outer, .value⟩
  | .commaOrClose, .comma, .object members :: outer => some ⟨.object members :: outer, .key⟩
  | .commaOrClose, .closeArray, stack => closeArray stack
  | .commaOrClose, .closeObject, stack => closeObject stack
  | _, _, _ => none

/-- The tree of a text, if the text is well formed. -/
def Tree.ofText? (s : String) : Option Tree := do
  let state ← (← tokens? s.toList).foldlM State.step ⟨[], .value⟩
  match state.expected with
  | .nothing t => some t
  | _ => none

end FacetedSearch.Json
